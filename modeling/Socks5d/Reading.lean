import Socks5d.Phases
import Socks5d.Sending

/-!
# Receiving from the client

The part of a client read that all phases share, on the view: the bytes `recv` delivered are
appended to `in_buff` and the phase's read handler is called, which is a parameter here. The
primitives by which these handlers answer are followed as well.
-/

namespace Socks5d

open Fallible

variable {mode : Mode} {hole : Bool} {c : ConnId} {s₀ s : Server} {v : View}

/-- A frame that excludes writes through an unset `origin_fd` is one that admits them. -/
theorem Frame.admitZero {zero : Bool} (h : Frame zero c s₀ s) : Frame true c s₀ s where
  conns := h.conns
  stms := h.stms
  items fd := by
    rcases h.items fd with heq | htouched | ⟨-, hown, hi⟩
    · exact .inl heq
    · exact .inr (.inl htouched)
    · exact .inr (.inr ⟨rfl, hown, hi⟩)
  owners := h.owners
  registrations := h.registrations
  trace := h.trace
  resolving := h.resolving
  jobs := h.jobs
  nextConn := h.nextConn
  users := h.users
  bufferSize := h.bufferSize
  maxConn := h.maxConn
  junk := h.junk

theorem Tracks.admitZero (h : Tracks mode hole c s₀ v s) :
    Tracks ⟨true, mode.tidy⟩ hole c s₀ v s :=
  { h with frame := h.frame.admitZero }

/-- The error counter is no part of what a callback is followed by. -/
theorem Lands.incErrors {r : Result} (h : Lands mode hole c s₀ r s) :
    Lands mode hole c s₀ r s.incErrors := by
  cases r with
  | alive v => exact Tracks.incErrors h
  | gone history =>
    have h' : Released mode c s₀ history s := h
    have hskeleton : SameSkeleton s s.incErrors :=
      { items := fun fd => ⟨(s.selector.fds fd).interest, rfl⟩, owner := rfl, ids := fun _ => rfl
        stms := fun _ => rfl, nextConn := rfl, resolving := rfl, jobs := rfl, fdSize := rfl
        trace := fun _ ho => .inl ho }
    exact
      { owned := h'.owned.of_skeleton hskeleton
        conns := h'.conns
        stms := h'.stms
        history_eq := h'.history_eq
        frame := h'.frame.step (fun _ _ => rfl) (fun _ _ => rfl) (fun _ => .inl rfl)
          (fun _ => .inl rfl) (fun _ _ _ r hr => ⟨r.2, hr⟩) ⟨[], by simp [Server.incErrors], by simp⟩
          (fun _ _ => rfl) ⟨[], rfl, by simp⟩ ⟨rfl, rfl, rfl, rfl, rfl⟩
        tidy := fun ht => (h'.tidy ht).of_skeleton hskeleton }

/-- `buffer_write_struct` appends a reply whole, or leaves it out when it does not fit. -/
inductive Queued (c : ConnId) (kind : ReplyKind) (bytes : List UInt8) (v : View) : View → Prop
  | queued (buff : Buffer)
      (hfit : 0 < v.conn.outBuff.space ∧ bytes.length ≤ v.conn.outBuff.space)
      (hcontent : buff.content = v.conn.outBuff.content ++ bytes)
      (hcapacity : buff.capacity = v.conn.outBuff.capacity)
      (hspace : buff.space = v.conn.outBuff.space - bytes.length) :
      Queued c kind bytes v { v with
        conn := { v.conn with outBuff := buff }
        history := v.history ++ [.queued c kind bytes] }
  | dropped (hfull : ¬ (0 < v.conn.outBuff.space ∧ bytes.length ≤ v.conn.outBuff.space)) :
      Queued c kind bytes v v

/-- What queueing a reply leaves alone. -/
theorem Queued.fields {kind : ReplyKind} {bytes : List UInt8} {w : View}
    (h : Queued c kind bytes v w) :
    w.conn = { v.conn with outBuff := w.conn.outBuff } ∧
      w.conn.outBuff.capacity = v.conn.outBuff.capacity ∧ w.phase = v.phase ∧
      w.interest = v.interest ∧ w.relay = v.relay ∧ w.tokens = v.tokens := by
  cases h with
  | queued buff hfit hcontent hcapacity hspace => exact ⟨rfl, hcapacity, rfl, rfl, rfl, rfl⟩
  | dropped hfull => exact ⟨rfl, rfl, rfl, rfl, rfl, rfl⟩

/-- After a reply was queued there is something to send. -/
theorem Queued.content_ne_nil {kind : ReplyKind} {bytes : List UInt8} {w : View}
    (h : Queued c kind bytes v w) (hbytes : bytes ≠ [])
    (hcapacity : bytes.length ≤ v.conn.outBuff.capacity) : w.conn.outBuff.content ≠ [] := by
  cases h with
  | queued buff hfit hcontent _ _ =>
    intro hnil
    rw [hcontent] at hnil
    exact hbytes (List.append_eq_nil_iff.mp hnil).2
  | dropped hfull =>
    intro hnil
    rw [Buffer.space_of_content_nil _ hnil] at hfull
    have hpos := List.length_pos_of_ne_nil hbytes
    exact hfull ⟨by omega, hcapacity⟩

/-- A reply that fits in an empty buffer is queued and is all there is to send. -/
theorem Queued.of_empty {kind : ReplyKind} {bytes : List UInt8} {w : View}
    (h : Queued c kind bytes v w) (hempty : v.conn.outBuff.content = []) (hbytes : bytes ≠ [])
    (hcapacity : bytes.length ≤ v.conn.outBuff.capacity) :
    w.conn.outBuff.content = bytes ∧ w.history = v.history ++ [.queued c kind bytes] ∧
      w.conn.outBuff.space = v.conn.outBuff.capacity - bytes.length := by
  cases h with
  | queued buff hfit hcontent _ hspace =>
    exact ⟨by rw [hcontent, hempty, List.nil_append], rfl,
      by rw [hspace, Buffer.space_of_content_nil _ hempty]⟩
  | dropped hfull =>
    rw [Buffer.space_of_content_nil _ hempty] at hfull
    have hpos := List.length_pos_of_ne_nil hbytes
    exact absurd ⟨by omega, hcapacity⟩ hfull

namespace Tracks

theorem queueReply (h : Tracks mode hole c s₀ v s) (kind : ReplyKind) (bytes : List UInt8) :
    ∃ s' w, s.queueReply c kind bytes = .ok s' ∧ Queued c kind bytes v w ∧
      Tracks mode hole c s₀ w s' := by
  by_cases hfit : 0 < v.conn.outBuff.space ∧ bytes.length ≤ v.conn.outBuff.space
  · have hcan : bufferCanWrite v.conn.outBuff = true ∧ bytes.length ≤ v.conn.outBuff.space :=
      ⟨(Buffer.bufferCanWrite_iff _).mpr hfit.1, hfit.2⟩
    obtain ⟨buff, hbuff⟩ := Buffer.bufferWriteAdv_store_succeeds v.conn.outBuff hfit.2
    obtain ⟨hcontent, hcapacity⟩ := Buffer.bufferWriteAdv_store_eq_ok hfit.2 hbuff
    have h₁ := (h.setConn { v.conn with outBuff := buff } rfl rfl rfl).note
      (.queued c kind bytes) rfl
    refine ⟨_, _, ?_, .queued buff hfit hcontent hcapacity
      (Buffer.bufferWriteAdv_store_space hfit.2 hbuff), h₁⟩
    simp only [Server.queueReply, h.conn_eq, ok_bind, bufferWriteStruct, if_pos hcan, hbuff,
      pure_eq_ok]
  · have hcan : ¬ (bufferCanWrite v.conn.outBuff = true ∧
        bytes.length ≤ v.conn.outBuff.space) := by
      rwa [Buffer.bufferCanWrite_iff]
    have h₁ := h.setConn v.conn rfl rfl rfl
    refine ⟨_, _, ?_, .dropped hfit, h₁⟩
    simp only [Server.queueReply, h.conn_eq, ok_bind, bufferWriteStruct, if_neg hcan, pure_eq_ok]

end Tracks

/-- The view after `in_buff` was reset. -/
def View.reset (v : View) (c : ConnId) : View :=
  { v with
    conn := { v.conn with inBuff := bufferReset v.conn.inBuff }
    history := v.history ++
      if v.conn.inBuff.content = [] then [] else [.discarded c v.conn.inBuff.content] }

@[simp] theorem content_bufferReset (b : Buffer) : (bufferReset b).content = [] := by
  simp [Buffer.content, bufferReset]

/-- The arguments with which the access of a connection is registered. -/
def View.accessCall (v : View) (status : UInt8) (now : ℕ) : AccessCall where
  username := v.conn.username
  srcIp := v.conn.srcAddress
  srcPort := v.conn.srcPort
  destination := v.conn.dstAddress
  destPort := v.conn.dstPort
  statusCode := status
  timestamp := now

namespace Tracks

theorem resetInBuff (h : Tracks mode hole c s₀ v s) :
    ∃ s', s.resetInBuff c = .ok s' ∧ Tracks mode hole c s₀ (v.reset c) s' := by
  have h₁ := h.setConn { v.conn with inBuff := bufferReset v.conn.inBuff } rfl rfl rfl
  by_cases hempty : v.conn.inBuff.content = []
  · refine ⟨s.setConn c { v.conn with inBuff := bufferReset v.conn.inBuff }, ?_, ?_⟩
    · simp only [Server.resetInBuff, h.conn_eq, ok_bind, hempty, if_true, pure_eq_ok]
    · simpa [View.reset, hempty] using h₁
  · have h₂ := h₁.note (.discarded c v.conn.inBuff.content) rfl
    refine ⟨(s.setConn c { v.conn with inBuff := bufferReset v.conn.inBuff }).note
      (.discarded c v.conn.inBuff.content), ?_, ?_⟩
    · simp only [Server.resetInBuff, h.conn_eq, ok_bind, hempty, if_false, pure_eq_ok]
    · simpa [View.reset, hempty] using h₂

theorem accessRegisterAddEntry (h : Tracks mode hole c s₀ v s) (status : UInt8) (now : ℕ) :
    ∃ s', s.accessRegisterAddEntry c status now = .ok s' ∧ Tracks mode hole c s₀
      { v with history := v.history ++ [.access c (v.accessCall status now)] } s' := by
  have h₁ := h.note (.access c (v.accessCall status now)) rfl
  refine ⟨_, ?_, h₁⟩
  simp only [Server.accessRegisterAddEntry, h.conn_eq, ok_bind, pure_eq_ok, View.accessCall]

end Tracks

/-- The view after `recv` delivered bytes from the client, which `in_buff` now ends with. -/
def View.received (v : View) (c : ConnId) (buff : Buffer) (bytes : List UInt8) : View :=
  { v with
    conn := { v.conn with inBuff := buff }
    history := v.history ++ [.recv c .client bytes] }

/-- The outcomes of a client read, given those of the phase's read handler. -/
inductive ClientRead (c : ConnId) (v : View) (env : Env) (Q : View → Result → Prop) :
    Result → Prop
  | full (hfull : v.conn.inBuff.space = 0) :
      ClientRead c v env Q (.alive { v with
        interest := OP_NOOP, relay := v.relay.map fun r => (r.1, OP_WRITE) })
  | ended (hspace : 0 < v.conn.inBuff.space) (hrecv : env.recv = .eof) :
      ClientRead c v env Q (.gone (v.history ++ [.ended c .client, .released c]))
  | blocked (hspace : 0 < v.conn.inBuff.space) (hrecv : env.recv = .failed .eagain) :
      ClientRead c v env Q (.alive v)
  | broken (e : Errno) (hspace : 0 < v.conn.inBuff.space) (hrecv : env.recv = .failed e)
      (he : e ≠ .eagain) : ClientRead c v env Q (.gone (v.history ++ [.released c]))
  | handled (first : UInt8) (rest : List UInt8) (buff : Buffer) (r : Result)
      (hspace : 0 < v.conn.inBuff.space) (hrecv : env.recv = .data first rest)
      (hcontent : buff.content =
        v.conn.inBuff.content ++ (first :: rest).take v.conn.inBuff.space)
      (hcapacity : buff.capacity = v.conn.inBuff.capacity)
      (hread : Q (v.received c buff ((first :: rest).take v.conn.inBuff.space)) r) :
      ClientRead c v env Q r

/-- Every registration of an origin follows a set `origin_fd`. -/
theorem Tracks.relay_eq_none (h : Tracks mode hole c s₀ v s) (hle : v.conn.originFd ≤ 0) :
    v.relay = none := by
  obtain ⟨-, -, -, hrelay, -⟩ := view_eq_some_iff.mp h.view
  rw [← hrelay, Server.relay, if_neg (by omega)]

/-- A client read hands the received bytes to the phase. -/
theorem Tracks.socksv5Read (h : Tracks mode hole c s₀ v s) {key : SelectorKey}
    (hkey : key = ⟨v.conn.clientFd, c⟩) (env : Env) (htokens : v.tokens = 0) {T : Fault → Prop}
    (Q : View → Result → Prop)
    (hread : ∀ buff bytes s', 0 < v.conn.inBuff.space →
      (∃ first rest, env.recv = .data first rest ∧
        bytes = (first :: rest).take v.conn.inBuff.space) →
      buff.content = v.conn.inBuff.content ++ bytes →
      Tracks mode hole c s₀ (v.received c buff bytes) s' → s'.selector = s.selector →
      Holds T (stmHandlerRead key env s') fun out => ∃ r,
        Q (v.received c buff bytes) r ∧ Lands mode hole c s₀ r out.2) :
    Holds T (Socks5d.socksv5Read key env s) fun s' => ∃ r,
      ClientRead c v env Q r ∧ Lands mode hole c s₀ r s' := by
  subst hkey
  unfold Socks5d.socksv5Read
  rw [h.conn_eq, ok_bind]
  by_cases hfull : v.conn.inBuff.space = 0
  · have hcan : bufferCanWrite v.conn.inBuff = false := by
      rw [Bool.eq_false_iff, ne_eq, Buffer.bufferCanWrite_iff]
      omega
    simp only [hcan, Bool.not_false, if_true, holds_pure]
    refine ⟨_, .full hfull, ?_⟩
    have h₁ := h.armClient OP_NOOP
    by_cases hzero : v.conn.originFd = 0
    · rw [if_neg (by simp [hzero])]
      have hnone : v.relay = none := h.relay_eq_none (by omega)
      simpa [Lands, hnone] using h₁
    · rw [if_pos hzero]
      exact h₁.armOrigin OP_WRITE (.inr hzero)
  · have hspace : 0 < v.conn.inBuff.space := by omega
    have hcan : bufferCanWrite v.conn.inBuff = true := (Buffer.bufferCanWrite_iff _).mpr hspace
    simp only [hcan, Bool.not_true, Bool.false_eq_true, if_false]
    cases hrecv : env.recv with
    | data first rest =>
      simp only
      have hfit : ((first :: rest).take v.conn.inBuff.space).length ≤ v.conn.inBuff.space := by
        rw [List.length_take]
        omega
      obtain ⟨buff, hadv⟩ := Buffer.bufferWriteAdv_store_succeeds _ hfit
      obtain ⟨hcontent, hcapacity⟩ := Buffer.bufferWriteAdv_store_eq_ok hfit hadv
      rw [hadv, ok_bind]
      have h₁ : Tracks mode hole c s₀
          (v.received c buff ((first :: rest).take v.conn.inBuff.space)) _ :=
        (h.setConn { v.conn with inBuff := buff } rfl rfl rfl).note
          (.recv c .client ((first :: rest).take v.conn.inBuff.space)) rfl
      refine (hread buff _ _ hspace ⟨first, rest, hrecv, rfl⟩ hcontent h₁ rfl).bind ?_
      rintro ⟨state, s'⟩ ⟨r, hQ, hlands⟩
      refine ⟨r, .handled first rest buff r hspace hrecv hcontent hcapacity hQ, ?_⟩
      simp only
      split
      · exact hlands.incErrors
      · exact hlands
    | eof =>
      obtain ⟨s', hs', h'⟩ :=
        (h.note (.ended c .client) rfl).unregisterBoth true false htokens (.inl rfl)
      simp only [hs', holds_ok]
      exact ⟨_, .ended hspace hrecv, by simpa [Lands] using h'⟩
    | failed e =>
      by_cases he : e = .eagain
      · subst he
        simp only [if_true, holds_pure]
        exact ⟨_, .blocked hspace hrecv, h.setErrno .eagain⟩
      · simp only [he, if_false]
        obtain ⟨s', hs', h'⟩ :=
          ((h.setErrno e).incErrors).unregisterBoth true false htokens (.inl rfl)
        rw [hs', holds_ok]
        exact ⟨_, .broken e hspace hrecv he, h'⟩

end Socks5d
