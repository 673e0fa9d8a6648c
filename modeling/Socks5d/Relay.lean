import Socks5d.Sending

/-!
# Relaying

The handlers of the relay phase, followed on the view. The only way one of them faults is the
send inside `copy_read`: when it fails, the connection is released under the state machine that
called it.
-/

namespace Socks5d

open Fallible

variable {mode : Mode} {hole : Bool} {c : ConnId} {s₀ s : Server} {v : View}

/-- A `send` that makes the origin's writer give up. -/
def FatalSend (out : SendOutcome) : Prop :=
  out = .zero ∨ ∃ e, out = .failed e ∧ e ≠ .eagain

instance (out : SendOutcome) : Decidable (FatalSend out) :=
  match out with
  | .accepted _ => isFalse (by simp [FatalSend])
  | .zero => isTrue (.inl rfl)
  | .failed e =>
    if h : e = .eagain then isFalse (by simp [FatalSend, h])
    else isTrue (.inr ⟨e, rfl, h⟩)

/-- The view after the origin took some of `in_buff`, of which the given buffer is left. -/
def View.delivered (v : View) (c : ConnId) (n : ℕ) (left : Buffer) : View :=
  { v with
    conn := { v.conn with inBuff := bufferCompact left }
    relay := if bufferCanRead left then v.relay else v.relay.map fun r => (r.1, OP_READ)
    interest := if bufferCanWrite v.conn.inBuff then v.interest else OP_READ
    history := v.history ++ [.send c .origin (v.conn.inBuff.content.take (n + 1))] }

/-- The outcomes of `copy_write_handler`. -/
inductive CopyWrote (c : ConnId) (v : View) (out : SendOutcome) : Result → Prop
  | idle (hempty : v.conn.inBuff.content = []) :
      CopyWrote c v out (.alive { v with relay := v.relay.map fun r => (r.1, OP_NOOP) })
  | blocked (hleft : v.conn.inBuff.content ≠ []) (hout : out = .failed .eagain) :
      CopyWrote c v out (.alive v)
  | delivered (n : ℕ) (left : Buffer) (hleft : v.conn.inBuff.content ≠ [])
      (hout : out = .accepted n) (hcontent : left.content = v.conn.inBuff.content.drop (n + 1))
      (hcapacity : left.capacity = v.conn.inBuff.capacity) :
      CopyWrote c v out (.alive (v.delivered c n left))
  | broken (hleft : v.conn.inBuff.content ≠ []) (hout : FatalSend out) :
      CopyWrote c v out (.gone (v.history ++ [.released c]))

theorem Tracks.copyWriteHandler (h : Tracks mode hole c s₀ v s) {key : SelectorKey}
    (hkey : key.data = c) (out : SendOutcome) (htokens : v.tokens = 0)
    (hz : mode.zero = true ∨ v.conn.originFd ≠ 0)
    (hfatal : v.conn.originFd ≠ 0 ∨ ¬ FatalSend out) :
    ∃ s' r, Socks5d.copyWriteHandler key out s = .ok s' ∧ CopyWrote c v out r ∧
      Lands mode hole c s₀ r s' := by
  subst hkey
  unfold Socks5d.copyWriteHandler
  simp only [h.conn_eq, ok_bind]
  by_cases hleft : v.conn.inBuff.content = []
  · have hread : bufferCanRead v.conn.inBuff = false :=
      (Buffer.bufferCanRead_eq_false_iff _).mpr hleft
    simp only [hread, Bool.not_false, if_true, pure_eq_ok]
    exact ⟨_, _, rfl, .idle hleft, h.armOrigin OP_NOOP hz⟩
  · have hread : bufferCanRead v.conn.inBuff = true := (Buffer.bufferCanRead_iff _).mpr hleft
    simp only [hread, Bool.not_true, Bool.false_eq_true, if_false]
    cases out with
    | zero =>
      have hne := hfatal.resolve_right (not_not_intro (.inl rfl))
      obtain ⟨s', hs', h'⟩ := h.unregisterBoth false false htokens (.inr hne)
      exact ⟨s', _, hs', .broken hleft (.inl rfl), h'⟩
    | failed e =>
      by_cases he : e = .eagain
      · subst he
        exact ⟨s.setErrno .eagain, _, rfl, .blocked hleft rfl, h.setErrno .eagain⟩
      · have hfail : FatalSend (.failed e) := .inr ⟨e, rfl, he⟩
        have hne := hfatal.resolve_right (not_not_intro hfail)
        simp only [he, if_false]
        obtain ⟨s', hs', h'⟩ := (h.setErrno e).unregisterBoth false false htokens (.inr hne)
        exact ⟨s', _, hs', .broken hleft hfail, h'⟩
    | accepted n =>
      simp only
      have hlen : (v.conn.inBuff.content.take (n + 1)).length ≤ v.conn.inBuff.content.length := by
        rw [List.length_take]
        omega
      obtain ⟨left, hadv⟩ := Buffer.bufferReadAdv_succeeds _ hlen
      obtain ⟨hcontent, hcapacity⟩ := Buffer.bufferReadAdv_eq_ok hadv
      have hdrop : left.content = v.conn.inBuff.content.drop (n + 1) := by
        rw [hcontent, List.length_take]
        rcases Nat.le_total (n + 1) v.conn.inBuff.content.length with hle | hle
        · rw [Nat.min_eq_left hle]
        · rw [Nat.min_eq_right hle, List.drop_length, List.drop_eq_nil_of_le hle]
      rw [hadv, ok_bind]
      have h₁ := (h.note (.send key.data .origin (v.conn.inBuff.content.take (n + 1)))
        rfl).setConn { v.conn with inBuff := bufferCompact left } rfl rfl rfl
      refine ⟨_, .alive (v.delivered key.data n left), rfl,
        .delivered n left hleft rfl hdrop hcapacity, ?_⟩
      unfold View.delivered
      cases hl : bufferCanRead left with
      | true =>
        cases hw : bufferCanWrite v.conn.inBuff with
        | true => exact h₁
        | false => exact h₁.armClient OP_READ
      | false =>
        have h₂ := h₁.armOrigin OP_READ hz
        cases hw : bufferCanWrite v.conn.inBuff with
        | true => exact h₂
        | false => exact h₂.armClient OP_READ

/-- The close callback faults only on what was released before. -/
theorem handleClose_memory (item : Item) (s : Server) :
    Holds Fault.isMemory (handleClose item s) fun _ => True := by
  have hfree : ∀ c (s : Server), Holds Fault.isMemory (socks5StmFree c s) fun _ => True := by
    intro c s
    unfold socks5StmFree
    cases s.stms c <;> trivial
  unfold handleClose
  split
  · unfold socksv5Close Server.conn
    cases s.conns _ with
    | none => trivial
    | some k =>
      rw [ok_bind]
      cases k.stm with
      | false => trivial
      | true =>
        simp only [if_true]
        rw [holds_bind]
        exact (hfree _ _).mono fun _ _ => trivial
  all_goals trivial

/-- A release faults only on what was released before. -/
theorem selectorUnregisterFd_memory (s : Server) (fd : ℤ) :
    Holds Fault.isMemory (selectorUnregisterFd s fd) fun _ => True := by
  unfold selectorUnregisterFd
  split
  · trivial
  · rw [holds_bind]
    exact (handleClose_memory _ s).mono fun _ _ => trivial

/-- A failed send in `copy_write_handler` faults only on what was released before. -/
theorem Tracks.copyWriteHandler_memory (h : Tracks mode hole c s₀ v s) {key : SelectorKey}
    (hkey : key.data = c) {out : SendOutcome} (hfatal : FatalSend out)
    (hleft : v.conn.inBuff.content ≠ []) :
    Holds Fault.isMemory (Socks5d.copyWriteHandler key out s) fun _ => True := by
  have hread : bufferCanRead v.conn.inBuff = true := (Buffer.bufferCanRead_iff _).mpr hleft
  have hboth : ∀ s₁ : Server,
      Holds Fault.isMemory (Socks5d.unregisterBoth false false key.data s₁) fun _ => True := by
    intro s₁
    simp only [Socks5d.unregisterBoth, true_or, if_true, Server.conn]
    cases s₁.conns key.data with
    | none => trivial
    | some k =>
      rw [ok_bind, holds_bind]
      refine (selectorUnregisterFd_memory s₁ k.originFd).mono fun s₂ _ => ?_
      cases s₂.conns key.data with
      | none => trivial
      | some k => exact selectorUnregisterFd_memory s₂ k.clientFd
  unfold Socks5d.copyWriteHandler
  simp only [hkey, h.conn_eq, ok_bind, hread, Bool.not_true, Bool.false_eq_true, if_false]
  rw [← hkey]
  rcases hfatal with rfl | ⟨e, rfl, he⟩
  · exact hboth s
  · simp only [he, if_false]
    exact hboth (s.setErrno e)

/-- Whatever `origin_fd` is, a failed send in `copy_write_handler` frees the state machine. -/
theorem Tracks.copyWriteHandler_fatal (h : Tracks mode hole c s₀ v s) {key : SelectorKey}
    (hkey : key.data = c) {out : SendOutcome} (hfatal : FatalSend out)
    (hleft : v.conn.inBuff.content ≠ []) (htokens : v.tokens = 0) (s' : Server)
    (hs' : Socks5d.copyWriteHandler key out s = .ok s') : s'.stms c = none := by
  subst hkey
  by_cases hne : v.conn.originFd ≠ 0
  · obtain ⟨s'', r, heq, hwrote, hlands⟩ :=
      h.copyWriteHandler rfl out htokens (.inr hne) (.inl hne)
    obtain rfl : s' = s'' := by
      rw [hs'] at heq
      exact Except.ok.inj heq
    cases hwrote with
    | idle hempty => exact absurd hempty hleft
    | blocked _ hout => simp [FatalSend, hout] at hfatal
    | delivered _ _ _ hout _ _ => simp [FatalSend, hout] at hfatal
    | broken _ _ => exact hlands.stms
  · -- the listener's item is removed first, then the client's close callback runs
    have h0 : v.conn.originFd = 0 := by simpa using hne
    obtain ⟨fd, i, hfd, hpos, hlt, hown, hitem, -⟩ := h.client
    have hzero : (s.selector.fds 0).used = true := h.owned.listener 0 h.owned.zero
    have hread : bufferCanRead v.conn.inBuff = true := (Buffer.bufferCanRead_iff _).mpr hleft
    have hboth : ∀ s₁ : Server, s₁.selector.fds = s.selector.fds → s₁.conns = s.conns →
        s₁.stms = s.stms → Socks5d.unregisterBoth false false key.data s₁ = .ok s' →
        s'.stms key.data = none := by
      intro s₁ hfds hconns hstms heq
      have hconn : s₁.conn key.data = .ok v.conn := by simp [Server.conn, hconns, h.conns]
      have hclose : handleClose (s₁.selector.fds 0) s₁ = .ok s₁ := by
        obtain ⟨-, hreg⟩ := h.owned.registered 0 hzero
        rw [hfds]
        generalize s.selector.fds 0 = item at hreg
        cases hreg with
        | listener handler j _ hpassive => rcases hpassive with rfl | rfl <;> rfl
        | client d j howner => rw [h.owned.zero] at howner; cases howner
        | relay d handler j _ howner _ _ =>
          obtain ⟨d', p, hd'⟩ := howner _ h.owned.zero
          cases hd'
        | admin j howner => rw [h.owned.zero] at howner; cases howner
      have hzero₁ : (s₁.selector.fds 0).used = true := by rw [hfds]; exact hzero
      have hunreg : selectorUnregisterFd s₁ 0 =
          .ok { s₁ with selector := removeItem s₁.selector 0 } := by
        simp [selectorUnregisterFd, invalidFd, ITEMS_MAX_SIZE, hzero₁, hclose]
      simp only [Socks5d.unregisterBoth, hconn, ok_bind, true_or, if_true, h0, hunreg] at heq
      set s₂ : Server := { s₁ with selector := removeItem s₁.selector 0 } with hs₂
      have hconn₂ : s₂.conn key.data = .ok v.conn := hconn
      have hstms₂ : s₂.stms key.data = some ⟨v.phase⟩ := by simp [hs₂, hstms, h.stms]
      have hitem₂ : s₂.selector.fds fd = ⟨fd, i, some .socks5Handler, some key.data⟩ := by
        have hne0 : fd ≠ 0 := by omega
        simp [hs₂, fds_removeItem, hne0, hfds, hitem]
      have hused₂ : (s₂.selector.fds fd).used = true := by
        rw [hitem₂]
        simp [Item.used, FD_UNUSED]
      have hvalid : invalidFd (fd : ℤ) = false := by
        simp only [invalidFd, Bool.or_eq_false_iff, decide_eq_false_iff_not]
        omega
      have hstm : v.conn.stm = true := (h.owned.conn key.data v.conn h.conns).2.2.1
      simp only [hconn₂, ok_bind, hfd, selectorUnregisterFd, hvalid, Int.toNat_natCast, hused₂,
        Bool.not_true, Bool.or_false, Bool.false_eq_true, if_false] at heq
      rw [show handleClose (s₂.selector.fds fd) s₂ = socksv5Close key.data s₂ by
        rw [hitem₂]; rfl] at heq
      obtain ⟨hstms', -⟩ := closeBoth_fields s₂ v.conn
      have hfree : socks5StmFree key.data (closeBoth s₂ v.conn) = .ok { closeBoth s₂ v.conn with
          stms := Function.update (closeBoth s₂ v.conn).stms key.data none } := by
        simp [socks5StmFree, hstms', hstms₂]
      unfold socksv5Close at heq
      simp only [hconn₂, ok_bind, hstm, if_true] at heq
      change (((socks5StmFree key.data (closeBoth s₂ v.conn) >>= _) >>= _) = _) at heq
      rw [hfree] at heq
      obtain rfl := Except.ok.inj heq
      simp [Server.note]
    unfold Socks5d.copyWriteHandler at hs'
    simp only [h.conn_eq, ok_bind, hread, Bool.not_true, Bool.false_eq_true, if_false] at hs'
    rcases hfatal with rfl | ⟨e, rfl, he⟩
    · exact hboth s rfl rfl rfl hs'
    · simp only [he, if_false] at hs'
      exact hboth (s.setErrno e) rfl rfl rfl hs'

/-- The status of an interest change. -/
theorem selectorSetInterest_status (sel : FdSelector) (fd : ℤ) (i : FdInterest) :
    ((selectorSetInterest sel fd i).1 = .success ↔
      ∃ n : ℕ, fd = n ∧ n < ITEMS_MAX_SIZE ∧ (sel.fds n).used = true) ∧
    ((selectorSetInterest sel fd i).1 ≠ .success → (selectorSetInterest sel fd i).2 = sel) := by
  unfold selectorSetInterest
  by_cases hinv : invalidFd fd = true
  · rw [if_pos hinv]
    refine ⟨⟨by simp, ?_⟩, fun _ => rfl⟩
    rintro ⟨n, rfl, hlt, -⟩
    simp only [invalidFd, Bool.or_eq_true, decide_eq_true_eq] at hinv
    omega
  · rw [if_neg hinv]
    simp only [invalidFd, Bool.or_eq_true, decide_eq_true_eq, not_or, not_lt, not_le] at hinv
    by_cases hused : (sel.fds fd.toNat).used = true
    · rw [if_neg (by simp [hused])]
      refine ⟨⟨fun _ => ⟨fd.toNat, by omega, by omega, hused⟩, fun _ => rfl⟩, by simp⟩
    · rw [if_pos (by simp [hused])]
      refine ⟨⟨by simp, ?_⟩, fun _ => rfl⟩
      rintro ⟨n, rfl, -, hn⟩
      exact absurd (by simpa using hn) hused

/-- The descriptor in `origin_fd` is registered, by whomever. -/
def OriginRegistered (s : Server) (k : Socks5Conn) : Prop :=
  ∃ n : ℕ, k.originFd = n ∧ n < ITEMS_MAX_SIZE ∧ (s.selector.fds n).used = true

/-- The outcomes of a client read in the relay phase, once the bytes are in `in_buff`. -/
inductive CopyRead (c : ConnId) (s : Server) (v : View) (out : SendOutcome) : Result → Prop
  | unregistered (hunreg : ¬ OriginRegistered s v.conn) :
      CopyRead c s v out (.gone (v.history ++ [.enter c .error, .released c]))
  | relayed (r : Result) (hreg : OriginRegistered s v.conn) (hout : ¬ FatalSend out)
      (hwrote : CopyWrote c { v with relay := v.relay.map fun r => (r.1, OP_WRITE) } out r) :
      CopyRead c s v out r

/-- The state machine's read event in the relay phase. It faults exactly when the nested send
fails. -/
theorem Tracks.stmHandlerRead_copy (h : Tracks mode hole c s₀ v s) {key : SelectorKey}
    (hkey : key.data = c) (env : Env) (hphase : v.phase = some .copy) (htokens : v.tokens = 0)
    (hleft : v.conn.inBuff.content ≠ []) (hz : mode.zero = true ∨ v.conn.originFd ≠ 0) :
    Holds (fun f => f.isMemory ∧ OriginRegistered s v.conn ∧ FatalSend env.send)
      (Socks5d.stmHandlerRead key env s) fun out => ∃ r,
        CopyRead c s v env.send r ∧ Lands mode hole c s₀ r out.2 := by
  subst hkey
  have hstart : Socks5d.stmHandlerRead key env s =
      (copyRead key env s >>= fun out => Socks5d.jump out.1 key out.2 >>= fun s' =>
        pure (out.1, s')) := by
    simp [Socks5d.stmHandlerRead, h.stmPointer_eq, handleFirst, h.stm_eq, hphase,
      h.stmState_eq hphase, onReadReady]
  rw [hstart]
  unfold copyRead
  simp only [h.conn_eq, ok_bind]
  obtain ⟨hstatus, hsame⟩ := selectorSetInterest_status s.selector v.conn.originFd OP_WRITE
  by_cases hok : (selectorSetInterest s.selector v.conn.originFd OP_WRITE).1 = .success
  · have hreg : OriginRegistered s v.conn := hstatus.mp hok
    simp only [hok, ne_eq, not_true_eq_false, if_false]
    have h₁ : Tracks mode hole key.data s₀ { v with
        relay := v.relay.map fun r => (r.1, OP_WRITE) } { s with
        selector := (selectorSetInterest s.selector v.conn.originFd OP_WRITE).2 } :=
      h.armOrigin OP_WRITE hz
    by_cases hfatal : FatalSend env.send
    · cases hw : Socks5d.copyWriteHandler key env.send { s with
          selector := (selectorSetInterest s.selector v.conn.originFd OP_WRITE).2 } with
      | error e => exact ⟨(h₁.copyWriteHandler_memory rfl hfatal hleft).fault hw, hreg, hfatal⟩
      | ok s' =>
        have hnone := h₁.copyWriteHandler_fatal rfl hfatal hleft htokens s' hw
        simp only [ok_bind, pure_eq_ok]
        simp [Socks5d.jump, Server.stm, hnone, hreg, hfatal]
    · obtain ⟨s', r, hs', hwrote, hlands⟩ :=
        h₁.copyWriteHandler rfl env.send htokens hz (.inr hfatal)
      rw [hs', ok_bind]
      have hread : CopyRead key.data s v env.send r := .relayed r hreg hfatal hwrote
      have halive : ∃ w, r = .alive w ∧ w.phase = some .copy := by
        cases hwrote with
        | idle _ => exact ⟨_, rfl, hphase⟩
        | blocked _ _ => exact ⟨_, rfl, hphase⟩
        | delivered _ _ _ _ _ _ => exact ⟨_, rfl, hphase⟩
        | broken _ hout => exact absurd hout hfatal
      obtain ⟨w, rfl, hw⟩ := halive
      have hjump := Tracks.jump_same hlands (rfl : key.data = key.data) hw
      simp only [pure_eq_ok, ok_bind, hjump]
      exact ⟨_, hread, hlands⟩
  · have hunreg : ¬ OriginRegistered s v.conn := fun hreg => hok (hstatus.mpr hreg)
    have hne : v.conn.originFd ≠ 0 := by
      intro h0
      exact hunreg ⟨0, by simpa using h0, by decide, h.owned.listener 0 h.owned.zero⟩
    simp only [ne_eq, hok, not_false_eq_true, if_true, hsame hok, pure_eq_ok, ok_bind]
    obtain ⟨s', hs', h'⟩ := h.jump_error (rfl : key.data = key.data) hphase (by simp) trivial
      (fun _ => hne) htokens
    have hsame' : ({ s with selector := s.selector } : Server) = s := rfl
    rw [hsame', hs', ok_bind]
    exact ⟨_, .unregistered hunreg, h'⟩

/-- The outcomes of `copy_read_handler`. -/
inductive CopyReceived (c : ConnId) (junk : Memory) (v : View) (env : Env) : Result → Prop
  | full (hfull : v.conn.outBuff.space = 0) :
      CopyReceived c junk v env (.alive { v with
        interest := OP_WRITE, relay := v.relay.map fun r => (r.1, OP_NOOP) })
  | received (fds : ℕ → Item) (first : UInt8) (rest : List UInt8) (buff : Buffer) (r : Result)
      (hspace : 0 < v.conn.outBuff.space) (hrecv : env.recv = .data first rest)
      (hcontent : buff.content =
        v.conn.outBuff.content ++ (first :: rest).take v.conn.outBuff.space)
      (hcapacity : buff.capacity = v.conn.outBuff.capacity)
      (hwrote : Wrote c junk fds { v with
        conn := { v.conn with outBuff := buff }
        interest := OP_WRITE
        history := v.history ++
          [.recv c .origin ((first :: rest).take v.conn.outBuff.space)] } env.send r) :
      CopyReceived c junk v env r
  | ended (hspace : 0 < v.conn.outBuff.space) (hrecv : env.recv = .eof) :
      CopyReceived c junk v env (.alive { v with
        relay := none, history := v.history ++ [.ended c .origin] })
  | blocked (hspace : 0 < v.conn.outBuff.space) (hrecv : env.recv = .failed .eagain) :
      CopyReceived c junk v env (.alive v)
  | broken (e : Errno) (hspace : 0 < v.conn.outBuff.space) (hrecv : env.recv = .failed e)
      (he : e ≠ .eagain) : CopyReceived c junk v env (.gone (v.history ++ [.released c]))

theorem Tracks.copyReadHandler (h : Tracks mode hole c s₀ v s) {key : SelectorKey}
    (hkey : key.data = c) (env : Env) (hphase : v.phase = some .copy) (htokens : v.tokens = 0)
    (hne : v.conn.originFd ≠ 0) :
    ∃ s' r, Socks5d.copyReadHandler key env s = .ok s' ∧ CopyReceived c s₀.junk v env r ∧
      Lands mode hole c s₀ r s' := by
  subst hkey
  unfold Socks5d.copyReadHandler
  simp only [h.conn_eq, ok_bind]
  by_cases hspace : 0 < v.conn.outBuff.space
  · have hwrite : bufferCanWrite v.conn.outBuff = true :=
      (Buffer.bufferCanWrite_iff _).mpr hspace
    simp only [hwrite, Bool.not_true, Bool.false_eq_true, if_false]
    cases hrecv : env.recv with
    | data first rest =>
      simp only
      have hfit : ((first :: rest).take v.conn.outBuff.space).length ≤ v.conn.outBuff.space := by
        rw [List.length_take]
        omega
      obtain ⟨buff, hadv⟩ := Buffer.bufferWriteAdv_store_succeeds _ hfit
      obtain ⟨hcontent, hcapacity⟩ := Buffer.bufferWriteAdv_store_eq_ok hfit hadv
      rw [hadv, ok_bind]
      have h₁ := ((h.setConn { v.conn with outBuff := buff } rfl rfl rfl).note
        (.recv key.data .origin ((first :: rest).take v.conn.outBuff.space)) rfl).armClient
          OP_WRITE
      obtain ⟨s', r, hs', hwrote, hlands⟩ := h₁.socksv5Write (rfl : key.data = key.data) env.send hphase
        (.inl rfl) trivial htokens (fun _ _ => .inr (.inl hne))
      exact ⟨s', r, hs', .received _ first rest buff r hspace hrecv hcontent hcapacity hwrote,
        hlands⟩
    | eof =>
      obtain ⟨s', hs', h'⟩ := (h.note (.ended key.data .origin) rfl).unregisterOrigin hne
      exact ⟨s', _, hs', .ended hspace hrecv, h'⟩
    | failed e =>
      by_cases he : e = .eagain
      · subst he
        exact ⟨s.setErrno .eagain, _, rfl, .blocked hspace hrecv, h.setErrno .eagain⟩
      · simp only [he, if_false]
        obtain ⟨s', hs', h'⟩ := (h.setErrno e).unregisterBoth false false htokens (.inr hne)
        exact ⟨s', _, hs', .broken e hspace hrecv he, h'⟩
  · have hwrite : bufferCanWrite v.conn.outBuff = false := by
      rw [← Bool.not_eq_true, Buffer.bufferCanWrite_iff]
      exact hspace
    simp only [hwrite, Bool.not_false, if_true, pure_eq_ok]
    refine ⟨_, .alive _, rfl, .full (by omega), ?_⟩
    exact (h.armOrigin OP_NOOP (.inr hne)).armClient OP_WRITE

end Socks5d
