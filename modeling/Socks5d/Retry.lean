import Socks5d.Block
import Socks5d.Relay

/-!
# The end of a pending connect

`handle_write_connecting` on the view. The socket in `origin_fd` either stands, which starts the
relay, or it is replaced by one for the next address, or the request is refused. The handler
looks at the connection's `origin_fd`, not at the descriptor it was called for.
-/

namespace Socks5d

open Fallible

variable {mode : Mode} {hole : Bool} {c : ConnId} {s₀ s : Server} {v : View}

/-- The view once the socket is known to stand. -/
def View.standing (v : View) (c : ConnId) (relay : Option (FdHandler × FdInterest)) : View :=
  { v with
    conn := { v.conn with addrInfo := [] }
    phase := some .copy
    relay := relay
    history := v.history ++
      ((if v.conn.originFd = -1 then [] else [.established c]) ++ [.enter c .copy]) }

/-- The outcomes of a write event for a pending connect, whose new sockets get the number
`fd`. -/
inductive Connects (c : ConnId) (junk : Memory) (env : Env) (fds : ℕ → Item) (fd : ℕ)
    (v : View) : Result → Prop
  | retried (e : Errno) (relay : Option (FdHandler × FdInterest))
      (hopen : v.conn.originFd ≠ -1) (herr : env.soError = some e) (hsome : v.conn.addrInfo ≠ [])
      (hdial : dial v.conn.addrInfo env.connects = .noSocket ∨
        ∃ peer rest, dial v.conn.addrInfo env.connects = .pending peer rest)
      (hrelay : ∀ r, relay = some r → ∃ n, (fds n).relayOf c = some r) :
      Connects c junk env fds fd v (.alive (v.dialed c fd env.connects relay))
  | refused (v₁ w : View) (e e' : Errno) (hopen : v.conn.originFd ≠ -1)
      (herr : env.soError = some e)
      (hfrom : v.conn.addrInfo = [] ∧ v₁ = v ∨
        v.conn.addrInfo ≠ [] ∧ (dial v.conn.addrInfo env.connects = .refused ∨
          ∃ peer, dial v.conn.addrInfo env.connects = .connected peer) ∧
          ∃ relay, v₁ = v.dialed c fd env.connects relay)
      (hqueued : Queued c (.connReq (getCode e')) (connReqErrorReply (getCode e') junk)
        (v₁.registered c (getCode e') env.now) w) :
      Connects c junk env fds fd v (.alive { w with
        conn := { w.conn with isErrorResponse := true, originFd := -1 }
        relay := none
        interest := OP_WRITE })
  | established (table : ℕ → Item) (w : View) (r : Result) (relay : Option (FdHandler × FdInterest))
      (hphase : v.phase = some .connecting) (hstands : v.conn.originFd = -1 ∨ env.soError = none)
      (hrelay : relay = if v.conn.originFd ≠ -1 ∧ v.conn.originFd < ITEMS_MAX_SIZE then
        some (.copySelectorHandler, OP_NOOP) else none)
      (hqueued : Queued c (.connReq SOCKS5_REP_SUCCEEDED) (connReqReply env junk)
        ((v.standing c relay).registered c SOCKS5_REP_SUCCEEDED env.now) w)
      (hwrote : Wrote c junk table (w.succeeding c) env.send r) : Connects c junk env fds fd v r

/-- After `selector_unregister_fd` a valid descriptor is not registered. -/
theorem selectorUnregisterFd_frees {s s' : Server} {fd : ℤ} {n : ℕ}
    (h : selectorUnregisterFd s fd = .ok s') (hfd : fd = n) (hlt : n < ITEMS_MAX_SIZE) :
    (s'.selector.fds n).used = false := by
  subst hfd
  unfold selectorUnregisterFd at h
  have hvalid : invalidFd (n : ℤ) = false := by
    simp only [invalidFd, Bool.or_eq_false_iff, decide_eq_false_iff_not]
    omega
  simp only [hvalid, Int.toNat_natCast, Bool.false_or] at h
  by_cases hused : (s.selector.fds n).used = true
  · rw [if_neg (by simp [hused])] at h
    cases hclose : handleClose (s.selector.fds n) s with
    | error e => simp [hclose] at h
    | ok s₁ =>
      simp only [hclose, ok_bind, pure_eq_ok, Except.ok.injEq] at h
      subst h
      simp [fds_removeItem, itemInit, Item.used]
  · rw [if_pos (by simp [hused])] at h
    obtain rfl := Except.ok.inj h
    simpa using hused

/-- A set `origin_fd` other than the one given up is open. -/
theorem Tracks.isOpen_origin (h : Tracks mode false c s₀ v s) (hne : v.conn.originFd ≠ 0) :
    s.isOpen v.conn.originFd = decide (v.conn.originFd ≠ -1) := by
  rcases (h.owned.conn c v.conn h.conns).2.1 with h0 | h1 | ⟨fd, hfd, -, ⟨p, hp⟩ | ⟨hno, -⟩⟩
  · exact absurd h0 hne
  · simp [h1, Server.isOpen]
  · have hopen : s.kernel.isOpen fd = true := by simp [Kernel.isOpen, hp]
    have hneg : (fd : ℤ) ≠ -1 := by omega
    simp [hfd, Server.isOpen, hopen, hneg]
  · cases hno

/-- The refusal of a request whose connect failed. -/
theorem Tracks.refuseConnecting (h : Tracks mode hole c s₀ v s) {key : SelectorKey}
    (hkey : key.data = c) (env : Env) (status : UInt8) (hne : v.conn.originFd ≠ 0) :
    ∃ s' w, Socks5d.refuseConnecting key env status s = .ok s' ∧
      Queued c (.connReq status) (connReqErrorReply status s₀.junk)
        (v.registered c status env.now) w ∧
      Tracks mode false c s₀ { w with
        conn := { w.conn with isErrorResponse := true, originFd := -1 }
        relay := none
        interest := OP_WRITE } s' := by
  subst hkey
  obtain ⟨s₁, hs₁, h₁⟩ := h.accessRegisterAddEntry status env.now
  obtain ⟨s₂, w, hs₂, hqueued, h₂⟩ := h₁.queueConnReqErrorResponse status
  obtain ⟨hconn, -⟩ := hqueued.fields
  have hne₂ : w.conn.originFd ≠ 0 := by rw [hconn]; exact hne
  obtain ⟨s₃, hs₃, h₃⟩ := h₂.unregisterOrigin hne₂
  have h₄ := h₃.closeOrigin hne₂
  have h₅ := h₄.setOrigin (b := false)
    { w.conn with isErrorResponse := true, originFd := -1 } rfl rfl (by simp) (.inr (.inl rfl))
    (by
      intro fd hfd
      have hfd' : (-1 : ℤ) = fd := hfd
      omega)
    (fun _ => .inr rfl) (.inr rfl)
  have hnone : (s₃.close w.conn.originFd).relay key.data
      { w.conn with isErrorResponse := true, originFd := -1 } = none := by
    simp [Server.relay]
  rw [hnone] at h₅
  refine ⟨_, w, ?_, hqueued, h₅.armClient OP_WRITE⟩
  simp only [Socks5d.refuseConnecting, hs₁, hs₂, hs₃, h₂.conn_eq, h₃.conn_eq, ok_bind, pure_eq_ok]

/-- The connecting phase enters the relay once the registration of its connect is gone. -/
theorem Tracks.stmHandlerRead_connecting (h : Tracks mode false c s₀ v s) {key : SelectorKey}
    (hkey : key.data = c) (env : Env) (hphase : v.phase = some .connecting)
    (hne : v.conn.originFd ≠ 0) (hpos : 0 ≤ v.conn.originFd ∨ v.conn.originFd = -1) :
    ∃ s₁ s' relay, selectorUnregisterFd s v.conn.originFd = .ok s₁ ∧
      Socks5d.stmHandlerRead key env s₁ = .ok (.copy, s') ∧
      (relay = if v.conn.originFd ≠ -1 ∧ v.conn.originFd < ITEMS_MAX_SIZE then
        some (.copySelectorHandler, OP_NOOP) else none) ∧
      Tracks mode false c s₀ { v with
        phase := some .copy
        relay := relay
        history := v.history ++ [.enter c .copy] } s' := by
  subst hkey
  obtain ⟨s₁, hs₁, h₁⟩ := h.unregisterOrigin hne
  obtain ⟨s', relay, hs', harmed, hfree, h'⟩ := h₁.jump_copy rfl hphase (.inr rfl) trivial
  refine ⟨s₁, s', relay, hs₁, ?_, ?_, h'⟩
  · have hfirst : handleFirst key s₁ = .ok s₁ := by simp [handleFirst, h₁.stm_eq, hphase]
    simp [Socks5d.stmHandlerRead, h₁.stmPointer_eq, hfirst, h₁.stmState_eq hphase, onReadReady,
      connectingRead, hs']
  · split
    · rename_i hvalid
      obtain ⟨fd, hfd⟩ := Int.eq_ofNat_of_zero_le (hpos.resolve_right hvalid.1)
      exact hfree fd hfd (by omega) (selectorUnregisterFd_frees hs₁ hfd (by omega))
    · rename_i hinvalid
      rcases harmed with ⟨fd, hfd, hlt, -⟩ | ⟨hr, -⟩
      · have hfd' : v.conn.originFd = fd := hfd
        exact absurd ⟨by omega, by omega⟩ hinvalid
      · exact hr

/-- A connection that relays already is released, because its registration is gone. -/
theorem Tracks.stmHandlerRead_relaying (h : Tracks mode false c s₀ v s) {key : SelectorKey}
    (hkey : key.data = c) (env : Env) (hphase : v.phase = some .copy)
    (hne : v.conn.originFd ≠ 0) (htokens : v.tokens = 0) :
    ∃ s₁ s', selectorUnregisterFd s v.conn.originFd = .ok s₁ ∧
      Socks5d.stmHandlerRead key env s₁ = .ok (.error, s') ∧
      Released mode c s₀ (v.history ++ [.enter c .error, .released c]) s' := by
  subst hkey
  obtain ⟨s₁, hs₁, h₁⟩ := h.unregisterOrigin hne
  have hfirst : handleFirst key s₁ = .ok s₁ := by simp [handleFirst, h₁.stm_eq, hphase]
  have hstatus : (selectorSetInterest s₁.selector v.conn.originFd OP_WRITE).1 ≠ .success := by
    rw [ne_eq, (selectorSetInterest_status s₁.selector v.conn.originFd OP_WRITE).1]
    rintro ⟨n, hn, hlt, hused⟩
    rw [selectorUnregisterFd_frees hs₁ hn hlt] at hused
    cases hused
  have hsel := (selectorSetInterest_status s₁.selector v.conn.originFd OP_WRITE).2 hstatus
  have hread : copyRead key env s₁ = .ok (.error, s₁) := by
    simp only [copyRead, h₁.conn_eq, ok_bind]
    rw [if_pos hstatus, hsel]
    rfl
  obtain ⟨s', hs', h'⟩ := h₁.jump_error rfl hphase (by simp) trivial (fun _ => hne) htokens
  refine ⟨s₁, s', hs₁, ?_, h'⟩
  simp only [Socks5d.stmHandlerRead, h₁.stmPointer_eq, hfirst, h₁.stmState_eq hphase, onReadReady,
    hread, hs', ok_bind, pure_eq_ok]

/-- The start of the relay for a connect that succeeded late. -/
theorem Tracks.acceptConnecting (h : Tracks mode false c s₀ v s) {key : SelectorKey}
    (hkey : key.data = c) (env : Env) (hphase : v.phase = some .connecting)
    (hne : v.conn.originFd ≠ 0) (hpos : 0 ≤ v.conn.originFd ∨ v.conn.originFd = -1)
    (htokens : v.tokens = 0) :
    ∃ s' w r relay, Socks5d.acceptConnecting key env s = .ok s' ∧
      (relay = if v.conn.originFd ≠ -1 ∧ v.conn.originFd < ITEMS_MAX_SIZE then
        some (.copySelectorHandler, OP_NOOP) else none) ∧
      Queued c (.connReq SOCKS5_REP_SUCCEEDED) (connReqReply env s₀.junk)
        (View.registered { v with
          conn := { v.conn with addrInfo := [] }
          phase := some .copy
          relay := relay
          history := v.history ++ [.enter c .copy] } c SOCKS5_REP_SUCCEEDED env.now) w ∧
      Wrote c s₀.junk s₀.selector.fds (w.succeeding c) env.send r ∧ Lands mode false c s₀ r s' := by
  subst hkey
  have h₁ := h.setConn { v.conn with addrInfo := [] } rfl rfl rfl
  obtain ⟨s₂, s₃, relay, hs₂, hread, hrelay, h₃⟩ :=
    h₁.stmHandlerRead_connecting rfl env hphase hne hpos
  obtain ⟨s₄, hs₄, h₄⟩ := h₃.accessRegisterAddEntry SOCKS5_REP_SUCCEEDED env.now
  obtain ⟨s₅, w, hs₅, hqueued, h₅⟩ := h₄.queueConnReqResponse env
  obtain ⟨hconn, -, hwphase, -, -, hwtokens⟩ := hqueued.fields
  obtain ⟨s₆, hs₆, h₆⟩ := (h₅.armClient OP_WRITE).resetInBuff
  have h₆' : Tracks mode false key.data s₀ (w.succeeding key.data) s₆ := h₆
  have hworigin : (w.succeeding key.data).conn.originFd ≠ 0 := by
    simp only [View.succeeding, View.reset]
    rw [hconn]
    exact hne
  obtain ⟨s₇, r, hs₇, hwrote, hlands⟩ := h₆'.socksv5Write (rfl : key.data = key.data) env.send hwphase (.inl rfl)
    trivial (hwtokens.trans htokens) (fun _ _ => .inr (.inl hworigin))
  refine ⟨s₇, w, r, relay, ?_, hrelay, hqueued, hwrote, hlands⟩
  simp only [Socks5d.acceptConnecting, h.conn_eq, ok_bind, hs₂, hread, hs₄, hs₅, h₅.conn_eq, hs₆,
    hs₇]

/-- A write event for a pending connect that was dispatched to a relaying connection finds its
registration gone and releases the connection under itself. -/
theorem Tracks.acceptConnecting_relaying (h : Tracks mode false c s₀ v s) {key : SelectorKey}
    (hkey : key.data = c) (env : Env) (hphase : v.phase = some .copy)
    (hne : v.conn.originFd ≠ 0) (htokens : v.tokens = 0) :
    Socks5d.acceptConnecting key env s = .error .useAfterFree := by
  subst hkey
  have h₁ := h.setConn { v.conn with addrInfo := [] } rfl rfl rfl
  obtain ⟨s₂, s₃, hs₂, hstm, h₃⟩ := h₁.stmHandlerRead_relaying rfl env hphase hne htokens
  have hgone : s₃.accessRegisterAddEntry key.data SOCKS5_REP_SUCCEEDED env.now =
      .error .useAfterFree := by
    simp [Server.accessRegisterAddEntry, Server.conn, h₃.conns]
  simp only [Socks5d.acceptConnecting, h.conn_eq, ok_bind, hs₂, hstm, hgone, error_bind]

/-- Closing a descriptor that was never opened changes nothing. -/
theorem Server.close_unset (s : Server) : s.close (-1) = s := by
  have hkernel : s.kernel.close (-1) = s.kernel := by
    cases hk : s.kernel with
    | mk owner bound closed =>
      simp only [Kernel.close, Kernel.mk.injEq, and_true]
      funext n
      rw [if_neg (by omega)]
  simp only [Server.close, hkernel]

/-- A write event for a pending connect faults only when it reaches a relaying connection. To
leave no registration behind, a retry must get the old descriptor again. -/
theorem Tracks.handleWriteConnecting (h : Tracks mode false c s₀ v s) {key : SelectorKey}
    (hkey : key.data = c) (env : Env)
    (hphase : v.phase = some .connecting ∨ v.phase = some .copy ∧ v.conn.addrInfo = [])
    (hne : v.conn.originFd ≠ 0) (htokens : v.tokens = 0)
    (htidy : mode.tidy = true → v.conn.originFd ≠ -1 → env.soError ≠ none →
      v.conn.addrInfo ≠ [] →
      (dial v.conn.addrInfo env.connects).originFd (s.kernel.close v.conn.originFd).lowest =
        v.conn.originFd) :
    Holds (fun f => f.isMemory ∧ v.phase = some .copy ∧
          (v.conn.originFd = -1 ∨ env.soError = none))
      (Socks5d.handleWriteConnecting key env s) fun s' => ∃ r,
        Connects c s₀.junk env s.selector.fds (s.kernel.close v.conn.originFd).lowest v r ∧
          Lands mode false c s₀ r s' := by
  have hopen := h.isOpen_origin hne
  have hpos : 0 ≤ v.conn.originFd ∨ v.conn.originFd = -1 := by
    rcases (h.owned.conn c v.conn h.conns).2.1 with h0 | h1 | ⟨fd, hfd, -⟩
    · exact .inl (by omega)
    · exact .inr h1
    · exact .inl (by omega)
  have hstand : ∀ s₁ history, Tracks mode false c s₀ { v with history := history } s₁ →
      history = v.history ++ (if v.conn.originFd = -1 then [] else [.established c]) →
      v.conn.originFd = -1 ∨ env.soError = none →
      Holds (fun f => f.isMemory ∧ v.phase = some .copy ∧
          (v.conn.originFd = -1 ∨ env.soError = none))
        (Socks5d.acceptConnecting key env s₁) fun s' => ∃ r,
          Connects c s₀.junk env s.selector.fds (s.kernel.close v.conn.originFd).lowest v r ∧
            Lands mode false c s₀ r s' := by
    intro s₁ history h₁ hhistory hstands
    rcases hphase with hphase | ⟨hphase, -⟩
    · obtain ⟨s', w, r, relay, hs', hrelay, hqueued, hwrote, hlands⟩ :=
        h₁.acceptConnecting hkey env hphase hne hpos htokens
      rw [hs', holds_ok]
      refine ⟨r, .established _ w r relay hphase hstands hrelay ?_ hwrote, hlands⟩
      simpa [View.standing, hhistory, List.append_assoc] using hqueued
    · rw [h₁.acceptConnecting_relaying hkey env hphase hne htokens, holds_error]
      exact ⟨trivial, hphase, hstands⟩
  unfold Socks5d.handleWriteConnecting
  rw [hkey, h.conn_eq, ok_bind, getSoError, hopen]
  by_cases hgiven : v.conn.originFd = -1
  · rw [if_neg (by simp [hgiven])]
    refine hstand _ v.history ?_ (by simp [hgiven]) (.inl hgiven)
    rw [hgiven, Server.close_unset]
    exact h.setErrno .ebadf
  · rw [if_pos (by simp [hgiven])]
    cases herr : env.soError with
    | none =>
      simp only [if_true]
      refine (hstand _ _ (h.note (.established c) rfl) (by simp [hgiven]) (.inr herr)).tolerate ?_
      exact fun _ hf => ⟨hf.1, hf.2.1, .inr trivial⟩
    | some e =>
      simp only [reduceCtorEq, if_false]
      have h₁ := h.closeOrigin hne
      by_cases hnone : v.conn.addrInfo = []
      · rw [if_neg (by simp [hnone])]
        obtain ⟨s', w, hs', hqueued, h'⟩ :=
          h₁.refuseConnecting hkey env (getCode s.errno) hne
        rw [hs', holds_ok]
        exact ⟨_, .refused v w e s.errno hgiven herr (.inl ⟨hnone, rfl⟩) hqueued, h'⟩
      · rw [if_pos hnone]
        have hconnecting := hphase.resolve_right fun hcopy => hnone hcopy.2
        obtain ⟨s₂, hs₂, h₂, hsel, -⟩ := h₁.connectToHost hnone hconnecting env.connects
          (fun ht => .inr (htidy ht hgiven (by simp [herr]) hnone))
        have hlow := h₁.lowest_pos
        rw [hs₂, ok_bind]
        have hrelay : ∀ r, (s.close v.conn.originFd).relay c
            { v.conn with
              originFd := (dial v.conn.addrInfo env.connects).originFd
                (s.close v.conn.originFd).kernel.lowest
              addrInfo := (dial v.conn.addrInfo env.connects).addrInfo v.conn.addrInfo } = some r →
            ∃ n, (s.selector.fds n).relayOf c = some r := by
          intro r hr
          unfold Server.relay at hr
          split at hr
          · exact ⟨_, hr⟩
          · cases hr
        have h₃ : Tracks mode (dial v.conn.addrInfo env.connects).isRefused c s₀
            (v.dialed c (s.kernel.close v.conn.originFd).lowest env.connects
              ((s.close v.conn.originFd).relay c _)) s₂ := h₂
        cases hdial : dial v.conn.addrInfo env.connects with
        | refused =>
          simp only [Dial.code, CONNECTION_FAILED, CONNECTION_IN_PROGRESS, Int.reduceNeg,
            Int.reduceEq, if_false, if_true]
          obtain ⟨s', w, hs', hqueued, h'⟩ := h₃.refuseConnecting hkey env (getCode s₂.errno) (by
            simp only [View.dialed, hdial, Dial.originFd]
            exact Int.natCast_ne_zero.mpr (by exact Nat.ne_of_gt hlow))
          rw [hs', holds_ok]
          exact ⟨_, .refused _ w e s₂.errno hgiven herr
            (.inr ⟨hnone, .inl hdial, _, rfl⟩) hqueued, h'⟩
        | connected peer =>
          simp only [Dial.code, CONNECTION_SUCCESS, CONNECTION_FAILED, CONNECTION_IN_PROGRESS,
            Int.reduceNeg, Int.reduceEq, if_false]
          obtain ⟨s', w, hs', hqueued, h'⟩ := h₃.refuseConnecting hkey env (getCode s.errno) (by
            simp only [View.dialed, hdial, Dial.originFd]
            exact Int.natCast_ne_zero.mpr (by exact Nat.ne_of_gt hlow))
          rw [hs', holds_ok]
          exact ⟨_, .refused _ w e s.errno hgiven herr
            (.inr ⟨hnone, .inr ⟨peer, hdial⟩, _, rfl⟩) hqueued, h'⟩
        | noSocket =>
          rw [show (dial v.conn.addrInfo env.connects).isRefused = false by rw [hdial]; rfl] at h₃
          simp only [Dial.code, if_true, holds_pure]
          exact ⟨_, .retried e _ hgiven herr hnone (.inl hdial) hrelay, h₃⟩
        | pending peer rest =>
          rw [show (dial v.conn.addrInfo env.connects).isRefused = false by rw [hdial]; rfl] at h₃
          simp only [Dial.code, if_true, holds_pure]
          exact ⟨_, .retried e _ hgiven herr hnone (.inr ⟨peer, rest, hdial⟩) hrelay, h₃⟩

end Socks5d
