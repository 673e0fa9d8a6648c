import Socks5d.Jump

/-!
# Sending to the client

`socksv5_write` from any phase. When bytes left and the phase has a write handler, that handler
decides the next phase, whether or not the bytes completed anything: `Advance` lists where it
leads.
-/

namespace Socks5d

open Fallible

variable {mode : Mode} {hole : Bool} {c : ConnId} {s₀ s : Server} {v w : View}

/-- The view after the client took some of `out_buff`, of which the given buffer is left. -/
def View.sent (v : View) (c : ConnId) (n : ℕ) (left : Buffer) : View :=
  let relay := if bufferCanRead v.conn.inBuff then v.relay.map fun r => (r.1, OP_WRITE)
    else v.relay
  { v with
    conn := { v.conn with outBuff := bufferCompact left }
    interest := if bufferCanRead left then OP_WRITE else OP_READ
    relay := if decide (v.conn.originFd > 0) && !bufferCanWrite v.conn.outBuff then
      relay.map fun r => (r.1, OP_READ) else relay
    history := v.history ++ [.send c .client (v.conn.outBuff.content.take (n + 1))] }

/-- Where the write handler of a phase leads once bytes left. -/
inductive Advance (c : ConnId) (junk : Memory) (fds : ℕ → Item) (w : View) : Result → Prop
  | refused (state : Socks5State) (hphase : w.phase = some state)
      (hstate : hasWriteHandler state = true) (herror : w.conn.isErrorResponse = true) :
      Advance c junk fds w (.gone (w.history ++ [.enter c .error, .released c]))
  | auth (p : HandshakeParser) (hphase : w.phase = some .handshake)
      (herror : w.conn.isErrorResponse = false) (hparser : w.conn.handshakeParser = some p)
      (hmethod : p.userPassAuth = true) :
      Advance c junk fds w (.alive { w with
        conn := { w.conn with
          handshakeParser := none, authParser := some (authParserInit junk) }
        phase := some .auth
        history := w.history ++ [.enter c .auth] })
  | connectionReq (state : Socks5State) (hphase : w.phase = some state)
      (herror : w.conn.isErrorResponse = false)
      (hstate : state = .auth ∨ state = .handshake ∧
        ∃ p, w.conn.handshakeParser = some p ∧ p.userPassAuth = false) :
      Advance c junk fds w (.alive { w with
        conn := { (w.depart state).conn with connReqParser := some (connReqParserInit junk) }
        phase := some .connectionReq
        history := w.history ++ [.enter c .connectionReq] })
  | copy (state : Socks5State) (relay : Option (FdHandler × FdInterest))
      (hphase : w.phase = some state) (herror : w.conn.isErrorResponse = false)
      (hstate : state = .connectionReq ∨ state = .connecting) (hrelay : RelayArmed c fds w relay) :
      Advance c junk fds w (.alive { w with
        conn := (w.depart state).conn
        phase := some .copy
        relay := relay
        history := w.history ++ [.enter c .copy] })

/-- The relay is no phase whose write handler leads on. -/
theorem Advance.not_copy {junk : Memory} {fds : ℕ → Item} {w : View} {r : Result}
    (h : Advance c junk fds w r) : w.phase ≠ some .copy := by
  intro hcopy
  cases h with
  | refused state hphase hstate =>
    obtain rfl := Option.some.inj (hcopy.symm.trans hphase)
    cases hstate
  | auth p hphase => cases hcopy.symm.trans hphase
  | connectionReq state hphase _ hstate =>
    obtain rfl := Option.some.inj (hcopy.symm.trans hphase)
    simp at hstate
  | copy state relay hphase _ hstate =>
    obtain rfl := Option.some.inj (hcopy.symm.trans hphase)
    simp at hstate

/-- The write handler of a phase always finds what it needs. -/
theorem Tracks.stmHandlerWrite (h : Tracks mode hole c s₀ w s) {state : Socks5State}
    {key : SelectorKey} (hkey : key.data = c) (hphase : w.phase = some state)
    (hstate : hasWriteHandler state = true) (hequipped : w.Equipped state)
    (htokens : w.tokens = 0) :
    ∃ ret s' r, Socks5d.stmHandlerWrite key s = .ok (ret, s') ∧
      Advance c s₀.junk s₀.selector.fds w r ∧ Lands mode hole c s₀ r s' := by
  subst hkey
  have hfront : ∀ ret, onWriteReady state key s = .ok ret →
      Socks5d.stmHandlerWrite key s = Socks5d.jump ret key s >>= fun s' => pure (ret, s') := by
    intro ret hret
    simp [Socks5d.stmHandlerWrite, h.stmPointer_eq, handleFirst, h.stm_eq, hphase,
      h.stmState_eq hphase, hret]
  have hrefuse : w.conn.isErrorResponse = true → onWriteReady state key s = .ok .error →
      ∃ ret s' r, Socks5d.stmHandlerWrite key s = .ok (ret, s') ∧
        Advance key.data s₀.junk s₀.selector.fds w r ∧ Lands mode hole key.data s₀ r s' := by
    intro herr hret
    obtain ⟨s', hs', h'⟩ := h.jump_error rfl hphase (by rintro rfl; cases hstate) hequipped
      (by rintro rfl; cases hstate) htokens
    refine ⟨.error, s', .gone _, ?_, .refused state hphase hstate herr, h'⟩
    rw [hfront _ hret, hs']
    rfl
  by_cases herr : w.conn.isErrorResponse = true
  · apply hrefuse herr
    cases state with
    | handshake => simp [onWriteReady, handshakeWrite, h.conn_eq, herr]
    | auth => simp [onWriteReady, authWrite, h.conn_eq, herr]
    | connectionReq => simp [onWriteReady, connectionReqWrite, h.conn_eq, herr]
    | connecting => simp [onWriteReady, connectingWrite, h.conn_eq, herr]
    | copy => cases hstate
    | done => cases hstate
    | error => cases hstate
  · have herr' : w.conn.isErrorResponse = false := by simpa using herr
    cases state with
    | handshake =>
      obtain ⟨p, hp⟩ := Option.isSome_iff_exists.mp hequipped
      by_cases hmethod : p.userPassAuth = true
      · obtain ⟨s', hs', h'⟩ := h.jump_auth rfl hphase hequipped
        refine ⟨.auth, s', .alive _, ?_, .auth p hphase herr' hp hmethod, h'⟩
        rw [hfront .auth (by
          simp [onWriteReady, handshakeWrite, h.conn_eq, herr', hp, hmethod]), hs']
        rfl
      · have hmethod' : p.userPassAuth = false := by simpa using hmethod
        obtain ⟨s', hs', h'⟩ := h.jump_connectionReq rfl hphase (.inl rfl) hequipped
        refine ⟨.connectionReq, s', .alive _, ?_,
          .connectionReq .handshake hphase herr' (.inr ⟨rfl, p, hp, hmethod'⟩), h'⟩
        rw [hfront .connectionReq (by
          simp [onWriteReady, handshakeWrite, h.conn_eq, herr', hp, hmethod']), hs']
        rfl
    | auth =>
      obtain ⟨s', hs', h'⟩ := h.jump_connectionReq rfl hphase (.inr (.inl rfl)) hequipped
      refine ⟨.connectionReq, s', .alive _, ?_, .connectionReq .auth hphase herr' (.inl rfl), h'⟩
      rw [hfront .connectionReq (by simp [onWriteReady, authWrite, h.conn_eq, herr']), hs']
      rfl
    | connectionReq =>
      obtain ⟨s', relay, hs', hrelay, -, h'⟩ := h.jump_copy rfl hphase (.inl rfl) hequipped
      refine ⟨.copy, s', .alive _, ?_,
        .copy .connectionReq relay hphase herr' (.inl rfl) hrelay, h'⟩
      rw [hfront .copy (by simp [onWriteReady, connectionReqWrite, h.conn_eq, herr']), hs']
      rfl
    | connecting =>
      obtain ⟨s', relay, hs', hrelay, -, h'⟩ := h.jump_copy rfl hphase (.inr rfl) hequipped
      refine ⟨.copy, s', .alive _, ?_,
        .copy .connecting relay hphase herr' (.inr rfl) hrelay, h'⟩
      rw [hfront .copy (by simp [onWriteReady, connectingWrite, h.conn_eq, herr']), hs']
      rfl
    | copy => cases hstate
    | done => cases hstate
    | error => cases hstate

/-- The interests `socksv5_write` sets after a positive `send`. -/
theorem Tracks.rearmAfterSend (h : Tracks mode hole c s₀ v s) (k : Socks5Conn) (left : Buffer)
    (full : Bool) (hclient : k.clientFd = v.conn.clientFd) (horigin : k.originFd = v.conn.originFd)
    (hz : mode.zero = true ∨ v.conn.originFd ≠ 0 ∨ k.inBuff.content = [])
    (hfull : full = true → v.conn.originFd ≠ 0) :
    Tracks mode hole c s₀ { v with
      interest := if bufferCanRead left then OP_WRITE else OP_READ
      relay :=
        let relay := if bufferCanRead k.inBuff then v.relay.map fun r => (r.1, OP_WRITE)
          else v.relay
        if full then relay.map fun r => (r.1, OP_READ) else relay }
      (Socks5d.rearmAfterSend k left full s) := by
  unfold Socks5d.rearmAfterSend
  rw [hclient, horigin]
  have h₁ : Tracks mode hole c s₀
      { v with interest := if bufferCanRead left then OP_WRITE else OP_READ }
      (if bufferCanRead left then s.setInterest v.conn.clientFd OP_WRITE
        else s.setInterest v.conn.clientFd OP_READ) := by
    split
    · exact h.armClient OP_WRITE
    · exact h.armClient OP_READ
  have h₂ : Tracks mode hole c s₀
      { v with
        interest := if bufferCanRead left then OP_WRITE else OP_READ
        relay := if bufferCanRead k.inBuff then v.relay.map fun r => (r.1, OP_WRITE)
          else v.relay }
      (if bufferCanRead k.inBuff then
        (if bufferCanRead left then s.setInterest v.conn.clientFd OP_WRITE
          else s.setInterest v.conn.clientFd OP_READ).setInterest v.conn.originFd OP_WRITE
      else (if bufferCanRead left then s.setInterest v.conn.clientFd OP_WRITE
        else s.setInterest v.conn.clientFd OP_READ)) := by
    by_cases hread : bufferCanRead k.inBuff = true
    · simp only [hread, if_true]
      refine h₁.armOrigin OP_WRITE ?_
      rcases hz with hz | hz | hz
      · exact .inl hz
      · exact .inr hz
      · exact absurd hz ((Buffer.bufferCanRead_iff _).mp hread)
    · simp only [hread, Bool.false_eq_true, if_false]
      exact h₁
  cases full with
  | false => exact h₂
  | true => exact h₂.armOrigin OP_READ (.inr (hfull rfl))

/-- The outcomes of `socksv5_write`. -/
inductive Wrote (c : ConnId) (junk : Memory) (fds : ℕ → Item) (v : View) (out : SendOutcome) :
    Result → Prop
  | idle (hempty : v.conn.outBuff.content = []) :
      Wrote c junk fds v out (.alive { v with interest := OP_NOOP })
  | blocked (hleft : v.conn.outBuff.content ≠ [])
      (hout : out = .zero ∨ out = .failed .eagain) : Wrote c junk fds v out (.alive v)
  | broken (e : Errno) (hleft : v.conn.outBuff.content ≠ []) (hout : out = .failed e)
      (he : e ≠ .eagain) : Wrote c junk fds v out (.gone (v.history ++ [.released c]))
  | relayed (n : ℕ) (left : Buffer) (hleft : v.conn.outBuff.content ≠ [])
      (hout : out = .accepted n) (hphase : v.phase = some .copy)
      (hcontent : left.content = v.conn.outBuff.content.drop (n + 1))
      (hcapacity : left.capacity = v.conn.outBuff.capacity) :
      Wrote c junk fds v out (.alive (v.sent c n left))
  | advanced (n : ℕ) (left : Buffer) (r : Result)
      (hleft : v.conn.outBuff.content ≠ []) (hout : out = .accepted n)
      (hcontent : left.content = v.conn.outBuff.content.drop (n + 1))
      (hcapacity : left.capacity = v.conn.outBuff.capacity)
      (hadvance : Advance c junk fds (v.sent c n left) r) : Wrote c junk fds v out r

/-- `socksv5_write` returns from every phase between the greeting and the relay. -/
theorem Tracks.socksv5Write (h : Tracks mode hole c s₀ v s) {state : Socks5State}
    {key : SelectorKey} (hkey : key.data = c) (out : SendOutcome)
    (hphase : v.phase = some state) (hstate : state = .copy ∨ hasWriteHandler state = true)
    (hequipped : v.Equipped state) (htokens : v.tokens = 0)
    (hz : v.conn.outBuff.content ≠ [] → (∃ n, out = .accepted n) →
      mode.zero = true ∨ v.conn.originFd ≠ 0 ∨ v.conn.inBuff.content = []) :
    ∃ s' r, Socks5d.socksv5Write key out s = .ok s' ∧ Wrote c s₀.junk s₀.selector.fds v out r ∧
      Lands mode hole c s₀ r s' := by
  subst hkey
  unfold Socks5d.socksv5Write
  simp only [h.conn_eq, ok_bind]
  by_cases hleft : v.conn.outBuff.content = []
  · have hread : bufferCanRead v.conn.outBuff = false :=
      (Buffer.bufferCanRead_eq_false_iff _).mpr hleft
    simp only [hread, Bool.not_false, if_true, pure_eq_ok]
    exact ⟨_, _, rfl, .idle hleft, h.armClient OP_NOOP⟩
  · have hread : bufferCanRead v.conn.outBuff = true := (Buffer.bufferCanRead_iff _).mpr hleft
    simp only [hread, Bool.not_true, Bool.false_eq_true, if_false]
    cases out with
    | zero => exact ⟨s, _, rfl, .blocked hleft (.inl rfl), h⟩
    | failed e =>
      by_cases he : e = .eagain
      · subst he
        exact ⟨s.setErrno .eagain, _, rfl, .blocked hleft (.inr rfl), h.setErrno .eagain⟩
      · simp only [he, if_false]
        obtain ⟨s', hs', h'⟩ :=
          ((h.setErrno e).incErrors).unregisterBoth true false htokens (.inl rfl)
        exact ⟨s', _, hs', .broken e hleft rfl he, h'⟩
    | accepted n =>
      simp only
      have hlen : (v.conn.outBuff.content.take (n + 1)).length ≤
          v.conn.outBuff.content.length := by
        rw [List.length_take]
        omega
      obtain ⟨left, hadv⟩ := Buffer.bufferReadAdv_succeeds _ hlen
      obtain ⟨hcontent, hcapacity⟩ := Buffer.bufferReadAdv_eq_ok hadv
      have hdrop : left.content = v.conn.outBuff.content.drop (n + 1) := by
        rw [hcontent, List.length_take]
        rcases Nat.le_total (n + 1) v.conn.outBuff.content.length with hle | hle
        · rw [Nat.min_eq_left hle]
        · rw [Nat.min_eq_right hle, List.drop_length, List.drop_eq_nil_of_le hle]
      rw [hadv, ok_bind]
      have h₁ := ((h.shared (s.metrics.addBytes (UInt64.ofNat
        (v.conn.outBuff.content.take (n + 1)).length)) s.errno).note
          (.send key.data .client (v.conn.outBuff.content.take (n + 1))) rfl).setConn
        { v.conn with outBuff := bufferCompact left } rfl rfl rfl
      have h₂ := h₁.rearmAfterSend v.conn left
        (decide (v.conn.originFd > 0) && !bufferCanWrite v.conn.outBuff) rfl rfl (hz hleft ⟨n, rfl⟩) (by
          intro hfull
          simp only [Bool.and_eq_true, decide_eq_true_eq] at hfull
          change v.conn.originFd ≠ 0
          omega)
      have hsent : Tracks mode hole key.data s₀ (v.sent key.data n left) _ := h₂
      rw [hsent.currentState_eq hphase, ok_bind]
      by_cases hcopy : state = .copy
      · subst hcopy
        exact ⟨_, _, rfl, .relayed n left hleft rfl hphase hdrop hcapacity, hsent⟩
      · have hhandler := hstate.resolve_left hcopy
        simp only [hhandler, if_true]
        have heq : (v.sent key.data n left).Equipped state := by
          cases state with
          | _ => exact hequipped
        obtain ⟨ret, s', r, hs', hadvance, hlands⟩ :=
          hsent.stmHandlerWrite rfl hphase hhandler heq htokens
        rw [hs', ok_bind]
        exact ⟨s', r, rfl, .advanced n left r hleft rfl hdrop hcapacity hadvance, hlands⟩

section Inversion

variable {junk : Memory} {fds : ℕ → Item} {out : SendOutcome} {r : Result}

/-- A send that accepts nothing leaves the connection as it was. -/
theorem Wrote.of_blocked (h : Wrote c junk fds v out r) (hleft : v.conn.outBuff.content ≠ [])
    (hout : out = .zero ∨ out = .failed .eagain) : r = .alive v := by
  cases h with
  | idle hempty => exact absurd hempty hleft
  | blocked _ _ => rfl
  | broken e _ hout' he => subst hout'; simp [he] at hout
  | relayed n left _ hout' => subst hout'; simp at hout
  | advanced n left _ _ hout' => subst hout'; simp at hout

/-- A send that fails releases the connection. -/
theorem Wrote.of_failed {e : Errno} (h : Wrote c junk fds v (.failed e) r)
    (hleft : v.conn.outBuff.content ≠ []) (he : e ≠ .eagain) :
    r = .gone (v.history ++ [.released c]) := by
  cases h with
  | idle hempty => exact absurd hempty hleft
  | blocked _ hout => simp [he] at hout
  | broken e _ _ _ => rfl
  | relayed n left _ hout' => cases hout'
  | advanced n left _ _ hout' => cases hout'

/-- A send that accepts bytes before the relay phase tells the phase. -/
theorem Wrote.of_accepted {n : ℕ} (h : Wrote c junk fds v (.accepted n) r)
    (hleft : v.conn.outBuff.content ≠ []) (hphase : v.phase ≠ some .copy) :
    ∃ left, left.content = v.conn.outBuff.content.drop (n + 1) ∧
      left.capacity = v.conn.outBuff.capacity ∧ Advance c junk fds (v.sent c n left) r := by
  cases h with
  | idle hempty => exact absurd hempty hleft
  | blocked _ hout => simp at hout
  | broken e _ hout' _ => cases hout'
  | relayed m left _ hout' hphase' => exact absurd hphase' hphase
  | advanced m left _ _ hout' hcontent hcapacity hadvance =>
    obtain rfl := SendOutcome.accepted.inj hout'
    exact ⟨left, hcontent, hcapacity, hadvance⟩

end Inversion

end Socks5d
