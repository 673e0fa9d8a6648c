import Socks5d.Dispatch

/-!
# How a connection progresses

The outcomes of the callbacks, reduced to what matters for the order of a dialogue: the phase,
whether an error reply is being sent, and the milestones of the history. Every reaction is one
of a few moves, and every move keeps the local invariant of its connection.
-/

namespace Socks5d

/-- The observations that tell how far a dialogue came. -/
def Obs.isMilestone : Obs → Bool
  | .enter _ state => state != .handshake
  | .queued _ (.connReq _) _ => true
  | .credentials _ _ | .request _ | .access _ _ | .established _ | .released _ => true
  | _ => false

/-- The milestones of a history. -/
def milestones (history : List Obs) : List Obs := history.filter Obs.isMilestone

/-- The milestones of two histories, one after the other. -/
@[simp] theorem milestones_append (h t : List Obs) :
    milestones (h ++ t) = milestones h ++ milestones t := List.filter_append h t

/-- An empty history has none. -/
@[simp] theorem milestones_nil : milestones [] = [] := rfl

/-- The first observation counts if it is a milestone. -/
@[simp] theorem milestones_cons (o : Obs) (h : List Obs) :
    milestones (o :: h) = if o.isMilestone then o :: milestones h else milestones h :=
  List.filter_cons

/-- A milestone of the history is among them. -/
theorem mem_milestones {o : Obs} {h : List Obs} (ho : o.isMilestone = true) :
    o ∈ milestones h ↔ o ∈ h := by
  simp [milestones, ho]

variable {s : Server} {c : ConnId} {v w : View} {junk : Memory} {fds : ℕ → Item} {out : SendOutcome} {r : Result}

/-- A write event of a pending connect that reaches a connection with no connect pending. -/
def StaleConnect (s : Server) (c : ConnId) (v : View) (e : Event) : Prop :=
  ∃ fd env i, e = .writable fd env ∧
    (s.selector.fds fd).relayOf c = some (.connectingHandler, i) ∧
    (v.conn.originFd = -1 ∨ v.phase = some .copy)

/-- A write event of a client that authenticates before its credentials were judged. -/
def EarlySend (s : Server) (c : ConnId) (v : View) (e : Event) : Prop :=
  ∃ fd env n p, e = .writable fd env ∧ env.send = .accepted n ∧
    (s.selector.fds fd).isClientOf c ∧ v.conn.outBuff.content ≠ [] ∧
    v.conn.authParser = some p ∧ p.parser.state ≠ .done

/-- A write event of a client whose request is being read: what is sent is the rest of an earlier
reply. -/
def RestSend (s : Server) (c : ConnId) (v : View) (e : Event) : Prop :=
  ∃ fd env n, e = .writable fd env ∧ env.send = .accepted n ∧
    (s.selector.fds fd).isClientOf c ∧ v.phase = some .connectionReq ∧
    v.conn.isErrorResponse = false

/-- What is noted when a request is answered with a status. -/
def Answers (c : ConnId) (status : UInt8) (t : List Obs) : Prop :=
  ∃ call bytes, call.statusCode = status ∧
    t = [.access c call, .queued c (.connReq status) bytes]

/-- The moves of a dialogue. -/
inductive Move (s : Server) (c : ConnId) (v : View) (e : Event) : Result → Prop
  | quiet (w : View)
      (hphase : w.phase = v.phase ∨ v.phase = none ∧ w.phase = some .handshake)
      (herror : v.phase = some .connectionReq ∨ v.phase = some .connecting →
        w.conn.isErrorResponse = v.conn.isErrorResponse)
      (hmarks : milestones w.history = milestones v.history)
      (hleft : v.phase = some .auth → v.conn.outBuff.content ≠ [] → w.conn.outBuff.content ≠ []) :
      Move s c v e (.alive w)
  | chosen (w : View) (state : Socks5State)
      (hphase : v.phase = none ∨ v.phase = some .handshake)
      (hstate : state = .auth ∨ state = .connectionReq) (hphase' : w.phase = some state)
      (herror : w.conn.isErrorResponse = false)
      (hmarks : milestones w.history = milestones v.history ++ [.enter c state]) :
      Move s c v e (.alive w)
  | judged (w : View) (authOk : Bool) (hphase : v.phase = some .auth)
      (hphase' : w.phase = some .auth)
      (hmarks : milestones w.history = milestones v.history ++ [.credentials c authOk])
      (hidle : v.conn.outBuff.content = []) (hleft : w.conn.outBuff.content ≠ []) :
      Move s c v e (.alive w)
  | authorized (w : View) (hphase : v.phase = some .auth) (hphase' : w.phase = some .connectionReq)
      (herror : w.conn.isErrorResponse = false)
      (hmarks : milestones w.history = milestones v.history ++
        [.credentials c true, .enter c .connectionReq])
      (hidle : v.conn.outBuff.content = []) : Move s c v e (.alive w)
  | passed (w : View) (hphase : v.phase = some .auth) (hphase' : w.phase = some .connectionReq)
      (herror : w.conn.isErrorResponse = false)
      (hjudged : Obs.credentials c true ∈ v.history ∨ EarlySend s c v e)
      (hmarks : milestones w.history = milestones v.history ++ [.enter c .connectionReq]) :
      Move s c v e (.alive w)
  | unsupported (w : View) (bytes : List UInt8) (hphase : v.phase = some .connectionReq)
      (herror : v.conn.isErrorResponse = false) (hphase' : w.phase = some .connectionReq)
      (herror' : w.conn.isErrorResponse = true)
      (hmarks : milestones w.history = milestones v.history ++
        [.queued c (.connReq SOCKS5_REP_COMMAND_NOT_SUPPORTED) bytes]) : Move s c v e (.alive w)
  | requested (w : View) (hphase : v.phase = some .connectionReq)
      (herror : v.conn.isErrorResponse = false) (hphase' : w.phase = some .connecting)
      (herror' : w.conn.isErrorResponse = false)
      (hmarks : milestones w.history = milestones v.history ++
        [.request c, .enter c .connecting]) : Move s c v e (.alive w)
  | noThread (history : List Obs) (fd : ℕ) (env : Env) (he : e = .readable fd env)
      (hthread : env.threadCreated = false) (hphase : v.phase = some .connectionReq)
      (herror : v.conn.isErrorResponse = false)
      (hmarks : milestones history = milestones v.history ++
        [.request c, .enter c .error, .released c]) : Move s c v e (.gone history)
  | noAddress (w : View) (t : List Obs) (hphase : v.phase = some .connecting)
      (herror : v.conn.isErrorResponse = false) (hphase' : w.phase = some .connectionReq)
      (herror' : w.conn.isErrorResponse = true)
      (ht : Answers c SOCKS5_REP_HOST_UNREACHABLE t)
      (hmarks : milestones w.history = milestones v.history ++ t ++ [.enter c .connectionReq]) :
      Move s c v e (.alive w)
  | relays (r : Result) (t history : List Obs) (hphase : v.phase = some .connecting)
      (herror : v.conn.isErrorResponse = false) (ht : Answers c SOCKS5_REP_SUCCEEDED t)
      (hmarks : milestones history = milestones v.history ++ .established c ::
          (t ++ [.enter c .copy]) ∨
        milestones history = milestones v.history ++ .established c :: .enter c .copy :: t)
      (hr : (∃ w, r = .alive w ∧ w.phase = some .copy ∧
          milestones w.history = milestones history) ∨
        ∃ h, r = .gone h ∧ milestones h = milestones history ++ [.released c]) :
      Move s c v e r
  | refused (w : View) (t : List Obs) (status : UInt8) (hphase : v.phase = some .connecting)
      (herror : v.conn.isErrorResponse = false) (hphase' : w.phase = some .connecting)
      (herror' : w.conn.isErrorResponse = true) (hstatus : status ≠ SOCKS5_REP_SUCCEEDED)
      (ht : Answers c status t)
      (hmarks : milestones w.history = milestones v.history ++ t ∨
        milestones w.history = milestones v.history ++ .established c :: t) :
      Move s c v e (.alive w)
  | skipped (w : View) (hphase : v.phase = some .connectionReq)
      (herror : v.conn.isErrorResponse = false) (hphase' : w.phase = some .copy)
      (hmarks : milestones w.history = milestones v.history ++ [.enter c .copy])
      (hrest : RestSend s c v e) : Move s c v e (.alive w)
  | closed (history t : List Obs)
      (hphase : v.phase = some .connecting → v.conn.isErrorResponse = true)
      (ht : t = [.released c] ∨ t = [.enter c .error, .released c])
      (hmarks : milestones history = milestones v.history ++ t) : Move s c v e (.gone history)
  | stale (r : Result) (t : List Obs)
      (hphase : v.phase = some .connecting ∨ v.phase = some .copy)
      (hstale : StaleConnect s c v e) (ht : ∀ o ∈ t, o ≠ .enter c .auth)
      (hr : (∃ w, r = .alive w ∧ w.phase = some .copy ∧
          milestones w.history = milestones v.history ++ t) ∨
        ∃ h, r = .gone h ∧ milestones h = milestones v.history ++ t) : Move s c v e r

/-- Two views that differ in nothing a move depends on. -/
structure View.Agrees (v w : View) : Prop where
  phase : w.phase = v.phase
  originFd : w.conn.originFd = v.conn.originFd
  isErrorResponse : w.conn.isErrorResponse = v.conn.isErrorResponse
  authParser : w.conn.authParser = v.conn.authParser
  outBuff : w.conn.outBuff = v.conn.outBuff
  milestones : milestones w.history = milestones v.history

/-- A move from a view is one from every view it agrees with. -/
theorem Move.of_agrees {e : Event} (hv : View.Agrees v w) (h : Move s c w e r) :
    Move s c v e r := by
  have hmarks := hv.milestones
  cases h with
  | quiet x h₁ h₂ h hleft =>
    exact .quiet x (hv.phase ▸ h₁) (hv.phase ▸ hv.isErrorResponse ▸ h₂) (h.trans hmarks)
      (hv.phase ▸ hv.outBuff ▸ hleft)
  | chosen x state h₁ h₂ h₃ h₄ h =>
    exact .chosen x state (hv.phase ▸ h₁) h₂ h₃ h₄ (hmarks ▸ h)
  | judged x authOk h₁ h₂ h hidle hleft =>
    exact .judged x authOk (hv.phase ▸ h₁) h₂ (hmarks ▸ h) (hv.outBuff ▸ hidle) hleft
  | authorized x h₁ h₂ h₃ h hidle =>
    exact .authorized x (hv.phase ▸ h₁) h₂ h₃ (hmarks ▸ h) (hv.outBuff ▸ hidle)
  | passed x h₁ h₂ h₃ hjudged h =>
    refine .passed x (hv.phase ▸ h₁) h₂ h₃ ?_ (hmarks ▸ h)
    rcases hjudged with hmem | ⟨fd, env, n, p, he, hsend, hitem, hleft, hp, hdone⟩
    · left
      rw [← mem_milestones rfl, ← hmarks, mem_milestones rfl]
      exact hmem
    · exact .inr ⟨fd, env, n, p, he, hsend, hitem, hv.outBuff ▸ hleft, hv.authParser ▸ hp, hdone⟩
  | unsupported x bytes h₁ h₂ h₃ h₄ h =>
    exact .unsupported x bytes (hv.phase ▸ h₁) (hv.isErrorResponse ▸ h₂) h₃ h₄ (hmarks ▸ h)
  | requested x h₁ h₂ h₃ h₄ h =>
    exact .requested x (hv.phase ▸ h₁) (hv.isErrorResponse ▸ h₂) h₃ h₄ (hmarks ▸ h)
  | noThread history fd env he hthread h₁ h₂ h =>
    exact .noThread history fd env he hthread (hv.phase ▸ h₁) (hv.isErrorResponse ▸ h₂) (hmarks ▸ h)
  | noAddress x t h₁ h₂ h₃ h₄ ht h =>
    exact .noAddress x t (hv.phase ▸ h₁) (hv.isErrorResponse ▸ h₂) h₃ h₄ ht (hmarks ▸ h)
  | relays r t history h₁ h₂ ht h hr =>
    exact .relays r t history (hv.phase ▸ h₁) (hv.isErrorResponse ▸ h₂) ht (hmarks ▸ h) hr
  | refused x t status h₁ h₂ h₃ h₄ hstatus ht h =>
    exact .refused x t status (hv.phase ▸ h₁) (hv.isErrorResponse ▸ h₂) h₃ h₄ hstatus ht (hmarks ▸ h)
  | skipped x h₁ h₂ h₃ h hrest =>
    obtain ⟨fd, env, n, he, hsend, hitem, -, -⟩ := hrest
    exact .skipped x (hv.phase ▸ h₁) (hv.isErrorResponse ▸ h₂) h₃ (hmarks ▸ h)
      ⟨fd, env, n, he, hsend, hitem, hv.phase ▸ h₁, hv.isErrorResponse ▸ h₂⟩
  | closed history t h₁ ht h =>
    exact .closed history t (hv.phase ▸ hv.isErrorResponse ▸ h₁) ht (hmarks ▸ h)
  | stale r t h₁ hstale ht hr =>
    obtain ⟨fd, env, i, he, hitem, hstands⟩ := hstale
    exact .stale r t (hv.phase ▸ h₁)
      ⟨fd, env, i, he, hitem, hv.phase ▸ hv.originFd ▸ hstands⟩ ht (hmarks ▸ hr)

/-- Receiving bytes is no move: what follows is a move from the view before it. -/
theorem Move.of_received {e : Event} {buff : Buffer} {bytes : List UInt8}
    (h : Move s c (v.received c buff bytes) e r) : Move s c v e r :=
  Move.of_agrees (w := v.received c buff bytes) ⟨rfl, rfl, rfl, rfl, rfl, by simp [View.received, Obs.isMilestone]⟩ h

/-- The local invariant of an outcome. -/
def Result.Ok (c : ConnId) : Result → Prop
  | .alive w => w.Ok c
  | .gone _ => True

/-- What the callbacks of the relay phase leave alone. -/
structure Relays (v w : View) : Prop where
  phase : w.phase = v.phase
  tokens : w.tokens = v.tokens
  addrInfo : w.conn.addrInfo = v.conn.addrInfo
  inCapacity : w.conn.inBuff.capacity = v.conn.inBuff.capacity
  outCapacity : w.conn.outBuff.capacity = v.conn.outBuff.capacity
  relay : ∀ r, w.relay = some r → ∃ i, v.relay = some (r.1, i)
  milestones : milestones w.history = milestones v.history

namespace Relays

/-- Doing nothing is part of relaying. -/
theorem refl (v : View) : Relays v v := ⟨rfl, rfl, rfl, rfl, rfl, fun r hr => ⟨r.2, hr⟩, rfl⟩

/-- One part of relaying after another. -/
theorem trans {u : View} (h₁ : Relays v w) (h₂ : Relays w u) : Relays v u where
  phase := h₂.phase.trans h₁.phase
  tokens := h₂.tokens.trans h₁.tokens
  addrInfo := h₂.addrInfo.trans h₁.addrInfo
  inCapacity := h₂.inCapacity.trans h₁.inCapacity
  outCapacity := h₂.outCapacity.trans h₁.outCapacity
  relay r hr := by
    obtain ⟨i, hi⟩ := h₂.relay r hr
    obtain ⟨j, hj⟩ := h₁.relay _ hi
    exact ⟨j, hj⟩
  milestones := h₂.milestones.trans h₁.milestones

/-- Relaying keeps the local invariant. -/
theorem ok (h : Relays v w) (hphase : v.phase = some .copy) (hok : v.Ok c) : w.Ok c where
  inCapacity := h.inCapacity ▸ hok.inCapacity
  outCapacity := h.outCapacity ▸ hok.outCapacity
  relay r hr := by
    obtain ⟨i, hi⟩ := h.relay r hr
    rcases hok.relay _ hi with ⟨-, hconnecting, -⟩ | ⟨hhandler, -⟩
    · rw [hphase] at hconnecting
      cases hconnecting
    · exact .inr ⟨hhandler, h.phase.trans hphase⟩
  phase := by
    have hphaseOk := hok.phase
    simp only [View.PhaseOk, hphase] at hphaseOk
    simp only [View.PhaseOk, h.phase, hphase]
    exact ⟨h.tokens.trans hphaseOk.1, h.addrInfo.trans hphaseOk.2⟩

/-- Interests may change. -/
theorem of_map (i : FdInterest) (interest : FdInterest) :
    Relays v { v with relay := v.relay.map fun r => (r.1, i), interest := interest } where
  phase := rfl
  tokens := rfl
  addrInfo := rfl
  inCapacity := rfl
  outCapacity := rfl
  relay r hr := by
    obtain ⟨r', hr', rfl⟩ := Option.map_eq_some_iff.mp hr
    exact ⟨r'.2, hr'⟩
  milestones := rfl

/-- The client is sent bytes. -/
theorem of_sent (n : ℕ) {left : Buffer} (hcapacity : left.capacity = v.conn.outBuff.capacity) :
    Relays v (v.sent c n left) where
  phase := rfl
  tokens := rfl
  addrInfo := rfl
  inCapacity := rfl
  outCapacity := by simp [View.sent, hcapacity]
  relay r hr := by
    simp only [View.sent] at hr
    split at hr
    · obtain ⟨r₁, hr₁, rfl⟩ := Option.map_eq_some_iff.mp hr
      split at hr₁
      · obtain ⟨r₂, hr₂, rfl⟩ := Option.map_eq_some_iff.mp hr₁
        exact ⟨r₂.2, hr₂⟩
      · exact ⟨r₁.2, hr₁⟩
    · split at hr
      · obtain ⟨r₂, hr₂, rfl⟩ := Option.map_eq_some_iff.mp hr
        exact ⟨r₂.2, hr₂⟩
      · exact ⟨r.2, hr⟩
  milestones := by simp [View.sent, Obs.isMilestone]

/-- The origin is sent bytes. -/
theorem of_delivered (n : ℕ) {left : Buffer}
    (hcapacity : left.capacity = v.conn.inBuff.capacity) : Relays v (v.delivered c n left) where
  phase := rfl
  tokens := rfl
  addrInfo := rfl
  inCapacity := by simp [View.delivered, hcapacity]
  outCapacity := rfl
  relay r hr := by
    simp only [View.delivered] at hr
    split at hr
    · exact ⟨r.2, hr⟩
    · obtain ⟨r₂, hr₂, rfl⟩ := Option.map_eq_some_iff.mp hr
      exact ⟨r₂.2, hr₂⟩
  milestones := by simp [View.delivered, Obs.isMilestone]

end Relays

/-- How a callback of the relay phase ends: the relay goes on or the connection is released. -/
def RelayEnds (c : ConnId) (v : View) (r : Result) : Prop :=
  (∃ w, r = .alive w ∧ Relays v w) ∨ ∃ t, r = .gone (v.history ++ t) ∧
    (milestones t = [.released c] ∨ milestones t = [.enter c .error, .released c])

/-- A callback may end after it did some relaying. -/
theorem RelayEnds.trans {r : Result} (h₁ : Relays v w) (h₂ : RelayEnds c w r)
    (hfront : ∃ t, w.history = v.history ++ t ∧ milestones t = []) : RelayEnds c v r := by
  rcases h₂ with ⟨u, rfl, h₂⟩ | ⟨t, rfl, ht⟩
  · exact .inl ⟨u, rfl, h₁.trans h₂⟩
  · obtain ⟨t', ht', hnil⟩ := hfront
    refine .inr ⟨t' ++ t, by rw [ht', List.append_assoc], ?_⟩
    simpa [hnil] using ht

/-- Sending in the relay phase. -/
theorem Wrote.relaying (h : Wrote c junk fds v out r) (hphase : v.phase = some .copy) :
    (∃ w, r = .alive w ∧ Relays v w) ∨ r = .gone (v.history ++ [.released c]) := by
  cases h with
  | idle hempty => exact .inl ⟨_, rfl, rfl, rfl, rfl, rfl, rfl, fun r hr => ⟨r.2, hr⟩, rfl⟩
  | blocked hleft hout => exact .inl ⟨_, rfl, .refl v⟩
  | broken e hleft hout he => exact .inr rfl
  | relayed n left hleft hout _ hcontent hcapacity => exact .inl ⟨_, rfl, .of_sent n hcapacity⟩
  | advanced n left r hleft hout hcontent hcapacity hadvance => exact absurd hphase hadvance.not_copy

/-- How a write to the client ends. -/
theorem Wrote.relayEnds (h : Wrote c junk fds v out r) (hphase : v.phase = some .copy) :
    RelayEnds c v r := by
  rcases h.relaying hphase with hw | rfl
  · exact .inl hw
  · exact .inr ⟨_, rfl, .inl rfl⟩

/-- How a write to the origin ends. -/
theorem CopyWrote.relayEnds (h : CopyWrote c v out r) : RelayEnds c v r := by
  cases h with
  | idle hempty => exact .inl ⟨_, rfl, .of_map OP_NOOP v.interest⟩
  | blocked hleft hout => exact .inl ⟨_, rfl, .refl v⟩
  | delivered n left hleft hout hcontent hcapacity =>
    exact .inl ⟨_, rfl, .of_delivered n hcapacity⟩
  | broken hleft hout => exact .inr ⟨_, rfl, .inl rfl⟩

/-- How reading from the client ends. -/
theorem CopyRead.relayEnds (h : CopyRead c s v out r) : RelayEnds c v r := by
  cases h with
  | unregistered hunreg => exact .inr ⟨_, rfl, .inr rfl⟩
  | relayed r hreg hout hwrote =>
    exact hwrote.relayEnds.trans (Relays.of_map OP_WRITE v.interest) ⟨[], by simp, rfl⟩

/-- How reading from the origin ends. -/
theorem CopyReceived.relayEnds {env : Env} (h : CopyReceived c junk v env r)
    (hphase : v.phase = some .copy) : RelayEnds c v r := by
  cases h with
  | full hfull => exact .inl ⟨_, rfl, .of_map OP_NOOP OP_WRITE⟩
  | received _ first rest buff r hspace hrecv hcontent hcapacity hwrote =>
    have hreceived : Relays v { v with
        conn := { v.conn with outBuff := buff }
        interest := OP_WRITE
        history := v.history ++
          [.recv c .origin ((first :: rest).take v.conn.outBuff.space)] } :=
      ⟨rfl, rfl, rfl, rfl, hcapacity, fun r hr => ⟨r.2, hr⟩,
        by simp [Obs.isMilestone]⟩
    exact (hwrote.relayEnds hphase).trans hreceived
      ⟨_, rfl, by simp [Obs.isMilestone]⟩
  | ended hspace hrecv =>
    exact .inl ⟨_, rfl, rfl, rfl, rfl, rfl, rfl, by simp, by simp [Obs.isMilestone]⟩
  | blocked hspace hrecv => exact .inl ⟨_, rfl, .refl v⟩
  | broken e hspace hrecv he => exact .inr ⟨_, rfl, .inl rfl⟩

/-- A callback of the relay phase is a quiet move or closes the connection. -/
theorem RelayEnds.move {e : Event} (h : RelayEnds c v r) (hphase : v.phase = some .copy)
    (hok : v.Ok c) : r.Ok c ∧ Move s c v e r := by
  rcases h with ⟨w, rfl, hw⟩ | ⟨t, rfl, ht⟩
  · exact ⟨hw.ok hphase hok, .quiet w (.inl hw.phase) (by simp [hphase]) hw.milestones
      (by simp [hphase])⟩
  · refine ⟨trivial, ?_⟩
    rcases ht with ht | ht
    · exact .closed _ [.released c] (by simp [hphase]) (.inl rfl) (by simp [ht])
    · exact .closed _ [.enter c .error, .released c] (by simp [hphase]) (.inr rfl) (by simp [ht])

end Socks5d
