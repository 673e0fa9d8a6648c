import Socks5d.Progress

/-!
# The moves of each phase

The outcomes of the callbacks of each phase, reduced to moves; with them goes the local
invariant, since both follow from the same cases. The last theorem says it of every reaction.
-/

namespace Socks5d

variable {s : Server} {c : ConnId} {v w : View} {e : Event} {junk : Memory} {fds : ℕ → Item} {out : SendOutcome}
  {r : Result}

/-- Only a connecting or relaying connection has a registration towards its origin. -/
theorem View.Ok.relay_eq_none (h : v.Ok c) (hconnecting : v.phase ≠ some .connecting)
    (hcopy : v.phase ≠ some .copy) : v.relay = none := by
  cases hrelay : v.relay with
  | none => rfl
  | some r =>
    rcases h.relay r hrelay with ⟨-, hphase, -⟩ | ⟨-, hphase⟩
    · exact absurd hphase hconnecting
    · exact absurd hphase hcopy

/-- What is asked of a connecting connection. -/
theorem View.PhaseOk.connecting (hphase : v.phase = some .connecting)
    (h : v.Waiting ∨ v.Pending ∨ v.Refused) : v.PhaseOk c := by
  simpa only [View.PhaseOk, hphase] using h

/-- What is asked of a relaying connection. -/
theorem View.PhaseOk.copy (hphase : v.phase = some .copy) (htokens : v.tokens = 0)
    (haddr : v.conn.addrInfo = []) : v.PhaseOk c := by
  simpa only [View.PhaseOk, hphase] using ⟨htokens, haddr⟩

/-- A connection that waits to read has nothing to send. -/
theorem View.Armed.outBuff_eq_nil (h : v.Armed) (hready : v.interest.read = true) :
    v.conn.outBuff.content = [] := by
  rcases h with ⟨hempty, -⟩ | ⟨-, hinterest⟩
  · exact hempty
  · rw [hinterest] at hready
    cases hready

/-- A connection that waits to write has something to send. -/
theorem View.Armed.outBuff_ne_nil (h : v.Armed) (hready : v.interest.write = true) :
    v.conn.outBuff.content ≠ [] := by
  rcases h with ⟨-, hinterest⟩ | ⟨hleft, -⟩
  · rw [hinterest] at hready
    cases hready
  · exact hleft

/-- A connection that waits to read a request has refused none. -/
theorem View.Requesting.not_refused (h : v.Requesting) (hready : v.interest.read = true) :
    v.conn.isErrorResponse = false := by
  rcases h.reply with ⟨hfalse, -⟩ | ⟨-, -, hinterest⟩
  · exact hfalse
  · rw [hinterest] at hready
    cases hready

/-- Once bytes left, the client's interest follows the output buffer. -/
theorem View.armed_sent (n : ℕ) (left : Buffer) : (v.sent c n left).Armed := by
  unfold View.Armed View.sent
  by_cases hleft : left.content = []
  · have hread := (Buffer.bufferCanRead_eq_false_iff left).mpr hleft
    exact .inl ⟨by simp [hleft], by simp [hread]⟩
  · have hread := (Buffer.bufferCanRead_iff left).mpr hleft
    exact .inr ⟨by simpa using hleft, by simp [hread]⟩

/-- Between the first event of a connection and its choice of a method, inside callbacks too. -/
structure View.Greeting (v : View) : Prop where
  phase : v.phase = some .handshake
  parser : v.conn.handshakeParser.isSome = true
  originFd : v.conn.originFd = 0
  tokens : v.tokens = 0
  addrInfo : v.conn.addrInfo = []
  relay : v.relay = none
  inCapacity : BUFF_MIN_LEN ≤ v.conn.inBuff.capacity
  outCapacity : BUFF_MIN_LEN ≤ v.conn.outBuff.capacity
  armed : v.Armed

theorem View.Greeting.ok (h : v.Greeting) (hempty : v.conn.inBuff.content = []) : v.Ok c where
  inCapacity := h.inCapacity
  outCapacity := h.outCapacity
  relay r hr := by rw [h.relay] at hr; cases hr
  phase := by
    simp only [View.PhaseOk, h.phase]
    exact ⟨⟨hempty, h.originFd, h.tokens, h.addrInfo⟩, h.armed, h.parser⟩

/-- The choice of a method. -/
structure View.Chosen (c : ConnId) (v w : View) (state : Socks5State) : Prop where
  method : state = .auth ∨ state = .connectionReq
  phase : w.phase = some state
  error : w.conn.isErrorResponse = false
  ok : w.Ok c
  marks : milestones w.history = milestones v.history ++ [.enter c state]

/-- The write handler of the greeting chooses a method or closes the connection. -/
theorem Advance.chosen (h : Advance c junk fds w r) (hg : w.Greeting)
    (hempty : w.conn.inBuff.content = []) :
    (∃ u state, r = .alive u ∧ View.Chosen c w u state) ∨
      ∃ history, r = .gone history ∧
        milestones history = milestones w.history ++ [.enter c .error, .released c] := by
  cases h with
  | refused state hphase hstate herror => exact .inr ⟨_, rfl, by simp [Obs.isMilestone]⟩
  | auth p hphase herror hparser hmethod =>
    refine .inl ⟨_, .auth, rfl, .inl rfl, rfl, herror, ?_, by simp [Obs.isMilestone]⟩
    refine ⟨hg.inCapacity, hg.outCapacity, fun r hr => ?_, ?_⟩
    · rw [show ({ w with
          conn := { w.conn with handshakeParser := none, authParser := some (authParserInit junk) }
          phase := some .auth
          history := w.history ++ [.enter c .auth] } : View).relay = w.relay from rfl,
        hg.relay] at hr
      cases hr
    · exact ⟨⟨hempty, hg.originFd, hg.tokens, hg.addrInfo⟩, hg.armed, _, rfl,
        fun hdone => by simp [authParserInit, parserInit, authParserDefinition] at hdone⟩
  | connectionReq state hphase herror hstate =>
    obtain rfl := Option.some.inj (hg.phase.symm.trans hphase)
    refine .inl ⟨_, .connectionReq, rfl, .inr rfl, rfl, herror, ?_,
      by simp [Obs.isMilestone]⟩
    refine ⟨hg.inCapacity, hg.outCapacity, fun r hr => ?_, ?_⟩
    · have hnone : w.relay = none := hg.relay
      exact absurd (hr.symm.trans hnone) (by simp)
    · exact ⟨hg.originFd, hg.tokens, hg.addrInfo, rfl, .inl ⟨herror, hempty, hg.armed⟩⟩
  | copy state relay hphase herror hstate =>
    obtain rfl := Option.some.inj (hg.phase.symm.trans hphase)
    simp at hstate

/-- The passes of the greeting loop stay in the greeting or end with the choice of a method. -/
theorem HandshakeReads.progress {sends : List SendOutcome} {malformed : Bool}
    (h : HandshakeReads c junk v sends w malformed) (hg : v.Greeting) :
    w.Greeting ∧ milestones w.history = milestones v.history ∧
        (malformed = false → w.conn.inBuff.content = []) ∨
      malformed = false ∧ ∃ state, View.Chosen c v w state := by
  induction h with
  | idle v sends hempty => exact .inl ⟨hg, rfl, fun _ => hempty⟩
  | fed v w sends malformed p p' byte state inBuff hparser hcontent hcapacity hfeed hstate hrest ih =>
    have hg' : (v.greeted inBuff p').Greeting :=
      { hg with parser := rfl, inCapacity := hcapacity ▸ hg.inCapacity, armed := hg.armed }
    rcases ih hg' with ⟨hw, hmarks, hempty⟩ | ⟨hm, state, hchosen⟩
    · exact .inl ⟨hw, hmarks, hempty⟩
    · exact .inr ⟨hm, state, { hchosen with marks := hchosen.marks }⟩
  | malformed v sends p p' byte inBuff hparser hcontent hcapacity hfeed =>
    exact .inl ⟨{ hg with
      parser := rfl, inCapacity := hcapacity ▸ hg.inCapacity, armed := hg.armed }, rfl, by simp⟩
  | replied _ v w u x sends malformed p p' byte inBuff hparser hcontent hcapacity hfeed hqueued hwrote
      hrest ih =>
    obtain ⟨hconn, hwcap, hwphase, hwinterest, hwrelay, hwtokens⟩ := hqueued.fields
    have hleft : w.conn.outBuff.content ≠ [] :=
      hqueued.content_ne_nil (by simp [handshakeReply, Memory.bytes, HANDSHAKE_RESPONSE_SIZE])
        (by
          have hcap : HANDSHAKE_RESPONSE_SIZE ≤ v.conn.outBuff.capacity :=
            Nat.le_trans (by decide) hg.outCapacity
          simpa [handshakeReply, View.greeted] using hcap)
    have hmarks : milestones w.history = milestones v.history := by
      cases hqueued with
      | queued => simp [milestones, Obs.isMilestone, View.greeted]
      | dropped => rfl
    have hg' : (w.answering p'.refuses).Greeting :=
      { phase := hwphase.trans hg.phase
        parser := by simp only [View.answering]; rw [hconn]; rfl
        originFd := by simp only [View.answering]; rw [hconn]; exact hg.originFd
        tokens := hwtokens.trans hg.tokens
        addrInfo := by simp only [View.answering]; rw [hconn]; exact hg.addrInfo
        relay := hwrelay.trans hg.relay
        inCapacity := by
          simp only [View.answering]
          rw [hconn]
          exact hcapacity ▸ hg.inCapacity
        outCapacity := hg.outCapacity.trans (le_of_eq hwcap.symm)
        armed := .inr ⟨hleft, rfl⟩ }
    have hblocked : u = w.answering p'.refuses →
        x.Greeting ∧ milestones x.history = milestones v.history ∧
            (malformed = false → x.conn.inBuff.content = []) ∨
          malformed = false ∧ ∃ state, View.Chosen c v x state := by
      rintro rfl
      rcases ih hg' with ⟨hx, hx', hempty⟩ | ⟨hm, state, hchosen⟩
      · exact .inl ⟨hx, hx'.trans hmarks, hempty⟩
      · refine .inr ⟨hm, state, { hchosen with marks := ?_ }⟩
        rw [← hmarks]
        exact hchosen.marks
    cases hout : sends.headD .wouldBlock with
    | zero => exact hblocked (Result.alive.inj (hwrote.of_blocked hleft (.inl hout)))
    | failed err =>
      by_cases he : err = .eagain
      · exact hblocked (Result.alive.inj (hwrote.of_blocked hleft (.inr (by rw [hout, he]))))
      · rw [hout] at hwrote
        cases hwrote.of_failed hleft he
    | accepted n =>
      rw [hout] at hwrote
      obtain ⟨left, hdrop, hcap, hadvance⟩ :=
        hwrote.of_accepted hleft (by rw [hg'.phase]; simp)
      have hclosed : u.conn.handshakeParser = none := by
        rcases hadvance.of_handshake hg'.phase with ⟨-, _, hgone⟩ | ⟨-, y, _, halive, -, -, hclosed⟩
        · cases hgone
        · obtain rfl := Result.alive.inj halive
          exact hclosed
      cases hrest with
      | fed _ _ _ _ _ _ _ _ _ hparser => rw [hclosed] at hparser; cases hparser
      | malformed _ _ _ _ _ _ hparser => rw [hclosed] at hparser; cases hparser
      | replied _ _ _ _ _ _ _ _ _ _ _ hparser => rw [hclosed] at hparser; cases hparser
      | idle _ _ hempty =>
        have hsent : ((w.answering p'.refuses).sent c n left).Greeting :=
          { hg' with
            outCapacity := by
              simp only [View.sent, Buffer.capacity_bufferCompact]
              rw [hcap]
              exact hg'.outCapacity
            relay := by simp [View.sent, hg'.relay]
            armed := View.armed_sent n left }
        have hin : ((w.answering p'.refuses).sent c n left).conn.inBuff.content = [] := by
          rcases hadvance.of_handshake hg'.phase with ⟨-, _, hgone⟩ | ⟨-, y, _, halive, hy, -, -⟩
          · cases hgone
          · obtain rfl := Result.alive.inj halive
            rw [← hy]
            exact hempty
        rcases hadvance.chosen hsent hin with ⟨y, state, hy, hchosen⟩ | ⟨_, hgone, -⟩
        · obtain rfl := Result.alive.inj hy
          refine .inr ⟨rfl, state, { hchosen with marks := ?_ }⟩
          rw [hchosen.marks]
          simp [View.sent, View.answering, hmarks, Obs.isMilestone]
        · cases hgone

/-- Closing a connection whose request, if any, was answered. -/
theorem Move.close {t : List Obs} (hphase : v.phase ≠ some .connecting)
    (ht : milestones t = [.released c] ∨ milestones t = [.enter c .error, .released c]) :
    Result.Ok c (.gone (v.history ++ t)) ∧ Move s c v e (.gone (v.history ++ t)) :=
  ⟨trivial, .closed _ (milestones t) (fun h => absurd h hphase) ht (milestones_append _ _)⟩

/-- A client read moves as the read handler of its phase does. -/
theorem ClientRead.progress {env : Env} {Q : View → Result → Prop} (h : ClientRead c v env Q r)
    (hok : v.Ok c) (hphase : v.phase ≠ some .connecting)
    (hfull : v.conn.inBuff.space = 0 → v.phase = some .copy)
    (hread : ∀ buff bytes, buff.capacity = v.conn.inBuff.capacity →
      Q (v.received c buff bytes) r →
        r.Ok c ∧ Move s c (v.received c buff bytes) e r) : r.Ok c ∧ Move s c v e r := by
  cases h with
  | full hspace =>
    have hcopy := hfull hspace
    have hrelays : Relays v { v with
        interest := OP_NOOP, relay := v.relay.map fun r => (r.1, OP_WRITE) } :=
      .of_map OP_WRITE OP_NOOP
    exact ⟨hrelays.ok hcopy hok, .quiet _ (.inl rfl) (fun _ => rfl) rfl fun _ h => h⟩
  | ended hspace hrecv => exact Move.close hphase (.inl rfl)
  | blocked hspace hrecv => exact ⟨hok, .quiet v (.inl rfl) (fun _ => rfl) rfl fun _ h => h⟩
  | broken err hspace hrecv he => exact Move.close hphase (.inl rfl)
  | handled first rest buff r hspace hrecv hcontent hcapacity hQ =>
    obtain ⟨hr, hmove⟩ := hread buff _ hcapacity hQ
    exact ⟨hr, hmove.of_received⟩

/-- A client read in the handshake phase. -/
theorem Greets.progress {env : Env} (h : Greets c junk env v r)
    (hphase : v.phase = none ∨ v.phase = some .handshake) (hg : (v.begun c).Greeting) :
    r.Ok c ∧ Move s c v e r := by
  cases h with
  | reads w malformed hreads =>
    have hnc : v.phase ≠ some .connectionReq ∧ v.phase ≠ some .connecting ∧
        v.phase ≠ some .auth := by
      rcases hphase with h | h
      · simp [h]
      · simp [h]
    have hbegun : milestones (v.begun c).history = milestones v.history := by
      unfold View.begun
      split
      · rfl
      · simp [Obs.isMilestone]
    rcases hreads.progress hg with ⟨hw, hmarks, hempty⟩ | ⟨rfl, state, hchosen⟩
    · cases malformed with
      | false =>
        refine ⟨hw.ok (hempty rfl), .quiet w ?_ (by simp [hnc.1, hnc.2.1]) (hmarks.trans hbegun)
          fun hauth => absurd hauth hnc.2.2⟩
        rcases hphase with h | h
        · exact .inr ⟨h, hw.phase⟩
        · exact .inl (hw.phase.trans h.symm)
      | true =>
        exact ⟨trivial, .closed _ [.enter c .error, .released c] (fun h => absurd h hnc.2.1)
          (.inr rfl) (by simp [hmarks, hbegun, Obs.isMilestone])⟩
    · exact ⟨hchosen.ok, .chosen w state hphase hchosen.method hchosen.phase hchosen.error
        (hbegun ▸ hchosen.marks)⟩

/-- Between the choice of authentication and its end, inside callbacks too. -/
structure View.Subnegotiating (c : ConnId) (v : View) : Prop where
  phase : v.phase = some .auth
  originFd : v.conn.originFd = 0
  tokens : v.tokens = 0
  addrInfo : v.conn.addrInfo = []
  relay : v.relay = none
  inCapacity : BUFF_MIN_LEN ≤ v.conn.inBuff.capacity
  outCapacity : BUFF_MIN_LEN ≤ v.conn.outBuff.capacity
  armed : v.Armed
  parser : ∃ p, v.conn.authParser = some p ∧ (p.parser.state = .done →
    v.conn.isErrorResponse = false → Obs.credentials c true ∈ v.history)

theorem View.Subnegotiating.ok (h : v.Subnegotiating c) (hempty : v.conn.inBuff.content = []) :
    v.Ok c where
  inCapacity := h.inCapacity
  outCapacity := h.outCapacity
  relay r hr := by rw [h.relay] at hr; cases hr
  phase := by
    simp only [View.PhaseOk, h.phase]
    exact ⟨⟨hempty, h.originFd, h.tokens, h.addrInfo⟩, h.armed, h.parser⟩

theorem View.Ok.subnegotiating (h : v.Ok c) (hphase : v.phase = some .auth) :
    v.Subnegotiating c ∧ v.conn.inBuff.content = [] := by
  have hphaseOk := h.phase
  simp only [View.PhaseOk, hphase] at hphaseOk
  exact ⟨⟨hphase, hphaseOk.early.originFd, hphaseOk.early.tokens, hphaseOk.early.addrInfo,
    h.relay_eq_none (by simp [hphase]) (by simp [hphase]), h.inCapacity, h.outCapacity,
    hphaseOk.armed, hphaseOk.parser⟩, hphaseOk.early.inBuff⟩

/-- The write handler of the authentication lets the connection through or closes it. -/
theorem Advance.admitted (h : Advance c junk fds w r) (ha : w.Subnegotiating c)
    (hempty : w.conn.inBuff.content = []) :
    (∃ u, r = .alive u ∧ u.phase = some .connectionReq ∧ w.conn.isErrorResponse = false ∧
        u.conn.isErrorResponse = false ∧ u.Ok c ∧
        milestones u.history = milestones w.history ++ [.enter c .connectionReq]) ∨
      ∃ history, r = .gone history ∧
        milestones history = milestones w.history ++ [.enter c .error, .released c] := by
  cases h with
  | refused state hphase hstate herror => exact .inr ⟨_, rfl, by simp [Obs.isMilestone]⟩
  | auth p hphase => rw [ha.phase] at hphase; cases hphase
  | connectionReq state hphase herror hstate =>
    obtain rfl := Option.some.inj (ha.phase.symm.trans hphase)
    refine .inl ⟨_, rfl, rfl, herror, herror, ?_, by simp [Obs.isMilestone]⟩
    refine ⟨ha.inCapacity, ha.outCapacity, fun r hr => ?_, ?_⟩
    · have hnone : w.relay = none := ha.relay
      exact absurd (hr.symm.trans hnone) (by simp)
    · exact ⟨ha.originFd, ha.tokens, ha.addrInfo, rfl, .inl ⟨herror, hempty, ha.armed⟩⟩
  | copy state relay hphase herror hstate =>
    obtain rfl := Option.some.inj (ha.phase.symm.trans hphase)
    simp at hstate

theorem View.Subnegotiating.sent (h : v.Subnegotiating c) (n : ℕ) {left : Buffer}
    (hcapacity : left.capacity = v.conn.outBuff.capacity) :
    (v.sent c n left).Subnegotiating c where
  phase := h.phase
  originFd := h.originFd
  tokens := h.tokens
  addrInfo := h.addrInfo
  relay := by simp [View.sent, h.relay]
  inCapacity := h.inCapacity
  outCapacity := by
    simp only [View.sent, Buffer.capacity_bufferCompact]
    rw [hcapacity]
    exact h.outCapacity
  armed := View.armed_sent n left
  parser := by
    obtain ⟨p, hp, hjudged⟩ := h.parser
    exact ⟨p, hp, fun hdone herr => List.mem_append_left _ (hjudged hdone herr)⟩

/-- The view in which a judged message is answered. -/
theorem View.Subnegotiating.judged {p' : AuthParser} {inBuff : Buffer} {users : UserTable}
    (h : v.Subnegotiating c) (hcapacity : inBuff.capacity = v.conn.inBuff.capacity)
    (hqueued : Queued c .auth (authReply (p'.accepted users) junk)
      ((v.subnegotiated inBuff p').lookedUp c (p'.accepted users)) w) :
    (w.judged c (p'.accepted users) p'.name).Subnegotiating c ∧
      w.conn.outBuff.content ≠ [] ∧
      milestones (w.judged c (p'.accepted users) p'.name).history =
        milestones v.history ++ [.credentials c (p'.accepted users)] := by
  obtain ⟨hconn, hwcap, hwphase, hwinterest, hwrelay, hwtokens⟩ := hqueued.fields
  have hleft : w.conn.outBuff.content ≠ [] :=
    hqueued.content_ne_nil (by simp [authReply, Memory.bytes, AUTH_RESPONSE_SIZE])
      (by
        have hcap : AUTH_RESPONSE_SIZE ≤ v.conn.outBuff.capacity :=
          Nat.le_trans (by decide) h.outCapacity
        simpa [authReply, View.subnegotiated, View.lookedUp] using hcap)
  have hhistory : ∃ t, w.history = v.history ++ .credentials c (p'.accepted users) :: t ∧
      milestones t = [] := by
    cases hqueued with
    | queued =>
      exact ⟨[.queued c .auth (authReply (p'.accepted users) junk)],
        by simp [View.lookedUp, View.subnegotiated], by simp [Obs.isMilestone]⟩
    | dropped => exact ⟨[], by simp [View.lookedUp, View.subnegotiated], rfl⟩
  obtain ⟨t, ht, hnil⟩ := hhistory
  refine ⟨⟨hwphase.trans h.phase, ?_, hwtokens.trans h.tokens, ?_, hwrelay.trans h.relay, ?_,
    h.outCapacity.trans (le_of_eq hwcap.symm), .inr ⟨hleft, rfl⟩, p', ?_, ?_⟩, hleft, ?_⟩
  · simp only [View.judged, View.reset]
    rw [hconn]
    exact h.originFd
  · simp only [View.judged, View.reset]
    rw [hconn]
    exact h.addrInfo
  · simp only [View.judged, View.reset, Buffer.capacity_bufferReset]
    rw [hconn]
    exact h.inCapacity.trans (le_of_eq hcapacity.symm)
  · simp only [View.judged, View.reset]
    rw [hconn]
    rfl
  · intro _ herr
    have hok : p'.accepted users = true := by simpa [View.judged] using herr
    simp [View.judged, View.reset, ht, hok]
  · have hdiscarded : ∀ bytes, milestones (if bytes = [] then [] else [.discarded c bytes]) = [] := by
      intro bytes
      split
      · rfl
      · simp [Obs.isMilestone]
    simp only [View.judged, View.reset, ht, milestones_append, milestones_cons, hnil, hdiscarded]
    simp [Obs.isMilestone]

/-- The passes of the loop keep authenticating, or end with a judgement that is answered. -/
theorem AuthReads.progress {users : UserTable} {malformed : Bool}
    (h : AuthReads c users junk out v w malformed) (ha : v.Subnegotiating c) :
    milestones w.history = milestones v.history ∧
        (malformed = false → w.Subnegotiating c ∧ w.conn.inBuff.content = []) ∨
      malformed = false ∧ w.Ok c ∧
        ((∃ authOk, w.phase = some .auth ∧ w.conn.outBuff.content ≠ [] ∧
            milestones w.history = milestones v.history ++ [.credentials c authOk]) ∨
          w.phase = some .connectionReq ∧ w.conn.isErrorResponse = false ∧
            milestones w.history = milestones v.history ++
              [.credentials c true, .enter c .connectionReq]) := by
  induction h with
  | idle v hempty => exact .inl ⟨rfl, fun _ => ⟨ha, hempty⟩⟩
  | fed v w malformed p p' byte state inBuff hparser hcontent hcapacity hfeed hstate hrest ih =>
    exact ih { ha with
      inCapacity := hcapacity ▸ ha.inCapacity
      armed := ha.armed
      parser := ⟨p', rfl, fun hdone => absurd (authParserFeed_done hfeed hdone) hstate.1⟩ }
  | malformed v p p' byte inBuff hparser hcontent hcapacity hfeed => exact .inl ⟨rfl, by simp⟩
  | judged _ v w u p p' byte inBuff hparser hcontent hcapacity hfeed hqueued hwrote =>
    obtain ⟨hjudged, hleft, hmarks⟩ := ha.judged hcapacity hqueued
    have hempty : (w.judged c (p'.accepted users) p'.name).conn.inBuff.content = [] := by
      simp [View.judged, View.reset]
    refine .inr ⟨rfl, ?_⟩
    have hblocked : u = w.judged c (p'.accepted users) p'.name → u.Ok c ∧
        ((∃ authOk, u.phase = some .auth ∧ u.conn.outBuff.content ≠ [] ∧
            milestones u.history = milestones v.history ++ [.credentials c authOk]) ∨
          u.phase = some .connectionReq ∧ u.conn.isErrorResponse = false ∧
            milestones u.history = milestones v.history ++
              [.credentials c true, .enter c .connectionReq]) := by
      rintro rfl
      exact ⟨hjudged.ok hempty, .inl ⟨_, hjudged.phase, hleft, hmarks⟩⟩
    cases out with
    | zero => exact hblocked (Result.alive.inj (hwrote.of_blocked hleft (.inl rfl)))
    | failed err =>
      by_cases he : err = .eagain
      · exact hblocked (Result.alive.inj (hwrote.of_blocked hleft (.inr (by rw [he]))))
      · cases hwrote.of_failed hleft he
    | accepted n =>
      obtain ⟨left, hdrop, hcap, hadvance⟩ :=
        hwrote.of_accepted hleft (by rw [hjudged.phase]; simp)
      rcases hadvance.admitted (hjudged.sent n hcap) hempty with
        ⟨y, hy, hphase', herror, herror', hok, hmarks'⟩ | ⟨_, hgone, -⟩
      · obtain rfl := Result.alive.inj hy
        have haccepted : p'.accepted users = true := by
          simpa [View.sent, View.judged] using herror
        refine ⟨hok, .inr ⟨hphase', herror', ?_⟩⟩
        have hsent := (Relays.of_sent (c := c) n hcap).milestones
        rw [hmarks', hsent, hmarks, haccepted, List.append_assoc]
        rfl
      · cases hgone

/-- A client read in the authentication phase. -/
theorem Authenticates.progress {users : UserTable} {env : Env}
    (h : Authenticates c users junk env v r) (ha : v.Subnegotiating c)
    (hidle : v.conn.outBuff.content = []) : r.Ok c ∧ Move s c v e r := by
  obtain ⟨w, malformed, hreads⟩ := h
  rcases hreads.progress ha with ⟨hmarks, hquiet⟩ | ⟨rfl, hok, hend⟩
  · cases malformed with
    | false =>
      obtain ⟨hw, hempty⟩ := hquiet rfl
      exact ⟨hw.ok hempty, .quiet w (.inl (hw.phase.trans ha.phase.symm)) (by simp [ha.phase]) hmarks
        fun _ hleft => absurd hidle hleft⟩
    | true =>
      exact ⟨trivial, .closed _ [.enter c .error, .released c] (by simp [ha.phase]) (.inr rfl)
        (by simp [hmarks, Obs.isMilestone])⟩
  · rcases hend with ⟨authOk, hphase, hleft, hmarks⟩ | ⟨hphase, herror, hmarks⟩
    · exact ⟨hok, .judged w authOk ha.phase hphase hmarks hidle hleft⟩
    · exact ⟨hok, .authorized w ha.phase hphase herror hmarks hidle⟩

/-- What the scan of a request leaves, and the milestones it adds none to. -/
theorem ConnReqReads.keeps {scan : RequestScan} (h : ConnReqReads v w scan)
    (hreq : v.conn.connReqParser.isSome = true) (hok : BUFF_MIN_LEN ≤ v.conn.inBuff.capacity) :
    w.phase = v.phase ∧ w.conn.isErrorResponse = v.conn.isErrorResponse ∧
      w.history = v.history ∧ w.relay = v.relay ∧ w.conn.outBuff = v.conn.outBuff ∧
      w.conn.originFd = v.conn.originFd ∧ w.tokens = v.tokens ∧
      w.conn.addrInfo = v.conn.addrInfo ∧ w.interest = v.interest ∧
      BUFF_MIN_LEN ≤ w.conn.inBuff.capacity := by
  obtain ⟨hview, hcap, -, -⟩ := h.fields hreq
  refine ⟨?_, ?_, ?_, ?_, ?_, ?_, ?_, ?_, ?_, hcap.symm ▸ hok⟩
  all_goals rw [hview]

/-- A client read in the request phase. -/
theorem Requests.progress {fd : ℕ} {env : Env} (h : Requests c junk env v r)
    (hphase : v.phase = some .connectionReq) (hparser : v.conn.connReqParser.isSome = true)
    (horigin : v.conn.originFd = 0) (htokens : v.tokens = 0) (haddr : v.conn.addrInfo = [])
    (hrelay : v.relay = none) (hin : BUFF_MIN_LEN ≤ v.conn.inBuff.capacity)
    (hout : BUFF_MIN_LEN ≤ v.conn.outBuff.capacity) (hempty : v.conn.outBuff.content = [])
    (hinterest : v.interest = OP_READ) (herror : v.conn.isErrorResponse = false) :
    r.Ok c ∧ Move s c v (.readable fd env) r := by
  have hnone : ∀ {x : View} {P : FdHandler × FdInterest → Prop}, x.relay = v.relay →
      ∀ r, x.relay = some r → P r := by
    intro x P hx r hr
    rw [hx, hrelay] at hr
    cases hr
  cases h with
  | more w hreads =>
    obtain ⟨hw, he, hh, hr, ho, hf, ht, ha, hi, hcap⟩ := hreads.keeps hparser hin
    obtain ⟨-, -, hsome, hmore⟩ := hreads.fields hparser
    refine ⟨⟨hcap, ho ▸ hout, hnone hr, ?_⟩, .quiet w (.inl hw) (fun _ => he) (by rw [hh])
      (by simp [hphase])⟩
    simp only [View.PhaseOk, hw, hphase]
    exact ⟨hf ▸ horigin, ht ▸ htokens, ha ▸ haddr, hsome, .inl ⟨he ▸ herror, hmore rfl,
      .inl ⟨ho ▸ hempty, hi ▸ hinterest⟩⟩⟩
  | malformed w hreads =>
    obtain ⟨hw, he, hh, -⟩ := hreads.keeps hparser hin
    exact ⟨trivial, .closed _ [.enter c .error, .released c] (by simp [hphase]) (.inr rfl)
      (by simp [hh, Obs.isMilestone])⟩
  | unsupported w u p hreads hcmd hqueued =>
    obtain ⟨hw, he, hh, hr, ho, hf, ht, ha, hi, hcap⟩ := hreads.keeps hparser hin
    obtain ⟨-, -, hsome, -⟩ := hreads.fields hparser
    obtain ⟨hconn, hucap, huphase, -, hurelay, hutokens⟩ := hqueued.fields
    obtain ⟨hpos, hle⟩ := length_connReqErrorReply SOCKS5_REP_COMMAND_NOT_SUPPORTED junk
    have hcapacity : (connReqErrorReply SOCKS5_REP_COMMAND_NOT_SUPPORTED junk).length ≤
        w.conn.outBuff.capacity := by
      rw [ho]
      exact hle.trans hout
    obtain ⟨hcontent, hhistory, -⟩ :=
      hqueued.of_empty (ho ▸ hempty) (List.ne_nil_of_length_pos hpos) hcapacity
    refine ⟨⟨?_, ?_, hnone (hurelay.trans hr), ?_⟩,
      .unsupported _ (connReqErrorReply SOCKS5_REP_COMMAND_NOT_SUPPORTED junk) hphase herror
        (huphase.trans (hw.trans hphase)) rfl ?_⟩
    · change BUFF_MIN_LEN ≤ u.conn.inBuff.capacity
      rw [hconn]
      exact hcap
    · change BUFF_MIN_LEN ≤ u.conn.outBuff.capacity
      rw [hucap, ho]
      exact hout
    · simp only [View.PhaseOk, huphase.trans (hw.trans hphase)]
      refine ⟨?_, hutokens.trans (ht.trans htokens), ?_, ?_, .inr ⟨rfl, ?_, rfl⟩⟩
      · change u.conn.originFd = 0
        rw [hconn]
        exact hf ▸ horigin
      · change u.conn.addrInfo = []
        rw [hconn]
        exact ha ▸ haddr
      · change u.conn.connReqParser.isSome = true
        rw [hconn]
        exact hsome
      · change u.conn.outBuff.content ≠ []
        rw [hcontent]
        exact List.ne_nil_of_length_pos hpos
    · simp [hhistory, hh, Obs.isMilestone]
  | noThread w p hreads hcmd hatyp hthread =>
    obtain ⟨hw, he, hh, -⟩ := hreads.keeps hparser hin
    exact ⟨trivial, .noThread _ fd env rfl hthread hphase herror (by simp [hh, Obs.isMilestone])⟩
  | threaded w p hreads hcmd hatyp hthread =>
    obtain ⟨hw, he, hh, hr, ho, hf, ht, ha, hi, hcap⟩ := hreads.keeps hparser hin
    refine ⟨⟨hcap, ?_, hnone hr, ?_⟩, .requested _ hphase herror rfl (he ▸ herror) ?_⟩
    · change BUFF_MIN_LEN ≤ w.conn.outBuff.capacity
      rw [ho]
      exact hout
    · refine .inl ⟨hf ▸ horigin, rfl, ?_, ?_, he ▸ herror⟩
      · change w.tokens + 1 = 1
        rw [ht, htokens]
      · change w.conn.outBuff.content = []
        rw [ho]
        exact hempty
    · simp [View.awaiting, View.requested, hh, Obs.isMilestone]
  | looked w p hreads hcmd hatyp =>
    obtain ⟨hw, he, hh, hr, ho, hf, ht, ha, hi, hcap⟩ := hreads.keeps hparser hin
    refine ⟨⟨hcap, ?_, hnone hr, ?_⟩, .requested _ hphase herror rfl (he ▸ herror) ?_⟩
    · change BUFF_MIN_LEN ≤ w.conn.outBuff.capacity
      rw [ho]
      exact hout
    · refine .inl ⟨hf ▸ horigin, rfl, ?_, ?_, he ▸ herror⟩
      · change w.tokens + 1 = 1
        rw [ht, htokens]
      · change w.conn.outBuff.content = []
        rw [ho]
        exact hempty
    · simp [View.awaiting, View.resolved, View.requested, hh, Obs.isMilestone]

end Socks5d
