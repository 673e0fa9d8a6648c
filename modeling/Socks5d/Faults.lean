import Socks5d.Listeners

/-!
# Faults

Which events stop the program. The dispatch lemma explains every fault by a hazard; here every
hazard is shown to be one, so that a reachable server answers exactly the events that are none. A
hazard is always a use of something released or absent, and nothing else is.
-/

namespace Socks5d

open GuardedRun Fallible

variable {mode : Mode} {s s₀ s₁ s' : Server} {c : ConnId} {v w : View} {e : Event} {r : Result}
  {junk : Memory} {fd : ℕ} {env : Env}

/-- The readiness of a client makes the server receive: `in_buff` has room. -/
def Event.Receives (s : Server) : Event → Prop
  | .readable fd _ => ∀ c k, (s.selector.fds fd).isClientOf c → s.conns c = some k →
      0 < k.inBuff.space
  | _ => True

/-- A greeting that was read to its end met no hazard. -/
theorem HandshakeReads.safe {sends : List SendOutcome} {malformed : Bool}
    (h : HandshakeReads c junk v sends w malformed) {p : HandshakeParser}
    (hparser : v.conn.handshakeParser = some p) (hphase : v.phase = some .handshake)
    (hcapacity : HANDSHAKE_RESPONSE_SIZE ≤ v.conn.outBuff.capacity) :
    greetingHazard p v.conn.inBuff.content sends = false := by
  induction h generalizing p with
  | idle v sends hempty => simp [hempty, greetingHazard]
  | fed v w sends malformed q p' byte state inBuff hq hcontent _ hfeed hstate hrest ih =>
    obtain rfl := Option.some.inj (hparser.symm.trans hq)
    rw [hcontent, greetingHazard, hfeed]
    have hrest' := ih rfl hphase hcapacity
    cases state with
    | done => exact absurd rfl hstate.1
    | error => exact absurd rfl hstate.2
    | _ => exact hrest'
  | malformed v sends q p' byte inBuff hq hcontent _ hfeed =>
    obtain rfl := Option.some.inj (hparser.symm.trans hq)
    rw [hcontent, greetingHazard, hfeed]
  | replied fds v w u x sends malformed q p' byte inBuff hq hcontent _ hfeed hqueued hwrote hrest ih =>
    obtain rfl := Option.some.inj (hparser.symm.trans hq)
    rw [hcontent, greetingHazard, hfeed]
    obtain ⟨hconn, hwcap, hwphase, -⟩ := hqueued.fields
    have hleft : (w.answering p'.refuses).conn.outBuff.content ≠ [] :=
      hqueued.content_ne_nil (by simp [handshakeReply, Memory.bytes, HANDSHAKE_RESPONSE_SIZE])
        (by simpa [handshakeReply, View.greeted] using hcapacity)
    have hphase' : (w.answering p'.refuses).phase = some .handshake := hwphase.trans hphase
    have hwparser : w.conn.handshakeParser = some p' := by rw [hconn]; rfl
    have hwin : w.conn.inBuff = inBuff := by rw [hconn]; rfl
    have hrest' : u = w.answering p'.refuses →
        greetingHazard p' inBuff.content sends.tail = false := by
      rintro rfl
      rw [← hwin]
      exact ih hwparser hphase' (hcapacity.trans (le_of_eq hwcap.symm))
    cases hout : sends.headD .wouldBlock with
    | zero => exact hrest' (Result.alive.inj (hwrote.of_blocked hleft (.inl hout)))
    | failed err =>
      by_cases herr : err = .eagain
      · subst herr
        simpa using hrest' (Result.alive.inj (hwrote.of_blocked hleft (.inr hout)))
      · rw [hout] at hwrote
        cases hwrote.of_failed hleft herr
    | accepted n =>
      rw [hout] at hwrote
      obtain ⟨left, -, -, hadvance⟩ := hwrote.of_accepted hleft (by rw [hphase']; simp)
      -- the parser is gone, so the loop can only go on when nothing is left to read
      rcases hadvance.of_handshake hphase' with ⟨-, history, hgone⟩ | ⟨hrefuses, x', state, hx, hin,
        hstate, hclosed⟩
      · cases hgone
      · obtain rfl := Result.alive.inj hx
        have hrefuses' : p'.refuses = false := hrefuses
        have hempty : u.conn.inBuff.content = [] := by
          cases hrest with
          | idle _ _ hempty => exact hempty
          | fed _ _ _ _ q _ _ _ _ hq => rw [hclosed] at hq; cases hq
          | malformed _ _ q _ _ _ hq => rw [hclosed] at hq; cases hq
          | replied _ _ _ _ _ _ _ q _ _ _ hq => rw [hclosed] at hq; cases hq
        have hread : inBuff.content = [] := by
          rw [← hwin, ← hempty, hin]
          exact rfl
        simp [hrefuses', hread]

/-- A sub-negotiation that was read to its end met no hazard. -/
theorem AuthReads.safe {users : UserTable} {out : SendOutcome} {malformed : Bool}
    (h : AuthReads c users junk out v w malformed) {p : AuthParser}
    (hparser : v.conn.authParser = some p) (hphase : v.phase = some .auth)
    (hcapacity : AUTH_RESPONSE_SIZE ≤ v.conn.outBuff.capacity) :
    subnegotiationHazard users out p v.conn.inBuff.content = false := by
  induction h generalizing p with
  | idle v hempty => simp [hempty, subnegotiationHazard]
  | fed v w malformed q p' byte state inBuff hq hcontent _ hfeed hstate hrest ih =>
    obtain rfl := Option.some.inj (hparser.symm.trans hq)
    rw [hcontent, subnegotiationHazard, hfeed]
    have hrest' := ih rfl hphase hcapacity
    cases state with
    | done => exact absurd rfl hstate.1
    | error => exact absurd rfl hstate.2
    | _ => exact hrest'
  | malformed v q p' byte inBuff hq hcontent _ hfeed =>
    obtain rfl := Option.some.inj (hparser.symm.trans hq)
    rw [hcontent, subnegotiationHazard, hfeed]
  | judged fds v w u q p' byte inBuff hq hcontent _ hfeed hqueued hwrote =>
    obtain rfl := Option.some.inj (hparser.symm.trans hq)
    rw [hcontent, subnegotiationHazard, hfeed]
    obtain ⟨hconn, -, hwphase, -⟩ := hqueued.fields
    have hleft : (w.judged c (p'.accepted users) p'.name).conn.outBuff.content ≠ [] :=
      hqueued.content_ne_nil (by simp [authReply, Memory.bytes, AUTH_RESPONSE_SIZE])
        (by simpa [authReply, View.lookedUp, View.subnegotiated] using hcapacity)
    have hphase' : (w.judged c (p'.accepted users) p'.name).phase = some .auth :=
      hwphase.trans hphase
    cases out with
    | zero => rfl
    | failed err =>
      by_cases herr : err = .eagain
      · simp [herr]
      · cases hwrote.of_failed hleft herr
    | accepted n =>
      obtain ⟨left, -, -, hadvance⟩ := hwrote.of_accepted hleft (by rw [hphase']; simp)
      rcases hadvance.of_auth hphase' with ⟨-, history, hgone⟩ | ⟨haccepted, -⟩
      · cases hgone
      · have haccepted' : (!p'.accepted users) = false := haccepted
        simpa using haccepted'

/-- A client read with room that gets bytes hands them to the phase. -/
theorem ClientRead.of_data {Q : View → Result → Prop} (h : ClientRead c v env Q r)
    (hspace : 0 < v.conn.inBuff.space) {first : UInt8} {rest : List UInt8}
    (hrecv : env.recv = .data first rest) :
    ∃ buff, buff.content = v.conn.inBuff.content ++ (first :: rest).take v.conn.inBuff.space ∧
      Q (v.received c buff ((first :: rest).take v.conn.inBuff.space)) r := by
  cases h with
  | full hfull => omega
  | ended _ heof => rw [hrecv] at heof; cases heof
  | blocked _ hfail => rw [hrecv] at hfail; cases hfail
  | broken _ _ hfail => rw [hrecv] at hfail; cases hfail
  | handled first' rest' buff _ _ hdata hcontent _ hread =>
    rw [hrecv] at hdata
    obtain ⟨rfl, rfl⟩ := RecvOutcome.data.inj hdata
    exact ⟨buff, hcontent, hread⟩

/-- A client's registration is none towards an origin. -/
theorem Item.isClientOf.relayOf {item : Item} (h : item.isClientOf c) (d : ConnId) :
    item.relayOf d = none := by
  simp [Item.relayOf, h.1, FdHandler.isRelay]

/-- A registration that the view shows is at `origin_fd`. -/
theorem relayOf_of_relay (hview : s.view c = some v) {x : FdHandler × FdInterest}
    (hfd : v.conn.originFd = fd) (hrelay : v.relay = some x) :
    (s.selector.fds fd).relayOf c = some x := by
  obtain ⟨-, -, -, hshown, -⟩ := view_eq_some_iff.mp hview
  rw [hrelay, Server.relay] at hshown
  split at hshown
  · rw [hfd, Int.toNat_natCast] at hshown
    exact hshown
  · cases hshown

/-- The readiness of a client's descriptor is that client's read in its phase. -/
theorem Reaction.of_client_readable (h : Reaction s c v (.readable fd env) r)
    (hview : s.view c = some v) (hitem : (s.selector.fds fd).isClientOf c) :
    (v.phase = none ∨ v.phase = some .handshake) ∧
        ClientRead c v env (fun w => Greets c env.junk env w) r ∨
      v.phase = some .auth ∧ ClientRead c v env (fun w => Authenticates c s.users env.junk env w) r ∨
      v.phase = some .connectionReq ∨
      v.phase = some .copy ∧ ClientRead c v env (fun w => CopyRead c s w env.send) r := by
  cases h with
  | greets _ _ _ _ _ hphase hread => exact .inl ⟨hphase, hread⟩
  | authenticates _ _ _ _ _ hphase hread => exact .inr (.inl ⟨hphase, hread⟩)
  | requests _ _ _ _ _ hphase _ => exact .inr (.inr (.inl hphase))
  | relays _ _ _ _ _ hphase hread => exact .inr (.inr (.inr ⟨hphase, hread⟩))
  | receives _ _ _ i horigin hrelay =>
    have hrelayOf := relayOf_of_relay hview horigin hrelay
    rw [hitem.relayOf] at hrelayOf
    cases hrelayOf

/-- The view in which a greeting is read on. -/
theorem View.begun_fields (w : View) (c : ConnId) {p : HandshakeParser}
    (h : w.phase = none ∧ p = handshakeParserInit ∨
      w.phase = some .handshake ∧ w.conn.handshakeParser = some p) :
    (w.begun c).phase = some .handshake ∧ (w.begun c).conn.handshakeParser = some p ∧
      (w.begun c).conn.inBuff = w.conn.inBuff ∧ (w.begun c).conn.outBuff = w.conn.outBuff := by
  unfold View.begun
  rcases h with ⟨hphase, rfl⟩ | ⟨hphase, hparser⟩
  · simp only [hphase]
    exact ⟨trivial, trivial, trivial, trivial⟩
  · simp only [hphase]
    exact ⟨trivial, hparser, trivial, trivial⟩

/-- What a view shows of the record and the phase. -/
theorem view_fields {k : Socks5Conn} {m : Option Socks5State} (hview : s.view c = some v)
    (hk : s.conns c = some k) (hm : s.stms c = some ⟨m⟩) : v.conn = k ∧ v.phase = m := by
  obtain ⟨hconn, hphase, -⟩ := view_eq_some_iff.mp hview
  exact ⟨Option.some.inj (hconn.symm.trans hk),
    congrArg StateMachine.current (Option.some.inj (hphase.symm.trans hm))⟩

/-- An answer to a resolution that releases the connection is read once more. -/
theorem Tracks.socksv5Block_faults (h : Tracks mode false c s₀ v s) {key : SelectorKey}
    (hkey : key = ⟨v.conn.clientFd, c⟩) (env : Env) (hphase : v.phase = some .connecting)
    (hzero : v.conn.originFd = 0) (htokens : v.tokens = 0)
    (hcapacity : BUFF_MIN_LEN ≤ v.conn.outBuff.capacity)
    (hhazard : BlockHazard s v.conn.addrInfo env) : Socks5d.socksv5Block key env s ≠ .ok s' := by
  have hdata : key.data = c := by rw [hkey]
  have hnoted := h.notified htokens
  obtain ⟨ret, s₁, r, hole, hs₁, hready, hlands, hhole⟩ :=
    hnoted.connectingOnBlockReady (v := v.notified c) hkey env hphase hzero rfl
  have hblock : Socks5d.socksv5Block key env s =
      Socks5d.jump ret key s₁ >>= fun s' =>
        if ret = .error then do
          let conn ← s'.incErrors.conn key.data
          selectorUnregisterFd s'.incErrors conn.clientFd
        else pure s' := by
    rw [Socks5d.socksv5Block, hdata, hnoted.stmHandlerBlock_eq hdata hphase hs₁]
    cases Socks5d.jump ret key s₁ with
    | error e => rfl
    | ok s' => rfl
  rw [hblock]
  have hreleased : ∀ w, w.phase = some .connecting → w.tokens = 0 →
      Tracks mode hole c s₀ w s₁ → ret = .error →
      (Socks5d.jump ret key s₁ >>= fun s' =>
        if ret = .error then do
          let conn ← s'.incErrors.conn key.data
          selectorUnregisterFd s'.incErrors conn.clientFd
        else pure s') ≠ .ok s' := by
    rintro w hwphase hwtokens htracks rfl
    obtain ⟨s₂, hs₂, h₂⟩ :=
      htracks.jump_error hdata hwphase (by simp) trivial (by simp) hwtokens
    have hgone : s₂.incErrors.conn key.data = .error .useAfterFree := by
      rw [hdata]
      simp [Server.conn, Server.incErrors, h₂.conns]
    simp [hs₂, hgone]
  obtain ⟨hsome, hdial⟩ := hhazard
  cases hready with
  | noAddress w hnone _ => exact absurd hnone hsome
  | refused _ _ =>
    exact hreleased ((v.notified c).dialed c s.kernel.lowest env.connects none) hphase rfl hlands rfl
  | unregistered _ _ =>
    exact hreleased (View.registered
      { (v.notified c).dialed c s.kernel.lowest env.connects none with interest := OP_NOOP }
      c SOCKS5_REP_GENERAL_FAILURE env.now) hphase rfl hlands rfl
  | pending peer rest _ hdial' hlt hfree =>
    have hdial'' : dial v.conn.addrInfo env.connects = .pending peer rest := hdial'
    rw [hdial''] at hdial
    have hused := hdial hlt
    rw [show (s.selector.fds s.kernel.lowest).used = false from hfree] at hused
    cases hused
  | established peer w r _ hdial' hqueued hwrote =>
    have hdial'' : dial v.conn.addrInfo env.connects = .connected peer := hdial'
    rw [hdial''] at hdial
    obtain ⟨err, hout, herr⟩ := hdial
    obtain ⟨hpos, hle⟩ := length_connReqReply env s₀.junk
    have hleft : (w.succeeding c).conn.outBuff.content ≠ [] :=
      hqueued.content_ne_nil (List.ne_nil_of_length_pos hpos) (hle.trans hcapacity)
    rw [hout] at hwrote
    obtain rfl := hwrote.of_failed hleft herr
    have hhole' : hole = false := by
      cases hole with
      | true => simp at hhole
      | false => rfl
    subst hhole'
    have hgone : Released mode c s₀ _ s₁ := hlands
    simp [Socks5d.jump, Server.stm, hdata, hgone.stms]

/-- The event of a connection is one of its reactions. -/
theorem Inv.reaction_of_target (hinv : Inv s) (he : enabled s e = true)
    (hs : Socks5d.step s e = .ok s') (htarget : e.target s = some c) :
    ∃ v r, s.view c = some v ∧ Reaction s c v e r := by
  cases hinv.effect he hs with
  | background _ hnone => rw [htarget] at hnone; cases hnone
  | reaction d v r s₀ hview htarget' hreaction =>
    obtain rfl := Option.some.inj (htarget.symm.trans htarget')
    exact ⟨v, r, hview, hreaction⟩

/-- A notification whose answer releases the connection stops the program. -/
theorem Inv.block_faults (hinv : Inv s) {jobs : List ℕ} {k : Socks5Conn}
    (hjobs : s.selector.resolutionJobs = fd :: jobs) (hitem : (s.selector.fds fd).isClientOf c)
    (hconn : s.conns c = some k) (hhazard : BlockHazard s k.addrInfo env) :
    Socks5d.step s (.notify env) ≠ .ok s' := by
  obtain ⟨d, v, i, hfds, hused, hview, hclient, hphase, hwaiting, -, htracks⟩ :=
    hinv.delivery ⟨true, false⟩ env hjobs (by simp) rfl
  obtain rfl : c = d := by
    have hdata := hitem.2
    rw [hfds] at hdata
    exact (Option.some.inj hdata).symm
  have hkv : v.conn = k := Option.some.inj ((view_eq_some_iff.mp hview).1.symm.trans hconn)
  have hjobs' : (s.enter env).selector.resolutionJobs = fd :: jobs := hjobs
  have hitem' : (s.enter env).selector.fds fd = ⟨fd, i, some .socks5Handler, some c⟩ := hfds
  rw [hfds] at hused
  simp only [Socks5d.step, handleBlockNotification, hjobs', hitem', if_pos hused, handleBlock]
  exact htracks.socksv5Block_faults (by rw [hclient]) env hphase hwaiting.originFd rfl
    (hinv.ok c v hview).outCapacity (hkv ▸ hhazard)

/-- Every hazard stops the program, if the server gets to receive at all. -/
theorem TeardownHazard.faults (h : TeardownHazard s e) (hinv : Inv s) (he : enabled s e = true)
    (hreceives : e.Receives s) : Socks5d.step s e ≠ .ok s' := by
  intro hs
  cases h with
  | greeting fd env c k first rest p hitem hconn hphase hrecv hhazard =>
    obtain ⟨v, r, hview, hreaction⟩ := hinv.reaction_of_target he hs hitem.2
    have hok := hinv.ok c v hview
    have hstart : v.conn = k ∧ (v.phase = none ∧ p = handshakeParserInit ∨
        v.phase = some .handshake ∧ v.conn.handshakeParser = some p) := by
      rcases hphase with ⟨hm, hp⟩ | ⟨hm, hp⟩
      · obtain ⟨hk, hnone⟩ := view_fields hview hconn hm
        exact ⟨hk, .inl ⟨hnone, hp⟩⟩
      · obtain ⟨hk, hgreeting⟩ := view_fields hview hconn hm
        exact ⟨hk, .inr ⟨hgreeting, hk ▸ hp⟩⟩
    obtain ⟨rfl, hstart⟩ := hstart
    have hgreeting : v.phase = none ∨ v.phase = some .handshake :=
      hstart.imp And.left And.left
    have hspace := hreceives c v.conn hitem hconn
    rcases hreaction.of_client_readable hview hitem with ⟨-, hread⟩ | ⟨hp, -⟩ | hp | ⟨hp, -⟩
    · obtain ⟨buff, hcontent, hgreets⟩ := hread.of_data hspace hrecv
      cases hgreets with
      | reads w malformed hreads =>
        obtain ⟨hphase', hparser, hin, hout⟩ :=
          (v.received c buff ((first :: rest).take v.conn.inBuff.space)).begun_fields c hstart
        have hsafe := hreads.safe hparser hphase' (by
          rw [hout]
          exact (by decide : HANDSHAKE_RESPONSE_SIZE ≤ BUFF_MIN_LEN).trans hok.outCapacity)
        have hcontent' : (v.received c buff ((first :: rest).take v.conn.inBuff.space)).conn.inBuff.content
            = v.conn.inBuff.content ++ (first :: rest).take v.conn.inBuff.space := hcontent
        rw [hin, hcontent', hhazard] at hsafe
        cases hsafe
    · simp [hp] at hgreeting
    · simp [hp] at hgreeting
    · simp [hp] at hgreeting
  | subnegotiation fd env c k first rest p hitem hconn hphase hparser hrecv hhazard =>
    obtain ⟨v, r, hview, hreaction⟩ := hinv.reaction_of_target he hs hitem.2
    obtain ⟨rfl, hauth⟩ := view_fields hview hconn hphase
    have hspace := hreceives c v.conn hitem hconn
    have hok := hinv.ok c v hview
    rcases hreaction.of_client_readable hview hitem with ⟨hp | hp, -⟩ | ⟨-, hread⟩ | hp | ⟨hp, -⟩
    · cases hauth.symm.trans hp
    · cases hauth.symm.trans hp
    · obtain ⟨buff, hcontent, hauthenticates⟩ := hread.of_data hspace hrecv
      cases hauthenticates with
      | reads w malformed hreads =>
        have hsafe := hreads.safe (p := p) hparser hauth
          ((by decide : AUTH_RESPONSE_SIZE ≤ BUFF_MIN_LEN).trans hok.outCapacity)
        have hcontent' : (v.received c buff ((first :: rest).take v.conn.inBuff.space)).conn.inBuff.content
            = v.conn.inBuff.content ++ (first :: rest).take v.conn.inBuff.space := hcontent
        rw [hcontent', hhazard] at hsafe
        cases hsafe
    · cases hauth.symm.trans hp
    · cases hauth.symm.trans hp
  | relay fd env c k first rest hitem hconn hphase hrecv horigin hsend =>
    obtain ⟨v, r, hview, hreaction⟩ := hinv.reaction_of_target he hs hitem.2
    obtain ⟨rfl, hcopy⟩ := view_fields hview hconn hphase
    have hspace := hreceives c v.conn hitem hconn
    rcases hreaction.of_client_readable hview hitem with ⟨hp | hp, -⟩ | ⟨hp, -⟩ | hp | ⟨-, hread⟩
    · cases hcopy.symm.trans hp
    · cases hcopy.symm.trans hp
    · cases hcopy.symm.trans hp
    · cases hcopy.symm.trans hp
    · obtain ⟨buff, -, hcopyRead⟩ := hread.of_data hspace hrecv
      cases hcopyRead with
      | unregistered hunreg => exact hunreg horigin
      | relayed _ _ hout _ => exact hout hsend
  | block env fd jobs c k hjobs hitem hconn hhazard =>
    exact hinv.block_faults hjobs hitem hconn hhazard hs
  | late fd env c k i hitem hconn hphase hstands =>
    obtain ⟨-, hhandler, -, hdata, -⟩ := relayOf_eq_some_iff.mp hitem
    obtain ⟨v, r, hview, hreaction⟩ := hinv.reaction_of_target he hs hdata
    obtain ⟨rfl, hcopy⟩ := view_fields hview hconn hphase
    cases hreaction with
    | sends _ _ _ _ hclient => rw [hclient.relayOf] at hitem; cases hitem
    | connects _ _ _ _ _ _ _ hconnects =>
      cases hconnects with
      | retried err _ hopen herr => simp [hopen, herr] at hstands
      | refused _ _ err _ hopen herr => simp [hopen, herr] at hstands
      | established _ _ _ _ hconnecting => cases hcopy.symm.trans hconnecting
    | delivers _ _ _ _ horigin hrelay =>
      have hrelayOf := relayOf_of_relay hview horigin hrelay
      rw [hitem] at hrelayOf
      cases hrelayOf
  | orphan fd env c x e he' hitem hconn =>
    obtain ⟨-, -, -, hdata, -⟩ := relayOf_eq_some_iff.mp hitem
    have htarget : e.target s = some c := by
      rcases he' with rfl | rfl
      · exact hdata
      · exact hdata
    obtain ⟨v, r, hview, -⟩ := hinv.reaction_of_target he hs htarget
    rw [(view_eq_some_iff.mp hview).1] at hconn
    cases hconn

/-- A readiness without a callback stops the program. -/
theorem Event.Unhandled.faults (h : e.Unhandled s) : Socks5d.step s e ≠ .ok s' := by
  intro hs
  cases e with
  | readable fd env =>
    have hhandler : (s.selector.fds fd).handler = some .connectingHandler := h
    simp only [Socks5d.step, handleRead, hhandler] at hs
    cases hdata : (s.selector.fds fd).data with
    | none => simp [hdata] at hs
    | some c => simp [hdata] at hs
  | writable fd env =>
    rcases h with hhandler | hhandler
    · simp [Socks5d.step, handleWrite, hhandler] at hs
    · simp [Socks5d.step, handleWrite, hhandler] at hs
  | _ => exact h

/-- A client whose `in_buff` is full is not read from. -/
theorem full_answered (hnot : ¬ e.Receives s) :
    ∃ s', Socks5d.step s e = .ok s' := by
  cases e with
  | readable fd env =>
    simp only [Event.Receives, not_forall, not_lt, Nat.le_zero] at hnot
    obtain ⟨c, k, hitem, hconn, hfull⟩ := hnot
    have hcan : bufferCanWrite k.inBuff = false := by
      rw [Bool.eq_false_iff, ne_eq, Buffer.bufferCanWrite_iff]
      omega
    have hlookup : (s.enter env).conn c = .ok k := by simp [Server.conn, Server.enter, hconn]
    simp only [Socks5d.step, handleRead, hitem.1, hitem.2, socksv5Read, hlookup, ok_bind, hcan,
      Bool.not_false, if_true, pure_eq_ok]
    exact ⟨_, rfl⟩
  | _ => exact absurd trivial hnot

/-- A reachable server answers exactly the events that are no hazard and have a callback. -/
theorem faultless_iff (hreach : Reachable s) (he : enabled s e = true) :
    (∃ s', step s e = .ok s') ↔
      ¬ (TeardownHazard s e ∧ e.Receives s) ∧ ¬ e.Unhandled s := by
  have hinv := hreach.inv
  constructor
  · rintro ⟨s', hs⟩
    exact ⟨fun ⟨hhazard, hreceives⟩ => hhazard.faults hinv he hreceives hs, fun hun => hun.faults hs⟩
  · rintro ⟨hsafe, hhandled⟩
    by_cases hreceives : e.Receives s
    · have hdispatch : Holds (Explained s e) (step s e) (Effect ⟨true, false⟩ s e) :=
        dispatch_explained hinv he (.inl rfl) (by simp)
      cases hs : step s e with
      | ok s' => exact ⟨s', rfl⟩
      | error f =>
        rcases hdispatch.fault hs with ⟨-, hhazard⟩ | ⟨-, hun⟩
        · exact absurd ⟨hhazard, hreceives⟩ hsafe
        · exact absurd hun hhandled
    · exact full_answered hreceives

/-- A byte that follows a greeting in the same read meets the parser its reply has closed. -/
theorem faultless_iff_pipelined : ∃ (s : Server) (e : Event), enabled s e = true ∧
    (TeardownHazard s e ∧ e.Receives s ∨ e.Unhandled s) := by
  obtain ⟨s, hs, hcheck⟩ := reachable_of_after [arrives]
    (fun s => enabled s (.readable 2 { recv := .data 5 [1, 0, 0], sends := [.accepted 1] }) &&
      !(step s (.readable 2 { recv := .data 5 [1, 0, 0], sends := [.accepted 1] })).isOk)
    (by decide +kernel)
  simp only [Bool.and_eq_true, Bool.not_eq_true'] at hcheck
  obtain ⟨he, hstep⟩ := hcheck
  refine ⟨s, _, he, ?_⟩
  by_contra hsafe
  rw [not_or] at hsafe
  obtain ⟨s', hs'⟩ := (faultless_iff hs he).mpr hsafe
  rw [hs'] at hstep
  cases hstep

/-- A readiness without a callback fails an assertion and touches no released object. -/
theorem Event.Unhandled.asserts (h : e.Unhandled s) (hinv : Inv s) (he : enabled s e = true) :
    step s e = .error .assertion := by
  cases e with
  | readable fd env =>
    have hhandler : (s.selector.fds fd).handler = some .connectingHandler := h
    simp only [enabled, Bool.and_eq_true, Bool.not_eq_true'] at he
    obtain ⟨-, hreg⟩ := hinv.owned.registered fd he.1.1.2
    simp only [step, handleRead, hhandler]
    generalize s.selector.fds fd = item at hreg hhandler
    cases hreg with
    | listener handler i _ hpassive => rcases hpassive with rfl | rfl <;> cases hhandler
    | client c i _ => cases hhandler
    | relay c handler i _ _ _ _ => rfl
    | admin i _ => cases hhandler
  | writable fd env =>
    rcases h with hhandler | hhandler
    · simp [step, handleWrite, hhandler]
    · simp [step, handleWrite, hhandler]
  | _ => exact h.elim

/-- The event makes a callback go on with what it has released: a hazard that the server gets to,
at a descriptor whose handler has a callback. -/
def UsesReleased (s : Server) (e : Event) : Prop :=
  TeardownHazard s e ∧ e.Receives s ∧ ¬ e.Unhandled s

/-- No callback touches a released or absent object, nor releases one twice, exactly if the event
is no hazard. -/
theorem no_use_after_release_iff (hreach : Reachable s) (he : enabled s e = true) :
    (∀ f, step s e = .error f → ¬ f.isMemory) ↔ ¬ UsesReleased s e := by
  have hinv := hreach.inv
  have hdispatch : Holds (Explained s e) (step s e) (Effect ⟨true, false⟩ s e) :=
    dispatch_explained hinv he (.inl rfl) (by simp)
  constructor
  · rintro hsafe ⟨hhazard, hreceives, hhandled⟩
    cases hs : step s e with
    | ok s' => exact hhazard.faults hinv he hreceives hs
    | error f =>
      rcases hdispatch.fault hs with ⟨hmemory, -⟩ | ⟨-, hun⟩
      · exact hsafe f hs hmemory
      · exact hhandled hun
  · intro hsafe f hs hmemory
    have hhandled : ¬ e.Unhandled s := by
      intro hun
      rw [hun.asserts hinv he] at hs
      cases hs
      exact hmemory
    have hreceives : e.Receives s := by
      by_contra hnot
      obtain ⟨s', hs'⟩ := full_answered hnot
      rw [hs'] at hs
      cases hs
    rcases hdispatch.fault hs with ⟨-, hhazard⟩ | ⟨-, hun⟩
    · exact hsafe ⟨hhazard, hreceives, hhandled⟩
    · exact hhandled hun

/-- A greeting with one more byte behind it, whose reply is sent whole. -/
def followed : Event := .readable 2 { recv := .data 5 [1, 0, 0], sends := [.accepted 1] }

/-- The byte behind a greeting is fed to the parser that the write handler of the reply closed. -/
theorem followed_faults : ∃ s, Reachable s ∧ enabled s followed = true ∧
    step s followed = .error .nullDeref := by
  obtain ⟨s, hs, hcheck⟩ := reachable_of_after [arrives]
    (fun s => enabled s followed && match step s followed with
      | .error f => f == .nullDeref
      | .ok _ => false)
    (by decide +kernel)
  rw [Bool.and_eq_true] at hcheck
  obtain ⟨he, hfault⟩ := hcheck
  refine ⟨s, hs, he, ?_⟩
  cases hstep : step s followed with
  | ok s' => simp [hstep] at hfault
  | error f =>
    simp only [hstep, beq_iff_eq] at hfault
    rw [hfault]

/-- The greeting's last byte is such a use. -/
theorem no_use_after_release_iff_followed : ∃ s, Reachable s ∧ enabled s followed = true ∧
    UsesReleased s followed := by
  obtain ⟨s, hs, he, hstep⟩ := followed_faults
  refine ⟨s, hs, he, ?_⟩
  by_contra hsafe
  exact (no_use_after_release_iff hs he).mpr hsafe .nullDeref hstep trivial

/-- A reachable server whose client sends a greeting and one more byte uses a closed parser. -/
theorem not_no_use_after_release : ¬ ∀ (s : Server) (e : Event), Reachable s →
    enabled s e = true → ∀ f, step s e = .error f → ¬ f.isMemory := by
  intro hclaim
  obtain ⟨s, hs, he, hstep⟩ := followed_faults
  exact hclaim s followed hs he .nullDeref hstep trivial

end Socks5d
