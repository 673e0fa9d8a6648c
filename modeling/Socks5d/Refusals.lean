import Socks5d.Cuts

/-!
# The reply to a connection that is closed

A refused connection is closed by the write handler of its phase, which is called as soon as some
of the reply has left, and by a malformed byte that follows a complete greeting. Both look at
`is_error_response` or at the byte, never at `out_buff`.
-/

namespace Socks5d

open GuardedRun Fifo

variable {s s' : Server} {c : ConnId} {v w x : View} {e : Event} {junk : Memory}
  {fds : ℕ → Item} {out : SendOutcome} {r : Result} {env : Env} {history : List Obs}

/-- A malformed byte finds `out_buff` empty exactly if no greeting's reply waits in it. -/
theorem HandshakeReads.outBuff_of_malformed {sends : List SendOutcome} {p : HandshakeParser}
    {k : ℕ} (h : HandshakeReads c junk v sends w true) (hphase : v.phase = some .handshake)
    (hparser : v.conn.handshakeParser = some p) (hreplies : v.Replies k)
    (hcapacity : HANDSHAKE_RESPONSE_SIZE ≤ v.conn.outBuff.capacity) :
    w.conn.outBuff.content = [] ↔
      greetingCuts (v.conn.outBuff.capacity / HANDSHAKE_RESPONSE_SIZE) p k
        v.conn.inBuff.content sends = false := by
  generalize hb : true = b at h
  induction h generalizing p k with
  | idle => cases hb
  | fed v w sends malformed q p' byte state inBuff hq hcontent _ hfeed hstate hrest ih =>
    obtain rfl := Option.some.inj (hparser.symm.trans hq)
    rw [ih hphase rfl ⟨hreplies.length, hreplies.space⟩ hcapacity hb, hcontent, greetingCuts, hfeed]
    cases state with
    | done => exact absurd rfl hstate.1
    | error => exact absurd rfl hstate.2
    | _ => rfl
  | malformed v sends q p' byte inBuff hq hcontent _ hfeed =>
    obtain rfl := Option.some.inj (hparser.symm.trans hq)
    have hlength : (v.greeted inBuff p').conn.outBuff.content.length = _ := hreplies.length
    have hempty : HANDSHAKE_RESPONSE_SIZE * k = 0 ↔ k = 0 := by
      rw [show HANDSHAKE_RESPONSE_SIZE = 2 from rfl]
      omega
    rw [hcontent, greetingCuts, hfeed, ← List.length_eq_zero_iff, hlength, hempty]
    simp
  | replied _ v w u x sends malformed q p' byte inBuff hq hcontent _ hfeed hqueued hwrote hrest ih =>
    subst hb
    obtain rfl := Option.some.inj (hparser.symm.trans hq)
    obtain ⟨hconn, hwcap, hwphase, -⟩ := hqueued.fields
    have hleft : (w.answering p'.refuses).conn.outBuff.content ≠ [] :=
      hqueued.content_ne_nil (by simp [handshakeReply, Memory.bytes, HANDSHAKE_RESPONSE_SIZE])
        (by simpa [handshakeReply, View.greeted] using hcapacity)
    have hphase' : (w.answering p'.refuses).phase = some .handshake := hwphase.trans hphase
    obtain ⟨rfl, hblocked⟩ := hrest.reply_blocked hwrote hphase' hleft
    have hwparser : (w.answering p'.refuses).conn.handshakeParser = some p' := by
      change w.conn.handshakeParser = some p'
      rw [hconn]
      rfl
    have hwin : w.conn.inBuff = inBuff := by rw [hconn]; rfl
    have hwreplies : w.Replies _ := View.Replies.queued
      (v := v.greeted inBuff p') ⟨hreplies.length, hreplies.space⟩ hqueued
    have hwcap' : w.conn.outBuff.capacity = v.conn.outBuff.capacity := hwcap
    rw [ih hphase' hwparser ⟨hwreplies.length, hwreplies.space⟩
      (hcapacity.trans (le_of_eq hwcap.symm)) rfl, hcontent, greetingCuts, hfeed]
    change greetingCuts (w.conn.outBuff.capacity / _) p' _ w.conn.inBuff.content _ = false ↔ _
    rw [hwcap', hwin]
    cases hout : sends.headD .wouldBlock with
    | accepted n => exact absurd hout (hblocked n)
    | _ => exact Iff.rfl

/-- A malformed sub-negotiation message finds `out_buff` as it was. -/
theorem AuthReads.outBuff_of_malformed {users : UserTable}
    (h : AuthReads c users junk out v w true) : w.conn.outBuff = v.conn.outBuff := by
  generalize hb : true = b at h
  induction h with
  | idle => cases hb
  | fed v w malformed p p' byte state inBuff _ _ _ _ _ _ ih => exact ih hb
  | malformed => rfl
  | judged => cases hb

/-- In a healthy environment only the read handler of the phase releases a connection. -/
theorem ClientRead.of_healthy {Q : View → Result → Prop}
    (h : ClientRead c v env Q (.gone history)) (henv : env.Healthy) :
    ∃ first rest buff, env.recv = .data first rest ∧
      buff.content = v.conn.inBuff.content ++ (first :: rest).take v.conn.inBuff.space ∧
      Q (v.received c buff ((first :: rest).take v.conn.inBuff.space)) (.gone history) := by
  cases h with
  | ended _ hrecv => exact absurd hrecv henv.1
  | broken err _ hrecv he => exact absurd (henv.2.1 err hrecv) he
  | handled first rest buff r _ hrecv hcontent _ hread =>
    exact ⟨first, rest, buff, hrecv, hcontent, hread⟩

/-- A relay is not released by a healthy send. -/
theorem Wrote.not_gone_of_copy (h : Wrote c junk fds v env.send (.gone history))
    (hcopy : v.phase = some .copy) (henv : env.Healthy) : False := by
  cases h with
  | broken err _ hout he => exact henv.send (.inr ⟨err, hout, he⟩)
  | advanced n left r _ _ _ _ hadvance =>
    have hphase : (v.sent c n left).phase = some .copy := hcopy
    cases hadvance with
    | refused state hstate hhandler _ =>
      obtain rfl := Option.some.inj (hphase.symm.trans hstate)
      cases hhandler

theorem CopyWrote.not_gone (h : CopyWrote c v env.send (.gone history)) (henv : env.Healthy) :
    False := by
  cases h with
  | broken _ hout => exact henv.send hout

/-- A read handler that ends on malformed input closes what nothing was queued for. -/
theorem Talks.answered (h : Talks Obs.Early v (.alive w)) (hv : v.Streams)
    (hphase : v.phase ≠ some .copy) {t : List Obs} (hin : outgoing t = [])
    (hout : sentTo .client t = []) :
    Answered (w.history ++ t) ↔ w.conn.outBuff.content = [] :=
  (h.streams hv hphase).answered_iff hin hout

section Readers

variable {fd : ℕ} {buff : Buffer} {first : UInt8} {rest : List UInt8} (hok : v.Ok c)
  (hstreams : v.Streams) (hready : v.interest.read = true)
include hok hstreams hready

/-- A greeting whose read handler closes the connection has been answered, unless it cuts. -/
theorem Greets.answered
    (h : Greets c junk env (v.received c buff ((first :: rest).take v.conn.inBuff.space))
      (.gone history))
    (hphase : v.phase = none ∨ v.phase = some .handshake) (hrecv : env.recv = .data first rest)
    (hcontent : buff.content = v.conn.inBuff.content ++
      (first :: rest).take v.conn.inBuff.space) {users : UserTable} :
    Answered history ↔ ¬ v.Cuts users (.readable fd env) := by
  have hphaseOk := hok.phase
  rw [View.PhaseOk] at hphaseOk
  have hcopy : v.phase ≠ some .copy := by rcases hphase with h | h <;> simp [h]
  have hstart : v.conn.inBuff.content = [] ∧ v.conn.outBuff.content = [] ∧
      (v.phase = none ∧ v.greetingParser = handshakeParserInit ∨
        v.phase = some .handshake ∧ v.conn.handshakeParser = some v.greetingParser) := by
    rcases hphase with hphase | hphase
    · rw [hphase] at hphaseOk
      exact ⟨hphaseOk.1.inBuff, hphaseOk.2.1, .inl ⟨hphase, by simp [View.greetingParser, hphase]⟩⟩
    · rw [hphase] at hphaseOk
      obtain ⟨p, hp⟩ := Option.isSome_iff_exists.mp hphaseOk.2.2
      exact ⟨hphaseOk.1.inBuff, View.Armed.outBuff_eq_nil hphaseOk.2.1 hready,
        .inr ⟨hphase, by simp [View.greetingParser, hphase, hp]⟩⟩
  obtain ⟨hin, hout, hparser⟩ := hstart
  generalize hr : Result.gone history = r at h
  cases h with
  | reads w malformed hreads =>
    cases malformed with
    | false => cases hr
    | true =>
      obtain rfl := Result.gone.inj hr
      have htalks : Talks Obs.Early v (.alive w) := (early_received v c buff _).trans
        (((talks_begun _ c).trans hreads.talks).mono fun _ ho => ho.early)
      obtain ⟨hphase', hparser', hin', hout'⟩ :=
        (v.received c buff ((first :: rest).take v.conn.inBuff.space)).begun_fields c
          (p := v.greetingParser) hparser
      have hreplies : (View.begun (v.received c buff
          ((first :: rest).take v.conn.inBuff.space)) c).Replies 0 := by
        constructor
        · rw [hout']
          exact congrArg List.length hout
        · rw [hout']
          exact Buffer.space_of_content_nil _ hout
      rw [htalks.answered hstreams hcopy rfl rfl, hreads.outBuff_of_malformed hphase' hparser'
        hreplies (by rw [hout']; exact Nat.le_trans (by decide) hok.outCapacity), hin', hout',
        View.cuts_greeting hphase hrecv, Bool.not_eq_true]
      simp only [View.received, hcontent, hin, List.nil_append]

/-- Credentials whose read handler ends the connection are malformed, and cut nothing. -/
theorem Authenticates.answered {users : UserTable}
    (h : Authenticates c users junk env
      (v.received c buff ((first :: rest).take v.conn.inBuff.space)) (.gone history))
    (hphase : v.phase = some .auth) (hrecv : env.recv = .data first rest)
    (hcontent : buff.content = v.conn.inBuff.content ++
      (first :: rest).take v.conn.inBuff.space) :
    Answered history ∧ ¬ v.Cuts users (.readable fd env) := by
  have hphaseOk := hok.phase
  rw [View.PhaseOk, hphase] at hphaseOk
  have hauth : v.Authenticating c := hphaseOk
  obtain ⟨p, hparser, -⟩ := hauth.parser
  generalize hr : Result.gone history = r at h
  cases h with
  | reads w malformed hreads =>
    cases malformed with
    | false => cases hr
    | true =>
      obtain rfl := Result.gone.inj hr
      have htalks : Talks Obs.Early v (.alive w) := (early_received v c buff _).trans
        (hreads.talks.mono fun _ ho => ho.early)
      constructor
      · rw [htalks.answered hstreams (by simp [hphase]) rfl rfl, hreads.outBuff_of_malformed]
        exact hauth.armed.outBuff_eq_nil hready
      · -- a sub-negotiation that was read to its end is no hazard
        have hsafe := hreads.safe (p := p) hparser hphase
          ((by decide : AUTH_RESPONSE_SIZE ≤ BUFF_MIN_LEN).trans hok.outCapacity)
        rintro ⟨first', rest', hrecv', ⟨hp | hp, -⟩ | ⟨-, ⟨q, hq, hhazard⟩, -⟩⟩
        · simp [hphase] at hp
        · simp [hphase] at hp
        · obtain ⟨rfl, rfl⟩ := RecvOutcome.data.inj (hrecv.symm.trans hrecv')
          obtain rfl := Option.some.inj (hparser.symm.trans hq)
          have hread : (v.received c buff ((first :: rest).take
              v.conn.inBuff.space)).conn.inBuff.content =
                (first :: rest).take v.conn.inBuff.space := by
            simp only [View.received, hcontent, hauth.early.inBuff, List.nil_append]
          rw [hread, hhazard] at hsafe
          cases hsafe

/-- A request whose read handler closes the connection has nothing left to answer. -/
theorem Requests.answered
    (h : Requests c junk env (v.received c buff ((first :: rest).take v.conn.inBuff.space))
      (.gone history))
    (hphase : v.phase = some .connectionReq) : Answered history := by
  have hphaseOk := hok.phase
  rw [View.PhaseOk, hphase] at hphaseOk
  have hreq : v.Requesting := hphaseOk
  have hempty : v.conn.outBuff.content = [] := by
    rcases hreq.reply with ⟨-, -, harmed⟩ | ⟨-, -, hinterest⟩
    · exact harmed.outBuff_eq_nil hready
    · rw [hinterest] at hready; cases hready
  have hreads : ∀ {w scan t}, ConnReqReads (v.received c buff
      ((first :: rest).take v.conn.inBuff.space)) w scan → outgoing t = [] →
      sentTo .client t = [] → Answered (w.history ++ t) := by
    intro w scan t hreads hin hout
    have htalks : Talks Obs.Early v (.alive w) := (early_received v c buff _).trans
      (hreads.talks.mono fun _ ho => ho.early)
    rw [htalks.answered hstreams (by simp [hphase]) hin hout, (hreads.fields hreq.parser).1]
    exact hempty
  cases h with
  | malformed w hmalformed => exact hreads hmalformed rfl rfl
  | noThread w p hcomplete _ _ _ => exact hreads hcomplete rfl rfl

end Readers

/-- Every reaction that releases a connection in a healthy environment has answered it, unless
the event cuts. -/
theorem Reaction.answered (h : Reaction s c v e (.gone history)) (hok : v.Ok c)
    (hstreams : v.Streams) (hwakes : v.phase = some .copy → v.WakesClient) (henv : e.Healthy) :
    Answered history ↔ ¬ v.Cuts s.users e := by
  cases h with
  | greets fd env r hitem hready hphase hread =>
    obtain ⟨first, rest, buff, hrecv, hcontent, hgreets⟩ := hread.of_healthy henv
    exact hgreets.answered hok hstreams hready hphase hrecv hcontent
  | authenticates fd env r hitem hready hphase hread =>
    obtain ⟨first, rest, buff, hrecv, hcontent, hauth⟩ := hread.of_healthy henv
    obtain ⟨hanswered, hnot⟩ := hauth.answered hok hstreams hready hphase hrecv hcontent
    exact iff_of_true hanswered hnot
  | requests fd env r hitem hready hphase hread =>
    obtain ⟨first, rest, buff, -, -, hrequests⟩ := hread.of_healthy henv
    simp [hrequests.answered hok hstreams hready hphase, View.Cuts, hphase]
  | relays fd env r hitem hready hphase hread =>
    obtain ⟨first, rest, buff, hrecv, hcontent, hcopy⟩ := hread.of_healthy henv
    have hempty := (hwakes hphase).outBuff_eq_nil hready
    cases hcopy with
    | unregistered _ =>
      have hwhole : Answered (v.history ++ ([.recv c .client
          ((first :: rest).take v.conn.inBuff.space)] ++ [.enter c .error, .released c])) :=
        (hstreams.answered_iff rfl rfl).mpr hempty
      rw [← List.append_assoc] at hwhole
      exact iff_of_true hwhole (by simp [View.Cuts, hphase])
    | relayed r _ _ hwrote => exact (hwrote.not_gone henv).elim
  | sends table fd env r hitem hready hwrote =>
    by_cases hcopy : v.phase = some .copy
    · exact (hwrote.not_gone_of_copy hcopy henv).elim
    · rw [hwrote.refused hstreams hcopy henv.send]
      simp [View.Cuts, hcopy]
  | blocks env r hphase hwaiting hblocks => cases hblocks
  | connects fd env r i hitem hset hphase hconnects =>
    cases hconnects with
    | established table u r relay hearly hstands hrelay hqueued hwrote =>
      obtain ⟨-, -, huphase, -⟩ := hqueued.fields
      exact (hwrote.not_gone_of_copy huphase henv).elim
  | receives fd env r i horigin hrelay hready hphase hreceived =>
    cases hreceived with
    | received table first rest buff r _ _ _ _ hwrote =>
      exact (hwrote.not_gone_of_copy hphase henv).elim
    | broken err _ hrecv he => exact absurd (henv.2.1 err hrecv) he
  | delivers fd env r i horigin hrelay hready hphase hwrote => exact (hwrote.not_gone henv).elim

/-- In a healthy environment a callback goes on with its connection after its release exactly if
`releases` says so; and a connection that is closed, at the end of a callback or in the middle of
one, has been sent every reply whole exactly if the event does not cut. -/
theorem closed_answered_iff (hs : Reachable s) (hview : s.view c = some v)
    (henabled : enabled s e = true) (henv : e.Healthy) :
    (e.target s = some c →
      (Socks5d.step s e = .error .useAfterFree ↔ ∃ s', releases s e = .ok (some s'))) ∧
    ∀ s', EndsIn s e s' → s'.conns c = none →
      (Answered (s'.history c) ↔ ¬ v.Cuts s.users e) := by
  refine ⟨useAfterFree_iff hs henabled henv hview, fun s' hends hgone => ?_⟩
  obtain ⟨hconn, -, -, -, -, -⟩ := view_eq_some_iff.mp hview
  have hstreams : ∀ d w, s.view d = some w → w.Streams := fun d w hw => ReachableUnder.streams hs hw
  have hkept : ∀ d s₀, c ≠ d → Entered d s s₀ → Frame true d s₀ s' → False := by
    intro d s₀ hd hentered hframe
    rw [hframe.conns c hd, hentered.conns, hconn] at hgone
    cases hgone
  rcases hends with hstep | hreleases
  · cases hs.inv.effect henabled hstep with
    | background hb _ =>
      rw [hb.kept c _ hconn] at hgone
      cases hgone
    | reaction d u r s₀ hviewd htarget hreaction hentered hlands =>
      by_cases hd : c = d
      · subst hd
        obtain rfl := Option.some.inj (hview.symm.trans hviewd)
        cases r with
        | alive w =>
          have hw : s'.view c = some w := Tracks.view hlands
          simp [Server.view, hgone] at hw
        | gone history =>
          have hh : s'.history c = history := Released.history_eq hlands
          rw [hh]
          exact hreaction.answered (hs.inv.ok c v hview) (hstreams c v hview)
            (fun hcopy => (ReachableUnder.uploads hs hview hcopy).2) henv
      · exact (hkept d s₀ hd hentered hlands.frame).elim
  · obtain ⟨d, w, s₀, hviewd, -, hentered, husers, history, hreleased, hanswered⟩ :=
      hs.inv.settles henabled hstreams henv hreleases
    by_cases hd : c = d
    · subst hd
      obtain rfl := Option.some.inj (hview.symm.trans hviewd)
      rw [hreleased.history_eq, hanswered, husers]
    · exact (hkept d s₀ hd hentered hreleased.frame).elim

/-- A client that offers no acceptable method, and cannot be sent the reply at once. -/
def refuses : List Event := [arrives, .readable 2 { recv := .data 5 [1, 1] }]

/-- The first byte of the reply leaves and the connection is closed. -/
theorem not_answered_refusal : ∃ (s s' : Server) (v : View) (e : Event), Reachable s ∧
    s.view 0 = some v ∧ v.conn.isErrorResponse = true ∧
    Obs.queued 0 .handshake [SOCKS5_VERSION, SOCKS5_AUTH_METHOD_NO_ACCEPTABLE] ∈ v.history ∧
    enabled s e = true ∧ step s e = .ok s' ∧ e.Healthy ∧ s'.conns 0 = none ∧
    sentTo .client (s'.history 0) = [SOCKS5_VERSION] ∧ ¬ Answered (s'.history 0) := by
  obtain ⟨s, s', -, hs, he, hstep, -, hcheck⟩ := staged refuses
    (.writable 2 { sends := [.accepted 0] }) unguarded []
    (fun s s' _ => (s.view 0).any (fun v : View => v.conn.isErrorResponse && decide
      (Obs.queued 0 .handshake [SOCKS5_VERSION, SOCKS5_AUTH_METHOD_NO_ACCEPTABLE] ∈ v.history)) &&
      (s'.conns 0).isNone && sentTo .client (s'.history 0) == [SOCKS5_VERSION] &&
        !decide (Answered (s'.history 0)))
    (by decide +kernel)
  simp only [Bool.and_eq_true, Option.any_eq_true, beq_iff_eq, Option.isNone_iff_eq_none,
    Bool.not_eq_true', decide_eq_false_iff_not, decide_eq_true_eq] at hcheck
  obtain ⟨⟨⟨⟨v, hview, herror, hqueued⟩, hgone⟩, hsent⟩, hnot⟩ := hcheck
  exact ⟨s, s', v, _, hs, hview, herror, hqueued, he, hstep,
    ⟨by simp [RecvOutcome.wouldBlock], by simp [RecvOutcome.wouldBlock], by simp [FatalSend]⟩,
    hgone, hsent, hnot⟩

/-- Credentials that no user has, whose reply `send` takes a byte of. -/
def login : Event := .readable 2 { recv := .data 1 [1, 97, 1, 98], sends := [.accepted 0] }

/-- The same reply leaves whole, and that to refused credentials loses its second byte in a callback
that goes on with the released connection. -/
theorem closed_answered_refusal :
    (∃ (s s' : Server) (e : Event), Socks5d.step s e = .ok s' ∧ s'.conns 0 = none ∧
      Answered (s'.history 0)) ∧
    ∃ (s s' : Server) (e : Event), Socks5d.step s e = .error .useAfterFree ∧
      releases s e = .ok (some s') ∧ s'.conns 0 = none ∧ ¬ Answered (s'.history 0) := by
  constructor
  · obtain ⟨s, s', -, hs, he, hstep, -, hcheck⟩ := staged refuses
      (.writable 2 { sends := [.accepted 1] }) unguarded []
      (fun s s' _ => (s.view 0).any (fun v : View => decide (v.conn.outBuff.content.length = 2) &&
        decide (v.phase = some .handshake)) && (s'.conns 0).isNone)
      (by decide +kernel)
    simp only [Bool.and_eq_true, Option.any_eq_true, Option.isNone_iff_eq_none,
      decide_eq_true_eq] at hcheck
    obtain ⟨⟨v, hview, hlength, hphase⟩, hgone⟩ := hcheck
    obtain ⟨-, hends⟩ := closed_answered_iff hs hview he
      ⟨by simp [RecvOutcome.wouldBlock], by simp [RecvOutcome.wouldBlock], by simp [FatalSend]⟩
    refine ⟨s, s', _, hstep, hgone, (hends s' (.inl hstep) hgone).mpr ?_⟩
    simp [View.Cuts, Env.send, SendOutcome.drains, hlength, hphase]
  · obtain ⟨s, hs, hcheck⟩ := reachable_of_after
      [arrives, .readable 2 { recv := .data 5 [1, 2], sends := [.accepted 1] }]
      (fun s => enabled s login && decide (login.target s = some 0) &&
        (s.view 0).any (fun v : View => decide (v.phase = some .auth) &&
          decide (6 ≤ v.conn.inBuff.space) && v.conn.authParser.any fun p =>
            subnegotiationHazard s.users (.accepted 0) p [1, 1, 97, 1, 98]) &&
        (releases s login).toOption.join.any fun s' => (s'.conns 0).isNone)
      (by decide +kernel)
    simp only [Bool.and_eq_true, Option.any_eq_true, Option.isNone_iff_eq_none,
      decide_eq_true_eq] at hcheck
    obtain ⟨⟨⟨he, htarget⟩, v, hview, ⟨hphase, hspace⟩, p, hparser, hhazard⟩, s', hjoin, hgone⟩ :=
      hcheck
    have hreleases : releases s login = .ok (some s') := by
      cases hrun : releases s login with
      | error f => simp [hrun, Except.toOption] at hjoin
      | ok o => simpa [hrun, Except.toOption] using hjoin
    obtain ⟨hfaults, hends⟩ := closed_answered_iff hs hview he
      ⟨by simp, by simp, by simp [FatalSend]⟩
    refine ⟨s, s', login, (hfaults htarget).mpr ⟨s', hreleases⟩, hreleases, hgone,
      fun hanswered => (hends s' (.inr hreleases) hgone).mp hanswered ?_⟩
    refine ⟨1, [1, 97, 1, 98], rfl, .inr ⟨hphase, ⟨p, hparser, ?_⟩, by decide⟩⟩
    rw [List.take_of_length_le (by simpa using (by omega : 5 ≤ v.conn.inBuff.space))]
    exact hhazard

end Socks5d
