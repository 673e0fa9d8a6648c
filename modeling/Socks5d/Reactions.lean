import Socks5d.Moves

/-!
# Every reaction is a move

The remaining callbacks (writes to the client, notifications and the end of a pending connect)
reduced to moves, and the theorem that every reaction is one and keeps the local invariant.
-/

namespace Socks5d

variable {s : Server} {c : ConnId} {v w : View} {e : Event} {junk : Memory} {fds : ℕ → Item} {out : SendOutcome}
  {r : Result} {env : Env} {fd : ℕ}

/-- What an armed origin's registration comes to. -/
theorem RelayArmed.relay_eq {relay : Option (FdHandler × FdInterest)} (h : RelayArmed c fds v relay)
    (hnone : v.relay = none) :
    ∀ r, relay = some r → r.1 = .copySelectorHandler := by
  rintro r hr
  rcases h with ⟨_, _, _, hrelay⟩ | ⟨hrelay, _⟩
  · rw [hrelay] at hr
    obtain rfl := Option.some.inj hr
    rfl
  · rw [hrelay, hnone] at hr
    cases hr

/-- The write handler of the request phase closes a refused request and starts the relay for
any other. -/
theorem Advance.skipped (h : Advance c junk fds w r) (hphase : w.phase = some .connectionReq)
    (hok : BUFF_MIN_LEN ≤ w.conn.inBuff.capacity ∧ BUFF_MIN_LEN ≤ w.conn.outBuff.capacity)
    (htokens : w.tokens = 0) (haddr : w.conn.addrInfo = []) (hrelay : w.relay = none) :
    (∃ u, r = .alive u ∧ u.phase = some .copy ∧ w.conn.isErrorResponse = false ∧ u.Ok c ∧
        milestones u.history = milestones w.history ++ [.enter c .copy]) ∨
      ∃ history, r = .gone history ∧
        milestones history = milestones w.history ++ [.enter c .error, .released c] := by
  cases h with
  | refused state _ hstate herror => exact .inr ⟨_, rfl, by simp [Obs.isMilestone]⟩
  | auth p hphase' => rw [hphase] at hphase'; cases hphase'
  | connectionReq state hphase' herror hstate =>
    obtain rfl := Option.some.inj (hphase.symm.trans hphase')
    simp at hstate
  | copy state relay hphase' herror hstate harmed =>
    obtain rfl := Option.some.inj (hphase.symm.trans hphase')
    refine .inl ⟨_, rfl, rfl, herror, ⟨hok.1, hok.2, ?_, htokens, haddr⟩,
      by simp [Obs.isMilestone]⟩
    intro r hr
    exact .inr ⟨harmed.relay_eq hrelay r hr, rfl⟩

/-- The write handler of the connecting phase closes a refused connection. -/
theorem Advance.refused_connecting (h : Advance c junk fds w r) (hphase : w.phase = some .connecting)
    (herror : w.conn.isErrorResponse = true) :
    r = .gone (w.history ++ [.enter c .error, .released c]) := by
  cases h with
  | refused state _ hstate herror => rfl
  | auth p hphase' => rw [hphase] at hphase'; cases hphase'
  | connectionReq state hphase' herror' => rw [herror] at herror'; cases herror'
  | copy state relay hphase' herror' => rw [herror] at herror'; cases herror'

section Writing

/-- A write handler that closes the connection makes a closing move. -/
theorem Move.of_refused {n : ℕ} {left : Buffer} {history : List Obs}
    (hcap : left.capacity = v.conn.outBuff.capacity)
    (hclosing : v.phase = some .connecting → v.conn.isErrorResponse = true)
    (hhistory : milestones history =
      milestones (v.sent c n left).history ++ [.enter c .error, .released c]) :
    Move s c v (.writable fd env) (.gone history) :=
  .closed _ [.enter c .error, .released c] hclosing (.inr rfl)
    (by rw [hhistory, (Relays.of_sent n hcap).milestones])

/-- Outside the relay, with something left to send, a write leaves everything as it was, closes the
connection, or goes on with the write handler of the phase. -/
theorem Wrote.progress_of_left (h : Wrote c env.junk fds v env.send r) (hok : v.Ok c)
    (hnc : v.phase ≠ some .copy) (hleft : v.conn.outBuff.content ≠ [])
    (hclosing : v.phase = some .connecting → v.conn.isErrorResponse = true)
    (hadvances : ∀ n left, env.send = .accepted n → left.capacity = v.conn.outBuff.capacity →
      Advance c env.junk fds (v.sent c n left) r → r.Ok c ∧ Move s c v (.writable fd env) r) :
    r.Ok c ∧ Move s c v (.writable fd env) r := by
  cases hout : env.send with
  | zero =>
    obtain rfl := h.of_blocked hleft (.inl hout)
    exact ⟨hok, .quiet v (.inl rfl) (fun _ => rfl) rfl fun _ h => h⟩
  | failed err =>
    by_cases he : err = .eagain
    · obtain rfl := h.of_blocked hleft (.inr (by rw [hout, he]))
      exact ⟨hok, .quiet v (.inl rfl) (fun _ => rfl) rfl fun _ h => h⟩
    · rw [hout] at h
      obtain rfl := h.of_failed hleft he
      exact ⟨trivial, .closed _ [.released c] hclosing (.inl rfl) (by simp [Obs.isMilestone])⟩
  | accepted n =>
    rw [hout] at h
    obtain ⟨left, -, hcap, hadvance⟩ := h.of_accepted hleft hnc
    exact hadvances n left hout hcap hadvance

variable {n : ℕ} {left : Buffer}

/-- Sending keeps the buffers as large as they were. -/
theorem View.Ok.capacities_sent (hok : v.Ok c) (n : ℕ)
    (hcap : left.capacity = v.conn.outBuff.capacity) :
    BUFF_MIN_LEN ≤ (v.sent c n left).conn.inBuff.capacity ∧
      BUFF_MIN_LEN ≤ (v.sent c n left).conn.outBuff.capacity := by
  refine ⟨hok.inCapacity, ?_⟩
  simp only [View.sent, Buffer.capacity_bufferCompact]
  rw [hcap]
  exact hok.outCapacity

/-- The reply to a greeting was sent, or a part of it. -/
theorem Advance.progress_greeting (h : Advance c junk fds (v.sent c n left) r) (hok : v.Ok c)
    (hphase : v.phase = some .handshake) (hcap : left.capacity = v.conn.outBuff.capacity) :
    r.Ok c ∧ Move s c v (.writable fd env) r := by
  have hphaseOk := hok.phase
  simp only [View.PhaseOk, hphase] at hphaseOk
  obtain ⟨hearly, -, hparser⟩ := hphaseOk
  obtain ⟨hin, hout⟩ := hok.capacities_sent n hcap
  have hg : (v.sent c n left).Greeting :=
    { phase := hphase, parser := hparser, originFd := hearly.originFd
      tokens := hearly.tokens, addrInfo := hearly.addrInfo
      relay := by simp [View.sent, hok.relay_eq_none (by simp [hphase]) (by simp [hphase])]
      inCapacity := hin
      outCapacity := hout
      armed := View.armed_sent n left }
  rcases h.chosen hg hearly.inBuff with ⟨u, state, rfl, hchosen⟩ | ⟨history, rfl, hh⟩
  · exact ⟨hchosen.ok, .chosen u state (.inr hphase) hchosen.method hchosen.phase
      hchosen.error (by rw [hchosen.marks, (Relays.of_sent n hcap).milestones])⟩
  · exact ⟨trivial, .of_refused hcap (by simp [hphase]) hh⟩

/-- The reply to credentials was sent, or a part of it, or the rest of the reply before it. -/
theorem Advance.progress_credentials (h : Advance c junk fds (v.sent c n left) r) (hok : v.Ok c)
    (hphase : v.phase = some .auth) (hcap : left.capacity = v.conn.outBuff.capacity)
    (hleft : v.conn.outBuff.content ≠ []) (hout : env.send = .accepted n)
    (hitem : (s.selector.fds fd).isClientOf c) : r.Ok c ∧ Move s c v (.writable fd env) r := by
  obtain ⟨hsub, hempty⟩ := hok.subnegotiating hphase
  rcases h.admitted (hsub.sent n hcap) hempty with
    ⟨u, rfl, hphase', herror, herror', hu, hh⟩ | ⟨history, rfl, hh⟩
  · refine ⟨hu, .passed u hphase hphase' herror' ?_
      (by rw [hh, (Relays.of_sent n hcap).milestones])⟩
    obtain ⟨p, hp, hjudged⟩ := hsub.parser
    by_cases hdone : p.parser.state = .done
    · exact .inl (hjudged hdone herror)
    · exact .inr ⟨fd, env, n, p, rfl, hout, hitem, hleft, hp, hdone⟩
  · exact ⟨trivial, .of_refused hcap (by simp [hphase]) hh⟩

/-- A reply was sent while the request is being read. -/
theorem Advance.progress_request (h : Advance c junk fds (v.sent c n left) r) (hok : v.Ok c)
    (hphase : v.phase = some .connectionReq) (hreq : v.Requesting)
    (hcap : left.capacity = v.conn.outBuff.capacity) (hout : env.send = .accepted n)
    (hitem : (s.selector.fds fd).isClientOf c) : r.Ok c ∧ Move s c v (.writable fd env) r := by
  have hnone := hok.relay_eq_none (by simp [hphase]) (by simp [hphase])
  rcases h.skipped hphase (hok.capacities_sent n hcap) hreq.tokens hreq.addrInfo
    (by simp [View.sent, hnone]) with ⟨u, rfl, hphase', herror, hu, hh⟩ | ⟨history, rfl, hh⟩
  · exact ⟨hu, .skipped u hphase herror hphase' (by rw [hh, (Relays.of_sent n hcap).milestones])
      ⟨fd, env, n, rfl, hout, hitem, hphase, herror⟩⟩
  · exact ⟨trivial, .of_refused hcap (by simp [hphase]) hh⟩

/-- A write to a client. -/
theorem Wrote.progress (h : Wrote c env.junk fds v env.send r) (hok : v.Ok c)
    (hitem : (s.selector.fds fd).isClientOf c) (hready : v.interest.write = true) :
    r.Ok c ∧ Move s c v (.writable fd env) r := by
  have hphaseOk := hok.phase
  unfold View.PhaseOk at hphaseOk
  cases hphase : v.phase with
  | none =>
    rw [hphase] at hphaseOk
    rw [hphaseOk.2.2.1] at hready
    cases hready
  | some state =>
    rw [hphase] at hphaseOk
    cases state with
    | handshake =>
      obtain ⟨-, harmed, -⟩ := hphaseOk
      refine h.progress_of_left hok (by simp [hphase]) (harmed.outBuff_ne_nil hready)
        (by simp [hphase]) ?_
      exact fun n left _ hcap hadvance => hadvance.progress_greeting hok hphase hcap
    | auth =>
      obtain ⟨hsub, -⟩ := hok.subnegotiating hphase
      have hleft := hsub.armed.outBuff_ne_nil hready
      refine h.progress_of_left hok (by simp [hphase]) hleft (by simp [hphase]) ?_
      exact fun n left hout hcap hadvance =>
        hadvance.progress_credentials hok hphase hcap hleft hout hitem
    | connectionReq =>
      have hreq : v.Requesting := hphaseOk
      have hleft : v.conn.outBuff.content ≠ [] := by
        rcases hreq.reply with ⟨-, -, harmed⟩ | ⟨-, hleft, -⟩
        · exact harmed.outBuff_ne_nil hready
        · exact hleft
      refine h.progress_of_left hok (by simp [hphase]) hleft (by simp [hphase]) ?_
      exact fun n left hout hcap hadvance =>
        hadvance.progress_request hok hphase hreq hcap hout hitem
    | connecting =>
      -- only a refused connection still writes to its client
      have hrefused : v.Refused := by
        rcases hphaseOk with hw | hp | hr
        · rw [hw.interest] at hready; cases hready
        · rw [hp.interest] at hready; cases hready
        · exact hr
      refine h.progress_of_left hok (by simp [hphase]) hrefused.outBuff
        (fun _ => hrefused.isErrorResponse) ?_
      intro n left _ hcap hadvance
      obtain rfl := hadvance.refused_connecting hphase hrefused.isErrorResponse
      exact ⟨trivial, .of_refused (n := n) hcap (fun _ => hrefused.isErrorResponse)
        (by simp [Obs.isMilestone])⟩
    | copy => exact (h.relayEnds hphase).move hphase hok
    | done => exact hphaseOk.elim
    | error => exact hphaseOk.elim

end Writing

/-- The one milestone of a walk over addresses is a connection that stands at once. -/
theorem milestones_dialHistory (c : ConnId) (fd : ℕ) (addrs : List AddrInfo)
    (outcomes : List ConnectOutcome) :
    milestones (dialHistory c fd addrs outcomes) =
      match dial addrs outcomes with
      | .connected _ => [.established c]
      | _ => [] := by
  induction addrs generalizing outcomes with
  | nil => rfl
  | cons rp next ih =>
    simp only [dialHistory, dial, milestones_cons]
    cases hout : outcomes.headD (.failed .econnrefused) with
    | socketFails err => simp [Obs.isMilestone]
    | connected => simp [Obs.isMilestone]
    | failed err =>
      by_cases he : err = .einprogress
      · simp [he, Obs.isMilestone]
      · simp [he, ih, Obs.isMilestone]

/-- Resetting `in_buff` is no milestone. -/
theorem milestones_reset (v : View) (c : ConnId) :
    milestones (v.reset c).history = milestones v.history := by
  simp only [View.reset, milestones_append]
  split
  · simp
  · simp [Obs.isMilestone]

/-- Answering a connection that has nothing else to send. -/
theorem Queued.answers {status : UInt8} {now : ℕ} {bytes : List UInt8}
    (h : Queued c (.connReq status) bytes (v.registered c status now) w)
    (hempty : v.conn.outBuff.content = []) (hbytes : 0 < bytes.length)
    (hcapacity : bytes.length ≤ v.conn.outBuff.capacity) :
    w.conn.outBuff.content = bytes ∧
      ∃ t, Answers c status t ∧ milestones w.history = milestones v.history ++ t := by
  obtain ⟨hcontent, hhistory, -⟩ :=
    h.of_empty hempty (List.ne_nil_of_length_pos hbytes) hcapacity
  refine ⟨hcontent, _, ⟨v.accessCall status now, bytes, rfl, rfl⟩, ?_⟩
  simp [hhistory, View.registered, Obs.isMilestone]

/-- Sending the success reply enters the relay, whether the send or the jump after it does so. -/
theorem Wrote.entersCopy {x y : View} (h : Wrote c junk fds w out (.alive x))
    (hcopy : EntersCopy c fds x y) (hphase : w.phase = some .connecting)
    (herror : w.conn.isErrorResponse = false) (hleft : w.conn.outBuff.content ≠ []) :
    (∃ relay, RelayArmed c fds w relay ∧ y = { w with
      phase := some .copy, relay := relay, history := w.history ++ [.enter c .copy] }) ∨
    ∃ n left relay, left.content = w.conn.outBuff.content.drop (n + 1) ∧
      left.capacity = w.conn.outBuff.capacity ∧ RelayArmed c fds (w.sent c n left) relay ∧
      y = { w.sent c n left with
        phase := some .copy, relay := relay
        history := (w.sent c n left).history ++ [.enter c .copy] } := by
  have hblocked : x = w → ∃ relay, RelayArmed c fds w relay ∧ y = { w with
      phase := some .copy, relay := relay, history := w.history ++ [.enter c .copy] } := by
    rintro rfl
    cases hcopy with
    | already hcopying => rw [hphase] at hcopying; cases hcopying
    | jumps relay _ harmed => exact ⟨relay, harmed, rfl⟩
  cases hsend : out with
  | zero => exact .inl (hblocked (Result.alive.inj (h.of_blocked hleft (.inl hsend))))
  | failed err =>
    by_cases he : err = .eagain
    · exact .inl (hblocked (Result.alive.inj (h.of_blocked hleft (.inr (by rw [hsend, he])))))
    · rw [hsend] at h
      cases h.of_failed hleft he
  | accepted n =>
    rw [hsend] at h
    obtain ⟨left, hdrop, hcap, hadvance⟩ := h.of_accepted hleft (by rw [hphase]; simp)
    obtain ⟨relay, harmed, hx⟩ := hadvance.of_connecting hphase herror
    obtain rfl := Result.alive.inj hx
    refine .inr ⟨n, left, relay, hdrop, hcap, harmed, ?_⟩
    cases hcopy with
    | already _ => rfl
    | jumps _ hconnecting => cases hconnecting

/-- A notification's outcome. -/
theorem Blocks.progress (h : Blocks c junk env fds fd v r) (hphase : v.phase = some .connecting)
    (horigin : v.conn.originFd = 0) (htokens : v.tokens = 0)
    (hempty : v.conn.outBuff.content = []) (herror : v.conn.isErrorResponse = false)
    (hrelay : v.relay = none) (hfd : 0 < fd) (hin : BUFF_MIN_LEN ≤ v.conn.inBuff.capacity)
    (hout : BUFF_MIN_LEN ≤ v.conn.outBuff.capacity) : r.Ok c ∧ Move s c v e r := by
  cases h with
  | noAddress w hnone hqueued =>
    obtain ⟨hpos, hle⟩ := length_connReqErrorReply SOCKS5_REP_HOST_UNREACHABLE junk
    obtain ⟨hcontent, t, ht, hmarks⟩ := hqueued.answers hempty hpos (hle.trans hout)
    obtain ⟨hconn, hwcap, -, -, hwrelay, hwtokens⟩ := hqueued.fields
    refine ⟨⟨?_, hout.trans (le_of_eq hwcap.symm), ?_, ?_⟩,
      .noAddress _ t hphase herror rfl rfl ht (by simp [hmarks, Obs.isMilestone])⟩
    · change BUFF_MIN_LEN ≤ w.conn.inBuff.capacity
      rw [hconn]
      exact hin
    · intro r hr
      have hnone' : w.relay = none := hwrelay.trans hrelay
      exact absurd (hr.symm.trans hnone') (by simp)
    · refine ⟨?_, hwtokens.trans htokens, ?_, rfl, .inr ⟨rfl, ?_, rfl⟩⟩
      · change w.conn.originFd = 0
        rw [hconn]
        exact horigin
      · change w.conn.addrInfo = []
        rw [hconn]
        exact hnone
      · change w.conn.outBuff.content ≠ []
        rw [hcontent]
        exact List.ne_nil_of_length_pos hpos
  | pending peer rest hdial =>
    refine ⟨⟨hin, hout, ?_, ?_⟩, .quiet _ (.inl rfl) (fun _ => rfl) ?_ fun _ h => h⟩
    · rintro r hr
      obtain rfl := Option.some.inj hr
      exact .inl ⟨rfl, hphase, herror⟩
    · have hpending : View.Pending { v.dialed c fd env.connects
          (some (.connectingHandler, OP_WRITE)) with interest := OP_NOOP } := by
        refine ⟨?_, rfl, htokens, hempty, herror⟩
        simp only [View.dialed, hdial, Dial.originFd]
        exact Int.natCast_ne_zero.mpr (Nat.ne_of_gt hfd)
      exact .connecting hphase (.inr (.inl hpending))
    · simp [View.dialed, milestones_dialHistory, hdial]
  | established peer w x y hdial hqueued hwrote hcopy =>
    obtain ⟨hpos, hle⟩ := length_connReqReply env junk
    obtain ⟨hcontent, t, ht, hmarks⟩ := hqueued.answers hempty hpos (hle.trans hout)
    obtain ⟨hconn, hwcap, hwphase, -, hwrelay, hwtokens⟩ := hqueued.fields
    have hleft : (w.succeeding c).conn.outBuff.content ≠ [] := by
      change w.conn.outBuff.content ≠ []
      rw [hcontent]
      exact List.ne_nil_of_length_pos hpos
    have hphase' : (w.succeeding c).phase = some .connecting := hwphase.trans hphase
    have herror' : (w.succeeding c).conn.isErrorResponse = false := by
      change w.conn.isErrorResponse = false
      rw [hconn]
      exact herror
    have hsucceeding : milestones (w.succeeding c).history =
        milestones v.history ++ .established c :: t := by
      rw [show milestones (w.succeeding c).history = milestones w.history from
        milestones_reset _ c, hmarks]
      simp [View.dialed, milestones_dialHistory, hdial]
    -- whether or not the reply's send advanced the phase, relaying has started
    have hy : y.phase = some .copy ∧ y.tokens = 0 ∧ y.conn.addrInfo = [] ∧
        BUFF_MIN_LEN ≤ y.conn.inBuff.capacity ∧ BUFF_MIN_LEN ≤ y.conn.outBuff.capacity ∧
        (∀ r, y.relay = some r → r.1 = .copySelectorHandler) ∧
        milestones y.history = milestones v.history ++ .established c :: t ++ [.enter c .copy] := by
      have haddr : (w.succeeding c).conn.addrInfo = [] := by
        change w.conn.addrInfo = []
        rw [hconn]
        simp [View.registered, View.dialed, hdial, Dial.addrInfo]
      have hincap : BUFF_MIN_LEN ≤ (w.succeeding c).conn.inBuff.capacity := by
        change BUFF_MIN_LEN ≤ (bufferReset w.conn.inBuff).capacity
        rw [Buffer.capacity_bufferReset, hconn]
        exact hin
      have houtcap : BUFF_MIN_LEN ≤ (w.succeeding c).conn.outBuff.capacity :=
        hout.trans (le_of_eq hwcap.symm)
      have hnone : (w.succeeding c).relay = none := hwrelay
      have htokens' : (w.succeeding c).tokens = 0 := hwtokens.trans htokens
      rcases hwrote.entersCopy hcopy hphase' herror' hleft with
        ⟨relay, harmed, rfl⟩ | ⟨n, left, relay, -, hcap, harmed, rfl⟩
      · exact ⟨rfl, htokens', haddr, hincap, houtcap, harmed.relay_eq hnone,
          by simp [hsucceeding, Obs.isMilestone]⟩
      · have hsent := (Relays.of_sent (c := c) n hcap).milestones
        refine ⟨rfl, htokens', haddr, hincap, ?_, harmed.relay_eq ?_, ?_⟩
        · change BUFF_MIN_LEN ≤ (bufferCompact left).capacity
          rw [Buffer.capacity_bufferCompact, hcap]
          exact houtcap
        · simp [View.sent, hnone]
        · simp only [milestones_append, hsent, hsucceeding]
          simp [Obs.isMilestone]
    obtain ⟨hyphase, hytokens, hyaddr, hyin, hyout, hyrelay, hymarks⟩ := hy
    exact ⟨⟨hyin, hyout, fun r hr => .inr ⟨hyrelay r hr, hyphase⟩,
        .copy hyphase hytokens hyaddr⟩,
      .relays _ t y.history hphase herror ht (.inl (by simpa using hymarks))
        (.inl ⟨y, rfl, hyphase, rfl⟩)⟩

/-- Queueing an answer, whether or not it fits. -/
theorem Queued.answersAtMost {status : UInt8} {now : ℕ} {bytes : List UInt8}
    (h : Queued c (.connReq status) bytes (v.registered c status now) w) :
    ∃ t, milestones w.history = milestones v.history ++ t ∧ ∀ o ∈ t, o ≠ .enter c .auth := by
  cases h with
  | queued buff hfit hcontent hcapacity hspace =>
    exact ⟨[.access c (v.accessCall status now), .queued c (.connReq status) bytes],
      by simp [View.registered, Obs.isMilestone], by simp⟩
  | dropped hfull =>
    exact ⟨[.access c (v.accessCall status now)], by simp [View.registered, Obs.isMilestone],
      by simp⟩

section Connecting

variable {lowest : ℕ} {i : FdInterest} {v₁ : View} {err : Errno}
  {relay : Option (FdHandler × FdInterest)}

/-- A connect that was begun and not given up is pending. -/
theorem View.Ok.pending_of_open (hok : v.Ok c) (hphase : v.phase = some .connecting)
    (hset : v.conn.originFd ≠ 0) (hopen : v.conn.originFd ≠ -1) : v.Pending := by
  have hphaseOk := hok.phase
  simp only [View.PhaseOk, hphase] at hphaseOk
  rcases hphaseOk with hwaiting | hpending | hrefused
  · exact absurd hwaiting.originFd hset
  · exact hpending
  · exact absurd hrefused.originFd hopen

/-- No notification is under way for a connection that has begun to connect. -/
theorem View.Ok.tokens_of_set (hok : v.Ok c)
    (hphase : v.phase = some .connecting ∨ v.phase = some .copy ∧ v.conn.addrInfo = [])
    (hset : v.conn.originFd ≠ 0) : v.tokens = 0 := by
  have hphaseOk := hok.phase
  rcases hphase with hconnecting | ⟨hcopy, -⟩
  · simp only [View.PhaseOk, hconnecting] at hphaseOk
    rcases hphaseOk with hwaiting | hpending | hrefused
    · exact absurd hwaiting.originFd hset
    · exact hpending.tokens
    · exact hrefused.tokens
  · simp only [View.PhaseOk, hcopy] at hphaseOk
    exact hphaseOk.1

/-- The next address is pending, or no socket is left for it: the connection goes on waiting. -/
theorem View.Pending.redialed (hp : v.Pending) (hok : v.Ok c) (hphase : v.phase = some .connecting)
    (hlowest : 0 < lowest)
    (hdial : dial v.conn.addrInfo env.connects = .noSocket ∨
      ∃ peer rest, dial v.conn.addrInfo env.connects = .pending peer rest)
    (hrelay : ∀ r, relay = some r → r.1 = .connectingHandler) :
    (v.dialed c lowest env.connects relay).Ok c ∧
      Move s c v e (.alive (v.dialed c lowest env.connects relay)) := by
  have hset : (v.dialed c lowest env.connects relay).conn.originFd ≠ 0 := by
    rcases hdial with hdial | ⟨peer, rest, hdial⟩
    · simp [View.dialed, hdial, Dial.originFd]
    · simp only [View.dialed, hdial, Dial.originFd]
      exact Int.natCast_ne_zero.mpr (Nat.ne_of_gt hlowest)
  have hmarks : milestones (v.dialed c lowest env.connects relay).history =
      milestones v.history := by
    rcases hdial with hdial | ⟨peer, rest, hdial⟩
    · simp [View.dialed, milestones_dialHistory, hdial]
    · simp [View.dialed, milestones_dialHistory, hdial]
  have hpending : (v.dialed c lowest env.connects relay).Pending :=
    ⟨hset, hp.interest, hp.tokens, hp.outBuff, hp.isErrorResponse⟩
  exact ⟨⟨hok.inCapacity, hok.outCapacity,
      fun r hr => .inl ⟨hrelay r hr, hphase, hp.isErrorResponse⟩,
      .connecting hphase (.inr (.inl hpending))⟩,
    .quiet _ (.inl rfl) (fun _ => rfl) hmarks fun _ h => h⟩

/-- What a refusal starts from: no address was left, or the walk over the rest ended without a
pending connect. -/
def RefusedFrom (c : ConnId) (env : Env) (lowest : ℕ) (v v₁ : View) : Prop :=
  v.conn.addrInfo = [] ∧ v₁ = v ∨
    v.conn.addrInfo ≠ [] ∧ (dial v.conn.addrInfo env.connects = .refused ∨
      ∃ peer, dial v.conn.addrInfo env.connects = .connected peer) ∧
      ∃ relay, v₁ = v.dialed c lowest env.connects relay

theorem RefusedFrom.fields (h : RefusedFrom c env lowest v v₁) :
    v₁.phase = v.phase ∧ v₁.tokens = v.tokens ∧ v₁.conn.inBuff = v.conn.inBuff ∧
      v₁.conn.outBuff = v.conn.outBuff ∧ v₁.conn.addrInfo = [] := by
  rcases h with ⟨hnone, rfl⟩ | ⟨-, hdial, relay, rfl⟩
  · exact ⟨rfl, rfl, rfl, rfl, hnone⟩
  · refine ⟨rfl, rfl, rfl, rfl, ?_⟩
    rcases hdial with hdial | ⟨peer, hdial⟩
    · simp [View.dialed, hdial, Dial.addrInfo]
    · simp [View.dialed, hdial, Dial.addrInfo]

theorem RefusedFrom.milestones (h : RefusedFrom c env lowest v v₁) :
    milestones v₁.history = milestones v.history ∨
      milestones v₁.history = milestones v.history ++ [.established c] := by
  rcases h with ⟨-, rfl⟩ | ⟨-, hdial | ⟨peer, hdial⟩, relay, rfl⟩
  · exact .inl rfl
  · exact .inl (by simp [View.dialed, milestones_dialHistory, hdial])
  · exact .inr (by simp [View.dialed, milestones_dialHistory, hdial])

/-- The view in which a refusal is about to be sent. -/
def View.refusing (w : View) : View :=
  { w with
    conn := { w.conn with isErrorResponse := true, originFd := -1 }
    relay := none
    interest := OP_WRITE }

section Refusal

variable {err' : Errno} (hok : v.Ok c) (hfrom : RefusedFrom c env lowest v v₁)
  (hqueued : Queued c (.connReq (getCode err')) (connReqErrorReply (getCode err') junk)
    (v₁.registered c (getCode err') env.now) w)
include hok hfrom hqueued

/-- A refusal keeps the local invariant, if the phase goes with it. -/
theorem Queued.refusing_ok (hphase : w.refusing.PhaseOk c) : w.refusing.Ok c := by
  obtain ⟨-, -, hin, hout, -⟩ := hfrom.fields
  obtain ⟨hconn, hcap, -⟩ := hqueued.fields
  refine ⟨?_, ?_, fun r hr => (by cases hr), hphase⟩
  · change BUFF_MIN_LEN ≤ w.conn.inBuff.capacity
    rw [hconn]
    exact (congrArg (BUFF_MIN_LEN ≤ Buffer.capacity ·) hin).mpr hok.inCapacity
  · exact hok.outCapacity.trans (le_of_eq ((congrArg Buffer.capacity hout).symm.trans hcap.symm))

/-- The connect of a waiting client is given up. -/
theorem Queued.refuses_pending (hp : v.Pending) (hphase : v.phase = some .connecting) :
    w.refusing.Ok c ∧ Move s c v e (.alive w.refusing) := by
  obtain ⟨hphase₁, htokens₁, -, hout, -⟩ := hfrom.fields
  obtain ⟨-, -, hwphase, -, -, hwtokens⟩ := hqueued.fields
  obtain ⟨hpos, hle⟩ := length_connReqErrorReply (getCode err') junk
  have hempty : v₁.conn.outBuff.content = [] := by rw [hout]; exact hp.outBuff
  obtain ⟨hcontent, t, ht, hmarks⟩ :=
    hqueued.answers hempty hpos (hle.trans (by rw [hout]; exact hok.outCapacity))
  have hconnecting : w.refusing.phase = some .connecting := hwphase.trans (hphase₁.trans hphase)
  have hrefused : w.refusing.Refused := by
    refine ⟨rfl, rfl, hwtokens.trans (htokens₁.trans hp.tokens), ?_, rfl⟩
    change w.conn.outBuff.content ≠ []
    rw [hcontent]
    exact List.ne_nil_of_length_pos hpos
  have hshown : milestones w.refusing.history = milestones v.history ++ t ∨
      milestones w.refusing.history = milestones v.history ++ .established c :: t := by
    refine hfrom.milestones.imp (fun h => ?_) fun h => ?_
    · exact hmarks.trans (congrArg (· ++ t) h)
    · exact (hmarks.trans (congrArg (· ++ t) h)).trans (by simp)
  exact ⟨hqueued.refusing_ok hok hfrom (.connecting hconnecting (.inr (.inr hrefused))),
    .refused _ t (getCode err') hphase hp.isErrorResponse hconnecting rfl
      (getCode_ne_succeeded err') ht hshown⟩

/-- A connect that fails though the relay was entered is late. -/
theorem Queued.refuses_copying (hphase : v.phase = some .copy) (hnone : v.conn.addrInfo = [])
    (htokens : v.tokens = 0) (hstale : StaleConnect s c v e) :
    w.refusing.Ok c ∧ Move s c v e (.alive w.refusing) := by
  obtain ⟨hphase₁, htokens₁, -, -, haddr⟩ := hfrom.fields
  obtain ⟨hconn, -, hwphase, -, -, hwtokens⟩ := hqueued.fields
  obtain ⟨t, hmarks, ht⟩ := hqueued.answersAtMost
  have hcopy : w.refusing.phase = some .copy := hwphase.trans (hphase₁.trans hphase)
  have hfields : w.refusing.conn.addrInfo = [] := by
    change w.conn.addrInfo = []
    rw [hconn]
    exact haddr
  have hsame : v₁ = v := by
    rcases hfrom with ⟨-, heq⟩ | ⟨hsome, -⟩
    · exact heq
    · exact absurd hnone hsome
  subst hsame
  exact ⟨hqueued.refusing_ok hok hfrom (.copy hcopy (hwtokens.trans htokens) hfields),
    .stale _ t (.inr hphase) hstale ht (.inl ⟨_, rfl, hcopy, hmarks⟩)⟩

end Refusal

section Success

variable
  (hqueued : Queued c (.connReq SOCKS5_REP_SUCCEEDED) (connReqReply env junk)
    ((v.standing c relay).registered c SOCKS5_REP_SUCCEEDED env.now) w)
  (hwrote : Wrote c junk fds (w.succeeding c) out r)
include hqueued

/-- The connection that a success reply is about to be sent for keeps the local invariant. -/
theorem Queued.succeeding_ok (hok : v.Ok c) (htokens : v.tokens = 0)
    (hrelay : ∀ r, relay = some r → r.1 = .copySelectorHandler) : (w.succeeding c).Ok c := by
  obtain ⟨hconn, hcap, hphase, -, hwrelay, hwtokens⟩ := hqueued.fields
  have hcopy : (w.succeeding c).phase = some .copy := hphase
  refine ⟨?_, hok.outCapacity.trans (le_of_eq hcap.symm), ?_, .copy hcopy ?_ ?_⟩
  · change BUFF_MIN_LEN ≤ (bufferReset w.conn.inBuff).capacity
    rw [Buffer.capacity_bufferReset, hconn]
    exact hok.inCapacity
  · exact fun r hr => .inr ⟨hrelay r (hwrelay.symm.trans hr), hcopy⟩
  · exact hwtokens.trans htokens
  · change w.conn.addrInfo = []
    rw [hconn]
    rfl

include hwrote

/-- A connect whose outcome was given up before it came is late. -/
theorem Queued.succeeds_stale (hwok : (w.succeeding c).Ok c) (hphase : v.phase = some .connecting)
    (hgiven : v.conn.originFd = -1) (hstale : StaleConnect s c v e) :
    r.Ok c ∧ Move s c v e r := by
  obtain ⟨-, -, hcopy, -⟩ := hqueued.fields
  obtain ⟨t, ht, hnot⟩ := hqueued.answersAtMost
  have hstanding : milestones (v.standing c relay).history =
      milestones v.history ++ [.enter c .copy] := by
    simp [View.standing, hgiven, Obs.isMilestone]
  have hshown : milestones (w.succeeding c).history =
      milestones v.history ++ .enter c .copy :: t := by
    rw [show milestones (w.succeeding c).history = milestones w.history from milestones_reset _ c,
      ht, hstanding, List.append_assoc]
    rfl
  rcases hwrote.relaying hcopy with ⟨x, rfl, hx⟩ | rfl
  · exact ⟨hx.ok hcopy hwok, .stale _ (.enter c .copy :: t) (.inl hphase) hstale
      (by simpa using hnot) (.inl ⟨x, rfl, hx.phase.trans hcopy, hx.milestones.trans hshown⟩)⟩
  · refine ⟨trivial, .stale _ (.enter c .copy :: t ++ [.released c]) (.inl hphase) hstale ?_
      (.inr ⟨_, rfl, ?_⟩)⟩
    · intro o ho
      rcases List.mem_append.mp ho with ho | ho
      · rcases List.mem_cons.mp ho with rfl | ho
        · simp
        · exact hnot o ho
      · simp [List.mem_singleton.mp ho]
    · rw [milestones_append, hshown, List.append_assoc]
      rfl

/-- A pending connect that stands is answered and relayed. -/
theorem Queued.succeeds_pending (hwok : (w.succeeding c).Ok c) (hp : v.Pending)
    (hcapacity : BUFF_MIN_LEN ≤ v.conn.outBuff.capacity) (hphase : v.phase = some .connecting)
    (hopen : v.conn.originFd ≠ -1) : r.Ok c ∧ Move s c v e r := by
  obtain ⟨-, -, hcopy, -⟩ := hqueued.fields
  obtain ⟨hpos, hle⟩ := length_connReqReply env junk
  obtain ⟨-, t, ht, hmarks⟩ := hqueued.answers hp.outBuff hpos (hle.trans hcapacity)
  have hshown : milestones (w.succeeding c).history =
      milestones v.history ++ .established c :: .enter c .copy :: t := by
    rw [show milestones (w.succeeding c).history = milestones w.history from milestones_reset _ c,
      hmarks]
    simp [View.standing, hopen, Obs.isMilestone]
  rcases hwrote.relaying hcopy with ⟨x, rfl, hx⟩ | rfl
  · exact ⟨hx.ok hcopy hwok, .relays _ t (w.succeeding c).history hphase hp.isErrorResponse ht
      (.inr hshown) (.inl ⟨x, rfl, hx.phase.trans hcopy, hx.milestones⟩)⟩
  · exact ⟨trivial, .relays _ t (w.succeeding c).history hphase hp.isErrorResponse ht
      (.inr hshown) (.inr ⟨_, rfl, by simp [Obs.isMilestone]⟩)⟩

end Success

/-- The outcome of a write event for a pending connect. -/
theorem Connects.progress (h : Connects c junk env s.selector.fds lowest v r) (hok : v.Ok c)
    (hitem : (s.selector.fds fd).relayOf c = some (.connectingHandler, i))
    (hset : v.conn.originFd ≠ 0)
    (hphase : v.phase = some .connecting ∨ v.phase = some .copy ∧ v.conn.addrInfo = [])
    (hcopies : ∀ n j, (s.selector.fds n).relayOf c = some (.copySelectorHandler, j) →
      v.phase = some .copy) (hlowest : 0 < lowest) :
    r.Ok c ∧ Move s c v (.writable fd env) r := by
  have htokens := hok.tokens_of_set hphase hset
  cases h with
  | retried err relay hopen herr hsome hdial hrelay =>
    have hconnecting := hphase.resolve_right fun hc => hsome hc.2
    refine (hok.pending_of_open hconnecting hset hopen).redialed hok hconnecting hlowest hdial ?_
    intro r hr
    obtain ⟨n, hn⟩ := hrelay r hr
    obtain ⟨-, -, hisRelay, -⟩ := relayOf_eq_some_iff.mp hn
    obtain ⟨handler, j⟩ := r
    cases handler with
    | connectingHandler => rfl
    | copySelectorHandler =>
      have hcopy := hcopies n j hn
      rw [hconnecting] at hcopy
      cases hcopy
    | _ => cases hisRelay
  | refused v₁ w err err' hopen herr hfrom hqueued =>
    rcases hphase with hconnecting | ⟨hcopy, hnone⟩
    · exact hqueued.refuses_pending hok hfrom (hok.pending_of_open hconnecting hset hopen) hconnecting
    · exact hqueued.refuses_copying hok hfrom hcopy hnone htokens
        ⟨fd, env, i, rfl, hitem, .inr hcopy⟩
  | established table w r relay hconnecting hstands hrelay hqueued hwrote =>
    have hwok : (w.succeeding c).Ok c := by
      refine hqueued.succeeding_ok hok htokens fun r hr => ?_
      rw [hrelay] at hr
      split at hr
      · exact Option.some.inj hr ▸ rfl
      · cases hr
    by_cases hopen : v.conn.originFd = -1
    · exact hqueued.succeeds_stale hwrote hwok hconnecting hopen
        ⟨fd, env, i, rfl, hitem, .inl hopen⟩
    · exact hqueued.succeeds_pending hwrote hwok (hok.pending_of_open hconnecting hset hopen)
        hok.outCapacity hconnecting hopen

end Connecting

end Socks5d
