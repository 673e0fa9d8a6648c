import Socks5d.Reading

/-!
# Reading the greeting

The loop of `handshake_read` on the view. A completed greeting queues its reply and sends at
once; when that send is accepted, the write handler of the phase has already closed the parser
by the time the loop looks at its next byte.
-/

namespace Socks5d

open Fallible

variable {mode : Mode} {c : ConnId} {s₀ s : Server} {v : View}

/-- The bytes `handshake_read` queues for a completed greeting. -/
def handshakeReply (p : HandshakeParser) (junk : Memory) : List UInt8 :=
  (createHandshakeResponse p.noAuth p.userPassAuth junk).bytes HANDSHAKE_RESPONSE_SIZE

/-- A completed greeting offers no method the server supports. -/
def HandshakeParser.refuses (p : HandshakeParser) : Bool := !(p.noAuth || p.userPassAuth)

/-- The loop reaches, on these bytes and sends, a send that closes the parser under it or
releases the connection. -/
def greetingHazard : HandshakeParser → List UInt8 → List SendOutcome → Bool
  | _, [], _ => false
  | p, byte :: rest, sends =>
    let (p, state) := handshakeParserFeed p byte
    match state with
    | .done =>
      match sends.headD .wouldBlock with
      | .accepted _ => p.refuses || !rest.isEmpty
      | .zero => greetingHazard p rest sends.tail
      | .failed e => e != .eagain || greetingHazard p rest sends.tail
    | .error => false
    | _ => greetingHazard p rest sends

/-- The view after the parser was fed the first byte of `in_buff`. -/
def View.greeted (v : View) (inBuff : Buffer) (p : HandshakeParser) : View :=
  { v with conn := { v.conn with inBuff := inBuff, handshakeParser := some p } }

/-- The view in which a greeting's reply is about to be sent. -/
def View.answering (w : View) (refused : Bool) : View :=
  { w with conn := { w.conn with isErrorResponse := refused }, interest := OP_WRITE }

/-- The passes of the loop, with whether it ends on a malformed greeting. -/
inductive HandshakeReads (c : ConnId) (junk : Memory) :
    View → List SendOutcome → View → Bool → Prop
  | idle (v : View) (sends : List SendOutcome) (hempty : v.conn.inBuff.content = []) :
      HandshakeReads c junk v sends v false
  | fed (v w : View) (sends : List SendOutcome) (malformed : Bool) (p p' : HandshakeParser)
      (byte : UInt8) (state : HandshakeState) (inBuff : Buffer)
      (hparser : v.conn.handshakeParser = some p)
      (hcontent : v.conn.inBuff.content = byte :: inBuff.content)
      (hcapacity : inBuff.capacity = v.conn.inBuff.capacity)
      (hfeed : handshakeParserFeed p byte = (p', state))
      (hstate : state ≠ .done ∧ state ≠ .error)
      (hrest : HandshakeReads c junk (v.greeted inBuff p') sends w malformed) :
      HandshakeReads c junk v sends w malformed
  | malformed (v : View) (sends : List SendOutcome) (p p' : HandshakeParser) (byte : UInt8)
      (inBuff : Buffer) (hparser : v.conn.handshakeParser = some p)
      (hcontent : v.conn.inBuff.content = byte :: inBuff.content)
      (hcapacity : inBuff.capacity = v.conn.inBuff.capacity)
      (hfeed : handshakeParserFeed p byte = (p', .error)) :
      HandshakeReads c junk v sends (v.greeted inBuff p') true
  | replied (fds : ℕ → Item) (v w u x : View) (sends : List SendOutcome) (malformed : Bool)
      (p p' : HandshakeParser) (byte : UInt8) (inBuff : Buffer)
      (hparser : v.conn.handshakeParser = some p)
      (hcontent : v.conn.inBuff.content = byte :: inBuff.content)
      (hcapacity : inBuff.capacity = v.conn.inBuff.capacity)
      (hfeed : handshakeParserFeed p byte = (p', .done))
      (hqueued : Queued c .handshake (handshakeReply p' junk) (v.greeted inBuff p') w)
      (hwrote : Wrote c junk fds (w.answering p'.refuses) (sends.headD .wouldBlock) (.alive u))
      (hrest : HandshakeReads c junk u sends.tail x malformed) :
      HandshakeReads c junk v sends x malformed

/-- A read loop returns the current phase, or the error phase on malformed input. -/
def ReadEnds (mode : Mode) (c : ConnId) (s₀ : Server) (w : View) (malformed : Bool)
    (out : Socks5State × Server) : Prop :=
  Tracks mode false c s₀ w out.2 ∧
    cond malformed (out.1 = .error) (w.phase = some out.1)

/-- The loops read `in_buff` a byte at a time. -/
theorem bufferRead_cons {b : Buffer} (hne : b.content ≠ []) :
    ∃ byte b', bufferRead b = .ok (byte, b') ∧ b.content = byte :: b'.content ∧
      b'.capacity = b.capacity := by
  obtain ⟨⟨byte, b'⟩, hread⟩ := Buffer.bufferRead_succeeds b hne
  obtain ⟨hcontent, hcapacity⟩ := Buffer.bufferRead_eq_ok hne hread
  exact ⟨byte, b', hread, hcontent, hcapacity⟩

/-- A read handler that runs after the connection was released faults. -/
theorem handshakeReadLoop_released {key : SelectorKey} {sends : List SendOutcome} {bound : ℕ}
    (hgone : s.conns key.data = none) :
    Socks5d.handshakeReadLoop bound key sends s = .error .useAfterFree := by
  unfold Socks5d.handshakeReadLoop
  simp [Server.conn, hgone]

/-- A read handler that runs after its parser was closed faults on the next byte. -/
theorem Tracks.handshakeReadLoop_closed {hole : Bool} (h : Tracks mode hole c s₀ v s)
    {key : SelectorKey} (hkey : key.data = c) {sends : List SendOutcome} {bound : ℕ}
    (hleft : v.conn.inBuff.content ≠ []) (hbound : v.conn.inBuff.content.length ≤ bound)
    (hclosed : v.conn.handshakeParser = none) :
    Socks5d.handshakeReadLoop bound key sends s = .error .nullDeref := by
  subst hkey
  have hcan : bufferCanRead v.conn.inBuff = true := (Buffer.bufferCanRead_iff _).mpr hleft
  obtain ⟨byte, inBuff, hread, -, -⟩ := bufferRead_cons hleft
  cases bound with
  | zero => exact absurd (List.length_eq_zero_iff.mp (by omega)) hleft
  | succ bound =>
    unfold Socks5d.handshakeReadLoop
    simp [h.conn_eq, hcan, hread, hclosed]

/-- The write handler of the greeting closes its parser or the whole connection. -/
theorem Advance.of_handshake {junk : Memory} {fds : ℕ → Item} {w : View} {r : Result}
    (h : Advance c junk fds w r) (hphase : w.phase = some .handshake) :
    w.conn.isErrorResponse = true ∧ (∃ history, r = .gone history) ∨
      w.conn.isErrorResponse = false ∧ ∃ u state, r = .alive u ∧ u.conn.inBuff = w.conn.inBuff ∧
        u.phase = some state ∧ u.conn.handshakeParser = none := by
  cases h with
  | refused _ _ _ herror => exact .inl ⟨herror, _, rfl⟩
  | auth _ _ herror => exact .inr ⟨herror, _, _, rfl, rfl, rfl, rfl⟩
  | connectionReq state hphase' herror =>
    obtain rfl := Option.some.inj (hphase.symm.trans hphase')
    exact .inr ⟨herror, _, _, rfl, rfl, rfl, rfl⟩
  | copy state _ hphase' _ hstate =>
    obtain rfl := Option.some.inj (hphase.symm.trans hphase')
    simp at hstate

/-- Sending a greeting's reply from the loop: the passes go on only when nothing was accepted,
or when the last byte completed an acceptable greeting. -/
theorem Tracks.handshakeReply_sent {w : View} {key : SelectorKey} {out : SendOutcome}
    {sends : List SendOutcome} {p : HandshakeParser} {bound : ℕ}
    {Q : Socks5State × Server → Prop}
    (h : Tracks mode false c s₀ (w.answering p.refuses) s) (hkey : key.data = c)
    (hphase : w.phase = some .handshake) (hparser : w.conn.handshakeParser = some p)
    (htokens : w.tokens = 0) (hleft : w.conn.outBuff.content ≠ [])
    (hbound : w.conn.inBuff.content.length ≤ bound)
    (hblocked : ∀ s', Tracks mode false c s₀ (w.answering p.refuses) s' →
      Wrote c s₀.junk s₀.selector.fds (w.answering p.refuses) out (.alive (w.answering p.refuses)) →
      Holds (fun f => f.isMemory ∧ greetingHazard p w.conn.inBuff.content sends = true)
        (Socks5d.handshakeReadLoop bound key sends s') Q)
    (hdone : ∀ u state s', w.conn.inBuff.content = [] → u.conn.inBuff = w.conn.inBuff →
      u.phase = some state → Tracks mode false c s₀ u s' →
      Wrote c s₀.junk s₀.selector.fds (w.answering p.refuses) out (.alive u) → Q (state, s')) :
    Holds (fun f => f.isMemory ∧ (match out with
        | .accepted _ => p.refuses || !w.conn.inBuff.content.isEmpty
        | .zero => greetingHazard p w.conn.inBuff.content sends
        | .failed e => e != .eagain || greetingHazard p w.conn.inBuff.content sends) = true)
      (Socks5d.socksv5Write key out s >>= fun s' =>
        Socks5d.handshakeReadLoop bound key sends s') Q := by
  have hequipped : (w.answering p.refuses).Equipped .handshake := by
    simp [View.Equipped, View.answering, hparser]
  have hnc : (w.answering p.refuses).phase ≠ some .copy := by simp [View.answering, hphase]
  cases out with
  | zero =>
    obtain ⟨s', r, hs', hwrote, hlands⟩ :=
      h.socksv5Write hkey .zero hphase (.inr rfl) hequipped htokens (by simp)
    obtain rfl := hwrote.of_blocked hleft (.inl rfl)
    rw [hs', ok_bind]
    exact hblocked s' hlands hwrote
  | failed e =>
    obtain ⟨s', r, hs', hwrote, hlands⟩ :=
      h.socksv5Write hkey (.failed e) hphase (.inr rfl) hequipped htokens (by simp)
    rw [hs', ok_bind]
    by_cases he : e = .eagain
    · subst he
      obtain rfl := hwrote.of_blocked hleft (.inr rfl)
      exact (hblocked s' hlands hwrote).tolerate (by simp)
    · obtain rfl := hwrote.of_failed hleft he
      have hgone : Released mode c s₀ _ s' := hlands
      rw [handshakeReadLoop_released (hkey ▸ hgone.conns), holds_error]
      simp [he]
  | accepted n =>
    by_cases hempty : w.conn.inBuff.content = []
    · obtain ⟨s', r, hs', hwrote, hlands⟩ :=
        h.socksv5Write hkey (.accepted n) hphase (.inr rfl) hequipped htokens
          (fun _ _ => .inr (.inr hempty))
      obtain ⟨left, -, -, hadvance⟩ := hwrote.of_accepted hleft hnc
      rw [hs', ok_bind]
      rcases hadvance.of_handshake hphase with
        ⟨hrefuses, history, rfl⟩ | ⟨-, u, state, rfl, hin, hstate, -⟩
      · have hgone : Released mode c s₀ history s' := hlands
        rw [handshakeReadLoop_released (hkey ▸ hgone.conns), holds_error]
        have hrefuses' : p.refuses = true := hrefuses
        simp [hrefuses']
      · have htracks : Tracks mode false c s₀ u s' := hlands
        have hin' : u.conn.inBuff = w.conn.inBuff := hin
        have hcan : bufferCanRead u.conn.inBuff = false := by
          rw [hin']
          exact (Buffer.bufferCanRead_eq_false_iff _).mpr hempty
        unfold Socks5d.handshakeReadLoop
        rw [hkey, htracks.conn_eq, ok_bind]
        simp only [hcan, Bool.not_false, if_true, htracks.currentState_eq hstate, ok_bind,
          holds_pure]
        exact hdone u state s' hempty hin' hstate htracks hwrote
    · obtain ⟨s', r, hs', hwrote, hlands⟩ :=
        h.admitZero.socksv5Write hkey (.accepted n) hphase (.inr rfl) hequipped htokens
          (fun _ _ => .inl rfl)
      obtain ⟨left, -, -, hadvance⟩ := hwrote.of_accepted hleft hnc
      rw [hs', ok_bind]
      rcases hadvance.of_handshake hphase with
        ⟨-, history, rfl⟩ | ⟨-, u, state, rfl, hin, -, hclosed⟩
      · have hgone : Released ⟨true, mode.tidy⟩ c s₀ history s' := hlands
        rw [handshakeReadLoop_released (hkey ▸ hgone.conns), holds_error]
        simp [hempty]
      · have htracks : Tracks ⟨true, mode.tidy⟩ false c s₀ u s' := hlands
        have hin' : u.conn.inBuff = w.conn.inBuff := hin
        rw [htracks.handshakeReadLoop_closed hkey (by rw [hin']; exact hempty)
          (by rw [hin']; exact hbound) hclosed, holds_error]
        simp [hempty]

/-- A completed greeting queues its reply, behind which the connection is marked. -/
theorem Tracks.handshakeReply_queued {inBuff : Buffer} {p : HandshakeParser}
    (h : Tracks mode false c s₀ (v.greeted inBuff p) s)
    (hcapacity : HANDSHAKE_RESPONSE_SIZE ≤ v.conn.outBuff.capacity) :
    ∃ s' w, s.queueReply c .handshake ((createHandshakeResponse p.noAuth p.userPassAuth s.junk).bytes
        HANDSHAKE_RESPONSE_SIZE) = .ok s' ∧
      Queued c .handshake (handshakeReply p s₀.junk) (v.greeted inBuff p) w ∧
      w.conn.outBuff.content ≠ [] ∧
      (s'.setInterest v.conn.clientFd OP_WRITE).conn c = .ok w.conn ∧
      Tracks mode false c s₀ (w.answering p.refuses)
        ((s'.setInterest v.conn.clientFd OP_WRITE).setConn c
          { w.conn with isErrorResponse := p.refuses }) := by
  obtain ⟨s', w, hs', hqueued, h'⟩ := h.queueReply .handshake (handshakeReply p s₀.junk)
  obtain ⟨hconn, -⟩ := hqueued.fields
  have hclient : v.conn.clientFd = w.conn.clientFd := by rw [hconn]; rfl
  rw [handshakeReply, ← h.frame.junk] at hs'
  rw [hclient]
  exact ⟨s', w, hs', hqueued,
    hqueued.content_ne_nil (by simp [handshakeReply, Memory.bytes, HANDSHAKE_RESPONSE_SIZE])
      (by simpa [handshakeReply, View.greeted] using hcapacity),
    (h'.armClient OP_WRITE).conn_eq,
    (h'.armClient OP_WRITE).setConn { w.conn with isErrorResponse := p.refuses } rfl rfl rfl⟩

/-- The loop follows its passes, and faults only on a hazard, by using what was released. -/
theorem Tracks.handshakeReadLoop (bound : ℕ) {key : SelectorKey} {sends : List SendOutcome}
    {p : HandshakeParser} (h : Tracks mode false c s₀ v s) (hkey : key = ⟨v.conn.clientFd, c⟩)
    (hphase : v.phase = some .handshake) (hparser : v.conn.handshakeParser = some p)
    (htokens : v.tokens = 0) (hcapacity : HANDSHAKE_RESPONSE_SIZE ≤ v.conn.outBuff.capacity)
    (hbound : v.conn.inBuff.content.length ≤ bound) :
    Holds (fun f => f.isMemory ∧ greetingHazard p v.conn.inBuff.content sends = true)
      (Socks5d.handshakeReadLoop bound key sends s) fun out => ∃ w malformed,
        HandshakeReads c s₀.junk v sends w malformed ∧ ReadEnds mode c s₀ w malformed out := by
  induction bound generalizing v s sends p with
  | zero =>
    have hempty : v.conn.inBuff.content = [] := List.length_eq_zero_iff.mp (by omega)
    have hcan := (Buffer.bufferCanRead_eq_false_iff _).mpr hempty
    subst hkey
    unfold Socks5d.handshakeReadLoop
    simp only [h.conn_eq, ok_bind, hcan, Bool.not_false, if_true, h.currentState_eq hphase,
      holds_pure]
    exact ⟨v, false, .idle v sends hempty, h, hphase⟩
  | succ bound ih =>
    unfold Socks5d.handshakeReadLoop
    have hdata : key.data = c := by rw [hkey]
    rw [hdata, h.conn_eq, ok_bind]
    by_cases hempty : v.conn.inBuff.content = []
    · have hcan := (Buffer.bufferCanRead_eq_false_iff _).mpr hempty
      simp only [hcan, Bool.not_false, if_true, h.currentState_eq hphase, ok_bind, holds_pure]
      exact ⟨v, false, .idle v sends hempty, h, hphase⟩
    · have hcan : bufferCanRead v.conn.inBuff = true := (Buffer.bufferCanRead_iff _).mpr hempty
      obtain ⟨byte, inBuff, hread, hcontent, hcap⟩ := bufferRead_cons hempty
      simp only [hcan, Bool.not_true, Bool.false_eq_true, if_false, hread, ok_bind, hparser,
        hcontent, greetingHazard]
      rcases hfeed : handshakeParserFeed p byte with ⟨p', state⟩
      have h₁ : Tracks mode false c s₀ (v.greeted inBuff p') _ :=
        h.setConn { v.conn with inBuff := inBuff, handshakeParser := some p' } rfl rfl rfl
      have hlen : inBuff.content.length ≤ bound := by
        rw [hcontent, List.length_cons] at hbound
        omega
      have hfed : state ≠ .done ∧ state ≠ .error →
          Holds (fun f => f.isMemory ∧ greetingHazard p' inBuff.content sends = true)
            (Socks5d.handshakeReadLoop bound key sends (s.setConn c
              { v.conn with inBuff := inBuff, handshakeParser := some p' })) fun out =>
            ∃ w malformed, HandshakeReads c s₀.junk v sends w malformed ∧
              ReadEnds mode c s₀ w malformed out := by
        intro hstate
        refine (ih h₁ hkey hphase rfl htokens hcapacity hlen).mono ?_
        rintro out ⟨w, malformed, hreads, hends⟩
        exact ⟨w, malformed, .fed v w sends malformed p p' byte state inBuff hparser hcontent hcap
          hfeed hstate hreads, hends⟩
      cases state with
      | version => exact hfed (by simp)
      | nmethods => exact hfed (by simp)
      | methods => exact hfed (by simp)
      | error =>
        exact ⟨_, true, .malformed v sends p p' byte inBuff hparser hcontent hcap hfeed, h₁, rfl⟩
      | done =>
        simp only
        obtain ⟨s₂, w, hs₂, hqueued, hleft, hmarked, h₂⟩ := h₁.handshakeReply_queued hcapacity
        obtain ⟨hconn, hwcap, hwphase, -, -, hwtokens⟩ := hqueued.fields
        have hclient : w.conn.clientFd = v.conn.clientFd := by rw [hconn]; rfl
        have hwin : w.conn.inBuff = inBuff := by rw [hconn]; rfl
        have hwparser : w.conn.handshakeParser = some p' := by rw [hconn]; rfl
        rw [hs₂, ok_bind, show key.fd = v.conn.clientFd by rw [hkey], hmarked, ok_bind, ← hwin]
        refine h₂.handshakeReply_sent hdata (hwphase.trans hphase) hwparser (hwtokens.trans htokens)
          hleft (by rw [hwin]; exact hlen) ?_ ?_
        · intro s' htracks hwrote
          refine (ih htracks (by rw [hkey, ← hclient]; rfl) (hwphase.trans hphase) hwparser
            (hwtokens.trans htokens) (hcapacity.trans (le_of_eq hwcap.symm))
            (by change w.conn.inBuff.content.length ≤ bound; rw [hwin]; exact hlen)).mono ?_
          rintro out ⟨x, malformed, hreads, hends⟩
          exact ⟨x, malformed, .replied _ v w _ x sends malformed p p' byte inBuff hparser hcontent
            hcap hfeed hqueued hwrote hreads, hends⟩
        · intro u state s' hnil hin hstate htracks hwrote
          exact ⟨u, false, .replied _ v w u u sends false p p' byte inBuff hparser hcontent hcap hfeed
            hqueued hwrote (.idle u sends.tail (by rw [hin]; exact hnil)), htracks, hstate⟩

/-- A loop that still meets a malformed byte after a greeting sent nothing of the reply. -/
theorem HandshakeReads.reply_blocked {junk : Memory} {fds : ℕ → Item} {w x : View}
    {out : SendOutcome} {sends : List SendOutcome}
    (h : HandshakeReads c junk w sends x true) (hwrote : Wrote c junk fds v out (.alive w))
    (hphase : v.phase = some .handshake) (hleft : v.conn.outBuff.content ≠ []) :
    w = v ∧ ∀ n, out ≠ .accepted n := by
  cases hsend : out with
  | zero => exact ⟨Result.alive.inj (hwrote.of_blocked hleft (.inl hsend)), by simp⟩
  | failed err =>
    by_cases he : err = .eagain
    · exact ⟨Result.alive.inj (hwrote.of_blocked hleft (.inr (by rw [hsend, he]))), by simp⟩
    · rw [hsend] at hwrote
      cases hwrote.of_failed hleft he
  | accepted n =>
    rw [hsend] at hwrote
    obtain ⟨left, -, -, hadvance⟩ := hwrote.of_accepted hleft (by rw [hphase]; simp)
    rcases hadvance.of_handshake hphase with ⟨-, _, hgone⟩ | ⟨-, y, _, halive, -, -, hclosed⟩
    · cases hgone
    · obtain rfl := Result.alive.inj halive
      generalize hb : true = b at h
      cases h with
      | idle => cases hb
      | fed _ _ _ _ _ _ _ _ _ hparser => rw [hclosed] at hparser; cases hparser
      | malformed _ _ _ _ _ _ hparser => rw [hclosed] at hparser; cases hparser
      | replied _ _ _ _ _ _ _ _ _ _ _ hparser => rw [hclosed] at hparser; cases hparser

/-- A loop that ends on a malformed greeting has not left the phase. -/
theorem HandshakeReads.of_malformed {junk : Memory} {w : View} {sends : List SendOutcome}
    (h : HandshakeReads c junk v sends w true) (hphase : v.phase = some .handshake)
    (htokens : v.tokens = 0) (hcapacity : HANDSHAKE_RESPONSE_SIZE ≤ v.conn.outBuff.capacity) :
    w.phase = some .handshake ∧ w.tokens = 0 ∧ w.conn.handshakeParser.isSome = true := by
  generalize hb : true = b at h
  induction h with
  | idle => cases hb
  | fed v w sends malformed p p' byte state inBuff _ _ _ _ _ _ ih =>
    exact ih hphase htokens hcapacity hb
  | malformed => exact ⟨hphase, htokens, rfl⟩
  | replied _ v w u x sends malformed p p' byte inBuff _ _ _ _ hqueued hwrote hrest ih =>
    obtain ⟨-, hwcap, hwphase, -, -, hwtokens⟩ := hqueued.fields
    have hleft : (w.answering p'.refuses).conn.outBuff.content ≠ [] :=
      hqueued.content_ne_nil (by simp [handshakeReply, Memory.bytes, HANDSHAKE_RESPONSE_SIZE])
        (by simpa [handshakeReply, View.greeted] using hcapacity)
    have hphase' : (w.answering p'.refuses).phase = some .handshake := hwphase.trans hphase
    subst hb
    obtain ⟨rfl, -⟩ := hrest.reply_blocked hwrote hphase' hleft
    exact ih hphase' (hwtokens.trans htokens) (hcapacity.trans (le_of_eq hwcap.symm)) rfl

/-- The first event of a connection enters the handshake. -/
def View.begun (v : View) (c : ConnId) : View :=
  match v.phase with
  | some _ => v
  | none =>
    { v with
      conn := { v.conn with handshakeParser := some handshakeParserInit }
      phase := some .handshake
      history := v.history ++ [.enter c .handshake] }

/-- The greeting parser a read in the handshake phase continues with. -/
def View.greetingParser (v : View) : HandshakeParser :=
  match v.phase with
  | some _ => v.conn.handshakeParser.getD handshakeParserInit
  | none => handshakeParserInit

/-- What a read handler's loop comes to, once the state machine has acted on its answer. -/
def View.finish (w : View) (c : ConnId) (malformed : Bool) : Result :=
  if malformed then .gone (w.history ++ [.enter c .error, .released c]) else .alive w

/-- The outcomes of a client read in the handshake phase, once the bytes are in `in_buff`. -/
inductive Greets (c : ConnId) (junk : Memory) (env : Env) (v : View) : Result → Prop
  | reads (w : View) (malformed : Bool)
      (hreads : HandshakeReads c junk (v.begun c) env.sends w malformed) :
      Greets c junk env v (w.finish c malformed)

/-- A loop's answer makes the state machine stay where it is or release the connection. -/
theorem Tracks.jump_read {w : View} {malformed : Bool} {key : SelectorKey} {ret : Socks5State}
    (hends : ReadEnds mode c s₀ w malformed (ret, s)) (hkey : key.data = c)
    (hmalformed : malformed = true → ∃ state, w.phase = some state ∧ state ≠ .error ∧
      state ≠ .copy ∧ w.Equipped state ∧ w.tokens = 0) :
    ∃ s', Socks5d.jump ret key s = .ok s' ∧
      Lands mode false c s₀ (w.finish c malformed) s' := by
  obtain ⟨htracks, hret⟩ := hends
  cases malformed with
  | false => exact ⟨s, htracks.jump_same hkey hret, htracks⟩
  | true =>
    obtain ⟨state, hphase, hne, hnc, hequipped, htokens⟩ := hmalformed rfl
    have hret' : ret = .error := hret
    subst hret'
    obtain ⟨s', hs', h'⟩ := htracks.jump_error hkey hphase hne hequipped
      (fun hc => absurd hc hnc) htokens
    exact ⟨s', hs', h'⟩

/-- A read in the handshake phase starts the state machine if it is the connection's first. -/
theorem Tracks.handleFirst_begun (h : Tracks mode false c s₀ v s) {key : SelectorKey}
    (hdata : key.data = c)
    (hphase : v.phase = none ∨ v.phase = some .handshake ∧ v.conn.handshakeParser.isSome = true)
    (htokens : v.tokens = 0) :
    ∃ s', handleFirst key s = .ok s' ∧ Tracks mode false c s₀ (v.begun c) s' ∧
      (v.begun c).phase = some .handshake ∧
      (v.begun c).conn.handshakeParser = some v.greetingParser ∧
      (v.begun c).conn.inBuff = v.conn.inBuff ∧ (v.begun c).conn.outBuff = v.conn.outBuff ∧
      (v.begun c).conn.clientFd = v.conn.clientFd ∧ (v.begun c).tokens = 0 := by
  rcases hphase with hphase | ⟨hphase, hsome⟩
  · have h₁ := h.enterState .handshake (by simp [hphase])
    have h₂ := h₁.setConn { v.conn with handshakeParser := some handshakeParserInit } rfl rfl rfl
    have hview : v.begun c = { v with
        conn := { v.conn with handshakeParser := some handshakeParserInit }
        phase := some .handshake
        history := v.history ++ [.enter c .handshake] } := by
      simp [View.begun, hphase]
    rw [hview]
    refine ⟨_, ?_, h₂, rfl, by simp [View.greetingParser, hphase], rfl, rfl, rfl, htokens⟩
    simp [handleFirst, hdata, h.stm_eq, hphase, onArrival, handshakeOnArrival, h₁.conn_eq]
  · obtain ⟨p, hp⟩ := Option.isSome_iff_exists.mp hsome
    refine ⟨s, ?_, by simpa [View.begun, hphase] using h, ?_⟩
    · simp [handleFirst, hdata, h.stm_eq, hphase]
    · simp [View.begun, View.greetingParser, hphase, hp, htokens]

/-- A client read in the handshake phase. -/
theorem Tracks.stmHandlerRead_handshake (h : Tracks mode false c s₀ v s) {key : SelectorKey}
    (hkey : key = ⟨v.conn.clientFd, c⟩) (env : Env)
    (hphase : v.phase = none ∨ v.phase = some .handshake ∧ v.conn.handshakeParser.isSome = true)
    (htokens : v.tokens = 0) (hcapacity : HANDSHAKE_RESPONSE_SIZE ≤ v.conn.outBuff.capacity) :
    Holds (fun f => f.isMemory ∧
        greetingHazard v.greetingParser v.conn.inBuff.content env.sends = true)
      (Socks5d.stmHandlerRead key env s) fun out => ∃ r,
        Greets c s₀.junk env v r ∧ Lands mode false c s₀ r out.2 := by
  have hdata : key.data = c := by rw [hkey]
  obtain ⟨s₁, hs₁, h₁, hphase₁, hparser₁, hin, hout, hclient, htokens₁⟩ :=
    h.handleFirst_begun hdata hphase htokens
  unfold Socks5d.stmHandlerRead
  rw [hdata, h.stmPointer_eq, ok_bind, hs₁, ok_bind, h₁.stmState_eq hphase₁, ok_bind]
  simp only [onReadReady, handshakeRead, hdata, h₁.conn_eq, ok_bind]
  rw [holds_bind]
  refine (h₁.handshakeReadLoop _ (by rw [hkey, hclient]) hphase₁ hparser₁ htokens₁
    (by rw [hout]; exact hcapacity) (Nat.le_refl _)).tolerate (fun _ hf => ⟨hf.1, hin ▸ hf.2⟩) |>.mono ?_
  rintro ⟨ret, s₂⟩ ⟨w, malformed, hreads, hends⟩
  obtain ⟨s', hs', hlands⟩ := Tracks.jump_read hends hdata (fun hm => by
    subst hm
    obtain ⟨hp, ht, he⟩ := hreads.of_malformed hphase₁ htokens₁ (by rw [hout]; exact hcapacity)
    exact ⟨.handshake, hp, by simp, by simp, he, ht⟩)
  simp only [hs', ok_bind, holds_pure]
  exact ⟨_, .reads w malformed hreads, hlands⟩

end Socks5d
