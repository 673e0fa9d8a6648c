import Socks5d.Notifications
import Socks5d.Parser.Accepted

/-!
# What the parsers were fed

The bytes a client sends reach the parser of the phase one by one, however `recv` cuts them. So a
parser is where a fresh one would be after the bytes received in its phase, and what the server
decides on (a method, credentials, a request) is spelled out in them.
-/

namespace Socks5d

open Feeding GuardedRun

/-- The bytes received in the current phase and not thrown away, one observation on. -/
def Obs.taking (bytes : List UInt8) : Obs → List UInt8
  | .recv _ .client more => bytes ++ more
  | .discarded _ rest => bytes.take (bytes.length - rest.length)
  | .enter _ .auth | .enter _ .connectionReq => []
  | _ => bytes

/-- The bytes received in the current phase and not thrown away. The greeting starts with the
connection. -/
def phaseBytes (history : List Obs) : List UInt8 := history.foldl Obs.taking []

/-- More observations count behind the earlier ones. -/
theorem phaseBytes_append (history t : List Obs) :
    phaseBytes (history ++ t) = t.foldl Obs.taking (phaseBytes history) := List.foldl_append

/-- A greeting that was read to its end. -/
def IsGreeting (n : UInt8) (methods bytes : List UInt8) : Prop :=
  bytes = greeting n methods ∧ n.toNat ≤ methods.length

/-- The bytes begin with a request for this command. -/
def BeginsRequest (cmd : UInt8) (bytes : List UInt8) : Prop :=
  ∃ atyp len addr high low rest, Announces atyp len ∧ addr.length = max 1 len.toNat ∧
    bytes = requestHeader cmd atyp len ++ addr ++ [high, low] ++ rest

/-- A decision of the server is spelled out in the bytes it has taken: the stronger method it
supports if the greeting announces it, else the other one; credentials and commands that are whole
messages. -/
def Obs.Spelled (before : List Obs) : Obs → Prop
  | .enter _ .auth => ∃ n methods, IsGreeting n methods (phaseBytes before) ∧
      SOCKS5_AUTH_METHOD_USER_PASS ∈ methods
  | .enter _ .connectionReq => milestones before = [] →
      ∃ n methods, IsGreeting n methods (phaseBytes before) ∧ SOCKS5_AUTH_METHOD_NO_AUTH ∈ methods ∧
        SOCKS5_AUTH_METHOD_USER_PASS ∉ methods.take n.toNat
  | .credentials _ _ => ∃ name pass rest, IsField name ∧ IsField pass ∧
      phaseBytes before = authMessage name pass ++ rest
  | .request _ => BeginsRequest SOCKS5_CONN_REQ_CMD_CONNECT (phaseBytes before)
  | .queued _ (.connReq status) _ => status = SOCKS5_REP_COMMAND_NOT_SUPPORTED →
      ∃ cmd, IsCommand cmd ∧ cmd ≠ SOCKS5_CONN_REQ_CMD_CONNECT ∧ BeginsRequest cmd (phaseBytes before)
  | _ => True

/-- Every decision of a history is spelled out. -/
def Spelled (history : List Obs) : Prop := ∀ before o, before ++ [o] <+: history → o.Spelled before

section Histories

variable {history t : List Obs} {o : Obs}

/-- An empty history decides nothing. -/
theorem spelled_nil : Spelled [] := by
  intro before o h
  have hnil := List.prefix_nil.mp h
  simp at hnil

/-- A history is spelled out observation by observation. -/
theorem Spelled.snoc (h : Spelled history) (ho : o.Spelled history) : Spelled (history ++ [o]) := by
  intro before last hprefix
  rcases List.prefix_concat_iff.mp hprefix with heq | hfront
  · obtain ⟨rfl, hlast⟩ := List.append_inj' heq rfl
    obtain rfl := List.singleton_inj.mp hlast
    exact ho
  · exact h before last hfront

/-- What decides nothing is spelled out anywhere. -/
theorem Spelled.append (h : Spelled history) (ht : ∀ o ∈ t, ∀ before, o.Spelled before) :
    Spelled (history ++ t) := by
  induction t generalizing history with
  | nil => rwa [List.append_nil]
  | cons o rest ih =>
    rw [List.append_cons]
    exact ih (h.snoc (ht o List.mem_cons_self history))
      fun o' ho' => ht o' (List.mem_cons_of_mem _ ho')

end Histories

/-- What was taken was fed, but for the bytes left in `in_buff`. -/
def View.Reads (v : View) (fed : List UInt8 → Prop) : Prop :=
  ∃ front, phaseBytes v.history = front ++ v.conn.inBuff.content ∧ fed front

/-- These bytes ended a greeting, and it is refused unless it offers what the server supports. -/
def Concludes (front : List UInt8) (refusing : Bool) : Prop :=
  .done ∈ verdicts handshakeParserFeed handshakeParserInit front ∧
    (refusing = false → (feedAll handshakeParserFeed handshakeParserInit front).refuses = false)

/-- The greeting parser was fed these bytes, and a reply is only pending to a whole greeting. -/
structure View.GreetedWith (v : View) (front : List UInt8) : Prop where
  parser : v.conn.handshakeParser = some (feedAll handshakeParserFeed handshakeParserInit front)
  error : .error ∉ verdicts handshakeParserFeed handshakeParserInit front
  reply : v.conn.outBuff.content ≠ [] → Concludes front v.conn.isErrorResponse

/-- The request parser was fed these bytes, and none of them ended the request. -/
def View.RequestedWith (v : View) (front : List UInt8) : Prop :=
  ∃ junk, v.conn.connReqParser = some (feedAll connReqParserFeed (connReqParserInit junk) front) ∧
    (connReqParserInit junk).Goes front

/-- The parser of the phase was fed what was taken in it. -/
def View.Fed (v : View) : Prop :=
  match v.phase with
  | none => v.Reads (· = []) ∧ v.conn.outBuff.content = []
  | some .handshake => v.Reads v.GreetedWith
  | some .auth => milestones v.history ≠ [] ∧ v.Reads fun front =>
      ∃ junk, v.conn.authParser = some (feedAll authParserFeed (authParserInit junk) front)
  | some .connectionReq => v.conn.isErrorResponse = false → v.Reads v.RequestedWith
  | some .connecting | some .copy | some .done | some .error => True

/-- The outcome of a callback: decisions that are spelled out, and a parser that follows. -/
def Result.Intake : Result → Prop
  | .alive w => w.Fed ∧ Spelled w.history
  | .gone history => Spelled history

section Sending

variable {s : Server} {c : ConnId} {v w u : View} {junk : Memory} {fds : ℕ → Item}
  {out : SendOutcome} {r : Result}

/-- A change of the view that the parser of the phase does not see. -/
theorem View.Reads.of_eq {fed : List UInt8 → Prop} (h : v.Reads fed)
    (htaken : phaseBytes w.history = phaseBytes v.history)
    (hbuff : w.conn.inBuff.content = v.conn.inBuff.content) : w.Reads fed := by
  obtain ⟨front, hfront, hfed⟩ := h
  exact ⟨front, by rw [htaken, hbuff, hfront], hfed⟩

/-- A phase entered with nothing left to read starts with a parser that was fed nothing. -/
theorem View.Reads.fresh {fed : List UInt8 → Prop} (htaken : phaseBytes w.history = [])
    (hempty : w.conn.inBuff.content = []) (hfed : fed []) : w.Reads fed :=
  ⟨[], by rw [htaken, hempty, List.append_nil], hfed⟩

/-- The greeting a method was chosen for. -/
theorem Concludes.greeting {front : List UInt8} (h : Concludes front false)
    (herror : .error ∉ verdicts handshakeParserFeed handshakeParserInit front) :
    ∃ n methods, IsGreeting n methods front ∧
      if (feedAll handshakeParserFeed handshakeParserInit front).userPassAuth = true then
        SOCKS5_AUTH_METHOD_USER_PASS ∈ methods
      else SOCKS5_AUTH_METHOD_NO_AUTH ∈ methods ∧
        SOCKS5_AUTH_METHOD_USER_PASS ∉ methods.take n.toNat := by
  obtain ⟨hdone, hrefuses⟩ := h
  have hflags := hrefuses rfl
  have hreads := reads_feedAll front
  rw [HandshakeParser.refuses] at hflags
  cases hreads with
  | version _ hnone | nmethods _ hnone | error _ _ hnone =>
    rw [hnone.1, hnone.2] at hflags
    cases hflags
  | methods n methods _ hnoAuth huserPass =>
    obtain ⟨hlong, hoffered⟩ := greeting_of_done hdone herror
    refine ⟨n, methods, ⟨rfl, hlong⟩, ?_⟩
    split
    · rename_i huser
      exact huserPass huser
    · rename_i huser
      exact ⟨hnoAuth (by simpa [huser] using hflags), fun hmem => huser (hoffered hmem)⟩

/-- The write handler of a phase that has read all there was. -/
theorem Advance.intake (h : Advance c junk fds w r) (hspelled : Spelled w.history)
    (hempty : w.phase = some .handshake ∨ w.phase = some .auth → w.conn.inBuff.content = [])
    (hauth : w.phase = some .auth → milestones w.history ≠ [])
    (hgreeted : w.phase = some .handshake → w.Reads fun front =>
      w.conn.handshakeParser = some (feedAll handshakeParserFeed handshakeParserInit front) ∧
        .error ∉ verdicts handshakeParserFeed handshakeParserInit front ∧
        Concludes front w.conn.isErrorResponse) : r.Intake := by
  cases h with
  | refused state _ _ _ => exact hspelled.append (by simp [Obs.Spelled])
  | auth p hphase herror hparser hmethod =>
    have hnil := hempty (.inl hphase)
    obtain ⟨front, hfront, hp, hvalid, hconcludes⟩ := hgreeted hphase
    rw [herror] at hconcludes
    obtain ⟨n, methods, hgreeting, hoffered⟩ := hconcludes.greeting hvalid
    obtain rfl := Option.some.inj (hparser.symm.trans hp)
    rw [if_pos hmethod] at hoffered
    rw [hnil, List.append_nil] at hfront
    refine ⟨⟨?_, ?_⟩, hspelled.snoc ⟨n, methods, hfront ▸ hgreeting, hoffered⟩⟩
    · simp [Obs.isMilestone]
    · exact .fresh (phaseBytes_append _ _) hnil ⟨junk, rfl⟩
  | connectionReq state hphase herror hstate =>
    have hnil : w.conn.inBuff.content = [] := by
      rcases hstate with rfl | ⟨rfl, -⟩
      · exact hempty (.inr hphase)
      · exact hempty (.inl hphase)
    have hbuff : (w.depart state).conn.inBuff = w.conn.inBuff := by
      rcases hstate with rfl | ⟨rfl, -⟩
      · rfl
      · rfl
    refine ⟨fun _ => .fresh (phaseBytes_append _ _) ?_ ⟨junk, rfl, goes_nil _⟩, hspelled.snoc ?_⟩
    · exact (congrArg Buffer.content hbuff).trans hnil
    · rcases hstate with rfl | ⟨rfl, p, hparser, hmethod⟩
      · exact fun hnone => absurd hnone (hauth hphase)
      · obtain ⟨front, hfront, hp, hvalid, hconcludes⟩ := hgreeted hphase
        rw [herror] at hconcludes
        obtain ⟨n, methods, hgreeting, hoffered⟩ := hconcludes.greeting hvalid
        obtain rfl := Option.some.inj (hparser.symm.trans hp)
        rw [if_neg (by simp [hmethod])] at hoffered
        rw [hnil, List.append_nil] at hfront
        exact fun _ => ⟨n, methods, hfront ▸ hgreeting, hoffered⟩
  | copy state relay _ _ _ _ => exact ⟨trivial, hspelled.snoc trivial⟩

/-- Two views that differ in nothing that was fed. -/
structure View.SameIntake (v w : View) : Prop where
  phase : w.phase = v.phase
  inBuff : w.conn.inBuff.content = v.conn.inBuff.content
  outBuff : w.conn.outBuff.content ≠ [] → v.conn.outBuff.content ≠ []
  handshakeParser : w.conn.handshakeParser = v.conn.handshakeParser
  authParser : w.conn.authParser = v.conn.authParser
  connReqParser : w.conn.connReqParser = v.conn.connReqParser
  isErrorResponse : w.conn.isErrorResponse = v.conn.isErrorResponse
  phaseBytes : phaseBytes w.history = phaseBytes v.history
  milestones : milestones v.history ≠ [] → milestones w.history ≠ []

/-- A view of the same intake is fed the same. -/
theorem View.Fed.of_same (h : v.Fed) (hsame : View.SameIntake v w) : w.Fed := by
  have hreads : ∀ {fed : List UInt8 → Prop}, v.Reads fed → w.Reads fed :=
    fun h => h.of_eq hsame.phaseBytes hsame.inBuff
  simp only [View.Fed, hsame.phase] at h ⊢
  split at h
  · obtain ⟨hnone, hout⟩ := h
    exact ⟨hreads hnone, by_contra fun hleft => hsame.outBuff hleft hout⟩
  · obtain ⟨front, hfront, hparser, herror, hreply⟩ := hreads h
    refine ⟨front, hfront, hsame.handshakeParser.trans hparser, herror, fun hleft => ?_⟩
    rw [hsame.isErrorResponse]
    exact hreply (hsame.outBuff hleft)
  · obtain ⟨hmarks, hfed⟩ := h
    refine ⟨hsame.milestones hmarks, ?_⟩
    rw [hsame.authParser]
    exact hreads hfed
  · intro herror
    obtain ⟨front, hfront, junk, hparser, hgoes⟩ := hreads (h (hsame.isErrorResponse.symm.trans herror))
    exact ⟨front, hfront, junk, hsame.connReqParser.trans hparser, hgoes⟩
  all_goals trivial

/-- Sending, where a phase that is left then has read all there was. -/
theorem Wrote.intake (h : Wrote c junk fds v out r) (hfed : v.Fed) (hspelled : Spelled v.history)
    (hempty : v.conn.outBuff.content ≠ [] → (∃ n, out = .accepted n) →
      v.phase = some .handshake ∨ v.phase = some .auth → v.conn.inBuff.content = []) :
    r.Intake := by
  have hsent : ∀ bytes, Spelled (v.history ++ [.send c .client bytes]) :=
    fun bytes => hspelled.snoc trivial
  cases h with
  | idle hnone =>
    exact ⟨hfed.of_same ⟨rfl, rfl, id, rfl, rfl, rfl, rfl, rfl, id⟩, hspelled⟩
  | blocked hleft hout => exact ⟨hfed, hspelled⟩
  | broken err hleft hout he => exact hspelled.append (by simp [Obs.Spelled])
  | relayed n left hleft hout hphase hcontent hcapacity =>
    refine ⟨?_, hsent _⟩
    have hcopy : (v.sent c n left).phase = some .copy := hphase
    simp only [View.Fed, hcopy]
  | advanced n left r hleft hout hcontent hcapacity hadvance =>
    refine hadvance.intake (hsent _) (hempty hleft ⟨n, hout⟩) (fun hauth => ?_)
      (fun hgreeting => ?_)
    · have hphase : v.phase = some .auth := hauth
      simp only [View.Fed, hphase] at hfed
      simpa [View.sent, Obs.isMilestone] using hfed.1
    · have hphase : v.phase = some .handshake := hgreeting
      simp only [View.Fed, hphase] at hfed
      obtain ⟨front, hfront, hparser, herror, hreply⟩ := hfed
      refine ⟨front, ?_, hparser, herror, hreply hleft⟩
      rw [View.sent, phaseBytes_append]
      exact hfront

/-- A reply to the greeting of which nothing was sent leaves the phase as it was, else it closes
the parser. -/
theorem Wrote.greeting_or_closed (h : Wrote c junk fds v out (.alive u))
    (hphase : v.phase = some .handshake) :
    u.phase = some .handshake ∧
        (v.conn.outBuff.content ≠ [] → ¬ ∃ n, out = .accepted n) ∨
      u.conn.handshakeParser = none ∧ u.conn.inBuff.content = v.conn.inBuff.content := by
  cases h with
  | idle hnone => exact .inl ⟨hphase, fun hleft => absurd hnone hleft⟩
  | blocked hleft hout =>
    refine .inl ⟨hphase, fun _ => ?_⟩
    rintro ⟨n, rfl⟩
    simp at hout
  | relayed n left _ _ hcopy =>
    rw [hphase] at hcopy
    cases hcopy
  | advanced n left r hleft hout hcontent hcapacity hadvance =>
    cases hadvance with
    | auth p _ _ _ _ => exact .inr ⟨rfl, rfl⟩
    | connectionReq state hstate _ _ =>
      obtain rfl := Option.some.inj (hphase.symm.trans hstate)
      exact .inr ⟨rfl, rfl⟩
    | copy state relay hstate _ hcopy =>
      obtain rfl := Option.some.inj (hphase.symm.trans hstate)
      simp at hcopy

/-- Queueing a reply takes no byte. -/
theorem Queued.phaseBytes {kind : ReplyKind} {bytes : List UInt8} (h : Queued c kind bytes v w) :
    phaseBytes w.history = phaseBytes v.history := by
  cases h with
  | queued buff _ _ _ _ => exact phaseBytes_append _ _
  | dropped _ => rfl

/-- Queueing a reply is spelled out if its refusal is. -/
theorem Queued.spelled {kind : ReplyKind} {bytes : List UInt8} (h : Queued c kind bytes v w)
    (hspelled : Spelled v.history) (hqueued : (Obs.queued c kind bytes).Spelled v.history) :
    Spelled w.history := by
  cases h with
  | queued buff _ _ _ _ => exact hspelled.snoc hqueued
  | dropped _ => exact hspelled

/-- Resetting `in_buff` decides nothing. -/
theorem Spelled.reset (h : Spelled v.history) : Spelled (v.reset c).history := by
  refine h.append fun o ho before => ?_
  split at ho
  · cases ho
  · obtain rfl := List.mem_singleton.mp ho
    trivial

end Sending

section Reading

variable {s : Server} {c : ConnId} {v w u : View} {junk : Memory} {fds : ℕ → Item} {env : Env}
  {out : SendOutcome} {r : Result} {malformed : Bool}

/-- Bytes that arrive are taken, and wait in `in_buff`. -/
theorem View.Reads.received {fed : List UInt8 → Prop} (h : v.Reads fed) {buff : Buffer}
    {bytes : List UInt8} (hcontent : buff.content = v.conn.inBuff.content ++ bytes) :
    (v.received c buff bytes).Reads fed := by
  obtain ⟨front, hfront, hfed⟩ := h
  refine ⟨front, ?_, hfed⟩
  have htaken : phaseBytes (v.received c buff bytes).history = phaseBytes v.history ++ bytes :=
    phaseBytes_append _ _
  have hbuff : (v.received c buff bytes).conn.inBuff.content = buff.content := rfl
  rw [htaken, hbuff, hcontent, hfront, List.append_assoc]

/-- Bytes that are received wait in `in_buff`. -/
theorem View.Fed.received (h : v.Fed) {buff : Buffer} {bytes : List UInt8}
    (hcontent : buff.content = v.conn.inBuff.content ++ bytes) : (v.received c buff bytes).Fed := by
  have hphase : (v.received c buff bytes).phase = v.phase := rfl
  simp only [View.Fed, hphase] at h ⊢
  split at h
  · exact ⟨h.1.received hcontent, h.2⟩
  · obtain ⟨front, hfront, hparser, herror, hreply⟩ := View.Reads.received (c := c) h hcontent
    exact ⟨front, hfront, hparser, herror, hreply⟩
  · exact ⟨by simpa [View.received, Obs.isMilestone] using h.1, h.2.received hcontent⟩
  · intro herror
    obtain ⟨front, hfront, junk, hparser, hgoes⟩ := View.Reads.received (c := c) (h herror) hcontent
    exact ⟨front, hfront, junk, hparser, hgoes⟩
  all_goals trivial

/-- A read loop only stops at once when the parser is closed. -/
theorem HandshakeReads.of_closed {sends : List SendOutcome}
    (h : HandshakeReads c junk v sends w malformed) (hclosed : v.conn.handshakeParser = none) :
    v.conn.inBuff.content = [] := by
  cases h with
  | idle _ _ hempty => exact hempty
  | fed _ _ _ _ p _ _ _ _ hparser => simp [hclosed] at hparser
  | malformed _ _ p _ _ _ hparser => simp [hclosed] at hparser
  | replied _ _ _ _ _ _ _ p _ _ _ hparser => simp [hclosed] at hparser

/-- A byte more may conclude a message. -/
theorem Concludes.snoc {front : List UInt8} {refusing : Bool} (h : Concludes front refusing)
    (byte : UInt8) : Concludes (front ++ [byte]) refusing := by
  obtain ⟨hdone, hrefuses⟩ := h
  refine ⟨by rw [verdicts_concat]; exact List.mem_append_left _ hdone, fun hfalse => ?_⟩
  obtain ⟨hnoAuth, huserPass⟩ :=
    flags_feed (feedAll handshakeParserFeed handshakeParserInit front) byte
  have hflags := hrefuses hfalse
  simp only [HandshakeParser.refuses, Bool.not_eq_false', Bool.or_eq_true] at hflags ⊢
  rw [feedAll_concat]
  exact hflags.imp hnoAuth huserPass

/-- One more byte, which does not make the greeting malformed. -/
theorem View.GreetedWith.fed {front : List UInt8} (h : v.GreetedWith front) {byte : UInt8}
    {p : HandshakeParser} {state : HandshakeState} (hstate : state ≠ .error)
    (hfeed : handshakeParserFeed (feedAll handshakeParserFeed handshakeParserInit front) byte =
      (p, state)) (inBuff : Buffer) : (v.greeted inBuff p).GreetedWith (front ++ [byte]) where
  parser := by
    rw [feedAll_concat, hfeed]
    rfl
  error := by
    rw [verdicts_concat, hfeed, List.mem_append, List.mem_singleton]
    exact not_or.mpr ⟨h.error, hstate.symm⟩
  reply hleft := (h.reply hleft).snoc byte

/-- The loop over a greeting. -/
theorem HandshakeReads.intake {sends : List SendOutcome}
    (h : HandshakeReads c junk v sends w malformed) (hfed : v.Fed) (hspelled : Spelled v.history)
    (hphase : v.phase = some .handshake ∨ v.conn.handshakeParser = none) :
    (w.finish c malformed).Intake := by
  induction h with
  | idle v sends hempty => exact ⟨hfed, hspelled⟩
  | fed v w sends malformed p p' byte state inBuff hparser hcontent hcapacity hfeed hstate _ ih =>
    have hgreeting := hphase.resolve_right fun hnone => by simp [hnone] at hparser
    simp only [View.Fed, hgreeting] at hfed
    obtain ⟨front, hfront, hgreeted⟩ := hfed
    obtain rfl := Option.some.inj (hparser.symm.trans hgreeted.parser)
    have hnext : (v.greeted inBuff p').phase = some .handshake := hgreeting
    refine ih ?_ hspelled (.inl hnext)
    simp only [View.Fed, hnext]
    refine ⟨front ++ [byte], ?_, hgreeted.fed hstate.2 hfeed inBuff⟩
    simpa [View.greeted, hcontent] using hfront
  | malformed v sends p p' byte inBuff _ _ _ _ =>
    exact hspelled.append (by simp [Obs.Spelled])
  | replied fds v w u x sends malformed p p' byte inBuff hparser hcontent hcapacity hfeed hqueued
      hwrote hrest ih =>
    have hgreeting := hphase.resolve_right fun hnone => by simp [hnone] at hparser
    simp only [View.Fed, hgreeting] at hfed
    obtain ⟨front, hfront, hgreeted⟩ := hfed
    obtain rfl := Option.some.inj (hparser.symm.trans hgreeted.parser)
    obtain ⟨hconn, -, hwphase, -⟩ := hqueued.fields
    have hanswering : (w.answering p'.refuses).phase = some .handshake := hwphase.trans hgreeting
    have hgreeted' := hgreeted.fed (by simp) hfeed inBuff
    have hanswered : (w.answering p'.refuses).GreetedWith (front ++ [byte]) := by
      refine ⟨?_, hgreeted'.error, fun _ => ⟨?_, ?_⟩⟩
      · simp only [View.answering]
        rw [hconn]
        exact hgreeted'.parser
      · rw [verdicts_concat, hfeed]
        simp
      · rw [feedAll_concat, hfeed]
        exact id
    have hinBuff : (w.answering p'.refuses).conn.inBuff = inBuff := by
      simp only [View.answering]
      rw [hconn]
      rfl
    have hu : (Result.alive u).Intake := by
      refine hwrote.intake ?_ (hqueued.spelled hspelled trivial) fun hleft hout _ => ?_
      · simp only [View.Fed, hanswering]
        refine ⟨front ++ [byte], ?_, hanswered⟩
        have htaken : phaseBytes (w.answering p'.refuses).history = phaseBytes v.history :=
          hqueued.phaseBytes
        rw [htaken, hinBuff, hfront, hcontent, List.append_assoc, List.singleton_append]
      · rcases hwrote.greeting_or_closed hanswering with ⟨-, hblocked⟩ | ⟨hclosed, hsame⟩
        · exact absurd hout (hblocked hleft)
        · rw [← hsame]
          exact hrest.of_closed hclosed
    exact ih hu.1 hu.2 ((hwrote.greeting_or_closed hanswering).imp And.left And.left)

/-- What is thrown away was taken last. -/
theorem phaseBytes_reset {front : List UInt8}
    (h : phaseBytes v.history = front ++ v.conn.inBuff.content) :
    phaseBytes (v.reset c).history = front := by
  by_cases hempty : v.conn.inBuff.content = []
  · simpa [View.reset, hempty] using h
  · simp [View.reset, hempty, phaseBytes_append, Obs.taking, h]

/-- The loop over a sub-negotiation. -/
theorem AuthReads.intake {users : UserTable} (h : AuthReads c users junk out v w malformed)
    (hphase : v.phase = some .auth) (hfed : v.Fed) (hspelled : Spelled v.history) :
    (w.finish c malformed).Intake := by
  induction h with
  | idle v hempty => exact ⟨hfed, hspelled⟩
  | fed v w malformed p p' byte state inBuff hparser hcontent hcapacity hfeed hstate _ ih =>
    have hnext : (v.subnegotiated inBuff p').phase = some .auth := hphase
    simp only [View.Fed, hphase] at hfed
    obtain ⟨hmarks, front, hfront, junk₀, hfed⟩ := hfed
    obtain rfl := Option.some.inj (hparser.symm.trans hfed)
    refine ih hnext ?_ hspelled
    simp only [View.Fed, hnext]
    refine ⟨hmarks, front ++ [byte], ?_, junk₀, ?_⟩
    · simpa [View.subnegotiated, hcontent] using hfront
    · rw [feedAll_concat, hfeed]
      rfl
  | malformed v p p' byte inBuff _ _ _ _ => exact hspelled.append (by simp [Obs.Spelled])
  | judged fds v w u p p' byte inBuff hparser hcontent hcapacity hfeed hqueued hwrote =>
    simp only [View.Fed, hphase] at hfed
    obtain ⟨hmarks, front, hfront, junk₀, hfed⟩ := hfed
    obtain rfl := Option.some.inj (hparser.symm.trans hfed)
    obtain ⟨hconn, -, hwphase, -⟩ := hqueued.fields
    have htaken : phaseBytes v.history = front ++ [byte] ++ inBuff.content := by
      rw [hfront, hcontent, List.append_assoc, List.singleton_append]
    have hlooked : Spelled ((v.subnegotiated inBuff p').lookedUp c (p'.accepted users)).history := by
      obtain ⟨name, pass, rest, hname, hpass, hmessage⟩ := authMessage_of_done hfeed
      refine hspelled.snoc ⟨name, pass, rest ++ inBuff.content, hname, hpass, ?_⟩
      rw [← List.append_assoc, ← hmessage]
      exact htaken
    have hmarks' : milestones w.history ≠ [] := by
      cases hqueued with
      | queued buff _ _ _ _ => simp [View.lookedUp, Obs.isMilestone]
      | dropped _ => simp [View.lookedUp, Obs.isMilestone]
    have hinBuff : w.conn.inBuff = inBuff := by
      rw [hconn]
      rfl
    have hleft : phaseBytes (w.reset c).history = front ++ [byte] := by
      refine phaseBytes_reset ?_
      rw [hqueued.phaseBytes, hinBuff, ← htaken]
      exact phaseBytes_append _ _
    have hreset : Spelled (w.reset c).history := Spelled.reset (hqueued.spelled hlooked trivial)
    have hjudging : (w.judged c (p'.accepted users) p'.name).phase = some .auth :=
      hwphase.trans hphase
    refine hwrote.intake ?_ hreset fun _ _ _ => content_bufferReset _
    simp only [View.Fed, hjudging]
    refine ⟨?_, front ++ [byte], ?_, junk₀, ?_⟩
    · rw [← milestones_reset w c] at hmarks'
      exact hmarks'
    · exact hleft.trans (by simp [View.judged, View.reset])
    · rw [feedAll_concat, hfeed]
      change w.conn.authParser = some p'
      rw [hconn]
      rfl

/-- The loop over a request. -/
theorem ConnReqReads.intake {scan : RequestScan} (h : ConnReqReads v w scan)
    (hreads : v.Reads v.RequestedWith) : (scan = .more → w.Reads w.RequestedWith) ∧
      ∀ p, scan = .complete p → IsCommand p.cmd ∧ BeginsRequest p.cmd (phaseBytes w.history) := by
  induction h with
  | more v hempty => exact ⟨fun _ => hreads, by simp⟩
  | fed v w scan p p' byte state inBuff hparser hcontent hcapacity hfeed hstate _ ih =>
    obtain ⟨front, hfront, junk₀, hfed, hgoes⟩ := hreads
    obtain rfl := Option.some.inj (hparser.symm.trans hfed)
    refine ih ⟨front ++ [byte], ?_, junk₀, ?_, ?_⟩
    · simpa [View.scanned, hcontent] using hfront
    · rw [feedAll_concat, hfeed]
      rfl
    · exact hgoes.append (ConnReqParser.goes_byte (congrArg Prod.snd hfeed) hstate)
  | malformed v p p' byte inBuff _ _ _ _ => simp
  | complete v p p' byte inBuff hparser hcontent hcapacity hfeed =>
    obtain ⟨front, hfront, junk₀, hfed, hgoes⟩ := hreads
    obtain rfl := Option.some.inj (hparser.symm.trans hfed)
    obtain ⟨atyp, len, addr, high, low, hcmd, hannounces, haddr, hbytes⟩ :=
      request_of_end hgoes hfeed
    refine ⟨by simp, fun q hq => ?_⟩
    obtain rfl := RequestScan.complete.inj hq
    refine ⟨hcmd, atyp, len, addr, high, low, inBuff.content, hannounces, haddr, ?_⟩
    change phaseBytes v.history = _
    rw [← hbytes, hfront, hcontent, List.append_assoc, List.singleton_append]

/-- What a client read in the request phase comes to. -/
theorem Requests.intake (h : Requests c junk env v r) (hphase : v.phase = some .connectionReq)
    (herror : v.conn.isErrorResponse = false) (hparser : v.conn.connReqParser.isSome = true)
    (hfed : v.Fed) (hspelled : Spelled v.history) : r.Intake := by
  simp only [View.Fed, hphase] at hfed
  have hreads := hfed herror
  have hhistory : ∀ {w scan}, ConnReqReads v w scan →
      w.history = v.history ∧ w.phase = some .connectionReq := by
    intro w scan hscan
    obtain ⟨hview, -⟩ := hscan.fields hparser
    exact ⟨by rw [hview], by rw [hview]; exact hphase⟩
  cases h with
  | more w hscan =>
    obtain ⟨hsame, hw⟩ := hhistory hscan
    refine ⟨?_, hsame ▸ hspelled⟩
    simp only [View.Fed, hw]
    exact fun _ => (hscan.intake hreads).1 rfl
  | malformed w hscan =>
    exact Spelled.append ((hhistory hscan).1 ▸ hspelled) (by simp [Obs.Spelled])
  | unsupported w u p hscan hcmd hqueued =>
    obtain ⟨hsame, hw⟩ := hhistory hscan
    obtain ⟨hcommand, hbegins⟩ := (hscan.intake hreads).2 p rfl
    refine ⟨?_, hqueued.spelled (hsame ▸ hspelled) fun _ => ⟨p.cmd, hcommand, hcmd, hbegins⟩⟩
    have hu : u.phase = some .connectionReq := hqueued.fields.2.2.1.trans hw
    simp [View.Fed, hu]
  | noThread w p hscan hcmd _ _ =>
    have hbegins := ((hscan.intake hreads).2 p rfl).2
    rw [hcmd] at hbegins
    have hrequest : Spelled (w.history ++ [.request c]) :=
      Spelled.snoc ((hhistory hscan).1 ▸ hspelled) hbegins
    have hgone := hrequest.append (t := [.enter c .error, .released c]) (by simp [Obs.Spelled])
    simpa [Result.Intake] using hgone
  | threaded w p hscan hcmd _ _ =>
    have hbegins := ((hscan.intake hreads).2 p rfl).2
    rw [hcmd] at hbegins
    have hrequest : Spelled (w.history ++ [.request c]) :=
      Spelled.snoc ((hhistory hscan).1 ▸ hspelled) hbegins
    exact ⟨trivial, hrequest.snoc trivial⟩
  | looked w p hscan hcmd _ =>
    have hbegins := ((hscan.intake hreads).2 p rfl).2
    rw [hcmd] at hbegins
    have hrequest : Spelled (w.history ++ [.request c]) :=
      Spelled.snoc ((hhistory hscan).1 ▸ hspelled) hbegins
    exact ⟨trivial, Spelled.snoc (hrequest.snoc (o := .lookup c _ _) trivial) trivial⟩

/-- A client read keeps the account when the read handler of its phase does. -/
theorem ClientRead.intake {Q : View → Result → Prop} (h : ClientRead c v env Q r) (hfed : v.Fed)
    (hspelled : Spelled v.history)
    (hread : ∀ buff bytes, Q (v.received c buff bytes) r → (v.received c buff bytes).Fed →
      Spelled (v.received c buff bytes).history → r.Intake) : r.Intake := by
  cases h with
  | full hfull =>
    exact ⟨hfed.of_same ⟨rfl, rfl, id, rfl, rfl, rfl, rfl, rfl, id⟩, hspelled⟩
  | ended hspace _ => exact hspelled.append (by simp [Obs.Spelled])
  | blocked hspace _ => exact ⟨hfed, hspelled⟩
  | broken err hspace _ he => exact hspelled.append (by simp [Obs.Spelled])
  | handled first rest buff r hspace _ hcontent hcapacity hQ =>
    exact hread buff _ hQ (hfed.received hcontent) (hspelled.snoc trivial)

/-- What a client read in the greeting phase comes to. -/
theorem Greets.intake (h : Greets c junk env v r) (hfed : v.Fed) (hspelled : Spelled v.history)
    (hphase : v.phase = none ∨ v.phase = some .handshake) : r.Intake := by
  cases h with
  | reads w malformed hreads =>
    rcases hphase with hphase | hphase
    · simp only [View.Fed, hphase] at hfed
      obtain ⟨⟨front, hfront, rfl⟩, hnone⟩ := hfed
      simp only [View.begun, hphase] at hreads
      refine hreads.intake ?_ (hspelled.snoc trivial) (.inl rfl)
      refine ⟨[], (phaseBytes_append _ _).trans hfront, rfl, by simp, fun hleft => ?_⟩
      exact absurd hnone hleft
    · have hbegun : v.begun c = v := by simp [View.begun, hphase]
      rw [hbegun] at hreads
      exact hreads.intake hfed hspelled (.inl hphase)

end Reading

section Relaying

variable {s : Server} {c : ConnId} {v w : View} {junk : Memory} {fds : ℕ → Item} {env : Env}
  {out : SendOutcome} {r : Result} {e : Event} {fd : ℕ}

/-- Once the request was accepted no parser is fed. -/
theorem View.fed_of_accepted (h : v.phase = some .connecting ∨ v.phase = some .copy) : v.Fed := by
  rcases h with h | h
  · simp only [View.Fed, h]
  · simp only [View.Fed, h]

/-- A write to the origin keeps the account. -/
theorem CopyWrote.intake (h : CopyWrote c v out r) (hphase : v.phase = some .copy)
    (hspelled : Spelled v.history) : r.Intake := by
  cases h with
  | idle hempty => exact ⟨View.fed_of_accepted (.inr hphase), hspelled⟩
  | blocked hleft hout => exact ⟨View.fed_of_accepted (.inr hphase), hspelled⟩
  | delivered n left hleft hout hcontent hcapacity =>
    exact ⟨View.fed_of_accepted (.inr hphase), hspelled.snoc trivial⟩
  | broken hleft hout => exact hspelled.append (by simp [Obs.Spelled])

/-- Passing on what the client sent keeps the account. -/
theorem CopyRead.intake (h : CopyRead c s v out r) (hphase : v.phase = some .copy)
    (hspelled : Spelled v.history) : r.Intake := by
  cases h with
  | unregistered hunreg => exact hspelled.append (by simp [Obs.Spelled])
  | relayed r hreg hout hwrote => exact hwrote.intake hphase hspelled

/-- Sending in the relay phase. -/
theorem Wrote.intake_of_copy (h : Wrote c junk fds v out r) (hphase : v.phase = some .copy)
    (hspelled : Spelled v.history) : r.Intake :=
  h.intake (View.fed_of_accepted (.inr hphase)) hspelled fun _ _ hother => by simp [hphase] at hother

/-- Passing on what the origin sent keeps the account. -/
theorem CopyReceived.intake (h : CopyReceived c junk v env r) (hphase : v.phase = some .copy)
    (hspelled : Spelled v.history) : r.Intake := by
  cases h with
  | full hfull => exact ⟨View.fed_of_accepted (.inr hphase), hspelled⟩
  | received table first rest buff r hspace hrecv hcontent hcapacity hwrote =>
    exact hwrote.intake_of_copy hphase (hspelled.snoc trivial)
  | ended hspace hrecv => exact ⟨View.fed_of_accepted (.inr hphase), hspelled.snoc trivial⟩
  | blocked hspace hrecv => exact ⟨View.fed_of_accepted (.inr hphase), hspelled⟩
  | broken err hspace hrecv he => exact hspelled.append (by simp [Obs.Spelled])

/-- A walk over the resolved addresses decides nothing. -/
theorem dialHistory_undecided (c : ConnId) (fd : ℕ) (addrs : List AddrInfo)
    (outcomes : List ConnectOutcome) :
    ∀ o ∈ dialHistory c fd addrs outcomes, ∀ before, o.Spelled before := by
  induction addrs generalizing outcomes with
  | nil => simp [dialHistory]
  | cons rp next ih =>
    simp only [dialHistory]
    cases outcomes.headD (.failed .econnrefused) with
    | socketFails err => simp [Obs.Spelled]
    | connected => simp [Obs.Spelled]
    | failed err =>
      by_cases he : err = .einprogress
      · simp [he, Obs.Spelled]
      · simpa [he, Obs.Spelled] using ih outcomes.tail

/-- A reply that does not blame the command. -/
theorem Queued.spelled_answer {status : UInt8} {bytes : List UInt8}
    (h : Queued c (.connReq status) bytes v w) (hspelled : Spelled v.history)
    (hstatus : status ≠ SOCKS5_REP_COMMAND_NOT_SUPPORTED) : Spelled w.history :=
  h.spelled hspelled fun hblamed => absurd hblamed hstatus

/-- A failed connect is not answered as a refused command. -/
theorem getCode_ne_command (err : Errno) : getCode err ≠ SOCKS5_REP_COMMAND_NOT_SUPPORTED := by
  cases err with
  | other code =>
    exact (by decide : SOCKS5_REP_HOST_UNREACHABLE ≠ SOCKS5_REP_COMMAND_NOT_SUPPORTED)
  | _ => decide

/-- Entering the relay decides nothing. -/
theorem EntersCopy.spelled (h : EntersCopy c fds v w) (hspelled : Spelled v.history) :
    Spelled w.history := by
  cases h with
  | already hphase => exact hspelled
  | jumps relay hphase hrelay => exact hspelled.snoc trivial

/-- What a notification comes to. -/
theorem Blocks.intake (h : Blocks c junk env fds fd v r) (hphase : v.phase = some .connecting)
    (hspelled : Spelled v.history) : r.Intake := by
  cases h with
  | noAddress w hnone hqueued =>
    have hregistered : Spelled (v.registered c SOCKS5_REP_HOST_UNREACHABLE env.now).history :=
      hspelled.snoc trivial
    have hmarks : milestones w.history ≠ [] := by
      cases hqueued with
      | queued buff _ _ _ _ => simp [View.registered, Obs.isMilestone]
      | dropped _ => simp [View.registered, Obs.isMilestone]
    have hw := hqueued.spelled_answer hregistered (by decide)
    have hentered : Spelled (w.history ++ [.enter c .connectionReq]) :=
      hw.snoc fun hnil => absurd hnil hmarks
    refine ⟨fun herror => ?_, hentered⟩
    simp at herror
  | pending peer rest hdial =>
    exact ⟨View.fed_of_accepted (.inl hphase), hspelled.append (dialHistory_undecided _ _ _ _)⟩
  | established peer w x y hdial hqueued hwrote hcopy =>
    have hdialed : Spelled (v.dialed c fd env.connects none).history :=
      hspelled.append (dialHistory_undecided _ _ _ _)
    have hw := hqueued.spelled_answer (hdialed.snoc trivial) (by decide)
    have hwphase : w.phase = some .connecting := hqueued.fields.2.2.1.trans hphase
    have hx : (Result.alive x).Intake :=
      hwrote.intake (View.fed_of_accepted (.inl hwphase)) (Spelled.reset hw) fun _ _ hother => by
        have hsucceeding : (w.succeeding c).phase = some .connecting := hwphase
        simp [hsucceeding] at hother
    exact ⟨View.fed_of_accepted (.inr hcopy.copy), hcopy.spelled hx.2⟩

/-- What the end of a pending connect comes to. -/
theorem Connects.intake (h : Connects c junk env fds fd v r)
    (hphase : v.phase = some .connecting ∨ v.phase = some .copy) (hspelled : Spelled v.history) :
    r.Intake := by
  have hdialed : ∀ relay, Spelled (v.dialed c fd env.connects relay).history :=
    fun relay => hspelled.append (dialHistory_undecided _ _ _ _)
  cases h with
  | retried err relay _ _ _ _ _ => exact ⟨View.fed_of_accepted hphase, hdialed relay⟩
  | refused v₁ w err err' _ _ hfrom hqueued =>
    have hv₁ : Spelled v₁.history ∧ v₁.phase = v.phase := by
      rcases hfrom with ⟨-, rfl⟩ | ⟨-, -, relay, rfl⟩
      · exact ⟨hspelled, rfl⟩
      · exact ⟨hdialed relay, rfl⟩
    have hwphase : w.phase = v.phase := hqueued.fields.2.2.1.trans hv₁.2
    refine ⟨View.fed_of_accepted ?_, ?_⟩
    · exact hphase.imp hwphase.trans hwphase.trans
    · exact hqueued.spelled_answer (hv₁.1.snoc trivial) (getCode_ne_command err')
  | established table w r relay _ _ _ hqueued hwrote =>
    have hstanding : Spelled (v.standing c relay).history := by
      refine hspelled.append fun o ho before => ?_
      simp only [List.mem_append, List.mem_singleton] at ho
      rcases ho with ho | rfl
      · split at ho
        · cases ho
        · obtain rfl := List.mem_singleton.mp ho
          trivial
      · trivial
    have hw := hqueued.spelled_answer (hstanding.snoc trivial) (by decide)
    exact hwrote.intake_of_copy hqueued.fields.2.2.1 (Spelled.reset hw)

/-- Every reaction leaves the parser where the bytes taken put it, and decides what they spell. -/
theorem Reaction.intake (h : Reaction s c v e r) (hok : v.Ok c) (hfed : v.Fed)
    (hspelled : Spelled v.history) : r.Intake := by
  have hphaseOk := hok.phase
  cases h with
  | greets fd env r _ _ hphase hread =>
    exact hread.intake hfed hspelled fun buff bytes hgreets hfed' hspelled' =>
      hgreets.intake hfed' hspelled' hphase
  | authenticates fd env r _ _ hphase hread =>
    refine hread.intake hfed hspelled fun buff bytes hauth hfed' hspelled' => ?_
    cases hauth with
    | reads w malformed hreads => exact hreads.intake hphase hfed' hspelled'
  | requests fd env r _ hready hphase hread =>
    simp only [View.PhaseOk, hphase] at hphaseOk
    have herror := hphaseOk.not_refused hready
    exact hread.intake hfed hspelled fun buff bytes hrequests hfed' hspelled' =>
      hrequests.intake hphase herror hphaseOk.parser hfed' hspelled'
  | relays fd env r _ _ hphase hread =>
    exact hread.intake hfed hspelled fun buff bytes hcopy _ hspelled' =>
      hcopy.intake hphase hspelled'
  | sends table fd env r _ _ hwrote =>
    refine hwrote.intake hfed hspelled fun _ _ hphase => ?_
    rcases hphase with hphase | hphase
    · simp only [View.PhaseOk, hphase] at hphaseOk
      exact hphaseOk.1.inBuff
    · simp only [View.PhaseOk, hphase] at hphaseOk
      exact hphaseOk.early.inBuff
  | blocks env r hphase _ hblocks => exact hblocks.intake hphase (hspelled.snoc trivial)
  | resolves env hphase _ => exact ⟨View.fed_of_accepted (.inl hphase), hspelled.snoc trivial⟩
  | connects fd env r i _ _ hphase hconnects =>
    exact hconnects.intake (hphase.imp id And.left) hspelled
  | receives fd env r i _ _ _ hphase hreceived => exact hreceived.intake hphase hspelled
  | delivers fd env r i _ _ _ hphase hwrote => exact hwrote.intake hphase hspelled

end Relaying

section Runs

variable {s : Server} {c : ConnId} {v : View}

/-- A connection that was just accepted was fed nothing. -/
theorem View.Fresh.intake (h : v.Fresh) : v.Fed ∧ Spelled v.history := by
  rw [h.history]
  refine ⟨?_, spelled_nil⟩
  simp only [View.Fed, h.phase]
  exact ⟨⟨[], by simp [phaseBytes, h.history, h.early.inBuff], rfl⟩, h.outBuff⟩

/-- The account holds in every state a run reaches. -/
theorem Reachable.intake (h : Reachable s) :
    ∀ c v, s.view c = some v → v.Fed ∧ Spelled v.history := by
  refine ReachableUnder.views (P := fun _ v => v.Fed ∧ Spelled v.history) h ?_ ?_
  · exact fun c v hfresh => hfresh.intake
  · intro s e c v w hreach _ hview hv hreaction
    exact hreaction.intake (hreach.reachable.inv.ok c v hview) hv.1 hv.2

/-- The parser of the phase stands where a fresh one does after the bytes taken in the phase. A
greeting still being read is well formed so far, and whole once a reply is pending; a request still
being read has not ended. -/
structure View.Follows (v : View) : Prop where
  greeting : v.phase = some .handshake → v.GreetedWith (phaseBytes v.history)
  auth : v.phase = some .auth → ∃ junk, v.conn.authParser =
    some (feedAll authParserFeed (authParserInit junk) (phaseBytes v.history))
  request : v.phase = some .connectionReq → v.conn.isErrorResponse = false →
    v.RequestedWith (phaseBytes v.history)

/-- In every run the parser of the phase depends on the bytes the client sent only, not on how
`recv` cut them. -/
theorem parser_follows_stream (h : Reachable s) (hview : s.view c = some v) : v.Follows := by
  obtain ⟨hfed, -⟩ := h.intake c v hview
  have hphaseOk := (h.inv.ok c v hview).phase
  refine ⟨fun hphase => ?_, fun hphase => ?_, fun hphase herror => ?_⟩
  · simp only [View.Fed, View.PhaseOk, hphase] at hfed hphaseOk
    obtain ⟨front, hfront, hgreeted⟩ := hfed
    rw [hphaseOk.1.inBuff, List.append_nil] at hfront
    rwa [hfront]
  · simp only [View.Fed, View.PhaseOk, hphase] at hfed hphaseOk
    obtain ⟨-, front, hfront, hparser⟩ := hfed
    rw [hphaseOk.early.inBuff, List.append_nil] at hfront
    rwa [hfront]
  · simp only [View.Fed, View.PhaseOk, hphase] at hfed hphaseOk
    obtain ⟨front, hfront, hrequested⟩ := hfed herror
    have hempty : v.conn.inBuff.content = [] := by
      rcases hphaseOk.reply with ⟨-, hempty, -⟩ | ⟨htrue, -⟩
      · exact hempty
      · rw [herror] at htrue
        cases htrue
    rw [hempty, List.append_nil] at hfront
    rwa [hfront]

/-- A request of which the first five bytes have come, in two pieces. -/
theorem parser_follows_stream_pieces : ∃ (s : Server) (v : View), s.view 0 = some v ∧
    v.phase = some .connectionReq ∧ phaseBytes v.history = [5, 1, 0, 1, 127] ∧ v.Follows := by
  obtain ⟨s, hs, hcheck⟩ := reachable_of_after
    [arrives, greets 2, .readable 2 { recv := .data 5 [1] }, .readable 2 { recv := .data 0 [1, 127] }]
    (fun s => (s.view 0).any fun v =>
      v.phase == some .connectionReq && phaseBytes v.history == [5, 1, 0, 1, 127])
    (by decide +kernel)
  rw [Option.any_eq_true] at hcheck
  obtain ⟨v, hview, hcheck⟩ := hcheck
  rw [Bool.and_eq_true, beq_iff_eq, beq_iff_eq] at hcheck
  exact ⟨s, v, hview, hcheck.1, hcheck.2, parser_follows_stream hs hview⟩

/-- In every run what the server decides about a client was spelled out in the bytes it took from
that client before: a method in a whole greeting that offers it, a verdict on credentials in a whole
message, an accepted request in a whole CONNECT, a refused command in a whole request for another. -/
theorem decisions_spelled_out (h : Reachable s) (c : ConnId) : Spelled (s.history c) := by
  refine ReachableUnder.histories (P := fun _ v => v.Fed ∧ Spelled v.history)
    (Q := fun _ history => Spelled history) h (fun _ => spelled_nil) ?_ ?_ ?_ ?_ ?_ c
  · exact fun c => spelled_nil.snoc trivial
  · exact fun c v hfresh => hfresh.intake
  · exact fun c v hv => hv.2
  · intro s e c v w hreach _ hview hv hreaction
    exact hreaction.intake (hreach.reachable.inv.ok c v hview) hv.1 hv.2
  · intro s e c v history hreach _ hview hv hreaction
    exact hreaction.intake (hreach.reachable.inv.ok c v hview) hv.1 hv.2

/-- A client that was let in without authentication and whose request was accepted. -/
theorem decisions_spelled_out_accepted :
    ∃ s : Server, Obs.request 0 ∈ s.history 0 ∧ Spelled (s.history 0) := by
  obtain ⟨s, hs, hcheck⟩ := reachable_of_after [arrives, greets 2, asks 2 [loopback]]
    (fun s => decide (Obs.request 0 ∈ s.history 0)) (by decide +kernel)
  exact ⟨s, of_decide_eq_true hcheck, decisions_spelled_out hs 0⟩

end Runs

end Socks5d
