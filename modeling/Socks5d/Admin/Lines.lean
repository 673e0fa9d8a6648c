import Socks5d.Admin.Replies
import Socks5d.Lib.Lines
import Socks5d.Truncation

/-!
# Lines of an admin dialogue

`admin_read` looks for one newline each time it has received something. What a `recv` brings is
thus answered line by line as long as it brings one newline. Behind a second one the line stays
in `in_buff` until more bytes arrive, and without a newline the beginning of the line is thrown
away. How the lines are cut does not show in the replies otherwise, because a command sees
nothing of what its response area held.
-/

namespace Socks5d

open CStrings GuardedRun

/-- The bytes of a `recv` that brought some. -/
def AdminObs.arrived : AdminObs → Option (List UInt8)
  | .recv bytes => some bytes
  | _ => none

/-- All bytes received so far. -/
def AdminState.stream (s : AdminState) : List UInt8 := (s.trace.filterMap AdminObs.arrived).flatten

/-- The lines received so far. -/
def AdminState.lines (s : AdminState) : List CString := Lines.complete newline s.stream

/-- What lines lead to: the static record, the server data and the replies. -/
structure Transcript where
  parsed : S5adminCmdParsed
  data : ServerData
  replies : List (List UInt8)

/-- One more line is answered, in an area of its own. -/
def Transcript.answer (t : Transcript) (line : CString) : Transcript :=
  match configHandler t.parsed t.data line (List.replicate MAX_RESPONSE_LEN 0) with
  | .ok r => ⟨r.parsed, r.data, t.replies ++ [r.reply]⟩
  | .error _ => t

/-- Lines answered one after another. -/
def transcript (parsed : S5adminCmdParsed) (data : ServerData) (lines : List CString) : Transcript :=
  lines.foldl Transcript.answer ⟨parsed, data, []⟩

/-- What the connection has come to. -/
def AdminState.answered (s : AdminState) : Transcript := ⟨s.parsed, s.data, s.replies⟩

/-- Every line received has its reply, in order, and none is left in `in_buff`. -/
structure LineByLine (parsed : S5adminCmdParsed) (data : ServerData) (s : AdminState) : Prop where
  replies : s.replies = (transcript parsed data s.lines).replies
  each : s.replies.length = s.lines.length
  account : ∀ k, s.conn = some k → s.sent ++ k.outBuff.content = s.replies.flatten
  rest : ∀ k, s.conn = some k → newline ∉ k.inBuff.content

/-- Nothing is left to send. -/
def Quiet (s : AdminState) : Prop := ∀ k, s.conn = some k → k.outBuff.content = []

/-- A dialogue of command lines: a `recv` brings what fits, without a zero byte, every line has a
token, a `send` takes all it is offered, and nothing else happens in the program. -/
def Typed (s : AdminState) : AdminEvent → Prop
  | .readable (.data first rest) =>
    (∀ k, s.conn = some k → (first :: rest).length ≤ k.inBuff.space) ∧ NulFree (first :: rest) ∧
      ∀ line ∈ Lines.complete newline (s.stream ++ first :: rest), ∃ c ∈ line, isSeparator c = false
  | .readable _ => True
  | .writable outcome => ∀ k, s.conn = some k →
      outcome.taken k.outBuff.content.length = some k.outBuff.content.length
  | .elsewhere _ _ => False

/-- A `recv` brings the end of one line, and of no other. -/
def EndsOneLine : AdminEvent → Prop
  | .readable (.data first rest) => (first :: rest).count newline = 1
  | _ => True

section Areas

/-- Two response areas that agree up to an offset. -/
structure SameFront (written : ℕ) (a b : List UInt8) : Prop where
  length : a.length = b.length
  take : a.take written = b.take written

variable {written : ℕ} {a b : List UInt8} {parsed : S5adminCmdParsed} {data : ServerData}
  {line : CString} {r : ConfigResult}

theorem SameFront.of_length (h : a.length = b.length) : SameFront 0 a b := ⟨h, by simp⟩

theorem SameFront.text_snprintf (h : SameFront written a b) (hlt : written < a.length)
    (out : List UInt8) : text (snprintf a written out) = text (snprintf b written out) := by
  rw [CStrings.text_snprintf _ _ _ hlt, CStrings.text_snprintf _ _ _ (h.length ▸ hlt), h.take,
    h.length]

/-- Rows are printed alike into areas that agree so far. -/
theorem SameFront.printRows (rows : List (List UInt8)) (h : SameFront written a b) :
    (printRows rows written a).2.1 = (printRows rows written b).2.1 ∧
      SameFront (printRows rows written a).2.1 (printRows rows written a).2.2
        (printRows rows written b).2.2 := by
  induction rows generalizing written a b with
  | nil => exact ⟨rfl, h⟩
  | cons row rows ih =>
    simp only [Socks5d.printRows, length_snprintf, ← h.length]
    split
    · refine ⟨rfl, by simp [h.length], ?_⟩
      rw [take_snprintf_self, take_snprintf_self, h.take]
    · rename_i hfit
      refine ih ⟨by simp [h.length], ?_⟩
      rw [take_snprintf _ _ _ (by omega), take_snprintf _ _ _ (by rw [← h.length]; omega), h.take]

/-- The listing of the register does not depend on what the area held. -/
theorem text_accessRegisterPrint_congr (reg : AccessRegister) (hlen : a.length = b.length)
    (hpos : 0 < a.length) :
    text (accessRegisterPrint reg a).2 = text (accessRegisterPrint reg b).2 := by
  have hfront := SameFront.of_length hlen
  unfold accessRegisterPrint
  simp only [length_snprintf, ← hlen]
  split
  · exact hfront.text_snprintf hpos _
  · rename_i hfit
    have hheader : SameFront headerRow.length (snprintf a 0 headerRow) (snprintf b 0 headerRow) := by
      have ha := take_snprintf a headerRow 0 (by omega)
      have hb := take_snprintf b headerRow 0 (by omega)
      rw [Nat.zero_add, List.take_zero] at ha hb
      exact ⟨by simp [hlen], ha.trans hb.symm⟩
    obtain ⟨hwritten, hsame⟩ := hheader.printRows (reg.rows reg.head reg.count)
    obtain ⟨k, hprinted⟩ := @printRows_printed headerRow.length (snprintf a 0 headerRow)
      (reg.rows reg.head reg.count) (by rw [length_snprintf]; omega)
    have hroom := hprinted.room
    rw [← hprinted.length] at hroom
    generalize Socks5d.printRows _ _ (snprintf a 0 headerRow) = p at hwritten hsame hroom
    generalize Socks5d.printRows _ _ (snprintf b 0 headerRow) = q at hwritten hsame
    obtain ⟨fit, w, printed⟩ := p
    obtain ⟨fit', w', printed'⟩ := q
    dsimp only at hwritten hsame hroom ⊢
    subst hwritten
    have hroom' : w < printed'.length := hsame.length ▸ hroom
    rw [if_pos hroom, if_pos hroom']
    exact hsame.text_snprintf hroom _

/-- What a command changes and what it replies do not depend on what the area held. -/
theorem commandHandlers_area (cmd : S5adminCommand) (parsed : S5adminCmdParsed) (data : ServerData)
    (hlen : a.length = b.length) (hpos : 0 < a.length) :
    (commandHandlers cmd parsed data a).1 = (commandHandlers cmd parsed data b).1 ∧
      text (commandHandlers cmd parsed data a).2 = text (commandHandlers cmd parsed data b).2 := by
  have hprint := (SameFront.of_length hlen).text_snprintf hpos
  cases cmd with
  | addUser => simp only [commandHandlers, handleAddUser]; split <;> exact ⟨rfl, hprint _⟩
  | removeUser => simp only [commandHandlers, handleRemoveUser]; split <;> exact ⟨rfl, hprint _⟩
  | listUsers =>
    refine ⟨rfl, ?_⟩
    simp only [commandHandlers, handleListUsers]
    rw [text_authListUsers _ hpos, text_authListUsers _ (hlen ▸ hpos), hlen]
  | getMetrics => exact ⟨rfl, hprint _⟩
  | getAccessRegister => exact ⟨rfl, text_accessRegisterPrint_congr _ hlen hpos⟩
  | setLoglevel =>
    simp only [commandHandlers, handleSetLoglevel]
    split_ifs <;> exact ⟨rfl, hprint _⟩
  | setMaxConn => simp only [commandHandlers, handleSetMaxConn]; split <;> exact ⟨rfl, hprint _⟩
  | setBuff => simp only [commandHandlers, handleSetBuff]; split <;> exact ⟨rfl, hprint _⟩
  | getConfig => exact ⟨rfl, hprint _⟩
  | help => exact ⟨rfl, hprint _⟩
  | ping => exact ⟨rfl, hprint _⟩
  | exit => exact ⟨rfl, hprint _⟩
  | invalid => exact ⟨rfl, hprint _⟩

/-- So a line is answered alike in areas of one size. -/
theorem configHandler_area (h : configHandler parsed data line a = .ok r)
    (hlen : a.length = b.length) (hpos : 0 < a.length) :
    ∃ r', configHandler parsed data line b = .ok r' ∧ r'.parsed = r.parsed ∧ r'.data = r.data ∧
      r'.reply = r.reply := by
  unfold configHandler at h ⊢
  cases hparse : s5adminParseCommand parsed line with
  | error e =>
    rw [hparse] at h
    cases h
  | ok q =>
    rw [hparse] at h
    obtain rfl := Except.ok.inj h
    obtain ⟨hdata, htext⟩ := commandHandlers_area q.1.cmd q.1 data hlen hpos
    exact ⟨_, rfl, rfl, hdata.symm, htext.symm⟩

end Areas
section Dialogue

variable {s s' : AdminState} {k : AdminConn} {parsed : S5adminCmdParsed} {data : ServerData}
  {first : UInt8} {more tail rest : List UInt8} {line : CString} {r : ConfigResult}

/-- The line of a command is answered in any area of the size of `out_data`. -/
theorem Transcript.answer_of_ok {t : Transcript} {area : List UInt8}
    (h : configHandler t.parsed t.data line area = .ok r) (hlen : area.length = MAX_RESPONSE_LEN) :
    t.answer line = ⟨r.parsed, r.data, t.replies ++ [r.reply]⟩ := by
  have hpos : 0 < area.length := hlen ▸ by decide
  obtain ⟨r', hok, hparsed, hdata, hreply⟩ :=
    configHandler_area h (hlen.trans (List.length_replicate (a := (0 : UInt8))).symm) hpos
  simp only [Transcript.answer, hok, hparsed, hdata, hreply]

theorem transcript_snoc (parsed : S5adminCmdParsed) (data : ServerData) (lines : List CString)
    (line : CString) : transcript parsed data (lines ++ [line]) =
      (transcript parsed data lines).answer line := by
  simp [transcript]

/-- The search for a newline receives nothing. -/
theorem Scanned.stream (h : Scanned s k s') : s'.stream = s.stream := by
  cases h <;> simp [AdminState.stream, AdminState.setConn, AdminObs.arrived, List.filterMap_cons]

/-- A `recv` on a connection that is ready adds its bytes to the stream and one reply. -/
theorem Ready.received (h : Ready s k) (hfit : (first :: more).length ≤ k.inBuff.space)
    (hstep : adminStep s (.readable (.data first more)) = .ok s') :
    s'.stream = s.stream ++ first :: more ∧ s'.replies.length = s.replies.length + 1 := by
  obtain ⟨k₁, hrec, hread⟩ := h.read hfit
  have hscan := adminSearch_cases (hread.symm.trans hstep)
  have hroom : bufferCanWrite k₁.outBuff = true := hrec.outBuff ▸ h.canWrite
  constructor
  · rw [hscan.stream]
    simp [AdminState.stream, AdminState.received, AdminState.setConn, AdminState.note,
      AdminObs.arrived]
  · cases hscan with
    | dropped _ hfull => rw [hroom] at hfull; cases hfull
    | withheld _ _ hfull => rw [hroom] at hfull; cases hfull
    | _ => simp [AdminState.replies, AdminState.received, AdminState.setConn, AdminState.note,
        AdminObs.replied, List.filterMap_cons]

/-- A `recv` that ends one line is answered as that line. -/
theorem Ready.answers (h : Ready s k) (hfit : (tail ++ newline :: rest).length ≤ k.inBuff.space)
    (hchunk : first :: more = tail ++ newline :: rest)
    (hline : newline ∉ k.inBuff.content ++ tail) (hplain : NulFree (k.inBuff.content ++ tail))
    (htoken : ∃ c ∈ k.inBuff.content ++ tail, isSeparator c = false) :
    ∃ s' k', adminStep s (.readable (.data first more)) = .ok s' ∧ s'.conn = some k' ∧
      s'.interest = some OP_WRITE ∧ k'.outBuff.capacity = MAX_RESPONSE_LEN ∧
      k'.inBuff.content = rest ∧ s'.answered = s.answered.answer (k.inBuff.content ++ tail) := by
  have hsplit : k.inBuff.content ++ first :: more =
      (k.inBuff.content ++ tail) ++ newline :: rest := by rw [hchunk, List.append_assoc]
  obtain ⟨r, s', k', hanswer, hstep, hreplying, hrest, -, hparsed, hdata, hreplies, -⟩ :=
    h.line _ rest (hchunk ▸ hfit) hsplit
      (fun x hx => ⟨fun heq => hline (heq ▸ hx), hplain x hx⟩) (.inr htoken)
  have hne : k.inBuff.content ++ tail ≠ [] := by
    obtain ⟨c, hc, -⟩ := htoken
    exact List.ne_nil_of_mem hc
  rw [adminAnswer, if_neg hne] at hanswer
  refine ⟨s', k', hstep, hreplying.conn, hreplying.interest, hreplying.capacity, hrest, ?_⟩
  rw [Transcript.answer_of_ok (t := s.answered) hanswer h.length_area, ← configHandler_announced hanswer,
    AdminState.answered, hparsed, hdata, hreplies]
  rfl

/-- A `send` that takes all it is offered leaves nothing, and nothing else changes. -/
theorem adminWrite_all {outcome : SendOutcome} (hk : s.conn = some k)
    (htaken : outcome.taken k.outBuff.content.length = some k.outBuff.content.length) :
    ∃ s' k', adminStep s (.writable outcome) = .ok s' ∧ s'.conn = some k' ∧
      k'.inBuff = k.inBuff ∧ k'.outBuff.content = [] ∧
      k'.outBuff.capacity = k.outBuff.capacity ∧ s'.stream = s.stream ∧
      s'.answered = s.answered := by
  rcases adminWrite_spec hk outcome with ⟨-, hnone⟩ | ⟨hsame, hidle⟩ |
    ⟨n, outBuff, -, hn, hcontent, hcapacity, -, hsent⟩
  · rw [hnone] at htaken
    cases htaken
  · have hnil := hidle.resolve_right (by rw [htaken]; nofun)
    exact ⟨s, k, hsame, hk, rfl, hnil, rfl, rfl, rfl⟩
  · obtain rfl := Option.some.inj (hn.symm.trans htaken)
    rw [List.drop_length] at hcontent
    refine ⟨_, _, hsent, rfl, rfl, hcontent, hcapacity, ?_, ?_⟩
    · simp [AdminState.stream, AdminObs.arrived]
    · simp [AdminState.answered, AdminState.replies, AdminObs.replied]

/-- What an open connection has received and not answered is the beginning of a line. -/
structure Front (s : AdminState) (k : AdminConn) : Prop where
  capacity : k.outBuff.capacity = MAX_RESPONSE_LEN
  stream : s.stream = Lines.terminated newline s.lines ++ k.inBuff.content
  begun : newline ∉ k.inBuff.content
  plain : NulFree k.inBuff.content

/-- The lines received are answered, and only the beginning of a line waits. -/
structure LinesKept (parsed : S5adminCmdParsed) (data : ServerData) (s : AdminState) : Prop where
  answered : s.answered = transcript parsed data s.lines
  each : s.replies.length = s.lines.length
  registered : s.conn = none → s.interest = none
  front : ∀ k, s.conn = some k → Front s k
  kept : ∀ k, s.conn = some k → RepliesKept s k

theorem linesKept_accepted (fd : ℕ) (peer : CString × UInt16) (parsed : S5adminCmdParsed)
    (data : ServerData) : LinesKept parsed data (s5adminAccepted fd peer parsed data) where
  answered := rfl
  each := rfl
  registered := nofun
  front k hk := by
    obtain rfl := Option.some.inj hk
    have hnil := content_init fd peer
    refine ⟨List.length_replicate, ?_, by simp [hnil], by simp [hnil, NulFree]⟩
    rw [hnil]
    rfl
  kept := RepliesKept.of_run .nil

theorem LinesKept.lineByLine (h : LinesKept parsed data s) : LineByLine parsed data s where
  replies := congrArg Transcript.replies h.answered
  each := h.each
  account k hk := (h.kept k hk).account
  rest k hk := (h.front k hk).begun

/-- A descriptor that may be read belongs to an open connection. -/
theorem LinesKept.open_of_readable {outcome : RecvOutcome} (h : LinesKept parsed data s)
    (henabled : adminEnabled s (.readable outcome) = true) : ∃ k, s.conn = some k := by
  cases hconn : s.conn with
  | some k => exact ⟨k, rfl⟩
  | none =>
    rw [adminEnabled, h.registered hconn] at henabled
    cases henabled

/-- A connection that may read has nothing to send. -/
theorem LinesKept.ready {outcome : RecvOutcome} (h : LinesKept parsed data s)
    (hk : s.conn = some k) (henabled : adminEnabled s (.readable outcome) = true) : Ready s k := by
  obtain ⟨hinterest, hnil⟩ := (h.kept k hk).interest.resolve_right fun hwrite => by
    rw [adminEnabled, hwrite] at henabled
    cases henabled
  exact ⟨hk, hinterest, hnil, (h.front k hk).capacity⟩

/-- Replies and stream are what the invariant is about. -/
theorem LinesKept.same (h : LinesKept parsed data s) (hstream : s'.stream = s.stream)
    (hanswered : s'.answered = s.answered) (hregistered : s'.conn = none → s'.interest = none)
    (hfront : ∀ k, s'.conn = some k → Front s' k)
    (hkept : ∀ k, s'.conn = some k → RepliesKept s' k) : LinesKept parsed data s' where
  answered := by rw [hanswered, h.answered, AdminState.lines, AdminState.lines, hstream]
  each := by
    have hreplies : s'.replies = s.replies := congrArg Transcript.replies hanswered
    rw [hreplies, h.each, AdminState.lines, AdminState.lines, hstream]
  registered := hregistered
  front := hfront
  kept := hkept

/-- A `recv` that ends one line has it answered. -/
theorem LinesKept.read (h : LinesKept parsed data s) (hready : Ready s k)
    (htyped : Typed s (.readable (.data first more))) (hone : (first :: more).count newline = 1) :
    ∃ s' k', adminStep s (.readable (.data first more)) = .ok s' ∧ s'.conn = some k' ∧
      s'.interest = some OP_WRITE ∧ Front s' k' ∧ s'.answered = transcript parsed data s'.lines ∧
      s'.replies.length = s'.lines.length := by
  obtain ⟨hfit, hnul, htokens⟩ := htyped
  have hfit := hfit k hready.conn
  obtain ⟨-, hstream, hbegun, hplain⟩ := h.front k hready.conn
  obtain ⟨tail, rest, hchunk, htail, hrest⟩ := Lines.split_of_count_one hone
  have hline : newline ∉ k.inBuff.content ++ tail := by simp [hbegun, htail]
  rw [hchunk] at hnul
  obtain ⟨hnultail, hnulrest⟩ := NulFree.append_iff.mp hnul
  have hplainline := NulFree.append_iff.mpr ⟨hplain, hnultail⟩
  -- the stream is cut behind the line that was begun
  have hcut : s.stream ++ first :: more =
      Lines.terminated newline (s.lines ++ [k.inBuff.content ++ tail]) ++ rest := by
    rw [hstream, hchunk, Lines.terminated_snoc]
    simp
  have hlines : Lines.complete newline (s.stream ++ first :: more) =
      s.lines ++ [k.inBuff.content ++ tail] := by
    rw [hcut]
    refine Lines.complete_terminated (fun line hmem => ?_) hrest
    rcases List.mem_append.mp hmem with hmem | hmem
    · exact Lines.not_mem_of_mem_complete hmem
    · exact List.mem_singleton.mp hmem ▸ hline
  have htoken := htokens (k.inBuff.content ++ tail) (by rw [hlines]; simp)
  obtain ⟨s', k', hstep, hconn, hinterest, hcapacity, hleft, hanswered⟩ :=
    hready.answers (hchunk ▸ hfit) hchunk hline hplainline htoken
  obtain ⟨harrived, hlength⟩ := hready.received hfit hstep
  have hlines' : s'.lines = s.lines ++ [k.inBuff.content ++ tail] := by
    rw [AdminState.lines, harrived, hlines]
  refine ⟨s', k', hstep, hconn, hinterest, ⟨hcapacity, ?_, ?_, ?_⟩, ?_, ?_⟩
  · rw [harrived, hcut, hlines', hleft]
  · rw [hleft]
    exact hrest
  · rw [hleft]
    exact fun c hc => hnulrest c (List.mem_cons_of_mem _ hc)
  · rw [hanswered, hlines', transcript_snoc, h.answered]
  · rw [hlength, hlines', List.length_append, h.each]
    rfl

theorem Typed.drains {a : AdminEvent} (h : Typed s a) : Drains s a := by
  cases a with
  | writable outcome =>
    exact fun k n hk htaken => Option.some.inj (htaken.symm.trans (h k hk))
  | _ => trivial

/-- One event of a dialogue that ends no more than one line keeps the lines answered. -/
theorem LinesKept.step {a : AdminEvent} (h : LinesKept parsed data s)
    (henabled : adminEnabled s a = true) (htyped : Typed s a) (hone : EndsOneLine a)
    (hstep : adminStep s a = .ok s') : LinesKept parsed data s' := by
  have hkept := RepliesKept.step h.kept henabled htyped.drains hstep
  cases a with
  | readable outcome =>
    obtain ⟨k, hk⟩ := adminRead_conn hstep
    rcases adminRead_spec hk outcome with hclosed | ⟨-, -, -, ⟨first, more, rfl, -⟩, -⟩
    · obtain rfl := Except.ok.inj (hclosed.symm.trans hstep)
      refine h.same ?_ ?_ (fun _ => rfl) nofun hkept
      · simp [AdminState.stream, AdminState.released, AdminObs.arrived, List.filterMap_cons]
      · simp [AdminState.answered, AdminState.replies, AdminState.released, AdminObs.replied,
          List.filterMap_cons]
    · obtain ⟨s₁, k₁, hok, hconn, -, hfront, hanswered, heach⟩ :=
        h.read (h.ready hk henabled) htyped hone
      obtain rfl := Except.ok.inj (hok.symm.trans hstep)
      refine ⟨hanswered, heach, fun hnone => ?_, fun k' hk' => ?_, hkept⟩
      · cases hconn.symm.trans hnone
      · exact Option.some.inj (hconn.symm.trans hk') ▸ hfront
  | writable outcome =>
    obtain ⟨k, hk⟩ := adminWrite_conn hstep
    obtain ⟨s₁, k₁, hok, hconn, hin, -, hcapacity, hstream, hanswered⟩ :=
      adminWrite_all hk (htyped k hk)
    obtain rfl := Except.ok.inj (hok.symm.trans hstep)
    refine h.same hstream hanswered (fun hnone => ?_) (fun k' hk' => ?_) hkept
    · cases hconn.symm.trans hnone
    obtain rfl := Option.some.inj (hconn.symm.trans hk')
    have hfront := h.front k hk
    refine ⟨hcapacity.trans hfront.capacity, ?_, hin ▸ hfront.begun, hin ▸ hfront.plain⟩
    rw [AdminState.lines, hstream, hin, ← AdminState.lines]
    exact hfront.stream
  | elsewhere parsed data => exact htyped.elim

theorem LinesKept.of_run {fd : ℕ} {peer : CString × UInt16} {events : List AdminEvent}
    (hrun : Run adminMachine (fun s a => Typed s a ∧ EndsOneLine a)
      (s5adminAccepted fd peer parsed data) events s) : LinesKept parsed data s :=
  hrun.invariant (linesKept_accepted fd peer parsed data)
    fun _ _ _ hs henabled hguard hstep => hs.step henabled hguard.1 hguard.2 hstep

/-- The next `recv` has its lines answered exactly when it ends one. -/
theorem LinesKept.next_iff (h : LinesKept parsed data s)
    (henabled : adminEnabled s (.readable (.data first more)) = true)
    (htyped : Typed s (.readable (.data first more))) :
    (∃ s₁ outcome s₂, adminStep s (.readable (.data first more)) = .ok s₁ ∧
      adminEnabled s₁ (.writable outcome) = true ∧ Typed s₁ (.writable outcome) ∧
      adminStep s₁ (.writable outcome) = .ok s₂ ∧ LineByLine parsed data s₂) ↔
    EndsOneLine (.readable (.data first more)) := by
  constructor
  · rintro ⟨s₁, outcome, s₂, hread, -, htyped₁, hwrite, hlines⟩
    obtain ⟨k, hk⟩ := h.open_of_readable henabled
    obtain ⟨hstream, hlength⟩ := (h.ready hk henabled).received (htyped.1 k hk) hread
    obtain ⟨k₁, hk₁⟩ : ∃ k, s₁.conn = some k := adminWrite_conn hwrite
    obtain ⟨s', -, hok, -, -, -, -, hstream', hanswered⟩ := adminWrite_all hk₁ (htyped₁ k₁ hk₁)
    obtain rfl := Except.ok.inj (hok.symm.trans hwrite)
    have hreplies : s'.replies = s₁.replies := congrArg Transcript.replies hanswered
    -- each reply added stands for one newline of the stream
    have hbefore := h.each
    have hafter := hlines.each
    rw [AdminState.lines, Lines.length_complete] at hbefore hafter
    rw [hstream', hstream, hreplies, hlength, hbefore, List.count_append] at hafter
    exact (Nat.add_left_cancel hafter).symm
  · intro hone
    obtain ⟨k, hk⟩ := h.open_of_readable henabled
    obtain ⟨s₁, k₁, hread, hconn, hinterest, hfront, -⟩ := h.read (h.ready hk henabled) htyped hone
    have hstep := h.step henabled htyped hone hread
    have hwritable : adminEnabled s₁ (.writable (.accepted MAX_RESPONSE_LEN)) = true := by
      rw [adminEnabled, hinterest]
      rfl
    have htyped₁ : Typed s₁ (.writable (.accepted MAX_RESPONSE_LEN)) := by
      intro k hk
      obtain rfl := Option.some.inj (hconn.symm.trans hk)
      have hle := Buffer.length_content_le k₁.outBuff
      rw [hfront.capacity] at hle
      rw [SendOutcome.taken, Nat.min_eq_right (by omega)]
    obtain ⟨s₂, -, hwrite, -⟩ := adminWrite_all hconn (htyped₁ k₁ hconn)
    exact ⟨s₁, _, s₂, hread, hwritable, htyped₁, hwrite,
      (hstep.step hwritable htyped₁ trivial hwrite).lineByLine⟩

/-- When every `recv` ends one line, every line is answered by one reply, in order, and nothing
but the stream decides the replies. Another `recv` keeps to that exactly when it ends one line. -/
theorem lines_answered {fd : ℕ} {peer : CString × UInt16} {events : List AdminEvent}
    (hrun : Run adminMachine (fun s a => Typed s a ∧ EndsOneLine a)
      (s5adminAccepted fd peer parsed data) events s) :
    LineByLine parsed data s ∧
    (∀ first more, adminEnabled s (.readable (.data first more)) = true →
      Typed s (.readable (.data first more)) →
      ((∃ s₁ outcome s₂, adminStep s (.readable (.data first more)) = .ok s₁ ∧
        adminEnabled s₁ (.writable outcome) = true ∧ Typed s₁ (.writable outcome) ∧
        adminStep s₁ (.writable outcome) = .ok s₂ ∧ LineByLine parsed data s₂) ↔
      EndsOneLine (.readable (.data first more)))) ∧
    ∀ fd' peer' events' s', Run adminMachine (fun s a => Typed s a ∧ EndsOneLine a)
      (s5adminAccepted fd' peer' parsed data) events' s' → s'.stream = s.stream →
      s'.replies = s.replies := by
  have hkept := LinesKept.of_run hrun
  refine ⟨hkept.lineByLine, fun first more henabled htyped => hkept.next_iff henabled htyped, ?_⟩
  intro fd' peer' events' s' hrun' hstream
  have hlines : s'.lines = s.lines := by rw [AdminState.lines, hstream, ← AdminState.lines]
  rw [(LinesKept.of_run hrun').lineByLine.replies, hkept.lineByLine.replies, hlines]

/-- PING and what follows it arrive in one `recv`, and the reply is sent at once. -/
theorem ping_before {guard : AdminState → AdminEvent → Prop} (rest : List UInt8)
    (hrest : rest.length + 5 ≤ MAX_CMD_LEN)
    (hfirst : guard (s5adminAccepted 5 localPeer (initialCmdParsed []) startedData)
      (.readable (.data 80 (ascii "ING\n" ++ rest))))
    (hsecond : ∀ s, Typed s (.writable (.accepted 4)) → guard s (.writable (.accepted 4))) :
    ∃ s k, Run adminMachine guard (s5adminAccepted 5 localPeer (initialCmdParsed []) startedData)
        [.readable (.data 80 (ascii "ING\n" ++ rest)), .writable (.accepted 4)] s ∧
      s.conn = some k ∧ k.outBuff.content = [] ∧ k.inBuff.content = rest ∧
      s.sent = ascii "PONG\n" := by
  obtain ⟨s, k, hread, hreplying, hleft, -, hnil⟩ :=
    replying_ping_before 5 localPeer (initialCmdParsed []) startedData rest hrest
  obtain ⟨s', k', hwrite, hconn, -, hcontent, -, hin, -, -, -, hsent⟩ := hreplying.send (by decide) 4
  have htyped : Typed s (.writable (.accepted 4)) := by
    intro k₁ hk₁
    obtain rfl := Option.some.inj (hreplying.conn.symm.trans hk₁)
    rw [hreplying.pending]
    rfl
  refine ⟨s', k', run_pair hread (hreplying.enabled _) hfirst (hsecond s htyped) hwrite, hconn, ?_,
    hin ▸ hleft, ?_⟩
  · rw [hcontent]
    rfl
  · rw [hsent, hnil]
    rfl

/-- What follows PING is typed when it fits and its lines have tokens. -/
theorem typed_ping {rest : List UInt8} (hrest : rest.length + 5 ≤ MAX_CMD_LEN)
    (hplain : NulFree rest)
    (htokens : ∀ line ∈ Lines.complete newline (ascii "PING\n" ++ rest),
      ∃ c ∈ line, isSeparator c = false) :
    Typed (s5adminAccepted 5 localPeer (initialCmdParsed []) startedData)
      (.readable (.data 80 (ascii "ING\n" ++ rest))) := by
  refine ⟨fun k hk => ?_, ?_, htokens⟩
  · obtain rfl := Option.some.inj hk
    rw [space_init, List.length_cons, List.length_append]
    change 4 + rest.length + 1 ≤ _
    omega
  · exact NulFree.append_iff.mpr ⟨.ascii (by decide : (ascii "PING\n").all (· ≠ 0) = true), hplain⟩

/-- PING arrives with the beginning of the next line. -/
theorem lines_answered_ping : ∃ s,
    Run adminMachine (fun s a => Typed s a ∧ EndsOneLine a)
      (s5adminAccepted 5 localPeer (initialCmdParsed []) startedData)
      [.readable (.data 80 (ascii "ING\n" ++ ascii "PI")), .writable (.accepted 4)] s ∧
    LineByLine (initialCmdParsed []) startedData s ∧ s.sent = ascii "PONG\n" := by
  have hfits : (ascii "PI").length + 5 ≤ MAX_CMD_LEN := by decide
  have hone : EndsOneLine (.readable (.data 80 (ascii "ING\n" ++ ascii "PI"))) := by
    unfold EndsOneLine
    decide
  obtain ⟨s, k, hrun, -, -, -, hsent⟩ :=
    @ping_before (fun s a => Typed s a ∧ EndsOneLine a) (ascii "PI") hfits
      ⟨typed_ping hfits (.ascii (by decide)) (by decide +kernel), hone⟩
      fun _ htyped => ⟨htyped, trivial⟩
  exact ⟨s, hrun, (lines_answered hrun).1, hsent⟩

/-- Of two lines in one `recv` the second is left unanswered. -/
theorem not_lines_answered :
    ¬ ∀ fd peer parsed data events s, Run adminMachine Typed (s5adminAccepted fd peer parsed data)
      events s → Quiet s → LineByLine parsed data s := by
  intro hall
  have hfits : (ascii "PING\n").length + 5 ≤ MAX_CMD_LEN := by decide
  obtain ⟨s, k, hrun, hk, hnil, hleft, -⟩ := ping_before (ascii "PING\n") hfits
    (typed_ping hfits (.ascii (by decide)) (by decide +kernel)) fun _ htyped => htyped
  have hquiet : Quiet s := by
    intro k' hk'
    obtain rfl := Option.some.inj (hk.symm.trans hk')
    exact hnil
  have hrest := (hall _ _ _ _ _ s hrun hquiet).rest k hk
  rw [hleft] at hrest
  exact hrest (by decide)

end Dialogue

end Socks5d
