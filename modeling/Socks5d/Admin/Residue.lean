import Socks5d.Admin.Commands
import Socks5d.Admin.Replies

/-!
# What earlier commands leave in the parsed record

Every command uses the same static record. A second argument stays in `arg2` until the next
ADD_USER, and a single argument of 256 bytes, which fills `arg1` without a terminating zero, is
read together with it. For all other lines the record's history makes no difference.
-/

namespace Socks5d

open CStrings Fallible

/-- An argument as the parser accepts it from a line. -/
structure IsArgument (t : CString) : Prop where
  nonempty : t ≠ []
  short : t.length ≤ ARGS_LEN
  plain : ∀ c ∈ t, isSeparator c = false ∧ c ≠ 0

section Words

variable {t : CString} {rest : List UInt8}

theorem isArgument_of_all (hne : t ≠ []) (hlen : t.length ≤ ARGS_LEN)
    (hall : (t.all fun c => !isSeparator c && c != 0) = true) : IsArgument t where
  nonempty := hne
  short := hlen
  plain := by simpa using hall

theorem IsArgument.ne_zero (h : IsArgument t) : ∀ c ∈ t, c ≠ 0 := fun c hc => (h.plain c hc).2

/-- An argument is a token by itself, and in front of more. -/
theorem IsArgument.tokens (h : IsArgument t) : CStrings.tokens isSeparator t = [t] :=
  tokens_word h.nonempty fun c hc => (h.plain c hc).1

theorem IsArgument.tokens_cons (h : IsArgument t) :
    CStrings.tokens isSeparator (t ++ 32 :: rest) = t :: CStrings.tokens isSeparator rest :=
  tokens_word_cons h.nonempty (fun c hc => (h.plain c hc).1) rfl

theorem isArgument_addUser : IsArgument (ascii "ADD_USER") :=
  isArgument_of_all (by decide) (by decide) rfl

theorem isArgument_removeUser : IsArgument (ascii "REMOVE_USER") :=
  isArgument_of_all (by decide) (by decide) rfl

theorem isArgument_u : IsArgument (ascii "u") := isArgument_of_all (by decide) (by decide) rfl

theorem isArgument_x : IsArgument (ascii "x") := isArgument_of_all (by decide) (by decide) rfl

end Words

/-- The string that an argument leaves at `arg2`. -/
def residue (beyond : List UInt8) (t : CString) : CString := text (argField t ++ beyond)

/-- Commands one after another, each with its response area. -/
def runCommands : List (CString × List UInt8) → S5adminCmdParsed → ServerData →
    Except Fault (S5adminCmdParsed × ServerData)
  | [], parsed, data => .ok (parsed, data)
  | (line, area) :: rest, parsed, data => do
    let r ← configHandler parsed data line area
    runCommands rest r.parsed r.data

/-- The reply to a command and the server data it leaves. -/
def observe (r : Except Fault ConfigResult) : Except Fault (List UInt8 × ServerData) :=
  r.map fun r => (r.reply, r.data)

/-- The command lines of a history are strings. -/
def AreStrings (history : List (CString × List UInt8)) : Prop :=
  ∀ command ∈ history, ∀ c ∈ command.1, c ≠ 0

/-- A line has the same effect behind any two histories that leave the same server data. -/
def HistoryFree (beyond : List UInt8) (data : ServerData) (line area : List UInt8) : Prop :=
  ∀ history₁ history₂ start₁ start₂ parsed₁ parsed₂, AreStrings history₁ → AreStrings history₂ →
    runCommands history₁ (initialCmdParsed beyond) start₁ = .ok (parsed₁, data) →
    runCommands history₂ (initialCmdParsed beyond) start₂ = .ok (parsed₂, data) →
    observe (configHandler parsed₁ data line area) = observe (configHandler parsed₂ data line area)

/-- The arrays for the names hold fewer bytes than their size. -/
def NamesBounded (users : UserTable) : Prop :=
  ∀ h, ∀ curr ∈ users h, curr.username.length < MAX_USERNAME_LEN

/-- A name that is added is cut to the array. -/
theorem NamesBounded.authAddUser {users : UserTable} (h : NamesBounded users)
    (username password : CString) : NamesBounded (authAddUser users username password).2 := by
  unfold Socks5d.authAddUser
  dsimp only
  split
  · exact h
  · intro i curr hcurr
    simp only [Function.update_apply] at hcurr
    split at hcurr
    · rcases List.mem_cons.mp hcurr with rfl | hcurr
      · have hpos : 0 < MAX_USERNAME_LEN := by decide
        simp only [List.length_take]
        omega
      · exact h _ curr hcurr
    · exact h i curr hcurr

/-- The value of a setting with a lower bound after a command to change it. -/
def settled (low : ℤ) (current : ℕ) (v : ℤ) : ℕ := if v < low then current else v.toNat

/-- Two numbers have a different effect on a setting, or on the reply in an area that shows any
of it. -/
def Distinguished (low : ℤ) (current size : ℕ) (v w : ℤ) : Prop :=
  settled low current v ≠ settled low current w ∨ 2 ≤ size ∧ ¬(v < low ↔ w < low)

/-- The lines whose effect depends on an earlier argument: a single argument of 256 bytes, with
an area that shows what follows it, or with a number that goes on in a way that matters. -/
def Leaks (beyond : List UInt8) (data : ServerData) (size : ℕ) : CommandLine → Prop
  | .accepted .removeUser [a] => a.length = ARGS_LEN ∧ 265 ≤ size
  | .accepted .setMaxConn [a] => a.length = ARGS_LEN ∧ ∃ t, IsArgument t ∧
      Distinguished 1 data.maxConn size (atoi a) (atoi (a ++ residue beyond t))
  | .accepted .setBuff [a] => a.length = ARGS_LEN ∧ ∃ t, IsArgument t ∧
      Distinguished BUFF_MIN_LEN data.bufferSize size (atoi a) (atoi (a ++ residue beyond t))
  | _ => False

section Histories

variable {beyond : List UInt8} {data start : ServerData} {p q : S5adminCmdParsed}
  {line area : List UInt8} {t : CString}

/-- The records that commands leave. -/
structure Residual (beyond : List UInt8) (p : S5adminCmdParsed) : Prop where
  beyond : p.beyond = beyond
  arg2 : p.arg2 = List.replicate ARGS_LEN 0 ∨ ∃ t, IsArgument t ∧ p.arg2 = argField t

theorem Residual.arg2Text (h : Residual beyond p) :
    p.arg2Text = [] ∨ ∃ t, IsArgument t ∧ p.arg2Text = residue beyond t := by
  rw [S5adminCmdParsed.arg2Text, h.beyond]
  rcases h.arg2 with hzero | ⟨t, ht, hfield⟩
  · rw [hzero]
    exact .inl rfl
  · rw [hfield]
    exact .inr ⟨t, ht, rfl⟩

/-- Tokens of a string that are not too long are arguments. -/
theorem isArgument_of_mem (hline : ∀ c ∈ line, c ≠ 0) (ht : t ∈ tokens isSeparator line)
    (hlen : t.length ≤ ARGS_LEN) : IsArgument t := by
  obtain ⟨hne, hplain⟩ := mem_tokens ht
  exact ⟨hne, hlen, fun c hc => ⟨(hplain c hc).1, hline c (hplain c hc).2⟩⟩

theorem Residual.configHandler {r : ConfigResult} (h : Residual beyond p)
    (hline : ∀ c ∈ line, c ≠ 0) (hr : configHandler p data line area = .ok r) :
    Residual beyond r.parsed := by
  rcases configHandler_sets p data line area with ⟨-, herr⟩ | ⟨c, r', -, hr', -, hbehind, -⟩
  · cases herr.symm.trans hr
  · obtain rfl := Except.ok.inj (hr'.symm.trans hr)
    refine ⟨hbehind.beyond.trans h.beyond, ?_⟩
    rcases hbehind.arg2 with hsame | ⟨b, hb, hlen, hfield⟩
    · rw [hsame]
      exact h.arg2
    · exact .inr ⟨b, isArgument_of_mem hline hb hlen, hfield⟩

theorem Residual.runCommands {history : List (CString × List UInt8)} (h : Residual beyond p)
    (hstrings : AreStrings history) (hrun : runCommands history p start = .ok (q, data)) :
    Residual beyond q := by
  induction history generalizing p start with
  | nil =>
    obtain ⟨rfl, -⟩ := Prod.mk.inj (Except.ok.inj hrun)
    exact h
  | cons command rest ih =>
    obtain ⟨line, area⟩ := command
    rw [Socks5d.runCommands] at hrun
    cases hr : Socks5d.configHandler p start line area with
    | error e =>
      rw [hr] at hrun
      cases hrun
    | ok r =>
      rw [hr] at hrun
      exact ih (h.configHandler (hstrings _ List.mem_cons_self) hr)
        (fun c hc => hstrings c (List.mem_cons_of_mem _ hc)) hrun

theorem residual_initial (beyond : List UInt8) : Residual beyond (initialCmdParsed beyond) :=
  ⟨rfl, .inl rfl⟩

/-- A line of ADD_USER with one argument too many. -/
def crowdedLine (t : CString) : CString :=
  ascii "ADD_USER" ++ 32 :: (ascii "u" ++ 32 :: (t ++ 32 :: ascii "x"))

theorem tokens_crowdedLine (ht : IsArgument t) :
    tokens isSeparator (crowdedLine t) = [ascii "ADD_USER", ascii "u", t, ascii "x"] := by
  rw [crowdedLine, isArgument_addUser.tokens_cons, isArgument_u.tokens_cons, ht.tokens_cons,
    isArgument_x.tokens]

/-- It is refused, but its second argument stays in the record. -/
theorem s5adminParseCommand_crowdedLine (p : S5adminCmdParsed) (ht : IsArgument t) :
    ∃ q scan, s5adminParseCommand p (crowdedLine t) = .ok (q, scan) ∧ q.cmd = .invalid ∧
      q.arg2 = argField t ∧ q.beyond = p.beyond := by
  obtain ⟨hfound, hleft⟩ := strtokR_tokens isSeparator ⟨[], crowdedLine t⟩
  rcases hn : strtokR isSeparator ⟨[], crowdedLine t⟩ with ⟨found, scan⟩
  rw [hn, tokens_crowdedLine ht] at hfound hleft
  obtain rfl : found = some (ascii "ADD_USER") := hfound
  rcases nextArgument_cons hleft with ⟨hlong, -⟩ | ⟨-, scan₁, hn₁, hleft₁⟩
  · exact absurd hlong (by decide)
  rcases nextArgument_cons hleft₁ with ⟨hlong, -⟩ | ⟨-, scan₂, hn₂, hleft₂⟩
  · have := ht.short
    omega
  have hinfo : commands.find? (fun info => ascii "ADD_USER" == info.name) =
      some ⟨.addUser, ascii "ADD_USER", 2⟩ := by decide
  let filled := (S5adminCmdParsed.setArg1 { p.reject .invalidCommand with cmd := .addUser }
    (ascii "u")).setArg2 t
  have hparse : s5adminParseCommand p (crowdedLine t) = .ok (noMoreArguments filled scan₂) := by
    unfold s5adminParseCommand
    dsimp only at hn₁
    simp only [hn, hinfo, s5adminParseCommandArgs, hn₁, hn₂]
    rfl
  have hrefuse : (noMoreArguments filled scan₂).1 = filled.reject .tooManyArguments :=
    noMoreArguments_cons hleft₂
  refine ⟨(noMoreArguments filled scan₂).1, (noMoreArguments filled scan₂).2, hparse, ?_⟩
  rw [hrefuse]
  exact ⟨rfl, setArg2_arg2 _ t, rfl⟩

/-- ADD_USER with one argument too many changes no data, and leaves the second one in `arg2`. -/
theorem exists_residue (beyond : List UInt8) (data : ServerData) (ht : IsArgument t) :
    ∃ history p, AreStrings history ∧
      runCommands history (initialCmdParsed beyond) data = .ok (p, data) ∧
      p.arg2Text = residue beyond t := by
  obtain ⟨q, scan, hok, hcmd, harg2, hbeyond⟩ :=
    s5adminParseCommand_crowdedLine (initialCmdParsed beyond) ht
  refine ⟨[(crowdedLine t, [])], q, ?_, ?_, ?_⟩
  · intro command hcommand c hc
    obtain rfl := List.mem_singleton.mp hcommand
    simp only [crowdedLine, List.mem_append, List.mem_cons] at hc
    rcases hc with hc | rfl | hc | rfl | hc | rfl | hc
    · exact isArgument_addUser.ne_zero c hc
    · decide
    · exact isArgument_u.ne_zero c hc
    · decide
    · exact ht.ne_zero c hc
    · decide
    · exact isArgument_x.ne_zero c hc
  · rw [runCommands, configHandler, hok]
    simp only [ok_bind, hcmd]
    rfl
  · rw [S5adminCmdParsed.arg2Text, harg2, hbeyond]
    rfl

end Histories

/-- What a handler other than ADD_USER makes of a first argument. -/
def effect (cmd : S5adminCommand) (data : ServerData) (area : List UInt8) (arg : CString) :
    List UInt8 × ServerData :=
  match cmd with
  | .removeUser =>
    let (removed, users) := authRemoveUser data.users arg
    (text (snprintf area 0 (if removed then okReply
      else ascii "ERROR: " ++ arg ++ ascii " not found\n")), { data with users := users })
  | .setMaxConn =>
    (text (snprintf area 0 (if atoi arg < 1 then ascii "ERROR: max connections must be at least 1\n"
      else okReply)), { data with maxConn := settled 1 data.maxConn (atoi arg) })
  | .setBuff =>
    (text (snprintf area 0 (if atoi arg < BUFF_MIN_LEN then
        ascii "ERROR: buffer size must be at least " ++ decimal BUFF_MIN_LEN ++ ascii " bytes\n"
      else okReply)), { data with bufferSize := settled BUFF_MIN_LEN data.bufferSize (atoi arg) })
  | _ => ([], data)

section Effects

variable {data : ServerData} {area : List UInt8} {q : S5adminCmdParsed} {a arg : CString}

theorem commandHandlers_effect {cmd : S5adminCommand}
    (hcmd : cmd = .removeUser ∨ cmd = .setMaxConn ∨ cmd = .setBuff) :
    (text (commandHandlers cmd q data area).2, (commandHandlers cmd q data area).1) =
      effect cmd data area q.arg1Text := by
  rcases hcmd with rfl | rfl | rfl
  · rcases hremoved : authRemoveUser data.users q.arg1Text with ⟨removed, users⟩
    simp only [commandHandlers, handleRemoveUser, effect, hremoved]
    cases removed <;> rfl
  · simp only [commandHandlers, handleSetMaxConn, setMaxConn, effect, settled]
    split <;> rfl
  · simp only [commandHandlers, handleSetBuff, setBufferSize, effect, settled]
    split <;> rfl

/-- Two outputs that differ in their first byte are told apart by an area of two bytes. -/
theorem text_snprintf_eq_iff {x y : UInt8} {o o' : List UInt8} (hx : x ≠ 0) (hy : y ≠ 0)
    (hxy : x ≠ y) :
    text (snprintf area 0 (x :: o)) = text (snprintf area 0 (y :: o')) ↔ area.length < 2 := by
  by_cases hempty : area.length = 0
  · rw [List.length_eq_zero_iff.mp hempty]
    exact iff_of_true rfl (by decide)
  rw [text_snprintf _ _ _ (by omega), text_snprintf _ _ _ (by omega), List.take_zero,
    List.nil_append, List.nil_append, Nat.sub_zero]
  by_cases hone : area.length = 1
  · rw [hone]
    exact iff_of_true rfl (by decide)
  · obtain ⟨n, hn⟩ : ∃ n, area.length - 1 = n + 1 := ⟨area.length - 2, by omega⟩
    rw [hn, List.take_succ_cons, List.take_succ_cons]
    refine iff_of_false ?_ (by omega)
    simp [text, hx, hy, hxy]

/-- A name that does not fit the table is not found. -/
theorem effect_removeUser (hnames : NamesBounded data.users) (harg : MAX_USERNAME_LEN ≤ arg.length) :
    effect .removeUser data area arg =
      (text (snprintf area 0 (ascii "ERROR: " ++ arg ++ ascii " not found\n")), data) := by
  have hnone : (data.users (hash arg)).any (fun curr => curr.username == arg) = false := by
    rw [List.any_eq_false]
    intro curr hcurr hname
    have hlt := hnames _ curr hcurr
    rw [beq_iff_eq.mp hname] at hlt
    omega
  simp only [effect, authRemoveUser, hnone]
  rfl

/-- REMOVE_USER does not show what follows an argument of full size in fewer than 265 bytes. -/
theorem effect_removeUser_short (hnames : NamesBounded data.users) (hlen : a.length = ARGS_LEN)
    (harea : area.length < 265) (x : CString) :
    effect .removeUser data area (a ++ x) =
      (text (snprintf area 0 (ascii "ERROR: " ++ a)), data) := by
  have hlong : MAX_USERNAME_LEN ≤ (a ++ x).length := by
    rw [List.length_append, hlen]
    exact Nat.le_add_right _ _
  rw [effect_removeUser hnames hlong]
  by_cases hempty : area.length = 0
  · rw [List.length_eq_zero_iff.mp hempty]
    rfl
  have hfront : (ascii "ERROR: " ++ a).length = 263 := by
    rw [List.length_append, hlen]
    rfl
  rw [text_snprintf _ _ _ (by omega), text_snprintf _ _ _ (by omega), ← List.append_assoc,
    List.append_assoc _ x, List.take_append_of_le_length (by omega)]

/-- In 265 bytes it shows the byte that follows. -/
theorem effect_removeUser_long (hnames : NamesBounded data.users) (ha : ∀ c ∈ a, c ≠ 0)
    (hlen : a.length = ARGS_LEN) (harea : 265 ≤ area.length) {c : UInt8} {rest : CString}
    (hc : c ≠ 32) (hzero : ∀ x ∈ c :: rest, x ≠ 0) :
    effect .removeUser data area a ≠ effect .removeUser data area (a ++ c :: rest) := by
  have hlong : MAX_USERNAME_LEN ≤ (a ++ c :: rest).length := by
    rw [List.length_append, hlen]
    exact Nat.le_add_right _ _
  rw [effect_removeUser hnames hlen.ge, effect_removeUser hnames hlong]
  have hfront : (ascii "ERROR: " ++ a).length = 263 := by
    rw [List.length_append, hlen]
    rfl
  have hplain : ∀ x ∈ ascii "ERROR: " ++ a, x ≠ 0 := by
    intro x hx
    rcases List.mem_append.mp hx with hx | hx
    · exact (by decide +kernel : ∀ x ∈ ascii "ERROR: ", x ≠ 0) x hx
    · exact ha x hx
  obtain ⟨n, hn⟩ : ∃ n, area.length - 1 = 263 + (n + 1) := ⟨area.length - 265, by omega⟩
  have hshow : ∀ out : List UInt8, text (snprintf area 0 (ascii "ERROR: " ++ a ++ out)) =
      ascii "ERROR: " ++ a ++ text (out.take (n + 1)) := by
    intro out
    rw [text_snprintf _ _ _ (by omega), List.take_zero, List.nil_append, Nat.sub_zero, hn,
      ← hfront, List.take_length_add_append, text_append hplain]
  intro heq
  have htexts := congrArg Prod.fst heq
  dsimp only at htexts
  rw [hshow, ← List.append_assoc (ascii "ERROR: "), List.append_assoc _ (c :: rest), hshow] at htexts
  have hnext := List.append_cancel_left htexts
  have hfirst : text ((ascii " not found\n").take (n + 1)) = 32 :: text ((ascii "not found\n").take n) :=
    rfl
  have hsecond : text ((c :: rest ++ ascii " not found\n").take (n + 1)) =
      c :: text ((rest ++ ascii " not found\n").take n) := by
    have hc0 : c ≠ 0 := hzero c List.mem_cons_self
    rw [List.cons_append, List.take_succ_cons]
    simp [text, hc0]
  rw [hfirst, hsecond] at hnext
  exact hc (List.cons.inj hnext).1.symm

/-- A setting and the reply about it differ exactly for distinguished numbers. -/
theorem effect_setting_iff {low : ℤ} {current : ℕ} {x y : UInt8} {o o' : List UInt8}
    (hx : x ≠ 0) (hy : y ≠ 0) (hxy : x ≠ y) (set : ℕ → ServerData)
    (hset : Function.Injective set) (v w : ℤ) :
    (text (snprintf area 0 (if v < low then x :: o else y :: o')), set (settled low current v)) =
      (text (snprintf area 0 (if w < low then x :: o else y :: o')), set (settled low current w)) ↔
    ¬ Distinguished low current area.length v w := by
  rw [Prod.mk.injEq, hset.eq_iff, Distinguished, not_or, not_not, and_comm]
  refine and_congr Iff.rfl ?_
  have hdiffer : text (snprintf area 0 (x :: o)) = text (snprintf area 0 (y :: o')) ↔
      area.length < 2 := text_snprintf_eq_iff hx hy hxy
  by_cases hv : v < low <;> by_cases hw : w < low
  · simp [hv, hw]
  · rw [if_pos hv, if_neg hw, hdiffer]
    simp [hv, hw]
  · rw [if_neg hv, if_pos hw, eq_comm, hdiffer]
    simp [hv, hw]
  · simp [hv, hw]

theorem effect_setMaxConn_iff (v w : CString) :
    effect .setMaxConn data area v = effect .setMaxConn data area w ↔
      ¬ Distinguished 1 data.maxConn area.length (atoi v) (atoi w) :=
  effect_setting_iff (by decide) (by decide) (by decide) (fun n => { data with maxConn := n })
    (fun _ _ h => congrArg ServerData.maxConn h) _ _

theorem effect_setBuff_iff (v w : CString) :
    effect .setBuff data area v = effect .setBuff data area w ↔
      ¬ Distinguished BUFF_MIN_LEN data.bufferSize area.length (atoi v) (atoi w) :=
  effect_setting_iff (by decide) (by decide) (by decide) (fun n => { data with bufferSize := n })
    (fun _ _ h => congrArg ServerData.bufferSize h) _ _

/-- An argument of full size is not the name of a log level. -/
theorem handleSetLoglevel_long (harg : ARGS_LEN ≤ q.arg1Text.length) :
    handleSetLoglevel q data area = (data, snprintf area 0 (ascii "ERROR: invalid log level\n")) := by
  have hne : ∀ level : CString, level.length < ARGS_LEN → q.arg1Text ≠ level := by
    rintro level hlevel rfl
    omega
  rw [handleSetLoglevel, if_neg (hne _ (by decide)), if_neg (hne _ (by decide)),
    if_neg (hne _ (by decide)), if_neg (hne _ (by decide))]

end Effects

section Observations

variable {beyond : List UInt8} {data : ServerData} {p p' : S5adminCmdParsed} {a : CString}
  {line area : List UInt8} {c : CommandLine} {cmd : S5adminCommand}

/-- What is observed of a line is what the handler makes of the record it sets. -/
theorem observe_configHandler (p : S5adminCmdParsed) (data : ServerData) (area : List UInt8)
    (h : commandLine (tokens isSeparator line) = some c) :
    ∃ q, c.Sets p q ∧ observe (configHandler p data line area) =
      .ok (text (commandHandlers q.cmd q data area).2, (commandHandlers q.cmd q data area).1) := by
  rcases configHandler_sets p data line area with ⟨hnone, -⟩ | ⟨c', r, hsome, hr, hsets, -, hrun⟩
  · cases hnone.symm.trans h
  · obtain rfl := Option.some.inj (hsome.symm.trans h)
    refine ⟨r.parsed, hsets, ?_⟩
    rw [hrun, hr]
    rfl

/-- A single argument of full size is seen together with the string at `arg2`. -/
theorem observe_effect (hcmd : cmd = .removeUser ∨ cmd = .setMaxConn ∨ cmd = .setBuff)
    (ha : ∀ x ∈ a, x ≠ 0) (hlen : a.length = ARGS_LEN)
    (h : commandLine (tokens isSeparator line) = some (.accepted cmd [a])) :
    observe (configHandler p data line area) = .ok (effect cmd data area (a ++ p.arg2Text)) := by
  obtain ⟨q, ⟨rfl, harg⟩, hobserve⟩ := observe_configHandler p data area h
  rw [List.append_assoc, text_argField ha hlen.le, if_pos hlen] at harg
  rw [hobserve, commandHandlers_effect hcmd, harg]
  rfl

/-- What `arg2` holds makes no difference to an argument that does not leak. -/
theorem Residual.effect_eq (hp : Residual beyond p) (hnames : NamesBounded data.users)
    (hcmd : cmd = .removeUser ∨ cmd = .setMaxConn ∨ cmd = .setBuff) (hlen : a.length = ARGS_LEN)
    (hkept : ¬ Leaks beyond data area.length (.accepted cmd [a])) :
    effect cmd data area (a ++ p.arg2Text) = effect cmd data area a := by
  rcases hp.arg2Text with hempty | ⟨t, ht, hresidue⟩
  · rw [hempty, List.append_nil]
  rcases hcmd with rfl | rfl | rfl
  · have harea : area.length < 265 := Nat.lt_of_not_le fun h => hkept ⟨hlen, h⟩
    have hbare := effect_removeUser_short hnames hlen harea []
    rw [List.append_nil] at hbare
    rw [effect_removeUser_short hnames hlen harea, hbare]
  · rw [hresidue, eq_comm, effect_setMaxConn_iff]
    exact fun hdiffer => hkept ⟨hlen, t, ht, hdiffer⟩
  · rw [hresidue, eq_comm, effect_setBuff_iff]
    exact fun hdiffer => hkept ⟨hlen, t, ht, hdiffer⟩

/-- A line that does not leak has the same effect behind any two records that commands leave. -/
theorem observe_congr (hline : ∀ x ∈ line, x ≠ 0) (hnames : NamesBounded data.users)
    (hp : Residual beyond p) (hp' : Residual beyond p')
    (h : commandLine (tokens isSeparator line) = some c)
    (hkept : ¬ Leaks beyond data area.length c) :
    observe (configHandler p data line area) = observe (configHandler p' data line area) := by
  obtain ⟨q, hsets, hq⟩ := observe_configHandler p data area h
  obtain ⟨q', hsets', hq'⟩ := observe_configHandler p' data area h
  rw [hq, hq']
  have hsame : commandHandlers q.cmd q data area = commandHandlers q'.cmd q' data area → _ :=
    congrArg fun r : ServerData × List UInt8 =>
      (Except.ok (text r.2, r.1) : Except Fault (List UInt8 × ServerData))
  cases c with
  | refused why =>
    obtain ⟨hcmd, harg⟩ := hsets
    obtain ⟨hcmd', harg'⟩ := hsets'
    rw [hcmd, hcmd'] at hsame ⊢
    exact hsame (commandHandlers_congr (by decide) (harg.trans harg'.symm))
  | accepted cmd args =>
    obtain ⟨⟨info, hinfo, rfl, hexpected⟩, hargs⟩ := commandLine_accepted h
    cases args with
    | nil =>
      rw [show q.cmd = info.cmd from hsets, show q'.cmd = info.cmd from hsets'] at hsame ⊢
      exact hsame (commandHandlers_noArgs (noArgs_readsRecord info hinfo hexpected.symm))
    | cons a rest =>
      have hplain : ∀ x ∈ a, x ≠ 0 := fun x hx =>
        (isArgument_of_mem hline (hargs a List.mem_cons_self).1
          (hargs a List.mem_cons_self).2).plain x hx |>.2
      have hshort := (hargs a List.mem_cons_self).2
      cases rest with
      | nil =>
        obtain ⟨hcmd, harg⟩ := hsets
        obtain ⟨hcmd', harg'⟩ := hsets'
        have hone : info.cmd = .removeUser ∨ info.cmd = .setLoglevel ∨ info.cmd = .setMaxConn ∨
            info.cmd = .setBuff :=
          (by decide : ∀ info ∈ commands, 1 = info.expectedArgs → info.cmd = .removeUser ∨
            info.cmd = .setLoglevel ∨ info.cmd = .setMaxConn ∨ info.cmd = .setBuff) info hinfo
            hexpected
        rw [List.append_assoc, text_argField hplain hshort] at harg harg'
        rw [hcmd, hcmd'] at hsame ⊢
        by_cases hfull : a.length = ARGS_LEN
        · rw [if_pos hfull] at harg harg'
          by_cases hlevel : info.cmd = .setLoglevel
          · rw [hlevel] at hsame ⊢
            refine hsame ?_
            rw [commandHandlers, handleSetLoglevel_long, handleSetLoglevel_long]
            · rw [harg', List.length_append]
              omega
            · rw [harg, List.length_append]
              omega
          · have hcmd : info.cmd = .removeUser ∨ info.cmd = .setMaxConn ∨ info.cmd = .setBuff := by
              rcases hone with hc | hc | hc | hc
              · exact .inl hc
              · exact absurd hc hlevel
              · exact .inr (.inl hc)
              · exact .inr (.inr hc)
            rw [commandHandlers_effect hcmd, commandHandlers_effect hcmd, harg, harg']
            exact congrArg Except.ok ((hp.effect_eq hnames hcmd hfull hkept).trans
              (hp'.effect_eq hnames hcmd hfull hkept).symm)
        · rw [if_neg hfull] at harg harg'
          refine hsame (commandHandlers_congr ?_ (harg.trans harg'.symm))
          rcases hone with hc | hc | hc | hc <;> rw [hc] <;> decide
      | cons b rest =>
        obtain ⟨hcmd, harg₁, harg₂⟩ := hsets
        obtain ⟨hcmd', harg₁', harg₂'⟩ := hsets'
        have htwo : info.cmd = .addUser :=
          (by decide : ∀ info ∈ commands, 2 ≤ info.expectedArgs → info.cmd = .addUser) info hinfo
            (by rw [← hexpected, List.length_cons, List.length_cons]; omega)
        rw [hcmd, hcmd', htwo] at hsame ⊢
        rw [hp.beyond] at harg₁ harg₂
        rw [hp'.beyond] at harg₁' harg₂'
        exact hsame (commandHandlers_addUser_congr (harg₁.trans harg₁'.symm)
          (harg₂.trans harg₂'.symm))

theorem leaks_not_historyFree (hline : ∀ x ∈ line, x ≠ 0) (hnames : NamesBounded data.users)
    (h : commandLine (tokens isSeparator line) = some c) (hleaks : Leaks beyond data area.length c) :
    ¬ HistoryFree beyond data line area := by
  intro hfree
  have hargs : ∀ {cmd : S5adminCommand} {a : CString}, c = .accepted cmd [a] → ∀ x ∈ a, x ≠ 0 := by
    rintro cmd a rfl x hx
    obtain ⟨ha, hshort⟩ := (commandLine_accepted h).2 a List.mem_cons_self
    exact ((isArgument_of_mem hline ha hshort).plain x hx).2
  -- the same line on the first record, and behind one refused ADD_USER
  have hbehind : ∀ {cmd : S5adminCommand} {a t : CString},
      cmd = .removeUser ∨ cmd = .setMaxConn ∨ cmd = .setBuff → a.length = ARGS_LEN →
      c = .accepted cmd [a] → IsArgument t →
      effect cmd data area a = effect cmd data area (a ++ residue beyond t) := by
    intro cmd a t hcmd hlen hc ht
    subst hc
    obtain ⟨history, p, hstrings, hrun, htext⟩ := exists_residue beyond data ht
    have hsame := hfree [] history data data _ p (fun _ hin => absurd hin (List.not_mem_nil)) hstrings
      rfl hrun
    rw [observe_effect hcmd (hargs rfl) hlen h, observe_effect hcmd (hargs rfl) hlen h, htext,
      show (initialCmdParsed beyond).arg2Text = [] from rfl, List.append_nil] at hsame
    exact Except.ok.inj hsame
  cases c with
  | refused => exact hleaks
  | accepted cmd args =>
    rcases args with _ | ⟨a, _ | ⟨b, rest⟩⟩
    · cases cmd <;> exact hleaks
    · cases cmd with
      | removeUser =>
        obtain ⟨hlen, harea⟩ := hleaks
        have hsecret : IsArgument (ascii "s") := isArgument_of_all (by decide) (by decide) rfl
        have hsame := hbehind (.inl rfl) hlen rfl hsecret
        have hplain : ∀ x ∈ residue beyond (ascii "s"), x ≠ 0 :=
          fun x hx => by simpa using List.mem_takeWhile_imp hx
        exact effect_removeUser_long hnames (hargs rfl) hlen harea (by decide) hplain hsame
      | setMaxConn =>
        obtain ⟨hlen, t, ht, hdiffer⟩ := hleaks
        exact (effect_setMaxConn_iff _ _).mp (hbehind (.inr (.inl rfl)) hlen rfl ht) hdiffer
      | setBuff =>
        obtain ⟨hlen, t, ht, hdiffer⟩ := hleaks
        exact (effect_setBuff_iff _ _).mp (hbehind (.inr (.inr rfl)) hlen rfl ht) hdiffer
      | _ => exact hleaks
    · cases cmd <;> exact hleaks

/-- Earlier commands make no difference to a line exactly when it does not leak. -/
theorem history_free_iff (hline : ∀ x ∈ line, x ≠ 0) (hnames : NamesBounded data.users) :
    HistoryFree beyond data line area ↔
      ∀ c, commandLine (tokens isSeparator line) = some c → ¬ Leaks beyond data area.length c := by
  constructor
  · intro hfree c hc hleaks
    exact leaks_not_historyFree hline hnames hc hleaks hfree
  · intro hkept history₁ history₂ start₁ start₂ p p' hstrings hstrings' hrun hrun'
    have hp := (residual_initial beyond).runCommands hstrings hrun
    have hp' := (residual_initial beyond).runCommands hstrings' hrun'
    cases hc : commandLine (tokens isSeparator line) with
    | none =>
      have herr : ∀ p, configHandler p data line area = .error .nullDeref := by
        intro p
        rcases configHandler_sets p data line area with ⟨-, herr⟩ | ⟨c, r, hsome, -⟩
        · exact herr
        · cases hc.symm.trans hsome
      rw [herr, herr]
    | some c => exact observe_congr hline hnames hp hp' hc (hkept c hc)

/-- REMOVE_USER of a user with a name of three characters. -/
theorem history_free_bob : HistoryFree []
    { startedData with users := (authAddUser authInit (ascii "bob") (ascii "secret")).2 }
    (ascii "REMOVE_USER bob") (List.replicate 300 0) := by
  have hnames : NamesBounded authInit := fun _ _ h => absurd h List.not_mem_nil
  refine (history_free_iff (by decide +kernel) (hnames.authAddUser _ _)).mpr ?_
  intro c hc
  have hread : commandLine (tokens isSeparator (ascii "REMOVE_USER bob")) =
      some (.accepted .removeUser [ascii "bob"]) := by decide
  obtain rfl := Option.some.inj (hread.symm.trans hc)
  exact fun hleaks => absurd hleaks.1 (by decide)

/-- REMOVE_USER of a name of 256 characters shows an argument of an earlier command. -/
theorem not_history_free : ¬ HistoryFree [] startedData
    (ascii "REMOVE_USER" ++ 32 :: List.replicate ARGS_LEN 117) (List.replicate MAX_RESPONSE_LEN 0) := by
  have hname : ∀ x ∈ List.replicate ARGS_LEN (117 : UInt8), isSeparator x = false := by
    intro x hx
    rw [List.eq_of_mem_replicate hx]
    rfl
  have htokens : tokens isSeparator (ascii "REMOVE_USER" ++ 32 :: List.replicate ARGS_LEN 117) =
      [ascii "REMOVE_USER", List.replicate ARGS_LEN 117] := by
    rw [isArgument_removeUser.tokens_cons, tokens_word (by decide) hname]
  have hread : commandLine [ascii "REMOVE_USER", List.replicate ARGS_LEN 117] =
      some (.accepted .removeUser [List.replicate ARGS_LEN 117]) := by
    have hinfo : commands.find? (fun info => ascii "REMOVE_USER" == info.name) =
        some ⟨.removeUser, ascii "REMOVE_USER", 1⟩ := by decide
    rw [commandLine, hinfo]
    dsimp only
    rw [collectArgs, if_neg (by rw [List.length_replicate]; omega)]
    rfl
  have hleaks : Leaks [] startedData (List.replicate MAX_RESPONSE_LEN (0 : UInt8)).length
      (.accepted .removeUser [List.replicate ARGS_LEN 117]) := by
    rw [List.length_replicate]
    exact ⟨List.length_replicate, by decide⟩
  refine leaks_not_historyFree ?_ (fun _ _ h => absurd h (List.not_mem_nil))
    (htokens ▸ hread) hleaks
  intro x hx
  rcases List.mem_append.mp hx with hx | hx
  · exact isArgument_removeUser.ne_zero x hx
  · rcases List.mem_cons.mp hx with rfl | hx
    · decide
    · rw [List.eq_of_mem_replicate hx]
      decide

end Observations

end Socks5d
