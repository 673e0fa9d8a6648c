import Socks5d.Admin.Effects

/-!
# What a command line asks for

The tokens of a line decide whether it is refused, and otherwise the command and its arguments.
The parser leaves that in the record, except that a string read from `arg1` or `arg2` ends only
at a zero: an argument of 256 bytes is continued by what the record held before.
-/

namespace Socks5d

open CStrings Fallible

/-- The meaning of a line. -/
inductive CommandLine
  | refused (why : Rejection)
  | accepted (cmd : S5adminCommand) (args : List CString)
  deriving DecidableEq, Repr

/-- Take the expected number of arguments from the tokens behind the name. -/
def collectArgs (cmd : S5adminCommand) : ℕ → List CString → List CString → CommandLine
  | 0, args, [] => .accepted cmd args
  | 0, _, _ :: _ => .refused .tooManyArguments
  | _ + 1, _, [] => .refused .missingArgument
  | n + 1, args, a :: rest =>
    if a.length > ARGS_LEN then .refused .argumentTooLong else collectArgs cmd n (args ++ [a]) rest

/-- The meaning of the tokens of a line; without a token there is none. -/
def commandLine : List CString → Option CommandLine
  | [] => none
  | name :: rest =>
    match commands.find? fun info => name == info.name with
    | some info => some (collectArgs info.cmd info.expectedArgs [] rest)
    | none => some (.refused .invalidCommand)

/-- The array that `strncpy` fills with an argument. -/
def argField (s : CString) : List UInt8 := (s ++ List.replicate ARGS_LEN 0).take ARGS_LEN

/-- What the parser leaves in the record for a line of this meaning. -/
def CommandLine.Sets (p q : S5adminCmdParsed) : CommandLine → Prop
  | .refused why => q.cmd = .invalid ∧ q.arg1Text = why.message
  | .accepted cmd [] => q.cmd = cmd
  | .accepted cmd [a] => q.cmd = cmd ∧ q.arg1Text = text (argField a ++ p.arg2 ++ p.beyond)
  | .accepted cmd (a :: b :: _) => q.cmd = cmd ∧
      q.arg1Text = text (argField a ++ argField b ++ p.beyond) ∧
      q.arg2Text = text (argField b ++ p.beyond)

/-- What becomes of `arg2` and of the memory behind the record. -/
structure LeavesBehind (toks : List CString) (p q : S5adminCmdParsed) : Prop where
  beyond : q.beyond = p.beyond
  arg2 : q.arg2 = p.arg2 ∨ ∃ b ∈ toks, b.length ≤ ARGS_LEN ∧ q.arg2 = argField b

section Record

variable (p : S5adminCmdParsed)

theorem length_argField (s : CString) : (argField s).length = ARGS_LEN := by
  simp only [argField, List.length_take, List.length_append, List.length_replicate]
  omega

theorem overwrite_whole {mem bytes : List UInt8} (h : bytes.length = mem.length) :
    overwrite mem 0 bytes = bytes := by
  rw [overwrite, List.take_zero, List.nil_append, Nat.sub_zero, Nat.zero_add, ← h,
    List.take_length, List.drop_eq_nil_iff.mpr h.symm.le, List.append_nil]

theorem setArg1_arg1 (token : CString) : (p.setArg1 token).arg1 = argField token :=
  overwrite_whole ((length_argField token).trans p.arg1_length.symm)

theorem setArg2_arg2 (token : CString) : (p.setArg2 token).arg2 = argField token :=
  overwrite_whole ((length_argField token).trans p.arg2_length.symm)

/-- The reason of a refusal is read back whole. -/
theorem arg1Text_reject (why : Rejection) : (p.reject why).arg1Text = why.message := by
  have hlen : (why.message ++ [(0 : UInt8)]).length ≤ p.arg1.length := by
    rw [p.arg1_length]
    cases why <;> decide
  have hzero : ∀ c ∈ why.message, c ≠ 0 := by cases why <;> decide +kernel
  change text (overwrite p.arg1 0 (why.message ++ [0]) ++ p.arg2 ++ p.beyond) = _
  rw [overwrite, List.take_zero, List.nil_append, Nat.sub_zero, List.take_of_length_le hlen,
    List.append_assoc, List.append_assoc, List.append_assoc, List.singleton_append,
    text_append_zero, text_eq_self hzero]

theorem refused_sets (why : Rejection) (q : S5adminCmdParsed) :
    (CommandLine.refused why).Sets p (q.reject why) :=
  ⟨rfl, arg1Text_reject q why⟩

end Record

section Tokens

variable {p q : S5adminCmdParsed} {t : Scan} {a b : CString} {rest : List CString}

theorem nextArgument_nil (h : tokens isSeparator t.left = []) :
    ∃ t', nextArgument t = (.error .missingArgument, t') := by
  have hfound := (strtokR_tokens isSeparator t).1
  rw [h] at hfound
  unfold nextArgument
  split
  · exact ⟨_, rfl⟩
  · rename_i hsome
    rw [hsome] at hfound
    cases hfound

theorem nextArgument_cons (h : tokens isSeparator t.left = a :: rest) :
    ARGS_LEN < a.length ∧ (∃ t', nextArgument t = (.error .argumentTooLong, t')) ∨
    a.length ≤ ARGS_LEN ∧ ∃ t', nextArgument t = (.ok a, t') ∧ tokens isSeparator t'.left = rest := by
  obtain ⟨hfound, hleft⟩ := strtokR_tokens isSeparator t
  rw [h] at hfound hleft
  unfold nextArgument
  split
  · rename_i hnone
    rw [hnone] at hfound
    cases hfound
  · rename_i token t' hsome
    rw [hsome] at hfound hleft
    obtain rfl := Option.some.inj hfound
    split
    · rename_i hlong
      exact .inl ⟨hlong, _, rfl⟩
    · rename_i hshort
      exact .inr ⟨by omega, t', rfl, hleft⟩

theorem noMoreArguments_nil (h : tokens isSeparator t.left = []) :
    (noMoreArguments p t).1 = p := by
  have hfound := (strtokR_tokens isSeparator t).1
  rw [h] at hfound
  unfold noMoreArguments
  split
  · rename_i hsome
    rw [hsome] at hfound
    cases hfound
  · rfl

theorem noMoreArguments_cons (h : tokens isSeparator t.left = a :: rest) :
    (noMoreArguments p t).1 = p.reject .tooManyArguments := by
  have hfound := (strtokR_tokens isSeparator t).1
  rw [h] at hfound
  unfold noMoreArguments
  split
  · rfl
  · rename_i hnone
    rw [hnone] at hfound
    cases hfound

/-- The record `q` follows from `p` as these tokens say, for so many expected arguments. -/
def ArgsParsed (p q : S5adminCmdParsed) (n : ℕ) (toks : List CString) : Prop :=
  (collectArgs p.cmd n [] toks).Sets p q ∧ LeavesBehind toks p q

theorem argsParsed_zero (p : S5adminCmdParsed) (t : Scan) :
    ArgsParsed p (s5adminParseCommandArgs p t 0).1 0 (tokens isSeparator t.left) := by
  change ArgsParsed p (noMoreArguments p t).1 0 _
  cases htoks : tokens isSeparator t.left with
  | nil =>
    rw [noMoreArguments_nil htoks]
    exact ⟨rfl, rfl, .inl rfl⟩
  | cons a rest =>
    rw [noMoreArguments_cons htoks]
    exact ⟨refused_sets _ _ _, rfl, .inl rfl⟩

theorem argsParsed_one (p : S5adminCmdParsed) (t : Scan) :
    ArgsParsed p (s5adminParseCommandArgs p t 1).1 1 (tokens isSeparator t.left) := by
  cases htoks : tokens isSeparator t.left with
  | nil =>
    obtain ⟨t', hn⟩ := nextArgument_nil htoks
    simp only [s5adminParseCommandArgs, hn]
    exact ⟨refused_sets _ _ _, rfl, .inl rfl⟩
  | cons a rest =>
    rcases nextArgument_cons htoks with ⟨hlong, t', hn⟩ | ⟨hshort, t', hn, hrest⟩
    · simp only [s5adminParseCommandArgs, hn, ArgsParsed, collectArgs, if_pos hlong]
      exact ⟨refused_sets _ _ _, rfl, .inl rfl⟩
    · simp only [s5adminParseCommandArgs, hn, ArgsParsed, collectArgs,
        if_neg (Nat.not_lt.mpr hshort), List.nil_append]
      cases rest with
      | nil =>
        rw [noMoreArguments_nil hrest]
        refine ⟨⟨rfl, ?_⟩, rfl, .inl rfl⟩
        rw [S5adminCmdParsed.arg1Text, setArg1_arg1]
        rfl
      | cons b rest =>
        rw [noMoreArguments_cons hrest]
        exact ⟨refused_sets _ _ _, rfl, .inl rfl⟩

theorem argsParsed_two (p : S5adminCmdParsed) (t : Scan) :
    ArgsParsed p (s5adminParseCommandArgs p t 2).1 2 (tokens isSeparator t.left) := by
  cases htoks : tokens isSeparator t.left with
  | nil =>
    obtain ⟨t', hn⟩ := nextArgument_nil htoks
    simp only [s5adminParseCommandArgs, hn]
    exact ⟨refused_sets _ _ _, rfl, .inl rfl⟩
  | cons a rest =>
    rcases nextArgument_cons htoks with ⟨hlong, t', hn⟩ | ⟨hshort, t', hn, hrest⟩
    · simp only [s5adminParseCommandArgs, hn, ArgsParsed, collectArgs, if_pos hlong]
      exact ⟨refused_sets _ _ _, rfl, .inl rfl⟩
    -- the second argument
    cases rest with
    | nil =>
      obtain ⟨t'', hn'⟩ := nextArgument_nil hrest
      simp only [s5adminParseCommandArgs, hn, hn', ArgsParsed, collectArgs,
        if_neg (Nat.not_lt.mpr hshort)]
      exact ⟨refused_sets _ _ _, rfl, .inl rfl⟩
    | cons b rest =>
      rcases nextArgument_cons hrest with ⟨hlong, t'', hn'⟩ | ⟨hshort', t'', hn', hrest'⟩
      · simp only [s5adminParseCommandArgs, hn, hn', ArgsParsed, collectArgs,
          if_neg (Nat.not_lt.mpr hshort), if_pos hlong]
        exact ⟨refused_sets _ _ _, rfl, .inl rfl⟩
      · have hleft : ∀ q : S5adminCmdParsed, q.beyond = p.beyond →
            q.arg2 = ((p.setArg1 a).setArg2 b).arg2 → LeavesBehind (a :: b :: rest) p q :=
          fun q hb h2 => ⟨hb, .inr ⟨b, by simp, hshort', h2.trans (setArg2_arg2 _ _)⟩⟩
        simp only [s5adminParseCommandArgs, hn, hn', ArgsParsed, collectArgs,
          if_neg (Nat.not_lt.mpr hshort), if_neg (Nat.not_lt.mpr hshort'), List.nil_append]
        cases rest with
        | nil =>
          rw [noMoreArguments_nil hrest']
          refine ⟨⟨rfl, ?_, ?_⟩, hleft _ rfl rfl⟩
          · rw [S5adminCmdParsed.arg1Text, setArg2_arg2, ← setArg1_arg1 p a]
            rfl
          · rw [S5adminCmdParsed.arg2Text, setArg2_arg2]
            rfl
        | cons c rest =>
          rw [noMoreArguments_cons hrest']
          exact ⟨refused_sets _ _ _, hleft _ rfl rfl⟩

/-- No command of the table expects more than two arguments. -/
theorem argsParsed_of_le_two (p : S5adminCmdParsed) (t : Scan) {n : ℕ} (hn : n ≤ 2) :
    ArgsParsed p (s5adminParseCommandArgs p t n).1 n (tokens isSeparator t.left) := by
  match n, hn with
  | 0, _ => exact argsParsed_zero p t
  | 1, _ => exact argsParsed_one p t
  | 2, _ => exact argsParsed_two p t

theorem expectedArgs_le_two : ∀ info ∈ commands, info.expectedArgs ≤ 2 := by decide

/-- The parser leaves in the record what the line asks for. -/
theorem s5adminParseCommand_sets (p : S5adminCmdParsed) (line : CString) :
    (commandLine (tokens isSeparator line) = none ∧
      s5adminParseCommand p line = .error .nullDeref) ∨
    ∃ c q t, commandLine (tokens isSeparator line) = some c ∧
      s5adminParseCommand p line = .ok (q, t) ∧ c.Sets p q ∧
      LeavesBehind (tokens isSeparator line) p q := by
  obtain ⟨hfound, hleft⟩ := strtokR_tokens isSeparator ⟨[], line⟩
  unfold s5adminParseCommand
  dsimp only at hfound hleft ⊢
  rcases hn : strtokR isSeparator ⟨[], line⟩ with ⟨found, t⟩
  rw [hn] at hfound hleft
  subst hfound
  cases htoks : tokens isSeparator line with
  | nil => exact .inl ⟨rfl, rfl⟩
  | cons name rest =>
    right
    rw [htoks, List.tail_cons] at hleft
    simp only [List.head?_cons, commandLine]
    cases hinfo : commands.find? fun info => name == info.name with
    | none => exact ⟨_, _, _, rfl, rfl, refused_sets p .invalidCommand p, rfl, .inl rfl⟩
    | some info =>
      obtain ⟨hsets, hbehind⟩ := argsParsed_of_le_two
        { p.reject .invalidCommand with cmd := info.cmd } t
        (expectedArgs_le_two info (List.mem_of_find?_eq_some hinfo))
      rw [hleft] at hsets hbehind
      refine ⟨_, _, _, rfl, rfl, ?_, hbehind.beyond, ?_⟩
      · cases hc : collectArgs info.cmd info.expectedArgs [] rest with
        | refused why =>
          rw [hc] at hsets
          exact hsets
        | accepted cmd args =>
          rw [hc] at hsets
          cases args with
          | nil => exact hsets
          | cons a args =>
            cases args with
            | nil => exact hsets
            | cons b args => exact hsets
      · rcases hbehind.arg2 with hsame | ⟨b, hb, hlen, hfield⟩
        · exact .inl hsame
        · exact .inr ⟨b, List.mem_cons_of_mem _ hb, hlen, hfield⟩

/-- A command that was accepted has the arguments its row of the table expects. -/
theorem commandLine_accepted {toks : List CString} {cmd : S5adminCommand} {args : List CString}
    (h : commandLine toks = some (.accepted cmd args)) :
    (∃ info ∈ commands, info.cmd = cmd ∧ args.length = info.expectedArgs) ∧
      ∀ a ∈ args, a ∈ toks ∧ a.length ≤ ARGS_LEN := by
  have hcollect : ∀ (n : ℕ) (toks args' : List CString) (c : S5adminCommand),
      collectArgs c n args' toks = .accepted cmd args → c = cmd ∧ args.length = args'.length + n ∧
        ∀ a ∈ args, a ∈ args' ∨ a ∈ toks ∧ a.length ≤ ARGS_LEN := by
    intro n
    induction n with
    | zero =>
      intro toks args' c h
      cases toks with
      | nil =>
        obtain ⟨rfl, rfl⟩ := CommandLine.accepted.inj h
        exact ⟨rfl, rfl, fun a ha => .inl ha⟩
      | cons => cases h
    | succ n ih =>
      intro toks args' c h
      cases toks with
      | nil => cases h
      | cons a toks =>
        rw [collectArgs] at h
        split at h
        · cases h
        · rename_i hshort
          obtain ⟨hcmd, hlen, hfrom⟩ := ih _ _ _ h
          refine ⟨hcmd, by rw [hlen, List.length_append, List.length_singleton]; omega, ?_⟩
          intro x hx
          rcases hfrom x hx with hx | ⟨hx, hxlen⟩
          · rcases List.mem_append.mp hx with hx | hx
            · exact .inl hx
            · obtain rfl := List.mem_singleton.mp hx
              exact .inr ⟨List.mem_cons_self, Nat.not_lt.mp hshort⟩
          · exact .inr ⟨List.mem_cons_of_mem _ hx, hxlen⟩
  cases toks with
  | nil => cases h
  | cons name rest =>
    rw [commandLine] at h
    split at h
    · rename_i info hinfo
      obtain ⟨hcmd, hlen, hfrom⟩ := hcollect _ _ _ _ (Option.some.inj h)
      refine ⟨⟨info, List.mem_of_find?_eq_some hinfo, hcmd, by simpa using hlen⟩, fun a ha => ?_⟩
      obtain ⟨hmem, hshort⟩ := (hfrom a ha).resolve_left (by simp)
      exact ⟨List.mem_cons_of_mem _ hmem, hshort⟩
    · cases h

end Tokens

section Handlers

variable {p q q' : S5adminCmdParsed} {data : ServerData} {area : List UInt8}

/-- Only ADD_USER reads a second argument. -/
theorem commandHandlers_congr {cmd : S5adminCommand} (hcmd : cmd ≠ .addUser)
    (h : q.arg1Text = q'.arg1Text) : commandHandlers cmd q data area = commandHandlers cmd q' data area := by
  cases cmd with
  | addUser => exact absurd rfl hcmd
  | removeUser => simp only [commandHandlers, handleRemoveUser, h]
  | setLoglevel => simp only [commandHandlers, handleSetLoglevel, h]
  | setMaxConn => simp only [commandHandlers, handleSetMaxConn, h]
  | setBuff => simp only [commandHandlers, handleSetBuff, h]
  | invalid => simp only [commandHandlers, h]
  | _ => rfl

theorem commandHandlers_addUser_congr (h : q.arg1Text = q'.arg1Text)
    (h' : q.arg2Text = q'.arg2Text) :
    commandHandlers .addUser q data area = commandHandlers .addUser q' data area := by
  simp only [commandHandlers, handleAddUser, h, h']

/-- The handlers that read the record. -/
def readsRecord : List S5adminCommand :=
  [.addUser, .removeUser, .setLoglevel, .setMaxConn, .setBuff, .invalid]

/-- A command without arguments does not read the record. -/
theorem noArgs_readsRecord :
    ∀ info ∈ commands, info.expectedArgs = 0 → info.cmd ∉ readsRecord := by decide

theorem commandHandlers_noArgs {cmd : S5adminCommand} (hcmd : cmd ∉ readsRecord) :
    commandHandlers cmd q data area = commandHandlers cmd q' data area := by
  cases cmd with
  | addUser | removeUser | setLoglevel | setMaxConn | setBuff | invalid =>
    exact absurd (by decide) hcmd
  | _ => rfl

/-- An argument of the full size is continued by what follows its array. -/
theorem text_argField {a : CString} (ha : ∀ c ∈ a, c ≠ 0) (hlen : a.length ≤ ARGS_LEN)
    (rest : List UInt8) :
    text (argField a ++ rest) = a ++ if a.length = ARGS_LEN then text rest else [] := by
  have htake : argField a = a ++ List.replicate (ARGS_LEN - a.length) 0 := by
    rw [argField, List.take_append, List.take_of_length_le hlen, List.take_replicate,
      Nat.min_eq_left (by omega)]
  rw [htake, List.append_assoc, text_append ha]
  split
  · rename_i hfull
    rw [hfull, Nat.sub_self]
    rfl
  · obtain ⟨n, hn⟩ : ∃ n, ARGS_LEN - a.length = n + 1 := ⟨ARGS_LEN - a.length - 1, by omega⟩
    rw [hn, List.replicate_succ, List.cons_append]
    rfl

/-- `config_handler` runs the handler of what the line asks for. -/
theorem configHandler_sets (p : S5adminCmdParsed) (data : ServerData) (line area : List UInt8) :
    (commandLine (tokens isSeparator line) = none ∧
      configHandler p data line area = .error .nullDeref) ∨
    ∃ c r, commandLine (tokens isSeparator line) = some c ∧
      configHandler p data line area = .ok r ∧ c.Sets p r.parsed ∧
      LeavesBehind (tokens isSeparator line) p r.parsed ∧
      commandHandlers r.parsed.cmd r.parsed data area = (r.data, r.response) := by
  rcases s5adminParseCommand_sets p line with ⟨hline, herr⟩ | ⟨c, q, t, hline, hok, hsets, hbehind⟩
  · refine .inl ⟨hline, ?_⟩
    rw [configHandler, herr]
    rfl
  · have hrun : configHandler p data line area = .ok
        ⟨q, (commandHandlers q.cmd q data area).1, t.mem, (commandHandlers q.cmd q data area).2,
          (text (commandHandlers q.cmd q data area).2).length⟩ := by
      rw [configHandler, hok]
      rfl
    exact .inr ⟨c, _, hline, hrun, hsets, hbehind, rfl⟩

end Handlers

end Socks5d
