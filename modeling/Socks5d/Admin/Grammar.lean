import Socks5d.Admin.Commands

/-!
# The grammar of the admin commands

The documented commands are listed here once more, each with its word and the number of its
arguments. What the parser leaves in the record agrees with that list for every line: the first
token decides the command, and the number of the others whether the line is refused.
-/

namespace Socks5d

open CStrings

namespace S5adminCommand

/-- The word a command is documented under. -/
def word : S5adminCommand → CString
  | addUser => ascii "ADD_USER"
  | removeUser => ascii "REMOVE_USER"
  | listUsers => ascii "LIST_USERS"
  | getMetrics => ascii "GET_METRICS"
  | getAccessRegister => ascii "GET_ACCESS_REGISTER"
  | setLoglevel => ascii "SET_LOGLEVEL"
  | setMaxConn => ascii "SET_MAX_CONN"
  | setBuff => ascii "SET_BUFF"
  | getConfig => ascii "GET_CONFIG"
  | help => ascii "HELP"
  | ping => ascii "PING"
  | exit => ascii "EXIT"
  | invalid => []

/-- The number of arguments a command is documented with. -/
def arity : S5adminCommand → ℕ
  | addUser => 2
  | removeUser | setLoglevel | setMaxConn | setBuff => 1
  | _ => 0

end S5adminCommand

/-- The record holds a refusal with this message. -/
def S5adminCmdParsed.Refuses (q : S5adminCmdParsed) (message : CString) : Prop :=
  q.cmd = .invalid ∧ q.arg1Text = message

/-- What the record holds for a line whose first token is a word and whose others are its
arguments. -/
structure Grammar (name : CString) (args : List CString) (q : S5adminCmdParsed) : Prop where
  /-- The word names no command. -/
  unknown : (∀ cmd : S5adminCommand, cmd ≠ .invalid → name ≠ cmd.word) → q.Refuses (ascii "invalid command")
  missing : ∀ cmd : S5adminCommand, cmd ≠ .invalid → name = cmd.word → args.length < cmd.arity →
    q.Refuses (ascii "missing argument")
  tooMany : ∀ cmd : S5adminCommand, cmd ≠ .invalid → name = cmd.word → cmd.arity < args.length →
    q.Refuses (ascii "too many arguments")
  accepted : ∀ cmd : S5adminCommand, cmd ≠ .invalid → name = cmd.word → args.length = cmd.arity →
    q.cmd = cmd ∧ (∀ a, args[0]? = some a → q.arg1Text = a) ∧ ∀ b, args[1]? = some b → q.arg2Text = b

variable {p q : S5adminCmdParsed} {name line : CString} {args toks : List CString}

/-- The table of the parser lists every command, with its word and its arguments. -/
theorem commands_eq : commands = [S5adminCommand.addUser, .removeUser, .listUsers, .getMetrics,
    .getAccessRegister, .setLoglevel, .setMaxConn, .setBuff, .getConfig, .help, .ping, .exit].map
      fun cmd => ⟨cmd, cmd.word, cmd.arity⟩ := rfl

theorem mem_commands {cmd : S5adminCommand} (hcmd : cmd ≠ .invalid) :
    ⟨cmd, cmd.word, cmd.arity⟩ ∈ commands := by
  rw [commands_eq]
  apply List.mem_map_of_mem
  cases cmd with
  | invalid => exact absurd rfl hcmd
  | _ => simp

/-- Every row is that of a command. -/
theorem of_mem_commands {info : S5adminCmdInfo} (h : info ∈ commands) :
    info.cmd ≠ .invalid ∧ info = ⟨info.cmd, info.cmd.word, info.cmd.arity⟩ := by
  rw [commands_eq] at h
  obtain ⟨cmd, hmem, rfl⟩ := List.mem_map.mp h
  refine ⟨?_, rfl⟩
  rintro rfl
  simp at hmem

/-- No two commands have one word. -/
theorem word_injective : ∀ info ∈ commands, ∀ info' ∈ commands, info.name = info'.name → info = info' := by
  decide +kernel

theorem find_command {cmd : S5adminCommand} (hcmd : cmd ≠ .invalid) :
    (commands.find? fun info => cmd.word == info.name) = some ⟨cmd, cmd.word, cmd.arity⟩ := by
  cases hfind : commands.find? fun info => cmd.word == info.name with
  | none =>
    have hnone := List.find?_eq_none.mp hfind _ (mem_commands hcmd)
    simp at hnone
  | some info =>
    have hname : cmd.word = info.name := by simpa using List.find?_some hfind
    exact congrArg some (word_injective _ (List.mem_of_find?_eq_some hfind) _ (mem_commands hcmd)
      hname.symm)

/-- Arguments that fit their arrays are refused only for their number. -/
theorem collectArgs_eq (cmd : S5adminCommand) (n : ℕ) (front : List CString)
    (hshort : ∀ w ∈ toks, w.length ≤ ARGS_LEN) :
    collectArgs cmd n front toks =
      if toks.length < n then .refused .missingArgument
      else if n < toks.length then .refused .tooManyArguments
      else .accepted cmd (front ++ toks) := by
  induction toks generalizing n front with
  | nil =>
    cases n with
    | zero => simp [collectArgs]
    | succ n => simp [collectArgs]
  | cons a toks ih =>
    cases n with
    | zero => simp [collectArgs]
    | succ n =>
      have ha : ¬ ARGS_LEN < a.length := Nat.not_lt.mpr (hshort a List.mem_cons_self)
      rw [collectArgs, if_neg ha, ih n (front ++ [a]) fun w hw => hshort w (List.mem_cons_of_mem _ hw),
        ← List.append_cons]
      simp only [List.length_cons, Nat.add_lt_add_iff_right]

/-- A line whose tokens are shorter than the arrays of the record is parsed by the grammar,
whatever the record held. -/
theorem s5adminParseCommand_grammar (p : S5adminCmdParsed) (line name : CString)
    (args : List CString) (hnul : ∀ c ∈ line, c ≠ 0)
    (htoks : tokens isSeparator line = name :: args)
    (hshort : ∀ w ∈ name :: args, w.length ≤ 255) :
    ∃ q t, s5adminParseCommand p line = .ok (q, t) ∧ Grammar name args q := by
  rcases s5adminParseCommand_sets p line with ⟨hnone, -⟩ | ⟨c, q, t, hline, hok, hsets, -⟩
  · rw [htoks, commandLine] at hnone
    split at hnone <;> cases hnone
  refine ⟨q, t, hok, ?_⟩
  rw [htoks, commandLine] at hline
  have hargs : ∀ a ∈ args, (∀ x ∈ a, x ≠ 0) ∧ a.length < ARGS_LEN := by
    intro a ha
    have hmem : a ∈ tokens isSeparator line := htoks ▸ List.mem_cons_of_mem _ ha
    exact ⟨fun x hx => hnul x ((mem_tokens hmem).2 x hx).2,
      Nat.lt_succ_of_le (hshort a (List.mem_cons_of_mem _ ha))⟩
  -- a command's own word finds its row
  have hcommand : ∀ cmd, cmd ≠ .invalid → name = cmd.word →
      c = if args.length < cmd.arity then .refused .missingArgument
        else if cmd.arity < args.length then .refused .tooManyArguments
        else .accepted cmd args := by
    intro cmd hcmd hname
    rw [hname, find_command hcmd] at hline
    rw [← Option.some.inj hline, collectArgs_eq _ _ _ fun a ha => (hargs a ha).2.le,
      List.nil_append]
  constructor
  · intro hunknown
    cases hfind : commands.find? fun info => name == info.name with
    | none =>
      rw [hfind] at hline
      obtain rfl := Option.some.inj hline
      exact hsets
    | some info =>
      obtain ⟨hcmd, hinfo⟩ := of_mem_commands (List.mem_of_find?_eq_some hfind)
      have hname : name = info.name := by simpa using List.find?_some hfind
      rw [hinfo] at hname
      exact absurd hname (hunknown info.cmd hcmd)
  · intro cmd hcmd hname hmissing
    rw [hcommand cmd hcmd hname, if_pos hmissing] at hsets
    exact hsets
  · intro cmd hcmd hname hmany
    rw [hcommand cmd hcmd hname, if_neg (by omega), if_pos hmany] at hsets
    exact hsets
  · intro cmd hcmd hname hequal
    rw [hcommand cmd hcmd hname, if_neg (by omega), if_neg (by omega)] at hsets
    have htext : ∀ a ∈ args, ∀ rest, text (argField a ++ rest) = a := by
      intro a ha rest
      obtain ⟨hfree, hlt⟩ := hargs a ha
      rw [text_argField hfree hlt.le, if_neg (Nat.ne_of_lt hlt), List.append_nil]
    cases args with
    | nil =>
      refine ⟨hsets, ?_, ?_⟩
      · intro a ha
        cases ha
      · intro b hb
        cases hb
    | cons a args =>
      cases args with
      | nil =>
        obtain ⟨hq, ha⟩ := hsets
        refine ⟨hq, ?_, ?_⟩
        · intro a' ha'
          obtain rfl := Option.some.inj ha'
          rw [ha, List.append_assoc, htext a List.mem_cons_self]
        · intro b hb
          cases hb
      | cons b args =>
        obtain ⟨hq, ha, hb⟩ := hsets
        refine ⟨hq, ?_, ?_⟩
        · intro a' ha'
          obtain rfl := Option.some.inj ha'
          rw [ha, List.append_assoc, htext a List.mem_cons_self]
        · intro b' hb'
          obtain rfl := Option.some.inj hb'
          rw [hb, htext b (List.mem_cons_of_mem _ List.mem_cons_self)]

/-- A user is added with a line that ends in a carriage return. -/
theorem s5adminParseCommand_grammar_add :
    ∃ q t, s5adminParseCommand (initialCmdParsed []) (ascii " ADD_USER  ana x\r") = .ok (q, t) ∧
      Grammar (ascii "ADD_USER") [ascii "ana", ascii "x"] q :=
  s5adminParseCommand_grammar _ _ _ _ (by decide +kernel) (by decide +kernel) (by decide +kernel)

end Socks5d
