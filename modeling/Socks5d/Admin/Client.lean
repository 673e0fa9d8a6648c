import Socks5d.Admin.Replies

/-!
# The loop of the admin client

`admin_client_loop` of `admin_client.c` beside the stream of what the server answers. The loop
ends the wait for a reply as soon as one of its markers occurs in what the last `read` returned.
The empty string is a marker and occurs in everything, so the first read ends every wait, and
`BYE` ends the session wherever it stands. The client stays in step exactly as long as every reply
arrives in one read.
-/

namespace Socks5d

open CStrings GuardedRun Fallible

/-- `_responses`, in the order of `response_code_t`. -/
def responses : List CString :=
  [ascii "OK", ascii "ERROR", ascii "END", ascii "PONG", [], ascii "BYE"]

def RESPONSE_BYE : Fin responses.length := ⟨5, by decide⟩

/-- Why the loop was left. -/
inductive Ending
  | endOfInput
  | closed
  | bye
  deriving DecidableEq, Repr

/-- Where the loop waits: at the prompt, or for a reply. -/
inductive ClientMode
  | prompt
  | reading
  | ended (why : Ending)
  deriving DecidableEq, Repr

inductive ClientFault
  | parser (fault : Fault)
  /-- The terminating zero is stored at this index, outside of `resp`. -/
  | outOfBounds (index : ℕ)
  deriving DecidableEq, Repr

structure ClientState where
  /-- The static record of the client's parser. -/
  parsed : S5adminCmdParsed
  /-- What the server answers and the client has not read. -/
  stream : List UInt8
  mode : ClientMode

/-- The bytes the server sends for a line; a server that crashes sends none. -/
def serverReply (parsed : S5adminCmdParsed) (data : ServerData) (line area : List UInt8) :
    List UInt8 :=
  match adminAnswer parsed data line area with
  | .ok r => r.response.take r.result.toNat
  | .error _ => []

/-- What happens to the client. -/
inductive ClientEvent
  /-- The operator enters a line, and the server answers it in this state, if it is sent. -/
  | types (line : List UInt8) (parsed : S5adminCmdParsed) (data : ServerData) (area : List UInt8)
  | endOfInput
  /-- `read` returns so many bytes. -/
  | read (n : ℕ)
  /-- `read` returns 0. -/
  | closed
  /-- `read` returns -1. -/
  | readFails

/-- What `fgets` puts into `cmd` of a line. -/
def fgetsLine (line : List UInt8) : List UInt8 := (line ++ [newline]).take (MAX_CMD_LEN - 1)

/-- The loop from `fgets` to `write`. Of a line that does not fit `flush_stdin` takes the rest.
The socket takes every line whole. -/
def clientLine (s : ClientState) (line : List UInt8) (reply : List UInt8) :
    Except ClientFault ClientState :=
  let cmd := fgetsLine line
  if strchr newline cmd = none then .ok s
  else
    match s5adminParseCommand s.parsed cmd with
    | .error fault => .error (.parser fault)
    | .ok (parsed, _) =>
      let s := { s with parsed := parsed }
      if parsed.cmd = .invalid then .ok s
      else .ok { s with stream := s.stream ++ reply, mode := .reading }

/-- The loop behind a `read` that filled `resp` with these bytes and returned `nRead`, as a
`size_t`. What `resp` holds behind the terminating zero is never looked at. -/
def clientRead (s : ClientState) (bytes : List UInt8) (nRead : ℕ) :
    Except ClientFault ClientState :=
  if nRead ≤ 0 then .ok { s with mode := .ended .closed }
  else if nRead ≥ MAX_RESPONSE_LEN then .error (.outOfBounds nRead)
  else
    let resp := bytes ++ [0]
    if strstr resp (responses.get RESPONSE_BYE) then .ok { s with mode := .ended .bye }
    else
      let responseFound := (responses.take (responses.length - 1)).any fun marker =>
        strstr resp marker
      .ok { s with mode := if responseFound then .prompt else .reading }

def clientStep (s : ClientState) : ClientEvent → Except ClientFault ClientState
  | .types line parsed data area => clientLine s line (serverReply parsed data line area)
  | .endOfInput => .ok { s with mode := .ended .endOfInput }
  | .read n => clientRead { s with stream := s.stream.drop n } (s.stream.take n) n
  | .closed => clientRead s [] 0
  | .readFails => clientRead s [] (2 ^ 64 - 1)

/-- A line is text, and `read` returns at most what there is and what fits. -/
def clientEnabled (s : ClientState) : ClientEvent → Bool
  | .types line _ _ _ => s.mode == .prompt && line.all fun x => x != newline && x != 0
  | .endOfInput => s.mode == .prompt
  | .read n => s.mode == .reading && decide (0 < n ∧ n ≤ s.stream.length ∧ n ≤ MAX_RESPONSE_LEN)
  | .closed | .readFails => s.mode == .reading

def clientMachine : Machine ClientFault ClientState ClientEvent := ⟨clientEnabled, clientStep⟩

/-- The client when the loop starts, with what follows the static record in memory. -/
def clientStart (beyond : List UInt8) : ClientState where
  parsed := initialCmdParsed beyond
  stream := []
  mode := .prompt

/-- The states the client reaches by events that meet the guard. -/
def ClientReachable (guard : ClientState → ClientEvent → Prop) (s : ClientState) : Prop :=
  ∃ beyond events, Run clientMachine guard (clientStart beyond) events s

/-- At the prompt every reply was read to its end, and nothing more can have been. The session is
given up for a `BYE` only after the whole reply to EXIT. -/
structure InStep (s : ClientState) : Prop where
  drained : s.mode = .prompt → s.stream = []
  ended : s.mode = .ended .bye → s.parsed.cmd = .exit ∧ s.stream = []

/-- A line that is sent has a token, and a reply arrives in one read that leaves room for the
terminating zero. `BYE` occurs in the reply to EXIT only. -/
def Orderly (s : ClientState) : ClientEvent → Prop
  | .types line _ _ _ => line.length + 1 < MAX_CMD_LEN → ∃ x ∈ line, isSeparator x = false
  | .read n => n = s.stream.length ∧ n < MAX_RESPONSE_LEN ∧
      (strstr (s.stream ++ [0]) (responses.get RESPONSE_BYE) = true → s.parsed.cmd = .exit)
  | .endOfInput | .closed => True
  | .readFails => False

variable {s s' : ClientState} {e : ClientEvent} {line reply bytes : List UInt8} {n : ℕ}

/-- A connection that waits for a line has the reply of the model to send. -/
theorem Ready.serverReply {s : AdminState} {k : AdminConn} (h : Ready s k) {first : UInt8}
    {tail : List UInt8} (hempty : k.inBuff.content = [])
    (hfit : (first :: tail).length ≤ k.inBuff.space)
    (hsent : first :: tail = line ++ [newline]) (hline : ∀ x ∈ line, x ≠ newline ∧ x ≠ 0)
    (htoken : line = [] ∨ ∃ x ∈ line, isSeparator x = false) :
    ∃ s' k', adminStep s (.readable (.data first tail)) = .ok s' ∧
      Replying s' k' (Socks5d.serverReply s.parsed s.data line k.area) := by
  have hsplit : k.inBuff.content ++ first :: tail = line ++ newline :: [] := by
    rw [hempty, hsent, List.nil_append]
  obtain ⟨r, s', k', hanswer, hstep, hreplying, -⟩ := h.line line [] hfit hsplit hline htoken
  refine ⟨s', k', hstep, ?_⟩
  rw [Socks5d.serverReply, hanswer]
  exact hreplying

/-- A line that fits is handed to the parser with its newline, and any other without one. -/
theorem strchr_fgetsLine (hline : ∀ x ∈ line, x ≠ newline ∧ x ≠ 0) :
    (line.length + 1 < MAX_CMD_LEN → fgetsLine line = line ++ [newline] ∧
      strchr newline (fgetsLine line) ≠ none) ∧
    (¬ line.length + 1 < MAX_CMD_LEN → strchr newline (fgetsLine line) = none) := by
  constructor
  · intro hfit
    have hwhole : fgetsLine line = line ++ [newline] := by
      apply List.take_of_length_le
      rw [List.length_append, List.length_singleton]
      omega
    refine ⟨hwhole, ?_⟩
    rw [hwhole, strchr_of_pass hline]
    exact Option.some_ne_none _
  · intro hlong
    have hcut : fgetsLine line = line.take (MAX_CMD_LEN - 1) := by
      apply List.take_append_of_le_length
      omega
    have hpass := strchr_append_of_pass (b := [])
      fun x (hx : x ∈ line.take (MAX_CMD_LEN - 1)) => hline x (List.mem_of_mem_take hx)
    rw [List.append_nil] at hpass
    rw [hcut, hpass]
    rfl

/-- A line from the prompt leaves the client in step, unless the parser finds no token in it. -/
theorem clientLine_inStep (hline : ∀ x ∈ line, x ≠ newline ∧ x ≠ 0) (hmode : s.mode = .prompt)
    (h : InStep s) :
    (∃ s', clientLine s line reply = .ok s' ∧ InStep s') ↔
      (line.length + 1 < MAX_CMD_LEN → ∃ x ∈ line, isSeparator x = false) := by
  obtain ⟨hshort, hlong⟩ := strchr_fgetsLine hline
  unfold clientLine
  by_cases hfit : line.length + 1 < MAX_CMD_LEN
  · obtain ⟨hwhole, hfound⟩ := hshort hfit
    simp only [if_neg hfound]
    rw [hwhole]
    have hnewline : ∀ x ∈ line ++ [newline], isSeparator x = false → x ∈ line := by
      intro x hx hsep
      rcases List.mem_append.mp hx with hx | hx
      · exact hx
      · rw [List.mem_singleton.mp hx] at hsep
        cases hsep
    rcases s5adminParseCommand_spec s.parsed (line ++ [newline]) with ⟨hall, hparse⟩ |
      ⟨⟨x, hx, hsep⟩, r, hparse, -⟩
    · rw [hparse]
      constructor
      · rintro ⟨s', hs', -⟩
        cases hs'
      · intro htoken
        obtain ⟨x, hx, hsep⟩ := htoken hfit
        rw [hall x (List.mem_append_left _ hx)] at hsep
        cases hsep
    · rw [hparse]
      refine ⟨fun _ _ => ⟨x, hnewline x hx hsep, hsep⟩, fun _ => ?_⟩
      dsimp only
      split
      · exact ⟨_, rfl, fun _ => h.drained hmode, fun hended => by simp [hmode] at hended⟩
      · exact ⟨_, rfl, nofun, nofun⟩
  · simp only [if_pos (hlong hfit)]
    exact ⟨fun _ hfit' => absurd hfit' hfit, fun _ => ⟨s, rfl, h⟩⟩

/-- The empty marker occurs in every reply, so one `read` ends the wait. -/
theorem clientRead_found (hpos : 0 < n) (hlt : n < MAX_RESPONSE_LEN) :
    clientRead s bytes n = .ok { s with
      mode := if strstr (bytes ++ [0]) (responses.get RESPONSE_BYE) then .ended .bye
        else .prompt } := by
  have hfound : ((responses.take (responses.length - 1)).any fun marker =>
      strstr (bytes ++ [0]) marker) = true := by
    rw [List.any_eq_true]
    exact ⟨[], by decide, strstr_nil⟩
  unfold clientRead
  rw [if_neg (Nat.not_le.mpr hpos), if_neg (Nat.not_le.mpr hlt)]
  dsimp only
  rw [hfound]
  split <;> rfl

/-- A `read` keeps the client in step if it takes the whole reply, there is room behind it, and
only the reply to EXIT ends the session. -/
theorem clientRead_inStep (hpos : 0 < n) (hle : n ≤ s.stream.length) :
    (∃ s', clientStep s (.read n) = .ok s' ∧ InStep s') ↔ Orderly s (.read n) := by
  change (∃ s', clientRead _ _ n = .ok s' ∧ InStep s') ↔ _
  by_cases hlt : n < MAX_RESPONSE_LEN
  · rw [clientRead_found hpos hlt]
    constructor
    · rintro ⟨s', hs', h⟩
      obtain rfl := Except.ok.inj hs'
      by_cases hbye : strstr (s.stream.take n ++ [0]) (responses.get RESPONSE_BYE) = true
      · obtain ⟨hexit, hrest⟩ := h.ended (if_pos hbye)
        exact ⟨Nat.le_antisymm hle (List.drop_eq_nil_iff.mp hrest), hlt, fun _ => hexit⟩
      · have hrest := h.drained (if_neg hbye)
        have hwhole := List.drop_eq_nil_iff.mp hrest
        rw [List.take_of_length_le hwhole] at hbye
        exact ⟨Nat.le_antisymm hle hwhole, hlt, fun hfound => absurd hfound hbye⟩
    · rintro ⟨rfl, -, hbye⟩
      refine ⟨_, rfl, fun _ => List.drop_length, fun hended => ⟨?_, List.drop_length⟩⟩
      rw [List.take_length] at hended
      by_contra hexit
      rw [if_neg (fun hfound => hexit (hbye hfound))] at hended
      cases hended
  · constructor
    · rintro ⟨s', hs', -⟩
      rw [clientRead, if_neg (Nat.not_le.mpr hpos), if_pos (Nat.not_lt.mp hlt)] at hs'
      cases hs'
    · rintro ⟨-, hlt', -⟩
      exact absurd hlt' hlt

/-- An event keeps the client in step exactly if it meets the condition. -/
theorem clientStep_inStep (h : InStep s) (he : clientEnabled s e = true) :
    (∃ s', clientStep s e = .ok s' ∧ InStep s') ↔ Orderly s e := by
  cases e with
  | types line parsed data area =>
    simp only [clientEnabled, Bool.and_eq_true, beq_iff_eq, List.all_eq_true, bne_iff_ne] at he
    exact clientLine_inStep he.2 he.1 h
  | endOfInput => exact ⟨fun _ => trivial, fun _ => ⟨_, rfl, nofun, nofun⟩⟩
  | read n =>
    simp only [clientEnabled, Bool.and_eq_true, beq_iff_eq, decide_eq_true_eq] at he
    exact clientRead_inStep he.2.1 he.2.2.1
  | closed => exact ⟨fun _ => trivial, fun _ => ⟨_, rfl, nofun, nofun⟩⟩
  | readFails =>
    refine ⟨?_, False.elim⟩
    rintro ⟨s', hs', -⟩
    cases hs'

/-- As long as every event meets the condition, the client is in step with the server. The next
event keeps it so, and stores the terminating zero inside `resp`, exactly if it meets the
condition. -/
theorem client_inStep (h : ClientReachable Orderly s) :
    InStep s ∧ ∀ e, clientEnabled s e = true →
      ((∃ s', clientStep s e = .ok s' ∧ InStep s') ↔ Orderly s e) := by
  obtain ⟨beyond, events, hrun⟩ := h
  have hstep : InStep s := by
    refine hrun.invariant ⟨fun _ => rfl, nofun⟩ ?_
    intro s e s' hs he hguard hstep
    obtain ⟨s₁, hs₁, h₁⟩ := (clientStep_inStep hs he).mpr hguard
    obtain rfl := Except.ok.inj (hs₁.symm.trans hstep)
    exact h₁
  exact ⟨hstep, fun e he => clientStep_inStep hstep he⟩

/-- The loop sends PING and waits for the `PONG`. -/
theorem clientStep_ping : ∃ area s,
    clientStep (clientStart []) (.types (ascii "PING") (initialCmdParsed []) startedData area) = .ok s ∧
      s.mode = .reading ∧ s.stream = ascii "PONG\n" := by
  have hlen : 5 < (List.replicate MAX_RESPONSE_LEN (0 : UInt8)).length := by
    rw [List.length_replicate]
    decide
  obtain ⟨r, hanswer, hreply⟩ := adminAnswer_ping (initialCmdParsed []) startedData hlen
  have hsent : serverReply (initialCmdParsed []) startedData (ascii "PING")
      (List.replicate MAX_RESPONSE_LEN 0) = ascii "PONG\n" := by
    rw [serverReply, hanswer]
    exact hreply
  exact ⟨_, _, congrArg (clientLine (clientStart []) (ascii "PING")) hsent, rfl, rfl⟩

/-- A `read` returns the first bytes of the `PONG`. -/
theorem run_ping (guard : ClientState → ClientEvent → Prop) (hpos : 0 < n) (hle : n ≤ 5)
    (htypes : ∀ area, guard (clientStart [])
      (.types (ascii "PING") (initialCmdParsed []) startedData area))
    (hread : ∀ s, s.stream = ascii "PONG\n" → guard s (.read n)) :
    ∃ s, ClientReachable guard s ∧ s.mode = .prompt ∧ s.stream = (ascii "PONG\n").drop n := by
  obtain ⟨area, s, hs, hmode, hstream⟩ := clientStep_ping
  have hfits : n < MAX_RESPONSE_LEN := Nat.lt_of_le_of_lt hle (by decide)
  have hquiet : ∀ n ≤ 5, strstr ((ascii "PONG\n").take n ++ [0]) (responses.get RESPONSE_BYE) =
      false := by decide
  have hfound : clientStep s (.read n) = .ok _ := clientRead_found hpos hfits
  have henabled : clientEnabled s (.read n) = true := by
    simp only [clientEnabled, hmode, hstream, Bool.and_eq_true, decide_eq_true_eq]
    exact ⟨rfl, hpos, hle, hfits.le⟩
  have hsend : Run clientMachine guard (clientStart []) ([] ++ [_]) s :=
    .snoc .nil (by rfl) (htypes area) hs
  have hrun : Run clientMachine guard (clientStart []) (_ ++ [.read n]) _ :=
    hsend.snoc henabled (hread s hstream) hfound
  refine ⟨_, ⟨[], _, hrun⟩, ?_, congrArg (List.drop n) hstream⟩
  rw [hstream, hquiet n hle]
  rfl

/-- The `PONG` arrives whole. -/
theorem client_inStep_ping : ∃ s, s.mode = .prompt ∧ InStep s ∧ ∀ e, clientEnabled s e = true →
    ((∃ s', clientStep s e = .ok s' ∧ InStep s') ↔ Orderly s e) := by
  have hquiet : strstr (ascii "PONG\n" ++ [0]) (responses.get RESPONSE_BYE) = false := by decide
  have htoken : ∃ x ∈ ascii "PING", isSeparator x = false := by decide
  obtain ⟨s, hs, hmode, -⟩ := run_ping Orderly (n := 5) (by decide) (by decide)
    (fun _ _ => htoken) fun s hs => by
      rw [Orderly, hs, hquiet]
      exact ⟨rfl, by decide, nofun⟩
  exact ⟨s, hmode, client_inStep hs⟩

/-- Of the `PONG` three bytes arrive first, and the loop prompts for the next command. -/
theorem not_client_inStep : ¬ ∀ s, ClientReachable unguarded s → InStep s := by
  intro hall
  obtain ⟨s, hs, hmode, hstream⟩ := run_ping unguarded (n := 3) (by decide) (by decide)
    (fun _ => trivial) fun _ _ => trivial
  have hdrained := (hall s hs).drained hmode
  rw [hstream] at hdrained
  cases hdrained

end Socks5d
