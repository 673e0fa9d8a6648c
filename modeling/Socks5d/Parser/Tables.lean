import Socks5d.Lib.Feeding
import Socks5d.Parser.Auth
import Socks5d.Parser.ConnReq
import Socks5d.Parser.Handshake

/-!
# The tables of the parser engine

A step of `parser_feed` reads the class of its byte, the row of its state and the transitions of
that row up to the first one that fires. The three transition tables have a row for every state,
each with a transition that always fires. The class table is declared with `0xFF` entries, one
less than there are bytes and than `parser.h` documents, so the byte `0xFF` has no entry.
-/

namespace Socks5d

open Feeding

variable {σ P : Type} {d : ParserDefinition σ} {p : Parser σ} {c : UInt8}

/-- One step of the engine stays inside its tables, and the event it returns is that of a
transition that fired on this byte. -/
structure StepInTables (d : ParserDefinition σ) (p : Parser σ) (c : UInt8) : Prop where
  classEntry : c.toNat < parserNoClasses.length
  row : d.index p.state < d.states.length
  fires : ∃ t ∈ d.row p.state, t.matched (parserNoClasses.getD c.toNat 0) c = true ∧
    parserFeed d p c = ⟨t.dest, t.act1 c⟩ ∧ (t.act1 c).data = c ∧
      d.index t.dest < d.states.length

/-- A byte that is fed through a wrapper makes a step inside the tables, and the wrapper leaves
the engine in a state that has a row. -/
def FeedInTables (d : ParserDefinition σ) (parser : P → Parser σ) (feed : P → UInt8 → P × σ)
    (p : P) (c : UInt8) : Prop :=
  StepInTables d (parser p) c ∧ d.index (parser (feed p c).1).state < d.states.length

/-- Every byte of a stream is fed inside the tables. -/
def StreamInTables (d : ParserDefinition σ) (parser : P → Parser σ) (feed : P → UInt8 → P × σ)
    (p : P) (bytes : List UInt8) : Prop :=
  ∀ before c after, bytes = before ++ c :: after →
    FeedInTables d parser feed (feedAll feed p before) c

/-- Every state has a row, in which one transition always fires and each reports its byte. -/
structure ParserDefinition.Complete (d : ParserDefinition σ) : Prop where
  row : ∀ state, d.index state < d.states.length
  fires : ∀ state, ∃ t ∈ d.row state, t.cond = ANY
  reports : ∀ state, ∀ t ∈ d.row state, ∀ c, (t.act1 c).data = c

theorem length_parserNoClasses : parserNoClasses.length = 0xFF := List.length_replicate

/-- With a complete table only the class table can be left. -/
theorem stepInTables_iff (hd : d.Complete) : StepInTables d p c ↔ c ≠ 0xFF := by
  constructor
  · rintro ⟨hclass, -, -⟩ rfl
    rw [length_parserNoClasses] at hclass
    exact absurd hclass (by decide)
  · intro hc
    have hclass : c.toNat < parserNoClasses.length := by
      have hlt := c.toNat_lt
      have hne : c.toNat ≠ 0xFF := fun heq => hc (UInt8.toNat_inj.mp heq)
      rw [length_parserNoClasses]
      omega
    obtain ⟨a, ha, hany⟩ := hd.fires p.state
    have hsome : ((d.row p.state).find? fun t =>
        t.matched (parserNoClasses.getD c.toNat 0) c).isSome = true :=
      List.find?_isSome.mpr ⟨a, ha, matched_any a hany _ c⟩
    obtain ⟨t, ht⟩ := Option.isSome_iff_exists.mp hsome
    have hmem := List.mem_of_find?_eq_some ht
    refine ⟨hclass, hd.row p.state, t, hmem, by simpa using List.find?_some ht, ?_,
      hd.reports p.state t hmem c, hd.row t.dest⟩
    rw [parserFeed]
    simp only [ht]

/-- A stream stays inside complete tables exactly when the byte without a class is not in it. -/
theorem streamInTables_iff (hd : d.Complete) (parser : P → Parser σ)
    (feed : P → UInt8 → P × σ) (p : P) (bytes : List UInt8) :
    StreamInTables d parser feed p bytes ↔ 0xFF ∉ bytes := by
  constructor
  · intro h hmem
    obtain ⟨before, after, hsplit⟩ := List.append_of_mem hmem
    exact absurd rfl ((stepInTables_iff hd).mp (h before 0xFF after hsplit).1)
  · intro hnot before c after hsplit
    have hc : c ≠ 0xFF := by
      intro heq
      exact hnot (by simp [hsplit, heq])
    exact ⟨(stepInTables_iff hd).mpr hc, hd.row _⟩

theorem handshakeParserDefinition_complete : handshakeParserDefinition.Complete where
  row state := by cases state <;> decide
  fires state := by cases state <;> decide
  reports state := by
    cases state <;> simp [ParserDefinition.row, handshakeParserDefinition, HandshakeState.index,
      HandshakeState.versionTransitions, HandshakeState.nmethodsTransitions,
      HandshakeState.methodsTransitions, HandshakeState.doneTransitions,
      HandshakeState.errorTransitions, HandshakeState.act]

theorem authParserDefinition_complete : authParserDefinition.Complete where
  row state := by cases state <;> decide
  fires state := by cases state <;> decide
  reports state := by
    cases state <;> simp [ParserDefinition.row, authParserDefinition, AuthState.index,
      AuthState.versionTransitions, AuthState.usernameLenTransitions,
      AuthState.usernameTransitions, AuthState.passwordLenTransitions,
      AuthState.passwordTransitions, AuthState.doneTransitions, AuthState.errorTransitions,
      AuthState.act]

open ConnReqParserState in
theorem connReqParserDefinition_complete : connReqParserDefinition.Complete where
  row state := by cases state <;> decide
  fires state := by cases state <;> decide
  reports state := by
    cases state <;> simp [ParserDefinition.row, connReqParserDefinition, index,
      versionTransitions, cmdTransitions, rsvTransitions, atypTransitions, domLenTransitions,
      dstAddrTransitions, dstPortByte1Transitions, dstPortByte2Transitions, doneTransitions,
      errorTransitions, act]

/-- Each of the three fresh parsers, fed any stream, also behind a complete or a malformed
message, stays inside its tables exactly when `0xFF` is not in the stream. -/
theorem parsers_inTables_iff (junk : ℕ → UInt8) (bytes : List UInt8) :
    (StreamInTables handshakeParserDefinition HandshakeParser.parser handshakeParserFeed
      handshakeParserInit bytes ↔ 0xFF ∉ bytes) ∧
    (StreamInTables authParserDefinition AuthParser.parser authParserFeed
      (authParserInit junk) bytes ↔ 0xFF ∉ bytes) ∧
    (StreamInTables connReqParserDefinition ConnReqParser.parser connReqParserFeed
      (connReqParserInit junk) bytes ↔ 0xFF ∉ bytes) :=
  ⟨streamInTables_iff handshakeParserDefinition_complete _ _ _ _,
    streamInTables_iff authParserDefinition_complete _ _ _ _,
    streamInTables_iff connReqParserDefinition_complete _ _ _ _⟩

/-- A method byte `0xFF` in a greeting has no entry in the class table. -/
theorem not_parsers_inTables : ¬ ∀ bytes : List UInt8,
    StreamInTables handshakeParserDefinition HandshakeParser.parser handshakeParserFeed
      handshakeParserInit bytes := by
  intro hall
  have hstep := (hall [5, 1, 0xFF] [5, 1] 0xFF [] rfl).1.classEntry
  rw [length_parserNoClasses] at hstep
  exact absurd hstep (by decide)

end Socks5d
