import Socks5d.Basic

/-!
# The table-driven parser of `parser.c`

A parser definition gives each state a row of transitions; feeding a byte fires the first
transition of the current row whose condition holds, runs its action and moves to its
destination. When no transition fires the previous event is returned again. No table of the
server uses a second action, so the second event of the C structure is left out.
-/

namespace Socks5d

/-- The predicate for `when` that always holds. -/
def ANY : ℕ := 1 <<< 9

structure ParserEvent (σ : Type) where
  type : σ
  data : UInt8
  deriving DecidableEq, Repr

/-- A transition: its condition, its destination and the event its action produces. -/
structure ParserStateTransition (σ : Type) where
  cond : ℕ
  dest : σ
  act1 : UInt8 → ParserEvent σ

/-- The class table of `parser_no_classes`, with the size the source declares for it. -/
def parserNoClasses : List ℕ := List.replicate 0xFF 0

/-- A table of rows, indexed as the state enumeration numbers its members. -/
structure ParserDefinition (σ : Type) where
  index : σ → ℕ
  states : List (List (ParserStateTransition σ))
  startState : σ

/-- The row looked up for a state; an absent row has no transition to fire. -/
def ParserDefinition.row {σ : Type} (d : ParserDefinition σ) (state : σ) :
    List (ParserStateTransition σ) :=
  d.states.getD (d.index state) []

structure Parser (σ : Type) where
  state : σ
  e1 : ParserEvent σ
  deriving DecidableEq, Repr

/-- The zeroed event of a fresh parser carries the first member of the enumeration, which is
the start state of all three definitions. -/
def parserInit {σ : Type} (d : ParserDefinition σ) : Parser σ :=
  { state := d.startState, e1 := { type := d.startState, data := 0 } }

def parserSet {σ : Type} (p : Parser σ) (state : σ) : Parser σ := { p with state := state }

/-- The condition of a transition on a byte of the given class. -/
def ParserStateTransition.matched {σ : Type} (t : ParserStateTransition σ) (type : ℕ)
    (c : UInt8) : Bool :=
  if t.cond ≤ 0xFF then c.toNat == t.cond
  else if t.cond = ANY then true
  else (type &&& t.cond) != 0

/-- Feed one byte; the event to return is the `e1` of the resulting parser. -/
def parserFeed {σ : Type} (d : ParserDefinition σ) (p : Parser σ) (c : UInt8) : Parser σ :=
  let type := parserNoClasses.getD c.toNat 0
  match (d.row p.state).find? fun t => t.matched type c with
  | some t => { state := t.dest, e1 := t.act1 c }
  | none => p

/-- An unconditional transition fires on every byte, whatever its class. -/
@[simp] theorem matched_any {σ : Type} (t : ParserStateTransition σ) (h : t.cond = ANY)
    (type : ℕ) (c : UInt8) : t.matched type c = true := by
  simp [ParserStateTransition.matched, h, ANY]

/-- A transition on one byte fires on that byte alone. -/
@[simp] theorem matched_byte {σ : Type} (b : UInt8) (dest : σ) (act : UInt8 → ParserEvent σ)
    (type : ℕ) (c : UInt8) :
    (⟨b.toNat, dest, act⟩ : ParserStateTransition σ).matched type c = decide (c = b) := by
  have hle : b.toNat ≤ 0xFF := Nat.le_of_lt_succ b.toNat_lt
  rw [ParserStateTransition.matched, if_pos hle, Bool.eq_iff_iff]
  simp [UInt8.toNat_inj]

/-- A transition on the byte zero, whose condition the tables spell as a number. -/
@[simp] theorem matched_zero {σ : Type} (dest : σ) (act : UInt8 → ParserEvent σ) (type : ℕ)
    (c : UInt8) : (⟨0, dest, act⟩ : ParserStateTransition σ).matched type c = decide (c = 0) :=
  matched_byte 0 dest act type c

end Socks5d
