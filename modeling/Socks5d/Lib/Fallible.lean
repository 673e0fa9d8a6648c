import Mathlib.Logic.Basic

/-!
# Contracts of fallible computations

`Holds T m Q` says that every result of `m` satisfies `Q` and every fault of `m` is tolerated
by `T`. One judgement serves two purposes: with every fault tolerated it carries invariants
through runs that stop at a fault, and with fewer faults tolerated it excludes the others.
-/

namespace Fallible

universe u v

variable {ε : Type v} {α β : Type u}

/-- Results satisfy the postcondition and faults are tolerated. -/
def Holds (T : ε → Prop) (m : Except ε α) (Q : α → Prop) : Prop :=
  match m with
  | .ok a => Q a
  | .error e => T e

variable {T T' : ε → Prop} {m : Except ε α} {P Q : α → Prop}

/-- A result meets what holds of it. -/
@[simp] theorem holds_ok (a : α) : Holds T (.ok a : Except ε α) Q ↔ Q a := Iff.rfl

/-- So does a result that is returned. -/
@[simp] theorem holds_pure (a : α) : Holds T (pure a : Except ε α) Q ↔ Q a := Iff.rfl

/-- A fault meets what is tolerated. -/
@[simp] theorem holds_error (e : ε) : Holds T (.error e : Except ε α) Q ↔ T e := Iff.rfl

/-- A result is handed on. -/
@[simp] theorem ok_bind (a : α) (f : α → Except ε β) : (Except.ok a >>= f) = f a := rfl

/-- A fault ends the computation. -/
@[simp] theorem error_bind (e : ε) (f : α → Except ε β) :
    ((Except.error e : Except ε α) >>= f) = .error e := rfl

/-- Returning is coming to a result. -/
@[simp] theorem pure_eq_ok (a : α) : (pure a : Except ε α) = .ok a := rfl

/-- What is made of the result of a sequence is made of that of its second computation. -/
theorem map_bind {γ : Type u} (m : Except ε α) (f : α → Except ε β) (g : β → γ) :
    (m >>= f).map g = m >>= fun a => (f a).map g := by
  cases m with
  | error e => rfl
  | ok a => rfl

/-- A sequence returns what its second computation returns for a result of the first. -/
theorem bind_eq_ok {f : α → Except ε β} {b : β} :
    (m >>= f) = .ok b ↔ ∃ a, m = .ok a ∧ f a = .ok b := by
  cases m with
  | error e => simp
  | ok a => simp

/-- Sequencing hands each result of the first computation to the second. -/
theorem holds_bind (m : Except ε α) (f : α → Except ε β) (Q : β → Prop) :
    Holds T (m >>= f) Q ↔ Holds T m fun a => Holds T (f a) Q := by
  cases m with
  | error e => exact Iff.rfl
  | ok a => exact Iff.rfl

/-- The rule for sequencing with an intermediate assertion. -/
theorem Holds.bind {f : α → Except ε β} {Q : β → Prop} (hm : Holds T m P)
    (hf : ∀ a, P a → Holds T (f a) Q) : Holds T (m >>= f) Q := by
  cases m with
  | error e => exact hm
  | ok a => exact hf a hm

/-- When every fault is tolerated, only results count. -/
theorem Holds.any (h : ∀ a, m = .ok a → Q a) : Holds (fun _ => True) m Q := by
  cases m with
  | error e => trivial
  | ok a => exact h a rfl

/-- Sequencing after a computation of which only the result is used. -/
theorem Holds.seq {f : α → Except ε β} {Q : β → Prop}
    (h : ∀ a, m = .ok a → Holds (fun _ => True) (f a) Q) : Holds (fun _ => True) (m >>= f) Q :=
  (holds_bind m f Q).mpr (.any h)

/-- A postcondition may be weakened after the computation has been analyzed. -/
theorem Holds.mono (h : Holds T m P) (himp : ∀ a, P a → Q a) : Holds T m Q := by
  cases m with
  | error e => exact h
  | ok a => exact himp a h

/-- More faults may be tolerated. -/
theorem Holds.tolerate (h : Holds T m Q) (himp : ∀ e, T e → T' e) : Holds T' m Q := by
  cases m with
  | error e => exact himp e h
  | ok a => exact h

/-- What a contract says of a computation that returned. -/
theorem Holds.result (h : Holds T m Q) {a : α} (hm : m = .ok a) : Q a := by
  subst hm
  exact h

/-- What a contract says of a computation that faulted. -/
theorem Holds.fault (h : Holds T m Q) {e : ε} (hm : m = .error e) : T e := by
  subst hm
  exact h

/-- The computation returns a value. -/
def Succeeds (m : Except ε α) : Prop := ∃ a, m = .ok a

/-- A computation succeeds exactly when no fault is tolerated. -/
theorem succeeds_iff_holds : Succeeds m ↔ Holds (fun _ => False) m fun _ => True := by
  cases m with
  | error e => simp [Succeeds]
  | ok a => simp [Succeeds]

end Fallible
