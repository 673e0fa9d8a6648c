import Mathlib.Data.List.Basic

/-!
# Accounting for a first-in first-out buffer

A buffer is described by what it holds, what was put into it and what was taken out of it. The
one relation below says that nothing is lost, duplicated or reordered over a period; periods
compose, and a buffer that started empty has given everything away exactly when it is empty.
-/

namespace Fifo

universe u

variable {α : Type u} {held inn out held' inn' out' held'' : List α}

/-- A buffer that held some items, was given `inn` and gave away `out`, holds the rest. -/
def Balance (held inn out held' : List α) : Prop := held ++ inn = out ++ held'

theorem Balance.refl (held : List α) : Balance held [] [] held := by
  simp [Balance]

/-- Items that arrive wait behind those already held. -/
theorem Balance.put (held inn : List α) : Balance held inn [] (held ++ inn) := by
  simp [Balance]

/-- Items leave from the front. -/
theorem Balance.take (held : List α) (n : ℕ) : Balance held [] (held.take n) (held.drop n) := by
  simp [Balance]

/-- Two periods make one. -/
theorem Balance.trans (h : Balance held inn out held') (h' : Balance held' inn' out' held'') :
    Balance held (inn ++ inn') (out ++ out') held'' := by
  unfold Balance at h h' ⊢
  rw [← List.append_assoc, h, List.append_assoc, h', List.append_assoc]

/-- A period in which the buffer started empty. -/
theorem Balance.of_empty (h : Balance [] inn out held) : inn = out ++ held := by
  simpa [Balance] using h

/-- A buffer that started empty gave everything away exactly when it is empty again. -/
theorem Balance.drained_iff (h : Balance [] inn out held) : out = inn ↔ held = [] := by
  rw [h.of_empty]
  constructor
  · intro hall
    simpa using hall.symm
  · rintro rfl
    simp

end Fifo
