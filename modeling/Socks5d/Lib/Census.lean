import Mathlib.Data.Finset.Card
import Mathlib.Data.Finset.Range
import Mathlib.Logic.Function.Basic

/-!
# Counting the slots in use

A table with a slot for every number, of which those below a bound have been handed out. The
count of the slots in use follows every change of one slot, and a number found for each of them
without repetition bounds it.
-/

namespace Census

variable {α : Type*} {slots slots' : ℕ → Option α} {n i : ℕ}

/-- How many of the first `n` slots are in use. -/
def taken (slots : ℕ → Option α) (n : ℕ) : ℕ :=
  ((Finset.range n).filter fun i => (slots i).isSome = true).card

theorem taken_congr (h : ∀ i, (slots i).isSome = (slots' i).isSome) :
    taken slots n = taken slots' n := by
  unfold taken
  simp only [h]

theorem mem_taken (hi : i < n) (h : (slots i).isSome = true) :
    i ∈ (Finset.range n).filter fun i => (slots i).isSome = true :=
  Finset.mem_filter.mpr ⟨Finset.mem_range.mpr hi, h⟩

theorem taken_pos (hi : i < n) (h : (slots i).isSome = true) : 0 < taken slots n :=
  Finset.card_pos.mpr ⟨i, mem_taken hi h⟩

/-- No slot is in use at first. -/
theorem taken_of_none (h : ∀ i, slots i = none) : taken slots n = 0 := by
  unfold taken
  simp [h]

/-- What a slot in use holds does not matter. -/
theorem taken_update_some (h : (slots i).isSome = true) (a : α) :
    taken (Function.update slots i (some a)) n = taken slots n := by
  apply taken_congr
  intro j
  by_cases hj : j = i
  · subst hj
    rw [Function.update_self, h]
    rfl
  · rw [Function.update_of_ne hj]

/-- Freeing a slot takes one off. -/
theorem taken_update_none (hi : i < n) (h : (slots i).isSome = true) :
    taken (Function.update slots i none) n + 1 = taken slots n := by
  have herase : (Finset.range n).filter (fun j => (Function.update slots i none j).isSome = true) =
      ((Finset.range n).filter fun i => (slots i).isSome = true).erase i := by
    ext j
    by_cases hj : j = i
    · simp [hj]
    · simp [hj]
  unfold taken
  rw [herase, Finset.card_erase_add_one (mem_taken hi h)]

/-- A slot handed out and not used adds nothing. -/
theorem taken_succ_of_none (h : slots n = none) : taken slots (n + 1) = taken slots n := by
  unfold taken
  rw [Finset.range_add_one, Finset.filter_insert, if_neg (by simp [h])]

/-- A slot handed out and used adds one. -/
theorem taken_fill (a : α) : taken (Function.update slots n (some a)) (n + 1) = taken slots n + 1 := by
  have hbelow : (Finset.range n).filter (fun j => (Function.update slots n (some a) j).isSome = true) =
      (Finset.range n).filter fun i => (slots i).isSome = true := by
    apply Finset.filter_congr
    intro j hj
    rw [Function.update_of_ne (Nat.ne_of_lt (Finset.mem_range.mp hj))]
  unfold taken
  rw [Finset.range_add_one, Finset.filter_insert, if_pos (by simp), hbelow,
    Finset.card_insert_of_notMem (by simp)]

/-- Slots that can be told apart by numbers below a bound are no more than that. -/
theorem taken_le {m : ℕ} {label : ℕ → ℕ} (hlabel : ∀ i, (slots i).isSome = true → label i < m)
    (hne : ∀ i j, (slots i).isSome = true → (slots j).isSome = true → label i = label j → i = j) :
    taken slots n ≤ m := by
  have hcard := Finset.card_le_card_of_injOn (s := (Finset.range n).filter fun i => (slots i).isSome = true)
    (t := Finset.range m) label
    (fun i hi => Finset.mem_coe.mpr (Finset.mem_range.mpr (hlabel i (Finset.mem_filter.mp hi).2)))
    (fun i hi j hj => hne i j (Finset.mem_filter.mp hi).2 (Finset.mem_filter.mp hj).2)
  rwa [Finset.card_range] at hcard

end Census
