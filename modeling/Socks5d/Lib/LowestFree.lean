import Mathlib.Data.Nat.Notation
import Mathlib.Data.Bool.Basic

/-!
# The least number that is not taken

An allocator that hands out the least number not in use, over a predicate that is false from
some bound on. Two facts determine the answer: it is not taken, and everything below it is.
-/

namespace LowestFree

/-- The least number below the bound that is not taken, or the bound itself. -/
def lowestFree (taken : ℕ → Bool) (bound : ℕ) : ℕ :=
  ((List.range bound).find? fun n => !taken n).getD bound

variable {taken : ℕ → Bool} {bound : ℕ}

/-- The allocated number is not in use. -/
theorem lowestFree_not_taken (hbound : ∀ n, bound ≤ n → taken n = false) :
    taken (lowestFree taken bound) = false := by
  unfold lowestFree
  cases hfind : (List.range bound).find? fun n => !taken n with
  | none => exact hbound bound (Nat.le_refl bound)
  | some n => simpa using List.find?_some hfind

/-- Every smaller number is in use. -/
theorem taken_of_lt_lowestFree {n : ℕ} (hlt : n < lowestFree taken bound) : taken n = true := by
  unfold lowestFree at hlt
  cases hfind : (List.range bound).find? fun n => !taken n with
  | none =>
    rw [hfind, Option.getD_none] at hlt
    simpa using List.find?_eq_none.mp hfind n (List.mem_range.mpr hlt)
  | some m =>
    rw [hfind, Option.getD_some] at hlt
    obtain ⟨-, before, after, hsplit, hbefore⟩ := List.find?_eq_some_iff_append.mp hfind
    have hlen : before.length = m := by
      have hm : m < bound := List.mem_range.mp (List.mem_of_find?_eq_some hfind)
      have hget : (List.range bound)[before.length]? = some m := by simp [hsplit]
      have := List.getElem?_eq_some_iff.mp hget
      obtain ⟨_, hget⟩ := this
      simpa using hget
    have hmem : n ∈ before := by
      have hn : n < before.length := hlen ▸ hlt
      have hget : (List.range bound)[n]? = before[n]? := by
        rw [hsplit, List.getElem?_append_left hn]
      have hm : m < bound := List.mem_range.mp (List.mem_of_find?_eq_some hfind)
      rw [List.getElem?_range (by omega)] at hget
      exact List.mem_of_getElem? hget.symm
    simpa using hbefore n hmem

/-- The two properties determine the allocated number. -/
theorem lowestFree_eq (hbound : ∀ n, bound ≤ n → taken n = false) {n : ℕ}
    (hfree : taken n = false) (hbelow : ∀ m, m < n → taken m = true) :
    lowestFree taken bound = n := by
  rcases Nat.lt_trichotomy (lowestFree taken bound) n with hlt | heq | hgt
  · have := hbelow _ hlt
    rw [lowestFree_not_taken hbound] at this
    cases this
  · exact heq
  · have := taken_of_lt_lowestFree hgt
    rw [hfree] at this
    cases this

end LowestFree
