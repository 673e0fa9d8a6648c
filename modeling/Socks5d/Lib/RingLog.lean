import Mathlib.Data.List.TakeDrop
import Mathlib.Logic.Function.Basic

/-!
# A ring that keeps the last items

A log of `n` cells overwrites its oldest item once it is full. Its head, its tail and its count
are kept apart; walking `count` cells from the head gives the last `n` items in their order,
whatever the cells held at first.
-/

namespace RingLog

universe u

variable {α : Type u} {n head tail count i k : ℕ} {cells : ℕ → α} {items : List α} {x : α}

/-- So many items from a cell on, around a ring of `n` cells. -/
def walk (n : ℕ) (cells : ℕ → α) : ℕ → ℕ → List α
  | _, 0 => []
  | i, k + 1 => cells i :: walk n cells ((i + 1) % n) k

/-- The last items of a list, at most `n` of them. -/
def lastItems (n : ℕ) (items : List α) : List α := items.drop (items.length - n)

/-- The ring holds the last `n` of these items. -/
structure Keeps (n : ℕ) (cells : ℕ → α) (head tail count : ℕ) (items : List α) : Prop where
  head_lt : head < n
  tail_eq : tail = (head + count) % n
  count_eq : count = min items.length n
  walk_eq : walk n cells head count = lastItems n items

theorem length_walk (n : ℕ) (cells : ℕ → α) (i k : ℕ) : (walk n cells i k).length = k := by
  induction k generalizing i with
  | zero => rfl
  | succ k ih => rw [walk, List.length_cons, ih]

/-- The walk by its offsets. -/
theorem walk_eq_map (hi : i < n) :
    walk n cells i k = (List.range k).map fun j => cells ((i + j) % n) := by
  induction k generalizing i with
  | zero => rfl
  | succ k ih =>
    rw [walk, ih (Nat.mod_lt _ (by omega)), List.range_succ_eq_map, List.map_cons, List.map_map]
    apply List.cons_eq_cons.mpr
    constructor
    · exact congrArg cells (Nat.mod_eq_of_lt hi).symm
    · apply List.map_congr_left
      intro j _
      simp only [Function.comp_apply, Nat.mod_add_mod, Nat.succ_eq_add_one, Nat.add_assoc,
        Nat.add_comm 1 j]

/-- Two offsets of less than a round apart lead to different cells. -/
theorem offset_ne {j m : ℕ} (hjm : j < m) (hround : m < j + n) : (i + j) % n ≠ (i + m) % n := by
  intro heq
  have hdvd : n ∣ (i + m) - (i + j) := Nat.dvd_of_mod_eq_zero (Nat.sub_mod_eq_zero_of_mod_eq heq.symm)
  have hle := Nat.le_of_dvd (by omega) hdvd
  omega

/-- A cell that is not visited may be written. -/
theorem walk_update (hi : i < n) {m : ℕ} (hk : k ≤ m) (hround : m < n) :
    walk n (Function.update cells ((i + m) % n) x) i k = walk n cells i k := by
  rw [walk_eq_map hi, walk_eq_map hi]
  apply List.map_congr_left
  intro j hj
  have hlt : j < k := List.mem_range.mp hj
  exact Function.update_of_ne (offset_ne (by omega) (by omega)) _ _

/-- A walk that ends one cell further. -/
theorem walk_succ (hi : i < n) :
    walk n cells i (k + 1) = walk n cells i k ++ [cells ((i + k) % n)] := by
  rw [walk_eq_map hi, walk_eq_map hi, List.range_succ, List.map_append, List.map_singleton]

theorem lastItems_of_le (h : items.length ≤ n) : lastItems n items = items := by
  rw [lastItems, Nat.sub_eq_zero_of_le h, List.drop_zero]

/-- A full log drops its oldest item for a new one. -/
theorem lastItems_append (h : n ≤ items.length) (hn : 0 < n) :
    lastItems n (items ++ [x]) = (lastItems n items).tail ++ [x] := by
  rw [lastItems, lastItems, List.tail_drop, List.length_append, List.length_singleton,
    List.drop_append_of_le_length (by omega), Nat.sub_add_comm h]

/-- A new ring holds nothing. -/
theorem Keeps.init (hn : 0 < n) (cells : ℕ → α) : Keeps n cells 0 0 0 [] where
  head_lt := hn
  tail_eq := by rw [Nat.add_zero, Nat.zero_mod]
  count_eq := by rw [List.length_nil, Nat.zero_min]
  walk_eq := List.drop_nil.symm

/-- An item written at the tail of a ring that is not full. -/
theorem Keeps.push (h : Keeps n cells head tail count items) (hroom : count < n) (x : α) :
    Keeps n (Function.update cells tail x) head ((tail + 1) % n) (count + 1) (items ++ [x]) where
  head_lt := h.head_lt
  tail_eq := by rw [h.tail_eq, Nat.mod_add_mod, Nat.add_assoc]
  count_eq := by
    have hcount := h.count_eq
    rw [List.length_append, List.length_singleton]
    omega
  walk_eq := by
    have hcount := h.count_eq
    have hwalk := h.walk_eq
    rw [lastItems_of_le (by omega)] at hwalk
    rw [walk_succ h.head_lt, h.tail_eq, walk_update h.head_lt (Nat.le_refl _) hroom,
      Function.update_self, hwalk, lastItems_of_le]
    rw [List.length_append, List.length_singleton]
    omega

/-- An item written over the oldest one of a full ring. -/
theorem Keeps.overwrite (h : Keeps n cells head tail n items) (x : α) :
    Keeps n (Function.update cells tail x) ((head + 1) % n) ((tail + 1) % n) n (items ++ [x]) := by
  obtain ⟨m, rfl⟩ : ∃ m, n = m + 1 := ⟨n - 1, by have := h.head_lt; omega⟩
  have hfull : m + 1 ≤ items.length := by
    have := h.count_eq
    omega
  have hnext : (head + 1) % (m + 1) < m + 1 := Nat.mod_lt _ (Nat.succ_pos m)
  have htail : tail = ((head + 1) % (m + 1) + m) % (m + 1) := by
    rw [h.tail_eq, Nat.mod_add_mod, Nat.add_assoc, Nat.add_comm 1 m]
  constructor
  · exact hnext
  · rw [Nat.mod_add_mod, h.tail_eq, Nat.mod_add_mod, Nat.add_right_comm]
  · rw [List.length_append, List.length_singleton]
    omega
  · have hrest : walk (m + 1) cells ((head + 1) % (m + 1)) m = (lastItems (m + 1) items).tail := by
      rw [← h.walk_eq, walk, List.tail_cons]
    rw [walk_succ hnext, htail, walk_update hnext (Nat.le_refl _) (Nat.lt_succ_self m),
      Function.update_self, hrest, lastItems_append hfull (Nat.succ_pos m)]

end RingLog
