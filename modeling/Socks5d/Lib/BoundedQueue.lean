import Mathlib.Data.List.Basic

/-!
# A bounded queue

A first-in first-out queue of at most `n` items, kept in an array from which items leave at the
front. Arrivals use up the room behind the last item; the room in front of the first one comes
back only when the queue is compacted or runs empty.
-/

namespace BoundedQueue

universe u

/-- A queue in an array of `n` places, with the number of places behind its last item. -/
@[ext]
structure Queue (α : Type u) (n : ℕ) where
  items : List α
  room : ℕ
  bounded : items.length + room ≤ n
  whole : items = [] → room = n

namespace Queue

variable {α : Type u} {n : ℕ} (q : Queue α n)

/-- The queue that holds nothing. -/
def empty : Queue α n where
  items := []
  room := n
  bounded := by simp
  whole _ := rfl

/-- Append all of the items, or none when they do not fit. -/
def offer (xs : List α) : Queue α n :=
  if h : xs.length ≤ q.room then
    { items := q.items ++ xs
      room := q.room - xs.length
      bounded := by
        have hbounded := q.bounded
        rw [List.length_append]
        omega
      whole := by
        intro hnil
        obtain ⟨hitems, hxs⟩ := List.append_eq_nil_iff.mp hnil
        rw [hxs, q.whole hitems]
        rfl }
  else q

/-- Remove items from the front. -/
def drop (k : ℕ) : Queue α n :=
  if h : k < q.items.length then
    { items := q.items.drop k
      room := q.room
      bounded := by
        have hbounded := q.bounded
        rw [List.length_drop]
        omega
      whole := by
        intro hnil
        rw [List.drop_eq_nil_iff] at hnil
        omega }
  else empty

/-- Move the items to the front of the array. -/
def compact : Queue α n where
  items := q.items
  room := n - q.items.length
  bounded := by
    have hbounded := q.bounded
    omega
  whole hnil := by rw [hnil]; rfl

/-- What fits is taken. -/
theorem offer_of_le {xs : List α} (h : xs.length ≤ q.room) :
    (q.offer xs).items = q.items ++ xs ∧ (q.offer xs).room = q.room - xs.length := by
  rw [offer, dif_pos h]
  exact ⟨rfl, rfl⟩

/-- What does not fit is refused as a whole. -/
theorem offer_of_lt {xs : List α} (h : q.room < xs.length) : q.offer xs = q := by
  rw [offer, dif_neg (by omega)]

/-- Offering nothing changes nothing. -/
theorem offer_nil : q.offer [] = q := by
  have hfits : ([] : List α).length ≤ q.room := Nat.zero_le _
  obtain ⟨hitems, hroom⟩ := q.offer_of_le hfits
  ext1
  · rw [hitems, List.append_nil]
  · rw [hroom]
    rfl

/-- What leaves a queue leaves it from the front. -/
theorem items_drop (k : ℕ) : (q.drop k).items = q.items.drop k := by
  rw [drop]
  split
  · rfl
  · rename_i h
    exact (List.drop_eq_nil_of_le (by omega)).symm

/-- Removing items changes the room only when it empties the queue. -/
theorem room_drop (k : ℕ) : (q.drop k).room = if k < q.items.length then q.room else n := by
  rw [drop]
  split
  · rfl
  · rfl

/-- Removing nothing leaves the queue as it is. -/
theorem drop_eq_self {k : ℕ} (h : q.items.drop k = q.items) : q.drop k = q := by
  ext1
  · rw [items_drop, h]
  · rw [room_drop]
    split
    · rfl
    · rename_i hall
      rw [List.drop_eq_nil_of_le (by omega)] at h
      exact (q.whole h.symm).symm

end Queue

end BoundedQueue
