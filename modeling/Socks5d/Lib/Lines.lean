import Mathlib.Data.List.Basic

/-!
# Streams of terminated lines

A line of a stream is complete once its terminator has arrived. What stands behind the last
terminator belongs to a line that is not complete yet.
-/

namespace Lines

variable {α : Type*} (sep : α)

/-- Lines one after another, each with its terminator. -/
def terminated (lines : List (List α)) : List α := (lines.map (· ++ [sep])).flatten

/-- One more line stands behind the others. -/
theorem terminated_snoc (lines : List (List α)) (line : List α) :
    terminated sep (lines ++ [line]) = terminated sep lines ++ line ++ [sep] := by
  simp [terminated]

/-- The terminators separate the lines from each other and from what follows them. -/
theorem terminated_append (lines : List (List α)) (front : List α) :
    terminated sep lines ++ front = [sep].intercalate (lines ++ [front]) := by
  induction lines with
  | nil => simp [terminated, List.intercalate]
  | cons line lines ih =>
    have hne : lines ++ [front] ≠ [] := by simp
    rw [List.cons_append, List.intercalate_cons_of_ne_nil hne, ← ih]
    simp [terminated]

variable [DecidableEq α]

/-- The complete lines of a stream, without their terminators. -/
def complete (stream : List α) : List (List α) := (stream.splitOn sep).dropLast

variable {sep} {stream line front : List α} {lines : List (List α)}

/-- Lines that hold no terminator are recovered from the stream. -/
theorem complete_terminated (hlines : ∀ line ∈ lines, sep ∉ line) (hfront : sep ∉ front) :
    complete sep (terminated sep lines ++ front) = lines := by
  have hparts : ∀ part ∈ lines ++ [front], sep ∉ part := by
    intro part hpart
    rcases List.mem_append.mp hpart with hpart | hpart
    · exact hlines part hpart
    · exact List.mem_singleton.mp hpart ▸ hfront
  rw [complete, terminated_append, List.splitOn_intercalate sep hparts (by simp), List.dropLast_concat]

/-- There are as many complete lines as terminators. -/
theorem length_complete (stream : List α) : (complete sep stream).length = stream.count sep := by
  have hparts : (stream.splitOn sep).length = stream.count sep + 1 := by
    induction stream with
    | nil => rfl
    | cons x stream ih =>
      rw [List.splitOn_cons_eq_if_modifyHead, List.count_cons]
      split <;> simp [ih]
  rw [complete, List.length_dropLast, hparts, Nat.add_sub_cancel]

/-- No complete line holds a terminator. -/
theorem not_mem_of_mem_complete (h : line ∈ complete sep stream) : sep ∉ line := by
  have hparts := List.dropLast_subset _ h
  clear h
  induction stream generalizing line with
  | nil =>
    obtain rfl : line = [] := by simpa using hparts
    exact List.not_mem_nil
  | cons x stream ih =>
    rw [List.splitOn_cons_eq_if_modifyHead] at hparts
    split at hparts
    · rcases List.mem_cons.mp hparts with rfl | hparts
      · exact List.not_mem_nil
      · exact ih hparts
    · rename_i hx
      obtain ⟨part, parts, hsplit⟩ := List.exists_cons_of_ne_nil (List.splitOn_ne_nil sep stream)
      rw [hsplit] at hparts ih
      rcases List.mem_cons.mp hparts with rfl | hparts
      · have hpart := ih List.mem_cons_self
        simp only [beq_iff_eq] at hx
        simp [Ne.symm hx, hpart]
      · exact ih (List.mem_cons_of_mem _ hparts)

/-- A list with one terminator is what ends a line and what begins the next one. -/
theorem split_of_count_one {chunk : List α} (h : chunk.count sep = 1) :
    ∃ tail rest, chunk = tail ++ sep :: rest ∧ sep ∉ tail ∧ sep ∉ rest := by
  have hmem : sep ∈ chunk := List.count_pos_iff.mp (by omega)
  obtain ⟨tail, rest, rfl, htail⟩ := List.eq_append_cons_of_mem hmem
  refine ⟨tail, rest, rfl, htail, fun hrest => ?_⟩
  have hpos := List.count_pos_iff.mpr hrest
  rw [List.count_append, List.count_cons_self] at h
  omega

end Lines
