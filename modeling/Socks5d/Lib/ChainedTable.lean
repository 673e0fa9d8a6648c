import Mathlib.Data.List.Nodup
import Mathlib.Data.List.Basic
import Mathlib.Logic.Function.Basic
import Mathlib.Data.Nat.Notation

/-!
# Hash tables with chains

A table is a chain of entries for each bucket. It behaves as a finite map when every entry lies in
the bucket of its own key and no chain holds a key twice; insertion at the head of a chain and
deletion anywhere in one keep both.
-/

namespace ChainedTable

universe u v

variable {E : Type u} {K : Type v} (key : E → K) (bucket : K → ℕ)

/-- Put an entry at the head of its chain. -/
def insert (t : ℕ → List E) (e : E) : ℕ → List E :=
  Function.update t (bucket (key e)) (e :: t (bucket (key e)))

/-- The entries of the first `n` chains. -/
def entries (t : ℕ → List E) (n : ℕ) : List E := (List.range n).flatMap t

/-- Every entry lies in the bucket of its key, and no key occurs twice. -/
structure Chained (t : ℕ → List E) : Prop where
  placed : ∀ i, ∀ e ∈ t i, bucket (key e) = i
  unique : ∀ i, ((t i).map key).Nodup

/-- A table without entries is in order. -/
theorem chained_empty : Chained key bucket fun _ => [] := ⟨by simp, by simp⟩

variable {key bucket} {t : ℕ → List E} {e : E}

/-- The entries of all chains have different keys. -/
theorem Chained.nodup_entries (h : Chained key bucket t) (n : ℕ) :
    ((entries t n).map key).Nodup := by
  rw [entries, List.map_flatMap, List.nodup_flatMap]
  refine ⟨fun i _ => h.unique i, (List.nodup_range).imp ?_⟩
  intro i j hij k hi hj
  obtain ⟨e, he, rfl⟩ := List.mem_map.mp hi
  obtain ⟨e', he', hkey⟩ := List.mem_map.mp hj
  exact hij ((h.placed i e he).symm.trans (hkey ▸ h.placed j e' he'))

variable (key bucket) [DecidableEq K]

/-- The entry with this key in the chain of its bucket. -/
def find (t : ℕ → List E) (k : K) : Option E := (t (bucket k)).find? fun e => decide (key e = k)

/-- Take the first entry with this key out of its chain. -/
def erase (t : ℕ → List E) (k : K) : ℕ → List E :=
  Function.update t (bucket k) ((t (bucket k)).eraseP fun e => decide (key e = k))

variable {key bucket} {k k' : K}

/-- A key is not found exactly when its chain does not hold it. -/
theorem find_eq_none_iff : find key bucket t k = none ↔ k ∉ (t (bucket k)).map key := by
  simp [find, List.find?_eq_none]

/-- An entry is found exactly where it lies. -/
theorem Chained.find_eq_some_iff (h : Chained key bucket t) :
    find key bucket t k = some e ↔ e ∈ t (bucket k) ∧ key e = k := by
  constructor
  · intro hfind
    exact ⟨List.mem_of_find?_eq_some hfind, by simpa using List.find?_some hfind⟩
  · rintro ⟨hmem, rfl⟩
    cases hfind : find key bucket t (key e) with
    | none => exact absurd (List.mem_map_of_mem hmem) (find_eq_none_iff.mp hfind)
    | some e' =>
      have hkey : key e' = key e := by simpa using List.find?_some hfind
      have hsame := List.inj_on_of_nodup_map (h.unique _) (List.mem_of_find?_eq_some hfind) hmem hkey
      rw [hsame]

/-- After an insertion the new entry is found under its key, and all others as before. -/
theorem find_insert (t : ℕ → List E) (e : E) (k : K) :
    find key bucket (insert key bucket t e) k =
      if key e = k then some e else find key bucket t k := by
  unfold find insert
  by_cases hbucket : bucket k = bucket (key e)
  · rw [hbucket, Function.update_self, List.find?_cons]
    by_cases hkey : key e = k
    · simp [hkey]
    · simp [hkey]
  · have hkey : key e ≠ k := fun hk => hbucket (hk ▸ rfl)
    rw [Function.update_of_ne hbucket, if_neg hkey]

/-- Inserting a key that was not there keeps the table in order. -/
theorem Chained.insert (h : Chained key bucket t) (hnew : find key bucket t (key e) = none) :
    Chained key bucket (insert key bucket t e) where
  placed i e' he' := by
    rw [ChainedTable.insert] at he'
    by_cases hi : i = bucket (key e)
    · subst hi
      rw [Function.update_self] at he'
      rcases List.mem_cons.mp he' with rfl | hold
      · rfl
      · exact h.placed _ _ hold
    · rw [Function.update_of_ne hi] at he'
      exact h.placed _ _ he'
  unique i := by
    rw [ChainedTable.insert]
    by_cases hi : i = bucket (key e)
    · subst hi
      rw [Function.update_self, List.map_cons, List.nodup_cons]
      exact ⟨find_eq_none_iff.mp hnew, h.unique _⟩
    · rw [Function.update_of_ne hi]
      exact h.unique i

/-- Erasing a key keeps the table in order. -/
theorem Chained.erase (h : Chained key bucket t) (k : K) :
    Chained key bucket (erase key bucket t k) where
  placed i e he := by
    rw [ChainedTable.erase] at he
    by_cases hi : i = bucket k
    · subst hi
      rw [Function.update_self] at he
      exact h.placed _ _ (List.mem_of_mem_eraseP he)
    · rw [Function.update_of_ne hi] at he
      exact h.placed _ _ he
  unique i := by
    rw [ChainedTable.erase]
    by_cases hi : i = bucket k
    · subst hi
      rw [Function.update_self]
      exact (h.unique _).sublist (List.eraseP_sublist.map key)
    · rw [Function.update_of_ne hi]
      exact h.unique i

/-- Where keys differ, the first entry with a key is the only one. -/
theorem find?_eraseP {chain : List E} (hunique : (chain.map key).Nodup) (k k' : K) :
    (chain.eraseP fun e => decide (key e = k)).find? (fun e => decide (key e = k')) =
      if k = k' then none else chain.find? fun e => decide (key e = k') := by
  induction chain with
  | nil => simp
  | cons e rest ih =>
    rw [List.map_cons, List.nodup_cons] at hunique
    by_cases hk : key e = k
    · rw [List.eraseP_cons_of_pos (by simpa using hk)]
      by_cases hkk : k = k'
      · rw [if_pos hkk, List.find?_eq_none]
        intro e' he'
        have hne : key e' ≠ key e := fun heq => hunique.1 (heq ▸ List.mem_map_of_mem he')
        simpa [← hkk, ← hk] using hne
      · rw [if_neg hkk, List.find?_cons_of_neg (by simpa [hk] using hkk)]
    · rw [List.eraseP_cons_of_neg (by simpa using hk), List.find?_cons, ih hunique.2]
      by_cases hk' : key e = k'
      · have hkk : k ≠ k' := fun heq => hk (heq ▸ hk')
        simp [hk', hkk]
      · simp [hk']

/-- A key that was taken out is gone. -/
theorem Chained.find_erase (h : Chained key bucket t) (k k' : K) :
    find key bucket (ChainedTable.erase key bucket t k) k' =
      if k = k' then none else find key bucket t k' := by
  unfold find ChainedTable.erase
  by_cases hbucket : bucket k' = bucket k
  · rw [hbucket, Function.update_self, find?_eraseP (h.unique _)]
  · have hk : k ≠ k' := fun heq => hbucket (heq ▸ rfl)
    rw [Function.update_of_ne hbucket, if_neg hk]

/-- An entry is listed exactly when it is found under its key. -/
theorem Chained.mem_entries_iff (h : Chained key bucket t) {n : ℕ} (hbucket : ∀ k, bucket k < n) :
    e ∈ entries t n ↔ find key bucket t (key e) = some e := by
  rw [entries, List.mem_flatMap, h.find_eq_some_iff]
  constructor
  · rintro ⟨i, -, hmem⟩
    obtain rfl := h.placed i e hmem
    exact ⟨hmem, rfl⟩
  · rintro ⟨hmem, -⟩
    exact ⟨_, List.mem_range.mpr (hbucket _), hmem⟩

end ChainedTable
