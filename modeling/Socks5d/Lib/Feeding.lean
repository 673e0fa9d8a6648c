import Mathlib.Data.List.Basic
import Mathlib.Logic.Function.Basic
import Mathlib.Data.Nat.Notation

/-!
# Machines fed one item at a time

A machine answers every item with a new state and a verdict. The verdicts on a list of items are
again a list, and a list that is fed in pieces gives the same verdicts as one fed at once.

A machine of this kind often gathers what it reads in an array; `filled` is such an array after
some items were written to its front.
-/

namespace Feeding

variable {α P σ : Type*} (feed : P → α → P × σ)

/-- The state after a list of items. -/
def feedAll : P → List α → P
  | p, [] => p
  | p, a :: rest => feedAll (feed p a).1 rest

/-- The verdicts on a list of items. -/
def verdicts : P → List α → List σ
  | _, [] => []
  | p, a :: rest => (feed p a).2 :: verdicts (feed p a).1 rest

/-- The verdict is given on the `k`-th item, counted from one, and on none before it. -/
def FirstReturns (p : P) (items : List α) (v : σ) (k : ℕ) : Prop :=
  ∃ before a after, items = before ++ a :: after ∧ k = before.length + 1 ∧
    (feed (feedAll feed p before) a).2 = v ∧ v ∉ verdicts feed p before

variable {feed} {p : P} {a : α} {items more : List α} {v w : σ}

/-- Nothing fed changes nothing. -/
@[simp] theorem feedAll_nil : feedAll feed p [] = p := rfl

/-- Nothing fed gives no verdict. -/
@[simp] theorem verdicts_nil : verdicts feed p [] = [] := rfl

/-- The first item is fed first. -/
@[simp] theorem feedAll_cons : feedAll feed p (a :: items) = feedAll feed (feed p a).1 items := rfl

/-- The first verdict is that on the first item. -/
@[simp] theorem verdicts_cons :
    verdicts feed p (a :: items) = (feed p a).2 :: verdicts feed (feed p a).1 items := rfl

/-- A list may be fed in two pieces. -/
theorem feedAll_append :
    feedAll feed p (items ++ more) = feedAll feed (feedAll feed p items) more := by
  induction items generalizing p with
  | nil => rfl
  | cons a rest ih => simp [ih]

/-- The verdicts on two pieces are those on the first and those on the second after it. -/
theorem verdicts_append : verdicts feed p (items ++ more) =
    verdicts feed p items ++ verdicts feed (feedAll feed p items) more := by
  induction items generalizing p with
  | nil => rfl
  | cons a rest ih => simp [ih]

/-- The last item is fed in the state the others lead to. -/
theorem feedAll_concat : feedAll feed p (items ++ [a]) = (feed (feedAll feed p items) a).1 := by
  rw [feedAll_append, feedAll_cons, feedAll_nil]

/-- The last verdict is given in the state the other items lead to. -/
theorem verdicts_concat : verdicts feed p (items ++ [a]) =
    verdicts feed p items ++ [(feed (feedAll feed p items) a).2] := by
  rw [verdicts_append, verdicts_cons, verdicts_nil]

/-- What survives every item holds after all of them. -/
theorem feedAll_invariant {I : P → Prop} (hstep : ∀ p a, I p → I (feed p a).1) (h : I p) :
    I (feedAll feed p items) := by
  induction items generalizing p with
  | nil => exact h
  | cons a rest ih => exact ih (hstep p a h)

/-- In a state it does not leave a machine gives no verdict but that state's. -/
theorem verdicts_sink {I : P → Prop} (hstep : ∀ p a, I p → I (feed p a).1 ∧ (feed p a).2 = w)
    (h : I p) (hv : v ∈ verdicts feed p items) : v = w := by
  induction items generalizing p with
  | nil => cases hv
  | cons a rest ih =>
    obtain ⟨hnext, hverdict⟩ := hstep p a h
    rcases List.mem_cons.mp hv with rfl | hv
    · exact hverdict
    · exact ih hnext hv

/-- A verdict that is given for a first time is given. -/
theorem FirstReturns.mem {k : ℕ} (h : FirstReturns feed p items v k) :
    v ∈ verdicts feed p items := by
  obtain ⟨before, a, after, rfl, -, hv, -⟩ := h
  simp [verdicts_append, hv]

/-- There is only one first time. -/
theorem FirstReturns.unique {k l : ℕ} (h : FirstReturns feed p items v k)
    (h' : FirstReturns feed p items v l) : k = l := by
  obtain ⟨before, a, after, hsplit, rfl, hv, hnot⟩ := h
  obtain ⟨before', a', after', hsplit', rfl, hv', hnot'⟩ := h'
  have hwithin : ∀ {xs ys : List α} {x y : α} {us vs : List α}, xs ++ x :: us = ys ++ y :: vs →
      (feed (feedAll feed p xs) x).2 = v → v ∉ verdicts feed p ys → ys.length ≤ xs.length := by
    intro xs ys x y us vs heq hx hys
    by_contra hlt
    obtain ⟨t, rfl⟩ : xs ++ [x] <+: ys := by
      have hxs : xs ++ [x] <+: xs ++ x :: us := ⟨us, by simp⟩
      have hys' : ys <+: xs ++ x :: us := heq ▸ ⟨y :: vs, rfl⟩
      exact List.prefix_of_prefix_length_le hxs hys' (by simp; omega)
    exact hys (by simp [verdicts_append, hx])
  have h₁ := hwithin (hsplit.symm.trans hsplit') hv hnot'
  have h₂ := hwithin (hsplit'.symm.trans hsplit) hv' hnot
  omega

section Ends

variable (feed)

/-- Every verdict on these items is a pending one. -/
def Goes (pending : σ → Prop) (p : P) (items : List α) : Prop :=
  ∀ v ∈ verdicts feed p items, pending v

/-- The machine goes on up to the last item, gives a verdict on it, and stays with that verdict. -/
structure Ends (pending : σ → Prop) (p : P) (front : List α) (last : α) (v : σ) : Prop where
  goes : Goes feed pending p front
  verdict : (feed (feedAll feed p front) last).2 = v
  stays : ∀ more, ∀ w ∈ verdicts feed (feed (feedAll feed p front) last).1 more, w = v

variable {feed} {pending : σ → Prop} {front : List α} {last : α}

/-- A machine that was fed nothing goes on. -/
theorem goes_nil (p : P) : Goes feed pending p [] := by
  intro v hv
  cases hv

/-- A machine goes on after an item whose verdict is pending. -/
theorem goes_singleton (hv : (feed p a).2 = v) (hpending : pending v) :
    Goes feed pending p [a] := by
  intro w hw
  rw [verdicts_cons, verdicts_nil, List.mem_singleton] at hw
  rwa [hw, hv]

/-- A machine goes on after two pieces if it does after each. -/
theorem Goes.append (h : Goes feed pending p items)
    (hmore : Goes feed pending (feedAll feed p items) more) :
    Goes feed pending p (items ++ more) := by
  intro v hv
  rw [verdicts_append] at hv
  rcases List.mem_append.mp hv with hv | hv
  · exact h v hv
  · exact hmore v hv

/-- A machine that goes on after a list did so after each of its beginnings. -/
theorem Goes.begins (h : Goes feed pending p items) (hfront : front <+: items) :
    Goes feed pending p front := by
  obtain ⟨rest, rfl⟩ := hfront
  intro v hv
  exact h v (by rw [verdicts_append]; exact List.mem_append_left _ hv)

/-- A machine that goes on after a list does so after the rest, once it was fed a beginning. -/
theorem Goes.rest (h : Goes feed pending p (items ++ more)) :
    Goes feed pending (feedAll feed p items) more := by
  intro v hv
  exact h v (by rw [verdicts_append]; exact List.mem_append_right _ hv)

/-- As long as a machine goes on, it gives no final verdict. -/
theorem Goes.not_firstReturns (h : Goes feed pending p items) (hv : ¬ pending v) (k : ℕ) :
    ¬ FirstReturns feed p items v k := fun hfirst => hv (h v hfirst.mem)

/-- The verdict an end gives is given there for the first time. -/
theorem Ends.firstReturns (h : Ends feed pending p front last v) (hv : ¬ pending v) :
    FirstReturns feed p (front ++ last :: more) v (front.length + 1) :=
  ⟨front, last, more, rfl, rfl, h.verdict, fun hmem => hv (h.goes v hmem)⟩

/-- Whatever follows an end, every verdict is pending or the one that was given. -/
theorem Ends.only (h : Ends feed pending p front last v)
    (hw : w ∈ verdicts feed p (front ++ last :: more)) : pending w ∨ w = v := by
  rw [verdicts_append, verdicts_cons] at hw
  rcases List.mem_append.mp hw with hw | hw
  · exact .inl (h.goes w hw)
  · rcases List.mem_cons.mp hw with rfl | hw
    · exact .inr h.verdict
    · exact .inr (h.stays more w hw)

/-- Behind such items no other verdict ends anything, and this one did so once. -/
theorem Ends.firstReturns_iff (h : Ends feed pending p front last v) (hv : ¬ pending v)
    (hw : ¬ pending w) (k : ℕ) :
    FirstReturns feed p (front ++ last :: more) w k ↔ w = v ∧ k = front.length + 1 := by
  constructor
  · intro hfirst
    obtain rfl := (h.only hfirst.mem).resolve_left hw
    exact ⟨rfl, hfirst.unique (h.firstReturns hv)⟩
  · rintro ⟨rfl, rfl⟩
    exact h.firstReturns hv

/-- A machine that goes on after these items was not fed the last one yet. -/
theorem Ends.split (h : Ends feed pending p front last v) (hv : ¬ pending v) {fed rest : List α}
    (hfed : Goes feed pending p fed) (heq : fed ++ rest = front ++ last :: more) :
    ∃ mid, front = fed ++ mid ∧ rest = mid ++ last :: more := by
  rcases List.append_eq_append_iff.mp heq with ⟨mid, hmid, hrest⟩ | ⟨beyond, hbeyond, hlast⟩
  · exact ⟨mid, hmid, hrest⟩
  · cases beyond with
    | nil => exact ⟨[], by simpa using hbeyond.symm, by simpa using hlast.symm⟩
    | cons b beyond =>
      obtain ⟨rfl, -⟩ := List.cons.inj hlast
      have hverdict := hfed v (by rw [hbeyond, verdicts_append, verdicts_cons, h.verdict]; simp)
      exact absurd hverdict hv

end Ends

section Scans

variable (feed)

/-- How a loop that feeds item after item ends: with nothing left, or on the first verdict that is
not a pending one, with the machine and the items it leaves. -/
inductive Scan (pending : σ → Prop) : P → List α → Option σ → P → List α → Prop
  | exhausted (p : P) : Scan pending p [] none p []
  | stopped (p : P) (a : α) (rest : List α) (hfinal : ¬ pending (feed p a).2) :
      Scan pending p (a :: rest) (some (feed p a).2) (feed p a).1 rest
  | fed (p q : P) (a : α) (rest left : List α) (verdict : Option σ) (hpending : pending (feed p a).2)
      (hrest : Scan pending (feed p a).1 rest verdict q left) : Scan pending p (a :: rest) verdict q left

variable {feed} {pending : σ → Prop} {q q' : P} {front left left' : List α} {last : α}
  {verdict verdict' : Option σ}

/-- A loop stops on a final verdict. -/
theorem Scan.stop (hfeed : feed p a = (q, v)) (hfinal : ¬ pending v) (rest : List α) :
    Scan feed pending p (a :: rest) (some v) q rest := by
  have hstop := @Scan.stopped _ _ _ feed pending p a rest
  rw [hfeed] at hstop
  exact hstop hfinal

/-- A loop goes on after a pending verdict. -/
theorem Scan.cons (hfeed : feed p a = (q', v)) (hpending : pending v)
    (h : Scan feed pending q' items verdict q left) :
    Scan feed pending p (a :: items) verdict q left := by
  refine .fed _ _ _ _ _ _ ?_ ?_
  · rw [hfeed]
    exact hpending
  · rw [hfeed]
    exact h

/-- A loop ends in one way. -/
theorem Scan.unique (h : Scan feed pending p items verdict q left)
    (h' : Scan feed pending p items verdict' q' left') :
    verdict = verdict' ∧ q = q' ∧ left = left' := by
  induction h with
  | exhausted p =>
    cases h'
    exact ⟨rfl, rfl, rfl⟩
  | stopped p a rest hfinal =>
    cases h' with
    | stopped _ _ _ _ => exact ⟨rfl, rfl, rfl⟩
    | fed _ _ _ _ _ _ hpending _ => exact absurd hpending hfinal
  | fed p q a rest left verdict hpending hrest ih =>
    cases h' with
    | stopped _ _ _ hfinal => exact absurd hpending hfinal
    | fed _ _ _ _ _ _ _ hrest' => exact ih hrest'

/-- Every loop ends. -/
theorem Scan.total (pending : σ → Prop) (p : P) (items : List α) :
    ∃ verdict q left, Scan feed pending p items verdict q left := by
  induction items generalizing p with
  | nil => exact ⟨_, _, _, .exhausted p⟩
  | cons a rest ih =>
    by_cases hpending : pending (feed p a).2
    · obtain ⟨verdict, q, left, hrest⟩ := ih (feed p a).1
      exact ⟨verdict, q, left, .fed _ _ _ _ _ _ hpending hrest⟩
    · exact ⟨_, _, _, .stopped p a rest hpending⟩

/-- Items on which a machine goes on may be fed before the loop. -/
theorem Scan.after (hgoes : Goes feed pending p items)
    (h : Scan feed pending (feedAll feed p items) more verdict q left) :
    Scan feed pending p (items ++ more) verdict q left := by
  induction items generalizing p with
  | nil => exact h
  | cons a rest ih =>
    refine .fed _ _ _ _ _ _ (hgoes _ List.mem_cons_self) (ih (fun v hv => ?_) h)
    exact hgoes v (List.mem_cons_of_mem _ hv)

/-- Items on which a machine goes on are all fed. -/
theorem Goes.scan (h : Goes feed pending p items) :
    Scan feed pending p items none (feedAll feed p items) [] := by
  have hscan : Scan feed pending p (items ++ []) none (feedAll feed p items) [] :=
    Scan.after h (.exhausted _)
  rwa [List.append_nil] at hscan

/-- Of the beginning of a list in which a machine comes to an end either all is fed, or all up to
that end. -/
theorem scan_of_prefix (hgoes : Goes feed pending p front)
    (hverdict : (feed (feedAll feed p front) last).2 = v) (hfinal : ¬ pending v)
    (h : items <+: front ++ last :: more) :
    items <+: front ∧ Goes feed pending p items ∨
      ∃ rest, items = front ++ last :: rest ∧
        Scan feed pending p items (some v) (feedAll feed p (front ++ [last])) rest := by
  by_cases hle : items.length ≤ front.length
  · have hfront : items <+: front :=
      List.prefix_of_prefix_length_le h (List.prefix_append _ _) hle
    exact .inl ⟨hfront, hgoes.begins hfront⟩
  · have hend : front ++ [last] <+: front ++ last :: more := ⟨more, by simp⟩
    obtain ⟨rest, rfl⟩ : front ++ [last] <+: items :=
      List.prefix_of_prefix_length_le hend h (by simp; omega)
    refine .inr ⟨rest, by simp, ?_⟩
    subst hverdict
    rw [feedAll_concat, List.append_assoc]
    exact Scan.after hgoes (.stopped _ _ _ hfinal)

end Scans

section Filled

/-- An array after these items were written to its front. -/
def filled (mem : ℕ → α) (items : List α) : ℕ → α := fun i => items.getD i (mem i)

variable {mem : ℕ → α} {items : List α} {i : ℕ}

/-- An array nothing was written to is as it was. -/
@[simp] theorem filled_nil : filled mem [] = mem := rfl

/-- What was written stands at the front. -/
theorem filled_of_lt (h : i < items.length) : filled mem items i = items[i] := by
  simp [filled, h]

/-- What lies behind the items is as it was. -/
theorem filled_of_le (h : items.length ≤ i) : filled mem items i = mem i := by
  simp [filled, h]

/-- The next item goes behind those already written. -/
theorem update_filled {n : ℕ} (hn : n = items.length) (a : α) :
    Function.update (filled mem items) n a = filled mem (items ++ [a]) := by
  subst hn
  funext i
  rcases Nat.lt_trichotomy i items.length with hlt | rfl | hgt
  · rw [Function.update_of_ne (by omega), filled_of_lt hlt, filled_of_lt (by simp; omega),
      List.getElem_append_left hlt]
  · rw [Function.update_self, filled_of_lt (by simp), List.getElem_concat_length rfl]
  · rw [Function.update_of_ne (by omega), filled_of_le (by omega), filled_of_le (by simp; omega)]

/-- A front that was written to holds what was written. -/
theorem map_range_filled {n : ℕ} (h : n ≤ items.length) :
    (List.range n).map (filled mem items) = items.take n := by
  refine List.ext_getElem (by simp [h]) fun i hi hi' => ?_
  rw [List.length_take] at hi'
  rw [List.getElem_map, List.getElem_range, filled_of_lt (by omega), List.getElem_take]

/-- A longer front begins with what was written. -/
theorem range_filled_begins {n : ℕ} (h : items.length ≤ n) :
    items <+: (List.range n).map (filled mem items) := by
  obtain ⟨m, rfl⟩ := Nat.exists_eq_add_of_le h
  rw [List.range_add, List.map_append, map_range_filled (Nat.le_refl _), List.take_length]
  exact List.prefix_append _ _

end Filled

end Feeding
