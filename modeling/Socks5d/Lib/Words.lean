import Mathlib.Data.List.Induction

/-!
# Words of a partial machine

A machine that accepts some letters in some states and refuses the others. A word is accepted when
each of its letters is, and what is said of a word and the state it leads to is proved letter by
letter from the front.
-/

namespace Words

variable {σ α : Type*}

/-- The state after a word, if every letter is accepted. -/
def follow (next : σ → α → Option σ) : σ → List α → Option σ
  | s, [] => some s
  | s, a :: rest => (next s a).bind fun s' => follow next s' rest

variable {next : σ → α → Option σ} {s s' : σ} {a : α} {word more : List α}

/-- The empty word leads nowhere else. -/
@[simp] theorem follow_nil : follow next s [] = some s := rfl

/-- The first letter is read first. -/
@[simp] theorem follow_cons :
    follow next s (a :: word) = (next s a).bind fun s' => follow next s' word := rfl

/-- A word is read piece by piece. -/
theorem follow_append :
    follow next s (word ++ more) = (follow next s word).bind fun s' => follow next s' more := by
  induction word generalizing s with
  | nil => rfl
  | cons a rest ih =>
    simp only [List.cons_append, follow_cons, Option.bind_assoc]
    congr 1
    funext s'
    exact ih

/-- An accepted word goes on from the state it leads to. -/
theorem follow_append_of (h : follow next s word = some s') :
    follow next s (word ++ more) = follow next s' more := by
  rw [follow_append, h, Option.bind_some]

/-- What relates the words read so far to the states they lead to. -/
theorem follow_invariant {I : List α → σ → Prop} (hinit : I [] s)
    (hkeep : ∀ before t a t', I before t → next t a = some t' → I (before ++ [a]) t')
    (h : follow next s word = some s') : I word s' := by
  induction word using List.reverseRecOn generalizing s' with
  | nil =>
    obtain rfl := Option.some.inj h
    exact hinit
  | append_singleton rest a ih =>
    rw [follow_append] at h
    obtain ⟨t, ht, hlast⟩ := Option.bind_eq_some_iff.mp h
    obtain ⟨t', hnext, hend⟩ := Option.bind_eq_some_iff.mp hlast
    obtain rfl := Option.some.inj hend
    exact hkeep rest t a t' (ih ht) hnext

end Words
