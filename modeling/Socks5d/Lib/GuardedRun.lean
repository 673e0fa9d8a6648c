import Mathlib.Logic.Basic

/-!
# Runs of an event-driven machine

A machine offers events and answers each with a new state or a fault. A run takes enabled
events that also meet a guard, so one notion covers unrestricted runs and runs under a
condition. Invariants are carried by the induction rule, and a run on fixed events is obtained
by executing it.
-/

namespace GuardedRun

universe u v w

/-- An event-driven machine whose callbacks may fault. -/
structure Machine (ε : Type u) (σ : Type v) (α : Type w) where
  enabled : σ → α → Bool
  step : σ → α → Except ε σ

variable {ε : Type u} {σ : Type v} {α : Type w}

/-- A run of enabled events that meet the guard, extended at its end. -/
inductive Run (m : Machine ε σ α) (guard : σ → α → Prop) (s₀ : σ) : List α → σ → Prop
  | nil : Run m guard s₀ [] s₀
  | snoc {events : List α} {s s' : σ} {a : α} (hrun : Run m guard s₀ events s)
      (henabled : m.enabled s a = true) (hguard : guard s a) (hstep : m.step s a = .ok s') :
      Run m guard s₀ (events ++ [a]) s'

/-- The guard that admits every event. -/
def unguarded : σ → α → Prop := fun _ _ => True

instance (s : σ) (a : α) : Decidable (unguarded s a) := isTrue trivial

variable {m : Machine ε σ α} {guard guard' : σ → α → Prop} {s₀ s s' : σ} {events more : List α}

/-- What holds at the start and survives every guarded step holds at the end of every run. -/
theorem Run.invariant {I : σ → Prop} (hrun : Run m guard s₀ events s) (hinit : I s₀)
    (hkeep : ∀ s a s', I s → m.enabled s a = true → guard s a → m.step s a = .ok s' → I s') :
    I s := by
  induction hrun with
  | nil => exact hinit
  | snoc _ henabled hguard hstep ih => exact hkeep _ _ _ ih henabled hguard hstep

/-- A run under a guard is a run under every weaker guard. -/
theorem Run.mono (hrun : Run m guard s₀ events s) (himp : ∀ s a, guard s a → guard' s a) :
    Run m guard' s₀ events s := by
  induction hrun with
  | nil => exact .nil
  | snoc _ henabled hguard hstep ih => exact .snoc ih henabled (himp _ _ hguard) hstep

/-- A run may be continued by another. -/
theorem Run.append (hrun : Run m guard s₀ events s) (hmore : Run m guard s more s') :
    Run m guard s₀ (events ++ more) s' := by
  induction hmore with
  | nil => simpa using hrun
  | snoc _ henabled hguard hstep ih =>
    rw [← List.append_assoc]
    exact ih.snoc henabled hguard hstep

/-- Execute a list of events, stopping without a result at the first one refused. -/
def exec (m : Machine ε σ α) (guard : σ → α → Prop) [∀ s a, Decidable (guard s a)] :
    σ → List α → Option σ
  | s, [] => some s
  | s, a :: rest =>
    if m.enabled s a = true ∧ guard s a then
      match m.step s a with
      | .ok s' => exec m guard s' rest
      | .error _ => none
    else none

/-- A run may be continued by executing further events. -/
theorem Run.append_exec [∀ s a, Decidable (guard s a)] (hrun : Run m guard s₀ events s)
    (hexec : exec m guard s more = some s') : Run m guard s₀ (events ++ more) s' := by
  induction more generalizing events s with
  | nil =>
    obtain rfl : s = s' := by simpa [exec] using hexec
    simpa using hrun
  | cons a rest ih =>
    rw [exec] at hexec
    split at hexec
    · rename_i hok
      cases hstep : m.step s a with
      | error e => simp [hstep] at hexec
      | ok s₁ =>
        simp only [hstep] at hexec
        have hnext := ih (hrun.snoc hok.1 hok.2 hstep) hexec
        simpa [List.append_assoc] using hnext
    · cases hexec

/-- Executing a list of events yields a run on them. -/
theorem run_of_exec [∀ s a, Decidable (guard s a)] (hexec : exec m guard s₀ events = some s) :
    Run m guard s₀ events s := by
  simpa using Run.append_exec Run.nil hexec

end GuardedRun
