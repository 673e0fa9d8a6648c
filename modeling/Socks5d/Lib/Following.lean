import Socks5d.Lib.Fallible
import Socks5d.Lib.GuardedRun

/-!
# Loops that follow a machine

The body of an event loop is a computation that calls one handler after another. The calls it
makes, each with the state it is made in, are a list of their own. The loop follows a machine when
these calls are events that the machine offers one after another, and when the loop comes to what
the last of them comes to; behind a call that misses a guard nothing is claimed. The rules here
derive this for a loop from its parts.
-/

namespace GuardedRun

open Fallible

universe u v w

variable {ε : Type u} {σ : Type v} {γ : Type w} {ι : Type w}

/-- The calls behind a computation; there are none once it has faulted. -/
def callsAfter (r : Except ε σ) (calls : σ → List (σ × γ)) : List (σ × γ) :=
  match r with
  | .ok s => calls s
  | .error _ => []

/-- The calls of a loop, from those of its body. -/
def callsOf (f : σ → ι → Except ε σ) (calls : σ → ι → List (σ × γ)) :
    List ι → σ → List (σ × γ)
  | [], _ => []
  | i :: items, s => calls s i ++ callsAfter (f s i) (callsOf f calls items)

/-- The calls of a computation are events that the machine offers one after another, up to the
first that misses the guard, and if there is none the computation comes to what they come to. -/
inductive Conforms (m : Machine ε σ γ) (guard : σ → γ → Prop) :
    σ → List (σ × γ) → Except ε σ → Prop
  | ends (s : σ) : Conforms m guard s [] (.ok s)
  | calls {s s' : σ} {a : γ} {more : List (σ × γ)} {r : Except ε σ} (he : m.enabled s a = true)
      (hguard : guard s a) (hstep : m.step s a = .ok s') (hrest : Conforms m guard s' more r) :
      Conforms m guard s ((s, a) :: more) r
  | faults {s : σ} {a : γ} {f : ε} (he : m.enabled s a = true) (hguard : guard s a)
      (hstep : m.step s a = .error f) : Conforms m guard s [(s, a)] (.error f)
  | strays {s : σ} {a : γ} {more : List (σ × γ)} {r : Except ε σ} (he : m.enabled s a = true)
      (hguard : ¬ guard s a) : Conforms m guard s ((s, a) :: more) r

variable {m : Machine ε σ γ} {guard : σ → γ → Prop} {s s' : σ} {calls : List (σ × γ)}
  {r : Except ε σ}

/-- Answering an event the machine offers follows it. -/
theorem Conforms.step {a : γ} (he : m.enabled s a = true) :
    Conforms m guard s [(s, a)] (m.step s a) := by
  by_cases hguard : guard s a
  · cases hstep : m.step s a with
    | ok s' => exact .calls he hguard hstep (.ends s')
    | error f => exact .faults he hguard hstep
  · exact .strays he hguard

/-- Sequencing: the second part follows the machine from wherever the first part led. -/
theorem Conforms.bind {f : σ → Except ε σ} {g : σ → List (σ × γ)} (h : Conforms m guard s calls r)
    (hf : ∀ events s', r = .ok s' → Run m guard s events s' → Conforms m guard s' (g s') (f s')) :
    Conforms m guard s (calls ++ callsAfter r g) (r >>= f) := by
  induction h with
  | ends s => exact hf [] s rfl .nil
  | calls he hguard hstep _ ih =>
    exact .calls he hguard hstep (ih fun events s'' hr hrun =>
      hf _ s'' hr ((Run.nil.snoc he hguard hstep).append hrun))
  | faults he hguard hstep => exact .faults he hguard hstep
  | strays he hguard => exact .strays he hguard

/-- A loop follows the machine if its body does in every state the loop may be in. -/
theorem Conforms.foldlM {f : σ → ι → Except ε σ} {calls : σ → ι → List (σ × γ)} {items : List ι}
    (hf : ∀ events s' i, Run m guard s events s' → i ∈ items →
      Conforms m guard s' (calls s' i) (f s' i)) :
    Conforms m guard s (callsOf f calls items s) (items.foldlM f s) := by
  induction items generalizing s with
  | nil => exact .ends s
  | cons i items ih =>
    rw [List.foldlM_cons]
    refine (hf [] s i .nil List.mem_cons_self).bind fun events s' _ hrun => ?_
    exact ih fun more s'' j hmore hj => hf _ s'' j (hrun.append hmore) (List.mem_cons_of_mem _ hj)

/-- A computation whose calls all meet the guard does what a run on them does, and faults as the
machine does at the last of them. -/
theorem Conforms.run (h : Conforms m guard s calls r)
    (hguarded : ∀ call ∈ calls, guard call.1 call.2) :
    Holds (fun f => ∃ before s₁ a, calls = before ++ [(s₁, a)] ∧
        Run m guard s (before.map Prod.snd) s₁ ∧ m.enabled s₁ a = true ∧ m.step s₁ a = .error f)
      r fun s' => Run m guard s (calls.map Prod.snd) s' := by
  induction h with
  | ends s => exact .nil
  | @calls s s' a more r he hguard hstep _ ih =>
    have hfirst : Run m guard s [a] s' := Run.nil.snoc he hguard hstep
    refine ((ih fun call hcall => hguarded call (List.mem_cons_of_mem _ hcall)).tolerate ?_).mono ?_
    · rintro f ⟨before, s₁, b, rfl, hrun, hb, hfault⟩
      exact ⟨(s, a) :: before, s₁, b, rfl, hfirst.append hrun, hb, hfault⟩
    · exact fun s'' hrun => hfirst.append hrun
  | @faults s a f he _ hstep => exact ⟨[], s, a, rfl, .nil, he, hstep⟩
  | @strays s a more r _ hguard => exact absurd (hguarded _ List.mem_cons_self) hguard

/-- A call with only guarded ones before it is an event the machine offers at the end of the run on
these. -/
theorem Conforms.before (h : Conforms m guard s calls r) {before after : List (σ × γ)}
    {call : σ × γ} (hcalls : calls = before ++ call :: after)
    (hguarded : ∀ earlier ∈ before, guard earlier.1 earlier.2) :
    Run m guard s (before.map Prod.snd) call.1 ∧ m.enabled call.1 call.2 = true := by
  induction h generalizing before with
  | ends s => simp at hcalls
  | calls he hguard hstep _ ih =>
    cases before with
    | nil =>
      obtain ⟨rfl, -⟩ := List.cons.inj hcalls
      exact ⟨.nil, he⟩
    | cons first before =>
      obtain ⟨rfl, hrest⟩ := List.cons.inj hcalls
      obtain ⟨hrun, henabled⟩ := ih hrest fun x hx => hguarded x (List.mem_cons_of_mem _ hx)
      exact ⟨(Run.nil.snoc he hguard hstep).append hrun, henabled⟩
  | faults he hguard hstep =>
    cases before with
    | nil =>
      obtain ⟨rfl, -⟩ := List.cons.inj hcalls
      exact ⟨.nil, he⟩
    | cons first before => simp at hcalls
  | strays he hguard =>
    cases before with
    | nil =>
      obtain ⟨rfl, -⟩ := List.cons.inj hcalls
      exact ⟨.nil, he⟩
    | cons first before =>
      obtain ⟨rfl, -⟩ := List.cons.inj hcalls
      exact absurd (hguarded _ List.mem_cons_self) hguard

end GuardedRun
