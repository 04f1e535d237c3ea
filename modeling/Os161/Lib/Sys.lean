import Mathlib.Logic.Relation

/-!
# Systems of threads

A system is a set of initial states and the atomic steps each thread can take. The states a run
reaches are `Reach init step`; a property that holds initially and that every step of every thread
keeps holds of all of them (`Reach.induct_inv`). When steps are given by a partial function of the
state and a label, a run is the list of its labels (`exec`), and the state it ends in is reached
(`Reach.of_exec`).
-/

namespace Sys

variable {σ ι : Type*}

/-- The states reached from an initial state by steps. -/
inductive Reach (init : σ → Prop) (step : ι → σ → σ → Prop) : σ → Prop
  | init {s : σ} : init s → Reach init step s
  | step {s s' : σ} (i : ι) : Reach init step s → step i s s' → Reach init step s'

theorem Reach.induct_inv {init : σ → Prop} {step : ι → σ → σ → Prop} {I : σ → Prop}
    (h₀ : ∀ s, init s → I s) (h₁ : ∀ i s s', I s → step i s s' → I s') {s : σ}
    (h : Reach init step s) : I s := by
  induction h with
  | init hs => exact h₀ _ hs
  | step i _ hst ih => exact h₁ i _ _ ih hst

/-- The state a list of labels leads to, each step a partial function. -/
def exec (f : ι → σ → Option σ) (s : σ) : List ι → Option σ
  | [] => some s
  | i :: is => (f i s).bind fun s' => exec f s' is

theorem Reach.of_exec {init : σ → Prop} {f : ι → σ → Option σ} :
    ∀ {is : List ι} {s s' : σ}, Reach init (fun i a b => f i a = some b) s →
      exec f s is = some s' → Reach init (fun i a b => f i a = some b) s'
  | [], s, s', hs, h => by
    rw [exec, Option.some.injEq] at h
    exact h ▸ hs
  | i :: is, s, s', hs, h => by
    rw [exec] at h
    rcases Option.bind_eq_some_iff.1 h with ⟨s₁, h₁, h⟩
    exact Reach.of_exec (.step i hs h₁) h

end Sys
