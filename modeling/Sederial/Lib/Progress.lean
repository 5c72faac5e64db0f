import Sederial.Lib.Machine

/-!
# `Sederial.Lib.Progress`: systems that get done

In a system of several parties some actions are *prompt*: who performs them waits for nobody else.
A system makes `Progress` when a measure is lowered by every prompt action and raised by none, and
when some prompt action is possible until the system is done.

`Progress.bounded` says that a run has no more prompt actions than the measure of its first state,
however many other actions are in between. `Progress.fair_done` is what follows for an infinite run
that does not leave the prompt actions out forever: it gets done.
-/

set_option autoImplicit false

namespace Sederial.Lib

variable {σ α : Type}

/-- A run with at least so many prompt actions. -/
inductive Lasts (step : σ → α → Option σ) (prompt : σ → α → Prop) (s : σ) : Nat → σ → Prop
  | start : Lasts step prompt s 0 s
  | prompt {n : Nat} {s₁ s₂ : σ} {a : α} (before : Lasts step prompt s n s₁)
      (h : step s₁ a = some s₂) (hprompt : prompt s₁ a) : Lasts step prompt s (n + 1) s₂
  | other {n : Nat} {s₁ s₂ : σ} {a : α} (before : Lasts step prompt s n s₁)
      (h : step s₁ a = some s₂) : Lasts step prompt s n s₂

/-- In the states of `I`, prompt actions lead to a state that is done. -/
structure Progress (step : σ → α → Option σ) (prompt : σ → α → Prop) (done I : σ → Prop)
    (measure : σ → Nat) : Prop where
  keeps : ∀ s a s', I s → step s a = some s' → I s'
  descends : ∀ s a s', I s → step s a = some s' → measure s' ≤ measure s
  lowers : ∀ s a s', I s → step s a = some s' → prompt s a → measure s' < measure s
  enabled : ∀ s, I s → ¬ done s → ∃ a s', prompt s a ∧ step s a = some s'

namespace Progress

variable {step : σ → α → Option σ} {prompt : σ → α → Prop} {done I : σ → Prop}
  {measure : σ → Nat} {s s' : σ}

/-- The prompt actions of a run are paid for by the measure. -/
theorem bounded (hp : Progress step prompt done I measure) (hI : I s) {n : Nat}
    (h : Lasts step prompt s n s') : I s' ∧ n + measure s' ≤ measure s := by
  induction h with
  | start => exact ⟨hI, Nat.le_of_eq (Nat.zero_add _)⟩
  | prompt before h hprompt ih =>
    obtain ⟨hI₁, hle⟩ := ih
    have hlt := hp.lowers _ _ _ hI₁ h hprompt
    exact ⟨hp.keeps _ _ _ hI₁ h, by omega⟩
  | other before h ih =>
    obtain ⟨hI₁, hle⟩ := ih
    have hle' := hp.descends _ _ _ hI₁ h
    exact ⟨hp.keeps _ _ _ hI₁ h, by omega⟩

/-- A run in which, until it is done, a prompt action comes again and again gets done. -/
theorem fair_done (hp : Progress step prompt done I measure) {run : Nat → σ} {actions : Nat → α}
    (hI : I (run 0)) (hstep : ∀ i, step (run i) (actions i) = some (run (i + 1)))
    (hfair : ∀ i, ¬ done (run i) → ∃ j, i ≤ j ∧ prompt (run j) (actions j)) :
    ∃ i, done (run i) := by
  by_contra hnever
  have hI' : ∀ i, I (run i) := by
    intro i
    induction i with
    | zero => exact hI
    | succ i ih => exact hp.keeps _ _ _ ih (hstep i)
  have hle : ∀ i j, i ≤ j → measure (run j) ≤ measure (run i) := by
    intro i j hij
    induction j, hij using Nat.le_induction with
    | base => exact Nat.le_refl _
    | succ j _ ih => exact (hp.descends _ _ _ (hI' j) (hstep j)).trans ih
  -- From every point on, the measure falls once more.
  have hfalls : ∀ n, ∃ i, measure (run i) + n ≤ measure (run 0) := by
    intro n
    induction n with
    | zero => exact ⟨0, Nat.le_refl _⟩
    | succ n ih =>
      obtain ⟨i, hi⟩ := ih
      obtain ⟨j, hij, hprompt⟩ := hfair i fun hdone => hnever ⟨i, hdone⟩
      have hlt := hp.lowers _ _ _ (hI' j) (hstep j) hprompt
      have hij' := hle i j hij
      exact ⟨j + 1, by omega⟩
  obtain ⟨i, hi⟩ := hfalls (measure (run 0) + 1)
  omega

end Progress

end Sederial.Lib
