import Mathlib.Tactic.Common

/-!
# `Sederial.Lib.Run`: programs with a state and an error

A `Run σ ε α` reads and changes a state of type `σ` and ends in a value of type `α` or in
an error of type `ε`. An error does not undo the changes to the state. This is the shape
of a function that takes a mutable reference and returns a result.

`Run.exec` runs a program from a state. The `exec_*` equations describe it on each way of
building a program, and they are the simp set of this file. `Run.Keeps` is the judgment that
a program keeps an invariant of the state, and `Run.Ensures` the one with a pre- and a
postcondition. `stateT_bind_eq_ok` is the decomposition of a bind
for `StateT` over `Except`, where an error discards the state.
-/

set_option autoImplicit false

namespace Sederial.Lib

/-- A program over a state `σ` that ends in a value or an error. -/
abbrev Run (σ ε : Type) : Type → Type := ExceptT ε (StateM σ)

namespace Run

variable {σ ε ε' α β : Type}

/-- Runs a program from a state. -/
def exec (m : Run σ ε α) (s : σ) : Except ε α × σ := m s

/-- A computation that does not touch the state. -/
def ofExcept (x : Except ε α) : Run σ ε α := fun s => (x, s)

/-- Converts the error of a program. -/
def mapError (f : ε → ε') (m : Run σ ε α) : Run σ ε' α := fun s =>
  match m s with
  | (.ok a, s') => (.ok a, s')
  | (.error e, s') => (.error (f e), s')

/-- Turns the way a program ended into a value, so that it always ends in one. -/
def attempt (m : Run σ ε α) : Run σ ε' (Except ε α) := fun s =>
  match m s with
  | (r, s') => (.ok r, s')

/-- Applies a function to the state and returns what it computes. -/
def step (f : σ → α × σ) : Run σ ε α := fun s =>
  match f s with
  | (a, s') => (.ok a, s')

/-- Ends in an error when the condition holds, and does nothing otherwise. -/
def failIf (c : Prop) [Decidable c] (e : ε) : Run σ ε PUnit := if c then throw e else pure ⟨⟩

/-- A value leaves the state alone. -/
@[simp] theorem exec_pure (a : α) (s : σ) : exec (pure a : Run σ ε α) s = (.ok a, s) := rfl

/-- An error leaves the state alone. -/
@[simp] theorem exec_throw (e : ε) (s : σ) :
    exec (throw e : Run σ ε α) s = (.error e, s) := rfl

/-- The second program runs from the state in which the first one ended, unless that failed. -/
@[simp] theorem exec_bind (m : Run σ ε α) (f : α → Run σ ε β) (s : σ) :
    exec (m >>= f) s =
      match exec m s with
      | (.ok a, s') => exec (f a) s'
      | (.error e, s') => (.error e, s') := by
  show (match m s with
    | (r, s') => (ExceptT.bindCont f r : StateM σ (Except ε β)) s') = _
  unfold exec
  rcases m s with ⟨_ | _, s'⟩ <;> rfl

/-- A bind ends in a value exactly when both of its parts do. -/
theorem exec_bind_fst_eq_ok {m : Run σ ε α} {f : α → Run σ ε β} {s : σ} {b : β} :
    (exec (m >>= f) s).1 = .ok b ↔
      ∃ a, (exec m s).1 = .ok a ∧ (exec (f a) (exec m s).2).1 = .ok b := by
  rw [exec_bind]
  rcases exec m s with ⟨e | a, s'⟩
  · simp
  · simp

/-- Behind a part that ends in a value a bind ends as its other part does. -/
theorem exec_bind_fst_of_ok {m : Run σ ε α} {f : α → Run σ ε β} {s : σ} {a : α}
    (h : (exec m s).1 = .ok a) : (exec (m >>= f) s).1 = (exec (f a) (exec m s).2).1 := by
  rw [exec_bind]
  rcases hexec : exec m s with ⟨e | a', s'⟩
  · rw [hexec] at h
    cases h
  · rw [hexec] at h
    cases h
    rfl

/-- An outcome leaves the state alone. -/
@[simp] theorem exec_ofExcept (x : Except ε α) (s : σ) : exec (ofExcept x) s = (x, s) := rfl

/-- A change of the error keeps the state. -/
@[simp] theorem exec_mapError (f : ε → ε') (m : Run σ ε α) (s : σ) :
    exec (mapError f m) s =
      match exec m s with
      | (.ok a, s') => (.ok a, s')
      | (.error e, s') => (.error (f e), s') := rfl

/-- An attempt succeeds with the outcome of its program. -/
@[simp] theorem exec_attempt (m : Run σ ε α) (s : σ) :
    exec (attempt m : Run σ ε' (Except ε α)) s = (.ok (exec m s).1, (exec m s).2) := rfl

/-- A step never fails. -/
@[simp] theorem exec_step (f : σ → α × σ) (s : σ) :
    exec (step f : Run σ ε α) s = (.ok (f s).1, (f s).2) := rfl

/-- A change of the state never fails. -/
@[simp] theorem exec_modify (f : σ → σ) (s : σ) :
    exec (modify f : Run σ ε PUnit) s = (.ok ⟨⟩, f s) := rfl

/-- A look at the state does not change it. -/
@[simp] theorem exec_get (s : σ) : exec (get : Run σ ε σ) s = (.ok s, s) := rfl

/-- A check leaves the state alone. -/
theorem exec_failIf (c : Prop) [Decidable c] (e : ε) (s : σ) :
    exec (failIf c e) s = (if c then .error e else .ok ⟨⟩, s) := by
  unfold failIf
  split <;> rfl

/-- A check succeeds exactly when its condition is false. -/
@[simp] theorem exec_failIf_fst_eq_ok {c : Prop} [Decidable c] {e : ε} {s : σ} {u : PUnit} :
    (exec (failIf c e) s).1 = .ok u ↔ ¬ c := by
  rw [exec_failIf]
  by_cases h : c <;> simp [h]

/-- A check that passes changes nothing. -/
theorem exec_failIf_bind {c : Prop} [Decidable c] (hc : ¬ c) (e : ε) (f : PUnit → Run σ ε β)
    (s : σ) : exec (failIf c e >>= f) s = exec (f ⟨⟩) s := by
  rw [exec_bind, exec_failIf, if_neg hc]

/-- A choice of programs is a choice of runs. -/
@[simp] theorem exec_ite (c : Prop) [Decidable c] (m n : Run σ ε α) (s : σ) :
    exec (if c then m else n) s = if c then exec m s else exec n s := by
  split <;> rfl

/-! ### Invariants of the state -/

/-- The program keeps an invariant of the state, however it ends. -/
def Keeps (I : σ → Prop) (m : Run σ ε α) : Prop := ∀ s, I s → I (m.exec s).2

namespace Keeps

variable {I : σ → Prop} {m : Run σ ε α}

/-- An outcome keeps every invariant. -/
theorem ofExcept {x : Except ε α} : Keeps I (Run.ofExcept x : Run σ ε α) := fun _ hs => hs

/-- So does a value. -/
theorem pure {a : α} : Keeps I (Pure.pure a : Run σ ε α) := fun _ hs => hs

/-- So does an error. -/
theorem throw {e : ε} : Keeps I (MonadExcept.throw e : Run σ ε α) := fun _ hs => hs

/-- So does a check. -/
theorem failIf {c : Prop} [Decidable c] {e : ε} : Keeps I (Run.failIf c e : Run σ ε PUnit) := by
  intro s hs
  rw [exec_failIf]
  exact hs

/-- A change of the state keeps what it keeps in every state. -/
theorem modify {f : σ → σ} (h : ∀ s, I s → I (f s)) : Keeps I (modify f : Run σ ε PUnit) := h

/-- A look at the state keeps every invariant. -/
theorem get : Keeps I (MonadState.get : Run σ ε σ) := fun _ hs => hs

/-- An attempt keeps what its program keeps. -/
theorem attempt (hm : Keeps I m) : Keeps I (Run.attempt m : Run σ ε' (Except ε α)) := hm

/-- A change of the error keeps what its program keeps. -/
theorem mapError {f : ε → ε'} (hm : Keeps I m) : Keeps I (Run.mapError f m) := by
  intro s hs
  have hI := hm s hs
  rw [exec_mapError]
  rcases hexec : m.exec s with ⟨e | a, s'⟩
  · rw [hexec] at hI
    exact hI
  · rw [hexec] at hI
    exact hI

/-- The second part may use what the first part returned. -/
theorem bind {f : α → Run σ ε β} (hm : Keeps I m)
    (hf : ∀ a, (∃ s, (m.exec s).1 = .ok a) → Keeps I (f a)) : Keeps I (m >>= f) := by
  intro s hs
  have hI := hm s hs
  rw [exec_bind]
  rcases hexec : m.exec s with ⟨e | a, s'⟩
  · rw [hexec] at hI
    exact hI
  · rw [hexec] at hI
    exact hf a ⟨s, by rw [hexec]⟩ s' hI

end Keeps

/-! ### Pre- and postconditions -/

/-- From every state in `P` the program ends in a result and a state that `Q` relates. -/
def Ensures (P : σ → Prop) (m : Run σ ε α) (Q : Except ε α → σ → Prop) : Prop :=
  ∀ s, P s → Q (m.exec s).1 (m.exec s).2

namespace Ensures

variable {P P' : σ → Prop} {m : Run σ ε α} {Q : Except ε α → σ → Prop}

/-- The program may start from fewer states. -/
theorem strengthen (h : Ensures P m Q) (hP : ∀ s, P' s → P s) : Ensures P' m Q :=
  fun s hs => h s (hP s hs)

/-- A program that fails changes nothing more. -/
theorem throw {e : ε} (h : ∀ s, P s → Q (.error e) s) :
    Ensures P (MonadExcept.throw e : Run σ ε α) Q := h

/-- The second part starts where the first part ended. -/
theorem bind {R : Except ε β → σ → Prop} {f : α → Run σ ε β} (hm : Ensures P m Q)
    (herror : ∀ e s, Q (.error e) s → R (.error e) s)
    (hok : ∀ a, Ensures (Q (.ok a)) (f a) R) : Ensures P (m >>= f) R := by
  intro s hs
  have hQ := hm s hs
  rw [exec_bind]
  rcases hexec : m.exec s with ⟨e | a, s'⟩
  · rw [hexec] at hQ
    exact herror e s' hQ
  · rw [hexec] at hQ
    exact hok a s' hQ

end Ensures

/-- What keeps every state adds nothing to the state it starts from. -/
theorem exec_bind_snd_of_keeps {m : Run σ ε α} {f : α → Run σ ε β} {s : σ}
    (hf : ∀ a, Keeps (· = (m.exec s).2) (f a)) : ((m >>= f).exec s).2 = (m.exec s).2 := by
  rw [exec_bind]
  rcases hexec : m.exec s with ⟨e | a, s'⟩
  · rfl
  · rw [hexec] at hf
    exact hf a s' rfl

end Run

/-- A bind in `StateT σ (Except ε)` succeeds exactly when both of its parts do. -/
theorem stateT_bind_eq_ok {σ ε α β : Type} {m : StateT σ (Except ε) α}
    {f : α → StateT σ (Except ε) β} {s s' : σ} {b : β} :
    (m >>= f) s = .ok (b, s') ↔ ∃ a s₁, m s = .ok (a, s₁) ∧ f a s₁ = .ok (b, s') := by
  have hbind : (m >>= f) s = (m s >>= fun p => f p.1 p.2) := rfl
  rw [hbind]
  rcases hm : m s with e | ⟨a, s₁⟩
  · constructor
    · intro h
      cases h
    · rintro ⟨a, s₁, h, -⟩
      cases h
  · constructor
    · intro h
      exact ⟨a, s₁, rfl, h⟩
    · rintro ⟨a', s₁', h, hf⟩
      cases h
      exact hf

end Sederial.Lib
