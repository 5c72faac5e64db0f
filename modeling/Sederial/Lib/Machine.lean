import Mathlib.Algebra.BigOperators.Group.List.Basic
import Mathlib.Algebra.GroupWithZero.Nat
import Mathlib.Algebra.Order.Group.Multiset
import Mathlib.Data.Multiset.Bind

/-!
# `Sederial.Lib.Machine`: systems that take one action at a time

A system is a step function `step : σ → α → Option σ`: an action is possible in a state or it is
not. `Reaches step start` are the states of its runs. Threads that run side by side are a list in
the state, and an action changes one entry of the list.

`Reaches.invariant` is the induction over runs. `Reaches.simulates` transfers an invariant from an
abstract system: a view of the state changes at every action as the abstract system allows, or not
at all. `Reaches.refines` does the same for the runs of a component, where an action of the whole
system may be none, one or several actions of the component.
-/

set_option autoImplicit false

namespace Sederial.Lib

/-- The states that runs from a starting state reach. -/
inductive Reaches {σ α : Type} (step : σ → α → Option σ) (start : σ → Prop) : σ → Prop
  | start {s : σ} (h : start s) : Reaches step start s
  | next {s s' : σ} {a : α} (before : Reaches step start s) (h : step s a = some s') :
      Reaches step start s'

namespace Reaches

variable {σ α τ : Type} {step : σ → α → Option σ} {start : σ → Prop} {s s' : σ}

/-- What holds at the start and is kept by every action holds in every state. -/
theorem invariant {I : σ → Prop} (h : Reaches step start s) (hstart : ∀ s, start s → I s)
    (hstep : ∀ s a s', I s → step s a = some s' → I s') : I s := by
  induction h with
  | start h => exact hstart _ h
  | next _ h ih => exact hstep _ _ _ ih h

/-- A run can go on from a state it reached. -/
theorem trans (h : Reaches step start s) (h' : Reaches step (· = s) s') :
    Reaches step start s' := by
  induction h' with
  | start h' =>
    subst h'
    exact h
  | next _ h' ih => exact ih.next h'

/-- An invariant of an abstract system holds of the view of every state. -/
theorem simulates (view : σ → τ) (Step : τ → τ → Prop) (J : τ → Prop)
    (h : Reaches step start s) (hstart : ∀ s, start s → J (view s))
    (hview : ∀ s a s', step s a = some s' → view s' = view s ∨ Step (view s) (view s'))
    (hJ : ∀ t t', J t → Step t t' → J t') : J (view s) := by
  refine h.invariant hstart fun s a s' hs hstep => ?_
  rcases hview s a s' hstep with hsame | habstract
  · rwa [hsame]
  · exact hJ _ _ hs habstract

/-- A system refines another one: every action is a run of the other system on the view. -/
theorem refines {β : Type} {step' : τ → β → Option τ} {start' : τ → Prop} (view : σ → τ)
    (h : Reaches step start s) (hstart : ∀ s, start s → Reaches step' start' (view s))
    (hstep : ∀ s a s', Reaches step start s → step s a = some s' →
      Reaches step' (· = view s) (view s')) : Reaches step' start' (view s) := by
  induction h with
  | start h => exact hstart _ h
  | next before h ih => exact ih.trans (hstep _ _ _ before h)

/-- One action. -/
theorem one {a : α} (h : step s a = some s') : Reaches step (· = s) s' := .next (.start rfl) h

end Reaches

/-- Performs some actions, one after the other. -/
def runActions {σ α : Type} (step : σ → α → Option σ) : σ → List α → Option σ
  | s, [] => some s
  | s, a :: actions => (step s a).bind fun s' => runActions step s' actions

/-- A run of given actions leads from one reached state to another. -/
theorem Reaches.of_run {σ α : Type} {step : σ → α → Option σ} {start : σ → Prop} {s s' : σ}
    {actions : List α} (hs : Reaches step start s) (h : runActions step s actions = some s') :
    Reaches step start s' := by
  induction actions generalizing s with
  | nil =>
    cases h
    exact hs
  | cons a actions ih =>
    obtain ⟨s₁, hstep, hrest⟩ := Option.bind_eq_some_iff.mp h
    exact ih (hs.next hstep) hrest

/-! ### One entry of a list -/

section

variable {α β : Type}

/-- A sum over the entries of a list, apart from the entry that changes. -/
theorem exists_sum_set {M : Type} [AddCommMonoid M] (f : α → M) {l : List α} {i : Nat} {a : α}
    (h : l[i]? = some a) :
    ∃ rest, (l.map f).sum = f a + rest ∧ ∀ b, ((l.set i b).map f).sum = f b + rest := by
  induction l generalizing i with
  | nil => cases h
  | cons x l ih =>
    cases i with
    | zero =>
      cases h
      exact ⟨(l.map f).sum, rfl, fun b => rfl⟩
    | succ i =>
      obtain ⟨rest, hsum, hset⟩ := ih h
      refine ⟨f x + rest, ?_, fun b => ?_⟩
      · rw [List.map_cons, List.sum_cons, hsum, add_left_comm]
      · rw [List.set_cons_succ, List.map_cons, List.sum_cons, hset, add_left_comm]

/-- An entry stays in its place when a list gets longer. -/
theorem getElem?_append_of_some {l l' : List α} {i : Nat} {a : α} (h : l[i]? = some a) :
    (l ++ l')[i]? = some a := by
  rw [List.getElem?_append_left (List.getElem?_eq_some_iff.mp h).1, h]

/-- An entry of a list that got one longer is an old one or the new one. -/
theorem getElem?_concat_eq_some {l : List α} {i : Nat} {a b : α} (h : (l ++ [b])[i]? = some a) :
    l[i]? = some a ∨ i = l.length ∧ a = b := by
  rw [List.getElem?_append] at h
  split at h
  · exact .inl h
  · rename_i hlt
    obtain ⟨hi, hb⟩ := List.getElem?_eq_some_iff.mp h
    rw [List.length_singleton] at hi
    refine .inr ⟨by omega, ?_⟩
    rw [← hb]
    exact List.getElem_singleton hi

/-- What is in the sum of some multisets is in one of them. -/
theorem mem_sum_map {f : α → Multiset β} {l : List α} {b : β} :
    b ∈ (l.map f).sum ↔ ∃ (i : Nat) (a : α), l[i]? = some a ∧ b ∈ f a := by
  rw [← Multiset.sum_coe]
  constructor
  · intro h
    obtain ⟨m, hm, hb⟩ := Multiset.mem_join.mp h
    obtain ⟨a, ha, rfl⟩ := List.mem_map.mp (Multiset.mem_coe.mp hm)
    obtain ⟨i, hi⟩ := List.mem_iff_getElem?.mp ha
    exact ⟨i, a, hi, hb⟩
  · intro ⟨i, a, hi, hb⟩
    exact Multiset.mem_join.mpr
      ⟨f a, Multiset.mem_coe.mpr (List.mem_map.mpr ⟨a, List.mem_of_getElem? hi, rfl⟩), hb⟩

/-- What two entries of a list share is there more than once. -/
theorem eq_of_mem_of_nodup_sum (f : α → Multiset β) {l : List α} (h : (l.map f).sum.Nodup)
    {i j : Nat} {a a' : α} {b : β} (hi : l[i]? = some a) (hj : l[j]? = some a') (hb : b ∈ f a)
    (hb' : b ∈ f a') : i = j := by
  induction l generalizing i j with
  | nil => cases hi
  | cons x l ih =>
    rw [List.map_cons, List.sum_cons, Multiset.nodup_add] at h
    obtain ⟨-, hrest, hdisjoint⟩ := h
    -- The head shares nothing with the entries behind it.
    have happart : ∀ (k : Nat) (y : α), l[k]? = some y → b ∈ f x → b ∈ f y → False := by
      intro k y hk hx hy
      exact Multiset.disjoint_left.mp hdisjoint hx (mem_sum_map.mpr ⟨k, y, hk, hy⟩)
    cases i with
    | zero =>
      cases hi
      cases j with
      | zero => rfl
      | succ j => exact (happart j a' hj hb hb').elim
    | succ i =>
      cases j with
      | zero =>
        cases hj
        exact (happart i a hi hb' hb).elim
      | succ j => rw [ih hrest hi hj]

/-- A sum with one term. -/
theorem sum_range_ite {M : Type} [AddCommMonoid M] (a : M) (i n : Nat) :
    ((List.range n).map fun j => if i = j then a else 0).sum = if i < n then a else 0 := by
  induction n with
  | zero => rfl
  | succ n ih =>
    rw [List.range_succ, List.map_append, List.sum_append, ih, List.map_singleton,
      List.sum_singleton]
    by_cases hlt : i < n
    · rw [if_pos hlt, if_neg (by omega), if_pos (by omega), add_zero]
    · rw [if_neg hlt, zero_add]
      by_cases heq : i = n
      · rw [if_pos heq, if_pos (by omega)]
      · rw [if_neg heq, if_neg (by omega)]

/-- What every entry of a list is in relation with is there in relation with all of them. -/
theorem exists_rel_sum {γ : Type} {r : α → β → Prop} (f : Nat → Multiset α) (g : γ → Multiset β)
    {l : List γ} (h : ∀ i c, l[i]? = some c → ∃ m ≤ f i, Multiset.Rel r m (g c)) :
    ∃ m ≤ ((List.range l.length).map f).sum, Multiset.Rel r m (l.map g).sum := by
  induction l generalizing f with
  | nil => exact ⟨0, le_refl _, .zero⟩
  | cons c l ih =>
    obtain ⟨m, hm, hrel⟩ := h 0 c rfl
    obtain ⟨ms, hms, hrels⟩ := ih (fun i => f (i + 1)) fun i c' hc => h (i + 1) c' hc
    refine ⟨m + ms, ?_, ?_⟩
    · rw [List.length_cons, List.range_succ_eq_map, List.map_cons, List.sum_cons, List.map_map]
      exact add_le_add hm hms
    · rw [List.map_cons, List.sum_cons]
      exact hrel.add hrels

/-- A sum over the entries of a list is bounded entry by entry. -/
theorem sum_map_le_sum_range {γ : Type} {g : γ → Nat} (f : Nat → Nat) {l : List γ}
    (h : ∀ i c, l[i]? = some c → g c ≤ f i) :
    (l.map g).sum ≤ ((List.range l.length).map f).sum := by
  induction l generalizing f with
  | nil => exact Nat.le_refl 0
  | cons c l ih =>
    have hrest := ih (fun i => f (i + 1)) fun i c' hc => h (i + 1) c' hc
    rw [List.length_cons, List.range_succ_eq_map, List.map_cons, List.map_cons, List.sum_cons,
      List.sum_cons, List.map_map]
    exact Nat.add_le_add (h 0 c rfl) hrest

/-- A list in relation with another one, without the order. -/
theorem rel_coe_of_forall₂ {r : α → β → Prop} {l : List α} {l' : List β}
    (h : List.Forall₂ r l l') : Multiset.Rel r (l : Multiset α) (l' : Multiset β) := by
  induction h with
  | nil => exact .zero
  | cons h _ ih => exact .cons h ih

/-- Relations that agree on a key have the same keys on both sides. -/
theorem map_eq_of_rel {γ : Type} {r : α → β → Prop} {f : α → γ} {g : β → γ}
    {m : Multiset α} {m' : Multiset β} (h : Multiset.Rel r m m')
    (hkey : ∀ a b, r a b → g b = f a) : m'.map g = m.map f := by
  induction h with
  | zero => rfl
  | cons hab _ ih => rw [Multiset.map_cons, Multiset.map_cons, ih, hkey _ _ hab]

/-- What holds of every entry holds after a change of one entry to one of which it holds. -/
theorem forall_getElem?_set {P : Nat → α → Prop} {l : List α} {i : Nat} {b : α}
    (h : ∀ j a, l[j]? = some a → j ≠ i → P j a) (hb : i < l.length → P i b) :
    ∀ j a, (l.set i b)[j]? = some a → P j a := by
  intro j a hj
  rw [List.getElem?_set] at hj
  split at hj
  · rename_i hij
    subst hij
    split at hj
    · rename_i hlt
      cases hj
      exact hb hlt
    · cases hj
  · rename_i hij
    exact h j a hj fun hji => hij hji.symm

end

end Sederial.Lib
