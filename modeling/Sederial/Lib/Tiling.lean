import Mathlib.Data.List.Basic
import Mathlib.Tactic.Common

/-!
# `Sederial.Lib.Tiling`: consecutive spans of offsets

A binary format places its items one after the other. `Tiles P p as e` says that the items
`as` occupy the offsets from `p` up to `e` without gap or overlap, and that each of them
satisfies `P`.

* `Tiles.mono` changes the predicate, item by item.
* `tiles_append_iff` cuts a tiling in two.
* `Tiles.length_mul_le` bounds the number of items by the room they take.
* `Tiles.lockstep` runs two tilings of one region side by side.
-/

set_option autoImplicit false

namespace Sederial.Lib

/-- An item that occupies the offsets from `start` up to `stop`. -/
class Span (α : Type) where
  start : α → Nat
  stop : α → Nat

/-- The items occupy the offsets from the first to the second bound, one after the other,
and each of them satisfies `P`. -/
inductive Tiles {α : Type} [Span α] (P : α → Prop) : Nat → List α → Nat → Prop
  | nil (p : Nat) : Tiles P p [] p
  | cons {a : α} {as : List α} {e : Nat} (head : P a) (rest : Tiles P (Span.stop a) as e) :
      Tiles P (Span.start a) (a :: as) e

variable {α : Type} [Span α] {P Q : α → Prop} {p e : Nat} {as bs : List α}

/-- Nothing tiles a stretch of length zero. -/
@[simp] theorem tiles_nil_iff : Tiles P p [] e ↔ p = e := by
  constructor
  · intro h
    cases h
    rfl
  · rintro rfl
    exact .nil p

/-- A tiling is a first item and a tiling of what follows. -/
theorem tiles_cons_iff {a : α} :
    Tiles P p (a :: as) e ↔ p = Span.start a ∧ P a ∧ Tiles P (Span.stop a) as e := by
  constructor
  · intro h
    cases h with
    | cons head rest => exact ⟨rfl, head, rest⟩
  · rintro ⟨rfl, head, rest⟩
    exact .cons head rest

/-- A tiling of a concatenation is a tiling of each part. -/
theorem tiles_append_iff :
    Tiles P p (as ++ bs) e ↔ ∃ m, Tiles P p as m ∧ Tiles P m bs e := by
  induction as generalizing p with
  | nil => simp
  | cons a as ih =>
      rw [List.cons_append, tiles_cons_iff]
      constructor
      · rintro ⟨rfl, ha, h⟩
        obtain ⟨m, has, hbs⟩ := ih.mp h
        exact ⟨m, .cons ha has, hbs⟩
      · rintro ⟨m, has, hbs⟩
        obtain ⟨rfl, ha, has⟩ := tiles_cons_iff.mp has
        exact ⟨rfl, ha, ih.mpr ⟨m, has, hbs⟩⟩

namespace Tiles

/-- Every item of a tiling satisfies the predicate. -/
theorem forall_mem (h : Tiles P p as e) : ∀ a ∈ as, P a := by
  induction h with
  | nil _ => simp
  | cons head _ ih =>
      intro a ha
      rcases List.mem_cons.mp ha with rfl | ha
      · exact head
      · exact ih a ha

/-- The predicate may be changed item by item. -/
theorem mono (h : Tiles P p as e) (hPQ : ∀ a ∈ as, P a → Q a) : Tiles Q p as e := by
  induction h with
  | nil p => exact .nil p
  | cons head _ ih =>
      exact .cons (hPQ _ (by simp) head) (ih fun a ha => hPQ a (by simp [ha]))

/-- Items of at least `n` offsets each need `n` times their number. -/
theorem length_mul_le {n : Nat} (h : Tiles P p as e)
    (hP : ∀ a, P a → Span.start a + n ≤ Span.stop a) : p + as.length * n ≤ e := by
  induction h with
  | nil p => simp
  | cons head _ ih =>
      have := hP _ head
      rw [List.length_cons, Nat.succ_mul]
      omega

/-- A tiling does not end before it starts. -/
theorem le (h : Tiles P p as e) (hP : ∀ a, P a → Span.start a ≤ Span.stop a) : p ≤ e := by
  have := h.length_mul_le (n := 0) (by simpa using hP)
  omega

/-- Every item lies in the tiled region. -/
theorem bounds (h : Tiles P p as e) (hP : ∀ a, P a → Span.start a ≤ Span.stop a) :
    ∀ a ∈ as, p ≤ Span.start a ∧ Span.stop a ≤ e := by
  induction h with
  | nil _ => simp
  | cons head rest ih =>
      intro a ha
      have hhead := hP _ head
      rcases List.mem_cons.mp ha with rfl | ha
      · exact ⟨Nat.le_refl _, rest.le hP⟩
      · have := ih a ha
        omega

/-- Two tilings that start together are equal when their items are, one by one. -/
theorem lockstep {e' : Nat} (h : Tiles P p as e) (h' : Tiles Q p bs e')
    (hlen : as.length = bs.length)
    (hstep : ∀ a b, a ∈ as → P a → Q b → Span.start a = Span.start b → a = b) : as = bs := by
  induction h generalizing bs with
  | nil p => exact (List.eq_nil_of_length_eq_zero hlen.symm).symm
  | @cons a as e head rest ih =>
      cases bs with
      | nil => simp at hlen
      | cons b bs =>
          obtain ⟨hstart, hb, hrest⟩ := tiles_cons_iff.mp h'
          obtain rfl := hstep a b (by simp) head hb hstart
          rw [ih hrest (by simpa using hlen) fun a b ha => hstep a b (by simp [ha])]

end Tiles

end Sederial.Lib
