import Mathlib.InformationTheory.Coding.UniquelyDecodable
import Mathlib.Data.List.Basic

/-!
# `Sederial.Lib.PrefixCode`: codes that can be read back

A text is often written word by word: each element is replaced by its code word, and the words
follow one another without a mark between them. When no word begins with another one, the words
can be told apart (`IsPrefixCode.uniquelyDecodable`). When different elements also have
different words, the text determines the elements (`flatMap_injective`).

Words that end with a mark are such a code when the mark occurs nowhere else in them
(`isPrefixCode_terminated`). With such a mark, a text can also be split at it
(`flatMap_terminated`).
-/

set_option autoImplicit false

namespace Sederial.Lib

open InformationTheory (UniquelyDecodable)

variable {α ρ : Type}

/-- No word of the code is empty, and none begins with another one. -/
structure IsPrefixCode (S : Set (List α)) : Prop where
  nonempty : ∀ w ∈ S, w ≠ []
  free : ∀ w ∈ S, ∀ w' ∈ S, w <+: w' → w = w'

namespace IsPrefixCode

variable {S T : Set (List α)}

/-- A part of a prefix code is a prefix code. -/
theorem mono (h : IsPrefixCode S) (hsub : T ⊆ S) : IsPrefixCode T :=
  ⟨fun w hw => h.nonempty w (hsub hw), fun w hw w' hw' => h.free w (hsub hw) w' (hsub hw')⟩

/-- Two texts that begin with a word begin with the same word. -/
theorem eq_of_append_eq (h : IsPrefixCode S) {w w' rest rest' : List α} (hw : w ∈ S)
    (hw' : w' ∈ S) (happend : w ++ rest = w' ++ rest') : w = w' := by
  have hleft : w <+: w ++ rest := List.prefix_append w rest
  have hright : w' <+: w ++ rest := happend ▸ List.prefix_append w' rest'
  rcases List.prefix_or_prefix_of_prefix hleft hright with hprefix | hprefix
  · exact h.free w hw w' hw' hprefix
  · exact (h.free w' hw' w hw hprefix).symm

/-- The words of a text can be told apart. -/
theorem uniquelyDecodable (h : IsPrefixCode S) : UniquelyDecodable S := by
  intro words
  induction words with
  | nil =>
    intro words' _ hwords' hflatten
    cases words' with
    | nil => rfl
    | cons w' words' =>
      have hempty : w' = [] := (List.append_eq_nil_iff.mp hflatten.symm).1
      exact (h.nonempty w' (hwords' w' List.mem_cons_self) hempty).elim
  | cons w words ih =>
    intro words' hwords hwords' hflatten
    cases words' with
    | nil =>
      have hempty : w = [] := (List.append_eq_nil_iff.mp hflatten).1
      exact (h.nonempty w (hwords w List.mem_cons_self) hempty).elim
    | cons w' words' =>
      obtain ⟨hw, hrest⟩ := List.forall_mem_cons.mp hwords
      obtain ⟨hw', hrest'⟩ := List.forall_mem_cons.mp hwords'
      rw [List.flatten_cons, List.flatten_cons] at hflatten
      obtain rfl := h.eq_of_append_eq hw hw' hflatten
      rw [ih words' hrest hrest' (List.append_cancel_left hflatten)]

end IsPrefixCode

/-- A text written in a code that can be read back determines what was written. -/
theorem flatMap_injective {code : ρ → List α} (hcode : Function.Injective code)
    (h : UniquelyDecodable (Set.range code)) : Function.Injective (List.flatMap code) := by
  intro l l' hflat
  have hwords : ∀ xs : List ρ, ∀ w ∈ xs.map code, w ∈ Set.range code := by
    intro xs w hw
    obtain ⟨a, -, rfl⟩ := List.mem_map.mp hw
    exact ⟨a, rfl⟩
  have hmap : l.map code = l'.map code := by
    refine h _ _ (hwords l) (hwords l') ?_
    rwa [← List.flatMap_def, ← List.flatMap_def]
  exact List.map_injective_iff.mpr hcode hmap

/-! ### Words that end with a mark -/

/-- Words that end with a mark, which does not occur in them before. -/
def terminated (stop : α) : Set (List α) := {w | ∃ body, stop ∉ body ∧ w = body ++ [stop]}

/-- Texts that end at their first stop sign are a prefix code. -/
theorem isPrefixCode_terminated (stop : α) : IsPrefixCode (terminated stop) := by
  refine ⟨?nonempty, ?free⟩
  case nonempty =>
    rintro w ⟨body, -, rfl⟩
    exact List.append_ne_nil_of_right_ne_nil body (List.cons_ne_nil stop [])
  case free =>
    rintro w ⟨body, -, rfl⟩ w' ⟨body', hbody', rfl⟩ hprefix
    rcases List.prefix_concat_iff.mp hprefix with heq | hinside
    · exact heq
    · -- The mark at the end of the shorter word would stand inside the longer one.
      exact (hbody' (hinside.subset (List.mem_append_right body List.mem_cons_self))).elim

/-- Ending every word with a mark is separating them with the mark and ending with it. -/
theorem flatMap_terminated (code : ρ → List α) (stop : α) {l : List ρ} (hne : l ≠ []) :
    (l.flatMap fun a => code a ++ [stop]) = [stop].intercalate (l.map code) ++ [stop] := by
  induction l with
  | nil => exact (hne rfl).elim
  | cons a l ih =>
    cases l with
    | nil => simp
    | cons b l =>
      rw [List.flatMap_cons, ih (List.cons_ne_nil b l)]
      simp only [List.map_cons, List.intercalate_cons_cons, List.append_assoc]

end Sederial.Lib
