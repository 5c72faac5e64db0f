import Mathlib.Algebra.Order.Ring.Nat
import Mathlib.Data.List.Basic
import Mathlib.Tactic.Common

/-!
# `Sederial.Lib.Bytes`: byte strings and big-endian words

A byte string is a `List UInt8`. This file holds the reads and writes a wire-format
program performs on one: a bounded slice, a big-endian word at an offset, and an
in-place overwrite. Every read is partial and returns an `Option`, so a bound is never
assumed.

The central relation is `AgreeOn P w w'`: the two strings hold the same byte at every
offset that satisfies `P`. A reader that only looks at offsets in `P` returns the same
result on both. The lemmas `slice_congr` and `wordAt_congr` state this for the two
reads, and `getElem?_overwrite_of_outside` says at which offsets an overwrite agrees with
the original.
-/

set_option autoImplicit false

namespace Sederial.Lib

/-- The 16-bit word with high byte `a` and low byte `b`. -/
def word (a b : UInt8) : UInt16 := UInt16.ofNat (a.toNat * 256 + b.toNat)

/-- The two bytes of a 16-bit word, high byte first. -/
def wordBytes (n : UInt16) : List UInt8 :=
  [UInt8.ofNat (n.toNat / 256), UInt8.ofNat n.toNat]

/-- The 32-bit word with the given bytes, high byte first. -/
def doubleWord (a b c d : UInt8) : UInt32 :=
  UInt32.ofNat (((a.toNat * 256 + b.toNat) * 256 + c.toNat) * 256 + d.toNat)

/-- The four bytes of a 32-bit word, high byte first. -/
def doubleWordBytes (n : UInt32) : List UInt8 :=
  [UInt8.ofNat (n.toNat / 16777216), UInt8.ofNat (n.toNat / 65536),
    UInt8.ofNat (n.toNat / 256), UInt8.ofNat n.toNat]

/-- The bytes from `start` up to but not including `stop`, when both lie in the string. -/
def slice (w : List UInt8) (start stop : Nat) : Option (List UInt8) :=
  if start ≤ stop ∧ stop ≤ w.length then some ((w.drop start).take (stop - start)) else none

/-- The big-endian word at offset `i`. -/
def wordAt (w : List UInt8) (i : Nat) : Option UInt16 :=
  match w[i]?, w[i + 1]? with
  | some a, some b => some (word a b)
  | _, _ => none

/-- The big-endian double word at offset `i`. -/
def doubleWordAt (w : List UInt8) (i : Nat) : Option UInt32 :=
  match w[i]?, w[i + 1]?, w[i + 2]?, w[i + 3]? with
  | some a, some b, some c, some d => some (doubleWord a b c d)
  | _, _, _, _ => none

/-- `w` with the bytes from offset `i` on replaced by `bs`. -/
def overwrite (w : List UInt8) (i : Nat) (bs : List UInt8) : List UInt8 :=
  w.take i ++ bs ++ w.drop (i + bs.length)

/-- The two strings hold the same byte, or both end, at every offset in `P`. -/
def AgreeOn (P : Nat → Prop) (w w' : List UInt8) : Prop :=
  ∀ i, P i → w[i]? = w'[i]?

/-! ### Words and their bytes -/

/-- The number that two bytes stand for. -/
@[simp] theorem toNat_word (a b : UInt8) : (word a b).toNat = a.toNat * 256 + b.toNat := by
  have ha := a.toNat_lt
  have hb := b.toNat_lt
  simp only [word, UInt16.toNat_ofNat']
  omega

/-- A word is the word of its bytes. -/
@[simp] theorem word_wordBytes (n : UInt16) :
    word (UInt8.ofNat (n.toNat / 256)) (UInt8.ofNat n.toNat) = n := by
  have hn := n.toNat_lt
  apply UInt16.toNat_inj.mp
  rw [toNat_word, UInt8.toNat_ofNat', UInt8.toNat_ofNat']
  omega

/-- The bytes of a word of two bytes. -/
theorem wordBytes_word (a b : UInt8) : wordBytes (word a b) = [a, b] := by
  have ha := a.toNat_lt
  have hb := b.toNat_lt
  have hhigh : (word a b).toNat / 256 = a.toNat := by
    rw [toNat_word]
    omega
  unfold wordBytes
  rw [hhigh, UInt8.ofNat_toNat]
  congr 2
  apply UInt8.toNat_inj.mp
  rw [UInt8.toNat_ofNat', toNat_word]
  omega

/-- The double word of its own bytes. -/
@[simp] theorem doubleWord_doubleWordBytes (n : UInt32) :
    doubleWord (UInt8.ofNat (n.toNat / 16777216)) (UInt8.ofNat (n.toNat / 65536))
      (UInt8.ofNat (n.toNat / 256)) (UInt8.ofNat n.toNat) = n := by
  have hn := n.toNat_lt
  apply UInt32.toNat_inj.mp
  rw [doubleWord, UInt32.toNat_ofNat', UInt8.toNat_ofNat', UInt8.toNat_ofNat', UInt8.toNat_ofNat',
    UInt8.toNat_ofNat']
  omega

/-- A word has two bytes. -/
@[simp] theorem length_wordBytes (n : UInt16) : (wordBytes n).length = 2 := rfl

/-- A double word has four bytes. -/
@[simp] theorem length_doubleWordBytes (n : UInt32) : (doubleWordBytes n).length = 4 := rfl

/-! ### Slices -/

/-- A slice exists exactly when its bounds are in order and within the list. -/
theorem slice_eq_some_iff {w bs : List UInt8} {start stop : Nat} :
    slice w start stop = some bs ↔
      start ≤ stop ∧ stop ≤ w.length ∧ (w.drop start).take (stop - start) = bs := by
  unfold slice
  split
  · rename_i h
    simp [h.1, h.2]
  · rename_i h
    constructor
    · intro hnone
      cases hnone
    · rintro ⟨h₁, h₂, -⟩
      exact absurd ⟨h₁, h₂⟩ h

/-- The length of a slice is the distance of its bounds. -/
theorem length_of_slice_eq_some {w bs : List UInt8} {start stop : Nat}
    (h : slice w start stop = some bs) : bs.length = stop - start := by
  obtain ⟨h₁, h₂, rfl⟩ := slice_eq_some_iff.mp h
  rw [List.length_take, List.length_drop]
  omega

/-- A slice is determined by the bytes it covers and by whether it fits. -/
theorem slice_congr {w w' : List UInt8} {start stop : Nat}
    (hlen : stop ≤ w.length ↔ stop ≤ w'.length)
    (h : AgreeOn (fun i => start ≤ i ∧ i < stop) w w') :
    slice w start stop = slice w' start stop := by
  unfold slice
  rw [if_congr (and_congr_right fun _ => hlen) rfl rfl]
  split
  · congr 1
    apply List.ext_getElem?
    intro i
    rw [List.getElem?_take, List.getElem?_take]
    split
    · rw [List.getElem?_drop, List.getElem?_drop]
      exact h _ ⟨by omega, by omega⟩
    · rfl
  · rfl

/-- A nonempty slice is determined by the bytes it covers. -/
theorem slice_congr_of_lt {w w' : List UInt8} {start stop : Nat} (hlt : start < stop)
    (h : AgreeOn (fun i => start ≤ i ∧ i < stop) w w') :
    slice w start stop = slice w' start stop := by
  refine slice_congr ?_ h
  -- The last byte of the slice is there in both strings or in neither.
  have hlast := h (stop - 1) ⟨by omega, by omega⟩
  constructor
  · intro hle
    rw [List.getElem?_eq_getElem (by omega)] at hlast
    have := (List.getElem?_eq_some_iff.mp hlast.symm).1
    omega
  · intro hle
    rw [List.getElem?_eq_getElem (l := w') (by omega)] at hlast
    have := (List.getElem?_eq_some_iff.mp hlast).1
    omega

/-- A slice inside a concatenation, when it covers exactly the middle part. -/
theorem slice_append (pre bs post : List UInt8) {stop : Nat}
    (hstop : stop = pre.length + bs.length) :
    slice (pre ++ (bs ++ post)) pre.length stop = some bs := by
  subst hstop
  rw [slice_eq_some_iff]
  refine ⟨by omega, by simp only [List.length_append]; omega, ?_⟩
  rw [List.drop_left, Nat.add_sub_cancel_left, List.take_left]

/-! ### Words at an offset -/

/-- A word depends on its two bytes only. -/
theorem wordAt_congr {w w' : List UInt8} {i : Nat}
    (h : AgreeOn (fun j => j = i ∨ j = i + 1) w w') : wordAt w i = wordAt w' i := by
  unfold wordAt
  rw [h i (Or.inl rfl), h (i + 1) (Or.inr rfl)]

/-- A double word depends on its four bytes only. -/
theorem doubleWordAt_congr {w w' : List UInt8} {i : Nat}
    (h : AgreeOn (fun j => i ≤ j ∧ j < i + 4) w w') : doubleWordAt w i = doubleWordAt w' i := by
  unfold doubleWordAt
  rw [h i (by omega), h (i + 1) (by omega), h (i + 2) (by omega), h (i + 3) (by omega)]

/-- A word at an offset is there exactly when both of its bytes are. -/
theorem wordAt_eq_some_iff {w : List UInt8} {i : Nat} {n : UInt16} :
    wordAt w i = some n ↔ ∃ a b, w[i]? = some a ∧ w[i + 1]? = some b ∧ n = word a b := by
  unfold wordAt
  split
  · rename_i a b ha hb
    simp [ha, hb, eq_comm]
  · rename_i hnone
    constructor
    · intro h
      cases h
    · rintro ⟨a, b, ha, hb, -⟩
      exact absurd hb (hnone a b ha)

/-- A word lies within the list. -/
theorem lt_of_wordAt_eq_some {w : List UInt8} {i : Nat} {n : UInt16}
    (h : wordAt w i = some n) : i + 1 < w.length := by
  obtain ⟨a, b, -, hb, -⟩ := wordAt_eq_some_iff.mp h
  exact (List.getElem?_eq_some_iff.mp hb).1

/-- The two bytes of a word are determined by it. -/
theorem getElem?_eq_of_wordAt_eq {w w' : List UInt8} {i : Nat} {n : UInt16}
    (h : wordAt w i = some n) (h' : wordAt w' i = some n) :
    w[i]? = w'[i]? ∧ w[i + 1]? = w'[i + 1]? := by
  obtain ⟨a, b, ha, hb, rfl⟩ := wordAt_eq_some_iff.mp h
  obtain ⟨a', b', ha', hb', hn⟩ := wordAt_eq_some_iff.mp h'
  have hnat := congrArg UInt16.toNat hn
  rw [toNat_word, toNat_word] at hnat
  have hb256 := b.toNat_lt
  have hb'256 := b'.toNat_lt
  obtain rfl : a = a' := UInt8.toNat_inj.mp (by omega)
  obtain rfl : b = b' := UInt8.toNat_inj.mp (by omega)
  exact ⟨ha.trans ha'.symm, hb.trans hb'.symm⟩

/-- Within the list there is a word. -/
theorem wordAt_eq_some_of_lt {w : List UInt8} {i : Nat} (h : i + 1 < w.length) :
    ∃ n, wordAt w i = some n :=
  ⟨_, wordAt_eq_some_iff.mpr
    ⟨w[i], w[i + 1], List.getElem?_eq_getElem _, List.getElem?_eq_getElem _, rfl⟩⟩

/-- Reading a word is reading two bytes. -/
theorem slice_two (w : List UInt8) (i : Nat) :
    (slice w i (i + 2)).map (fun bs => word (bs.getD 0 0) (bs.getD 1 0)) = wordAt w i := by
  unfold slice wordAt
  by_cases h : i + 2 ≤ w.length
  · rw [if_pos ⟨by omega, h⟩, List.getElem?_eq_getElem (by omega),
      List.getElem?_eq_getElem (by omega), List.drop_eq_getElem_cons (by omega),
      List.drop_eq_getElem_cons (by omega), Nat.add_sub_cancel_left]
    rfl
  · rw [if_neg (fun h' => h h'.2), List.getElem?_eq_none (i := i + 1) (by omega)]
    simp

/-- Reading a double word is reading four bytes. -/
theorem slice_four (w : List UInt8) (i : Nat) :
    (slice w i (i + 4)).map
      (fun bs => doubleWord (bs.getD 0 0) (bs.getD 1 0) (bs.getD 2 0) (bs.getD 3 0))
      = doubleWordAt w i := by
  unfold slice doubleWordAt
  by_cases h : i + 4 ≤ w.length
  · rw [if_pos ⟨by omega, h⟩, List.getElem?_eq_getElem (by omega),
      List.getElem?_eq_getElem (by omega), List.getElem?_eq_getElem (by omega),
      List.getElem?_eq_getElem (by omega), List.drop_eq_getElem_cons (by omega),
      List.drop_eq_getElem_cons (by omega), List.drop_eq_getElem_cons (by omega),
      List.drop_eq_getElem_cons (by omega), Nat.add_sub_cancel_left]
    rfl
  · rw [if_neg (fun h' => h h'.2), List.getElem?_eq_none (i := i + 3) (by omega)]
    simp

/-! ### Overwriting -/

/-- To overwrite bytes within the list keeps its length. -/
theorem length_overwrite {w bs : List UInt8} {i : Nat} (h : i + bs.length ≤ w.length) :
    (overwrite w i bs).length = w.length := by
  simp only [overwrite, List.length_append, List.length_take, List.length_drop]
  omega

/-- Before and behind the overwritten part nothing changes. -/
theorem getElem?_overwrite_of_outside {w bs : List UInt8} {i j : Nat}
    (h : i + bs.length ≤ w.length) (hj : j < i ∨ i + bs.length ≤ j) :
    (overwrite w i bs)[j]? = w[j]? := by
  have htake : (w.take i).length = i := by
    rw [List.length_take]
    omega
  unfold overwrite
  rcases hj with hj | hj
  · rw [List.append_assoc, List.getElem?_append_left (by omega), List.getElem?_take_of_lt hj]
  · rw [List.getElem?_append_right (by rw [List.length_append]; omega), List.getElem?_drop,
      List.length_append]
    congr 1
    omega

/-- Within the overwritten part stand the new bytes. -/
theorem getElem?_overwrite_of_inside {w bs : List UInt8} {i j : Nat} (h : i ≤ w.length)
    (hj : j < bs.length) : (overwrite w i bs)[i + j]? = bs[j]? := by
  have htake : (w.take i).length = i := by
    rw [List.length_take]
    omega
  unfold overwrite
  rw [List.append_assoc, List.getElem?_append_right (by omega),
    List.getElem?_append_left (by omega)]
  congr 1
  omega

/-- Reading back a word that was written. -/
theorem wordAt_overwrite {w : List UInt8} {i : Nat} (n : UInt16) (h : i + 2 ≤ w.length) :
    wordAt (overwrite w i (wordBytes n)) i = some n := by
  have h₀ := @getElem?_overwrite_of_inside w (wordBytes n) i 0 (by omega) (by simp)
  have h₁ := @getElem?_overwrite_of_inside w (wordBytes n) i 1 (by omega) (by simp)
  rw [Nat.add_zero] at h₀
  refine wordAt_eq_some_iff.mpr ⟨_, _, h₀, h₁, ?_⟩
  exact (word_wordBytes n).symm

/-! ### Slices as strings of their own -/

/-- A byte of a slice is a byte of the list. -/
theorem getElem?_of_slice {w bs : List UInt8} {start stop i : Nat}
    (h : slice w start stop = some bs) (hi : i < bs.length) : bs[i]? = w[start + i]? := by
  have hlen := length_of_slice_eq_some h
  obtain ⟨-, -, rfl⟩ := slice_eq_some_iff.mp h
  rw [List.getElem?_take_of_lt (by omega), List.getElem?_drop]

/-- A slice is known from its bytes. -/
theorem slice_eq_some_of_getElem? {w bs : List UInt8} {start stop : Nat}
    (hstop : stop = start + bs.length) (hle : stop ≤ w.length)
    (h : ∀ i, i < bs.length → w[start + i]? = bs[i]?) : slice w start stop = some bs := by
  refine slice_eq_some_iff.mpr ⟨by omega, hle, List.ext_getElem? fun i => ?_⟩
  by_cases hi : i < bs.length
  · rw [List.getElem?_take_of_lt (by omega), List.getElem?_drop, h i hi]
  · rw [List.getElem?_eq_none (by rw [List.length_take, List.length_drop]; omega),
      List.getElem?_eq_none (by omega)]

/-- A word inside a slice is the word at the shifted offset. -/
theorem wordAt_of_slice {w bs : List UInt8} {start stop i : Nat}
    (h : slice w start stop = some bs) (hi : i + 1 < bs.length) :
    wordAt bs i = wordAt w (start + i) := by
  unfold wordAt
  rw [getElem?_of_slice h (by omega), getElem?_of_slice h hi, Nat.add_assoc]

/-! ### Bytes that stand at an offset -/

/-- The bytes `bs` stand in `w` from offset `i` on. -/
def Stands (w : List UInt8) (i : Nat) (bs : List UInt8) : Prop := bs <+: w.drop i

/-- A list stands at the start of itself. -/
theorem stands_self (w : List UInt8) : Stands w 0 w := List.prefix_refl w

/-- A concatenation stands at an offset exactly when its parts stand one behind the other. -/
theorem stands_append_iff {w a b : List UInt8} {i : Nat} :
    Stands w i (a ++ b) ↔ Stands w i a ∧ Stands w (i + a.length) b := by
  unfold Stands
  constructor
  · rintro ⟨post, h⟩
    refine ⟨⟨b ++ post, by rw [← h, List.append_assoc]⟩, post, ?_⟩
    rw [← List.drop_drop, ← h, List.append_assoc, List.drop_left]
  · rintro ⟨⟨post, h⟩, post', h'⟩
    rw [← List.drop_drop, ← h, List.drop_left] at h'
    exact ⟨post', by rw [List.append_assoc, h', h]⟩

namespace Stands

variable {w bs : List UInt8} {i : Nat}

/-- The bytes of what stands somewhere. -/
theorem getElem? (h : Stands w i bs) {j : Nat} (hj : j < bs.length) : w[i + j]? = bs[j]? := by
  obtain ⟨post, h⟩ := h
  rw [← List.getElem?_drop, ← h, List.getElem?_append_left hj]

/-- What stands somewhere lies within the list. -/
theorem le (h : Stands w i bs) (hne : bs ≠ []) : i + bs.length ≤ w.length := by
  have hlength := h.length_le
  have hpos := List.length_pos_iff.mpr hne
  rw [List.length_drop] at hlength
  omega

/-- What stands somewhere is the slice there. -/
theorem slice (h : Stands w i bs) (hne : bs ≠ []) :
    slice w i (i + bs.length) = some bs := by
  have hle := h.le hne
  exact slice_eq_some_of_getElem? rfl hle fun j hj => h.getElem? hj

/-- A word that stands somewhere is read there. -/
theorem wordAt {n : UInt16} (h : Stands w i (wordBytes n)) : wordAt w i = some n :=
  wordAt_eq_some_iff.mpr ⟨_, _, h.getElem? (j := 0) (by simp), h.getElem? (j := 1) (by simp),
    (word_wordBytes n).symm⟩

/-- A double word that stands somewhere is read there. -/
theorem doubleWordAt {n : UInt32} (h : Stands w i (doubleWordBytes n)) :
    doubleWordAt w i = some n := by
  have h₀ := h.getElem? (j := 0) (by simp)
  have h₁ := h.getElem? (j := 1) (by simp)
  have h₂ := h.getElem? (j := 2) (by simp)
  have h₃ := h.getElem? (j := 3) (by simp)
  unfold Lib.doubleWordAt
  rw [Nat.add_zero] at h₀
  rw [h₀, h₁, h₂, h₃]
  simp only [doubleWordBytes, List.getElem?_cons_zero, List.getElem?_cons_succ]
  rw [doubleWord_doubleWordBytes]

end Stands

end Sederial.Lib
