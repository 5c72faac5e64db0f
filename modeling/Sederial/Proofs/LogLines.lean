import Sederial.Lib.RateWindow
import Sederial.Logging

/-!
# `Sederial.Proofs.LogLines`: how long a line is, and how many warnings there are

`emit` cuts a long line at a character. `isCharBoundary_iff` says what the boundaries of a text are:
the lengths of its prefixes. The loop finds the last boundary that fits (`charBoundary_last`), so
the line that is sent is the longest prefix that fits (`emitted_longest`).

`warn` is a `RateWindow` with a count of what it turned away. `warn_asks` is the refinement. The
bound on the output of `warn` comes from the limiter, and `warns_reported` is about the count.
-/

set_option autoImplicit false

namespace Sederial

open Sederial.Lib

/-! ### The boundaries of a text -/

/-- The bytes of some characters. -/
def encode (text : List Char) : Line := text.flatMap String.utf8EncodeChar

/-- The text of two texts is encoded one behind the other. -/
theorem encode_append (text text' : List Char) :
    encode (text ++ text') = encode text ++ encode text' := List.flatMap_append

/-- A byte that continues a character. -/
def Continues (byte : UInt8) : Prop := 0x80 ≤ byte ∧ byte < 0xc0

/-- The byte that `continues` is made of continues a character. -/
theorem continues_ofNat (n : Nat) : Continues (UInt8.ofNat (n % 64 + 0x80)) := by
  constructor
  · rw [UInt8.le_iff_toNat_le, UInt8.toNat_ofNat']
    show 128 ≤ _
    omega
  · rw [UInt8.lt_iff_toNat_lt, UInt8.toNat_ofNat']
    show _ < 192
    omega

/-- A byte that starts a character. -/
def Starts (byte : UInt8) : Prop := (decide (byte < 0x80) || decide (0xc0 ≤ byte)) = true

/-- A byte in one of these ranges starts a character. -/
theorem starts_ofNat {n : Nat} (h : n < 128 ∨ 192 ≤ n ∧ n < 256) : Starts (UInt8.ofNat n) := by
  rw [Starts, Bool.or_eq_true, decide_eq_true_iff, decide_eq_true_iff, UInt8.lt_iff_toNat_lt,
    UInt8.le_iff_toNat_le, UInt8.toNat_ofNat']
  show _ < 128 ∨ 192 ≤ _
  omega

/-- A byte that continues a character does not start one. -/
theorem Continues.not_starts {byte : UInt8} (h : Continues byte) : ¬ Starts byte := by
  obtain ⟨hle, hlt⟩ := h
  rw [Starts, Bool.or_eq_true, decide_eq_true_iff, decide_eq_true_iff]
  intro hstarts
  rcases hstarts with hsmall | hlarge
  · exact absurd hsmall (UInt8.not_lt.mpr hle)
  · exact absurd hlt (UInt8.not_lt.mpr hlarge)

/-- A character is one byte that starts it and bytes that continue it. -/
theorem utf8EncodeChar_cons (c : Char) : ∃ byte bytes,
    String.utf8EncodeChar c = byte :: bytes ∧ Starts byte ∧ ∀ b ∈ bytes, Continues b := by
  unfold String.utf8EncodeChar
  dsimp only
  split
  · rename_i hsmall
    exact ⟨_, _, rfl, starts_ofNat (.inl (Nat.lt_succ_of_le hsmall)), nofun⟩
  · split
    · refine ⟨_, _, rfl, starts_ofNat (by omega), ?_⟩
      simp only [List.mem_singleton, forall_eq]
      exact continues_ofNat _
    · split
      · refine ⟨_, _, rfl, starts_ofNat (by omega), ?_⟩
        simp only [List.mem_cons, List.not_mem_nil, or_false, forall_eq_or_imp, forall_eq]
        exact ⟨continues_ofNat _, continues_ofNat _⟩
      · refine ⟨_, _, rfl, starts_ofNat (by omega), ?_⟩
        simp only [List.mem_cons, List.not_mem_nil, or_false, forall_eq_or_imp, forall_eq]
        exact ⟨continues_ofNat _, continues_ofNat _, continues_ofNat _⟩

/-- Within a text, a boundary is where a character starts. -/
theorem isCharBoundary_of_getElem? {text : Line} {index : Nat} {byte : UInt8} (hpos : index ≠ 0)
    (h : text[index]? = some byte) : isCharBoundary text index = true ↔ Starts byte := by
  unfold isCharBoundary
  rw [if_neg hpos, h]
  exact Iff.rfl

/-- The end of a text is a boundary. -/
theorem isCharBoundary_length (line : Line) : isCharBoundary line line.length = true := by
  unfold isCharBoundary
  split
  · rfl
  · rw [List.getElem?_eq_none (Nat.le_refl _)]
    exact beq_self_eq_true _

/-- Behind the first character the boundaries are those of the rest. -/
theorem isCharBoundary_append {bytes rest : Line} {index : Nat} (hpos : index ≠ 0) :
    isCharBoundary (bytes ++ rest) (bytes.length + index) = isCharBoundary rest index := by
  unfold isCharBoundary
  rw [if_neg hpos, if_neg (by omega), List.getElem?_append_right (Nat.le_add_right _ _),
    Nat.add_sub_cancel_left]
  cases rest[index]? with
  | some byte => rfl
  | none =>
    show (bytes.length + index == (bytes ++ rest).length) = (index == rest.length)
    rw [List.length_append]
    by_cases h : index = rest.length
    · rw [h, beq_self_eq_true, beq_self_eq_true]
    · rw [beq_eq_false_iff_ne.mpr h, beq_eq_false_iff_ne.mpr (by omega)]

/-- The boundaries of a text are the lengths of its prefixes. -/
theorem isCharBoundary_iff (text : List Char) {index : Nat} (h : index ≤ (encode text).length) :
    isCharBoundary (encode text) index = true ↔
      ∃ count, (encode (text.take count)).length = index := by
  induction text generalizing index with
  | nil =>
    have hzero : index = 0 := Nat.le_zero.mp h
    subst hzero
    exact ⟨fun _ => ⟨0, rfl⟩, fun _ => rfl⟩
  | cons c text ih =>
    obtain ⟨byte, bytes, hchar, hstarts, hcontinues⟩ := utf8EncodeChar_cons c
    have hencode : encode (c :: text) = String.utf8EncodeChar c ++ encode text := rfl
    have htaken : ∀ count, (encode ((c :: text).take (count + 1))).length =
        (String.utf8EncodeChar c).length + (encode (text.take count)).length :=
      fun count => List.length_append
    rw [hencode, List.length_append] at h
    rw [hencode]
    by_cases hfirst : index < (String.utf8EncodeChar c).length
    · cases index with
      | zero => exact ⟨fun _ => ⟨0, rfl⟩, fun _ => rfl⟩
      | succ index =>
        -- The byte continues the character, and no prefix ends in it.
        have hbyte : ∃ b ∈ bytes,
            (String.utf8EncodeChar c ++ encode text)[index + 1]? = some b := by
          rw [hchar] at hfirst ⊢
          have hlt : index < bytes.length := Nat.lt_of_succ_lt_succ hfirst
          refine ⟨bytes.get ⟨index, hlt⟩, List.get_mem _ _, ?_⟩
          rw [List.getElem?_append_left hfirst]
          exact List.getElem?_eq_getElem hlt
        obtain ⟨b, hb, hget⟩ := hbyte
        rw [isCharBoundary_of_getElem? (Nat.succ_ne_zero index) hget]
        refine ⟨fun h => ((hcontinues b hb).not_starts h).elim, fun ⟨count, hcount⟩ => ?_⟩
        cases count with
        | zero => cases hcount
        | succ count =>
          rw [htaken] at hcount
          omega
    · obtain ⟨rest, rfl⟩ := Nat.exists_eq_add_of_le (Nat.not_lt.mp hfirst)
      by_cases hzero : rest = 0
      · subst hzero
        refine ⟨fun _ => ⟨1, ?_⟩, fun _ => ?_⟩
        · rw [htaken]
          rfl
        · -- Behind the first character another one starts, or the text ends.
          cases text with
          | nil =>
            rw [show encode ([] : List Char) = [] from rfl, List.append_nil]
            exact isCharBoundary_length _
          | cons c' text =>
            obtain ⟨byte', bytes', hchar', hstarts', -⟩ := utf8EncodeChar_cons c'
            refine (@isCharBoundary_of_getElem? _ _ byte' ?_ ?_).mpr hstarts'
            · rw [hchar]
              exact Nat.succ_ne_zero _
            · rw [List.getElem?_append_right (Nat.le_add_right _ _), Nat.add_sub_cancel_left]
              show (String.utf8EncodeChar c' ++ encode text)[0]? = _
              rw [hchar']
              rfl
      · rw [isCharBoundary_append hzero, ih (Nat.le_of_add_le_add_left h)]
        constructor
        · intro ⟨count, hcount⟩
          exact ⟨count + 1, by rw [htaken, hcount]⟩
        · intro ⟨count, hcount⟩
          cases count with
          | zero =>
            have hlength : (String.utf8EncodeChar c).length + rest = 0 := hcount.symm
            omega
          | succ count =>
            rw [htaken] at hcount
            exact ⟨count, Nat.add_left_cancel hcount⟩

/-- The loop ends at the last boundary that is not behind its start. -/
theorem charBoundary_last (line : Line) (last : Nat) :
    charBoundary line last ≤ last ∧ isCharBoundary line (charBoundary line last) = true ∧
      ∀ index, charBoundary line last < index → index ≤ last →
        isCharBoundary line index = false := by
  induction last with
  | zero => exact ⟨Nat.le_refl 0, rfl, fun index hlt hle => by omega⟩
  | succ last ih =>
    unfold charBoundary
    split
    · rename_i hboundary
      exact ⟨Nat.le_refl _, hboundary, fun index hlt hle => by omega⟩
    · rename_i hinside
      obtain ⟨hle, hboundary, hnone⟩ := ih
      refine ⟨Nat.le_succ_of_le hle, hboundary, fun index hlt hindex => ?_⟩
      rcases Nat.lt_or_eq_of_le hindex with hbefore | hlast
      · exact hnone index hlt (Nat.le_of_lt_succ hbefore)
      · subst hlast
        exact Bool.eq_false_iff.mpr hinside

/-- What `emit` sends are the bytes of the longest prefix of its text that fits in a line. So a line
is valid UTF-8, and it is cut only when the next character does not fit. -/
theorem emitted_longest (level message : String) : ∃ text rest,
    (level ++ " " ++ message).toList = text ++ rest ∧ emitted level message = encode text ∧
      (emitted level message).length ≤ maxLine ∧
      ∀ c ∈ rest.head?, maxLine < (emitted level message).length + c.utf8Size := by
  generalize htext : (level ++ " " ++ message).toList = text
  have hbytes : utf8 (level ++ " " ++ message) = encode text := by
    rw [← htext]
    rfl
  unfold emitted
  rw [hbytes]
  dsimp only
  split
  · rename_i hlong
    obtain ⟨hle, hboundary, hnone⟩ := charBoundary_last (encode text) maxLine
    obtain ⟨count, hcount⟩ := (isCharBoundary_iff text (by omega)).mp hboundary
    have hsplit : text = text.take count ++ text.drop count := (List.take_append_drop ..).symm
    have htake : (encode text).take (charBoundary (encode text) maxLine) =
        encode (text.take count) := by
      calc (encode text).take (charBoundary (encode text) maxLine)
          = (encode (text.take count) ++ encode (text.drop count)).take
              (encode (text.take count)).length := by
            rw [← encode_append, List.take_append_drop, hcount]
        _ = encode (text.take count) := List.take_left
    refine ⟨text.take count, text.drop count, hsplit, htake, ?_, fun c hc => ?_⟩
    · rw [htake, hcount]
      exact hle
    · rw [htake, hcount]
      -- The prefix with one more character ends at a boundary, so it is too long.
      have hnext : (encode (text.take (count + 1))).length =
          charBoundary (encode text) maxLine + c.utf8Size := by
        have hget : text[count]? = some c := by rwa [List.head?_drop] at hc
        rw [List.take_add_one, hget, encode_append, List.length_append, hcount]
        show _ + (String.utf8EncodeChar c ++ []).length = _
        rw [List.append_nil, String.length_utf8EncodeChar]
      by_contra hfits
      have hinside : charBoundary (encode text) maxLine + c.utf8Size ≤ (encode text).length := by
        omega
      have hboundary' := (isCharBoundary_iff text hinside).mpr ⟨count + 1, hnext⟩
      have hpos := c.utf8Size_pos
      rw [hnone _ (by omega) (by omega)] at hboundary'
      cases hboundary'
  · rename_i hshort
    exact ⟨text, [], (List.append_nil text).symm, rfl, Nat.not_lt.mp hshort, nofun⟩

/-! ### Warnings -/

namespace WarningWindow

/-- The limiter in a window. -/
def rate (window : WarningWindow) : RateWindow := ⟨window.startedAt, window.emitted⟩

/-- The window that a call finds. -/
def found (window : Option WarningWindow) (times : WarningTimes) : WarningWindow :=
  window.getD ⟨times.first, 0, 0⟩

end WarningWindow

/-- A warning as a request to the rate window of the library. -/
def WarningTimes.request (times : WarningTimes) : RateRequest := ⟨times.now, times.restart⟩

/-- The warnings that were let through. -/
def emittedWarnings (verdicts : List Verdict) : Nat := verdicts.countP Verdict.emit

/-- The reports about suppressed warnings. -/
def reports (verdicts : List Verdict) : Nat :=
  verdicts.countP fun verdict => decide (0 < verdict.suppressed)

namespace WarningWindow

variable {window : Option WarningWindow} {times : WarningTimes}

/-- A window that is over starts again, and its suppressed warnings are reported. -/
theorem turn_of_over (h : warningInterval ≤ times.now - (found window times).startedAt) :
    turn window times = (⟨times.restart, 0, 0⟩, (found window times).suppressed) := if_pos h

/-- A window that is not over goes on. -/
theorem turn_of_inside (h : ¬ warningInterval ≤ times.now - (found window times).startedAt) :
    turn window times = (found window times, 0) := if_neg h

/-- A warning with room in its window is emitted. -/
theorem warn_of_room {next : WarningWindow} {suppressed : Nat}
    (hturn : turn window times = (next, suppressed)) (hroom : next.emitted < warningBurst) :
    warn window times = (⟨true, suppressed⟩, { next with emitted := next.emitted + 1 }) := by
  unfold warn
  rw [hturn]
  exact if_pos hroom

/-- A warning without room is counted. -/
theorem warn_of_full {next : WarningWindow} {suppressed : Nat}
    (hturn : turn window times = (next, suppressed)) (hfull : ¬ next.emitted < warningBurst) :
    warn window times = (⟨false, suppressed⟩,
      { next with suppressed := min (next.suppressed + 1) (2 ^ 64 - 1) }) := by
  unfold warn
  rw [hturn]
  exact if_neg hfull

/-- A call of `warn` is a request to the limiter, and it reports only when it starts a window. -/
theorem warn_asks (window : Option WarningWindow) (times : WarningTimes) :
    (warn window times).1.emit =
        ((found window times).rate.ask warningInterval warningBurst times.request).1.admitted ∧
      (warn window times).2.rate =
        ((found window times).rate.ask warningInterval warningBurst times.request).2 ∧
      (0 < (warn window times).1.suppressed →
        ((found window times).rate.ask warningInterval warningBurst
          times.request).1.renewed = true) := by
  unfold RateWindow.ask RateWindow.turn
  by_cases h : (found window times).rate.Over warningInterval times.request
  · rw [if_pos h, warn_of_room (turn_of_over h) (show 0 < 20 from by decide)]
    exact ⟨rfl, rfl, fun _ => decide_eq_true h⟩
  · rw [if_neg h]
    dsimp only
    by_cases hroom : (found window times).emitted < warningBurst
    · have hrate : (found window times).rate.used < warningBurst := hroom
      rw [if_pos hrate, warn_of_room (turn_of_inside h) hroom]
      exact ⟨rfl, rfl, fun hreport => absurd hreport (Nat.lt_irrefl 0)⟩
    · have hrate : ¬ (found window times).rate.used < warningBurst := hroom
      rw [if_neg hrate, warn_of_full (turn_of_inside h) hroom]
      exact ⟨rfl, rfl, fun hreport => absurd hreport (Nat.lt_irrefl 0)⟩

/-- The answers to a list of warnings, from the first on. -/
theorem warns_cons (window : Option WarningWindow) (times : WarningTimes)
    (rest : List WarningTimes) :
    (warns window (times :: rest)).1 =
        (warn window times).1 :: (warns (some (warn window times).2) rest).1 ∧
      (warns window (times :: rest)).2 = (warns (some (warn window times).2) rest).2 :=
  ⟨rfl, rfl⟩

/-- The calls of `warn` behind a call are requests to the limiter. -/
theorem warns_admits (window : WarningWindow) (calls : List WarningTimes) :
    emittedWarnings (warns (some window) calls).1 =
        RateWindow.admitted (RateWindow.admits warningInterval warningBurst window.rate
          (calls.map WarningTimes.request)).1 ∧
      reports (warns (some window) calls).1 ≤
        RateWindow.renewed (RateWindow.admits warningInterval warningBurst window.rate
          (calls.map WarningTimes.request)).1 := by
  induction calls generalizing window with
  | nil => exact ⟨rfl, Nat.le_refl 0⟩
  | cons times rest ih =>
    obtain ⟨hemit, hrate, hreport⟩ := warn_asks (some window) times
    obtain ⟨hemitted, hreports⟩ := ih (warn (some window) times).2
    have hfound : found (some window) times = window := rfl
    rw [hfound] at hemit hrate hreport
    rw [hrate] at hemitted hreports
    unfold emittedWarnings reports RateWindow.admitted RateWindow.renewed at *
    rw [(warns_cons (some window) times rest).1, List.map_cons]
    show List.countP _ (_ :: _) = List.countP _ (_ :: _) ∧
      List.countP _ (_ :: _) ≤ List.countP _ (_ :: _)
    rw [List.countP_cons, List.countP_cons, List.countP_cons, List.countP_cons, hemit]
    refine ⟨?_, ?_⟩
    · rw [hemitted]
    · refine Nat.add_le_add hreports ?_
      split
      · rename_i hsuppressed
        rw [if_pos (hreport (of_decide_eq_true hsuppressed))]
      · exact Nat.zero_le _

/-- A span of `n` times five seconds has at most `20 * (n + 1)` warnings and `n` reports, whatever
the window was before. So no five seconds see more than forty warnings, although the window is
fixed. -/
theorem warns_rate (window : Option WarningWindow) (calls : List WarningTimes) (first n : Nat)
    (hclock : ∀ times ∈ calls, times.now ≤ times.restart)
    (hspan : ∀ times ∈ calls, first ≤ times.now ∧ times.now < first + n * warningInterval) :
    emittedWarnings (warns window calls).1 ≤ warningBurst * (n + 1) ∧
      reports (warns window calls).1 ≤ n := by
  -- The first call finds a window or makes one.
  obtain ⟨window', hsame⟩ : ∃ window', warns window calls = warns (some window') calls ∨
      calls = [] := by
    cases calls with
    | nil => exact ⟨⟨0, 0, 0⟩, .inr rfl⟩
    | cons times rest => exact ⟨found window times, .inl rfl⟩
  rcases hsame with hsame | hnone
  · obtain ⟨hemitted, hreports⟩ := warns_admits window' calls
    obtain ⟨hrenewed, hadmitted⟩ := @RateWindow.admitted_le warningInterval warningBurst first n
      (by decide) window'.rate (calls.map WarningTimes.request)
      (List.forall_mem_map.mpr hclock) (List.forall_mem_map.mpr hspan)
    rw [hsame, hemitted]
    refine ⟨?_, hreports.trans hrenewed⟩
    rw [Nat.mul_add, Nat.mul_one]
    omega
  · subst hnone
    exact ⟨Nat.zero_le _, Nat.zero_le _⟩

/-- The warnings of a window that nobody has reported yet. -/
def pending (window : Option WarningWindow) : Nat := (window.map WarningWindow.suppressed).getD 0

/-- One call: what it suppresses or finds pending is reported or stays pending. -/
theorem warn_reported (window : Option WarningWindow) (times : WarningTimes)
    (hroom : pending window + 1 < 2 ^ 64) :
    (!(warn window times).1.emit).toNat + pending window =
      (warn window times).1.suppressed + pending (some (warn window times).2) := by
  have hfound : (found window times).suppressed = pending window := by
    cases window <;> rfl
  by_cases h : warningInterval ≤ times.now - (found window times).startedAt
  · rw [warn_of_room (turn_of_over h) (show 0 < 20 from by decide), hfound]
    exact Nat.zero_add _
  · by_cases hemit : (found window times).emitted < warningBurst
    · rw [warn_of_room (turn_of_inside h) hemit]
      show 0 + pending window = 0 + (found window times).suppressed
      rw [hfound]
    · rw [warn_of_full (turn_of_inside h) hemit]
      show 1 + pending window = 0 + min ((found window times).suppressed + 1) (2 ^ 64 - 1)
      rw [hfound]
      omega

/-- The warnings that were not let through. -/
def suppressedWarnings (verdicts : List Verdict) : Nat :=
  verdicts.countP fun verdict => !verdict.emit

/-- Every suppressed warning is reported once, in a number with others, or it is still pending. A
`u64` counts them, so this is about fewer than `2 ^ 64` calls. -/
theorem warns_reported (window : Option WarningWindow) (calls : List WarningTimes)
    (hroom : pending window + calls.length < 2 ^ 64) :
    suppressedWarnings (warns window calls).1 + pending window =
      ((warns window calls).1.map Verdict.suppressed).sum + pending (warns window calls).2 := by
  induction calls generalizing window with
  | nil => rfl
  | cons times rest ih =>
    rw [List.length_cons] at hroom
    have hfirst := warn_reported window times (by omega)
    have hpending : pending (some (warn window times).2) ≤ pending window + 1 := by
      have hone : (!(warn window times).1.emit).toNat ≤ 1 := Bool.toNat_le _
      omega
    have hrest := ih (some (warn window times).2) (by omega)
    obtain ⟨hverdicts, hwindow⟩ := warns_cons window times rest
    rw [hverdicts, hwindow, List.map_cons, List.sum_cons]
    have hcount : suppressedWarnings ((warn window times).1 ::
        (warns (some (warn window times).2) rest).1) =
          suppressedWarnings (warns (some (warn window times).2) rest).1 +
            (!(warn window times).1.emit).toNat := by
      show List.countP _ (_ :: _) = _
      rw [List.countP_cons]
      cases (warn window times).1.emit <;> rfl
    rw [hcount]
    omega

/-- Twenty-two warnings at once, and one five seconds later. -/
def storm : List WarningTimes :=
  List.replicate 22 ⟨0, 0, 0⟩ ++ [⟨warningInterval, warningInterval, warningInterval⟩]

/-- Twenty of the warnings come through, and the last call reports the other two. -/
theorem warns_reported_storm :
    (warns none storm).1.getLast? = some ⟨true, 2⟩ ∧
      suppressedWarnings (warns none storm).1 + pending none =
        ((warns none storm).1.map Verdict.suppressed).sum + pending (warns none storm).2 :=
  ⟨by decide, warns_reported none storm (by decide)⟩

/-- The storm reaches into a second window: twenty of the warnings are emitted in the first one, and
one in the second. -/
theorem warns_rate_storm :
    emittedWarnings (warns none storm).1 = 21 ∧
      emittedWarnings (warns none storm).1 ≤ warningBurst * (2 + 1) ∧
      reports (warns none storm).1 ≤ 2 :=
  ⟨by decide, warns_rate none storm 0 2 (by decide) (by decide)⟩

end WarningWindow

end Sederial
