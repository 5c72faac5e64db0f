import Mathlib.Tactic.Common

/-!
# `Sederial.Lib.RateWindow`: a limiter with fixed windows

A limiter admits a number of requests, the burst, in each window. A window is over when the interval
has passed since its start, and the next request then starts a new one. The start of the new window
is read from the clock once more, so it may be later than the request.

Windows are fixed, so two full bursts may be close to each other. `admitted_le` is what a limiter of
this kind does guarantee: any span of `n` intervals has at most `n + 1` bursts, and at most `n` new
windows. The proof counts the windows that can still start before the span ends (`ahead`).
-/

set_option autoImplicit false

namespace Sederial.Lib

/-- A window, with the requests that it admitted so far. -/
structure RateWindow where
  start : Nat
  used : Nat

/-- A request, with the clock when a window would start for it. -/
structure RateRequest where
  now : Nat
  restart : Nat

/-- What becomes of a request. -/
structure Admission where
  admitted : Bool
  /-- The request started a new window. -/
  renewed : Bool
  deriving DecidableEq

namespace RateWindow

variable (interval burst : Nat)

/-- The window is over. -/
def Over (w : RateWindow) (r : RateRequest) : Prop := interval ≤ r.now - w.start

/-- Whether the window is over can be decided. -/
instance (w : RateWindow) (r : RateRequest) : Decidable (w.Over interval r) :=
  inferInstanceAs (Decidable (_ ≤ _))

/-- The window of a request. -/
def turn (w : RateWindow) (r : RateRequest) : RateWindow :=
  if w.Over interval r then ⟨r.restart, 0⟩ else w

/-- One request. -/
def ask (w : RateWindow) (r : RateRequest) : Admission × RateWindow :=
  let next := w.turn interval r
  if next.used < burst then
    (⟨true, decide (w.Over interval r)⟩, { next with used := next.used + 1 })
  else (⟨false, decide (w.Over interval r)⟩, next)

/-- Some requests, one after the other. -/
def admits : RateWindow → List RateRequest → List Admission × RateWindow
  | w, [] => ([], w)
  | w, r :: rest =>
    ((w.ask interval burst r).1 :: (admits (w.ask interval burst r).2 rest).1,
      (admits (w.ask interval burst r).2 rest).2)

/-- The requests that were admitted. -/
def admitted (admissions : List Admission) : Nat := admissions.countP Admission.admitted

/-- The windows that were started. -/
def renewed (admissions : List Admission) : Nat := admissions.countP Admission.renewed

/-- How many windows can still start before this time. -/
def ahead (last : Nat) (w : RateWindow) : Nat := (last - 1 - w.start) / interval

variable {interval}

/-- A request in the window. -/
theorem ask_inside {w : RateWindow} {r : RateRequest} (h : ¬ w.Over interval r) :
    (w.ask interval burst r).1.renewed = false ∧ (w.ask interval burst r).2.start = w.start ∧
      (w.ask interval burst r).1.admitted.toNat + (burst - (w.ask interval burst r).2.used) ≤
        burst - w.used := by
  unfold ask turn
  rw [if_neg h]
  dsimp only
  split
  · refine ⟨decide_eq_false h, rfl, ?_⟩
    show 1 + (burst - (w.used + 1)) ≤ burst - w.used
    omega
  · refine ⟨decide_eq_false h, rfl, ?_⟩
    show 0 + (burst - w.used) ≤ burst - w.used
    omega

/-- A request that starts a window. -/
theorem ask_over {w : RateWindow} {r : RateRequest} (h : w.Over interval r) :
    (w.ask interval burst r).1.renewed = true ∧
      (w.ask interval burst r).2.start = r.restart ∧
      (w.ask interval burst r).1.admitted.toNat + (burst - (w.ask interval burst r).2.used) ≤
        burst := by
  unfold ask turn
  rw [if_pos h]
  dsimp only
  split
  · refine ⟨decide_eq_true h, rfl, ?_⟩
    show 1 + (burst - 1) ≤ burst
    omega
  · refine ⟨decide_eq_true h, rfl, ?_⟩
    show 0 + (burst - 0) ≤ burst
    omega

/-- A window starts an interval later at least, so fewer are ahead. -/
theorem ahead_lt {last : Nat} {w w' : RateWindow} {r : RateRequest} (hinterval : 0 < interval)
    (h : w.Over interval r) (hclock : r.now ≤ r.restart) (hlast : r.now < last)
    (hstart : w'.start = r.restart) : w'.ahead interval last + 1 ≤ w.ahead interval last := by
  unfold ahead
  have hover : interval ≤ r.now - w.start := h
  have hlater : last - 1 - w'.start ≤ last - 1 - w.start - interval := by omega
  have hroom : interval ≤ last - 1 - w.start := by omega
  calc (last - 1 - w'.start) / interval + 1
      ≤ (last - 1 - w.start - interval) / interval + 1 :=
        Nat.succ_le_succ (Nat.div_le_div_right hlater)
    _ = (last - 1 - w.start) / interval := (Nat.div_eq_sub_div hinterval hroom).symm

/-- The number of admissions, from the first on. -/
theorem countP_cons_toNat {f : Admission → Bool} (a : Admission) (as : List Admission) :
    (a :: as).countP f = (f a).toNat + as.countP f := by
  rw [List.countP_cons, Nat.add_comm]
  cases f a <;> rfl

/-- What is admitted before some time. -/
theorem admitted_le_ahead {last : Nat} (hinterval : 0 < interval) (w : RateWindow)
    (rs : List RateRequest) (hclock : ∀ r ∈ rs, r.now ≤ r.restart)
    (hlast : ∀ r ∈ rs, r.now < last) :
    renewed (admits interval burst w rs).1 ≤ w.ahead interval last ∧
      admitted (admits interval burst w rs).1 ≤
        burst - w.used + burst * w.ahead interval last := by
  induction rs generalizing w with
  | nil => exact ⟨Nat.zero_le _, Nat.zero_le _⟩
  | cons r rest ih =>
    obtain ⟨hclockFirst, hclockRest⟩ := List.forall_mem_cons.mp hclock
    obtain ⟨hlastFirst, hlastRest⟩ := List.forall_mem_cons.mp hlast
    obtain ⟨hrenewed, hadmitted⟩ := ih (w.ask interval burst r).2 hclockRest hlastRest
    unfold renewed admitted at *
    show List.countP _ (_ :: _) ≤ _ ∧ List.countP _ (_ :: _) ≤ _
    rw [countP_cons_toNat, countP_cons_toNat]
    -- A new window starts, so one fewer is ahead of it.
    by_cases hover : w.Over interval r
    · obtain ⟨hnew, hstart, hused⟩ := ask_over burst hover
      have hahead := ahead_lt hinterval hover hclockFirst hlastFirst hstart
      rw [hnew]
      refine ⟨?_, ?_⟩
      · show 1 + _ ≤ _
        omega
      · have hburst := Nat.mul_le_mul_left burst hahead
        rw [Nat.mul_add, Nat.mul_one] at hburst
        omega
    -- The window is the same, and what it admits counts against its burst.
    · obtain ⟨hsame, hstart, hused⟩ := ask_inside burst hover
      have hahead : (w.ask interval burst r).2.ahead interval last = w.ahead interval last := by
        unfold ahead
        rw [hstart]
      rw [hahead] at hrenewed hadmitted
      rw [hsame]
      refine ⟨?_, ?_⟩
      · show 0 + _ ≤ _
        omega
      · omega

/-- A span of `n` intervals has at most `n` new windows and `n + 1` bursts, whatever the limiter did
before. -/
theorem admitted_le {first n : Nat} (hinterval : 0 < interval) (w : RateWindow)
    (rs : List RateRequest) (hclock : ∀ r ∈ rs, r.now ≤ r.restart)
    (hspan : ∀ r ∈ rs, first ≤ r.now ∧ r.now < first + n * interval) :
    renewed (admits interval burst w rs).1 ≤ n ∧
      admitted (admits interval burst w rs).1 ≤ burst - w.used + burst * n := by
  induction rs generalizing w with
  | nil => exact ⟨Nat.zero_le _, Nat.zero_le _⟩
  | cons r rest ih =>
    obtain ⟨hclockFirst, hclockRest⟩ := List.forall_mem_cons.mp hclock
    obtain ⟨hspanFirst, hspanRest⟩ := List.forall_mem_cons.mp hspan
    by_cases hover : w.Over interval r
    · -- The new window starts in the span, so one window fewer is ahead of it.
      obtain ⟨hnew, hstart, hused⟩ := ask_over burst hover
      obtain ⟨hrenewed, hadmitted⟩ := admitted_le_ahead burst hinterval
        (w.ask interval burst r).2 rest hclockRest fun r' hr' => (hspanRest r' hr').2
      have hahead : (w.ask interval burst r).2.ahead interval (first + n * interval) + 1 ≤ n := by
        unfold ahead
        rw [hstart]
        have hroom : first + n * interval - 1 - r.restart < n * interval := by omega
        exact (Nat.div_lt_iff_lt_mul hinterval).mpr hroom
      unfold renewed admitted at *
      show List.countP _ (_ :: _) ≤ _ ∧ List.countP _ (_ :: _) ≤ _
      rw [countP_cons_toNat, countP_cons_toNat, hnew]
      refine ⟨?_, ?_⟩
      · show 1 + _ ≤ _
        omega
      · have hburst := Nat.mul_le_mul_left burst hahead
        rw [Nat.mul_add, Nat.mul_one] at hburst
        omega
    · obtain ⟨hsame, hstart, hused⟩ := ask_inside burst hover
      obtain ⟨hrenewed, hadmitted⟩ := ih (w.ask interval burst r).2 hclockRest hspanRest
      unfold renewed admitted at *
      show List.countP _ (_ :: _) ≤ _ ∧ List.countP _ (_ :: _) ≤ _
      rw [countP_cons_toNat, countP_cons_toNat, hsame]
      refine ⟨?_, ?_⟩
      · show 0 + _ ≤ _
        omega
      · omega

end RateWindow

end Sederial.Lib
