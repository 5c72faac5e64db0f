import Sederial.Lib.Machine
import Sederial.Logging

/-!
# `Sederial.Proofs.LoggerRuns`: what the logger thread does with the lines

`Logger.Moves` says once what an action of the logger can do, and every result of this file is an
induction over runs with one case for each of its constructors.

The account is `Kept`: for each lane, what was accepted is what was written, the line in hand and
the channel, in this order. `important_first` bounds how long the important lane waits. It needs no
fairness: the thread looks at that lane before each routine line, apart from one that it may have
begun.

At shutdown the thread leaves only after it found both lanes empty and then saw the stop flag. The
looks are three steps, so a line that is accepted between them may be lost, even if it was accepted
before the flag was raised. `exit_drains` says that nothing else is: what had been accepted when the
last round began is written. `drop_returns` is about the guard. It may give up, and it joins the
thread only behind the last write.
-/

set_option autoImplicit false

namespace Sederial

open Sederial.Lib

/-- The lines of one lane in a record. -/
def linesOf (lane : Lane) (record : List (Lane × Line)) : List Line :=
  (record.filter fun entry => entry.1 = lane).map Prod.snd

/-- The lines of a lane in two records, one behind the other. -/
theorem linesOf_append (lane : Lane) (record record' : List (Lane × Line)) :
    linesOf lane (record ++ record') = linesOf lane record ++ linesOf lane record' := by
  show ((record ++ record').filter _).map _ = _
  rw [List.filter_append, List.map_append]
  rfl

/-- A record of one line, on its own lane. -/
theorem linesOf_self (lane : Lane) (line : Line) : linesOf lane [(lane, line)] = [line] := by
  simp [linesOf]

/-- A record of one line is none on the other lane. -/
theorem linesOf_ne {lane lane' : Lane} (h : lane' ≠ lane) (line : Line) :
    linesOf lane [(lane', line)] = [] := by
  simp [linesOf, h]

namespace LoggerPhase

/-- The line of this lane that is being written. -/
def hand (lane : Lane) : LoggerPhase → List Line
  | .writing lane' line => linesOf lane [(lane', line)]
  | _ => []

/-- The thread has left its loop. -/
inductive Leaving : LoggerPhase → Prop
  | reporting : Leaving .reporting
  | ending : Leaving .ending
  | ended : Leaving .ended

/-- Behind `done.send(())`. -/
inductive Done : LoggerPhase → Prop
  | ending : Done .ending
  | ended : Done .ended

/-- The important lane was empty, and no line was begun since. -/
inductive Passed : LoggerPhase → Prop
  | falling : Passed .falling
  | looking : Passed .looking
  | waiting : Passed .waiting

end LoggerPhase

namespace Logger

open LoggerPhase (Done Leaving Passed hand)

variable {s s' : Logger} {a : LoggerAction}

/-- The queue of a lane after it was set. -/
@[simp] theorem setQueue_queue (s : Logger) (lines : List Line) (lane : Lane) :
    (s.setQueue lines lane).queue lane = lines := by
  cases lane <;> rfl

/-- The queue of the other lane is left alone. -/
theorem setQueue_queue_ne {lane lane' : Lane} (h : lane ≠ lane') (s : Logger)
    (lines : List Line) : (s.setQueue lines lane).queue lane' = s.queue lane' := by
  cases lane <;> cases lane' <;> first | rfl | exact (h rfl).elim

/-- To set a queue changes nothing else. -/
@[simp] theorem setQueue_rest (s : Logger) (lines : List Line) (lane : Lane) :
    (s.setQueue lines lane).stop = s.stop ∧ (s.setQueue lines lane).phase = s.phase ∧
      (s.setQueue lines lane).finished = s.finished ∧
      (s.setQueue lines lane).guard = s.guard ∧
      (s.setQueue lines lane).accepted = s.accepted ∧
      (s.setQueue lines lane).written = s.written := by
  cases lane <;> exact ⟨rfl, rfl, rfl, rfl, rfl, rfl⟩

/-! ### What an action can do -/

/-- The thread goes on without a line. -/
inductive Goes (s : Logger) : LoggerPhase → Prop
  | passes (phase : s.phase = .polling) (empty : s.important = []) : Goes s .falling
  | looks (phase : s.phase = .falling) (empty : s.routine = []) : Goes s .looking
  | leaves (phase : s.phase = .looking) (stop : s.stop = true) : Goes s .reporting
  | waits (phase : s.phase = .looking) : Goes s .waiting
  | wakes (phase : s.phase = .waiting) : Goes s .polling
  | ends (phase : s.phase = .ending) : Goes s .ended

/-- The phases in which the thread may begin a line of this lane. -/
inductive Begins : Lane → LoggerPhase → Prop
  | important : Begins .important .polling
  | routine : Begins .routine .falling
  | woken : Begins .routine .waiting

/-- What an action of the logger can do. -/
inductive Moves (s : Logger) : Logger → Prop
  | loses : Moves s s
  | accepts {lane : Lane} {line : Line} (room : (s.queue lane).length < lane.capacity) :
      Moves s { s.setQueue (s.queue lane ++ [line]) lane with
        accepted := s.accepted ++ [(lane, line)] }
  | takes {lane : Lane} {line : Line} {lines : List Line} (begins : Begins lane s.phase)
      (first : s.queue lane = line :: lines) :
      Moves s { s.setQueue lines lane with phase := .writing lane line }
  | goes {phase : LoggerPhase} (goes : s.Goes phase) : Moves s { s with phase := phase }
  | writes {lane : Lane} {line : Line} (phase : s.phase = .writing lane line) :
      Moves s { s with written := s.written ++ [(lane, line)], phase := .polling }
  | reports (phase : s.phase = .reporting) : Moves s { s with finished := true, phase := .ending }
  | stops (guard : s.guard = .held) : Moves s { s with stop := true, guard := .awaiting }
  | collects (guard : s.guard = .awaiting) (finished : s.finished = true) :
      Moves s { s with finished := false, guard := .joining }
  | joins (guard : s.guard = .joining) : Moves s { s with guard := .dropped }
  | expires (guard : s.guard = .awaiting) : Moves s { s with guard := .dropped }

/-- A line that is emitted is queued, or dropped when its queue is full. -/
theorem emit_moves (lane : Lane) (line : Line) (s : Logger) : s.Moves (s.emit lane line) := by
  unfold emit
  split
  · exact .loses
  · split
    · rename_i hroom
      exact .accepts hroom
    · exact .loses

/-- The writer takes a line from a lane, or goes on where the lane is empty. -/
theorem take_moves {lane : Lane} {otherwise : LoggerPhase} (hbegins : Begins lane s.phase)
    (hgoes : s.queue lane = [] → s.Goes otherwise) : s.Moves (s.take lane otherwise) := by
  unfold take
  split
  · rename_i line lines hfirst
    exact .takes hbegins hfirst
  · rename_i hempty
    exact .goes (hgoes hempty)

/-- One action of the writer is one of the moves. -/
theorem run_moves (h : s.run = some s') : s.Moves s' := by
  unfold run at h
  split at h
  · rename_i hphase
    cases h
    exact take_moves (by rw [hphase]; exact .important) fun hempty => .passes hphase hempty
  · rename_i hphase
    cases h
    exact take_moves (by rw [hphase]; exact .routine) fun hempty => .looks hphase hempty
  · rename_i lane line hphase
    cases h
    exact .writes hphase
  · rename_i hphase
    cases h
    split
    · rename_i hstop
      exact .goes (.leaves hphase hstop)
    · exact .goes (.waits hphase)
  · rename_i hphase
    split at h <;> cases h
    exact take_moves (by rw [hphase]; exact .woken) fun _ => .wakes hphase
  · rename_i hphase
    cases h
    exact .reports hphase
  · rename_i hphase
    cases h
    exact .goes (.ends hphase)
  · cases h

/-- One action of the owner is one of the moves. -/
theorem drop_moves (h : s.drop = some s') : s.Moves s' := by
  unfold drop at h
  split at h
  · rename_i hguard
    cases h
    exact .stops hguard
  · rename_i hguard
    split at h <;> cases h
    rename_i hfinished
    exact .collects hguard hfinished
  · rename_i hguard
    split at h <;> cases h
    exact .joins hguard
  · cases h

/-- Every action is one of these moves. -/
theorem step_moves (h : s.step a = some s') : s.Moves s' := by
  cases a with
  | emit lane line =>
    cases h
    exact emit_moves lane line s
  | run => exact run_moves h
  | timeout =>
    dsimp only [step] at h
    split at h <;> cases h
    rename_i hphase
    exact .goes (.wakes hphase.1)
  | drop => exact drop_moves h
  | expire =>
    dsimp only [step] at h
    split at h <;> cases h
    rename_i hguard
    exact .expires hguard

/-- A move of the program counter alone begins and ends with nothing in hand. -/
theorem Goes.hand {phase : LoggerPhase} (h : s.Goes phase) (lane : Lane) :
    s.phase.hand lane = [] ∧ phase.hand lane = [] := by
  cases h with
  | passes hphase | looks hphase | leaves hphase | waits hphase | wakes hphase | ends hphase =>
    rw [hphase]
    exact ⟨rfl, rfl⟩

/-- A writer that is about to take a line has nothing in hand. -/
theorem Begins.hand {lane : Lane} {phase : LoggerPhase} (h : Begins lane phase) (lane' : Lane) :
    phase.hand lane' = [] := by
  cases h <;> rfl

/-! ### The account -/

/-- The accounts of the channels. -/
structure Kept (s : Logger) : Prop where
  account : ∀ lane, linesOf lane s.accepted =
    linesOf lane s.written ++ s.phase.hand lane ++ s.queue lane
  bounded : ∀ lane, (s.queue lane).length ≤ lane.capacity

/-- One move: a line goes from its queue to the hand of the writer, or from there to the output. -/
theorem Moves.kept (h : s.Moves s') (hs : s.Kept) : s'.Kept := by
  obtain ⟨haccount, hbounded⟩ := id hs
  cases h with
  | loses => exact hs
  -- The line goes behind its own queue, and the other lane is not touched.
  | @accepts lane line room =>
    constructor
    · intro lane'
      have hrest := s.setQueue_rest (s.queue lane ++ [line]) lane
      show linesOf lane' (s.accepted ++ [(lane, line)]) =
        linesOf lane' (s.setQueue _ lane).written ++ (s.setQueue _ lane).phase.hand lane' ++
          (s.setQueue _ lane).queue lane'
      rw [hrest.2.1, hrest.2.2.2.2.2, linesOf_append, haccount]
      by_cases hsame : lane = lane'
      · subst hsame
        rw [linesOf_self, setQueue_queue, List.append_assoc]
      · rw [linesOf_ne hsame, setQueue_queue_ne hsame, List.append_nil]
    · intro lane'
      show ((s.setQueue _ lane).queue lane').length ≤ _
      by_cases hsame : lane = lane'
      · subst hsame
        rw [setQueue_queue, List.length_append]
        exact room
      · rw [setQueue_queue_ne hsame]
        exact hbounded lane'
  -- The first line of a queue is now in hand.
  | @takes lane line lines begins first =>
    constructor
    · intro lane'
      have hrest := s.setQueue_rest lines lane
      show linesOf lane' (s.setQueue lines lane).accepted =
        linesOf lane' (s.setQueue lines lane).written ++ linesOf lane' [(lane, line)] ++
          (s.setQueue lines lane).queue lane'
      rw [hrest.2.2.2.2.1, hrest.2.2.2.2.2, haccount, begins.hand, List.append_nil]
      by_cases hsame : lane = lane'
      · subst hsame
        rw [linesOf_self, setQueue_queue, first, List.append_assoc]
        rfl
      · rw [linesOf_ne hsame, setQueue_queue_ne hsame, List.append_nil]
    · intro lane'
      show ((s.setQueue lines lane).queue lane').length ≤ _
      by_cases hsame : lane = lane'
      · subst hsame
        have hlength := hbounded lane
        rw [first] at hlength
        rw [setQueue_queue]
        exact Nat.le_of_succ_le hlength
      · rw [setQueue_queue_ne hsame]
        exact hbounded lane'
  | goes goes =>
    refine ⟨fun lane => ?_, hbounded⟩
    obtain ⟨hbefore, hafter⟩ := goes.hand lane
    show linesOf lane s.accepted = linesOf lane s.written ++ hand lane _ ++ s.queue lane
    rw [haccount, hbefore, hafter]
  -- The line in hand is written.
  | @writes lane line phase =>
    refine ⟨fun lane' => ?_, hbounded⟩
    show linesOf lane' s.accepted =
      linesOf lane' (s.written ++ [(lane, line)]) ++ [] ++ s.queue lane'
    rw [haccount, phase, linesOf_append, List.append_nil]
    rfl
  | reports phase =>
    refine ⟨fun lane => ?_, hbounded⟩
    show linesOf lane s.accepted = linesOf lane s.written ++ [] ++ s.queue lane
    rw [haccount, phase]
    rfl
  | stops | collects | joins | expires => exact ⟨haccount, hbounded⟩

/-- At the start nothing is accepted and nothing is queued. -/
theorem start_kept : start.Kept := ⟨fun lane => by cases lane <;> rfl, fun lane => by
  cases lane <;> exact Nat.zero_le _⟩

/-- In every run nothing is lost: what was accepted is written, in hand or queued. -/
theorem reaches_kept (h : Reaches step (· = start) s) : s.Kept := by
  refine h.invariant ?_ fun s a s' hs hstep => (step_moves hstep).kept hs
  intro s hs
  subst hs
  exact start_kept

/-- Whatever the threads do, each lane is first in, first out: what was accepted is what was
written, the line in hand and the channel, in this order. So no line is written twice, none out of
order, and none is lost behind `try_send`. The channels stay bounded. -/
theorem lines_kept (h : Reaches step (· = start) s) (lane : Lane) :
    linesOf lane s.accepted = linesOf lane s.written ++ s.phase.hand lane ++ s.queue lane ∧
      (s.queue lane).length ≤ lane.capacity ∧
      (linesOf lane s.accepted).length ≤ (linesOf lane s.written).length + 1 + lane.capacity := by
  obtain ⟨haccount, hbounded⟩ := reaches_kept h
  refine ⟨haccount lane, hbounded lane, ?_⟩
  have hhand : (s.phase.hand lane).length ≤ 1 := by
    cases s.phase with
    | writing lane' line => exact (List.length_map _).trans_le (List.length_filter_le _ _)
    | _ => exact Nat.zero_le 1
  have hlength := hbounded lane
  rw [haccount, List.length_append, List.length_append]
  omega

/-- Of three lines one is written, one is in hand and one waits. -/
theorem lines_kept_three : ∃ s, runActions step start
    [.emit .routine [1], .emit .routine [2], .emit .routine [3], .run, .run, .run, .run, .run] =
      some s ∧ linesOf .routine s.written = [[1]] ∧ s.routine = [[3]] ∧
      linesOf .routine s.accepted =
        linesOf .routine s.written ++ s.phase.hand .routine ++ s.queue .routine := by
  have hrun : (runActions step start [.emit .routine [1], .emit .routine [2], .emit .routine [3],
      .run, .run, .run, .run, .run]).map (fun s => (linesOf .routine s.written, s.routine)) =
        some ([[1]], [[3]]) := by
    decide
  obtain ⟨s, hs, heq⟩ := Option.map_eq_some_iff.mp hrun
  rw [Prod.mk.injEq] at heq
  exact ⟨s, hs, heq.1, heq.2, (lines_kept (Reaches.of_run (.start rfl) hs) .routine).1⟩

/-! ### The important lane goes first -/

/-- The lines of a lane that the thread has begun to write. -/
def begun (lane : Lane) (s : Logger) : List Line := linesOf lane s.written ++ s.phase.hand lane

/-- A line that is taken is begun. -/
theorem begun_takes {lane : Lane} (line : Line) (lines : List Line) (begins : Begins lane s.phase)
    (lane' : Lane) :
    begun lane' { s.setQueue lines lane with phase := .writing lane line } =
      begun lane' s ++ linesOf lane' [(lane, line)] := by
  show linesOf lane' (s.setQueue lines lane).written ++ linesOf lane' [(lane, line)] =
    linesOf lane' s.written ++ s.phase.hand lane' ++ linesOf lane' [(lane, line)]
  rw [begins.hand, List.append_nil, (s.setQueue_rest lines lane).2.2.2.2.2]

/-- What was begun does not depend on the program counter, as long as nothing is in hand. -/
theorem begun_goes {phase : LoggerPhase} (goes : s.Goes phase) (lane : Lane) :
    begun lane { s with phase := phase } = begun lane s := by
  obtain ⟨hbefore, hafter⟩ := goes.hand lane
  show linesOf lane s.written ++ hand lane phase = linesOf lane s.written ++ hand lane s.phase
  rw [hbefore, hafter]

/-- To write the line in hand begins no line. -/
theorem begun_writes {lane : Lane} {line : Line} (phase : s.phase = .writing lane line)
    (lane' : Lane) :
    begun lane' { s with written := s.written ++ [(lane, line)], phase := .polling } =
      begun lane' s := by
  show linesOf lane' (s.written ++ [(lane, line)]) ++ [] =
    linesOf lane' s.written ++ hand lane' s.phase
  rw [phase, linesOf_append, List.append_nil]
  rfl

/-- What was begun does not depend on the queues. -/
theorem begun_setQueue (lines : List Line) (lane lane' : Lane) :
    begun lane' (s.setQueue lines lane) = begun lane' s := by
  have hrest := s.setQueue_rest lines lane
  show linesOf lane' (s.setQueue lines lane).written ++ hand lane' (s.setQueue lines lane).phase = _
  rw [hrest.2.1, hrest.2.2.2.2.2]
  rfl

/-- A run from `s₀`: the important lines that waited there are begun in turn, and until the last of
them is, one routine line may be begun. -/
structure Prefers (s₀ s : Logger) : Prop where
  waiting : (begun .important s₀).length + s₀.important.length ≤
    (begun .important s).length + s.important.length
  routine : (begun .important s).length < (begun .important s₀).length + s₀.important.length →
    (begun .routine s).length ≤ (linesOf .routine s₀.written).length + 1 ∧
      (s.phase.Passed → (begun .routine s).length ≤ (linesOf .routine s₀.written).length)

/-- A logger prefers important lines from any state on. -/
theorem prefers_self (s : Logger) : s.Prefers s := by
  refine ⟨Nat.le_refl _, fun _ => ?_⟩
  have hlength : (begun .routine s).length =
      (linesOf .routine s.written).length + (s.phase.hand .routine).length := List.length_append
  rw [hlength]
  constructor
  · have hhand : (s.phase.hand .routine).length ≤ 1 := by
      cases s.phase with
      | writing lane line => exact (List.length_map _).trans_le (List.length_filter_le _ _)
      | _ => exact Nat.zero_le 1
    omega
  · intro hpassed
    have hhand : s.phase.hand .routine = [] := by
      generalize s.phase = phase at hpassed
      cases hpassed <;> rfl
    rw [hhand]
    exact Nat.le_refl _

/-- One move: a routine line is begun only when no important one is queued. -/
theorem Moves.prefers {s₀ : Logger} (h : s.Moves s') (hs : s₀.Prefers s) : s₀.Prefers s' := by
  obtain ⟨hwaiting, hroutine⟩ := id hs
  cases h with
  | loses => exact hs
  | @accepts lane line room =>
    have hbegun : ∀ lane', begun lane' { s.setQueue (s.queue lane ++ [line]) lane with
        accepted := s.accepted ++ [(lane, line)] } = begun lane' s := begun_setQueue _ lane
    have hphase : (s.setQueue (s.queue lane ++ [line]) lane).phase = s.phase :=
      (s.setQueue_rest _ lane).2.1
    have himportant : s.important.length ≤
        (s.setQueue (s.queue lane ++ [line]) lane).important.length := by
      cases lane with
      | routine => exact Nat.le_refl _
      | important => exact List.length_append ▸ Nat.le_add_right _ _
    refine ⟨?_, ?_⟩
    · rw [hbegun]
      exact hwaiting.trans (Nat.add_le_add_left himportant _)
    · show _ → _ ∧ ((s.setQueue _ lane).phase.Passed → _)
      rw [hbegun, hbegun, hphase]
      exact hroutine
  | @takes lane line lines begins first =>
    have hbegun := begun_takes line lines begins
    cases lane with
    | important =>
      have himportant : s.important = line :: lines := first
      have hother : linesOf .routine [(Lane.important, line)] = [] := rfl
      rw [himportant, List.length_cons] at hwaiting
      constructor
      · rw [hbegun, linesOf_self, List.length_append, List.length_singleton]
        show _ ≤ _ + lines.length
        omega
      · rw [hbegun, hbegun, linesOf_self, List.length_append, List.length_singleton,
          hother, List.append_nil]
        intro hlt
        exact ⟨(hroutine (by omega)).1, nofun⟩
    | routine =>
      have hpassed : s.phase.Passed := by
        generalize s.phase = phase at begins
        cases begins with
        | routine => exact .falling
        | woken => exact .waiting
      have hother : linesOf .important [(Lane.routine, line)] = [] := rfl
      constructor
      · rw [hbegun, hother, List.append_nil]
        exact hwaiting
      · rw [hbegun, hbegun, linesOf_self, hother, List.append_nil, List.length_append,
          List.length_singleton]
        intro hlt
        exact ⟨Nat.succ_le_succ ((hroutine hlt).2 hpassed), nofun⟩
  | @goes phase goes =>
    have hbegun := begun_goes goes
    refine ⟨?_, ?_⟩
    · rw [hbegun]
      exact hwaiting
    · rw [hbegun, hbegun]
      intro hlt
      refine ⟨(hroutine hlt).1, fun hpassed => ?_⟩
      cases goes with
      | passes hphase hempty =>
        -- The lane was found empty, so all that waited is begun.
        rw [hempty] at hwaiting
        exact absurd hlt (Nat.not_lt.mpr hwaiting)
      | looks hphase => exact (hroutine hlt).2 (hphase ▸ .falling)
      | waits hphase => exact (hroutine hlt).2 (hphase ▸ .looking)
      | leaves | wakes | ends => cases hpassed
  | writes phase =>
    have hbegun := begun_writes phase
    refine ⟨?_, ?_⟩
    · rw [hbegun]
      exact hwaiting
    · rw [hbegun, hbegun]
      exact fun hlt => ⟨(hroutine hlt).1, nofun⟩
  | reports phase =>
    have hbegun : ∀ lane, begun lane { s with finished := true, phase := .ending } =
        begun lane s := by
      intro lane
      show linesOf lane s.written ++ [] = linesOf lane s.written ++ hand lane s.phase
      rw [phase]
      rfl
    refine ⟨?_, ?_⟩
    · rw [hbegun]
      exact hwaiting
    · rw [hbegun, hbegun]
      exact fun hlt => ⟨(hroutine hlt).1, nofun⟩
  | stops | collects | joins | expires => exact ⟨hwaiting, hroutine⟩

/-- However many routine lines there are, and whatever is emitted meanwhile: before the last of the
important lines that wait is begun, at most one routine line is written. -/
theorem important_first (h : Reaches step (· = s) s')
    (hwaits : (begun .important s').length < (begun .important s).length + s.important.length) :
    (begun .routine s').length ≤ (linesOf .routine s.written).length + 1 := by
  have hprefers : s.Prefers s' := by
    refine h.invariant ?_ fun t a t' ht hstep => (step_moves hstep).prefers ht
    intro t ht
    subst ht
    exact prefers_self t
  exact (hprefers.routine hwaits).1

/-- The thread found the important lane empty, and then an important line comes. -/
def burst : List LoggerAction :=
  [.emit .routine [1], .emit .routine [2], .run, .emit .important [3]]

/-- The first routine line goes ahead of the important one, and the second one does not. -/
theorem important_first_burst : ∃ s s', runActions step start burst = some s ∧
    runActions step s [.run, .run] = some s' ∧ linesOf .routine s'.written = [[1]] ∧
      (begun .routine s').length ≤ (linesOf .routine s.written).length + 1 := by
  have hrun : (runActions step start burst).map (fun s =>
      ((begun .important s).length + s.important.length,
        (runActions step s [.run, .run]).map fun s' =>
          ((begun .important s').length, linesOf .routine s'.written))) =
        some (1, some (0, [[1]])) := by
    decide
  obtain ⟨s, hs, hrest⟩ := Option.map_eq_some_iff.mp hrun
  rw [Prod.mk.injEq] at hrest
  obtain ⟨s', hs', heq⟩ := Option.map_eq_some_iff.mp hrest.2
  rw [Prod.mk.injEq] at heq
  refine ⟨s, s', hs, hs', heq.2, important_first (Reaches.of_run (.start rfl) hs') ?_⟩
  rw [heq.1, hrest.1]
  exact Nat.one_pos

/-! ### The end of the thread -/

/-- Behind the look at the routine lane. -/
inductive Looked : LoggerPhase → Prop
  | looking : Looked .looking
  | waiting : Looked .waiting
  | leaving {phase : LoggerPhase} (leaving : Leaving phase) : Looked phase

/-- A run from a state in which these lines had been accepted: a lane that the thread found empty
since holds none of them. -/
structure Drains (lines : Lane → List Line) (s : Logger) : Prop where
  accepted : ∀ lane, lines lane <+: linesOf lane s.accepted
  important : s.phase.Passed ∨ s.phase.Leaving → lines .important <+: linesOf .important s.written
  routine : Looked s.phase → lines .routine <+: linesOf .routine s.written

/-- One move: after the stop flag a lane is drained in order. -/
theorem Moves.drains {lines : Lane → List Line} (h : s.Moves s') (hkept : s.Kept)
    (hs : s.Drains lines) : s'.Drains lines := by
  obtain ⟨haccepted, himportant, hroutine⟩ := id hs
  -- An empty lane outside of a write: all that was accepted is written.
  have hempty : ∀ lane, s.phase.hand lane = [] → s.queue lane = [] →
      lines lane <+: linesOf lane s.written := by
    intro lane hhand hqueue
    have haccount := hkept.account lane
    rw [hhand, hqueue, List.append_nil, List.append_nil] at haccount
    rw [← haccount]
    exact haccepted lane
  cases h with
  | loses => exact hs
  | @accepts lane line room =>
    have hrest := s.setQueue_rest (s.queue lane ++ [line]) lane
    refine ⟨fun lane' => ?_, ?_, ?_⟩
    · show lines lane' <+: linesOf lane' (s.accepted ++ [(lane, line)])
      rw [linesOf_append]
      exact (haccepted lane').trans (List.prefix_append _ _)
    · show (s.setQueue _ lane).phase.Passed ∨ (s.setQueue _ lane).phase.Leaving →
        _ <+: linesOf _ (s.setQueue _ lane).written
      rw [hrest.2.1, hrest.2.2.2.2.2]
      exact himportant
    · show Looked (s.setQueue _ lane).phase → _ <+: linesOf _ (s.setQueue _ lane).written
      rw [hrest.2.1, hrest.2.2.2.2.2]
      exact hroutine
  | @takes lane line rest begins first =>
    refine ⟨fun lane' => ?_, fun hphase => ?_, fun hphase => ?_⟩
    · show lines lane' <+: linesOf lane' (s.setQueue rest lane).accepted
      rw [(s.setQueue_rest rest lane).2.2.2.2.1]
      exact haccepted lane'
    · rcases hphase with hpassed | hleaving
      · cases hpassed
      · cases hleaving
    · cases hphase with
      | leaving hleaving => cases hleaving
  | goes goes =>
    refine ⟨haccepted, fun hphase => ?_, fun hphase => ?_⟩
    · cases goes with
      | passes phase empty => exact hempty .important (phase ▸ rfl) empty
      | looks phase => exact himportant (.inl (phase ▸ .falling))
      | leaves phase => exact himportant (.inl (phase ▸ .looking))
      | waits phase => exact himportant (.inl (phase ▸ .looking))
      | ends phase => exact himportant (.inr (phase ▸ .ending))
      | wakes phase =>
        rcases hphase with hpassed | hleaving
        · cases hpassed
        · cases hleaving
    · cases goes with
      | looks phase empty => exact hempty .routine (phase ▸ rfl) empty
      | leaves phase => exact hroutine (phase ▸ .looking)
      | waits phase => exact hroutine (phase ▸ .looking)
      | ends phase => exact hroutine (.leaving (phase ▸ .ending))
      | passes | wakes =>
        cases hphase with
        | leaving hleaving => cases hleaving
  | writes phase =>
    refine ⟨haccepted, fun hphase => ?_, fun hphase => ?_⟩
    · rcases hphase with hpassed | hleaving
      · cases hpassed
      · cases hleaving
    · cases hphase with
      | leaving hleaving => cases hleaving
  | reports phase =>
    exact ⟨haccepted, fun _ => himportant (.inr (phase ▸ .reporting)),
      fun _ => hroutine (.leaving (phase ▸ .reporting))⟩
  | stops | collects | joins | expires => exact ⟨haccepted, himportant, hroutine⟩

/-- What had been accepted when the thread began a round is written when the thread leaves. So a
line is lost at the end only if it was accepted after the last round began. -/
theorem exit_drains (h : Reaches step (· = start) s) (hround : s.phase = .polling)
    (h' : Reaches step (· = s) s') (hleft : s'.phase.Leaving) (lane : Lane) :
    linesOf lane s.accepted <+: linesOf lane s'.written := by
  have hdrains : s'.Kept ∧ s'.Drains fun lane => linesOf lane s.accepted := by
    refine h'.invariant (I := fun t => t.Kept ∧ t.Drains fun lane => linesOf lane s.accepted) ?_
      fun t a t' ht hstep => ?_
    · intro t ht
      subst ht
      refine ⟨reaches_kept h, fun lane => List.prefix_refl _, fun hphase => ?_, fun hphase => ?_⟩
      · rw [hround] at hphase
        rcases hphase with hpassed | hleaving
        · cases hpassed
        · cases hleaving
      · rw [hround] at hphase
        cases hphase with
        | leaving hleaving => cases hleaving
    · exact ⟨(step_moves hstep).kept ht.1, (step_moves hstep).drains ht.1 ht.2⟩
  cases lane with
  | important => exact hdrains.2.important (.inr hleft)
  | routine => exact hdrains.2.routine (.leaving hleft)

/-- A line comes in, the guard is dropped, and the thread writes the line and leaves. -/
theorem exit_drains_line : ∃ s s', runActions step start [.emit .important [1], .drop] = some s ∧
    runActions step s (List.replicate 5 .run) = some s' ∧ s'.phase = .reporting ∧
      linesOf .important s.accepted <+: linesOf .important s'.written := by
  have hrun : (runActions step start [.emit .important [1], .drop]).map (fun s =>
      (s.phase, (runActions step s (List.replicate 5 .run)).map Logger.phase)) =
        some (.polling, some .reporting) := by
    decide
  obtain ⟨s, hs, heq⟩ := Option.map_eq_some_iff.mp hrun
  rw [Prod.mk.injEq] at heq
  obtain ⟨s', hs', hphase⟩ := Option.map_eq_some_iff.mp heq.2
  refine ⟨s, s', hs, hs', hphase, ?_⟩
  exact exit_drains (Reaches.of_run (.start rfl) hs) heq.1 (Reaches.of_run (.start rfl) hs')
    (hphase ▸ .reporting) .important

-- A line that comes between the looks is lost, although it came before the stop flag.
example : (runActions step start [.run, .emit .important [1], .run, .drop, .run]).map
    (fun s => (s.phase, s.accepted, s.written)) =
      some (.reporting, [(.important, [1])], []) := by
  decide

/-! ### The guard -/

/-- What the guard and the thread know of each other. -/
structure Guarded (s : Logger) : Prop where
  finished : s.finished = true → s.phase.Done
  joining : s.guard = .joining → s.phase.Done
  stop : s.stop = true → s.guard ≠ .held
  leaving : s.phase.Leaving → s.stop = true

/-- A writer that is done is leaving. -/
theorem LoggerPhase.Done.leaving {phase : LoggerPhase} (h : phase.Done) : phase.Leaving := by
  cases h with
  | ending => exact .ending
  | ended => exact .ended

/-- A writer that is done stays done. -/
theorem Goes.done {phase : LoggerPhase} (h : s.Goes phase) (hdone : s.phase.Done) :
    phase.Done := by
  generalize hphase : s.phase = before at hdone
  cases h with
  | ends => exact .ended
  | passes hbefore | looks hbefore | leaves hbefore | waits hbefore | wakes hbefore =>
    rw [hphase] at hbefore
    subst hbefore
    cases hdone

/-- One move: the guard is released behind the last line. -/
theorem Moves.guarded (h : s.Moves s') (hs : s.Guarded) : s'.Guarded := by
  obtain ⟨hfinished, hjoining, hstop, hleaving⟩ := id hs
  cases h with
  | loses => exact hs
  | @accepts lane line room =>
    cases lane <;> exact ⟨hfinished, hjoining, hstop, hleaving⟩
  | @takes lane line lines begins first =>
    have hphase : ¬ s.phase.Done := by
      intro hdone
      generalize s.phase = phase at begins hdone
      cases begins <;> cases hdone
    have hrest := s.setQueue_rest lines lane
    refine ⟨fun h => ?_, fun h => ?_, fun h => ?_, nofun⟩
    · exact (hphase (hfinished (hrest.2.2.1 ▸ h))).elim
    · exact (hphase (hjoining (hrest.2.2.2.1 ▸ h))).elim
    · show (s.setQueue lines lane).guard ≠ .held
      rw [hrest.2.2.2.1]
      exact hstop (hrest.1 ▸ h)
  | goes goes =>
    refine ⟨fun h => goes.done (hfinished h), fun h => goes.done (hjoining h), hstop, fun h => ?_⟩
    cases goes with
    | leaves _ hraised => exact hraised
    | ends hphase => exact hleaving (hphase ▸ .ending)
    | passes | looks | waits | wakes => cases h
  | writes phase =>
    have hphase : ¬ s.phase.Done := by
      rw [phase]
      exact nofun
    exact ⟨fun h => (hphase (hfinished h)).elim, fun h => (hphase (hjoining h)).elim, hstop, nofun⟩
  | reports phase =>
    exact ⟨fun _ => .ending, fun _ => .ending, hstop, fun _ => hleaving (phase ▸ .reporting)⟩
  | stops => exact ⟨hfinished, nofun, nofun, fun _ => rfl⟩
  | collects guard finished => exact ⟨nofun, fun _ => hfinished finished, nofun, hleaving⟩
  | joins | expires => exact ⟨hfinished, nofun, nofun, hleaving⟩

/-- In every run the owner waits only for a writer that will come to its end. -/
theorem reaches_guarded (h : Reaches step (· = start) s) : s.Guarded := by
  refine h.invariant ?_ fun s a s' hs hstep => (step_moves hstep).guarded hs
  intro s hs
  subst hs
  exact ⟨nofun, nofun, nofun, nofun⟩

/-- Dropping the guard does not wait for the sink. From every state behind its beginning, `drop` can
return after two more actions, and none of them is a write: the guard gives up, or the thread is
behind its last write when the guard joins it. As long as the guard is held the thread does not
leave its loop. -/
theorem drop_returns (h : Reaches step (· = start) s) :
    (s.guard = .held → ¬ s.phase.Leaving) ∧ (s.guard = .joining → s.phase.Done) ∧
      (s.guard ≠ .held → ∃ actions s', actions.length ≤ 2 ∧ runActions step s actions = some s' ∧
        s'.guard = .dropped ∧ s'.written = s.written) := by
  obtain ⟨-, hjoining, hstop, hleaving⟩ := reaches_guarded h
  refine ⟨fun hheld hleft => hstop (hleaving hleft) hheld, hjoining, fun hheld => ?_⟩
  cases hguard : s.guard with
  | held => exact (hheld hguard).elim
  -- The timeout is one action.
  | awaiting =>
    refine ⟨[.expire], { s with guard := .dropped }, Nat.le_succ 1, ?_, rfl, rfl⟩
    show (s.step .expire).bind _ = _
    dsimp only [step]
    rw [if_pos hguard]
    rfl
  -- The thread is done with its loop, so the join waits for its end at most.
  | joining =>
    have hdone := hjoining hguard
    generalize hphase : s.phase = phase at hdone
    cases hdone with
    | ending =>
      refine ⟨[.run, .drop], { s with phase := .ended, guard := .dropped }, Nat.le_refl 2, ?_, rfl,
        rfl⟩
      have hrun : s.step .run = some { s with phase := .ended } := by
        dsimp only [step, run]
        rw [hphase]
      have hdrop : step { s with phase := .ended } .drop =
          some { s with phase := .ended, guard := .dropped } := by
        dsimp only [step, drop]
        rw [hguard]
        rfl
      show (s.step .run).bind _ = _
      rw [hrun]
      show (step _ .drop).bind _ = _
      rw [hdrop]
      rfl
    | ended =>
      refine ⟨[.drop], { s with guard := .dropped }, Nat.le_succ 1, ?_, rfl, rfl⟩
      show (s.step .drop).bind _ = _
      dsimp only [step, drop]
      rw [hguard]
      dsimp only
      rw [if_pos hphase]
      rfl
  | dropped => exact ⟨[], s, Nat.zero_le 2, rfl, hguard, rfl⟩

/-- The sink blocks, and `drop` returns all the same. -/
theorem drop_returns_blocked : ∃ s, runActions step start
    [.emit .important [1], .run, .drop] = some s ∧ s.phase = .writing .important [1] ∧
      ∃ actions s', actions.length ≤ 2 ∧ runActions step s actions = some s' ∧
        s'.guard = .dropped ∧ s'.written = s.written := by
  have hrun : (runActions step start [.emit .important [1], .run, .drop]).map (fun s =>
      (s.phase, s.guard)) = some (.writing .important [1], .awaiting) := by
    decide
  obtain ⟨s, hs, heq⟩ := Option.map_eq_some_iff.mp hrun
  rw [Prod.mk.injEq] at heq
  refine ⟨s, hs, heq.1, (drop_returns (Reaches.of_run (.start rfl) hs)).2.2 ?_⟩
  rw [heq.2]
  exact nofun

end Logger

end Sederial
