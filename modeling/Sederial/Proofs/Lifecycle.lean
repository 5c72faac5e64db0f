import Sederial.Proofs.ConfigSafe
import Sederial.Proofs.LoggerRuns
import Sederial.Proofs.ServiceResult
import Sederial.Proofs.StartupRuns

/-!
# `Sederial.Proofs.Lifecycle`: the lines about the life of the service

The program, the service and the logger meet in the important lane. The program says thirteen lines
about its configuration at most, and the service says three (`Service.reaches_said`). The lane has
room for sixteen. So a blocked stderr drops none of them (`lifecycle_kept`), whatever the threads
do.

The error with which the program ends may follow these lines, and it can be one too many. A thread
that panics says more, and then the lane can be full.
-/

set_option autoImplicit false

namespace Sederial

open Sederial.Lib

/-! ### What the service says -/

/-- All that a run of the service can say, in order. -/
def lifecycle : List Notice := [.listening, .stopping, .complete]

/-- How much of it was said when the main thread is here. -/
def Main.said : Main → Option Nat
  | .openingUdp | .abortingUdp _ | .openingTcp | .addressing | .spawning | .leavingTcp _ => some 0
  | .looking | .receiving | .received _ | .submitting _ | .raising _ => some 1
  | .waking _ | .closingUdp _ _ | .awaiting _ _ _ | .joining _ _ => some 2
  | .leaving _ | .droppingUdp _ | .returned _ => none

/-- A move that touches nothing but the program counter says nothing. -/
theorem Main.Goes.said {stop hungUp : Bool} {main main' : Main} (h : main.Goes stop hungUp main') :
    main'.said = main.said ∨ main'.said = none := by
  cases h with
  | expires => exact .inr rfl
  | _ => exact .inl rfl

namespace Service

/-- The service says a start of `lifecycle`, and where the main thread is tells how much. -/
structure Said (s : Service) : Prop where
  start : s.notices <+: lifecycle
  here : ∀ n, s.main.said = some n → s.notices = lifecycle.take n

variable {server : Server} {s s' t : Service} {actor : Actor}

/-- An action of the pool for UDP says nothing. -/
theorem onUdp_said {a : Action Datagram} (h : s.onUdp server a = some t) :
    t.notices = s.notices ∧ t.main = s.main := by
  obtain ⟨crew, -, rfl⟩ := onUdp_eq h
  exact ⟨rfl, rfl⟩

/-- An action of the pool for TCP says nothing. -/
theorem onTcp_said {a : Action Connection} (h : s.onTcp server a = some t) :
    t.notices = s.notices ∧ t.main = s.main := by
  obtain ⟨crew, -, rfl⟩ := onTcp_eq h
  exact ⟨rfl, rfl⟩

/-- Nothing is said. -/
theorem Said.quiet (hs : s.Said) (hnotices : s'.notices = s.notices)
    (hmain : s'.main.said = s.main.said ∨ s'.main.said = none) : s'.Said := by
  refine ⟨hnotices ▸ hs.start, fun n hn => ?_⟩
  rcases hmain with hsame | hnone
  · rw [hnotices]
    exact hs.here n (hsame ▸ hn)
  · cases hnone.symm.trans hn

/-- A pool acts for the main thread. -/
theorem Said.moves {main : Main} (hs : s.Said) (hacts : t.notices = s.notices ∧ t.main = s.main)
    (hmain : main.said = s.main.said ∨ main.said = none) : (t.goto main).Said :=
  hs.quiet hacts.1 hmain

/-- Nothing is said while the pool for UDP is built. -/
theorem said_openedUdp (failure : Option IoError) (owner : Owner) :
    (Main.openedUdp failure owner).said = some 0 := by
  unfold Main.openedUdp
  cases failure with
  | some error => rfl
  | none =>
    dsimp only
    split <;> rfl

/-- Nothing is said while the pool for TCP is built. -/
theorem said_openedTcp (failure : Option IoError) (owner : Owner) :
    (Main.openedTcp failure owner).said = some 0 := by
  unfold Main.openedTcp
  cases failure with
  | some error => rfl
  | none =>
    dsimp only
    split <;> rfl

/-- Nothing is said when the first has failed. -/
theorem said_abortedUdp (error : IoError) (owner : Owner) :
    (Main.abortedUdp error owner).said = some 0 ∨ (Main.abortedUdp error owner).said = none := by
  unfold Main.abortedUdp
  split
  · exact .inr rfl
  · exact .inl rfl

/-- Nothing is said when the second has failed. -/
theorem said_leftTcp (error : IoError) (owner : Owner) :
    (Main.leftTcp error owner).said = some 0 ∨ (Main.leftTcp error owner).said = none := by
  unfold Main.leftTcp
  split
  · exact .inr rfl
  · exact .inl rfl

/-- Both lines about the start and the stop are said before `shutdown`. -/
theorem said_closedUdp (result : Outcome) (wake : Option String) (workers : Option Outcome) :
    (Main.closedUdp result wake workers).said = some 2 := by
  cases workers <;> rfl

/-- The rest is said before the pool is dropped. -/
theorem said_droppedUdp (result : Outcome) (owner : Owner) :
    (Main.droppedUdp result owner).said = none := by
  unfold Main.droppedUdp
  split <;> rfl

/-- Every action says the next line of the life of the service, or none. -/
theorem Acts.said (h : Acts server s actor s') (hs : s.Said) : s'.Said := by
  cases h with
  -- Three actions say a line. For each of the others it is enough that the next line is the same.
  | mainGoes goes => exact hs.quiet rfl goes.said
  | spawns main =>
    have hnotices := hs.here 0 (by rw [main]; rfl)
    have hone : s.notices ++ [.listening] = lifecycle.take 1 := by
      rw [hnotices]
      rfl
    refine ⟨?_, fun n hn => ?_⟩
    · show s.notices ++ [.listening] <+: lifecycle
      rw [hone]
      exact List.take_prefix 1 lifecycle
    · cases hn
      exact hone
  | receives main | completes main => exact hs.quiet rfl (.inl (by rw [main]; rfl))
  -- The last line is said when the listener has ended well.
  | @joins result workers ended notices main listener said =>
    have hnotices := hs.here 2 (by rw [main]; rfl)
    refine ⟨?_, nofun⟩
    show notices <+: lifecycle
    rcases said with rfl | ⟨rfl, -⟩
    · exact hs.start
    · rw [hnotices]
      exact List.prefix_refl lifecycle
  | opensUdp main acts =>
    exact hs.moves (onUdp_said acts) (.inl (by rw [said_openedUdp, main]; rfl))
  | abortsUdp main acts =>
    refine hs.moves (onUdp_said acts) ?_
    rw [main]
    exact said_abortedUdp _ _
  | opensTcp main acts =>
    exact hs.moves (onTcp_said acts) (.inl (by rw [said_openedTcp, main]; rfl))
  | dropsTcp main acts =>
    refine hs.moves (onTcp_said acts) (.inl ?_)
    rcases main with main | main
    · rw [main]
      rfl
    · rw [main]
      rfl
  | leavesTcp main acts =>
    refine hs.moves (onTcp_said acts) ?_
    rw [main]
    exact said_leftTcp _ _
  | submitsUdp main acts => exact hs.moves (onUdp_said acts) (.inl (by rw [main]; rfl))
  | @raises result t main acts =>
    have hnotices := hs.here 1 (by rw [main]; rfl)
    have htwo : t.notices ++ [.stopping] = lifecycle.take 2 := by
      rw [(onUdp_said acts).1, hnotices]
      rfl
    refine ⟨?_, fun n hn => ?_⟩
    · show t.notices ++ [.stopping] <+: lifecycle
      rw [htwo]
      exact List.take_prefix 2 lifecycle
    · cases hn
      exact htwo
  | wakes main acts => exact hs.moves (onUdp_said acts) (.inl (by rw [main]; rfl))
  | closesUdp main acts =>
    exact hs.moves (onUdp_said acts) (.inl (by rw [said_closedUdp, main]; rfl))
  | leaves main acts => exact hs.moves (onUdp_said acts) (.inr rfl)
  | dropsUdp main acts => exact hs.moves (onUdp_said acts) (.inr (said_droppedUdp _ _))
  -- The other threads say nothing.
  | listenerGoes | arrives => exact hs.quiet rfl (.inl rfl)
  | submitsTcp listener acts | listenerRaises listener acts | listenerStops listener acts
  | closesTcp listener acts | sends listener acts | drops listener acts | panics listener acts
  | tcp listener acts =>
    obtain ⟨hnotices, hmain⟩ := onTcp_said acts
    exact hs.quiet hnotices (.inl (congrArg Main.said hmain))
  | udp foreign acts =>
    obtain ⟨hnotices, hmain⟩ := onUdp_said acts
    exact hs.quiet hnotices (.inl (congrArg Main.said hmain))

/-- In every run the service says a start of `lifecycle`. -/
theorem reaches_said {stop : Bool} (h : Reaches (Service.step server) (· = start stop) s) :
    s.Said := by
  refine h.invariant ?_ fun s a s' hs hstep => (step_acts hstep).said hs
  intro s hs
  subst hs
  exact ⟨List.nil_prefix, fun n hn => by cases hn; rfl⟩

end Service

/-! ### Few lines are not dropped -/

namespace Logger

variable {s s' : Logger}

/-- The important lines that were emitted, accepted or not. -/
def importantLines (actions : List LoggerAction) : List Line :=
  actions.filterMap fun
    | .emit .important line => some line
    | _ => none

/-- To take a line accepts none. -/
theorem take_accepted (lane : Lane) (otherwise : LoggerPhase) :
    (s.take lane otherwise).accepted = s.accepted := by
  unfold take
  split
  · exact (s.setQueue_rest _ lane).2.2.2.2.1
  · rfl

/-- Only `emit` accepts a line. -/
theorem step_accepted {a : LoggerAction} (h : s.step a = some s')
    (hemit : ∀ lane line, a ≠ .emit lane line) : s'.accepted = s.accepted := by
  cases a with
  | emit lane line => exact (hemit lane line rfl).elim
  | run =>
    dsimp only [step, run] at h
    split at h
    case h_5 =>
      split at h <;> cases h
      exact take_accepted _ _
    all_goals cases h <;> first | rfl | exact take_accepted _ _
  | timeout =>
    dsimp only [step] at h
    split at h <;> cases h
    rfl
  | drop =>
    dsimp only [step, drop] at h
    split at h
    · cases h
      rfl
    · split at h <;> cases h
      rfl
    · split at h <;> cases h
      rfl
    · cases h
  | expire =>
    dsimp only [step] at h
    split at h <;> cases h
    rfl

/-- A guard that is held was held before. -/
theorem Moves.held (h : s.Moves s') (hheld : s'.guard = .held) : s.guard = .held := by
  cases h with
  | @accepts lane line room => exact (s.setQueue_rest _ lane).2.2.2.1 ▸ hheld
  | @takes lane line lines begins first => exact (s.setQueue_rest lines lane).2.2.2.1 ▸ hheld
  | loses | goes | writes | reports => exact hheld
  | stops | collects | joins | expires => cases hheld

/-- An action of a logger that is in use accepts an important line, unless the lane is full. -/
theorem step_important {a : LoggerAction} (hs : Reaches step (· = start) s)
    (h : s.step a = some s') (hheld : s.guard = .held)
    (hfew : (linesOf .important s.accepted).length + (importantLines [a]).length ≤ 16) :
    linesOf .important s'.accepted = linesOf .important s.accepted ++ importantLines [a] := by
  by_cases hemit : ∃ lane line, a = .emit lane line
  · obtain ⟨lane, line, rfl⟩ := hemit
    cases h
    have hopen : s.phase ≠ .ended := by
      intro hover
      have hguarded := reaches_guarded hs
      exact hguarded.stop (hguarded.leaving (hover ▸ .ended)) hheld
    unfold emit
    rw [if_neg hopen]
    cases lane with
    | routine =>
      split
      · show linesOf .important (s.accepted ++ [(.routine, line)]) = _
        rw [linesOf_append]
        rfl
      · exact (List.append_nil _).symm
    | important =>
      -- The lane holds at most the lines that were accepted.
      have hroom : (s.queue .important).length < Lane.important.capacity := by
        have haccount := congrArg List.length ((reaches_kept hs).account .important)
        rw [List.length_append] at haccount
        have hfew : (linesOf .important s.accepted).length + 1 ≤ 16 := hfew
        show _ < 16
        omega
      rw [if_pos hroom]
      show linesOf .important (s.accepted ++ [(.important, line)]) = _
      rw [linesOf_append, linesOf_self]
      rfl
  · have hnone : importantLines [a] = [] := by
      cases a with
      | emit lane line => exact (hemit ⟨lane, line, rfl⟩).elim
      | _ => rfl
    rw [step_accepted h fun lane line ha => hemit ⟨lane, line, ha⟩, hnone, List.append_nil]

/-- The guard is not taken back: who holds it at the end has held it from the start. -/
theorem held_of_run {actions : List LoggerAction} (h : runActions step s actions = some s')
    (hheld : s'.guard = .held) : s.guard = .held := by
  induction actions generalizing s with
  | nil =>
    cases h
    exact hheld
  | cons a actions ih =>
    obtain ⟨s₁, hstep, hrest⟩ := Option.bind_eq_some_iff.mp h
    exact (step_moves hstep).held (ih hrest)

/-- Sixteen important lines are accepted in any run, whatever the sink does. -/
theorem accepts_few {actions : List LoggerAction} (hs : Reaches step (· = start) s)
    (h : runActions step s actions = some s') (hheld : s'.guard = .held)
    (hfew : (linesOf .important s.accepted).length + (importantLines actions).length ≤ 16) :
    linesOf .important s'.accepted = linesOf .important s.accepted ++ importantLines actions := by
  induction actions generalizing s with
  | nil =>
    cases h
    exact (List.append_nil _).symm
  | cons a actions ih =>
    obtain ⟨s₁, hstep, hrest⟩ := Option.bind_eq_some_iff.mp h
    have hsplit : importantLines (a :: actions) = importantLines [a] ++ importantLines actions :=
      List.filterMap_append (l := [a])
    rw [hsplit, List.length_append] at hfew
    have hfirst := step_important hs hstep (held_of_run h hheld) (by omega)
    have hlater := ih (hs.next hstep) hrest (by rw [hfirst, List.length_append]; omega)
    rw [hlater, hfirst, hsplit, List.append_assoc]

end Logger

/-! ### The lines of the program -/

namespace Startup

/-- The lines that the program says through `logging::info`. -/
def infoLines (effects : List Effect) : List Line :=
  effects.filterMap fun
    | .info message => some (emitted "INFO" message)
    | _ => none

/-- The lines of two stretches. -/
theorem infoLines_append (effects effects' : List Effect) :
    infoLines (effects ++ effects') = infoLines effects ++ infoLines effects' :=
  List.filterMap_append

/-- Each message is one line. -/
theorem length_infoLines_infos (messages : List String) :
    (infoLines (messages.map .info)).length = messages.length := by
  unfold infoLines
  rw [List.filterMap_map]
  show (messages.filterMap fun message => some (emitted "INFO" message)).length = _
  rw [List.filterMap_eq_map', List.length_map]

/-- The handlers are registered without a line. -/
theorem infoLines_registers {r : Except IoError Unit} {effects : List Effect}
    (h : Registers r effects) : infoLines effects = [] := by
  cases h <;> rfl

/-- The listeners are bound without a line. -/
theorem infoLines_opens {listen : SocketAddr} {r : Except IoError Unit} {effects : List Effect}
    (h : Opens listen r effects) : infoLines effects = [] := by
  cases h <;> rfl

variable {w : Surroundings} {args : List OsString}

/-- Four lines, one for each route up to the limit, and one about the rest. -/
theorem length_configLines (w : Surroundings) (path : OsString) (config : Config) :
    (configLines w path config).length ≤ 13 := by
  unfold configLines
  rw [List.length_append, List.length_append, List.length_map, List.length_take]
  show 4 + min 8 _ + _ ≤ 13
  split
  · show 4 + min 8 _ + 1 ≤ 13
    omega
  · show 4 + min 8 _ + 0 ≤ 13
    omega

/-- A start says sixteen lines at most. -/
theorem Launched.length_infoLines {path : OsString} {check : Bool} {r : Except String Unit}
    {effects : List Effect} (h : Launched w path check r effects)
    (hserve : ∀ config, Config.load w.formats w.toml (w.file path) = .ok config →
      (w.serve config).2.length ≤ 3) : (infoLines effects).length ≤ 16 := by
  have hload : ∀ rest, infoLines (.load path :: rest) = infoLines rest := fun rest => rfl
  cases h with
  | unloaded => exact Nat.zero_le _
  | @checked config loaded only =>
    have hlines := length_configLines w path config
    rw [hload, infoLines_append, List.length_append, length_infoLines_infos]
    show _ + 1 ≤ 16
    omega
  | @unregistered config error signals loaded message registers =>
    have hlines := length_configLines w path config
    rw [hload, infoLines_append, infoLines_registers registers, List.append_nil,
      length_infoLines_infos]
    omega
  | @unopened config error sockets loaded all message opens =>
    have hlines := length_configLines w path config
    rw [hload, infoLines_append, infoLines_append, infoLines_registers .registered,
      infoLines_opens opens, List.append_nil, List.append_nil, length_infoLines_infos]
    omega
  | @served config r loaded all result =>
    have hlines := length_configLines w path config
    have hnotices := hserve config loaded
    have hserved : ∀ rest, infoLines (.serve :: rest) = infoLines rest := fun rest => rfl
    rw [hload, infoLines_append, infoLines_append, infoLines_append,
      infoLines_registers .registered, infoLines_opens .opened, hserved, List.nil_append,
      List.nil_append, List.length_append, length_infoLines_infos, length_infoLines_infos,
      List.length_map]
    omega

/-- The service runs as `Service` says, on the table of the configuration. -/
def Serves (w : Surroundings) (config : Config) : Prop :=
  ∃ (server : Server) (stop : Bool) (s : Service), server.routing = config.routing ∧
    Reaches (Service.step server) (· = Service.start stop) s ∧
      s.main = .returned (w.serve config).1 ∧ s.notices = (w.serve config).2

/-- So does every run of the program. -/
theorem length_infoLines_exec
    (hserve : ∀ path config, Config.load w.formats w.toml (w.file path) = .ok config →
      Serves w config) (args : List OsString) : (infoLines (exec w args).2).length ≤ 16 := by
  have hthree : ∀ path config, Config.load w.formats w.toml (w.file path) = .ok config →
      (w.serve config).2.length ≤ 3 := by
    intro path config hload
    obtain ⟨server, stop, s, -, hreaches, -, hnotices⟩ := hserve path config hload
    rw [← hnotices]
    exact (Service.reaches_said hreaches).start.length_le
  cases hparse : parseArgs w.debug {} args with
  | error message =>
    unfold exec run
    rw [hparse]
    exact Nat.zero_le _
  | ok request =>
    cases request with
    | help | version =>
      unfold exec run
      rw [hparse]
      exact Nat.zero_le _
    | start path check =>
      obtain ⟨r, effects, hlaunched, hend⟩ := exec_launched hparse
      have hlines := hlaunched.length_infoLines (hthree path)
      rcases hend with ⟨-, hexec⟩ | ⟨message, -, hexec⟩
      · rw [hexec]
        exact hlines
      · rw [hexec, infoLines_append]
        show (infoLines effects ++ []).length ≤ 16
        rw [List.append_nil]
        exact hlines

/-- The lines about the life of the service are not dropped. The program and the service say sixteen
lines at most; and in every run of the logger in which these are the important lines so far, all of
them are accepted, even if the sink blocks and whatever the routine lane holds. -/
theorem lifecycle_kept {actions : List LoggerAction} {s : Logger}
    (hserve : ∀ path config, Config.load w.formats w.toml (w.file path) = .ok config →
      Serves w config)
    (hrun : runActions Logger.step Logger.start actions = some s) (hheld : s.guard = .held)
    (hlines : Logger.importantLines actions <+: infoLines (exec w args).2) :
    linesOf .important s.accepted = Logger.importantLines actions ∧
      (infoLines (exec w args).2).length ≤ 16 := by
  have hsixteen := length_infoLines_exec hserve args
  refine ⟨?_, hsixteen⟩
  have hfew : (linesOf .important Logger.start.accepted).length +
      (Logger.importantLines actions).length ≤ 16 := by
    show 0 + _ ≤ 16
    have hlength := hlines.length_le
    omega
  exact Logger.accepts_few (.start rfl) hrun hheld hfew

/-- Surroundings with the example file, in which every call succeeds. -/
def homeSurroundings : Surroundings where
  formats := Config.homeFormats
  toml := Config.homeToml
  file := fun _ => .ok Config.homeText
  display := fun _ => defaultConfig
  debug := fun _ => "an argument"
  address := fun _ => "127.0.0.1:5300"
  describe := fun _ => "an error"
  register := fun _ => none
  bind := fun _ => none
  setReadTimeout := none
  setWriteTimeout := none
  serve := fun _ => (.ok (), lifecycle)

/-- The service of the example runs as the model says. -/
theorem homeSurroundings_serves (path : OsString) (config : Config)
    (h : Config.load homeSurroundings.formats homeSurroundings.toml (homeSurroundings.file path) =
      .ok config) : Serves homeSurroundings config := by
  have hrun : ((Config.load Config.homeFormats Config.homeToml
      (.ok Config.homeText)).toOption.bind fun config =>
        (runActions (Service.step { Service.idleServer with routing := config.routing })
          (Service.start false) Service.wholeRun).map fun s => (s.main.result, s.notices)) =
            some (some (.ok ()), lifecycle) := by
    decide +kernel
  have hload :
      Config.load Config.homeFormats Config.homeToml (.ok Config.homeText) = .ok config := h
  rw [hload] at hrun
  obtain ⟨config', hconfig, hrest⟩ := Option.bind_eq_some_iff.mp hrun
  cases hconfig
  obtain ⟨s, hs, heq⟩ := Option.map_eq_some_iff.mp hrest
  rw [Prod.mk.injEq] at heq
  exact ⟨{ Service.idleServer with routing := config.routing }, false, s, rfl,
    Reaches.of_run (.start rfl) hs, Main.result_eq_some heq.1, heq.2⟩

/-- The logger thread never runs, and the eight lines of the example are accepted. -/
theorem lifecycle_kept_blocked : ∃ s,
    runActions Logger.step Logger.start
        ((infoLines (exec homeSurroundings []).2).map (LoggerAction.emit .important)) = some s ∧
      (linesOf .important s.accepted).length = 8 ∧
      linesOf .important s.accepted = Logger.importantLines
        ((infoLines (exec homeSurroundings []).2).map (LoggerAction.emit .important)) := by
  have hrun : (runActions Logger.step Logger.start
      ((infoLines (exec homeSurroundings []).2).map (LoggerAction.emit .important))).map (fun s =>
        (s.guard, (linesOf .important s.accepted).length)) = some (.held, 8) := by
    decide +kernel
  obtain ⟨s, hs, heq⟩ := Option.map_eq_some_iff.mp hrun
  rw [Prod.mk.injEq] at heq
  have hlines : Logger.importantLines
      ((infoLines (exec homeSurroundings []).2).map (LoggerAction.emit .important)) <+:
        infoLines (exec homeSurroundings []).2 := by
    unfold Logger.importantLines
    rw [List.filterMap_map]
    show List.filterMap some _ <+: _
    rw [List.filterMap_some]
  exact ⟨s, hs, heq.2, (lifecycle_kept homeSurroundings_serves hs heq.1 hlines).1⟩

end Startup

end Sederial
