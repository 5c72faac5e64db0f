import Sederial.Startup

/-!
# `Sederial.Proofs.StartupRuns`: from the command line to the service

Two results about the program. `parseArgs_iff` is the grammar of the command line: five forms start
the service, and a help or version flag may follow any of them. `listeners_guarded` is about every
run of the program: whatever the surroundings answer, a listener is opened only for an accepted
configuration and behind both signal handlers, never with `--check`, and none stays open when the
service does not start.

`Launched` lists the effects of the program behind the command line, one constructor for each way in
which it ends. `Shape` keeps of them what concerns the listeners.
-/

set_option autoImplicit false

namespace Sederial

open Sederial.Lib

namespace Startup

/-! ### The command line -/

/-- An argument that ends the program early. -/
inductive EndsEarly : OsString → Request → Prop
  | help : EndsEarly (utf8 "--help") .help
  | shortHelp : EndsEarly (utf8 "-h") .help
  | version : EndsEarly (utf8 "--version") .version
  | shortVersion : EndsEarly (utf8 "-V") .version

/-- The loop ends here. -/
inductive StopsAt (options : Options) : List OsString → Request → Prop
  | done : StopsAt options [] (.start options.path options.check)
  | asked {arg : OsString} {args : List OsString} {request : Request}
      (asks : EndsEarly arg request) : StopsAt options (arg :: args) request

/-- The four arguments that end the program early. -/
theorem endsEarly_iff {arg : OsString} {request : Request} : EndsEarly arg request ↔
    (arg = utf8 "--help" ∨ arg = utf8 "-h") ∧ request = .help ∨
      (arg = utf8 "--version" ∨ arg = utf8 "-V") ∧ request = .version := by
  constructor
  · intro h
    cases h with
    | help => exact .inl ⟨.inl rfl, rfl⟩
    | shortHelp => exact .inl ⟨.inr rfl, rfl⟩
    | version => exact .inr ⟨.inl rfl, rfl⟩
    | shortVersion => exact .inr ⟨.inr rfl, rfl⟩
  · intro h
    rcases h with ⟨rfl | rfl, rfl⟩ | ⟨rfl | rfl, rfl⟩
    · exact .help
    · exact .shortHelp
    · exact .version
    · exact .shortVersion

variable {debug : OsString → String} {options : Options} {args : List OsString} {request : Request}

/-- An argument that ends the program early is answered at once. -/
theorem parseArgs_asked {arg : OsString} (h : EndsEarly arg request) :
    parseArgs debug options (arg :: args) = .ok request := by
  cases h with
  | help =>
    unfold parseArgs
    exact if_pos (.inl rfl)
  | shortHelp =>
    unfold parseArgs
    exact if_pos (.inr rfl)
  | version =>
    unfold parseArgs
    rw [if_neg (by decide)]
    exact if_pos (.inl rfl)
  | shortVersion =>
    unfold parseArgs
    rw [if_neg (by decide)]
    exact if_pos (.inr rfl)

/-- `--config` takes the next argument as the path. -/
theorem parseArgs_config {path : OsString} (hunseen : options.seenConfig = false) :
    parseArgs debug options (utf8 "--config" :: path :: args) =
      parseArgs debug { options with path := path, seenConfig := true } args := by
  conv_lhs => unfold parseArgs
  rw [if_neg (by decide), if_neg (by decide), if_pos ⟨rfl, hunseen⟩]

/-- `--check` is a switch. -/
theorem parseArgs_check (hunseen : options.check = false) :
    parseArgs debug options (utf8 "--check" :: args) =
      parseArgs debug { options with check := true } args := by
  conv_lhs => unfold parseArgs
  rw [if_neg (by decide), if_neg (by decide), if_neg (fun h => absurd h.1 (by decide)),
    if_pos ⟨rfl, hunseen⟩]

/-- One turn of the loop. -/
theorem parseArgs_turn : parseArgs debug options args = .ok request ↔ StopsAt options args request ∨
    (options.seenConfig = false ∧ ∃ path rest, args = utf8 "--config" :: path :: rest ∧
      parseArgs debug { options with path := path, seenConfig := true } rest = .ok request) ∨
    options.check = false ∧ ∃ rest, args = utf8 "--check" :: rest ∧
      parseArgs debug { options with check := true } rest = .ok request := by
  constructor
  · intro h
    cases args with
    | nil =>
      cases h
      exact .inl .done
    | cons arg args =>
      -- The comparisons of the source, in its order.
      unfold parseArgs at h
      split at h
      · rename_i hhelp
        cases h
        exact .inl (.asked (endsEarly_iff.mpr (.inl ⟨hhelp, rfl⟩)))
      · split at h
        · rename_i hversion
          cases h
          exact .inl (.asked (endsEarly_iff.mpr (.inr ⟨hversion, rfl⟩)))
        -- `--config` takes the next argument, which must be there.
        · split at h
          · rename_i hconfig
            obtain ⟨rfl, hunseen⟩ := hconfig
            split at h
            · cases h
            · exact .inr (.inl ⟨hunseen, _, _, rfl, h⟩)
          · split at h
            · rename_i hcheck
              obtain ⟨rfl, hunseen⟩ := hcheck
              exact .inr (.inr ⟨hunseen, _, rfl, h⟩)
            · cases h
  · intro h
    rcases h with hends | ⟨hunseen, path, rest, rfl, h⟩ | ⟨hunseen, rest, rfl, h⟩
    · cases hends with
      | done => rfl
      | asked asks => exact parseArgs_asked asks
    · rwa [parseArgs_config hunseen]
    · rwa [parseArgs_check hunseen]

/-- The command lines that start the service, with the path and whether they only check it. -/
inductive Spelled : List OsString → OsString → Bool → Prop
  | plain : Spelled [] (utf8 defaultConfig) false
  | check : Spelled [utf8 "--check"] (utf8 defaultConfig) true
  | config (path : OsString) : Spelled [utf8 "--config", path] path false
  | configCheck (path : OsString) : Spelled [utf8 "--config", path, utf8 "--check"] path true
  | checkConfig (path : OsString) : Spelled [utf8 "--check", utf8 "--config", path] path true

/-- Some words, and then the end of the loop. -/
theorem ends_behind {words : List OsString} {path : OsString} {check : Bool} {seen : Bool}
    (hspelled : Spelled words path check) (h : StopsAt ⟨path, seen, check⟩ args request) :
    (∃ path check, Spelled (words ++ args) path check ∧ request = .start path check) ∨
      ∃ words' arg rest path check, words ++ args = words' ++ arg :: rest ∧
        Spelled words' path check ∧ EndsEarly arg request := by
  cases h with
  | done =>
    rw [List.append_nil]
    exact .inl ⟨path, check, hspelled, rfl⟩
  | asked asks => exact .inr ⟨words, _, _, path, check, rfl, hspelled, asks⟩

/-- The loop behind some words. -/
theorem parseArgs_spelled (debug : OsString → String) {words : List OsString} {path : OsString}
    {check : Bool} (h : Spelled words path check) : ∃ seen, ∀ args,
      parseArgs debug {} (words ++ args) = parseArgs debug ⟨path, seen, check⟩ args := by
  cases h with
  | plain => exact ⟨false, fun args => rfl⟩
  | check => exact ⟨false, fun args => parseArgs_check rfl⟩
  | config path => exact ⟨true, fun args => parseArgs_config rfl⟩
  | configCheck path =>
    exact ⟨true, fun args => (parseArgs_config rfl).trans (parseArgs_check rfl)⟩
  | checkConfig path =>
    exact ⟨true, fun args => (parseArgs_check rfl).trans (parseArgs_config rfl)⟩

/-- The grammar of the command line: it is one of five forms, or it asks for the help or the version
behind one of them. Everything else is an error. -/
theorem parseArgs_iff (debug : OsString → String) (args : List OsString) (request : Request) :
    parseArgs debug {} args = .ok request ↔
      (∃ path check, Spelled args path check ∧ request = .start path check) ∨
        ∃ words arg rest path check, args = words ++ arg :: rest ∧ Spelled words path check ∧
          EndsEarly arg request := by
  constructor
  · intro h
    -- Each option is taken once at most, so the loop makes three turns at most.
    rcases parseArgs_turn.mp h with he | ⟨-, path, rest, rfl, hrest⟩ | ⟨-, rest, rfl, hrest⟩
    · exact ends_behind .plain he
    · rcases parseArgs_turn.mp hrest with he | ⟨hseen, -⟩ | ⟨-, rest', rfl, hlast⟩
      · exact ends_behind (.config path) he
      · cases hseen
      · rcases parseArgs_turn.mp hlast with he | ⟨hseen, -⟩ | ⟨hseen, -⟩
        · exact ends_behind (.configCheck path) he
        · cases hseen
        · cases hseen
    · rcases parseArgs_turn.mp hrest with he | ⟨-, path, rest', rfl, hlast⟩ | ⟨hseen, -⟩
      · exact ends_behind .check he
      · rcases parseArgs_turn.mp hlast with he | ⟨hseen, -⟩ | ⟨hseen, -⟩
        · exact ends_behind (.checkConfig path) he
        · cases hseen
        · cases hseen
      · cases hseen
  · intro h
    rcases h with ⟨path, check, hspelled, rfl⟩ | ⟨words, arg, rest, path, check, rfl, hspelled, ha⟩
    · obtain ⟨seen, hrest⟩ := parseArgs_spelled debug hspelled
      have hall := hrest []
      rw [List.append_nil] at hall
      exact hall
    · obtain ⟨seen, hrest⟩ := parseArgs_spelled debug hspelled
      rw [hrest]
      exact parseArgs_asked ha

/-! ### The effects of a run -/

/-- What `Server::bind` does: both listeners are open, or none is. -/
inductive Opens (listen : SocketAddr) : Except IoError Unit → List Effect → Prop
  | udpFails (error : IoError) : Opens listen (.error error) []
  | tcpFails (error : IoError) : Opens listen (.error error) [.bind .udp listen, .close .udp]
  | timeoutFails (error : IoError) : Opens listen (.error error)
      [.bind .udp listen, .bind .tcp listen, .close .tcp, .close .udp]
  | opened : Opens listen (.ok ()) [.bind .udp listen, .bind .tcp listen]

/-- What the loop over the signals does. -/
inductive Registers : Except IoError Unit → List Effect → Prop
  | termFails (error : IoError) : Registers (.error error) []
  | intFails (error : IoError) : Registers (.error error) [.register .term]
  | registered : Registers (.ok ()) [.register .term, .register .int]

variable {w : Surroundings} {config : Config}

/-- An effect is logged as it is. -/
theorem tell_traced {ε : Type} (effect : Effect) :
    Traced (fun _ => True) (tell effect : Run (List Effect) ε Unit) fun r new =>
      ∃ u, r = .ok u ∧ new = [effect] :=
  .modify fun _ _ => ⟨trivial, [effect], rfl, (), rfl, rfl⟩

/-- Lines of information are logged in order. -/
theorem inform_traced {ε : Type} (messages : List String) :
    Traced (fun _ => True) (inform messages : Run (List Effect) ε Unit) fun r new =>
      ∃ u, r = .ok u ∧ new = messages.map Effect.info :=
  .modify fun _ _ => ⟨trivial, _, rfl, (), rfl, rfl⟩

/-- `Server::bind` binds UDP first and then TCP, and closes what it has bound when it fails. -/
theorem bindServer_opens : Traced (fun _ => True) (bindServer w config) (Opens config.listen) := by
  intro s _
  refine ⟨trivial, ?_⟩
  unfold bindServer
  cases w.bind .udp with
  | some error => exact ⟨[], (List.append_nil s).symm, .udpFails error⟩
  | none =>
    cases w.bind .tcp with
    | some error => exact ⟨_, List.append_assoc _ [_] [_], .tcpFails error⟩
    | none =>
      have htwo : ∀ rest,
          ((s ++ [.bind .udp config.listen]) ++ [.bind .tcp config.listen]) ++ rest =
            s ++ ([.bind .udp config.listen, .bind .tcp config.listen] ++ rest) := by
        intro rest
        rw [List.append_assoc, List.append_assoc]
        rfl
      cases w.setReadTimeout with
      | some error => exact ⟨_, htwo _, .timeoutFails error⟩
      | none =>
        cases w.setWriteTimeout with
        | some error => exact ⟨_, htwo _, .timeoutFails error⟩
        | none => exact ⟨_, List.append_assoc _ _ _, .opened⟩

/-- The handlers are registered for SIGTERM first and then for SIGINT. -/
theorem register_registers :
    Traced (fun _ => True) (register w [.term, .int]) Registers := by
  intro s _
  refine ⟨trivial, ?_⟩
  unfold register
  cases w.register .term with
  | some error => exact ⟨[], (List.append_nil s).symm, .termFails error⟩
  | none =>
    unfold register
    cases w.register .int with
    | some error => exact ⟨_, rfl, .intFails error⟩
    | none => exact ⟨_, List.append_assoc _ _ _, .registered⟩

/-- The effects of the program behind the command line. -/
inductive Launched (w : Surroundings) (path : OsString) (check : Bool) :
    Except String Unit → List Effect → Prop
  | unloaded (message : String) : Launched w path check (.error message) [.load path]
  | checked {config : Config}
      (loaded : Config.load w.formats w.toml (w.file path) = .ok config) (only : check = true) :
      Launched w path check (.ok ()) (.load path ::
        ((configLines w path config).map .info ++ [.info "configuration valid"]))
  | unregistered {config : Config} {error : IoError} {signals : List Effect}
      (loaded : Config.load w.formats w.toml (w.file path) = .ok config) (message : String)
      (registers : Registers (.error error) signals) :
      Launched w path check (.error message)
        (.load path :: ((configLines w path config).map .info ++ signals))
  | unopened {config : Config} {error : IoError} {sockets : List Effect}
      (loaded : Config.load w.formats w.toml (w.file path) = .ok config) (all : check = false)
      (message : String) (opens : Opens config.listen (.error error) sockets) :
      Launched w path check (.error message)
        (.load path :: ((configLines w path config).map .info ++
          ([.register .term, .register .int] ++ sockets)))
  | served {config : Config} {r : Except String Unit}
      (loaded : Config.load w.formats w.toml (w.file path) = .ok config) (all : check = false)
      (result : r.isOk = (w.serve config).1.isOk) :
      Launched w path check r (.load path :: ((configLines w path config).map .info ++
        ([.register .term, .register .int] ++
          ([.bind .udp config.listen, .bind .tcp config.listen] ++
            (.serve :: ((w.serve config).2.map (describeNotice w config)).map .info)))))

/-- Both handlers are registered, or the start fails. -/
theorem registers_traced {f : IoError → String} :
    Traced (fun _ => True) (Run.mapError f (register w [.term, .int])) fun r new =>
      (r = .ok () ∧ new = [.register .term, .register .int]) ∨
        ∃ message error, r = .error message ∧ Registers (.error error) new := by
  refine register_registers.mapError (fun _ new h => ?_) fun error new h => ?_
  · cases h
    exact .inl ⟨rfl, rfl⟩
  · exact .inr ⟨_, error, rfl, h⟩

/-- Both sockets are bound, or the start fails. -/
theorem opens_traced {f : IoError → String} :
    Traced (fun _ => True) (Run.mapError f (bindServer w config)) fun r new =>
      (r = .ok () ∧ new = [.bind .udp config.listen, .bind .tcp config.listen]) ∨
        ∃ message error, r = .error message ∧ Opens config.listen (.error error) new := by
  refine bindServer_opens.mapError (fun _ new h => ?_) fun error new h => ?_
  · cases h
    exact .inl ⟨rfl, rfl⟩
  · exact .inr ⟨_, error, rfl, h⟩

/-- What `run` returns and reports is passed on. -/
theorem serve_traced {f : IoError → String} :
    Traced (fun _ => True) (Run.mapError f (serve w config)) fun r new =>
      r.isOk = (w.serve config).1.isOk ∧
        new = .serve :: ((w.serve config).2.map (describeNotice w config)).map .info := by
  have hserve : Traced (fun _ => True) (serve w config) fun r new => r = (w.serve config).1 ∧
      new = .serve :: ((w.serve config).2.map (describeNotice w config)).map .info := by
    refine (tell_traced _).bind_ok fun _ _ hfirst => ?_
    subst hfirst
    refine (inform_traced _).bind_ok fun _ _ hlines => ?_
    subst hlines
    exact .ofExcept ⟨rfl, by rw [List.append_nil]; rfl⟩
  refine hserve.mapError (fun u new h => ?_) fun error new h => ?_
  · exact ⟨congrArg Except.isOk h.1, h.2⟩
  · refine ⟨?_, h.2⟩
    rw [← h.1]
    rfl

/-- The steps of a start, in order, up to the one that fails. -/
theorem launch_launched (path : OsString) (check : Bool) :
    Traced (fun _ => True) (launch w path check) (Launched w path check) := by
  -- The steps of `run` in the order of the source. Each that fails ends the launch.
  refine (tell_traced _).bind_ok fun _ _ hload => ?_
  subst hload
  cases hconfig : Config.load w.formats w.toml (w.file path) with
  | error e => exact .ofExcept (.unloaded _)
  | ok config =>
    refine (Traced.ofExcept (R := fun r new => ∃ c, r = .ok c ∧ c = config ∧ new = [])
      ⟨config, rfl, rfl, rfl⟩).bind_ok fun c none hc => ?_
    obtain ⟨rfl, rfl⟩ := hc
    refine (inform_traced _).bind_ok fun _ _ hlines => ?_
    subst hlines
    split
    · rename_i hcheck
      refine (inform_traced _).mono fun r new h => ?_
      obtain ⟨u, rfl, rfl⟩ := h
      exact .checked hconfig hcheck
    -- Without `--check` the signals are registered first.
    · rename_i hcheck
      have hall : check = false := Bool.eq_false_iff.mpr hcheck
      refine registers_traced.bind (fun m signals h => ?_) fun _ signals h => ?_
      · rcases h with ⟨h, -⟩ | ⟨message, error, -, hregisters⟩
        · cases h
        · exact .unregistered hconfig m hregisters
      rcases h with ⟨-, rfl⟩ | ⟨message, error, h, -⟩
      -- Then the sockets are opened, and only then does the service run.
      · refine opens_traced.bind (fun m sockets h => ?_) fun _ sockets h => ?_
        · rcases h with ⟨h, -⟩ | ⟨message, error, -, hopens⟩
          · cases h
          · exact .unopened hconfig hall m hopens
        rcases h with ⟨-, rfl⟩ | ⟨message, error, h, -⟩
        · refine serve_traced.mono fun r new h => ?_
          obtain ⟨hresult, rfl⟩ := h
          exact .served hconfig hall hresult
        · cases h
      · cases h

/-- Effects that concern the listeners. -/
inductive ListenerEffect : Effect → Prop
  | bind (transport : Transport) (address : SocketAddr) : ListenerEffect (.bind transport address)
  | close (transport : Transport) : ListenerEffect (.close transport)
  | serve : ListenerEffect .serve

/-- A socket of this transport is bound. -/
def binds (transport : Transport) : Effect → Bool
  | .bind transport' _ => transport' = transport
  | _ => false

/-- Effects that do not concern the listeners. -/
def Aside (effects : List Effect) : Prop := ∀ e ∈ effects, ¬ ListenerEffect e

/-- Two stretches that do not concern the listeners. -/
theorem Aside.append {effects effects' : List Effect} (h : Aside effects) (h' : Aside effects') :
    Aside (effects ++ effects') := by
  intro e he
  rcases List.mem_append.mp he with he | he
  · exact h e he
  · exact h' e he

/-- Lines of information do not concern the listeners. -/
theorem aside_infos (messages : List String) : Aside (messages.map .info) := by
  intro e he hlistens
  obtain ⟨message, -, rfl⟩ := List.mem_map.mp he
  cases hlistens

/-- Nor do the signal handlers. -/
theorem aside_registers {r : Except IoError Unit} {effects : List Effect}
    (h : Registers r effects) : Aside effects := by
  intro e he hlistens
  cases h with
  | termFails => cases he
  | intFails =>
    cases List.mem_singleton.mp he
    cases hlistens
  | registered =>
    rcases List.mem_pair.mp he with rfl | rfl <;> cases hlistens

/-- Such a stretch binds nothing, closes nothing and serves nothing. -/
theorem Aside.counts {effects : List Effect} (h : Aside effects) (transport : Transport) :
    effects.countP (binds transport) = 0 ∧ effects.count (.close transport) = 0 ∧
      .serve ∉ effects := by
  refine ⟨?_, ?_, fun hserve => h _ hserve .serve⟩
  · rw [List.countP_eq_zero]
    intro e he hbinds
    cases e with
    | bind transport' address => exact h _ he (.bind transport' address)
    | _ => cases hbinds
  · rw [List.count_eq_zero]
    exact fun hclose => h _ hclose (.close transport)

/-- The listeners are ready to be opened: the configuration is accepted and both handlers are
installed. -/
structure Ready (w : Surroundings) (args : List OsString) (before : List Effect)
    (config : Config) : Prop where
  loaded : ∃ path, parseArgs w.debug {} args = .ok (.start path false) ∧
    Config.load w.formats w.toml (w.file path) = .ok config
  term : .register .term ∈ before
  int : .register .int ∈ before

/-- What a run does with the listeners, with what it does before and behind. -/
inductive Shape (w : Surroundings) (args : List OsString) : List Effect → Prop
  | closed {effects : List Effect} (aside : Aside effects) : Shape w args effects
  | unopened {config : Config} {before sockets after : List Effect} {error : IoError}
      (first : Aside before) (ready : Ready w args before config)
      (opens : Opens config.listen (.error error) sockets) (last : Aside after) :
      Shape w args (before ++ (sockets ++ after))
  | served {config : Config} {before after : List Effect} (first : Aside before)
      (ready : Ready w args before config) (last : Aside after) :
      Shape w args (before ++
        ([.bind .udp config.listen, .bind .tcp config.listen, .serve] ++ after))

/-- A line may follow. -/
theorem Shape.append {effects after : List Effect} (h : Shape w args effects)
    (hafter : Aside after) : Shape w args (effects ++ after) := by
  cases h with
  | closed aside => exact .closed (aside.append hafter)
  | unopened first ready opens last =>
    rw [List.append_assoc, List.append_assoc]
    exact .unopened first ready opens (last.append hafter)
  | served first ready last =>
    rw [List.append_assoc, List.append_assoc]
    exact .served first ready (last.append hafter)

/-- A start has the shape of a program. -/
theorem Launched.shape {path : OsString} {check : Bool} {r : Except String Unit}
    {effects : List Effect} (h : Launched w path check r effects)
    (hparse : parseArgs w.debug {} args = .ok (.start path check)) : Shape w args effects := by
  -- Before the first socket nothing is opened or closed.
  have hload : Aside [.load path] := by
    intro e he hlistens
    cases List.mem_singleton.mp he
    cases hlistens
  have hfirst : ∀ config, Aside (.load path :: (configLines w path config).map .info) :=
    fun config => hload.append (aside_infos (configLines w path config))
  have hregistered : ∀ config, Aside (.load path :: ((configLines w path config).map .info ++
      [.register .term, .register .int])) :=
    fun config => (hfirst config).append (aside_registers .registered)
  have hready : ∀ config, Config.load w.formats w.toml (w.file path) = .ok config →
      check = false → Ready w args (.load path :: ((configLines w path config).map .info ++
        [.register .term, .register .int])) config := by
    intro config hloaded hcheck
    subst hcheck
    refine ⟨⟨path, hparse, hloaded⟩, ?_, ?_⟩
    · exact List.mem_cons_of_mem _ (List.mem_append_right _ List.mem_cons_self)
    · exact List.mem_cons_of_mem _ (List.mem_append_right _ (List.mem_cons_of_mem _
        List.mem_cons_self))
  cases h with
  -- Each way out has its own shape: nothing was opened, all was closed again, or the service ran.
  | unloaded => exact .closed hload
  | @checked config loaded only => exact .closed ((hfirst config).append (aside_infos [_]))
  | @unregistered config error signals loaded message registers =>
    exact .closed ((hfirst config).append (aside_registers registers))
  | @unopened config error sockets loaded all message opens =>
    have hshape := Shape.unopened (hregistered config) (hready config loaded all) opens
      (fun e he => nomatch he : Aside [])
    rw [List.append_nil, List.cons_append, List.append_assoc] at hshape
    exact hshape
  | @served config r loaded all result =>
    have hshape := Shape.served (hregistered config) (hready config loaded all)
      (aside_infos ((w.serve config).2.map (describeNotice w config)))
    rw [List.cons_append, List.append_assoc] at hshape
    exact hshape

/-- How a run ends. -/
theorem exec_launched {path : OsString} {check : Bool}
    (hparse : parseArgs w.debug {} args = .ok (.start path check)) :
    ∃ r effects, Launched w path check r effects ∧ (r = .ok () ∧ exec w args = (0, effects) ∨
      ∃ message, r = .error message ∧ exec w args = (1, effects ++ [.error message])) := by
  obtain ⟨-, effects, hlog, hlaunched⟩ := launch_launched (w := w) path check [] trivial
  have hrun : run w args = launch w path check := by
    unfold run
    rw [hparse]
  have hlog : ((launch w path check).exec []).2 = effects := hlog
  refine ⟨_, effects, hlaunched, ?_⟩
  unfold exec
  rw [hrun]
  rcases hexec : (launch w path check).exec [] with ⟨message | u, final⟩
  · rw [hexec] at hlog
    subst hlog
    exact .inr ⟨message, rfl, rfl⟩
  · rw [hexec] at hlog
    subst hlog
    exact .inl ⟨rfl, rfl⟩

/-- An error message does not concern the listeners. -/
theorem aside_error (message : String) : Aside [.error message] := by
  intro e he hlistens
  cases List.mem_singleton.mp he
  cases hlistens

/-- Every run of the program has that shape. -/
theorem exec_shape (w : Surroundings) (args : List OsString) : Shape w args (exec w args).2 := by
  cases hparse : parseArgs w.debug {} args with
  | error message =>
    have hexec : exec w args = (1, [.error message]) := by
      unfold exec run
      rw [hparse]
      rfl
    rw [hexec]
    exact .closed (aside_error message)
  | ok request =>
    cases request with
    | help =>
      have hexec : exec w args = (0, [.print helpText]) := by
        unfold exec run
        rw [hparse]
        rfl
      rw [hexec]
      refine .closed fun e he hlistens => ?_
      cases List.mem_singleton.mp he
      cases hlistens
    | version =>
      have hexec : exec w args = (0, [.print versionText]) := by
        unfold exec run
        rw [hparse]
        rfl
      rw [hexec]
      refine .closed fun e he hlistens => ?_
      cases List.mem_singleton.mp he
      cases hlistens
    | start path check =>
      obtain ⟨r, effects, hlaunched, hend⟩ := exec_launched hparse
      have hshape := hlaunched.shape hparse
      -- The error that `main` prints opens and closes nothing.
      rcases hend with ⟨-, hexec⟩ | ⟨message, -, hexec⟩
      · rw [hexec]
        exact hshape
      · rw [hexec]
        exact hshape.append (aside_error message)

/-- A socket is bound at the address of the configuration. -/
theorem Opens.bind_mem {listen : SocketAddr} {r : Except IoError Unit} {sockets : List Effect}
    (h : Opens listen r sockets) {transport : Transport} {address : SocketAddr}
    (hmem : .bind transport address ∈ sockets) : address = listen := by
  cases h with
  | udpFails => cases hmem
  | tcpFails | timeoutFails | opened =>
    simp only [List.mem_cons, Effect.bind.injEq, reduceCtorEq, List.not_mem_nil, or_false] at hmem
    first | exact hmem.2 | exact hmem.elim And.right And.right

/-- Every listener that was opened is closed when another step fails. -/
theorem Opens.balanced {listen : SocketAddr} {error : IoError} {sockets : List Effect}
    (h : Opens listen (.error error) sockets) (transport : Transport) :
    sockets.countP (binds transport) = sockets.count (.close transport) ∧ .serve ∉ sockets := by
  cases h <;> cases transport <;> simp [binds]

/-- A listener is closed behind the step that opened it, and once. -/
theorem Opens.closes {listen : SocketAddr} {r : Except IoError Unit}
    {sockets pre post : List Effect} (h : Opens listen r sockets) {transport : Transport}
    (hsplit : sockets = pre ++ .close transport :: post) :
    .close transport ∉ pre ∧ .bind transport listen ∈ pre := by
  -- There are four steps at most, so every place of the close is looked at.
  cases h <;> cases transport <;> simp [List.cons_eq_append_iff] at hsplit ⊢ <;> aesop

/-- A stretch that does not concern the listeners has no effect that does. -/
theorem Aside.not_mem_split {effects pre post : List Effect} {e : Effect} (h : Aside effects)
    (he : ListenerEffect e) : effects ≠ pre ++ e :: post := by
  rintro rfl
  exact h e (List.mem_append_right _ List.mem_cons_self) he

/-- In every run a listener is closed behind the step that opened it, and once. -/
theorem Shape.closes {effects pre post : List Effect} (h : Shape w args effects)
    {transport : Transport} (hsplit : effects = pre ++ .close transport :: post) :
    .close transport ∉ pre ∧ ∃ address, .bind transport address ∈ pre := by
  -- The close lies among the sockets, and nothing before them concerns a listener.
  have hwithin : ∀ {before sockets after : List Effect}, Aside before → Aside after →
      before ++ (sockets ++ after) = pre ++ .close transport :: post →
      ∃ mid rest, pre = before ++ mid ∧ sockets = mid ++ .close transport :: rest := by
    intro before sockets after hfirst hlast heq
    rcases append_eq_append_cons heq with ⟨mid, hbefore, -⟩ | ⟨mid, rfl, hmid⟩
    · exact (hfirst.not_mem_split (.close transport) hbefore).elim
    · rcases append_eq_append_cons hmid with ⟨rest, hsockets, -⟩ | ⟨rest, -, hafter⟩
      · exact ⟨mid, rest, rfl, hsockets⟩
      · exact (hlast.not_mem_split (.close transport) hafter).elim
  cases h with
  | closed aside => exact (aside.not_mem_split (.close transport) hsplit).elim
  | @unopened config before sockets after error first ready opens last =>
    obtain ⟨mid, rest, rfl, hsockets⟩ := hwithin first last hsplit
    obtain ⟨hclose, hbind⟩ := opens.closes hsockets
    refine ⟨fun hmem => ?_, config.listen, List.mem_append_right _ hbind⟩
    rcases List.mem_append.mp hmem with hmem | hmem
    · exact first _ hmem (.close transport)
    · exact hclose hmem
  | @served config before after first ready last =>
    obtain ⟨mid, rest, rfl, hsockets⟩ := hwithin first last hsplit
    have hmem : Effect.close transport ∈
        [.bind .udp config.listen, .bind .tcp config.listen, .serve] := by
      rw [hsockets]
      exact List.mem_append_right _ List.mem_cons_self
    simp at hmem

/-- Whatever the surroundings answer, a listener is opened only on the address of an accepted
configuration, without `--check`, and behind both signal handlers. A listener is closed once, behind
the step that opened it. When the service does not start every listener that was opened is closed;
when it starts both are open. -/
theorem listeners_guarded (w : Surroundings) (args : List OsString) :
    (∀ pre post transport address,
      (exec w args).2 = pre ++ .bind transport address :: post →
        ∃ config, Ready w args pre config ∧ address = config.listen) ∧
      (∀ pre post transport, (exec w args).2 = pre ++ .close transport :: post →
        .close transport ∉ pre ∧ ∃ address, .bind transport address ∈ pre) ∧
      ∀ transport, (.serve ∉ (exec w args).2 →
          (exec w args).2.countP (binds transport) = (exec w args).2.count (.close transport)) ∧
        (.serve ∈ (exec w args).2 → (exec w args).2.countP (binds transport) = 1 ∧
          .close transport ∉ (exec w args).2) := by
  have hshape := exec_shape w args
  generalize (exec w args).2 = effects at hshape
  have hcloses : ∀ pre post transport, effects = pre ++ .close transport :: post →
      .close transport ∉ pre ∧ ∃ address, .bind transport address ∈ pre :=
    fun pre post transport => hshape.closes
  -- The handlers are among what comes before the first listener.
  have hbefore : ∀ {before rest pre post : List Effect} {config transport address},
      Aside before → Ready w args before config →
      before ++ rest = pre ++ .bind transport address :: post → Ready w args pre config := by
    intro before rest pre post config transport address hfirst hready h
    rcases append_eq_append_cons h with ⟨mid, hin, -⟩ | ⟨mid, rfl, -⟩
    · exact (hfirst.not_mem_split (.bind transport address) hin).elim
    · exact ⟨hready.loaded, List.mem_append_left _ hready.term,
        List.mem_append_left _ hready.int⟩
  -- A listener is opened on the address of the configuration.
  have haddress : ∀ {before sockets after pre post : List Effect} {transport address},
      Aside before → Aside after →
      before ++ (sockets ++ after) = pre ++ .bind transport address :: post →
      .bind transport address ∈ sockets := by
    intro before sockets after pre post transport address hfirst hlast h
    have hmem : .bind transport address ∈ before ++ (sockets ++ after) := by
      rw [h]
      exact List.mem_append_right _ List.mem_cons_self
    rcases List.mem_append.mp hmem with hmem | hmem
    · exact (hfirst _ hmem (.bind transport address)).elim
    · rcases List.mem_append.mp hmem with hmem | hmem
      · exact hmem
      · exact (hlast _ hmem (.bind transport address)).elim
  cases hshape with
  | closed aside =>
    refine ⟨fun pre post transport address h => ?_, hcloses, fun transport => ?_⟩
    · exact (aside _ (h ▸ List.mem_append_right _ List.mem_cons_self)
        (.bind transport address)).elim
    · obtain ⟨hbinds, hcloses, hserve⟩ := aside.counts transport
      exact ⟨fun _ => hbinds.trans hcloses.symm, fun h => (hserve h).elim⟩
  | @unopened config before sockets after error first ready opens last =>
    refine ⟨fun pre post transport address h => ⟨config, hbefore first ready h, ?_⟩,
      hcloses, fun transport => ⟨fun _ => ?_, fun hserve => ?_⟩⟩
    · exact opens.bind_mem (haddress first last h)
    · obtain ⟨hbinds, hcloses, -⟩ := first.counts transport
      obtain ⟨hbinds', hcloses', -⟩ := last.counts transport
      rw [List.countP_append, List.countP_append, List.count_append, List.count_append, hbinds,
        hcloses, hbinds', hcloses', (opens.balanced transport).1]
    · rcases List.mem_append.mp hserve with hserve | hserve
      · exact ((first.counts transport).2.2 hserve).elim
      · rcases List.mem_append.mp hserve with hserve | hserve
        · exact ((opens.balanced transport).2 hserve).elim
        · exact ((last.counts transport).2.2 hserve).elim
  | @served config before after first ready last =>
    refine ⟨fun pre post transport address h => ⟨config, hbefore first ready h, ?_⟩,
      hcloses, fun transport => ⟨fun hserve => ?_, fun _ => ⟨?_, ?_⟩⟩⟩
    · have hmem := haddress first last h
      simp only [List.mem_cons, Effect.bind.injEq, reduceCtorEq, List.not_mem_nil, or_false] at hmem
      exact hmem.elim And.right And.right
    · refine (hserve ?_).elim
      refine List.mem_append_right _ (List.mem_append_left _ ?_)
      exact List.mem_cons_of_mem _ (List.mem_cons_of_mem _ List.mem_cons_self)
    · rw [List.countP_append, List.countP_append, (first.counts transport).1,
        (last.counts transport).1]
      cases transport <;> rfl
    · intro hclose
      rcases List.mem_append.mp hclose with hclose | hclose
      · exact first _ hclose (.close transport)
      · rcases List.mem_append.mp hclose with hclose | hclose
        · simp only [List.mem_cons, reduceCtorEq, List.not_mem_nil, or_false] at hclose
        · exact last _ hclose (.close transport)

end Startup

end Sederial
