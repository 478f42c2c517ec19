import DerivedQuery.Command.Run
import DerivedQuery.Proofs.Engine.Walk

/-!
# Work of commands on files that stay as they are

Until it answers, a command is silent: it writes no line of output, and how it ends does not depend on
what has been written before (`CommandM.Silent`). What is put together from silent work is silent, so
being silent is a class, and silent work goes on like a computation that may fail
(`CommandM.ending_bind`). All that counts of it is how it ends.

`ending_load`, `ending_seededStore` and `ending_outcomeOf` say this for a configuration, its store and the
outcome of a call.
-/

namespace DerivedQuery.Command

variable {α β : Type}

namespace CommandM

/-- How work ends, and the transcript it leaves. -/
def runOn (work : CommandM Id α) (transcript : Transcript) : Except CommandError α × Transcript :=
  (ExceptT.run work).run transcript

/-- Work goes on with the transcript that the work before it leaves, unless that has failed. -/
theorem runOn_bind (work : CommandM Id α) (next : α → CommandM Id β) (transcript : Transcript) :
    (work >>= next).runOn transcript =
      match work.runOn transcript with
      | (.ok a, later) => (next a).runOn later
      | (.error error, later) => (.error error, later) := by
  simp only [runOn, ExceptT.run_bind, StateT.run_bind]
  change (match (ExceptT.run work).run transcript with | (a, t) => _) = _
  rcases (ExceptT.run work).run transcript with ⟨a | a, t⟩ <;> rfl

/-- Work that is caught goes on with the handler and the transcript that it leaves. -/
theorem runOn_tryCatch (work : CommandM Id α) (handle : CommandError → CommandM Id α)
    (transcript : Transcript) :
    (tryCatch work handle).runOn transcript =
      match work.runOn transcript with
      | (.ok a, later) => (.ok a, later)
      | (.error error, later) => (handle error).runOn later := by
  simp only [runOn, ExceptT.run, tryCatch, tryCatchThe, MonadExceptOf.tryCatch, ExceptT.tryCatch,
    ExceptT.mk]
  rw [StateT.run_bind]
  change (match StateT.run work transcript with | (a, t) => _) = _
  rcases StateT.run work transcript with ⟨error | a, later⟩
  · rfl
  · rfl

/-! ## Silent work -/

/-- How work ends if nothing has been written before. -/
def ending (work : CommandM Id α) : Except CommandError α := (work.runOn {}).1

/-- The work writes no line of output and ends as it would if nothing had been written before. -/
class Silent (work : CommandM Id α) : Prop where
  ends : ∀ transcript, (work.runOn transcript).1 = work.ending
  output : ∀ transcript, (work.runOn transcript).2.output = transcript.output

variable (work : CommandM Id α) (next : α → CommandM Id β)

theorem runOn_of_silent [Silent work] (transcript : Transcript) :
    ∃ later, work.runOn transcript = (work.ending, later) ∧ later.output = transcript.output :=
  ⟨(work.runOn transcript).2, Prod.ext (Silent.ends transcript) rfl, Silent.output transcript⟩

instance (a : α) : Silent (pure a) := ⟨fun _ => rfl, fun _ => rfl⟩

instance (error : CommandError) : Silent (throw error : CommandM Id α) :=
  ⟨fun _ => rfl, fun _ => rfl⟩

instance (outcome : Except CommandError α) : Silent (ofExcept outcome) :=
  match outcome with
  | .ok _ => ⟨fun _ => rfl, fun _ => rfl⟩
  | .error _ => ⟨fun _ => rfl, fun _ => rfl⟩

instance (files : FileReader Id) (path : String) : Silent (readFile files path) :=
  ⟨fun _ => rfl, fun _ => rfl⟩

instance (minimum : Severity) :
    Silent (modify fun t => { t with minimum } : CommandM Id Unit) :=
  ⟨fun _ => rfl, fun _ => rfl⟩

instance (entries : List LogEntry) : Silent (log entries) := ⟨fun _ => rfl, fun _ => rfl⟩

theorem runOn_bind_of_silent [Silent work] (h : ∀ a, Silent (next a)) (transcript : Transcript) :
    ((work >>= next).runOn transcript).1 = (work.ending >>= fun a => (next a).ending) ∧
      ((work >>= next).runOn transcript).2.output = transcript.output := by
  obtain ⟨later, hrun, houtput⟩ := work.runOn_of_silent transcript
  rw [runOn_bind, hrun]
  cases work.ending with
  | error error => exact ⟨rfl, houtput⟩
  | ok a => exact ⟨(h a).ends later, ((h a).output later).trans houtput⟩

/-- Silent steps end as computations without effects do. -/
theorem ending_bind [Silent work] [h : ∀ a, Silent (next a)] :
    (work >>= next).ending = (work.ending >>= fun a => (next a).ending) :=
  (runOn_bind_of_silent work next h {}).1

theorem Silent.bind [Silent work] (h : ∀ a, Silent (next a)) : Silent (work >>= next) where
  ends transcript := (runOn_bind_of_silent work next h transcript).1.trans (ending_bind work next).symm
  output transcript := (runOn_bind_of_silent work next h transcript).2

instance [Silent work] [h : ∀ a, Silent (next a)] : Silent (work >>= next) := .bind work next h

/-- Reading a file gives what is in it. -/
theorem ending_readFile_bind (files : FileReader Id) (path : String)
    (next : Except String String → CommandM Id β) :
    (readFile files path >>= next).ending = (next (files path)).ending := rfl

@[simp]
theorem ending_ofExcept (outcome : Except CommandError α) :
    CommandM.ending (ofExcept outcome) = outcome := by
  cases outcome <;> rfl

end CommandM

open CommandM (Silent)

variable {σ : Type} (files : FileReader Id)

/-! ## Set-up -/

namespace Config

/-- A text is a configuration if it has the form of one and passes the checks. -/
theorem ofText_eq_ok_iff {text : String} {config : Config} :
    ofText text = .ok config ↔
      (Json.Form.ofText? text).bind ofForm? = some config ∧ config.validate = .ok () := by
  unfold ofText
  cases (Json.Form.ofText? text).bind ofForm? with
  | none => simp
  | some read =>
    dsimp only
    rw [bind_eq_ok_iff]
    constructor
    · rintro ⟨_, hvalid, ⟨⟩⟩
      exact ⟨rfl, hvalid⟩
    · rintro ⟨⟨⟩, hvalid⟩
      exact ⟨(), hvalid, rfl⟩

/-- A configuration that passes the checks names a level. -/
theorem severity_of_validate {config : Config} (h : config.validate = .ok ()) :
    ∃ minimum, config.engine.severity = .ok minimum := by
  obtain ⟨_, hengine, -⟩ := bind_eq_ok_iff.mp h
  unfold EngineConfig.validate at hengine
  split_ifs at hengine with hzero
  · cases hengine
  · cases hseverity : config.engine.severity with
    | ok minimum => exact ⟨minimum, rfl⟩
    | error error =>
      rw [hseverity] at hengine
      cases hengine

end Config

instance silent_load (path : String) : Silent (load files path) := by
  refine .bind _ _ fun content => ?_
  cases content with
  | error reason => exact inferInstanceAs (Silent (throw _))
  | ok text => infer_instance

/-- A configuration is loaded if its file can be read and holds one. -/
theorem ending_load (path : String) :
    (load files path).ending =
      match files path with
      | .error reason => .error (.configUnreadable reason)
      | .ok text => Config.ofText text := by
  rw [load, CommandM.ending_readFile_bind]
  cases files path with
  | error reason => rfl
  | ok text =>
    simp only [CommandM.ending_bind, CommandM.ending_ofExcept]
    cases htext : Config.ofText text with
    | error error => rfl
    | ok config =>
      obtain ⟨minimum, hminimum⟩ :=
        Config.severity_of_validate (Config.ofText_eq_ok_iff.mp htext).2
      rw [ok_bind, hminimum]
      rfl

instance silent_readSeed (path : String) (config : Config) :
    Silent (readSeed files path config) := by
  unfold readSeed
  cases config.seedFile with
  | none => exact inferInstanceAs (Silent (pure _))
  | some file =>
    refine .bind _ _ fun content => ?_
    cases content with
    | error reason => exact inferInstanceAs (Silent (throw _))
    | ok text =>
      dsimp only
      cases Config.seed? text with
      | none => exact inferInstanceAs (Silent (throw _))
      | some seed => exact inferInstanceAs (Silent (pure _))

/-- The documents to start with are read if the configuration names a file that holds such. -/
theorem ending_readSeed (path : String) (config : Config) :
    (readSeed files path config).ending =
      match config.seedFile with
      | none => .ok []
      | some file =>
        match files (Path.join (Path.directory path) file) with
        | .error reason => .error (.seedUnreadable (Path.join (Path.directory path) file) reason)
        | .ok text =>
          match Config.seed? text with
          | none => .error .seedMalformed
          | some seed => .ok seed := by
  unfold readSeed
  cases config.seedFile with
  | none => rfl
  | some file =>
    dsimp only
    rw [CommandM.ending_readFile_bind]
    cases files (Path.join (Path.directory path) file) with
    | error reason => rfl
    | ok text =>
      dsimp only
      cases Config.seed? text with
      | none => rfl
      | some seed => rfl

instance silent_seededStore (path : String) (config : Config) :
    Silent (seededStore files path config) := by
  unfold seededStore
  infer_instance

/-- The store of a configuration has the collections of the entities, filled with the documents to start
with. -/
theorem ending_seededStore (path : String) (config : Config) :
    (seededStore files path config).ending = (do
      let store ← config.emptyStore
      let seed ← (readSeed files path config).ending
      Config.fillAll store seed) := by
  simp only [seededStore, CommandM.ending_bind, CommandM.ending_ofExcept]

/-! ## Calls -/

instance silent_runEngine (store : σ) (work : EngineM σ α) : Silent (runEngine store work) := by
  unfold runEngine
  infer_instance

theorem ending_runEngine (store : σ) (work : EngineM σ α) :
    (runEngine store work).ending = .ok (work.runOn { store }).1 := rfl

instance silent_planOf (line : CommandLine) : Silent (planOf files line) := by
  unfold planOf
  infer_instance

instance silent_outcomeOf (line : CommandLine) : Silent (outcomeOf files line) := by
  unfold outcomeOf
  infer_instance

/-- The outcome of a call is that of a new engine over the store of the configuration. -/
theorem ending_outcomeOf (line : CommandLine) :
    (outcomeOf files line).ending = (do
      let config ← (load files line.config).ending
      let metadata ← config.entity line.entity
      let store ← (seededStore files line.config config).ending
      let call ← buildCall line config.engine
      (((Engine.inMemory metadata config.engine).invoke line.method call).runOn
        { store }).1.mapError .failed) := by
  simp only [outcomeOf, CommandM.ending_bind, CommandM.ending_ofExcept, ending_runEngine, ok_bind]
  rfl

end DerivedQuery.Command
