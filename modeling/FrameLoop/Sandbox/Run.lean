import FrameLoop.Engine.Run
import FrameLoop.Headless
import FrameLoop.Sandbox.Usage

/-! A run of the sandbox: an engine over headless subsystems, from its settings to
its end. -/

namespace FrameLoop.Sandbox

variable {φ ω : Type} [Storage φ ω] [Report ω φ]

/-- The settings that the options ask for in place of others. -/
def Options.override (o : Options) (s : Settings) : Settings :=
  { s with
    framerateLimit := o.rate.getD s.framerateLimit
    scriptWorkerThreads := o.scriptWorkers.getD s.scriptWorkerThreads }

/-- The settings of a run: those of the file, if there is one, under the options. -/
def Options.readSettings (o : Options) (storage : φ) : Except EngineError Settings × List Record :=
  match o.settings.filter (Storage.holds · storage) with
  | some path =>
    let (r, log) := Settings.load path storage
    (r.map o.override, log)
  | none => (.ok (o.override .defaults), [])

/-- Builds the engine. Saves are looked for in the storage as it is then. -/
def start (o : Options) (statsFile : Option String) (clock : Clock) (schedule : Schedule)
    (storage : φ) : Except Refusal (Engine Headless.World φ ω) :=
  match o.readSettings storage with
  | (.error error, log) => .error ⟨error, log.toArray, #[]⟩
  | (.ok settings, log) =>
    let world := Headless.World.new (fun _ => false) settings.physicsWorkers o.frames
    match Engine.new Headless.facades settings world storage clock schedule statsFile with
    | .error r => .error { r with log := log.toArray ++ r.log }
    | .ok e =>
      .ok { e with
        startup := o.startup
        settingsPath := o.settings
        userDirectory := o.userDirectory
        startupScript := o.script
        scene := { e.scene with
          world := { e.scene.world with saves := (Storage.holds · e.storage) }
          log := log.toArray ++ e.scene.log } }

/-- How a run ended, and what it leaves behind. -/
structure Finish (φ : Type) where
  error : Option EngineError
  log : Log
  workerLog : Log
  storage : φ

/-- What an engine leaves behind. -/
def Finish.ofEngine (e : Engine Headless.World φ ω) (r : Except EngineError Unit) : Finish φ where
  error := match r with
    | .ok () => none
    | .error error => some error
  log := e.scene.log
  workerLog := e.scene.workerLog
  storage := e.storage

/-- The exit code of a run. -/
def Finish.code (f : Finish φ) : Nat := if f.error.isSome then 1 else 0

/-- A whole run. Each iteration brings the window one frame closer to its end, so
there is always a result. -/
def run (o : Options) (statsFile : Option String) (clock : Clock) (schedule : Schedule)
    (storage : φ) : Finish φ :=
  match start o statsFile clock schedule storage with
  | .error r => ⟨some r.error, r.log, r.workerLog, storage⟩
  | .ok e =>
    let (r, e) := Engine.run Headless.facades (o.frames + 1) e
    .ofEngine e (r.getD (.ok ()))

end FrameLoop.Sandbox
