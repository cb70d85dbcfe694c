import FrameLoop.Frame
import FrameLoop.Limiter
import FrameLoop.Settings.File
import FrameLoop.Telemetry.Service
import FrameLoop.Update.Strategy

/-! The engine: the subsystems with the loop's own state, and how it is built. -/

namespace FrameLoop

/-- The variable that names the file of the per-frame reports. -/
def statsFileVariable : String := "CADENCE_STATS_FILE"

/-- An engine over a world `σ`, whose files are kept in a storage `φ` and whose
reports are open as `ω`. -/
structure Engine (σ φ ω : Type) where
  settings : Settings
  settingsPath : Option String
  userDirectory : Option String
  startup : StartupMode
  startupScript : Option String
  started : Bool
  scene : Scene σ FrameStats
  storage : φ
  orchestrator : Orchestrator
  /-- None once the engine is shut down. -/
  strategy : Option UpdateStrategy
  limiter : Limiter
  counter : FrameCounter
  telemetry : Telemetry ω
  /-- Seconds that were played outside any mode of the interface. -/
  simulationTime : Double

/-- Why an engine could not be built, and what was logged until then. -/
structure Refusal where
  error : EngineError
  log : Log
  workerLog : Log

namespace Engine

variable {σ φ ω : Type}

/-- Whether the scripting update runs on a worker. -/
def hasScriptWorker (e : Engine σ φ ω) : Bool := e.strategy.any (·.isThreaded)

/-- Script runs after which the drain of a frame counts as endless, unless another bound is given. -/
def defaultPatience : Nat := 1000000

/-- An action on the engine. -/
abbrev Action (σ φ ω : Type) := StateM (Engine σ φ ω)

/-- An action that may fail; what it did until then stays done. -/
abbrev Trial (σ φ ω : Type) := ExceptT EngineError (Action σ φ ω)

def onScene {α : Type} (act : Act σ FrameStats α) : Action σ φ ω α := fun e =>
  let (a, scene) := act e.scene
  (a, { e with scene })

def append (records : List Record) : Action σ φ ω Unit :=
  onScene (modify (Scene.append .main records))

def note (level : Level) (message : String) : Action σ φ ω Unit :=
  append [⟨level, message⟩]

/-- Starts the script worker, if one is wanted, and the frame pacing; the overlay shows
every phase. -/
def prepare (settings : Settings) : Act σ FrameStats (UpdateStrategy × Limiter × Telemetry ω) := do
  let opened ← Scene.now
  let (overlay, log) := Overlay.addPhases [] settings.physicsWorkers
  modify (Scene.append .main log)
  let strategy ← UpdateStrategy.new settings.scriptWorkers
  let started ← Scene.now
  let (limiter, log) := Limiter.new settings.framerateLimit started
  modify (Scene.append .main log)
  return (strategy, limiter, { Telemetry.new settings.summaryInterval opened with overlay })

section

variable (F : Facades σ FrameStats)

/-- A call whose failure ends the action. -/
def call (c : Call) : Trial σ φ ω Unit :=
  ExceptT.mk do
    match ← onScene (F.call c).run with
    | .ok () => return .ok ()
    | .error f => return .error (.subsystem f)

def tell (c : Call) : Action σ φ ω Unit := onScene (F.tell c)

def onStrategy (act : UpdateStrategy → Act σ FrameStats UpdateStrategy) : Action σ φ ω Unit := do
  if let some strategy := (← get).strategy then
    let strategy ← onScene (act strategy)
    modify fun e => { e with strategy := some strategy }

variable [Report ω φ]

/-- Lets go of an engine that was not shut down. -/
def abandon : Action σ φ ω Unit := do
  onStrategy (UpdateStrategy.join F)
  let e ← get
  let (storage, log) := e.telemetry.close e.storage
  set { e with storage }
  append log

variable [Storage φ ω]

/-- Turns the collection of all statistics on. -/
def collectAll (stats : FrameStats) : FrameStats :=
  (stats.setCollecting engineStats true).setCollecting resourceStats true

/-- Writes per-frame reports to a file and collects statistics for them. -/
def withStatsFile (path : String) (e : Engine σ φ ω) : Except Refusal (Engine σ φ ω) :=
  match e.telemetry.openReport path e.storage with
  | (.error error, storage, log) =>
    let (_, e) := (do append log; abandon F) { e with storage }
    .error ⟨error, e.scene.log, e.scene.workerLog⟩
  | (.ok telemetry, storage, log) =>
    let (_, e) := append log { e with telemetry, storage }
    .ok { e with scene := { e.scene with sink := collectAll e.scene.sink } }

/-- Checks the settings, prepares the parts of the loop, and opens the report if a file is
named for it. -/
def new (settings : Settings) (world : σ) (storage : φ) (clock : Clock) (schedule : Schedule)
    (statsFile : Option String) (patience : Nat := defaultPatience) :
    Except Refusal (Engine σ φ ω) :=
  match settings.validate with
  | (.error error, log) => .error ⟨error, log.toArray, #[]⟩
  | (.ok (), log) =>
    let stats := FrameStats.new FrameStats.defaultHistory
    let sink := if settings.collectStats then collectAll stats else stats
    let ((strategy, limiter, telemetry), scene) :=
      prepare settings ⟨world, sink, clock, schedule, log.toArray, #[]⟩
    let e : Engine σ φ ω :=
      { settings
        settingsPath := none
        userDirectory := none
        startup := .mainMenu
        startupScript := none
        started := false
        scene
        storage
        orchestrator := ⟨settings.useSound, patience⟩
        strategy := some strategy
        limiter
        counter := .new
        telemetry
        simulationTime := .zero false }
    match statsFile with
    | some path => withStatsFile F path e
    | none => .ok e

end

end Engine

end FrameLoop
