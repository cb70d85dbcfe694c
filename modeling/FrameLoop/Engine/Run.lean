import FrameLoop.Engine.Basic

/-! The life of an engine: starting, one iteration after another, and shutting down. -/

namespace FrameLoop.Engine

variable {σ φ ω : Type} (F : Facades σ FrameStats)

/-- Enters the startup mode. -/
def enter (mode : StartupMode) : Trial σ φ ω Unit := do
  match mode with
  | .loadSave path =>
    ExceptT.lift (note .info s!"Loading save '{path}'")
    call F (.loadSession path)
  | .mainMenu =>
    ExceptT.lift (tell F (.pushMode .mainMenu))
    ExceptT.lift (tell F .playTitleMusic)
  | .newSession bypassIntro => call F (.newSession bypassIntro)

/-- Enters the startup mode and runs the startup script; once all of it succeeded the engine
counts as started. -/
def setOut (mode : StartupMode) (script : Option String) : Trial σ φ ω Unit := do
  enter F mode
  if let some script := script then
    if F.session (← ExceptT.lift get).scene.world == .running then
      ExceptT.lift (note .info s!"Running startup script '{script}'")
      call F (.executeInConsole script)
  ExceptT.lift (modify fun e => { e with started := true })
  ExceptT.lift (note .info "Engine started")

/-- Loads the persistent storage and gets the engine going, unless it has started before. -/
def start : Trial σ φ ω Unit := do
  let e ← ExceptT.lift get
  if e.started then return
  if let some directory := e.userDirectory then call F (.loadStorage directory)
  setOut F e.startup e.startupScript

/-- Stamps the next frame. -/
def stampFrame : Action σ φ ω Stamp := do
  let now ← onScene Scene.now
  let e ← get
  let (stamp, counter) := e.counter.advance now
  set { e with counter }
  return stamp

/-- Time passes while a session is played outside any mode of the interface. -/
def countTime (dt : Single) : Action σ φ ω Unit := do
  let e ← get
  if !F.guiActive e.scene.world && F.hasActiveSession e.scene.world then
    set { e with simulationTime := e.simulationTime + dt.convert }

/-- Renders a completed frame, with the scripting update beside the traversals. -/
def render (dt : Single) (stamp : Stamp) : Action σ φ ω FrameOutcome := do
  tell F .eventTraversal
  tell F .updateTraversal
  tell F .updateWindowManager
  onStrategy (UpdateStrategy.allow F stamp)
  let rendered ← onScene (F.call .renderingTraversals).run
  onStrategy (UpdateStrategy.finish F)
  match rendered with
  | .ok () =>
    countTime F dt
    return .completed
  | .error f =>
    note .error s!"Error in frame {stamp.number}: {f.line}"
    return .failed

/-- Ends the bookkeeping of a frame. -/
def endFrame [Report ω φ] (frame : Nat) : Action σ φ ω Unit := do
  let now ← onScene Scene.now
  let e ← get
  let (_, telemetry, storage, log) := e.telemetry.endFrame e.scene.sink frame now e.storage
  set { e with telemetry, storage }
  append log

/-- Stamps the next frame and simulates it; tells its stamp and how it ended. -/
def simulate (dt : Single) : Action σ φ ω (Stamp × Option FrameOutcome) := do
  let stamp ← stampFrame
  let e ← get
  tell F (.advanceRenderer e.simulationTime stamp.number)
  let outcome ← onScene (Orchestrator.frame F e.orchestrator dt stamp)
  return (stamp, outcome)

/-- What follows the simulation of a frame: the rendering, if it was completed. -/
def conclude [Report ω φ] (dt : Single) (stamp : Stamp) :
    Option FrameOutcome → Action σ φ ω (Option FrameOutcome)
  | none => return none
  | some outcome => do
    let outcome ← if outcome.isCompleted then render F dt stamp else pure outcome
    endFrame stamp.number
    return some outcome

/-- One iteration; there is no outcome if its local scripts never come to an end. -/
def step [Report ω φ] : Action σ φ ω (Option FrameOutcome) := do
  let dt := simulationStep (← get).limiter.lastFrame
  let (stamp, outcome) ← simulate F dt
  conclude F dt stamp outcome

/-- Whether neither the window nor the player asked to stop. -/
def shouldContinue (e : Engine σ φ ω) : Bool :=
  !F.windowClosed e.scene.world && !F.quitRequested e.scene.world

/-- Waits after an iteration: a rendered frame for the rest of its time. -/
def pace (outcome : FrameOutcome) : Action σ φ ω Unit := do
  if outcome.isCompleted then
    let now ← onScene Scene.now
    let woken ← onScene Scene.now
    modify fun e => { e with limiter := e.limiter.limit now woken }

/-- The pause after an iteration that was not rendered. -/
def idlePause : Duration := 5 * Duration.millisecond

/-- Iterates until asked to stop; tells whether that happened within `fuel` iterations. -/
def loop [Report ω φ] : Nat → Action σ φ ω Bool
  | 0 => return false
  | fuel + 1 => do
    if shouldContinue F (← get) then
      match ← step F with
      | none => return false
      | some outcome =>
        pace outcome
        loop fuel
    else return true

section

variable [Report ω φ] [Storage φ ω]

/-- Writes the settings back, if they came from a file. -/
def saveSettings : Action σ φ ω (Option EngineError) := do
  let e ← get
  match e.settingsPath with
  | none => return none
  | some path =>
    let (r, log, storage) := e.settings.save path e.storage
    set { e with storage }
    append log
    match r with
    | .ok () => return none
    | .error error =>
      note .error s!"Failed to save settings: {error.message}"
      return some error

/-- Saves the persistent storage, if it has a directory. -/
def saveStorage : Action σ φ ω (Option EngineError) := do
  match (← get).userDirectory with
  | none => return none
  | some directory =>
    match ← onScene (F.call (.saveStorage directory)).run with
    | .ok () => return none
    | .error f =>
      note .error s!"Failed to save persistent storage: {f.line}"
      return some (.subsystem f)

def flushReport : Action σ φ ω Unit := do
  let e ← get
  let (telemetry, storage, log) := e.telemetry.flush e.storage
  set { e with telemetry, storage }
  append log

/-- Lets go of the strategy and releases every part. -/
def release : Action σ φ ω Unit := do
  modify fun e => { e with strategy := none }
  onScene F.teardown
  tell F .closeRenderer
  note .info "Engine shut down"
  abandon F

/-- Stops the worker, saves, and releases everything. All of it is done in any case; the
first failure to save is the result. -/
def shutdown : Action σ φ ω (Except EngineError Unit) := do
  onStrategy (UpdateStrategy.join F)
  let settingsError ← saveSettings
  let storageError ← saveStorage F
  flushReport
  release F
  return match settingsError <|> storageError with
    | some error => .error error
    | none => .ok ()

/-- What follows the last iteration. -/
def leave : Action σ φ ω (Except EngineError Unit) := do
  note .info s!"Main loop exited after {(← get).counter.next} frames"
  shutdown F

/-- A whole run; none if it does not end within `fuel` iterations. -/
def run (fuel : Nat) : Action σ φ ω (Option (Except EngineError Unit)) := do
  match ← (start F).run with
  | .error error =>
    abandon F
    return some (.error error)
  | .ok () =>
    if ← loop F fuel then return some (← leave F) else return none

end

end FrameLoop.Engine
