import FrameLoop.Binary.Arithmetic
import FrameLoop.Facades

/-! One frame of the simulation: the phases in their fixed order, each timed, up to
the first failure. -/

namespace FrameLoop

/-- How a frame ended. -/
inductive FrameOutcome
  /-- Every phase ran. -/
  | completed
  /-- The window was hidden. -/
  | skipped
  /-- A subsystem failed. -/
  | failed
  deriving DecidableEq, Repr

def FrameOutcome.isCompleted (o : FrameOutcome) : Bool := o == completed

/-- Why a frame stopped before its end. -/
inductive Stop
  | failure (f : Failure)
  /-- The drain of the local scripts was given up. -/
  | endless
  deriving DecidableEq, Repr

/-- What stays the same from frame to frame. -/
structure Orchestrator where
  /-- Whether the mixer is advanced. -/
  useSound : Bool
  /-- Script runs after which a drain counts as endless. -/
  patience : Nat
  deriving DecidableEq, Repr

namespace Orchestrator

variable {σ κ : Type} (F : Facades σ κ)

def secondsPerHour : Double := .ofNat 3600

/-- Game hours that pass in a step. -/
def hoursOf (dt timeScale : Single) : Double := dt.convert * timeScale.convert / secondsPerHour

/-- A fallible call. -/
def call (c : Call) : Attempt Stop σ κ Unit := (F.call c).adapt Stop.failure

/-- A call that cannot fail. -/
def tell (c : Call) : Attempt Stop σ κ Unit := ExceptT.lift (F.tell c)

/-- A question about the world. -/
def ask {α : Type} (query : σ → α) : Attempt Stop σ κ α := ExceptT.lift (Facades.ask query)

/-- Takes the next entry of the running drain. -/
def nextEntry : Act σ κ (Option LocalScript) := do
  let s ← get
  let (entry, scripts) := (F.localScripts s.world).next
  set { s with world := F.withLocalScripts scripts s.world }
  return entry

/-- Runs the entries of the drain until it ends. -/
def drain : Nat → Attempt Stop σ κ Unit
  | 0 => throw .endless
  | patience + 1 => do
    match ← ExceptT.lift (nextEntry F) with
    | none => return
    | some entry =>
      (F.runLocal entry).adapt Stop.failure
      drain patience

/-- Drains the local scripts from the first one. -/
def runLocalScripts (patience : Nat) : Attempt Stop σ κ Unit := do
  modify fun s =>
    { s with world := F.withLocalScripts (F.localScripts s.world).start s.world }
  drain F (patience + 1)

def inputPhase (dt : Single) : Attempt Stop σ κ Unit := call F (.updateInput dt false)

/-- Tells whether the frame goes on: a hidden window is silent and ends it. -/
def soundPhase (useSound : Bool) (dt : Single) : Attempt Stop σ κ Bool := do
  if ← ask F.windowVisible then
    tell F .resumePlayback
    if useSound then call F (.updateAudio dt)
    return true
  else
    tell F .pausePlayback
    return false

def scriptPhase (patience : Nat) (dt : Single) (paused guiActive sessionActive : Bool) :
    Attempt Stop σ κ Unit := do
  if sessionActive then
    if !paused then
      if ← ask F.scriptsEnabled then
        runLocalScripts F patience
        call F .runGlobalScripts
      tell F .markCellUnchanged
    if !guiActive then
      tell F (.advanceTime (hoursOf dt (← ask F.timeScale)))
      tell F (.rechargeItems dt)

/-- The death of the player ends a session that is being played. -/
def mechanicsPhase (dt : Single) (guiActive sessionActive : Bool) : Attempt Stop σ κ Unit := do
  if sessionActive then call F (.updateMechanics dt guiActive)
  if (← ask F.session) == SessionState.running && !guiActive && (← ask F.playerDead) then
    ExceptT.lift (Scene.note .main .info "Player is dead, ending the session")
    tell F .endSession

def physicsPhase (dt : Single) (stamp : Stamp) (guiActive sessionActive : Bool) :
    Attempt Stop σ κ Unit := do
  if sessionActive then (F.stepPhysics dt guiActive stamp).adapt Stop.failure

def worldPhase (dt : Single) (guiActive sessionActive : Bool) : Attempt Stop σ κ Unit := do
  if sessionActive then call F (.updateWorld dt guiActive)

variable [StatsSink κ]

/-- The phases after the sound. The menu is looked at before the state is updated,
the interface and the session after it. -/
def simulate (o : Orchestrator) (dt : Single) (stamp : Stamp) : Attempt Stop σ κ Unit := do
  let paused ← ask (F.containsMode .mainMenu)
  call F .synchronize
  Scene.timed .state stamp (call F (.updateState dt))
  let guiActive ← ask F.guiActive
  let sessionActive ← ask F.hasActiveSession
  Scene.timed .script stamp (scriptPhase F o.patience dt paused guiActive sessionActive)
  Scene.timed .mechanics stamp (mechanicsPhase F dt guiActive sessionActive)
  Scene.timed .physics stamp (physicsPhase F dt stamp guiActive sessionActive)
  Scene.timed .world stamp (worldPhase F dt guiActive sessionActive)
  Scene.timed .gui stamp (call F (.updateGui dt))
  if ← ExceptT.lift (Scene.collects resourceStats) then
    ExceptT.lift (F.reportStats stamp.number)

/-- All phases; tells whether the frame was not skipped. -/
def runPhases (o : Orchestrator) (dt : Single) (stamp : Stamp) : Attempt Stop σ κ Bool := do
  Scene.timed .input stamp (inputPhase F dt)
  if ← Scene.timed .sound stamp (soundPhase F o.useSound dt) then
    simulate F o dt stamp
    return true
  else return false

/-- Advances every subsystem by `dt` seconds. Failures are logged and end the
frame; there is no outcome if the local scripts never come to an end. -/
def frame (o : Orchestrator) (dt : Single) (stamp : Stamp) : Act σ κ (Option FrameOutcome) := do
  match ← (runPhases F o dt stamp).run with
  | .ok true => return some .completed
  | .ok false =>
    Scene.note .main .trace s!"Frame {stamp.number} skipped, window hidden"
    return some .skipped
  | .error (.failure f) =>
    Scene.note .main .error s!"Error in frame {stamp.number}: {f.line}"
    return some .failed
  | .error .endless => return none

end Orchestrator

end FrameLoop
