import FrameLoop.Error
import FrameLoop.LocalScripts
import FrameLoop.Scene

/-! The subsystems that the frame loop drives, as one interface over an arbitrary
world: queries read the world, calls change it. Among what they tell are the state of
the game session and the modes of its interface. -/

namespace FrameLoop

inductive SessionState
  | noSession
  | running
  /-- Over, but still loaded. -/
  | ended
  deriving DecidableEq, Repr

/-- A session that is loaded is active, also after it ended. -/
def SessionState.isActive : SessionState → Bool
  | noSession => false
  | running | ended => true

/-- Modes of the interface; any of them stops the world's time. -/
inductive GuiMode
  /-- Also pauses the scripts. -/
  | mainMenu
  | console
  | inventory
  | dialogue
  | loading
  deriving DecidableEq, Repr

/-- What to show once the engine is up. -/
inductive StartupMode
  | loadSave (path : String)
  | mainMenu
  | newSession (bypassIntro : Bool)
  deriving DecidableEq, Repr

/-- The parts that are owned by the engine, in the order of their release. -/
inductive Part
  | gui
  | world
  | state
  | mechanics
  | physics
  | scripts
  | input
  | audio
  | scripting
  | resources
  | workQueue
  deriving DecidableEq, Repr

/-- Everything the main thread tells the subsystems and the renderer to do. -/
inductive Call
  | updateInput (dt : Single) (controlsDisabled : Bool)
  | pausePlayback
  | resumePlayback
  | updateAudio (dt : Single)
  | playTitleMusic
  | updateState (dt : Single)
  | endSession
  | newSession (bypassIntro : Bool)
  | loadSession (path : String)
  | runGlobalScripts
  | updateMechanics (dt : Single) (guiActive : Bool)
  | markCellUnchanged
  | advanceTime (hours : Double)
  | rechargeItems (dt : Single)
  | updateWorld (dt : Single) (guiActive : Bool)
  | updateWindowManager
  | pushMode (mode : GuiMode)
  | updateGui (dt : Single)
  | executeInConsole (command : String)
  | synchronize
  | loadStorage (directory : String)
  | saveStorage (directory : String)
  | advanceRenderer (time : Double) (frame : Nat)
  | eventTraversal
  | updateTraversal
  | renderingTraversals
  | release (part : Part)
  | closeRenderer
  deriving DecidableEq

/-- Whether a failure of the call is reported; the other calls cannot fail. -/
def Call.fallible : Call → Bool
  | updateInput _ _ | updateAudio _ | updateState _ | newSession _ | loadSession _
  | runGlobalScripts | updateMechanics _ _ | updateWorld _ _ | updateGui _
  | executeInConsole _ | synchronize | loadStorage _ | saveStorage _ | renderingTraversals => true
  | pausePlayback | resumePlayback | playTitleMusic | endSession | markCellUnchanged
  | advanceTime _ | rechargeItems _ | updateWindowManager | pushMode _ | advanceRenderer _ _
  | eventTraversal | updateTraversal | release _ | closeRenderer => false

/-- How a scripting update ended. -/
inductive UpdateEnd
  | finished
  | failed (f : Failure)
  | panicked
  deriving DecidableEq, Repr

/-- What a call leaves behind: its answer, the changed state, and what it logged. -/
structure Outcome (α σ : Type) where
  answer : α
  world : σ
  log : List Record

/-- The subsystems over a world `σ` and a sink `κ`. -/
structure Facades (σ κ : Type) where
  windowVisible : σ → Bool
  containsMode : GuiMode → σ → Bool
  /-- Whether any mode is open. -/
  guiActive : σ → Bool
  session : σ → SessionState
  quitRequested : σ → Bool
  scriptsEnabled : σ → Bool
  playerDead : σ → Bool
  /-- Game time per real time. -/
  timeScale : σ → Single
  queuedItems : σ → Nat
  activeThreads : σ → Nat
  windowClosed : σ → Bool
  localScripts : σ → LocalScripts
  withLocalScripts : LocalScripts → σ → σ
  perform : Call → σ → Outcome (Except Failure Unit) σ
  /-- Runs a script, which may change the registry that is being drained. -/
  runScript : LocalScript → LocalScripts × σ → Outcome (Except Failure Unit) (LocalScripts × σ)
  /-- Steps the physics, which may record timings of its own. -/
  stepPhysics : Single → Bool → Stamp → Attempt Failure σ κ Unit
  /-- Publishes the counters of a part. -/
  reportPart : Part → Nat → Act σ κ Unit
  /-- The update of the scripting engine for a frame, on either thread. -/
  updateScripting : Stamp → σ → Outcome UpdateEnd σ

namespace Facades

variable {σ κ : Type} (F : Facades σ κ)

def hasActiveSession (w : σ) : Bool := (F.session w).isActive

/-- A call on the main thread; a failure counts only if the call is fallible. -/
def call (c : Call) : Attempt Failure σ κ Unit :=
  ExceptT.mk do
    let s ← get
    let o := F.perform c s.world
    set ({ s with world := o.world }.append .main o.log)
    return if c.fallible then o.answer else .ok ()

/-- A call that cannot fail. -/
def tell (c : Call) : Act σ κ Unit := do
  let _ ← (F.call c).run

/-- A question about the world. -/
def ask {α : Type} (query : σ → α) : Act σ κ α := do return query (← get).world

/-- Runs the next script of a drain. -/
def runLocal (entry : LocalScript) : Attempt Failure σ κ Unit :=
  ExceptT.mk do
    let s ← get
    let o := F.runScript entry (F.localScripts s.world, s.world)
    set ({ s with world := F.withLocalScripts o.world.1 o.world.2 }.append .main o.log)
    return o.answer

/-- Publishes the counters of the loop and of every part. -/
def reportStats [StatsSink κ] (frame : Nat) : Act σ κ Unit := do
  Scene.setAttribute frame "FrameNumber" (.ofNat frame)
  F.reportPart .resources frame
  Scene.setAttribute frame "WorkQueue" (.ofNat (← ask F.queuedItems))
  Scene.setAttribute frame "WorkThread" (.ofNat (← ask F.activeThreads))
  [Part.gui, .world, .state, .mechanics, .physics, .scripts, .input, .audio, .scripting].forM
    fun part => F.reportPart part frame

/-- Releases every part, each after those that may still need it. -/
def teardown : Act σ κ Unit := do
  F.tell (.release .gui)
  Scene.note .main .debug "Released GUI"
  [Part.world, .state, .mechanics, .physics, .scripts].forM fun part => F.tell (.release part)
  Scene.note .main .debug "Released world and session"
  [Part.input, .audio, .scripting].forM fun part => F.tell (.release part)
  Scene.note .main .debug "Released scripting"
  [Part.resources, .workQueue].forM fun part => F.tell (.release part)
  Scene.note .main .debug "Released resources"

end Facades

end FrameLoop
