import FrameLoop.Rehearsal.Cue

/-! Stand-in subsystems that note every call and follow a script of hooks. -/

namespace FrameLoop.Rehearsal

structure World where
  props : Props
  hooks : List Hook
  scripts : LocalScripts
  /-- Whether the scripting update runs on a worker. -/
  threaded : Bool
  /-- Frames begun by the renderer. -/
  advances : Nat
  calls : Array Event
  workerCalls : Array Event
  /-- What has been released, the renderer as none of the parts. -/
  released : Array (Option Part)

def World.new (props : Props) (hooks : List Hook) (threaded : Bool) : World where
  props := props
  hooks := hooks
  scripts := .empty
  threaded := threaded
  advances := 0
  calls := #[]
  workerCalls := #[]
  released := #[]

namespace World

def note (e : Event) (w : World) : World := { w with calls := w.calls.push e }

def edit (edits : List Edit) (w : World) : World := { w with props := edits.foldl Props.edit w.props }

def pushMode (mode : GuiMode) (w : World) : World :=
  w.edit [.guiModes (w.props.guiModes ++ [mode])]

/-- The actions that an event calls for. -/
def cued (e : Event) (w : World) : List Action × World :=
  let taken := w.hooks.map (Hook.take e)
  ((taken.map Prod.fst).flatten, { w with hooks := taken.map Prod.snd })

end World

/-- Carries out actions in order, on a registry and the world, up to one that ends the call. -/
def act : List Action → LocalScripts × World → UpdateEnd × LocalScripts × World
  | [], rw => (.finished, rw)
  | a :: rest, (r, w) =>
    match a with
    | .set edits => act rest (r, w.edit edits)
    | .push mode => act rest (r, w.pushMode mode)
    | .pop => act rest (r, w.edit [.guiModes w.props.guiModes.dropLast])
    | .fail f => (.failed f, r, w)
    | .panic => (.panicked, r, w)
    | .add script entity => act rest (r.add script entity, w)
    | .remove entity =>
      let (count, r) := r.remove entity
      act rest (r, w.note (.removed count))
    | .restart => act rest (r.start, w)
    | .next =>
      let (entry, r) := r.next
      act rest (r, w.note (.next entry))

/-- Notes an event and carries out what it calls for. -/
def play (e : Event) (rw : LocalScripts × World) : UpdateEnd × LocalScripts × World :=
  let (actions, w) := (rw.2.note e).cued e
  act actions (rw.1, w)

def answer : UpdateEnd → Except Failure Unit
  | .failed f => .error f
  | .finished | .panicked => .ok ()

/-- An event that has nothing to do with a drain. -/
def playAlone (e : Event) (w : World) : UpdateEnd × World :=
  let (r, _, w) := play e (w.scripts, w)
  (r, w)

abbrev Reply := Outcome (Except Failure Unit) World

/-- Changes the world as the call says, before or after the hooks. -/
def perform (c : Call) (w : World) : Reply :=
  match c with
  | .release part => ⟨.ok (), { w with released := w.released.push (some part) }, []⟩
  | .closeRenderer => ⟨.ok (), { w with released := w.released.push none }, []⟩
  | _ =>
    let w := match c with
      | .endSession => w.edit [.session .ended]
      | .pushMode mode => w.pushMode mode
      | .advanceRenderer _ _ => { w with advances := w.advances + 1 }
      | _ => w
    let (r, w) := playAlone (.call c) w
    let w := match c, r with
      | .newSession _, .finished | .loadSession _, .finished => w.edit [.session .running]
      | _, _ => w
    ⟨answer r, w, []⟩

def runScript (entry : LocalScript) (rw : LocalScripts × World) :
    Outcome (Except Failure Unit) (LocalScripts × World) :=
  let (r, rw) := play (.runScript entry) rw
  ⟨answer r, rw, []⟩

/-- The update notes itself where its thread keeps its calls. -/
def updateScripting (_stamp : Stamp) (w : World) : Outcome UpdateEnd World :=
  if w.threaded then
    let main := w.calls
    let (r, w) := playAlone .updateScripting { w with calls := w.workerCalls }
    ⟨r, { w with calls := main, workerCalls := w.calls }, []⟩
  else
    let (r, w) := playAlone .updateScripting w
    ⟨r, w, []⟩

variable {κ : Type} [StatsSink κ]

/-- Notes an event on the scene. -/
def onScene (e : Event) : Act World κ UpdateEnd := do
  let s ← get
  let (r, world) := playAlone e s.world
  set { s with world }
  return r

def stepPhysics (dt : Single) (guiActive : Bool) (stamp : Stamp) :
    Attempt Failure World κ Unit := do
  let body : Attempt Failure World κ Unit :=
    ExceptT.mk do return answer (← onScene (.stepPhysics dt guiActive stamp.number))
  if ← ExceptT.lift (Facades.ask fun w => w.props.physicsScope) then
    Scene.timed .physicsWorker stamp body
  else body

/-- The number of a part among those that report. -/
def partNumber : Part → Nat
  | .gui => 0
  | .world => 1
  | .state => 2
  | .mechanics => 3
  | .physics => 4
  | .scripts => 5
  | .input => 6
  | .audio => 7
  | .scripting => 8
  | .resources => 9
  | .workQueue => 10

/-- Reports a number for the part, after the resources have claimed a counter of the loop. -/
def reportPart (part : Part) (frame : Nat) : Act World κ Unit := do
  if part = .resources then Scene.setAttribute frame "WorkQueue" (.ofInt (-1))
  let _ ← onScene (.reportPart part frame)
  Scene.setAttribute frame (partName part ++ ".stat") (.ofNat (partNumber part))
  Scene.setAttribute frame "LastReporter" (.ofNat (partNumber part))

def facades : Facades World κ where
  windowVisible w := w.props.windowVisible
  containsMode mode w := w.props.guiModes.contains mode
  guiActive w := !w.props.guiModes.isEmpty
  session w := w.props.session
  quitRequested w := w.props.quit
  scriptsEnabled w := w.props.scriptsEnabled
  playerDead w := w.props.playerDead
  timeScale w := w.props.timeScale
  queuedItems w := w.props.workItems
  activeThreads w := w.props.workActive
  windowClosed w := w.props.done || w.props.doneAfter.any (· ≤ w.advances)
  localScripts w := w.scripts
  withLocalScripts scripts w := { w with scripts }
  perform := perform
  runScript := runScript
  stepPhysics := stepPhysics
  reportPart := reportPart
  updateScripting := updateScripting

end FrameLoop.Rehearsal
