import FrameLoop.Facades

/-! The script of a rehearsal: what the stand-in subsystems know, and what they are
told to do when a call comes up. -/

namespace FrameLoop.Rehearsal

/-- What the queries of the subsystems read. -/
structure Props where
  windowVisible : Bool
  session : SessionState
  guiModes : List GuiMode
  scriptsEnabled : Bool
  playerDead : Bool
  quit : Bool
  done : Bool
  /-- Frames after which the window is closed. -/
  doneAfter : Option Nat
  timeScale : Single
  /-- Whether the physics times itself. -/
  physicsScope : Bool
  workItems : Nat
  workActive : Nat
  deriving DecidableEq

def Props.initial : Props where
  windowVisible := true
  session := .noSession
  guiModes := []
  scriptsEnabled := true
  playerDead := false
  quit := false
  done := false
  doneAfter := none
  timeScale := .ofNat 30
  physicsScope := false
  workItems := 3
  workActive := 1

/-- A change of one prop. -/
inductive Edit
  | windowVisible (b : Bool)
  | session (s : SessionState)
  | guiModes (modes : List GuiMode)
  | scriptsEnabled (b : Bool)
  | playerDead (b : Bool)
  | quit (b : Bool)
  | done (b : Bool)
  | doneAfter (n : Option Nat)
  | timeScale (x : Single)
  | physicsScope (b : Bool)
  | workItems (n : Nat)
  | workActive (n : Nat)
  deriving DecidableEq

def Props.edit (p : Props) : Edit → Props
  | .windowVisible b => { p with windowVisible := b }
  | .session s => { p with session := s }
  | .guiModes modes => { p with guiModes := modes }
  | .scriptsEnabled b => { p with scriptsEnabled := b }
  | .playerDead b => { p with playerDead := b }
  | .quit b => { p with quit := b }
  | .done b => { p with done := b }
  | .doneAfter n => { p with doneAfter := n }
  | .timeScale x => { p with timeScale := x }
  | .physicsScope b => { p with physicsScope := b }
  | .workItems n => { p with workItems := n }
  | .workActive n => { p with workActive := n }

/-- Something that was asked of a subsystem, or that a script did to the registry. -/
inductive Event
  | call (c : Call)
  | runScript (entry : LocalScript)
  | stepPhysics (dt : Single) (guiActive : Bool) (frame : Nat)
  | reportPart (part : Part) (frame : Nat)
  | updateScripting
  | removed (count : Nat)
  | next (entry : Option LocalScript)
  deriving DecidableEq

def partName : Part → String
  | .gui => "gui"
  | .world => "world"
  | .state => "state"
  | .mechanics => "mechanics"
  | .physics => "physics"
  | .scripts => "scripts"
  | .input => "input"
  | .audio => "audio"
  | .scripting => "scripting"
  | .resources => "resources"
  | .workQueue => "work_queue"

/-- The name under which a call is cued. -/
def callName : Call → String
  | .updateInput _ _ => "input.update"
  | .pausePlayback => "audio.pause_playback"
  | .resumePlayback => "audio.resume_playback"
  | .updateAudio _ => "audio.update"
  | .playTitleMusic => "audio.play_title_music"
  | .updateState _ => "state.update"
  | .endSession => "state.end_session"
  | .newSession _ => "state.new_session"
  | .loadSession _ => "state.load_session"
  | .runGlobalScripts => "scripts.run_global_scripts"
  | .updateMechanics _ _ => "mechanics.update"
  | .markCellUnchanged => "world.mark_cell_as_unchanged"
  | .advanceTime _ => "world.advance_time"
  | .rechargeItems _ => "world.recharge_items"
  | .updateWorld _ _ => "world.update"
  | .updateWindowManager => "world.update_window_manager"
  | .pushMode _ => "gui.push_mode"
  | .updateGui _ => "gui.update"
  | .executeInConsole _ => "gui.execute_in_console"
  | .synchronize => "scripting.synchronized_update"
  | .loadStorage _ => "scripting.load_persistent_storage"
  | .saveStorage _ => "scripting.save_persistent_storage"
  | .advanceRenderer _ _ => "renderer.advance"
  | .eventTraversal => "renderer.event_traversal"
  | .updateTraversal => "renderer.update_traversal"
  | .renderingTraversals => "renderer.rendering_traversals"
  | .release part => partName part
  | .closeRenderer => "renderer"

def Event.name : Event → String
  | call c => callName c
  | runScript _ => "scripts.run"
  | stepPhysics _ _ _ => "physics.update"
  | reportPart part _ => partName part ++ ".report_stats"
  | updateScripting => "scripting.update"
  | removed _ => "removed"
  | next _ => "next"

/-- Every name under which an event is cued. -/
def Event.cues : Event → List String
  | runScript entry => ["scripts.run", "scripts.run:" ++ entry.script]
  | e => [e.name]

/-- What to do when a cue comes up. -/
inductive Action
  | set (edits : List Edit)
  | push (mode : GuiMode)
  | pop
  | fail (f : Failure)
  | panic
  | add (script : String) (entity : Nat)
  | remove (entity : Nat)
  | restart
  | next
  deriving DecidableEq

/-- Actions for the `nth` time a cue comes up, or for every time. -/
structure Hook where
  cue : String
  nth : Option Nat
  actions : List Action
  /-- How often the cue came up. -/
  matched : Nat
  deriving DecidableEq

/-- The actions of a hook for an event, and the hook after it. -/
def Hook.take (e : Event) (h : Hook) : List Action × Hook :=
  if h.cue ∈ e.cues then
    (if h.nth.all (· = h.matched) then h.actions else [], { h with matched := h.matched + 1 })
  else ([], h)

end FrameLoop.Rehearsal
