import FrameLoop.Frame
import FrameLoop.Proofs.Accounts
import FrameLoop.Proofs.Scene

/-! Facades that keep a chronicle of what the main thread has the subsystems do: every task, with
the world in which it was begun and how it was answered. Reports of counters and the update of the
scripting engine are no tasks; they may change the world between two of them. -/

namespace FrameLoop

/-- What the main thread has the subsystems do. -/
inductive Task
  | call (c : Call)
  | runScript (entry : LocalScript)
  | stepPhysics (dt : Single) (guiActive : Bool) (stamp : Stamp)
  deriving DecidableEq

/-- A task that was done. -/
structure Deed (σ : Type) where
  /-- The world in which it was begun. -/
  before : σ
  task : Task
  answer : Except Failure Unit

/-- A world and what has been done in it so far. -/
structure Chronicle (σ : Type) where
  world : σ
  deeds : List (Deed σ)

variable {σ τ κ α β : Type}

/-- The same scene around another world. -/
def Scene.withWorld (s : Scene σ κ) (world : τ) : Scene τ κ :=
  ⟨world, s.sink, s.clock, s.schedule, s.log, s.workerLog⟩

/-- An action on the world behind, with the deeds that it amounts to. -/
def Chronicle.behind (deeds : σ → α → List (Deed σ)) (act : Act σ κ α) :
    Act (Chronicle σ) κ α := fun s =>
  let (a, t) := act (s.withWorld s.world.world)
  (a, t.withWorld ⟨t.world, s.world.deeds ++ deeds s.world.world a⟩)

/-- The answer of a call, as far as it counts. -/
def Call.heeded (c : Call) (answer : Except Failure Unit) : Except Failure Unit :=
  if c.fallible then answer else .ok ()

/-- The same facades, chronicled. -/
def Facades.chronicled (F : Facades σ κ) : Facades (Chronicle σ) κ where
  windowVisible w := F.windowVisible w.world
  containsMode mode w := F.containsMode mode w.world
  guiActive w := F.guiActive w.world
  session w := F.session w.world
  quitRequested w := F.quitRequested w.world
  scriptsEnabled w := F.scriptsEnabled w.world
  playerDead w := F.playerDead w.world
  timeScale w := F.timeScale w.world
  queuedItems w := F.queuedItems w.world
  activeThreads w := F.activeThreads w.world
  windowClosed w := F.windowClosed w.world
  localScripts w := F.localScripts w.world
  withLocalScripts scripts w := { w with world := F.withLocalScripts scripts w.world }
  perform c w :=
    let o := F.perform c w.world
    ⟨o.answer, ⟨o.world, w.deeds ++ [⟨w.world, .call c, c.heeded o.answer⟩]⟩, o.log⟩
  runScript entry w :=
    let o := F.runScript entry (w.1, w.2.world)
    ⟨o.answer,
      (o.world.1, ⟨o.world.2, w.2.deeds ++ [⟨w.2.world, .runScript entry, o.answer⟩]⟩), o.log⟩
  stepPhysics dt guiActive stamp :=
    ExceptT.mk (Chronicle.behind (fun w a => [⟨w, .stepPhysics dt guiActive stamp, a⟩])
      (F.stepPhysics dt guiActive stamp).run)
  reportPart part frame := Chronicle.behind (fun _ _ => []) (F.reportPart part frame)
  updateScripting stamp w :=
    let o := F.updateScripting stamp w.world
    ⟨o.answer, { w with world := o.world }, o.log⟩

/-- Doing a task in a world may be answered in one way and leave another world. -/
inductive Does (F : Facades σ κ) : σ → Task → Except Failure Unit → σ → Prop
  | call (c : Call) (w : σ) :
    Does F w (.call c) (c.heeded (F.perform c w).answer) (F.perform c w).world
  | runScript (entry : LocalScript) (w : σ) :
    Does F w (.runScript entry) (F.runScript entry (F.localScripts w, w)).answer
      (F.withLocalScripts (F.runScript entry (F.localScripts w, w)).world.1
        (F.runScript entry (F.localScripts w, w)).world.2)
  /-- The physics may look at more than the world. -/
  | stepPhysics (dt : Single) (guiActive : Bool) (stamp : Stamp) (s : Scene σ κ) :
    Does F s.world (.stepPhysics dt guiActive stamp) ((F.stepPhysics dt guiActive stamp).run s).1
      ((F.stepPhysics dt guiActive stamp).run s).2.world

/-- What the world may have become when no task was done meanwhile. -/
inductive Meanwhile (F : Facades σ κ) (frame : Nat) (w : σ) : σ → Prop
  | nothing : Meanwhile F frame w w
  | report (part : Part) (s : Scene σ κ) :
    Meanwhile F frame w s.world → Meanwhile F frame w (F.reportPart part frame s).2.world
  | update (stamp : Stamp) {w' : σ} :
    Meanwhile F frame w w' → Meanwhile F frame w (F.updateScripting stamp w').world

theorem Meanwhile.trans {F : Facades σ κ} {frame : Nat} {w w' w'' : σ}
    (h : Meanwhile F frame w w') (h' : Meanwhile F frame w' w'') : Meanwhile F frame w w'' := by
  induction h' with
  | nothing => exact h
  | report part s _ ih => exact .report part s ih
  | update stamp _ ih => exact .update stamp ih

/-- An action that does no task. -/
def Idles (F : Facades σ κ) (frame : Nat) (act : Act (Chronicle σ) κ α) : Prop :=
  ∀ s, ∃ w, (act s).2.world = ⟨w, s.world.deeds⟩ ∧ Meanwhile F frame s.world.world w

namespace Idles

variable {F : Facades σ κ} {frame : Nat} {act : Act (Chronicle σ) κ α}

theorem of_world_eq (h : ∀ s, (act s).2.world = s.world) : Idles F frame act :=
  fun s => ⟨s.world.world, h s, .nothing⟩

theorem bind {f : α → Act (Chronicle σ) κ β} (h : Idles F frame act)
    (hf : ∀ a, Idles F frame (f a)) : Idles F frame (act >>= f) := by
  intro s
  obtain ⟨w, hw, hm⟩ := h s
  obtain ⟨w', hw', hm'⟩ := hf (act s).1 (act s).2
  rw [hw] at hw' hm'
  exact ⟨w', hw', hm.trans hm'⟩

theorem forM {l : List α} {f : α → Act (Chronicle σ) κ PUnit} (h : ∀ a, Idles F frame (f a)) :
    Idles F frame (l.forM f) := by
  induction l with
  | nil => exact of_world_eq fun _ => rfl
  | cons a l ih => exact (h a).bind fun _ => ih

theorem reportPart (part : Part) : Idles F frame (F.chronicled.reportPart part frame) := by
  intro s
  refine ⟨_, ?_, .report part (s.withWorld s.world.world) .nothing⟩
  exact congrArg (Chronicle.mk _) (List.append_nil _)

theorem reportStats [StatsSink κ] : Idles F frame (F.chronicled.reportStats frame) := by
  have hset : ∀ name value, Idles F frame (Scene.setAttribute frame name value) := fun _ _ =>
    of_world_eq fun _ => rfl
  have hask : ∀ query : Chronicle σ → Nat, Idles F frame (Facades.ask query) := fun _ =>
    of_world_eq fun _ => rfl
  refine (hset _ _).bind fun _ => (reportPart _).bind fun _ => ?_
  refine (hask _).bind fun _ => (hset _ _).bind fun _ => ?_
  refine (hask _).bind fun _ => (hset _ _).bind fun _ => ?_
  exact forM fun part => reportPart part

end Idles

/-- A drain of the local scripts from a world on, which is given up after so many runs. Its
entries are taken from the registry one by one, each from where the run before has left it. -/
inductive Drains (F : Facades σ κ) : Nat → σ → List (Deed σ) → Except Stop Unit → σ → Prop
  | endless (w : σ) : Drains F 0 w [] (.error .endless) w
  | spent {patience : Nat} {w : σ} {r : LocalScripts} :
    (F.localScripts w).next = (none, r) →
      Drains F (patience + 1) w [] (.ok ()) (F.withLocalScripts r w)
  | run {patience : Nat} {w w' w'' : σ} {r : LocalScripts} {entry : LocalScript}
    {deeds : List (Deed σ)} {ending : Except Stop Unit} :
    (F.localScripts w).next = (some entry, r) →
    Does F (F.withLocalScripts r w) (.runScript entry) (.ok ()) w' →
    Drains F patience w' deeds ending w'' →
      Drains F (patience + 1) w
        (⟨F.withLocalScripts r w, .runScript entry, .ok ()⟩ :: deeds) ending w''
  | failed {patience : Nat} {w w' : σ} {r : LocalScripts} {entry : LocalScript} {f : Failure} :
    (F.localScripts w).next = (some entry, r) →
    Does F (F.withLocalScripts r w) (.runScript entry) (.error f) w' →
      Drains F (patience + 1) w
        [⟨F.withLocalScripts r w, .runScript entry, .error f⟩] (.error (.failure f)) w'

end FrameLoop
