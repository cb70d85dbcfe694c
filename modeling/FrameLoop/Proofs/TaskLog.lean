import FrameLoop.Proofs.Blind
import FrameLoop.Proofs.Chronicle
import FrameLoop.Proofs.Disjoint

/-! Facades that keep a log of what they are told: the tasks of the main thread and the updates of the
scripting engine, each with its answer, but not the worlds between them. -/

namespace FrameLoop

variable {σ κ α : Type}

/-- A world and what has been done with it. -/
structure TaskLog (σ : Type) where
  world : σ
  tasks : List (Task × Except Failure Unit)
  updates : List (Stamp × UpdateEnd)

namespace TaskLog

/-- An action on the world behind, which amounts to some tasks. -/
def behind (tasks : α → List (Task × Except Failure Unit)) (act : Act σ κ α) :
    Act (TaskLog σ) κ α := fun s =>
  let (a, t) := act (s.withWorld s.world.world)
  (a, t.withWorld { s.world with world := t.world, tasks := s.world.tasks ++ tasks a })

theorem behind_worldly {act : Act σ κ α} (h : Worldly act)
    (tasks : α → List (Task × Except Failure Unit)) : Worldly (behind tasks act) := by
  intro s s' hs
  obtain ⟨hr, hw⟩ := h (s.withWorld s.world.world) (s'.withWorld s'.world.world)
    (congrArg TaskLog.world hs)
  refine ⟨hr, ?_⟩
  let x := act (s.withWorld s.world.world)
  let x' := act (s'.withWorld s'.world.world)
  have hr' : x.1 = x'.1 := hr
  have hw' : x.2.world = x'.2.world := hw
  change TaskLog.mk x.2.world (s.world.tasks ++ tasks x.1) s.world.updates =
    TaskLog.mk x'.2.world (s'.world.tasks ++ tasks x'.1) s'.world.updates
  rw [hr', hw', hs]

end TaskLog

/-- The same facades, with the log. -/
def Facades.taskLogged (F : Facades σ κ) : Facades (TaskLog σ) κ where
  windowVisible w := F.windowVisible w.world
  containsMode mode w := F.containsMode mode w.world
  guiActive w := F.guiActive w.world
  session w := F.session w.world
  quitRequested w := F.quitRequested w.world
  scriptsEnabled w := F.scriptsEnabled w.world
  playerDead w := F.playerDead w.world
  timeScale w := F.timeScale w.world
  queuedItems w := F.queuedItems w.world
  activeThreads w := F.activeThreads w.world
  windowClosed w := F.windowClosed w.world
  localScripts w := F.localScripts w.world
  withLocalScripts scripts w := { w with world := F.withLocalScripts scripts w.world }
  perform c w :=
    let o := F.perform c w.world
    ⟨o.answer, { w with world := o.world, tasks := w.tasks ++ [(.call c, c.heeded o.answer)] }, o.log⟩
  runScript entry w :=
    let o := F.runScript entry (w.1, w.2.world)
    let tasks := w.2.tasks ++ [(.runScript entry, o.answer)]
    ⟨o.answer, (o.world.1, { w.2 with world := o.world.2, tasks }), o.log⟩
  stepPhysics dt guiActive stamp :=
    ExceptT.mk (TaskLog.behind (fun a => [(.stepPhysics dt guiActive stamp, a)])
      (F.stepPhysics dt guiActive stamp).run)
  reportPart part frame := TaskLog.behind (fun _ => []) (F.reportPart part frame)
  updateScripting stamp w :=
    let o := F.updateScripting stamp w.world
    ⟨o.answer, { w with world := o.world, updates := w.updates ++ [(stamp, o.answer)] }, o.log⟩

variable {F : Facades σ κ}

theorem Blind.taskLogged (hF : Blind F) : Blind F.taskLogged where
  stepPhysics dt guiActive stamp := TaskLog.behind_worldly (hF.stepPhysics dt guiActive stamp)
    fun a => [(.stepPhysics dt guiActive stamp, a)]
  reportPart part frame s := by
    have hworld := hF.reportPart part frame (s.withWorld s.world.world)
    change { s.world with
      world := (F.reportPart part frame (s.withWorld s.world.world)).2.world
      tasks := s.world.tasks ++ [] } = s.world
    rw [hworld, List.append_nil]
    rfl

/-- Rendering and scripting that keep apart do so when the one is logged as a task and the other as
an update. -/
theorem Separate.taskLogged (hF : Separate F) : Separate F.taskLogged := by
  obtain ⟨α, β, drawn, scripted, hapart, ⟨draw, hdraw⟩, hscript⟩ := hF
  let drawn' : Lens (TaskLog σ) (α × List (Task × Except Failure Unit)) :=
    { get := fun w => (drawn.get w.world, w.tasks)
      set := fun a w => { w with world := drawn.set a.1 w.world, tasks := a.2 }
      get_set := fun a w => Prod.ext (drawn.get_set a.1 w.world) rfl
      set_get := fun w => by simp only [drawn.set_get] }
  let scripted' : Lens (TaskLog σ) (β × List (Stamp × UpdateEnd)) :=
    { get := fun w => (scripted.get w.world, w.updates)
      set := fun b w => { w with world := scripted.set b.1 w.world, updates := b.2 }
      get_set := fun b w => Prod.ext (scripted.get_set b.1 w.world) rfl
      set_get := fun w => by simp only [scripted.set_get] }
  have hapart' : drawn'.Apart scripted' := by
    intro a b w
    have hworld := hapart a.1 b.1 w.world
    simp only [drawn', scripted', hworld]
  refine ⟨_, _, drawn', scripted', hapart', ⟨fun a => ?_, fun w => ?_⟩, fun stamp => ?_⟩
  · exact ⟨(draw a.1).answer, ((draw a.1).world, a.2 ++ [(.call .renderingTraversals,
      Call.heeded .renderingTraversals (draw a.1).answer)]), (draw a.1).log⟩
  · simp only [drawn', Facades.taskLogged, hdraw]
  · obtain ⟨run, hrun⟩ := hscript stamp
    refine ⟨fun b => ⟨(run b.1).answer, ((run b.1).world, b.2 ++ [(stamp, (run b.1).answer)]),
      (run b.1).log⟩, fun w => ?_⟩
    simp only [scripted', Facades.taskLogged, hrun]

end FrameLoop
