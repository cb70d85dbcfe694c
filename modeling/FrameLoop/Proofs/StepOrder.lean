import FrameLoop.Engine.Run
import FrameLoop.Proofs.FrameOrder
import FrameLoop.Proofs.Handshake.Updates
import FrameLoop.Proofs.Handshake.Completion
import FrameLoop.Proofs.IterationCalls

/-! The agenda of an iteration: the renderer is advanced, the frame takes place, and a completed
frame is rendered, with the update of the scripting engine beside. -/

namespace FrameLoop

namespace Update

variable {σ κ : Type} [StatsSink κ] {F : Facades σ κ} {frame : Nat}

theorem idles_run (thread : Thread) (stamp : Stamp) :
    Idles F frame (Update.run F.chronicled thread stamp) := by
  intro s
  refine ⟨_, ?_, .update stamp .nothing⟩
  rw [Update.run, bind_apply, bind_apply, perform_eq, Scene.closePhase_world]
  cases thread <;> rfl

namespace Threaded

omit [StatsSink κ] in
theorem idles_updates (stamps : List Stamp) (w : Chronicle σ) :
    ∃ w', stamps.foldl (fun w stamp => (F.chronicled.updateScripting stamp w).world) w =
      ⟨w', w.deeds⟩ ∧ Meanwhile F frame w.world w' := by
  induction stamps generalizing w with
  | nil => exact ⟨w.world, rfl, .nothing⟩
  | cons stamp stamps ih =>
    obtain ⟨w', hw, hm⟩ := ih (F.chronicled.updateScripting stamp w).world
    exact ⟨w', hw, (Meanwhile.update stamp .nothing).trans hm⟩

theorem idles_run (point : MainPoint) (t : Threaded) :
    Idles F frame (UpdateStrategy.onWorker F.chronicled t point) := by
  intro s
  let turns := s.schedule.next.1
  let s₀ : Scene (Chronicle σ) κ := { s with schedule := s.schedule.next.2 }
  let x := take F.chronicled turns { t with main := point } s₀
  obtain ⟨more, hm⟩ := exists_settle F.chronicled callSteps x.1 x.2
  have hrun : (UpdateStrategy.onWorker F.chronicled t point s).2 =
      (take F.chronicled (turns ++ more) { t with main := point } s₀).2 := by
    rw [take_append]
    exact congrArg Prod.snd hm
  rw [hrun, world_of_take]
  exact idles_updates _ _

end Threaded

end Update

namespace UpdateStrategy

variable {σ κ : Type} [StatsSink κ] {F : Facades σ κ} {frame : Nat}

theorem idles_allow (stamp : Stamp) (strategy : UpdateStrategy) :
    Idles F frame (allow F.chronicled stamp strategy) := by
  cases strategy with
  | synchronous pending =>
    refine .of_world_eq fun s => ?_
    cases pending <;> rfl
  | threaded t => exact Update.Threaded.idles_run _ t

theorem idles_finish (strategy : UpdateStrategy) :
    Idles F frame (finish F.chronicled strategy) := by
  cases strategy with
  | synchronous pending =>
    cases pending with
    | none => exact .of_world_eq fun s => rfl
    | some stamp => exact (Update.idles_run .main stamp).bind fun _ => .of_world_eq fun s => rfl
  | threaded t => exact Update.Threaded.idles_run _ t

end UpdateStrategy

namespace Engine

variable {σ φ ω : Type} {F : Facades σ FrameStats}

/-- How a completed frame is rendered. -/
def renderAgenda (frame : Nat) : List (Item σ) :=
  [Orchestrator.always .eventTraversal, Orchestrator.always .updateTraversal,
    Orchestrator.always .updateWindowManager, .meanwhile frame,
    Orchestrator.always .renderingTraversals]

theorem countTime_scene {σ : Type} {F : Facades σ FrameStats} (dt : Single) (e : Engine σ φ ω) :
    (countTime F dt e).2.scene = e.scene := by
  rw [countTime, get_bind]
  split <;> rfl

theorem onStrategy_idles (frame : Nat)
    {act : UpdateStrategy → Act (Chronicle σ) FrameStats UpdateStrategy}
    (h : ∀ strategy, Idles F frame (act strategy)) (e : Engine (Chronicle σ) φ ω) :
    ∃ w, (onStrategy act e).2.scene.world = ⟨w, e.scene.world.deeds⟩ ∧
      Meanwhile F frame e.scene.world.world w := by
  cases he : e.strategy with
  | none =>
    have hskip : onStrategy act e = ((), e) := by
      simp only [onStrategy, get_bind, he]
      rfl
    exact ⟨e.scene.world.world, by rw [hskip], .nothing⟩
  | some strategy =>
    obtain ⟨w, hw, hm⟩ := h strategy e.scene
    exact ⟨w, by rw [onStrategy_eq he]; exact hw, hm⟩

/-- Renders a frame after the traversals; only the time of the simulation is left to be counted. -/
theorem render_follows (dt : Single) (stamp : Stamp) (n : Notes) (e : Engine (Chronicle σ) φ ω) :
    ∃ deeds r m w,
      (render F.chronicled dt stamp e).2.scene.world = ⟨w, e.scene.world.deeds ++ deeds⟩ ∧
      Follows F (renderAgenda stamp.number) ⟨e.scene.world.world, n⟩ deeds r m ∧
      Meanwhile F stamp.number m.world w ∧
      some (render F.chronicled dt stamp e).1 = FrameOutcome.ofResult r := by
  let w₁ := (F.perform .eventTraversal e.scene.world.world).world
  let w₂ := (F.perform .updateTraversal w₁).world
  let w₃ := (F.perform .updateWindowManager w₂).world
  let e₃ := ((do
    tell F.chronicled .eventTraversal
    tell F.chronicled .updateTraversal
    tell F.chronicled .updateWindowManager : Action (Chronicle σ) φ ω Unit) e).2
  have hw₃ : e₃.scene.world = ⟨w₃, ((e.scene.world.deeds ++
    [⟨e.scene.world.world, .call .eventTraversal, .ok ()⟩]) ++
    [⟨w₁, .call .updateTraversal, .ok ()⟩]) ++ [⟨w₂, .call .updateWindowManager, .ok ()⟩]⟩ := rfl
  let e₄ := (onStrategy (UpdateStrategy.allow F.chronicled stamp) e₃).2
  obtain ⟨w₄, hw₄, hm₄⟩ :=
    onStrategy_idles stamp.number (UpdateStrategy.idles_allow (F := F) stamp) e₃
  let x := onScene (F.chronicled.call .renderingTraversals).run e₄
  let o := F.perform .renderingTraversals w₄
  have hx : x.1 = o.answer :=
    congrArg (fun w : Chronicle σ => (F.perform .renderingTraversals w.world).answer) hw₄
  have hxw : x.2.scene.world = ⟨o.world, e₃.scene.world.deeds ++
      [⟨w₄, .call .renderingTraversals, o.answer⟩]⟩ :=
    congrArg (fun w => (F.chronicled.perform .renderingTraversals w).world) hw₄
  let e₆ := (onStrategy (UpdateStrategy.finish F.chronicled) x.2).2
  obtain ⟨w₆, hw₆, hm₆⟩ :=
    onStrategy_idles stamp.number (UpdateStrategy.idles_finish (F := F)) x.2
  have hrun : render F.chronicled dt stamp e = afterRendering F.chronicled dt stamp x.1 e₆ := rfl
  rw [hxw] at hw₆ hm₆
  have hwin : Does F w₄ (.call .renderingTraversals) o.answer o.world := .call _ _
  have hrest : ∀ {deeds r m}, Follows F [Orchestrator.always .renderingTraversals] ⟨w₄, n⟩ deeds r m →
      Follows F (renderAgenda stamp.number) ⟨e.scene.world.world, n⟩
        (⟨e.scene.world.world, .call .eventTraversal, .ok ()⟩ ::
          ⟨w₁, .call .updateTraversal, .ok ()⟩ :: ⟨w₂, .call .updateWindowManager, .ok ()⟩ ::
            deeds) r m := by
    intro deeds r m h
    have hm₄' : Meanwhile F stamp.number w₃ w₄ := hm₄
    exact .task rfl (.call _ _) (.task rfl (.call _ _) (.task rfl (.call _ _) (.meanwhile hm₄' h)))
  rw [hrun, hx]
  cases ha : o.answer with
  | ok _ =>
    rw [ha] at hwin hw₆
    refine ⟨_, .ok true, ⟨o.world, n⟩, w₆, ?_, hrest (.task rfl hwin (.done _)), hm₆, rfl⟩
    have hcount := congrArg Scene.world (countTime_scene (F := F.chronicled) dt e₆)
    refine hcount.trans (hw₆.trans ?_)
    rw [hw₃]
    simp only [List.append_assoc]
    rfl
  | error f =>
    rw [ha] at hwin hw₆
    refine ⟨_, .error (.failure f), ⟨o.world, n⟩, w₆, ?_, hrest (.failed rfl hwin), hm₆, rfl⟩
    refine hw₆.trans ?_
    rw [hw₃]
    simp only [List.append_assoc]
    rfl

/-- The stamp of the frame that is due. -/
def dueStamp (e : Engine σ φ ω) : Stamp := ⟨e.counter.next, e.scene.clock.read.1⟩

/-- Everything that an iteration has the main thread do. -/
def stepAgenda {τ : Type} (F : Facades σ FrameStats) (e : Engine τ φ ω) : List (Item σ) :=
  [Orchestrator.always (.advanceRenderer e.simulationTime (dueStamp e).number)] ++
    (Orchestrator.agenda F e.orchestrator (simulationStep e.limiter.lastFrame) (dueStamp e) ++
      renderAgenda (dueStamp e).number)

theorem stepAgenda_inOrder {τ : Type} (F : Facades σ FrameStats) (e : Engine τ φ ω) :
    InOrder 0 (stepAgenda F e) := by
  have hrender : InOrder 17 (renderAgenda (dueStamp e).number : List (Item σ)) :=
    ⟨17, by decide, fun _ => rfl, 18, by decide, fun _ => rfl, 19, by decide, fun _ => rfl,
      20, by decide, fun _ => rfl, trivial⟩
  exact ⟨0, by decide, fun _ => rfl, 1, by decide, fun _ => rfl, 2, by decide, fun _ => rfl,
    3, by decide, fun _ => rfl, 4, by decide, fun _ => rfl, 5, by decide, fun _ => rfl,
    6, by decide, fun _ => rfl, by decide, 8, by decide, fun _ => rfl, 9, by decide, fun _ => rfl,
    10, by decide, fun _ => rfl, 11, by decide, fun _ => rfl, 12, by decide, fun _ => rfl,
    13, by decide, fun _ => rfl, 14, by decide, fun _ => rfl, 15, by decide, fun _ => rfl,
    16, by decide, fun _ => rfl, hrender⟩

variable [Report ω φ]

theorem conclude_follows (dt : Single) (stamp : Stamp) {items : List (Item σ)} {m m' : Moment σ}
    {deeds : List (Deed σ)} {r : Except Stop Bool} (e : Engine (Chronicle σ) φ ω)
    (h : Follows F items m deeds r m') (hw : e.scene.world.world = m'.world) :
    ∃ more r' m'' w,
      (conclude F.chronicled dt stamp (FrameOutcome.ofResult r) e).2.scene.world =
        ⟨w, e.scene.world.deeds ++ more⟩ ∧
      Follows F (items ++ renderAgenda stamp.number) m (deeds ++ more) r' m'' ∧
      Meanwhile F stamp.number m''.world w ∧
      (conclude F.chronicled dt stamp (FrameOutcome.ofResult r) e).1 =
        FrameOutcome.ofResult r' := by
  have hstop : r ≠ .ok true →
      Follows F (items ++ renderAgenda stamp.number) m (deeds ++ []) r m' := by
    intro hr
    rw [List.append_nil]
    exact h.stop hr
  have hworld : e.scene.world = ⟨m'.world, e.scene.world.deeds ++ []⟩ := by
    rw [← hw, List.append_nil]
  rcases r with (f | _) | (_ | _)
  · exact ⟨[], _, m', _, hworld, hstop nofun, .nothing, rfl⟩
  · exact ⟨[], _, m', _, hworld, hstop nofun, .nothing, rfl⟩
  · exact ⟨[], _, m', _, hworld, hstop nofun, .nothing, rfl⟩
  · obtain ⟨more, r', m'', w, hw', hf, hm, hr⟩ := render_follows (F := F) dt stamp m'.notes e
    rw [hw] at hf
    exact ⟨more, r', m'', w, hw', h.append hf, hm, hr⟩

theorem step_follows (F : Facades σ FrameStats) (e : Engine (Chronicle σ) φ ω) :
    ∃ deeds r m w,
      (step F.chronicled e).2.scene.world = ⟨w, e.scene.world.deeds ++ deeds⟩ ∧
      Follows F (stepAgenda F e) ⟨e.scene.world.world, .blank⟩ deeds r m ∧
      Meanwhile F (dueStamp e).number m.world w ∧
      (step F.chronicled e).1 = FrameOutcome.ofResult r := by
  let c : Call := .advanceRenderer e.simulationTime (dueStamp e).number
  let s₁ : Scene (Chronicle σ) FrameStats :=
    ((F.chronicled.tell c) { e.scene with clock := e.scene.clock.read.2 }).2
  have hw₁ : s₁.world = ⟨(F.perform c e.scene.world.world).world,
    e.scene.world.deeds ++ [⟨e.scene.world.world, .call c, .ok ()⟩]⟩ := rfl
  let dt := simulationStep e.limiter.lastFrame
  obtain ⟨deeds, r, m, hw, hf, hr⟩ :=
    Orchestrator.frame_follows F e.orchestrator dt (dueStamp e) .blank s₁
  let e₂ := (nextFrame F.chronicled e).2
  have hrun : step F.chronicled e = conclude F.chronicled dt (dueStamp e)
    (Orchestrator.frame F.chronicled e.orchestrator dt (dueStamp e) s₁).1 e₂ := rfl
  have hframe : Follows F
      (Orchestrator.always c :: Orchestrator.agenda F e.orchestrator dt (dueStamp e))
      ⟨e.scene.world.world, .blank⟩ (⟨e.scene.world.world, .call c, .ok ()⟩ :: deeds) r m :=
    .task rfl (.call c _) hf
  have he₂ : e₂.scene.world = ⟨m.world, s₁.world.deeds ++ deeds⟩ := hw
  obtain ⟨more, r', m', w, hw', hf', hm, hr'⟩ :=
    conclude_follows dt (dueStamp e) e₂ hframe (congrArg Chronicle.world he₂)
  rw [hrun, hr]
  refine ⟨_, r', m', w, ?_, hf', hm, hr'⟩
  rw [hw', he₂, hw₁]
  simp only [List.append_assoc]
  rfl

/-- Whatever the subsystems answer, the main thread goes through the agenda of an iteration: it
does a task if and only if the gate is open when the task's turn comes, each in the world that
the one before has left. The tasks are done in a fixed order up to the first that fails, and the
outcome tells how far the iteration came. -/
theorem step_runs_agenda (F : Facades σ FrameStats) (e : Engine (Chronicle σ) φ ω) :
    ∃ deeds r m,
      (step F.chronicled e).2.scene.world.deeds = e.scene.world.deeds ++ deeds ∧
      Follows F (stepAgenda F e) ⟨e.scene.world.world, .blank⟩ deeds r m ∧
      Meanwhile F (dueStamp e).number m.world (step F.chronicled e).2.scene.world.world ∧
      (deeds.Pairwise fun a b => a.task.Precedes b.task) ∧ CutShort deeds r ∧
      (step F.chronicled e).1 = FrameOutcome.ofResult r := by
  obtain ⟨deeds, r, m, w, hw, hf, hm, hr⟩ := step_follows F e
  have hq := hf.queued (stepAgenda_inOrder F e)
  refine ⟨deeds, r, m, ?_, hf, ?_, hq.in_order, hf.cutShort, hr⟩
  · rw [hw]
  · rw [hw]
    exact hm

end Engine

end FrameLoop
