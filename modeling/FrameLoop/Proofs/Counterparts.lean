import FrameLoop.Proofs.Blind
import FrameLoop.Proofs.Shutdown
import FrameLoop.Proofs.Disjoint
import FrameLoop.Proofs.PendingUpdates

/-! Engines that are the same but for their telemetry, and what a move makes of them. -/

namespace FrameLoop.Engine

variable {σ φ ω α : Type} {F : Facades σ FrameStats}

/-- Engines in the same state that may observe it in different ways: they differ at most in their
settings, in their telemetry and its files, and in what blind subsystems cannot see of the scene. -/
structure Counterparts (e e' : Engine σ φ ω) : Prop where
  rest : ∃ settings scene storage strategy telemetry,
    e' = { e with settings, scene, storage, strategy, telemetry }
  world : e.scene.world = e'.scene.world
  resumable : Resumable e
  resumable' : Resumable e'
  worker : e.hasScriptWorker = e'.hasScriptWorker

/-- Counterparts give the same answer, and counterparts. -/
def Concurs (act : Action σ φ ω α) : Prop :=
  ∀ e e', Counterparts e e' → (act e).1 = (act e').1 ∧ Counterparts (act e).2 (act e').2

namespace Concurs

theorem chains : Chains (S := Engine σ φ ω) Concurs where
  pure _ _ _ h := ⟨rfl, h⟩
  bind {α β act f} hact hf e e' h := by
    obtain ⟨hr, he⟩ := hact e e' h
    have hrest := hf (act e).1 _ _ he
    change (f (act e).1 (act e).2).1 = (f (act e').1 (act e').2).1 ∧
      Counterparts (f (act e).1 (act e).2).2 (f (act e').1 (act e').2).2
    rw [← hr]
    exact hrest

theorem onScene {act : Act σ FrameStats α} (h : Worldly act) :
    Concurs (onScene act : Action σ φ ω α) := by
  intro e e' he
  obtain ⟨hr, hw⟩ := h e.scene e'.scene he.world
  obtain ⟨settings, scene, storage, strategy, telemetry, hrest⟩ := he.rest
  refine ⟨hr, ⟨settings, (act e'.scene).2, storage, strategy, telemetry, ?_⟩, hw,
    he.resumable.of_eq rfl, he.resumable'.of_eq rfl, he.worker⟩
  subst hrest
  rfl

/-- A change of the parts that are the same. -/
theorem adjust {g : Engine σ φ ω → Engine σ φ ω}
    (hg : ∀ e settings scene storage strategy telemetry,
      g { e with settings, scene, storage, strategy, telemetry } =
        { g e with settings, scene, storage, strategy, telemetry })
    (hscene : ∀ e, (g e).scene = e.scene) (hstrategy : ∀ e, (g e).strategy = e.strategy) :
    Concurs (modify g : Action σ φ ω PUnit) := by
  intro e e' he
  refine ⟨rfl, ?_, ?_, he.resumable.of_eq (hstrategy e), he.resumable'.of_eq (hstrategy e'), ?_⟩
  · obtain ⟨settings, scene, storage, strategy, telemetry, rfl⟩ := he.rest
    exact ⟨settings, scene, storage, strategy, telemetry, hg ..⟩
  · change (g e).scene.world = (g e').scene.world
    rw [hscene, hscene]
    exact he.world
  · change (g e).strategy.any _ = (g e').strategy.any _
    rw [hstrategy, hstrategy]
    exact he.worker

theorem append (records : List Record) : Concurs (append records : Action σ φ ω Unit) :=
  onScene (Worldly.of_world_eq fun _ => rfl)

theorem outset (F : Facades σ FrameStats) : Outset (σ := σ) (φ := φ) (ω := ω) Concurs F where
  toChains := chains
  attempt c := onScene (Worldly.call F c)
  append := append
  setStarted := adjust (fun _ _ _ _ _ _ => rfl) (fun _ => rfl) fun _ => rfl
  look {α β v f} hv hf := by
    intro e e' he
    have hrest := hf (v e) e e' he
    have hsame : v e' = v e := by
      have hw := he.world.symm
      obtain ⟨settings, scene, storage, strategy, telemetry, rfl⟩ := he.rest
      exact hv e settings scene strategy telemetry storage hw
    change (f (v e) e).1 = (f (v e') e').1 ∧ Counterparts (f (v e) e).2 (f (v e') e').2
    rw [hsame]
    exact hrest

theorem countTime (dt : Single) : Concurs (countTime F dt : Action σ φ ω Unit) := by
  intro e e' he
  have hw := he.world
  have hplaying : (!F.guiActive e.scene.world && F.hasActiveSession e.scene.world) =
    (!F.guiActive e'.scene.world && F.hasActiveSession e'.scene.world) := by rw [hw]
  rw [Engine.countTime, get_bind, get_bind, hplaying]
  split
  · refine ⟨rfl, ?_, hw, he.resumable.of_eq rfl, he.resumable'.of_eq rfl, he.worker⟩
    obtain ⟨settings, scene, storage, strategy, telemetry, rfl⟩ := he.rest
    exact ⟨settings, scene, storage, strategy, telemetry, rfl⟩
  · exact ⟨rfl, he⟩

theorem endFrame [Report ω φ] (frame : Nat) : Concurs (endFrame frame : Action σ φ ω Unit) := by
  intro e e' he
  refine ⟨rfl, ?_, he.world, he.resumable.of_eq rfl, he.resumable'.of_eq rfl, he.worker⟩
  obtain ⟨settings, scene, storage, strategy, telemetry, rfl⟩ := he.rest
  exact ⟨_, _, _, _, _, rfl⟩

end Concurs

/-- Counterparts stay counterparts when the same call of the strategy is made on both and leaves the
same world. -/
theorem Counterparts.of_scenes {e e' : Engine σ φ ω} (h : Counterparts e e')
    {strategy strategy' : UpdateStrategy} {scene scene' : Scene σ FrameStats}
    (hw : scene.world = scene'.world) (hs : strategy.Rested) (hs' : strategy'.Rested)
    (hworker : strategy.isThreaded = strategy'.isThreaded) :
    Counterparts { e with scene, strategy := some strategy }
      { e' with scene := scene', strategy := some strategy' } := by
  refine ⟨?_, hw, ⟨strategy, rfl, hs⟩, ⟨strategy', rfl, hs'⟩, hworker⟩
  obtain ⟨settings, _, storage, _, telemetry, rfl⟩ := h.rest
  exact ⟨settings, scene', storage, some strategy', telemetry, rfl⟩

/-- The rendering itself, with the update beside it. -/
def overlap (F : Facades σ FrameStats) (stamp : Stamp) : Action σ φ ω (Except Failure Unit) := do
  onStrategy (UpdateStrategy.allow F stamp)
  let rendered ← onScene (F.call .renderingTraversals).run
  onStrategy (UpdateStrategy.finish F)
  return rendered

/-- The updates that the rendering finds to be owed. -/
def owedAfter (F : Facades σ FrameStats) (stamp : Stamp) (e : Engine σ φ ω) : List Stamp :=
  (e.strategy.map fun strategy => (strategy.allow F stamp e.scene).1.owed).getD []

theorem overlap_eq {e : Engine σ φ ω} {strategy : UpdateStrategy} (he : e.strategy = some strategy)
    (stamp : Stamp) :
    let allowed := strategy.allow F stamp e.scene
    let rendered := (F.call .renderingTraversals).run allowed.2
    let finished := allowed.1.finish F rendered.2
    overlap F stamp e =
      (rendered.1, { e with scene := finished.2, strategy := some finished.1 }) := by
  obtain ⟨_, _, _, _, _, _, _, _, _, _, _, _, _, _⟩ := e
  cases he
  rfl

/-- Whether a frame is observed or not, its rendering finds the same world, if the update is over by
then in both cases or in neither. It need not be if the two keep apart. -/
theorem rendering_worldly {strategy strategy' : UpdateStrategy} (hs : strategy.Rested)
    (hs' : strategy'.Rested) (stamp : Stamp) {s s' : Scene σ FrameStats} (hw : s.world = s'.world)
    (h : Separate F ∨ (strategy.allow F stamp s).1.owed = (strategy'.allow F stamp s').1.owed) :
    let allowed := strategy.allow F stamp s
    let allowed' := strategy'.allow F stamp s'
    let rendered := (F.call .renderingTraversals).run allowed.2
    let rendered' := (F.call .renderingTraversals).run allowed'.2
    rendered.1 = rendered'.1 ∧
      (allowed.1.finish F rendered.2).2.world = (allowed'.1.finish F rendered'.2).2.world := by
  intro allowed allowed' rendered rendered'
  rcases h with hF | howed
  · obtain ⟨hanswer, -, hscene⟩ := hs.overlap hF stamp s
    obtain ⟨hanswer', -, hscene'⟩ := hs'.overlap hF stamp s'
    have hrun (s : Scene σ FrameStats) := (Update.run_effect (F := F) .main stamp s).1
    refine ⟨hanswer.trans (hw ▸ hanswer'.symm), ?_⟩
    rw [hscene.world, hscene'.world, hrun, hrun]
    exact congrArg (fun w => Update.updated F (F.rendered w) stamp) hw
  · obtain ⟨early, hearly, hallow, hfinish⟩ := hs.splits (F := F) stamp s rendered.2
    obtain ⟨early', hearly', hallow', hfinish'⟩ := hs'.splits (F := F) stamp s' rendered'.2
    have hsame : early = early' := by
      rw [← howed] at hearly'
      exact List.append_cancel_right (hearly.trans hearly'.symm)
    have hfound : allowed.2.world = allowed'.2.world := by
      rw [hallow, hallow', hsame, hw]
    obtain ⟨hanswer, hrendered⟩ := Worldly.call F .renderingTraversals _ _ hfound
    refine ⟨hanswer, ?_⟩
    rw [hfinish, hfinish', howed]
    exact congrArg (List.foldl _ · _) hrendered

/-- What is done for a completed frame before its rendering. -/
def traverse (F : Facades σ FrameStats) : Action σ φ ω Unit := do
  tell F .eventTraversal
  tell F .updateTraversal
  tell F .updateWindowManager

/-- The updates that the rendering of the next frame finds to be owed. -/
def owedAtRendering (F : Facades σ FrameStats) (e : Engine σ φ ω) : List Stamp :=
  owedAfter F (nextFrame F e).1.1 (traverse F (nextFrame F e).2).2

/-- The two engines begin a frame at the same instant, and if they have script workers, those keep
apart from the rendering or have come as far as each other when it begins. -/
structure InStep (F : Facades σ FrameStats) (e e' : Engine σ φ ω) : Prop where
  start : (Scene.now e.scene).1 = (Scene.now e'.scene).1
  side : e.hasScriptWorker = true → Separate F ∨ owedAtRendering F e = owedAtRendering F e'

/-- A move that is made with both engines: the readings on which it depends are the same. -/
def Alongside (F : Facades σ FrameStats) (e e' : Engine σ φ ω) : Move σ → Prop
  | .step => InStep F e e'
  | .pace outcome => (pace outcome e).2.limiter = (pace outcome e').2.limiter
  | .start | .change _ | .retime _ => True

/-- A strategy keeps its worker, if it has one. -/
theorem threaded_pair (strategy : UpdateStrategy) (stamp : Stamp) (s s' : Scene σ FrameStats) :
    ((strategy.allow F stamp s).1.finish F s').1.isThreaded = strategy.isThreaded := by
  cases strategy with
  | synchronous pending => cases pending <;> rfl
  | threaded t => rfl

/-- Without a worker an update is owed until its finish. -/
theorem Resumable.owed_of_not_worker {e : Engine σ φ ω} (h : Resumable e) (stamp : Stamp)
    (hw : ¬ e.hasScriptWorker = true) : owedAfter F stamp e = [stamp] := by
  obtain ⟨strategy, he, hs⟩ := h
  rw [hasScriptWorker, he] at hw
  rw [owedAfter, he]
  cases strategy with
  | synchronous pending =>
    obtain rfl : pending = none := hs
    rfl
  | threaded t => exact absurd rfl hw

namespace Counterparts

variable {e e' : Engine σ φ ω}

theorem simulate (h : Counterparts e e') (hF : Blind F) (dt : Single)
    (hstart : (Scene.now e.scene).1 = (Scene.now e'.scene).1) :
    (simulate F dt e).1 = (simulate F dt e').1 ∧
      Counterparts (simulate F dt e).2 (simulate F dt e').2 := by
  have hstamp : (stampFrame e).1 = (stampFrame e').1 ∧
      Counterparts (stampFrame e).2 (stampFrame e').2 := by
    have hw := h.world
    obtain ⟨settings, scene, storage, strategy, telemetry, hrest⟩ := h.rest
    refine ⟨?_, ?_, hw, h.resumable.of_eq rfl, h.resumable'.of_eq rfl, h.worker⟩
    · subst hrest
      exact congrArg (Stamp.mk e.counter.next) hstart
    · subst hrest
      exact ⟨settings, (Scene.now scene).2, storage, strategy, telemetry, rfl⟩
  let rest (stamp : Stamp) (b : Double × Orchestrator) :
      Action σ φ ω (Stamp × Option FrameOutcome) := do
    Engine.tell F (.advanceRenderer b.1 stamp.number)
    let outcome ← Engine.onScene (Orchestrator.frame F b.2 dt stamp)
    return (stamp, outcome)
  let look (e : Engine σ φ ω) : Double × Orchestrator := (e.simulationTime, e.orchestrator)
  have hrest (stamp : Stamp) : Concurs (do rest stamp (look (← get))) := by
    refine (Concurs.outset F).look (fun _ _ _ _ _ _ _ => rfl) fun b => ?_
    refine Concurs.chains.bind ((Concurs.outset F).tell _) fun _ => ?_
    exact Concurs.chains.bind (Concurs.onScene (hF.frame b.2 dt stamp)) fun _ =>
      Concurs.chains.pure _
  have hall := hrest (stampFrame e).1 _ _ hstamp.2
  have hsplit (e : Engine σ φ ω) : Engine.simulate F dt e =
    (do rest (stampFrame e).1 (look (← get))) (stampFrame e).2 := rfl
  rw [hsplit, hsplit e', ← hstamp.1]
  exact hall

theorem overlap (h : Counterparts e e') (stamp : Stamp)
    (hside : Separate F ∨ owedAfter F stamp e = owedAfter F stamp e') :
    (overlap F stamp e).1 = (overlap F stamp e').1 ∧
      Counterparts (overlap F stamp e).2 (overlap F stamp e').2 := by
  obtain ⟨strategy, he, hs⟩ := h.resumable
  obtain ⟨strategy', he', hs'⟩ := h.resumable'
  rw [owedAfter, owedAfter, he, he'] at hside
  obtain ⟨hanswer, hw⟩ := rendering_worldly hs hs' stamp h.world hside
  rw [overlap_eq he, overlap_eq he']
  refine ⟨hanswer, h.of_scenes hw (hs.paired stamp _ _) (hs'.paired stamp _ _) ?_⟩
  have hworker : strategy.isThreaded = strategy'.isThreaded := by
    have hsame := h.worker
    rw [hasScriptWorker, hasScriptWorker, he, he'] at hsame
    exact hsame
  rw [threaded_pair, threaded_pair, hworker]

theorem render (h : Counterparts e e') (dt : Single) (stamp : Stamp)
    (hside : e.hasScriptWorker = true → Separate F ∨
      owedAfter F stamp (traverse F e).2 = owedAfter F stamp (traverse F e').2) :
    (render F dt stamp e).1 = (render F dt stamp e').1 ∧
      Counterparts (render F dt stamp e).2 (render F dt stamp e').2 := by
  have htell (c : Call) : Concurs (Engine.tell F c : Action σ φ ω Unit) :=
    (Concurs.outset F).tell c
  have htraverse : Concurs (traverse F : Action σ φ ω Unit) :=
    Concurs.chains.bind (htell _) fun _ => Concurs.chains.bind (htell _) fun _ => htell _
  obtain ⟨-, htraversed⟩ := htraverse e e' h
  have hworker : (traverse F e).2.hasScriptWorker = e.hasScriptWorker := rfl
  have hsame : Separate F ∨
      owedAfter F stamp (traverse F e).2 = owedAfter F stamp (traverse F e').2 := by
    by_cases hw : e.hasScriptWorker = true
    · exact hside hw
    · have hidle := htraversed.resumable.owed_of_not_worker (F := F) stamp (hworker ▸ hw)
      have hidle' := htraversed.resumable'.owed_of_not_worker (F := F) stamp
        (htraversed.worker ▸ hworker ▸ hw)
      exact .inr (hidle.trans hidle'.symm)
  obtain ⟨hanswer, hoverlapped⟩ := htraversed.overlap stamp hsame
  have hrest (rendered : Except Failure Unit) :
      Concurs (afterRendering F dt stamp rendered : Action σ φ ω FrameOutcome) := by
    cases rendered with
    | ok _ => exact Concurs.chains.bind (Concurs.countTime dt) fun _ => Concurs.chains.pure _
    | error _ => exact Concurs.chains.bind (Concurs.append _) fun _ => Concurs.chains.pure _
  have hall := hrest (Engine.overlap F stamp (traverse F e).2).1 _ _ hoverlapped
  have hsplit (e : Engine σ φ ω) : Engine.render F dt stamp e =
    afterRendering F dt stamp (Engine.overlap F stamp (traverse F e).2).1
      (Engine.overlap F stamp (traverse F e).2).2 := rfl
  rw [hsplit, hsplit e', ← hanswer]
  exact hall

theorem pace (h : Counterparts e e') (outcome : FrameOutcome)
    (hlimiter : (pace outcome e).2.limiter = (pace outcome e').2.limiter) :
    Counterparts (pace outcome e).2 (pace outcome e').2 := by
  cases outcome with
  | completed =>
    refine ⟨?_, h.world, h.resumable.of_eq rfl, h.resumable'.of_eq rfl, h.worker⟩
    obtain ⟨settings, scene, storage, strategy, telemetry, rfl⟩ := h.rest
    let woken (s : Scene σ FrameStats) := (Scene.now (Scene.now s).2).2
    have hpace (e : Engine σ φ ω) : (Engine.pace .completed e).2 =
      { e with scene := woken e.scene, limiter := (Engine.pace .completed e).2.limiter } := rfl
    rw [hpace, hpace e, ← hlimiter]
    exact ⟨settings, woken scene, storage, strategy, telemetry, rfl⟩
  | skipped | failed => exact h

variable [Report ω φ]

theorem conclude (h : Counterparts e e') (dt : Single) (stamp : Stamp)
    (outcome : Option FrameOutcome)
    (hside : e.hasScriptWorker = true → Separate F ∨
      owedAfter F stamp (traverse F e).2 = owedAfter F stamp (traverse F e').2) :
    (conclude F dt stamp outcome e).1 = (conclude F dt stamp outcome e').1 ∧
      Counterparts (conclude F dt stamp outcome e).2 (conclude F dt stamp outcome e').2 := by
  have hend (b : FrameOutcome) : Concurs (do
      Engine.endFrame stamp.number
      return some b : Action σ φ ω (Option FrameOutcome)) :=
    Concurs.chains.bind (Concurs.endFrame _) fun _ => Concurs.chains.pure _
  cases outcome with
  | none => exact ⟨rfl, h⟩
  | some outcome =>
    cases outcome with
    | completed =>
      obtain ⟨hanswer, hrendered⟩ := h.render dt stamp hside
      have hall := hend (Engine.render F dt stamp e).1 _ _ hrendered
      have hsplit (e : Engine σ φ ω) : Engine.conclude F dt stamp (some .completed) e = (do
          Engine.endFrame stamp.number
          return some (Engine.render F dt stamp e).1) (Engine.render F dt stamp e).2 := rfl
      rw [hsplit, hsplit e', ← hanswer]
      exact hall
    | skipped => exact hend .skipped e e' h
    | failed => exact hend .failed e e' h

theorem step (h : Counterparts e e') (hF : Blind F) (hin : InStep F e e') :
    (step F e).1 = (step F e').1 ∧ Counterparts (step F e).2 (step F e').2 := by
  have hlimiter : e'.limiter = e.limiter := by
    obtain ⟨settings, scene, storage, strategy, telemetry, hrest⟩ := h.rest
    rw [hrest]
  have hstep (e : Engine σ φ ω) : Engine.step F e =
    Engine.conclude F (simulationStep e.limiter.lastFrame) (nextFrame F e).1.1 (nextFrame F e).1.2
      (nextFrame F e).2 := rfl
  obtain ⟨hframe, hsimulated⟩ := h.simulate hF (simulationStep e.limiter.lastFrame) hin.start
  have hnext : (nextFrame F e).1 = (nextFrame F e').1 ∧
      Counterparts (nextFrame F e).2 (nextFrame F e').2 := by
    rw [nextFrame, nextFrame, hlimiter]
    exact ⟨hframe, hsimulated⟩
  have hside := hin.side
  rw [owedAtRendering, owedAtRendering, ← hnext.1] at hside
  rw [hstep, hstep e', hlimiter, ← hnext.1]
  exact hnext.2.conclude _ _ _ hside

theorem make (h : Counterparts e e') (hF : Blind F) {move : Move σ}
    (hmove : Alongside F e e' move) :
    (make F move e).1 = (make F move e').1 ∧ Counterparts (make F move e).2 (make F move e').2 := by
  cases move with
  | start =>
    exact Concurs.chains.bind (Concurs.outset F).start (fun _ => Concurs.chains.pure _) e e' h
  | step =>
    obtain ⟨hanswer, hstepped⟩ := h.step hF hmove
    exact ⟨congrArg Answer.stepped hanswer, hstepped⟩
  | pace outcome => exact ⟨rfl, h.pace outcome hmove⟩
  | change f =>
    exact Concurs.chains.bind (Concurs.onScene (Worldly.change f)) (fun _ => Concurs.chains.pure _)
      e e' h
  | retime f =>
    have hretime : Concurs (modify fun e => { e with limiter := f e.limiter } :
        Action σ φ ω PUnit) := Concurs.adjust (fun _ _ _ _ _ _ => rfl) (fun _ => rfl) fun _ => rfl
    exact Concurs.chains.bind hretime (fun _ => Concurs.chains.pure _) e e' h

end Counterparts

end FrameLoop.Engine
