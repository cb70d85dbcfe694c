import FrameLoop.Proofs.CounterpartRuns

/-! Statistics that nobody collects: nothing is stored in them, unless the physics does it. -/

namespace FrameLoop

variable {σ κ α ε : Type} [StatsSink κ]

def Uncollected (k : κ) : Prop := ∀ category, StatsSink.collects k category = false

/-- The action stores nothing that is not collected. -/
def Sparing (act : Act σ κ α) : Prop := ∀ s, Uncollected s.sink → (act s).2.sink = s.sink

namespace Sparing

theorem of_sink {act : Act σ κ α} (h : ∀ s, (act s).2.sink = s.sink) : Sparing act := fun s _ => h s

theorem chains : Chains (S := Scene σ κ) Sparing where
  pure _ _ _ := rfl
  bind {α β act f} hact hf s hs := by
    have hfirst := hact s hs
    have hrest := hf (act s).1 (act s).2 (hfirst ▸ hs)
    exact hrest.trans hfirst

theorem timed (phase : Phase) (stamp : Stamp) {body : Attempt ε σ κ α} (h : Sparing body.run) :
    Sparing (Scene.timed phase stamp body).run := by
  intro s hs
  have hbody : (body.run (Scene.now s).2).2.sink = s.sink := h (Scene.now s).2 hs
  have hclose : Uncollected (body.run (Scene.now s).2).2.sink := hbody ▸ hs
  change (Scene.closePhase phase stamp (Scene.now s).1 (body.run (Scene.now s).2).2).2.sink = s.sink
  rw [Scene.closePhase_eq, hclose engineStats, if_neg Bool.false_ne_true]
  exact hbody

theorem behind {act : Act σ κ α} (h : Sparing act)
    (tasks : α → List (Task × Except Failure Unit)) : Sparing (TaskLog.behind tasks act) :=
  fun s hs => h (s.withWorld s.world.world) hs

theorem phased {F : Facades σ κ} {stamp : Stamp}
    (hF : ∀ dt guiActive, Sparing (F.stepPhysics dt guiActive stamp).run) :
    Phased Sparing F stamp where
  toChains := chains
  timed phase _ _ _ hbody := timed phase stamp hbody
  note thread _ _ := .of_sink fun _ => by cases thread <;> rfl
  ask _ := .of_sink fun _ => rfl
  change _ := .of_sink fun _ => rfl
  call _ := .of_sink fun _ => rfl
  nextEntry := .of_sink fun _ => rfl
  runLocal _ := .of_sink fun _ => rfl
  stepPhysics := hF
  reports := by
    intro s hs
    change ((if StatsSink.collects s.sink resourceStats then
      ExceptT.lift (F.reportStats stamp.number) else ExceptT.lift (pure ()) :
      Attempt Stop σ κ Unit) s).2.sink = s.sink
    rw [hs resourceStats, if_neg Bool.false_ne_true]
    rfl

end Sparing

namespace Engine

variable {φ ω : Type} {F : Facades σ FrameStats} {e : Engine σ φ ω}

theorem Resumable.render_spares (h : Resumable e) (hs : Uncollected e.scene.sink) (dt : Single)
    (stamp : Stamp) : (Engine.render F dt stamp e).2.scene.sink = e.scene.sink := by
  obtain ⟨strategy, he, hrested⟩ := h
  obtain ⟨-, writes, hpenned, hnames⟩ := render_penned (F := F) dt stamp he hrested
  rw [hs engineStats, if_neg Bool.false_ne_true, List.map_eq_nil_iff] at hnames
  subst hnames
  exact hpenned.wrote

variable [Report ω φ] (hF : ∀ dt guiActive stamp, Sparing (F.stepPhysics dt guiActive stamp).run)

include hF

theorem Resumable.step_spares (h : Resumable e) (hs : Uncollected e.scene.sink) :
    (Engine.step F e).2.scene.sink = e.scene.sink := by
  let dt := simulationStep e.limiter.lastFrame
  let stamp : Stamp := ⟨e.counter.next, (Scene.now e.scene).1⟩
  let y := Engine.simulate F dt e
  have hphased := Sparing.phased fun dt guiActive => hF dt guiActive stamp
  have hsimulated : y.2.scene.sink = e.scene.sink :=
    Orchestrator.phased_frame hphased dt e.orchestrator
      (F.tell (.advanceRenderer e.simulationTime stamp.number) (Scene.now e.scene).2).2 hs
  have hresumable : Resumable y.2 := h
  have hstep : Engine.step F e = conclude F dt y.1.1 y.1.2 y.2 := rfl
  rw [hstep]
  cases y.1.2 with
  | none => exact hsimulated
  | some outcome =>
    cases outcome with
    | completed =>
      have hrendered := hresumable.render_spares (F := F) (hsimulated ▸ hs) dt y.1.1
      exact hrendered.trans hsimulated
    | skipped | failed => exact hsimulated

theorem Resumable.make_spares (h : Resumable e) (hs : Uncollected e.scene.sink) (move : Move σ) :
    (Engine.make F move e).2.scene.sink = e.scene.sink := by
  by_cases hstep : move = .step
  · subst hstep
    exact h.step_spares hF hs
  · exact ((Keeps.routine F).make (fun h => absurd h hstep) e).sink

theorem Resumable.play_spares (h : Resumable e) (hs : Uncollected e.scene.sink)
    (moves : List (Move σ)) : (Engine.play F moves e).2.scene.sink = e.scene.sink := by
  induction moves generalizing e with
  | nil => rfl
  | cons move moves ih =>
    have hmade := h.make_spares hF hs move
    have hresumable : Resumable (Engine.make F move e).2 := h.play (F := F) [move]
    have hrest := ih hresumable (hmade ▸ hs)
    exact hrest.trans hmade

variable [Storage φ ω]

/-- From the beginning to the end of a run the statistics stay what they were. -/
theorem Resumable.run_spares (h : Resumable e) (hs : Uncollected e.scene.sink)
    (moves : List (Move σ)) :
    (Engine.play F moves e).2.scene.sink = e.scene.sink ∧
      (Engine.shutdown F (Engine.play F moves e).2).2.scene.sink = e.scene.sink := by
  have hplayed := h.play_spares hF hs moves
  obtain ⟨errors, before, after, last, hall⟩ := (h.play moves).completes (F := F)
  refine ⟨hplayed, ?_⟩
  rw [hall.engine, hall.discharges.sink]
  exact hplayed

omit hF in
/-- An engine that nobody asked to collect anything has nothing in its statistics. -/
theorem build_uncollected {settings : Settings} {world : σ} {storage : φ} {clock : Clock}
    {schedule : Schedule} {patience : Nat} {preparations : List Preparation}
    (hcollect : settings.collectStats = false)
    (htold : ∀ preparation ∈ preparations, preparation.isTold)
    (hb : build F settings world storage clock schedule none patience preparations = .ok e) :
    e.scene.sink = .new FrameStats.defaultHistory := by
  have hmore {made : Engine σ φ ω} (hfold : preparations.foldlM (equip F) made = .ok e) :
      e.scene.sink = made.scene.sink := by
    clear hb
    induction preparations generalizing made with
    | nil =>
      cases hfold
      rfl
    | cons preparation rest ih =>
      obtain ⟨hfirst, hrest⟩ := List.forall_mem_cons.mp htold
      cases preparation with
      | told settingsPath userDirectory startup startupScript =>
        have hnext := ih hrest hfold
        exact hnext
      | reporting path => cases hfirst
  cases hp : settings.problem? with
  | some problem =>
    unfold build at hb
    rw [new_of_problem F hp] at hb
    cases hb
  | none =>
    unfold build at hb
    rw [new_eq F hp] at hb
    obtain ⟨-, halike⟩ := UpdateStrategy.new_alike (Nat.min_le_right _ 1)
      ((Scene.now (opening settings world clock schedule)).2.append .main
        (Overlay.addPhases [] settings.physicsWorkers).2)
    rw [hmore hb]
    refine halike.sink.trans ?_
    change (if settings.collectStats then _ else _) = _
    rw [hcollect]
    rfl

end Engine

end FrameLoop
