import FrameLoop.Proofs.Interchange
import FrameLoop.Proofs.Sparing

/-! Telemetry only observes: nothing that is done in a run depends on what is collected, reported or
summarized of it, and what nobody asked for is not stored. -/

namespace FrameLoop.Engine

variable {σ φ ω : Type} [Report ω φ] [Storage φ ω]

/-- Two engines that are the same but for their telemetry, over subsystems that are blind to the
statistics, go through a run in the same way, as long as the clock shows the same to both when a frame
or a wait begins, and their workers, if it matters, have come as far as each other when a rendering
does: the same tasks and updates with the same answers, the same outcomes, times and worlds, to the end
of the shutdown. Engines that are built the same but for their telemetry are such engines. Without any
collection the statistics stay empty all the time, if the physics stores nothing of its own. -/
theorem telemetry_only_observes (F : Facades σ FrameStats) :
    (Blind F → ∀ (e e' : Engine (TaskLog σ) φ ω) (moves : List (Move (TaskLog σ))),
      Counterparts e e' → AllAlongside F.taskLogged moves e e' →
        let r := play F.taskLogged moves e
        let r' := play F.taskLogged moves e'
        r.1 = r'.1 ∧ SameOutside F.taskLogged r.2 r'.2 ∧
          SameOutside F.taskLogged (shutdown F.taskLogged r.2).2 (shutdown F.taskLogged r'.2).2) ∧
    (∀ (settings : Settings) (collectStats : Bool) (statsSummaryInterval : Double)
      (world : TaskLog σ) (storage storage' : φ) (clock clock' : Clock)
      (schedule schedule' : Schedule) (statsFile statsFile' : Option String) (patience : Nat)
      (preparations preparations' : List Preparation) (e e' : Engine (TaskLog σ) φ ω),
      clock.read.2.read.1 = clock'.read.2.read.1 →
      preparations.filter Preparation.isTold = preparations'.filter Preparation.isTold →
      build F.taskLogged settings world storage clock schedule statsFile patience preparations =
        .ok e →
      build F.taskLogged { settings with collectStats, statsSummaryInterval } world storage' clock'
        schedule' statsFile' patience preparations' = .ok e' → Counterparts e e') ∧
    ((∀ dt guiActive stamp, Sparing (F.stepPhysics dt guiActive stamp).run) →
      ∀ (settings : Settings) (world : σ) (storage : φ) (clock : Clock) (schedule : Schedule)
        (patience : Nat) (preparations : List Preparation) (e : Engine σ φ ω) (moves : List (Move σ)),
      settings.collectStats = false → (∀ preparation ∈ preparations, preparation.isTold) →
      build F settings world storage clock schedule none patience preparations = .ok e →
        (play F moves e).2.scene.sink = .new FrameStats.defaultHistory ∧
          (shutdown F (play F moves e).2).2.scene.sink = .new FrameStats.defaultHistory) := by
  refine ⟨fun hF e e' moves hparts hmoves => ?_, fun settings collectStats statsSummaryInterval world
    storage storage' clock clock' schedule schedule' statsFile statsFile' patience preparations
    preparations' e e' hclock htold hb hb' => counterparts_of_builds hclock htold hb hb',
    fun hF settings world storage clock schedule patience preparations e moves hcollect htold hb => ?_⟩
  · obtain ⟨hseen, hplayed⟩ := hparts.play hF.taskLogged hmoves
    exact ⟨hseen, hplayed.sameOutside, hplayed.shutdown⟩
  · have hempty := build_uncollected hcollect htold hb
    have hresumable : Resumable e :=
      prepared_resumable.build (fun _ => ⟨_, rfl, prepare_rested settings _⟩) hb
    have huncollected : Uncollected e.scene.sink := by
      rw [hempty]
      exact fun _ => rfl
    obtain ⟨hplayed, hshut⟩ := hresumable.run_spares hF huncollected moves
    exact ⟨hplayed.trans hempty, hshut.trans hempty⟩

open UpdateStrategy

theorem countingRendering_blind : Blind countingRendering where
  stepPhysics dt guiActive stamp :=
    Worldly.chains.headless Worldly.ask (Worldly.timed _ stamp (Worldly.chains.pure _)) dt guiActive
  reportPart part frame s := by cases part <;> rfl

theorem countingRendering_sparing (dt : Single) (guiActive : Bool) (stamp : Stamp) :
    Sparing (countingRendering.stepPhysics dt guiActive stamp).run :=
  Sparing.chains.headless (fun _ => .of_sink fun _ => rfl)
    (Sparing.timed _ stamp (Sparing.chains.pure _)) dt guiActive

/-- Settings with a script worker. -/
def workerSettings (collectStats : Bool) (statsSummaryInterval : Double) : Settings :=
  { Settings.defaults with scriptWorkerThreads := 1, collectStats, statsSummaryInterval }

/-- The engine as it is, with a clock that jumps whenever it is read. -/
def unobserved : Except Refusal (Engine (TaskLog Headless.World) Places PlaceReport) :=
  build countingRendering.taskLogged (workerSettings false (.ofNat 9))
    ⟨.new (fun _ => false) 0 9, [], []⟩ []
    ⟨(10 * ·), 0⟩ .lazy none 9 [.told none none (.newSession true) none]

/-- With a report of its frames, and a clock that goes on more slowly while they are timed. -/
def observed : Except Refusal (Engine (TaskLog Headless.World) Places PlaceReport) :=
  build countingRendering.taskLogged (workerSettings true (.ofNat 1)) ⟨.new (fun _ => false) 0 9, [], []⟩
    [("stats", ⟨.ok "", true, none, false⟩)]
    ⟨fun n => if n < 3 then 10 * n else if n < 22 then 20 + n else 10 * (n - 9), 0⟩ .lazy none 9
    [.told none none (.newSession true) none, .reporting "stats"]

/-- Whether the clock shows the same to both engines when the frames of two steps begin, and in the
wait between them. -/
def showsSame (e e' : Engine (TaskLog Headless.World) Places PlaceReport) : Bool :=
  let F := countingRendering.taskLogged
  let first := (make F .start e).2
  let first' := (make F .start e').2
  let second := (make F .step first).2
  let second' := (make F .step first').2
  (Scene.now first.scene).1 == (Scene.now first'.scene).1 &&
    (pace .completed second).2.limiter == (pace .completed second').2.limiter &&
      (Scene.now (make F (.pace .completed) second).2.scene).1 ==
        (Scene.now (make F (.pace .completed) second').2.scene).1

theorem telemetry_only_observes_two_steps :
    ∃ e e', unobserved = .ok e ∧ observed = .ok e' ∧
      (let moves := [.start, .step, .pace .completed, .step]
      (play countingRendering.taskLogged moves e).1 = (play countingRendering.taskLogged moves e').1 ∧
        (play countingRendering.taskLogged moves e).2.scene.sink = .new FrameStats.defaultHistory ∧
        (play countingRendering.taskLogged moves e').2.scene.sink.frameNumbers = [0, 1]) := by
  obtain ⟨e, he⟩ : ∃ e, unobserved = .ok e := exists_of_isOk (by decide +kernel)
  obtain ⟨e', he'⟩ : ∃ e', observed = .ok e' := exists_of_isOk (by decide +kernel)
  have hreadings : (unobserved.toOption.bind fun e => observed.toOption.map (showsSame e)) =
      some true := by decide +kernel
  have hframes : (observed.toOption.map fun e' =>
      (play countingRendering.taskLogged [.start, .step, .pace .completed, .step]
        e').2.scene.sink.frameNumbers) = some [0, 1] := by decide +kernel
  rw [he, he'] at hreadings
  rw [he'] at hframes
  have hsame : showsSame e e' = true := Option.some.inj hreadings
  simp only [showsSame, Bool.and_eq_true, beq_iff_eq] at hsame
  obtain ⟨⟨hfirst, hpaced⟩, hsecond⟩ := hsame
  obtain ⟨hruns, hbuilds, -⟩ :=
    telemetry_only_observes (φ := Places) (ω := PlaceReport) countingRendering
  obtain ⟨-, -, hspares⟩ :=
    telemetry_only_observes (φ := Places) (ω := PlaceReport) countingRendering.taskLogged
  have hparts : Counterparts e e' := by
    refine hbuilds (workerSettings false (.ofNat 9)) true (.ofNat 1) _ _ _ _ _ _ _ none none 9 _ _
      e e' ?_ ?_ he he'
    · rfl
    · rfl
  have hside : Separate countingRendering.taskLogged := countingRendering_separate.taskLogged
  have hmoves : AllAlongside countingRendering.taskLogged [.start, .step, .pace .completed, .step] e e' :=
    ⟨trivial, ⟨hfirst, fun _ => .inl hside⟩, hpaced, ⟨hsecond, fun _ => .inl hside⟩, trivial⟩
  have hphysics (dt : Single) (guiActive : Bool) (stamp : Stamp) :
      Sparing (countingRendering.taskLogged.stepPhysics dt guiActive stamp).run :=
    (countingRendering_sparing dt guiActive stamp).behind fun a => [(.stepPhysics dt guiActive stamp, a)]
  have hempty := hspares hphysics (workerSettings false (.ofNat 9)) _ _ _ _ _ _ e
    [.start, .step, .pace .completed, .step] rfl (by decide) he
  exact ⟨e, e', he, he', (hruns countingRendering_blind e e' _ hparts hmoves).1, hempty.1,
    Option.some.inj hframes⟩

end FrameLoop.Engine
