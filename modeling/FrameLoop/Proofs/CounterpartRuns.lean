import FrameLoop.Proofs.Counterparts
import FrameLoop.Proofs.TaskLog

/-! Two engines that are built, used and shut down beside each other, of which one may be observed
and the other not. -/

namespace FrameLoop

theorem UpdateStrategy.new_threaded {σ κ : Type} (workers : Nat) (s : Scene σ κ) :
    (new workers s).1.isThreaded = (workers != 0) := by
  match workers with
  | 0 => rfl
  | 1 => rfl
  | workers + 2 =>
    have hmany : 1 < workers + 2 := by omega
    unfold new
    rw [if_neg (Nat.succ_ne_zero _), if_pos hmany]
    rfl

namespace Engine

variable {σ φ ω : Type} {F : Facades σ FrameStats}

/-- What can be seen of both from outside is the same. -/
structure SameOutside (F : Facades σ FrameStats) (e e' : Engine σ φ ω) : Prop where
  world : e.scene.world = e'.scene.world
  simulationTime : e.simulationTime = e'.simulationTime
  shouldContinue : shouldContinue F e = shouldContinue F e'

theorem SameOutside.of_parts {e e' : Engine σ φ ω} (hworld : e.scene.world = e'.scene.world)
    (htime : e.simulationTime = e'.simulationTime) : SameOutside F e e' := by
  refine ⟨hworld, htime, ?_⟩
  unfold Engine.shouldContinue
  rw [hworld]

namespace Counterparts

variable {e e' e'' : Engine σ φ ω}

theorem refl (h : Resumable e) : Counterparts e e := ⟨⟨_, _, _, _, _, rfl⟩, rfl, h, h, rfl⟩

theorem symm (h : Counterparts e e') : Counterparts e' e := by
  refine ⟨?_, h.world.symm, h.resumable', h.resumable, h.worker.symm⟩
  obtain ⟨settings, scene, storage, strategy, telemetry, rfl⟩ := h.rest
  exact ⟨e.settings, e.scene, e.storage, e.strategy, e.telemetry, rfl⟩

theorem trans (h : Counterparts e e') (h' : Counterparts e' e'') : Counterparts e e'' := by
  refine ⟨?_, h.world.trans h'.world, h.resumable, h'.resumable', h.worker.trans h'.worker⟩
  obtain ⟨settings, scene, storage, strategy, telemetry, hrest⟩ := h'.rest
  obtain ⟨_, _, _, _, _, rfl⟩ := h.rest
  exact ⟨settings, scene, storage, strategy, telemetry, hrest⟩

theorem sameOutside (h : Counterparts e e') : SameOutside F e e' := by
  refine .of_parts h.world ?_
  obtain ⟨settings, scene, storage, strategy, telemetry, rfl⟩ := h.rest
  rfl

end Counterparts

variable [Report ω φ]

/-- The moves are made with both engines, one after the other. -/
def AllAlongside (F : Facades σ FrameStats) : List (Move σ) → Engine σ φ ω → Engine σ φ ω → Prop
  | [], _, _ => True
  | move :: rest, e, e' =>
    Alongside F e e' move ∧ AllAlongside F rest (make F move e).2 (make F move e').2

theorem Counterparts.play {e e' : Engine σ φ ω} (h : Counterparts e e') (hF : Blind F)
    {moves : List (Move σ)} (hmoves : AllAlongside F moves e e') :
    (play F moves e).1 = (play F moves e').1 ∧ Counterparts (play F moves e).2 (play F moves e').2 := by
  induction moves generalizing e e' with
  | nil => exact ⟨rfl, h⟩
  | cons move moves ih =>
    obtain ⟨hmove, hrest⟩ := hmoves
    obtain ⟨hanswer, hmade⟩ := h.make hF hmove
    obtain ⟨hseen, hplayed⟩ := ih hmade hrest
    obtain ⟨hworld, htime, -⟩ := hmade.sameOutside (F := F)
    have hplay (e : Engine σ φ ω) : Engine.play F (move :: moves) e =
        let x := Engine.make F move e
        (⟨x.1, x.2.simulationTime, x.2.scene.world⟩ :: (Engine.play F moves x.2).1,
          (Engine.play F moves x.2).2) := rfl
    rw [hplay, hplay]
    refine ⟨?_, hplayed⟩
    dsimp only
    rw [hanswer, hworld, htime, hseen]

variable [Storage φ ω]

/-- The duties of a shutdown do not depend on who is watching. -/
theorem Counterparts.shutdown {e e' : Engine σ φ ω} (h : Counterparts e e') :
    SameOutside F (shutdown F e).2 (shutdown F e').2 := by
  obtain ⟨errors, before, after, last, hall⟩ := h.resumable.completes (F := F)
  obtain ⟨errors', before', after', last', hall'⟩ := h.resumable'.completes (F := F)
  have hduties : preliminaries e' = preliminaries e := by
    obtain ⟨settings, scene, storage, strategy, telemetry, rfl⟩ := h.rest
    rfl
  have hdone := hall.discharges
  have hdone' := hall'.discharges
  rw [hduties] at hdone'
  rw [hall.engine, hall'.engine]
  refine .of_parts ?_ ?_
  · rw [hdone.world, hdone'.world, h.world]
  · obtain ⟨_, _, _, _, hrest⟩ := hdone.rest
    obtain ⟨_, _, _, _, hrest'⟩ := hdone'.rest
    rw [hrest, hrest']
    exact (h.sameOutside (F := F)).simulationTime

omit [Report ω φ] [Storage φ ω] in
theorem prepare_eq (settings : Settings) (s : Scene σ FrameStats) :
    let p : (UpdateStrategy × Limiter × Telemetry ω) × _ := prepare settings s
    p.1.2.1 = (Limiter.new settings.framerateLimit s.clock.read.2.read.1).1 ∧
      p.2.world = s.world ∧ p.1.1.isThreaded = (settings.scriptWorkers != 0) := by
  let opened := (Scene.now s).2.append .main (Overlay.addPhases [] settings.physicsWorkers).2
  obtain ⟨-, halike⟩ := UpdateStrategy.new_alike (Nat.min_le_right _ 1) opened
  refine ⟨?_, halike.world, UpdateStrategy.new_threaded _ opened⟩
  exact congrArg (fun clock : Clock => (Limiter.new settings.framerateLimit clock.read.1).1)
    halike.clock

/-- What an engine is told about itself. -/
def inform (e : Engine σ φ ω) : Preparation → Engine σ φ ω
  | .told settingsPath userDirectory startup startupScript =>
    { e with settingsPath, userDirectory, startup, startupScript }
  | .reporting _ => e

omit [Report ω φ] [Storage φ ω] in
theorem prepared_counterparts (base : Engine σ φ ω) :
    Prepared fun done e => Counterparts (done.foldl inform base) e where
  told done e settingsPath userDirectory startup startupScript h := by
    rw [List.foldl_append]
    refine ⟨?_, h.world, h.resumable.of_eq rfl, h.resumable'.of_eq rfl, h.worker⟩
    obtain ⟨settings, scene, storage, strategy, telemetry, rfl⟩ := h.rest
    exact ⟨settings, scene, storage, strategy, telemetry, rfl⟩
  reporting done e telemetry storage log h := by
    refine ⟨?_, h.world, h.resumable, h.resumable'.of_eq rfl, h.worker⟩
    obtain ⟨settings, scene, _, strategy, _, rfl⟩ := h.rest
    exact ⟨_, _, _, _, _, rfl⟩

omit [Report ω φ] [Storage φ ω] in
theorem assembled_counterparts (settings : Settings) (collectStats : Bool)
    (statsSummaryInterval : Double) (world : σ) (storage storage' : φ) (patience : Nat)
    {clock clock' : Clock} (schedule schedule' : Schedule)
    (hclock : clock.read.2.read.1 = clock'.read.2.read.1) :
    let settings' := { settings with collectStats, statsSummaryInterval }
    Counterparts (ω := ω)
      (assembled settings storage patience
        (prepare settings (opening settings world clock schedule)))
      (assembled settings' storage' patience
        (prepare settings' (opening settings' world clock' schedule'))) := by
  intro settings'
  obtain ⟨hlimiter, hworld, hthreaded⟩ :=
    prepare_eq (ω := ω) settings (opening settings world clock schedule)
  obtain ⟨hlimiter', hworld', hthreaded'⟩ :=
    prepare_eq (ω := ω) settings' (opening settings' world clock' schedule')
  have hrested := prepare_rested (ω := ω) settings (opening settings world clock schedule)
  have hrested' := prepare_rested (ω := ω) settings' (opening settings' world clock' schedule')
  have hreading : (opening settings world clock schedule).clock.read.2.read.1 =
      (opening settings' world clock' schedule').clock.read.2.read.1 := hclock
  rw [hreading] at hlimiter
  have hpacing := hlimiter.trans hlimiter'.symm
  have hthreads := hthreaded.trans hthreaded'.symm
  have hw := hworld.trans hworld'.symm
  generalize prepare settings (opening settings world clock schedule) = p at *
  generalize prepare settings' (opening settings' world clock' schedule') = p' at *
  obtain ⟨⟨strategy, limiter, telemetry⟩, scene⟩ := p
  obtain ⟨⟨strategy', limiter', telemetry'⟩, scene'⟩ := p'
  obtain rfl : limiter = limiter' := hpacing
  exact ⟨⟨settings', scene', storage', some strategy', telemetry', rfl⟩, hw, ⟨strategy, rfl, hrested⟩,
    ⟨strategy', rfl, hrested'⟩, hthreads⟩

/-- Engines that are built alike but for their telemetry are counterparts. -/
theorem counterparts_of_builds {settings : Settings} {collectStats : Bool}
    {statsSummaryInterval : Double} {world : σ} {storage storage' : φ} {clock clock' : Clock}
    {schedule schedule' : Schedule} {statsFile statsFile' : Option String} {patience : Nat}
    {preparations preparations' : List Preparation} {e e' : Engine σ φ ω}
    (hclock : clock.read.2.read.1 = clock'.read.2.read.1)
    (htold : preparations.filter Preparation.isTold = preparations'.filter Preparation.isTold)
    (hb : build F settings world storage clock schedule statsFile patience preparations = .ok e)
    (hb' : build F { settings with collectStats, statsSummaryInterval } world storage' clock' schedule'
      statsFile' patience preparations' = .ok e') :
    Counterparts e e' := by
  let base : Engine σ φ ω :=
    assembled settings storage patience (prepare settings (opening settings world clock schedule))
  have hbase : Resumable base := ⟨_, rfl, prepare_rested settings _⟩
  have hassembled := assembled_counterparts (ω := ω) settings collectStats statsSummaryInterval world
    storage storage' patience schedule schedule' hclock
  have hfirst := (prepared_counterparts base).build (fun _ => .refl hbase) hb
  have hsecond := (prepared_counterparts base).build (fun _ => hassembled) hb'
  rw [← htold] at hsecond
  exact hfirst.symm.trans hsecond

end Engine

end FrameLoop
