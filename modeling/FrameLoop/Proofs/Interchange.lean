import FrameLoop.Headless
import FrameLoop.Proofs.Service
import FrameLoop.Proofs.AlikeEngines
import FrameLoop.Storage.Basic

/-! A script worker can be had or not: the scripting engine gets the same updates, and as long as
the rendering and the scripting keep apart, nothing that can be seen of an engine tells whether it
has one. -/

namespace FrameLoop

theorem Settings.problem?_workers (settings : Settings) {n : Int} (hn : 0 ≤ n) :
    ({ settings with scriptWorkerThreads := n } : Settings).problem? =
      ({ settings with scriptWorkerThreads := 0 } : Settings).problem? := by
  simp only [problem?, Int.not_lt.mpr hn, if_false, Int.lt_irrefl]

namespace Engine

variable {σ φ ω : Type} {F : Facades σ FrameStats}

/-- Results of building engines: engines that are alike, or refusals for the same reason. -/
inductive AlikeResults : Except Refusal (Engine σ φ ω) → Except Refusal (Engine σ φ ω) → Prop
  | built {e e' : Engine σ φ ω} : Alike e e' → AlikeResults (.ok e) (.ok e')
  | refused {r r' : Refusal} : r.error = r'.error → AlikeResults (.error r) (.error r')

theorem AlikeResults.bind {r r' : Except Refusal (Engine σ φ ω)}
    {f : Engine σ φ ω → Except Refusal (Engine σ φ ω)} (h : AlikeResults r r')
    (hf : ∀ e e', Alike e e' → AlikeResults (f e) (f e')) : AlikeResults (r >>= f) (r' >>= f) := by
  cases h with
  | built h => exact hf _ _ h
  | refused h => exact .refused h

/-- Nothing that can be done with them tells the engines apart. -/
theorem AlikeResults.seen [Report ω φ] {r r' : Except Refusal (Engine σ φ ω)} (h : AlikeResults r r')
    (hF : Confined F) (hd : Separate F) (moves : List (Move σ)) :
    seen F moves r = seen F moves r' := by
  cases h with
  | built h => exact congrArg Except.ok (Agrees.play hF hd moves _ _ h).1
  | refused h => exact congrArg Except.error h

/-- What an engine is made of does not tell how many script workers are wanted. -/
theorem prepare_alike (settings settings' : Settings) {s s' : Scene σ FrameStats}
    (hlimit : settings'.framerateLimit = settings.framerateLimit)
    (hphysics : settings'.physicsWorkers = settings.physicsWorkers)
    (hinterval : settings'.summaryInterval = settings.summaryInterval)
    (hs : Scene.Alike s s') :
    let p : (UpdateStrategy × Limiter × Telemetry ω) × _ := prepare settings s
    let p' : (UpdateStrategy × Limiter × Telemetry ω) × _ := prepare settings' s'
    p.1.2 = p'.1.2 ∧ Scene.Alike p.2 p'.2 ∧ p.1.1.Rested ∧ p'.1.1.Rested := by
  intro p p'
  let opened (settings : Settings) (s : Scene σ FrameStats) : Scene σ FrameStats :=
    (Scene.now s).2.append .main (Overlay.addPhases [] settings.physicsWorkers).2
  obtain ⟨hopened, hs⟩ := Respects.now s s' hs
  have hlog : Scene.Alike (opened settings s) (opened settings' s') := hs.append ..
  obtain ⟨hr, ha⟩ := UpdateStrategy.new_alike (Nat.min_le_right _ 1) (opened settings s)
  obtain ⟨hr', ha'⟩ := UpdateStrategy.new_alike (Nat.min_le_right _ 1) (opened settings' s')
  obtain ⟨hstarted, hs⟩ := Respects.now _ _ ((ha.trans hlog).trans ha'.symm)
  refine ⟨?_, hs.append .main .main (Limiter.frameFor settings.framerateLimit).2
    (Limiter.frameFor settings'.framerateLimit).2, hr, hr'⟩
  have hlimiter : p.1.2.1 = p'.1.2.1 := by
    change (Limiter.new settings.framerateLimit _).1 = (Limiter.new settings'.framerateLimit _).1
    rw [hlimit]
    exact congrArg (fun started => (Limiter.new settings.framerateLimit started).1) hstarted
  have htelemetry : p.1.2.2 = p'.1.2.2 := by
    change ({ Telemetry.new settings.summaryInterval (Scene.now s).1 with
        overlay := (Overlay.addPhases [] settings.physicsWorkers).1 } : Telemetry ω) =
      { Telemetry.new settings'.summaryInterval (Scene.now s').1 with
        overlay := (Overlay.addPhases [] settings'.physicsWorkers).1 }
    rw [hinterval, hphysics, hopened]
  exact Prod.ext hlimiter htelemetry

theorem assembled_alike {a b : Settings} (hsound : b.useSound = a.useSound) (storage : φ)
    (patience : Nat)
    {p p' : (UpdateStrategy × Limiter × Telemetry ω) × Scene σ FrameStats} (hparts : p.1.2 = p'.1.2)
    (hs : Scene.Alike p.2 p'.2) (hr : p.1.1.Rested) (hr' : p'.1.1.Rested) :
    Alike (assembled a storage patience p) (assembled b storage patience p') := by
  obtain ⟨⟨strategy, parts⟩, s⟩ := p
  obtain ⟨⟨strategy', parts'⟩, s'⟩ := p'
  cases hparts
  refine ⟨⟨b, s', some strategy', ?_⟩, hs, ⟨_, rfl, hr⟩, ⟨_, rfl, hr'⟩⟩
  simp only [assembled, hsound]

variable [Report ω φ] [Storage φ ω]

theorem withStatsFile_alike (path : String) (e e' : Engine σ φ ω) (h : Alike e e') :
    AlikeResults (withStatsFile F path e) (withStatsFile F path e') := by
  have hsink := h.scene.sink
  obtain ⟨settings, scene, strategy, rfl⟩ := h.rest
  unfold withStatsFile
  dsimp only
  obtain ⟨r, storage, log⟩ := e.telemetry.openReport path e.storage
  cases r with
  | error error => exact .refused rfl
  | ok telemetry =>
    have hscene := h.scene.append .main .main log log
    exact .built ⟨⟨_, _, _, rfl⟩, ⟨hscene.world, congrArg collectAll hscene.sink, hscene.clock⟩,
      h.rested, h.rested'⟩

theorem new_alike (settings : Settings) {n n' : Int} (hn : 0 ≤ n) (hn' : 0 ≤ n') (world : σ)
    (storage : φ) (clock : Clock) (schedule schedule' : Schedule) (statsFile : Option String)
    (patience : Nat) :
    AlikeResults
      (new F { settings with scriptWorkerThreads := n } world storage clock schedule statsFile
        patience)
      (new F { settings with scriptWorkerThreads := n' } world storage clock schedule' statsFile
        patience) := by
  let a : Settings := { settings with scriptWorkerThreads := n }
  let b : Settings := { settings with scriptWorkerThreads := n' }
  have hproblem : a.problem? = b.problem? :=
    (settings.problem?_workers hn).trans (settings.problem?_workers hn').symm
  change AlikeResults (new F a _ _ _ _ _ _) (new F b _ _ _ _ _ _)
  cases hb : b.problem? with
  | some problem =>
    rw [new_of_problem F hb, new_of_problem F (hproblem.trans hb)]
    exact .refused rfl
  | none =>
    rw [new_eq F hb, new_eq F (hproblem.trans hb)]
    have hscene : Scene.Alike (opening a world clock schedule) (opening b world clock schedule') :=
      ⟨rfl, rfl, rfl⟩
    obtain ⟨hparts, hs, hr, hr'⟩ :=
      prepare_alike (ω := ω) a b rfl rfl rfl hscene
    have halike := assembled_alike (a := a) (b := b) rfl storage patience hparts hs hr hr'
    cases statsFile with
    | none => exact .built halike
    | some path => exact withStatsFile_alike path _ _ halike

theorem build_alike (settings : Settings) {n n' : Int} (hn : 0 ≤ n) (hn' : 0 ≤ n') (world : σ)
    (storage : φ) (clock : Clock) (schedule schedule' : Schedule) (statsFile : Option String)
    (patience : Nat) (preparations : List Preparation) :
    AlikeResults
      (build F { settings with scriptWorkerThreads := n } world storage clock schedule statsFile
        patience preparations)
      (build F { settings with scriptWorkerThreads := n' } world storage clock schedule' statsFile
        patience preparations) := by
  refine (new_alike settings hn hn' world storage clock schedule schedule' statsFile
    patience).bind ?_
  induction preparations with
  | nil => exact fun e e' h => .built h
  | cons preparation rest ih =>
    intro e e' h
    refine AlikeResults.bind (r := equip F e preparation) ?_ ih
    cases preparation with
    | told settingsPath userDirectory startup startupScript =>
      obtain ⟨settings, scene, strategy, rfl⟩ := h.rest
      exact .built ⟨⟨_, _, _, rfl⟩, h.scene, h.rested, h.rested'⟩
    | reporting path => exact withStatsFile_alike path e e' h

end Engine

namespace UpdateStrategy

open Update

variable {σ κ φ ω : Type} [StatsSink κ]

omit [StatsSink κ] in
theorem asked_updated (F : Facades σ κ) (stamps : List Stamp) (w : Watched σ) :
    (stamps.foldl (updated F.watched) w).asked = w.asked ++ stamps.map .update := by
  induction stamps generalizing w with
  | nil => simp
  | cons stamp stamps ih =>
    rw [List.foldl_cons, ih]
    simp [updated, Facades.watched]

/-- Without a worker and with one, whatever it does when and however the updates end: every pair of
an allow and a finish leaves the same state behind, after the same updates for the same stamps, and
the sink has got timings under the same keys. Where rendering and scripting keep apart, engines that
differ in the number of their script workers answer every move alike, with the same simulation time
and the same state of the subsystems after it. -/
theorem strategies_interchange [Report ω φ] [Storage φ ω] :
    (∀ (F : Facades σ (Receipts κ)) (stamps : List Stamp)
        (s s' : Scene (Watched σ) (Receipts κ)), Steady κ → s.world = s'.world → s.sink = s'.sink →
      let r := serve F.watched stamps (.synchronous none) s
      let r' := serve F.watched stamps (.threaded .spawn) s'
      (r.1.2.map fun s => (s.world, s.sink.keys)) = (r'.1.2.map fun s => (s.world, s.sink.keys)) ∧
        (r.2.world, r.2.sink.keys) = (r'.2.world, r'.2.sink.keys) ∧
        r.1.1.Joined ∧ r'.1.1.Joined ∧
        r.2.world.asked = s.world.asked ++ stamps.map .update) ∧
      ∀ F : Facades σ FrameStats, Confined F → Separate F →
        ∀ (settings : Settings) (n n' : Int), 0 ≤ n → 0 ≤ n' →
        ∀ (world : σ) (storage : φ) (clock : Clock) (schedule schedule' : Schedule)
          (statsFile : Option String) (patience : Nat) (preparations : List Engine.Preparation)
          (moves : List (Engine.Move σ)),
        Engine.seen F moves (Engine.build F { settings with scriptWorkerThreads := n } world storage
            clock schedule statsFile patience preparations) =
          Engine.seen F moves (Engine.build F { settings with scriptWorkerThreads := n' } world
            storage clock schedule' statsFile patience preparations) := by
  refine ⟨fun F stamps s s' hk hw hsink => ?_, fun F hF hd settings n n' hn hn' world storage clock
    schedule schedule' statsFile patience preparations moves => ?_⟩
  · have hrested : Rested (.synchronous none) := rfl
    have hrested' : Rested (.threaded .spawn) := Threaded.Rested.spawn
    obtain ⟨htrail, hj, hworld, hkeys⟩ := serve_eq (F := F.watched) hk hrested stamps s
    obtain ⟨htrail', hj', hworld', hkeys'⟩ := serve_eq (F := F.watched) hk hrested' stamps s'
    rw [← hw] at htrail' hworld'
    rw [← hsink] at htrail' hkeys'
    refine ⟨htrail.trans htrail'.symm, ?_, hj, hj', ?_⟩
    · rw [hworld, hkeys, hworld', hkeys']
    · rw [hworld, asked_updated]
  · exact (Engine.build_alike settings hn hn' world storage clock schedule schedule' statsFile
      patience preparations).seen hF hd moves

/-- Headless subsystems with a rendering that counts its frames. -/
def countingRendering : Facades Headless.World FrameStats :=
  { Headless.facades with
    perform := fun c w =>
      if c = .renderingTraversals then Headless.quiet { w with rendered := w.rendered + 1 }
      else Headless.perform c w }

theorem countingRendering_confined : Confined countingRendering where
  stepPhysics dt guiActive stamp :=
    (Respects.timing stamp).headless Respects.ask dt guiActive
  reportPart part frame := by
    cases part with
    | world => exact Respects.chains.bind (Respects.ask _) fun _ => Respects.setAttribute _ _ _
    | resources => exact Respects.setAttribute _ _ _
    | _ => exact Respects.chains.pure _

theorem countingRendering_separate : Separate countingRendering :=
  ⟨Nat, Nat, ⟨Headless.World.rendered, fun n w => { w with rendered := n }, fun _ _ => rfl,
      fun _ => rfl⟩,
    ⟨Headless.World.updates, fun n w => { w with updates := n }, fun _ _ => rfl, fun _ => rfl⟩,
    fun _ _ _ => rfl, ⟨fun n => ⟨.ok (), n + 1, []⟩, fun _ => rfl⟩,
    fun _ => ⟨fun n => ⟨.finished, n + 1, []⟩, fun _ => rfl⟩⟩

/-- An engine that plays two frames of a session. -/
def twoFrames (workers : Int) : Except EngineError (List (Engine.Glimpse Headless.World)) :=
  Engine.seen countingRendering [.start, .step, .pace .completed, .step]
    (Engine.build countingRendering { Settings.defaults with scriptWorkerThreads := workers }
      (.new (fun _ => false) 0 9) ([] : Places) ⟨id, 0⟩ .lazy none 9
      [.told none none (.newSession true) none])

theorem strategies_interchange_two_frames :
    twoFrames 0 = twoFrames 1 ∧
      ((twoFrames 1).toOption.map fun glimpses =>
        glimpses.map fun g => (g.world.rendered, g.world.updates)) =
          some [(0, 0), (2, 1), (2, 1), (4, 2)] ∧
      let s : Scene (Watched Headless.World) (Receipts FrameStats) :=
        ⟨⟨.new (fun _ => false) 0 9, []⟩, ⟨.new 25, []⟩, ⟨id, 0⟩, .lazy, #[], #[]⟩
      (serve Headless.facades.watched [⟨0, 3⟩, ⟨1, 5⟩] (.synchronous none) s).2.world.asked =
        [.update ⟨0, 3⟩, .update ⟨1, 5⟩] := by
  obtain ⟨hpairs, hengines⟩ := strategies_interchange (σ := Headless.World) (κ := FrameStats)
    (φ := Places) (ω := PlaceReport)
  refine ⟨hengines countingRendering countingRendering_confined countingRendering_separate
    Settings.defaults 0 1 (by decide) (by decide)
    _ _ _ _ _ _ _ _ _, by decide +kernel, ?_⟩
  obtain ⟨-, -, -, -, hasked⟩ :=
    hpairs Headless.facades [⟨0, 3⟩, ⟨1, 5⟩] _ _ FrameStats.steady rfl rfl
  exact hasked

end UpdateStrategy

end FrameLoop
