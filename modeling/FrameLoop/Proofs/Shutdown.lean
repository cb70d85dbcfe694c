import FrameLoop.Headless
import FrameLoop.Proofs.Building
import FrameLoop.Proofs.Reports
import FrameLoop.Proofs.Service
import FrameLoop.Storage.Basic

/-! How a shutdown goes: one duty after the other, each of them once, whatever fails. The worker is
gone before the first of them that touches a subsystem, the report that is held is flushed after the
saves, and nobody but the engine holds the scripting engine when it is released. -/

namespace FrameLoop

variable {σ κ φ ω : Type}

/-- Between the frames the strategy rests again, whatever happened between the two calls. -/
theorem UpdateStrategy.Rested.paired [StatsSink κ] {F : Facades σ κ} {strategy : UpdateStrategy}
    (hs : strategy.Rested) (stamp : Stamp) (s s' : Scene σ κ) :
    ((strategy.allow F stamp s).1.finish F s').1.Rested := by
  cases strategy with
  | synchronous pending =>
    obtain rfl : pending = none := hs
    exact rfl
  | threaded t =>
    obtain ⟨_, _, hprimed⟩ := Update.Threaded.Rested.allow (F := F) hs stamp s
    obtain ⟨_, _, hrested⟩ := hprimed.finish (F := F) s'
    exact hrested

theorem UpdateStrategy.Joined.worker_lets_go {strategy : UpdateStrategy} (h : strategy.Joined) :
    (strategy.isThreaded && strategy.holdsScripting) = false := by
  cases strategy with
  | synchronous pending => rfl
  | threaded t =>
    have hexited : t.worker = .exited := h
    simp [isThreaded, holdsScripting, hexited]

namespace Telemetry

variable [Report ω φ]

/-- A flush asks the report that is held, if there is one, and holds on to it. A failure is no more
than a warning. -/
inductive Flushes (t : Telemetry ω) (storage : φ) : Telemetry ω → φ → List Record → Prop
  | absent : t.report = none → Flushes t storage t storage []
  | flushed {w w' : ω} {storage' : φ} :
    t.report = some w → Report.flush w storage = (.ok (), w', storage') →
      Flushes t storage { t with report := some w' } storage' []
  | failed {w w' : ω} {f : FileFault} {storage' : φ} :
    t.report = some w → Report.flush w storage = (.error f, w', storage') →
      Flushes t storage { t with report := some w' } storage'
        [⟨.warn, s!"Failed to flush frame statistics: {f.message}"⟩]

/-- In the end the report that is held is flushed, and then let go of whatever came of it. -/
inductive Closes (t : Telemetry ω) (storage : φ) : φ → List Record → Prop
  | absent : t.report = none → Closes t storage storage []
  | closed {t' : Telemetry ω} {w : ω} {storage' : φ} {log : List Record} :
    t.Flushes storage t' storage' log → t'.report = some w →
      Closes t storage (Report.close w storage') log

theorem flushes (t : Telemetry ω) (storage : φ) :
    t.Flushes storage (t.flush storage).1 (t.flush storage).2.1 (t.flush storage).2.2 := by
  unfold flush
  cases ht : t.report with
  | none => exact .absent ht
  | some w =>
    cases hw : Report.flush w storage with
    | mk answer rest =>
      simp only [hw]
      cases answer with
      | ok _ => exact .flushed ht hw
      | error f => exact .failed ht hw

theorem closes (t : Telemetry ω) (storage : φ) :
    t.Closes storage (t.close storage).1 (t.close storage).2 := by
  have hflushes := t.flushes storage
  unfold close
  generalize t.flush storage = flushed at hflushes
  obtain ⟨t', storage', log⟩ := flushed
  cases hflushes with
  | absent ht =>
    dsimp only
    rw [ht]
    exact .absent ht
  | flushed ht hw => exact .closed (.flushed ht hw) rfl
  | failed ht hw => exact .closed (.failed ht hw) rfl

end Telemetry

/-- A scene has come to this world, and the statistics are those there were before. Its logs and its
schedule may be others. -/
structure Scene.ComesTo (s s' : Scene σ κ) (w : σ) : Prop where
  world : s'.world = w
  sink : s'.sink = s.sink

namespace Engine

variable {F : Facades σ FrameStats}

def Resumable (e : Engine σ φ ω) : Prop := ∃ strategy, e.strategy = some strategy ∧ strategy.Rested

theorem Resumable.of_eq {e e' : Engine σ φ ω} (h : Resumable e) (hs : e'.strategy = e.strategy) :
    Resumable e' := by
  obtain ⟨strategy, he, hrested⟩ := h
  exact ⟨strategy, hs.trans he, hrested⟩

theorem Resumable.render {e : Engine σ φ ω} (h : Resumable e) (dt : Single) (stamp : Stamp) :
    Resumable (render F dt stamp e).2 := by
  obtain ⟨strategy, he, hs⟩ := h
  exact (render_penned dt stamp he hs).1

theorem prepare_rested (settings : Settings) (s : Scene σ FrameStats) :
    (prepare settings s : (UpdateStrategy × Limiter × Telemetry ω) × _).1.1.Rested := by
  let opened := (Scene.now s).2.append .main (Overlay.addPhases [] settings.physicsWorkers).2
  exact (UpdateStrategy.new_alike (Nat.min_le_right _ 1) opened).1

theorem prepared_resumable : Prepared fun _ (e : Engine σ φ ω) => Resumable e where
  told _ _ _ _ _ _ h := h.of_eq rfl
  reporting _ _ _ _ _ h := h.of_eq rfl

variable [Report ω φ]

theorem Resumable.step {e : Engine σ φ ω} (h : Resumable e) : Resumable (step F e).2 := by
  let y := simulate F (simulationStep e.limiter.lastFrame) e
  have hy : Resumable y.2 := h
  have hstep : (Engine.step F e) =
    conclude F (simulationStep e.limiter.lastFrame) y.1.1 y.1.2 y.2 := rfl
  rw [hstep]
  cases y.1.2 with
  | none => exact hy
  | some outcome =>
    cases outcome with
    | completed =>
      have hrendered := hy.render (F := F) (simulationStep e.limiter.lastFrame) y.1.1
      exact hrendered.of_eq rfl
    | skipped | failed => exact hy.of_eq rfl

theorem Resumable.play {e : Engine σ φ ω} (h : Resumable e) (moves : List (Move σ)) :
    Resumable (play F moves e).2 := by
  induction moves generalizing e with
  | nil => exact h
  | cons move moves ih =>
    have hmove : Resumable (make F move e).2 := by
      by_cases hstep : move = .step
      · subst hstep
        exact h.step
      · exact h.of_eq ((Keeps.routine F).make (fun h => absurd h hstep) e).strategy
    exact ih hmove

variable [Storage φ ω]

/-- What is done in a shutdown. -/
inductive Duty
  | join
  | saveSettings (path : String)
  | saveStorage (directory : String)
  | flushReport
  | dropStrategy
  | release (part : Part)
  | closeRenderer
  /-- What the report still holds is written, and it is let go of. -/
  | closeReport

/-- The parts that are released before the scripting engine. -/
def earlier : List Part := [.gui, .world, .state, .mechanics, .physics, .scripts, .input, .audio]

def parts : List Part := earlier ++ [.scripting, .resources, .workQueue]

/-- The duties up to the release of the scripting engine. -/
def preliminaries (e : Engine σ φ ω) : List Duty :=
  .join :: ((e.settingsPath.map .saveSettings).toList ++ ((e.userDirectory.map .saveStorage).toList ++
    (.flushReport :: .dropStrategy :: earlier.map .release)))

def remainder : List Duty := [.release .resources, .release .workQueue, .closeRenderer, .closeReport]

/-- An engine that is being shut down. -/
structure Shutdown (σ φ ω : Type) where
  engine : Engine σ φ ω
  /-- The strategy that was let go of. -/
  left : Option UpdateStrategy
  released : List Part

/-- How many hold the scripting engine: the engine itself, its strategy, and the worker of a strategy
that was let go of. -/
def Shutdown.holders (d : Shutdown σ φ ω) : Nat :=
  (if .scripting ∈ d.released then 0 else 1) +
    ((if d.engine.strategy.any (·.holdsScripting) then 1 else 0) +
      if d.left.any fun strategy => strategy.isThreaded && strategy.holdsScripting then 1 else 0)

/-- What is left of a failure to save. -/
def saving {ε : Type} (error : ε → EngineError) : Except ε Unit → List EngineError
  | .ok () => []
  | .error f => [error f]

inductive Discharges (F : Facades σ FrameStats) (d : Shutdown σ φ ω) :
    Duty → List EngineError → Shutdown σ φ ω → Prop
  | join {strategy joined : UpdateStrategy} {scene : Scene σ FrameStats} :
    d.engine.strategy = some strategy → joined.Joined →
    d.engine.scene.ComesTo scene d.engine.scene.world →
      Discharges F d .join []
        { d with engine := { d.engine with scene, strategy := some joined } }
  | saveSettings {path : String} {answer : Except FileFault Unit} {storage : φ}
    {scene : Scene σ FrameStats} :
    Storage.save path d.engine.settings.toJson d.engine.storage = (answer, storage) →
      d.engine.scene.ComesTo scene d.engine.scene.world →
      Discharges F d (.saveSettings path) (saving (.file path) answer)
        { d with engine := { d.engine with scene, storage } }
  | saveStorage {directory : String} {o : Outcome (Except Failure Unit) σ}
    {scene : Scene σ FrameStats} :
    F.perform (.saveStorage directory) d.engine.scene.world = o →
      d.engine.scene.ComesTo scene o.world →
      Discharges F d (.saveStorage directory) (saving .subsystem o.answer)
        { d with engine := { d.engine with scene } }
  | flushReport {telemetry : Telemetry ω} {storage : φ} {log : List Record} :
    d.engine.telemetry.Flushes d.engine.storage telemetry storage log →
      Discharges F d .flushReport []
        { d with engine := { d.engine with
          scene := d.engine.scene.append .main log, telemetry, storage } }
  | dropStrategy :
    Discharges F d .dropStrategy []
      { d with engine := { d.engine with strategy := none }, left := d.engine.strategy }
  | release {part : Part} {scene : Scene σ FrameStats} :
    d.engine.scene.ComesTo scene (F.perform (.release part) d.engine.scene.world).world →
      Discharges F d (.release part) []
        { d with engine := { d.engine with scene }, released := d.released ++ [part] }
  | closeRenderer {scene : Scene σ FrameStats} :
    d.engine.scene.ComesTo scene (F.perform .closeRenderer d.engine.scene.world).world →
      Discharges F d .closeRenderer [] { d with engine := { d.engine with scene } }
  | closeReport {storage : φ} {log : List Record} :
    d.engine.telemetry.Closes d.engine.storage storage log →
      Discharges F d .closeReport []
        { d with engine := { d.engine with scene := d.engine.scene.append .main log, storage } }

inductive DischargesAll (F : Facades σ FrameStats) :
    List Duty → Shutdown σ φ ω → List EngineError → Shutdown σ φ ω → Prop
  | nil (d : Shutdown σ φ ω) : DischargesAll F [] d [] d
  | cons {duty : Duty} {rest : List Duty} {d d' d'' : Shutdown σ φ ω}
    {errors more : List EngineError} :
    Discharges F d duty errors d' → DischargesAll F rest d' more d'' →
      DischargesAll F (duty :: rest) d (errors ++ more) d''

theorem DischargesAll.append {duties rest : List Duty} {d d' d'' : Shutdown σ φ ω}
    {errors more : List EngineError} (h : DischargesAll F duties d errors d')
    (hrest : DischargesAll F rest d' more d'') :
    DischargesAll F (duties ++ rest) d (errors ++ more) d'' := by
  induction h with
  | nil => exact hrest
  | cons hd _ ih =>
    rw [List.append_assoc]
    exact .cons hd (ih hrest)

theorem DischargesAll.single {duty : Duty} {d d' : Shutdown σ φ ω} {errors : List EngineError}
    (h : Discharges F d duty errors d') : DischargesAll F [duty] d errors d' := by
  have hone := DischargesAll.cons h (.nil d')
  rwa [List.append_nil] at hone

/-- Nothing else changes, least of all what there is to do. -/
theorem DischargesAll.rest {duties : List Duty} {d d' : Shutdown σ φ ω} {errors : List EngineError}
    (h : DischargesAll F duties d errors d') :
    ∃ scene storage strategy telemetry,
      d'.engine = { d.engine with scene, storage, strategy, telemetry } := by
  induction h with
  | nil => exact ⟨_, _, _, _, rfl⟩
  | cons hd _ ih =>
    obtain ⟨scene, storage, strategy, telemetry, hrest⟩ := ih
    refine ⟨scene, storage, strategy, telemetry, hrest.trans ?_⟩
    cases hd <;> rfl

theorem DischargesAll.sink {duties : List Duty} {d d' : Shutdown σ φ ω} {errors : List EngineError}
    (h : DischargesAll F duties d errors d') : d'.engine.scene.sink = d.engine.scene.sink := by
  induction h with
  | nil => rfl
  | cons hd _ ih =>
    rw [ih]
    cases hd with
    | join _ _ hw | saveSettings _ hw | saveStorage _ hw | release hw | closeRenderer hw =>
      exact hw.sink
    | flushReport | dropStrategy | closeReport => rfl

def Duty.calls : Duty → List Call
  | .saveStorage directory => [.saveStorage directory]
  | .release part => [.release part]
  | .closeRenderer => [.closeRenderer]
  | .join | .saveSettings _ | .flushReport | .dropStrategy | .closeReport => []

def told (F : Facades σ FrameStats) (w : σ) (calls : List Call) : σ :=
  calls.foldl (fun w c => (F.perform c w).world) w

theorem DischargesAll.world {duties : List Duty} {d d' : Shutdown σ φ ω} {errors : List EngineError}
    (h : DischargesAll F duties d errors d') :
    d'.engine.scene.world = Engine.told F d.engine.scene.world (duties.flatMap Duty.calls) := by
  induction h with
  | nil => rfl
  | @cons duty rest d _ _ _ _ hd _ ih =>
    rw [ih, List.flatMap_cons, Engine.told, Engine.told, List.foldl_append]
    congr 1
    cases hd with
    | join _ _ hw | saveSettings _ hw | release hw | closeRenderer hw => exact hw.world
    | flushReport | dropStrategy | closeReport => rfl
    | saveStorage ho hw =>
      subst ho
      exact hw.world

theorem DischargesAll.strategy {duties : List Duty} {d d' : Shutdown σ φ ω}
    {errors : List EngineError} (h : DischargesAll F duties d errors d') (hjoin : .join ∉ duties)
    (hdrop : .dropStrategy ∉ duties) : d'.engine.strategy = d.engine.strategy := by
  induction h with
  | nil => rfl
  | cons hd _ ih =>
    have hrest := ih (fun h => hjoin (List.mem_cons_of_mem _ h))
      (fun h => hdrop (List.mem_cons_of_mem _ h))
    cases hd with
    | join => exact absurd List.mem_cons_self hjoin
    | dropStrategy => exact absurd List.mem_cons_self hdrop
    | _ => exact hrest

/-- Releases in a row touch nothing but the world. -/
theorem discharges_releases (part : Part) (parts : List Part) (d : Shutdown σ φ ω)
    {scene : Scene σ FrameStats} (h : d.engine.scene.ComesTo scene ((part :: parts).foldl
      (fun w part => (F.perform (.release part) w).world) d.engine.scene.world)) :
    DischargesAll F ((part :: parts).map .release) d []
      { d with engine := { d.engine with scene }, released := d.released ++ part :: parts } := by
  induction parts generalizing part d with
  | nil => exact .single (.release h)
  | cons next parts ih =>
    let released : Scene σ FrameStats := { d.engine.scene with
      world := (F.perform (.release part) d.engine.scene.world).world }
    have hfirst : Discharges F d (.release part) []
        { d with engine := { d.engine with scene := released }, released := d.released ++ [part] } :=
      .release ⟨rfl, rfl⟩
    have hrest := ih next { d with
      engine := { d.engine with scene := released }, released := d.released ++ [part] } ⟨h.world, h.sink⟩
    have hall := DischargesAll.cons hfirst hrest
    simp only [List.append_assoc, List.singleton_append] at hall
    exact hall

omit [Report ω φ] in
theorem saveSettings_eq {e : Engine σ φ ω} {path : String} {answer : Except FileFault Unit}
    {storage : φ} (hp : e.settingsPath = some path)
    (hs : Storage.save path e.settings.toJson e.storage = (answer, storage)) :
    ∃ scene, e.scene.ComesTo scene e.scene.world ∧
      saveSettings e = ((saving (.file path) answer).head?, { e with storage, scene }) := by
  refine ⟨(saveSettings e).2.scene, ?_⟩
  cases answer with
  | ok _ =>
    have hsaved : e.settings.save path e.storage =
        (.ok (), [⟨.info, s!"Saved settings to '{path}'"⟩], storage) := by
      rw [Settings.save, hs]
    simp only [saveSettings, get_bind, hp, hsaved]
    exact ⟨⟨rfl, rfl⟩, rfl⟩
  | error f =>
    have hsaved : e.settings.save path e.storage = (.error (.file path f), [], storage) := by
      rw [Settings.save, hs]
    simp only [saveSettings, get_bind, hp, hsaved]
    exact ⟨⟨rfl, rfl⟩, rfl⟩

theorem saveSettings_discharges (d : Shutdown σ φ ω) :
    DischargesAll F (d.engine.settingsPath.map .saveSettings).toList d
      (saveSettings d.engine).1.toList { d with engine := (saveSettings d.engine).2 } := by
  cases hp : d.engine.settingsPath with
  | none =>
    have hidle : saveSettings d.engine = (none, d.engine) := by
      simp only [saveSettings, get_bind, hp]
      rfl
    rw [hidle]
    exact .nil d
  | some path =>
    cases hs : Storage.save path d.engine.settings.toJson d.engine.storage with
    | mk answer storage =>
      obtain ⟨scene, hw, hsaved⟩ := saveSettings_eq hp hs
      have hduty := DischargesAll.single (Discharges.saveSettings (F := F) hs hw)
      rw [hsaved]
      cases answer <;> exact hduty

omit [Report ω φ] [Storage φ ω] in
theorem saveStorage_eq {e : Engine σ φ ω} {directory : String}
    {o : Outcome (Except Failure Unit) σ} (hd : e.userDirectory = some directory)
    (ho : F.perform (.saveStorage directory) e.scene.world = o) :
    ∃ scene, e.scene.ComesTo scene o.world ∧
      saveStorage F e = ((saving .subsystem o.answer).head?, { e with scene }) := by
  have hcall : onScene (F.call (.saveStorage directory)).run e = (o.answer, { e with
      scene := { e.scene with world := o.world }.append .main o.log }) := by
    subst ho
    rfl
  refine ⟨(saveStorage F e).2.scene, ?_⟩
  simp only [saveStorage, get_bind, hd]
  simp only [bind_apply, hcall, hd]
  cases o.answer <;> exact ⟨⟨rfl, rfl⟩, rfl⟩

theorem saveStorage_discharges (d : Shutdown σ φ ω) :
    DischargesAll F (d.engine.userDirectory.map .saveStorage).toList d
      (saveStorage F d.engine).1.toList { d with engine := (saveStorage F d.engine).2 } := by
  cases hd : d.engine.userDirectory with
  | none =>
    have hidle : saveStorage F d.engine = (none, d.engine) := by
      simp only [saveStorage, get_bind, hd]
      rfl
    rw [hidle]
    exact .nil d
  | some directory =>
    obtain ⟨scene, hw, hsaved⟩ := saveStorage_eq (F := F) hd rfl
    have hduty := DischargesAll.single (Discharges.saveStorage (d := d) rfl hw)
    rw [hsaved]
    cases ho : (F.perform (.saveStorage directory) d.engine.scene.world).answer <;>
      rw [ho] at hduty <;> exact hduty

theorem flushReport_discharges (d : Shutdown σ φ ω) :
    DischargesAll F [.flushReport] d [] { d with engine := (flushReport d.engine).2 } :=
  .single (.flushReport (d.engine.telemetry.flushes d.engine.storage))

def released (F : Facades σ FrameStats) (w : σ) (parts : List Part) : σ :=
  parts.foldl (fun w part => (F.perform (.release part) w).world) w

omit [Report ω φ] [Storage φ ω] in
theorem release_parts (parts : List Part) (s : Scene σ FrameStats) :
    s.ComesTo ((parts.forM fun part => F.tell (.release part)) s).2 (released F s.world parts) := by
  induction parts generalizing s with
  | nil => exact ⟨rfl, rfl⟩
  | cons part parts ih =>
    have hrest := ih (F.tell (.release part) s).2
    exact ⟨hrest.world, hrest.sink⟩

omit [Report ω φ] [Storage φ ω] in
theorem teardown_comesTo (s : Scene σ FrameStats) :
    s.ComesTo (F.teardown s).2 (released F s.world parts) := by
  have hnote (message : String) (s : Scene σ FrameStats) :
      s.ComesTo ((Scene.note .main .debug message : Act σ FrameStats Unit) s).2 s.world :=
    ⟨rfl, rfl⟩
  have hgui (s : Scene σ FrameStats) :
      s.ComesTo (F.tell (.release .gui) s).2 (released F s.world [.gui]) := ⟨rfl, rfl⟩
  constructor
  · simp only [Facades.teardown, bind_apply, (hnote _ _).world, (release_parts _ _).world,
      (hgui _).world]
    rfl
  · simp only [Facades.teardown, bind_apply, (hnote _ _).sink, (release_parts _ _).sink,
      (hgui _).sink]

omit [Storage φ ω] in
theorem release_eq (e : Engine σ φ ω) :
    ∃ scene, e.scene.ComesTo scene (F.perform .closeRenderer (released F e.scene.world parts)).world ∧
      (release F e).2 = { e with
        scene := scene.append .main (e.telemetry.close e.storage).2
        strategy := none
        storage := (e.telemetry.close e.storage).1 } := by
  let renderer : Action σ φ ω Unit := do
    tell F .closeRenderer
    note .info "Engine shut down"
  let rest : Action σ φ ω Unit := do
    renderer
    abandon F
  have hrest (s : Scene σ FrameStats) : ∃ scene,
      s.ComesTo scene (F.perform .closeRenderer s.world).world ∧
      (rest { e with strategy := none, scene := s }).2 = { e with
        scene := scene.append .main (e.telemetry.close e.storage).2
        strategy := none
        storage := (e.telemetry.close e.storage).1 } :=
    ⟨(renderer { e with strategy := none, scene := s }).2.scene, ⟨rfl, rfl⟩, rfl⟩
  have honScene (act : Act σ FrameStats Unit) (e : Engine σ φ ω) :
      (onScene act e).2 = { e with scene := (act e.scene).2 } := rfl
  have hrelease : release F e = rest (onScene F.teardown { e with strategy := none }).2 := by
    rw [release, modify_bind, bind_apply]
    rfl
  have hdown := teardown_comesTo (F := F) e.scene
  obtain ⟨scene, hscene, he⟩ := hrest (F.teardown e.scene).2
  rw [hdown.world] at hscene
  rw [hrelease, honScene]
  exact ⟨scene, ⟨hscene.world, hscene.sink.trans hdown.sink⟩, he⟩

/-- When the scripting engine is released, the parts that come before it are gone, and the strategy
with them. -/
theorem release_discharges (d : Shutdown σ φ ω) (hd : d.released = []) :
    ∃ d₁ d₂, DischargesAll F (.dropStrategy :: earlier.map .release) d [] d₁ ∧
      (d₁.engine.strategy = none ∧ d₁.left = d.engine.strategy ∧ d₁.released = earlier) ∧
      Discharges F d₁ (.release .scripting) [] d₂ ∧
      (d₂.engine.strategy = none ∧ d₂.left = d.engine.strategy ∧
        d₂.released = earlier ++ [.scripting]) ∧
      DischargesAll F remainder d₂ []
        ⟨(Engine.release F d.engine).2, d.engine.strategy, parts⟩ := by
  let told (released : List Part) : Shutdown σ φ ω :=
    ⟨{ d.engine with
      strategy := none
      scene := { d.engine.scene with world := Engine.released F d.engine.scene.world released } },
      d.engine.strategy, released⟩
  have hrelease (released : List Part) (part : Part) :
      Discharges F (told released) (.release part) [] (told (released ++ [part])) := by
    refine .release ⟨?_, rfl⟩
    exact List.foldl_append ..
  have hfirst : DischargesAll F (earlier.map .release)
      ⟨{ d.engine with strategy := none }, d.engine.strategy, []⟩ [] (told earlier) :=
    discharges_releases .gui _ _ ⟨rfl, rfl⟩
  obtain ⟨scene, hw, he⟩ := release_eq (F := F) d.engine
  refine ⟨told earlier, told (earlier ++ [.scripting]), ?_, ⟨rfl, rfl, rfl⟩, hrelease _ _,
    ⟨rfl, rfl, rfl⟩, ?_⟩
  · rw [← hd] at hfirst
    exact .cons .dropStrategy hfirst
  · rw [he]
    have hresources := hrelease (earlier ++ [.scripting]) .resources
    have hqueue := hrelease (earlier ++ [.scripting] ++ [.resources]) .workQueue
    have hclosed : (told (earlier ++ [.scripting] ++ [.resources] ++ [.workQueue])).engine.scene.ComesTo
        scene _ := ⟨hw.world, hw.sink⟩
    exact .cons hresources (.cons hqueue (.cons (.closeRenderer hclosed)
      (.single (.closeReport (d.engine.telemetry.closes d.engine.storage)))))

theorem join_discharges {d : Shutdown σ φ ω} (h : Resumable d.engine) :
    ∃ joined : UpdateStrategy, joined.Joined ∧
      (onStrategy (UpdateStrategy.join F) d.engine).2.strategy = some joined ∧
      Discharges F d .join [] { d with engine := (onStrategy (UpdateStrategy.join F) d.engine).2 } := by
  obtain ⟨strategy, he, hs⟩ := h
  obtain ⟨hjoined, hw, hsink⟩ := hs.joins (F := F) d.engine.scene
  rw [onStrategy_eq he]
  exact ⟨_, hjoined, rfl, .join he hjoined ⟨hw, hsink⟩⟩

def outcome : List EngineError → Except EngineError Unit
  | [] => .ok ()
  | error :: _ => .error error

/-- A shutdown does all its duties, in their order. Only the saves can fail, and the first of them
that does is the result. When the scripting engine is released, the engine is the last to hold it. -/
structure Completes (F : Facades σ FrameStats) (e : Engine σ φ ω) (errors : List EngineError)
    (before after last : Shutdown σ φ ω) : Prop where
  preliminaries : DischargesAll F (preliminaries e) ⟨e, none, []⟩ errors before
  scripting : Discharges F before (.release .scripting) [] after
  remainder : DischargesAll F remainder after [] last
  worker : ∃ joined : UpdateStrategy, before.left = some joined ∧ joined.Joined
  holders : before.holders = 1 ∧ after.holders = 0
  result : (shutdown F e).1 = outcome errors
  engine : (shutdown F e).2 = last.engine

theorem Completes.discharges {e : Engine σ φ ω} {errors : List EngineError}
    {before after last : Shutdown σ φ ω} (h : Completes F e errors before after last) :
    DischargesAll F (Engine.preliminaries e ++ .release .scripting :: Engine.remainder)
      ⟨e, none, []⟩ errors last := by
  have hall := h.preliminaries.append (.cons h.scripting h.remainder)
  rwa [List.append_nil, List.append_nil] at hall

theorem shutdown_eq (F : Facades σ FrameStats) (e : Engine σ φ ω) :
    let e₁ := (onStrategy (UpdateStrategy.join F) e).2
    let e₂ := (saveSettings e₁).2
    let e₃ := (saveStorage F e₂).2
    shutdown F e = (outcome ((saveSettings e₁).1.toList ++ (saveStorage F e₂).1.toList),
      (Engine.release F (flushReport e₃).2).2) := by
  simp only [shutdown, bind_apply, pure_apply]
  refine Prod.ext ?_ rfl
  dsimp only
  generalize (saveSettings (onStrategy (UpdateStrategy.join F) e).2) = saved
  obtain ⟨_ | error, e₂⟩ := saved
  · dsimp only
    generalize (saveStorage F e₂).1 = second
    cases second <;> rfl
  · rfl

theorem Resumable.completes {e : Engine σ φ ω} (h : Resumable e) :
    ∃ errors before after last, Completes F e errors before after last := by
  obtain ⟨joined, hjoined, hstrategy, hjoin⟩ := join_discharges (F := F) (d := ⟨e, none, []⟩) h
  have hshutdown := shutdown_eq F e
  dsimp only at hshutdown hstrategy hjoin
  generalize (onStrategy (UpdateStrategy.join F) e).2 = e₁ at hjoin hstrategy hshutdown
  have hsettings := saveSettings_discharges (F := F) ⟨e₁, none, []⟩
  generalize saveSettings e₁ = saved at hsettings hshutdown
  obtain ⟨first, e₂⟩ := saved
  have hstorage := saveStorage_discharges (F := F) ⟨e₂, none, []⟩
  dsimp only at hsettings hstorage hshutdown
  generalize saveStorage F e₂ = saved at hstorage hshutdown
  obtain ⟨second, e₃⟩ := saved
  have hflush := flushReport_discharges (F := F) ⟨e₃, none, []⟩
  dsimp only at hflush hstorage hshutdown
  generalize (flushReport e₃).2 = e₄ at hflush hshutdown
  obtain ⟨before, after, hdrop, ⟨hs, hl, hr⟩, hscripting, ⟨hs', hl', hr'⟩, hremainder⟩ :=
    release_discharges (F := F) ⟨e₄, none, []⟩ rfl
  have hsaves := hsettings.append (hstorage.append hflush)
  have hkept : e₄.strategy = some joined := (hsaves.strategy (by simp) (by simp)).trans hstrategy
  obtain ⟨_, _, _, _, hjoined'⟩ := (DischargesAll.single hjoin).rest
  obtain ⟨_, _, _, _, hsaved⟩ := hsettings.rest
  dsimp only at hjoined' hsaved
  have hpath : e₁.settingsPath = e.settingsPath := by rw [hjoined']
  have hdirectory : e₂.userDirectory = e.userDirectory := by rw [hsaved, hjoined']
  rw [hpath] at hsettings
  rw [hdirectory] at hstorage
  have hall := DischargesAll.cons hjoin (hsettings.append (hstorage.append (hflush.append hdrop)))
  simp only [List.append_nil, List.nil_append] at hall
  have hleft : before.left = some joined := hl.trans hkept
  have hleft' : after.left = some joined := hl'.trans hkept
  dsimp only at hremainder
  generalize (Engine.release F e₄).2 = e₅ at hremainder hshutdown
  refine ⟨_, before, after, _, hall, hscripting, hremainder, ⟨joined, hleft, hjoined⟩, ⟨?_, ?_⟩,
    congrArg Prod.fst hshutdown, congrArg Prod.snd hshutdown⟩
  · simp [Shutdown.holders, hs, hr, hleft, hjoined.worker_lets_go, earlier]
  · simp [Shutdown.holders, hs', hr', hleft', hjoined.worker_lets_go]

/-- Subsystems that cannot save their storage. -/
def unsavingFacades : Facades Headless.World FrameStats := { Headless.facades with
  perform := fun c w =>
    match c with
    | .saveStorage _ => ⟨.error ⟨"disk full", []⟩, w, []⟩
    | c => Headless.perform c w }

/-- What may be asked of files. -/
inductive FileCall
  | create (path : String)
  | save (path : String)
  | flush
  | close
  deriving DecidableEq

/-- A disk that is full, with what was asked of it. What is written to a report is held back. -/
structure FullDisk where
  asked : List FileCall

/-- The file of statistics on a full disk. -/
inductive FullReport
  | opened
  deriving DecidableEq

def FullDisk.fault : FileFault := .other "No space left on device (os error 28)"

instance : Report FullReport FullDisk where
  write _ w disk := (.ok (), w, disk)
  flush w disk := (.error FullDisk.fault, w, ⟨disk.asked ++ [.flush]⟩)
  close _ disk := ⟨disk.asked ++ [.close]⟩

instance : Storage FullDisk FullReport where
  read _ _ := .error .notFound
  save path _ disk := (.error FullDisk.fault, ⟨disk.asked ++ [.save path]⟩)
  create path disk := (.ok .opened, ⟨disk.asked ++ [.create path]⟩)
  holds _ _ := false

/-- An engine with a script worker and a report, of which nothing can be saved. -/
def unsavedEngine : Except Refusal (Engine Headless.World FullDisk FullReport) :=
  build unsavingFacades { Settings.defaults with scriptWorkerThreads := 1 } (.new (fun _ => false) 0 9)
    ⟨[]⟩ ⟨id, 0⟩ .lazy (some "stats") 9
    [.told (some "settings") (some "user") (.newSession true) none]

/-- The error of a result, if it is one. -/
def ofResult? (r : Except EngineError Unit) : Option EngineError :=
  match r with
  | .error error => some error
  | .ok () => none

end Engine

end FrameLoop
