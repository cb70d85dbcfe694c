import FrameLoop.Proofs.History
import FrameLoop.Proofs.IterationCalls
import FrameLoop.Proofs.Routine
import FrameLoop.Proofs.Writes

/-! What an iteration writes, and what it reports: under its own number it writes the record of its
frame, and it reports the record of the frame two before it. -/

namespace FrameLoop

variable {σ φ ω α : Type}

/-- While `good`, the reports take every piece, and `received` is all the text they took. -/
structure Accepting [Report ω φ] (good : ω → φ → Prop) (received : ω → φ → String) : Prop where
  write : ∀ piece w storage, good w storage →
    ∃ w' storage', Report.write piece w storage = (.ok (), w', storage') ∧ good w' storage' ∧
      received w' storage' = received w storage ++ piece

/-- What is written at the end of a frame. -/
def reportPieces (stats : FrameStats) (frame : Nat) : List String :=
  if frame < reportLag then []
  else ((stats.record? (frame - reportLag)).map (Line.pieces (frame - reportLag))).getD []

namespace Accepting

variable [Report ω φ] {good : ω → φ → Prop} {received : ω → φ → String}
  (h : Accepting good received)

include h

theorem writePieces (pieces : List String) {w : ω} {storage : φ} (hg : good w storage) :
    ∃ w' storage', Telemetry.writePieces pieces w storage = (.ok (), w', storage') ∧
      good w' storage' ∧ received w' storage' = received w storage ++ String.join pieces := by
  induction pieces generalizing w storage with
  | nil => exact ⟨w, storage, rfl, hg, by rw [String.join_nil, String.append_empty]⟩
  | cons piece pieces ih =>
    obtain ⟨w', storage', hwrite, hg', hr⟩ := h.write piece w storage hg
    obtain ⟨w'', storage'', hrest, hg'', hr'⟩ := ih hg'
    refine ⟨w'', storage'', ?_, hg'', ?_⟩
    · rw [Telemetry.writePieces, hwrite]
      exact hrest
    · rw [hr', hr, String.join_cons, String.append_assoc]

theorem reportFrame {t : Telemetry ω} {w : ω} {storage : φ} (ht : t.report = some w)
    (hg : good w storage) (stats : FrameStats) (frame : Nat) :
    let r := t.reportFrame stats frame storage
    ∃ w', r.2.1.report = some w' ∧ good w' r.2.2.1 ∧
      received w' r.2.2.1 = received w storage ++
        String.join (((stats.record? frame).map (Line.pieces frame)).getD []) := by
  unfold Telemetry.reportFrame Telemetry.writeFrame
  rw [ht]
  cases stats.record? frame with
  | none => exact ⟨w, rfl, hg, by simp⟩
  | some attributes =>
    obtain ⟨w', storage', hwrite, hg', hr⟩ := h.writePieces (Line.pieces frame attributes) hg
    dsimp only
    rw [hwrite]
    exact ⟨w', rfl, hg', hr⟩

/-- At the end of a frame the line that is due is written, and nothing else. -/
theorem endFrame {t : Telemetry ω} {w : ω} {storage : φ} (ht : t.report = some w)
    (hg : good w storage) (stats : FrameStats) (frame : Nat) (now : Instant) :
    let r := t.endFrame stats frame now storage
    ∃ w', r.2.1.report = some w' ∧ good w' r.2.2.1 ∧
      received w' r.2.2.1 = received w storage ++ String.join (reportPieces stats frame) := by
  have hsummarize (t : Telemetry ω) :
      (t.summarize stats (frame - reportLag) now).1.report = t.report := by
    unfold Telemetry.summarize
    split <;> rfl
  obtain ⟨w', hw', hg', hr⟩ := h.reportFrame ht hg stats (frame - reportLag)
  unfold Telemetry.endFrame reportPieces
  split
  · exact ⟨w, ht, hg, by simp⟩
  · exact ⟨w', (hsummarize _).trans hw', hg', hr⟩

end Accepting

namespace Engine

variable {F : Facades σ FrameStats}

/-- Nothing was written, and nothing reported. -/
structure Kept (e e' : Engine σ φ ω) : Prop where
  sink : e'.scene.sink = e.scene.sink
  storage : e'.storage = e.storage
  strategy : e'.strategy = e.strategy
  counter : e'.counter = e.counter
  telemetry : e'.telemetry = e.telemetry

def Keeps (act : Action σ φ ω α) : Prop := ∀ e, Kept e (act e).2

theorem Kept.trans {e e' e'' : Engine σ φ ω} (h : Kept e e') (h' : Kept e' e'') : Kept e e'' :=
  ⟨h'.sink.trans h.sink, h'.storage.trans h.storage, h'.strategy.trans h.strategy,
    h'.counter.trans h.counter, h'.telemetry.trans h.telemetry⟩

theorem Keeps.routine (F : Facades σ FrameStats) :
    Routine (σ := σ) (φ := φ) (ω := ω) Keeps F where
  pure _ _ := ⟨rfl, rfl, rfl, rfl, rfl⟩
  bind hact hf e := (hact e).trans (hf _ _)
  now _ := ⟨rfl, rfl, rfl, rfl, rfl⟩
  attempt _ _ := ⟨rfl, rfl, rfl, rfl, rfl⟩
  append _ _ := ⟨rfl, rfl, rfl, rfl, rfl⟩
  change _ _ := ⟨rfl, rfl, rfl, rfl, rfl⟩
  setStarted _ := ⟨rfl, rfl, rfl, rfl, rfl⟩
  retime _ _ := ⟨rfl, rfl, rfl, rfl, rfl⟩
  addTime _ _ := ⟨rfl, rfl, rfl, rfl, rfl⟩
  look _ hf e := hf _ e

/-- From one engine to the other these attributes were written for a frame, and nothing was
reported. -/
structure Penned (frame : Nat) (writes : List (String × Double)) (e e' : Engine σ φ ω) : Prop where
  wrote : Wrote frame writes e.scene e'.scene
  storage : e'.storage = e.storage
  counter : e'.counter = e.counter
  telemetry : e'.telemetry = e.telemetry

theorem Kept.penned {e e' : Engine σ φ ω} (h : Kept e e') (frame : Nat) : Penned frame [] e e' :=
  ⟨.of_sink h.sink, h.storage, h.counter, h.telemetry⟩

theorem Penned.trans {frame : Nat} {writes more : List (String × Double)} {e e' e'' : Engine σ φ ω}
    (h : Penned frame writes e e') (h' : Penned frame more e' e'') :
    Penned frame (writes ++ more) e e'' :=
  ⟨h.wrote.trans h'.wrote, h'.storage.trans h.storage, h'.counter.trans h.counter,
    h'.telemetry.trans h.telemetry⟩

/-- The engine whose next frame has its number. -/
def numberedNext (e : Engine σ φ ω) : Engine σ φ ω := { e with counter := ⟨e.counter.next + 1⟩ }

theorem simulate_penned (hF : Punctual F) (dt : Single) (e : Engine σ φ ω)
    (hc : StatsSink.collects e.scene.sink engineStats = true) :
    let y := simulate F dt e
    y.1.1.number = e.counter.next ∧ y.2.strategy = e.strategy ∧
      ∃ writes, Penned e.counter.next writes e.numberedNext y.2 ∧
        ∀ key ∈ Phase.input.keys, key ∈ writes.map Prod.fst := by
  intro y
  let stamp : Stamp := ⟨e.counter.next, (Scene.now e.scene).1⟩
  obtain ⟨writes, hw, hkeys⟩ := Orchestrator.frame_wrote e.orchestrator dt stamp hF FrameStats.steady
    (F.tell (.advanceRenderer e.simulationTime stamp.number) (Scene.now e.scene).2).2 hc
  exact ⟨rfl, rfl, writes, ⟨hw, rfl, rfl, rfl⟩, hkeys⟩

/-- A call on the strategy changes it and the scene. -/
structure Called (act : UpdateStrategy → Act σ FrameStats UpdateStrategy)
    (strategy : UpdateStrategy) (e e' : Engine σ φ ω) : Prop where
  scene : e'.scene = (act strategy e.scene).2
  strategy : e'.strategy = some (act strategy e.scene).1
  storage : e'.storage = e.storage
  counter : e'.counter = e.counter
  telemetry : e'.telemetry = e.telemetry

theorem onStrategy_called {e : Engine σ φ ω} {strategy : UpdateStrategy}
    (he : e.strategy = some strategy) (act : UpdateStrategy → Act σ FrameStats UpdateStrategy) :
    Called act strategy e (onStrategy act e).2 := by
  rw [onStrategy_eq he]
  exact ⟨rfl, rfl, rfl, rfl, rfl⟩

/-- The rendering of a completed frame writes the timings of its update, if they are collected. -/
theorem render_penned (dt : Single) (stamp : Stamp) {e : Engine σ φ ω} {strategy : UpdateStrategy}
    (he : e.strategy = some strategy) (hs : strategy.Rested) :
    let y := render F dt stamp e
    (∃ rested, y.2.strategy = some rested ∧ rested.Rested) ∧
      ∃ writes, Penned stamp.number writes e y.2 ∧ writes.map Prod.fst =
        if StatsSink.collects e.scene.sink engineStats then Phase.lua.keys else [] := by
  have hroutine := Keeps.routine (φ := φ) (ω := ω) F
  let tells : Action σ φ ω Unit := do
    tell F .eventTraversal
    tell F .updateTraversal
    tell F .updateWindowManager
  have htells : Keeps tells :=
    hroutine.bind (hroutine.tell _) fun _ => hroutine.bind (hroutine.tell _) fun _ => hroutine.tell _
  have hrest (rendered : Except Failure Unit) :
      Keeps (afterRendering F dt stamp rendered : Action σ φ ω FrameOutcome) := by
    cases rendered with
    | ok _ => exact hroutine.bind (hroutine.countTime dt) fun _ => hroutine.pure _
    | error f => exact hroutine.bind (hroutine.note _ _) fun _ => hroutine.pure _
  let e0 := (tells e).2
  let e1 := (onStrategy (UpdateStrategy.allow F stamp) e0).2
  let e2 := (onScene (F.call .renderingTraversals).run e1).2
  let e3 := (onStrategy (UpdateStrategy.finish F) e2).2
  have h0 : Kept e e0 := htells e
  have h1 : Called (UpdateStrategy.allow F stamp) strategy e0 e1 :=
    onStrategy_called (h0.strategy.trans he) _
  have h2 : Kept e1 e2 := hroutine.attempt _ e1
  have h3 : Called (UpdateStrategy.finish F) _ e2 e3 :=
    onStrategy_called (h2.strategy.trans h1.strategy) _
  have h4 : Kept e3 (render F dt stamp e).2 :=
    hrest (onScene (F.call .renderingTraversals).run e1).1 e3
  have hsink : e2.scene.sink = (strategy.allow F stamp e0.scene).2.sink := by
    rw [h2.sink, h1.scene]
  obtain ⟨hrested, writes, hw, hnames⟩ :=
    hs.wrote (F := F) FrameStats.steady stamp e0.scene e2.scene hsink
  rw [h0.sink] at hnames
  have hpair : Penned stamp.number writes e0 e3 :=
    ⟨h3.scene ▸ hw, h3.storage.trans (h2.storage.trans h1.storage),
      h3.counter.trans (h2.counter.trans h1.counter),
      h3.telemetry.trans (h2.telemetry.trans h1.telemetry)⟩
  refine ⟨⟨_, h4.strategy.trans h3.strategy, hrested⟩, writes, ?_, hnames⟩
  have hall := ((h0.penned _).trans hpair).trans (h4.penned _)
  rwa [List.nil_append, List.append_nil] at hall

variable [Report ω φ]

/-- What an iteration writes, under its own number, and what it then reports. -/
structure Iterated (writes : List (String × Double)) (outcome : FrameOutcome)
    (e e' : Engine σ φ ω) : Prop where
  counter : e'.counter.next = e.counter.next + 1
  wrote : Wrote e.counter.next writes e.scene e'.scene
  input : ∀ key ∈ Phase.input.keys, key ∈ writes.map Prod.fst
  lua : outcome = .completed → ∀ key ∈ Phase.lua.keys, key ∈ writes.map Prod.fst
  rested : ∃ strategy, e'.strategy = some strategy ∧ strategy.Rested
  reported : ∃ now,
    let r := e.telemetry.endFrame e'.scene.sink e.counter.next now e.storage
    e'.telemetry = r.2.1 ∧ e'.storage = r.2.2.1

/-- The end of the bookkeeping of an iteration in which all was written. -/
theorem Penned.iterated {writes : List (String × Double)} {outcome : FrameOutcome}
    {e m : Engine σ φ ω} (h : Penned e.counter.next writes e.numberedNext m)
    (hinput : ∀ key ∈ Phase.input.keys, key ∈ writes.map Prod.fst)
    (hlua : outcome = .completed → ∀ key ∈ Phase.lua.keys, key ∈ writes.map Prod.fst)
    (hrested : ∃ strategy, m.strategy = some strategy ∧ strategy.Rested) :
    Iterated writes outcome e (endFrame e.counter.next m).2 where
  counter := congrArg FrameCounter.next h.counter
  wrote := h.wrote
  input := hinput
  lua := hlua
  rested := hrested
  reported := by
    refine ⟨(Scene.now m.scene).1, ?_⟩
    have ht : m.telemetry = e.telemetry := h.telemetry
    have hs : m.storage = e.storage := h.storage
    rw [← ht, ← hs]
    exact ⟨rfl, rfl⟩

/-- An iteration that comes to an end writes under its own number, with the timings of its update
if its frame was completed. -/
theorem step_iterated (hF : Punctual F) {e : Engine σ φ ω} {strategy : UpdateStrategy}
    (he : e.strategy = some strategy) (hs : strategy.Rested)
    (hc : StatsSink.collects e.scene.sink engineStats = true) {outcome : FrameOutcome}
    (h : (step F e).1 = some outcome) : ∃ writes, Iterated writes outcome e (step F e).2 := by
  let dt := simulationStep e.limiter.lastFrame
  obtain ⟨hnumber, hstrategy, writes, hp, hinput⟩ := simulate_penned hF dt e hc
  have hstep : step F e = conclude F dt (simulate F dt e).1.1 (simulate F dt e).1.2
    (simulate F dt e).2 := rfl
  have he' := hstrategy.trans he
  have hc' := (hp.wrote.collects FrameStats.steady engineStats).trans hc
  rw [hstep] at h ⊢
  generalize simulate F dt e = y at *
  obtain ⟨⟨⟨number, start⟩, simulated⟩, m⟩ := y
  obtain rfl : number = e.counter.next := hnumber
  have hrested : ∃ strategy, m.strategy = some strategy ∧ strategy.Rested := ⟨strategy, he', hs⟩
  cases simulated with
  | none => cases h
  | some simulated =>
    cases simulated with
    | completed =>
      obtain ⟨hrested, more, hm, hnames⟩ := render_penned (F := F) dt _ he' hs
      rw [hc', if_pos rfl] at hnames
      refine ⟨writes ++ more,
        (hp.trans hm).iterated (fun key hkey => ?_) (fun _ key hkey => ?_) hrested⟩
      · rw [List.map_append]
        exact List.mem_append_left _ (hinput key hkey)
      · rw [List.map_append, hnames]
        exact List.mem_append_right _ hkey
    | skipped =>
      obtain rfl : FrameOutcome.skipped = outcome := Option.some.inj h
      exact ⟨writes, hp.iterated hinput nofun hrested⟩
    | failed =>
      obtain rfl : FrameOutcome.failed = outcome := Option.some.inj h
      exact ⟨writes, hp.iterated hinput nofun hrested⟩

end Engine

end FrameLoop
