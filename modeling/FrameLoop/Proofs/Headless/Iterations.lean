import FrameLoop.Proofs.Shutdown
import FrameLoop.Proofs.Headless.Stage
import FrameLoop.Proofs.LaggedReports
import FrameLoop.Proofs.Lasting
import FrameLoop.Proofs.LoopMoves
import FrameLoop.Proofs.SimulationClock
import FrameLoop.Proofs.Storage.Filing

/-! The iterations of a headless engine: it starts, and each of them is completed, with one frame and
one update, until the window has had its frames. -/

namespace FrameLoop.Engine

section

variable {σ φ ω : Type} {F : Facades σ FrameStats}

/-- What is saved in the end, and where. -/
def savings (e : Engine σ φ ω) : Settings × Option String × Option String :=
  (e.settings, e.settingsPath, e.userDirectory)

def Saving {α : Type} (act : Action σ φ ω α) : Prop := ∀ e, (act e).2.savings = e.savings

theorem Saving.outset (F : Facades σ FrameStats) : Outset (σ := σ) (φ := φ) (ω := ω) Saving F where
  pure _ _ := rfl
  bind hact hf e := (hf _ _).trans (hact e)
  attempt _ _ := rfl
  append _ _ := rfl
  setStarted _ := rfl
  look _ hf e := hf _ e

theorem Lasting.savings {e e' : Engine σ φ ω} (h : Lasting e e') : e'.savings = e.savings := by
  rw [Engine.savings, Engine.savings, h.settings, h.settingsPath, h.userDirectory]

variable [Report ω φ]

theorem conclude_completed (dt : Single) (stamp : Stamp) (e : Engine σ φ ω) :
    conclude F dt stamp (some .completed) e =
      (some (render F dt stamp e).1, (endFrame stamp.number (render F dt stamp e).2).2) :=
  rfl

theorem step_of_completed {e : Engine σ φ ω} (h : (nextFrame F e).1.2 = some .completed) :
    step F e = (some (render F e.dueStep (nextFrame F e).1.1 (nextFrame F e).2).1,
      (endFrame (nextFrame F e).1.1.number
        (render F e.dueStep (nextFrame F e).1.1 (nextFrame F e).2).2).2) := by
  have hstep : step F e = conclude F e.dueStep (nextFrame F e).1.1 (nextFrame F e).1.2
    (nextFrame F e).2 := rfl
  rw [hstep, h, conclude_completed]

theorem endFrame_eq (frame : Nat) (e : Engine σ φ ω) :
    (endFrame frame e).2.scene.world = e.scene.world ∧ (endFrame frame e).2.counter = e.counter ∧
      (endFrame frame e).2.storage = (e.telemetry.endFrame e.scene.sink frame
        (Scene.now e.scene).1 e.storage).2.2.1 :=
  ⟨rfl, rfl, rfl⟩

end

open Headless

variable {φ ω : Type} {menu : Bool} {n r u k : Nat} {e : Engine World φ ω}

/-- A frame is rendered, and meanwhile updated once. -/
theorem render_headless (hr : Resumable e) (hs : Stage menu n r u e.scene.world) (dt : Single)
    (stamp : Stamp) :
    (render facades dt stamp e).1 = .completed ∧
      Stage menu n r (u + 1) (render facades dt stamp e).2.scene.world := by
  obtain ⟨strategy, he, hrested⟩ := hr
  let e₁ := ((do
    tell facades .eventTraversal
    tell facades .updateTraversal
    tell facades .updateWindowManager : Action World φ ω Unit) e).2
  let e₂ := (onStrategy (UpdateStrategy.allow facades stamp) e₁).2
  let x := onScene (facades.call .renderingTraversals).run e₂
  let e₃ := (onStrategy (UpdateStrategy.finish facades) x.2).2
  have hs₁ : Stage menu n r u e₁.scene.world := by
    have hevents := (hs.perform (c := .eventTraversal) rfl).2
    have hupdates := (hevents.perform (c := .updateTraversal) rfl).2
    exact (hupdates.perform (c := .updateWindowManager) rfl).2
  have he₂ := onStrategy_eq (show e₁.strategy = some strategy from he)
    (UpdateStrategy.allow facades stamp)
  -- the update may be over before the rendering or be owed until after it, but it is one in all
  obtain ⟨early, hall, hearly, howed⟩ := hrested.splits (F := facades) stamp e₁.scene x.2.scene
  have hs₂ : Stage menu n r (u + early.length) e₂.scene.world := by
    have hw : e₂.scene.world =
        early.foldl (Update.updated (facades : Facades World FrameStats)) e₁.scene.world := by
      rw [← hearly]
      exact congrArg (fun e => e.scene.world) he₂
    rw [hw]
    exact hs₁.updated early
  obtain ⟨hx, hsx⟩ : x.1 = .ok () ∧ Stage menu n r (u + early.length) x.2.scene.world :=
    hs₂.perform (c := .renderingTraversals) rfl
  have he₃ := onStrategy_eq (show x.2.strategy = _ from congrArg Engine.strategy he₂)
    (UpdateStrategy.finish facades)
  have hs₃ : Stage menu n r (u + 1) e₃.scene.world := by
    have hw : e₃.scene.world = (strategy.allow facades stamp e₁.scene).1.owed.foldl
        (Update.updated (facades : Facades World FrameStats)) x.2.scene.world := by
      rw [← howed]
      exact congrArg (fun e => e.scene.world) he₃
    have hlength := congrArg List.length hall
    rw [List.length_append, List.length_singleton] at hlength
    have hupdated := hsx.updated (κ := FrameStats) (strategy.allow facades stamp e₁.scene).1.owed
    rwa [Nat.add_assoc, hlength, ← hw] at hupdated
  have hrun : render facades dt stamp e = afterRendering facades dt stamp x.1 e₃ := rfl
  rw [hrun, hx]
  refine ⟨rfl, ?_⟩
  have hcount := congrArg Scene.world (countTime_scene (F := facades) dt e₃)
  exact hcount ▸ hs₃

theorem nextFrame_headless (hs : Stage menu n r u e.scene.world) :
    (nextFrame facades e).1.2 = some .completed ∧
      Stage menu n (r + 1) u (nextFrame facades e).2.scene.world := by
  let s : Scene World FrameStats :=
    (facades.tell (.advanceRenderer e.simulationTime e.counter.next) (Scene.now e.scene).2).2
  have hadvanced : Stage menu n (r + 1) u s.world :=
    hs.advanceRenderer e.simulationTime e.counter.next
  exact Headless.frame e.orchestrator e.dueStep ⟨e.counter.next, (Scene.now e.scene).1⟩ hadvanced

variable [Report ω φ] {P : φ → Prop} {saved : Settings × Option String × Option String}

/-- An engine in the middle of a run, after some iterations: `P` is known of its storage. -/
structure Running (menu : Bool) (frames : Nat) (P : φ → Prop)
    (saved : Settings × Option String × Option String) (k : Nat) (e : Engine World φ ω) : Prop where
  stage : Stage menu frames k k e.scene.world
  counter : e.counter.next = k
  clock : menu = true → e.simulationTime = .zero false
  resumable : Resumable e
  storage : P e.storage
  savings : e.savings = saved

namespace Running

omit [Report ω φ] in
theorem shouldContinue (h : Running menu n P saved k e) :
    shouldContinue facades e = decide (k < n) := by
  have hquit : (facades : Facades World FrameStats).quitRequested e.scene.world = false := rfl
  rw [Engine.shouldContinue, h.stage.windowClosed, hquit, Bool.not_false, Bool.and_true,
    ← decide_not]
  simp only [Nat.not_le]

/-- An iteration is completed, with one frame and one update. -/
theorem step (h : Running menu n P saved k e) (hp : Spares ω P) :
    (step facades e).1 = some .completed ∧
      Running menu n P saved (k + 1) (Engine.step facades e).2 := by
  obtain ⟨hframe, hstage⟩ := nextFrame_headless h.stage
  have hresumable : Resumable (nextFrame facades e).2 := h.resumable.of_eq rfl
  have hcounter : (nextFrame facades e).2.counter.next = e.counter.next + 1 := rfl
  have hstorage : (nextFrame facades e).2.storage = e.storage := rfl
  have hsavings := (Lasts.step (F := facades) e).savings.trans h.savings
  have hstep := step_of_completed hframe
  have htime := step_time facades e
  generalize nextFrame facades e = next at *
  obtain ⟨hcompleted, hrendered⟩ := render_headless hresumable hstage e.dueStep next.1.1
  obtain ⟨strategy, hs, hrested⟩ := hresumable
  obtain ⟨-, writes, hpenned, -⟩ := render_penned (F := facades) e.dueStep next.1.1 hs hrested
  obtain ⟨hworld, hcounted, hended⟩ :=
    endFrame_eq next.1.1.number (render facades e.dueStep next.1.1 next.2).2
  refine ⟨by rw [hstep, hcompleted], ?_, ?_, fun hmenu => ?_, h.resumable.step, ?_, hsavings⟩
  · rw [hstep, hworld]
    exact hrendered
  · rw [hstep, hcounted, hpenned.counter, hcounter, h.counter]
  · have hidle : ¬(facades : Facades World FrameStats).playing (Engine.step facades e).2.scene.world =
        true := by
      rw [hstep, hworld, Facades.playing, hrendered.hasActiveSession, hmenu]
      exact Bool.false_ne_true
    rw [htime, if_neg fun hplaying => hidle hplaying.2, h.clock hmenu]
  · rw [hstep, hended, hpenned.storage, hstorage]
    exact hp.endFrame _ _ _ _ h.storage

omit [Report ω φ] in
theorem pace (h : Running menu n P saved k e) (outcome : FrameOutcome) :
    Running menu n P saved k (pace outcome e).2 := by
  cases outcome <;>
    exact ⟨h.stage, h.counter, h.clock, h.resumable.of_eq rfl, h.storage, h.savings⟩

theorem turn (h : Running menu n P saved k e) (hp : Spares ω P) :
    Running menu n P saved (k + 1) (turn facades e) := by
  rw [Engine.turn]
  exact (h.step hp).2.pace .completed

theorem iterate (h : Running menu n P saved k e) (hp : Spares ω P) (i : Nat) :
    Running menu n P saved (k + i) ((Engine.turn facades)^[i] e) := by
  induction i generalizing k e with
  | zero => exact h
  | succ i ih =>
    have hall := ih (h.turn hp)
    rwa [Nat.add_assoc, Nat.add_comm 1, ← Function.iterate_succ_apply] at hall

theorem outcomes (h : Running menu n P saved k e) (hp : Spares ω P) (i : Nat) :
    (laps facades (rounds i) e).map Lap.outcome = List.replicate i (some .completed) := by
  induction i generalizing k e with
  | zero => rfl
  | succ i ih =>
    have hrest := ih (h.turn hp)
    rw [List.replicate_succ, ← hrest, ← (h.step hp).1]
    rfl

omit [Report ω φ] in
theorem still (h : Running true n P saved k e) :
    e.simulationTime = .zero false ∧ e.scene.world.gameHours = .zero false :=
  ⟨h.clock rfl, h.stage.hours rfl⟩

theorem glimpses (h : Running true n P saved k e) (hp : Spares ω P) (i : Nat) :
    ∀ glimpse ∈ (play facades (rounds i) e).1,
      glimpse.simulationTime = .zero false ∧ glimpse.world.gameHours = .zero false := by
  induction i generalizing k e with
  | zero => exact fun _ hmem => absurd hmem List.not_mem_nil
  | succ i ih =>
    rw [rounds, glimpses_cons, glimpses_cons, List.forall_mem_cons, List.forall_mem_cons, make_turn]
    exact ⟨(h.step hp).2.still, (h.turn hp).still, ih (h.turn hp)⟩

end Running

/-- An engine that was built for the headless world and has not started yet. -/
structure Ready (frames : Nat) (P : φ → Prop) (e : Engine World φ ω) : Prop where
  world : ∃ saves workers, e.scene.world = World.new saves workers frames
  started : e.started = false
  startup : ∀ path, e.startup ≠ .loadSave path
  counter : e.counter = .new
  clock : e.simulationTime = .zero false
  resumable : Resumable e
  storage : P e.storage

omit [Report ω φ] in
theorem start_headless (hworld : ∃ saves workers, e.scene.world = World.new saves workers n)
    (hstarted : e.started = false) (hstartup : ∀ path, e.startup ≠ .loadSave path) :
    (start facades e).1 = .ok () ∧
      Stage (e.startup = .mainMenu) n 0 0 (start facades e).2.scene.world := by
  obtain ⟨saves, workers, hworld⟩ := hworld
  obtain ⟨_, _, userDirectory, startup, script, started, ⟨world, _, _, _, _, _⟩, _, _, _, _, _, _, _⟩ := e
  obtain rfl : world = World.new saves workers n := hworld
  obtain rfl : started = false := hstarted
  cases startup with
  | loadSave path => exact absurd rfl (hstartup path)
  | mainMenu =>
    have hatMenu : Stage true n 0 0 { World.new saves workers n with modes := [.mainMenu] } :=
      ⟨rfl, rfl, rfl, rfl, rfl, rfl, fun _ => rfl⟩
    cases userDirectory <;> cases script <;> exact ⟨rfl, hatMenu⟩
  | newSession bypassIntro =>
    have hinSession : Stage false n 0 0 { World.new saves workers n with session := .running } :=
      ⟨rfl, rfl, rfl, rfl, rfl, rfl, nofun⟩
    cases userDirectory <;> cases script <;> exact ⟨rfl, hinSession⟩

omit [Report ω φ] in
theorem Ready.start (h : Ready n P e) : (start facades e).1 = .ok () ∧
    Running (e.startup = .mainMenu) n P e.savings 0 (Engine.start facades e).2 := by
  have hkept : Kept e (Engine.start facades e).2 :=
    (Keeps.routine (φ := φ) (ω := ω) facades).outset.start e
  have hsavings : (Engine.start facades e).2.savings = e.savings :=
    (Saving.outset (φ := φ) (ω := ω) facades).start e
  have htime : (Engine.start facades e).2.simulationTime = e.simulationTime :=
    (timeless_outset (φ := φ) (ω := ω) facades).start e
  obtain ⟨hok, hstage⟩ := start_headless h.world h.started h.startup
  refine ⟨hok, hstage, ?_, fun _ => htime.trans h.clock, h.resumable.of_eq hkept.strategy, ?_, hsavings⟩
  · rw [hkept.counter, h.counter]
    rfl
  · rw [hkept.storage]
    exact h.storage

end FrameLoop.Engine
