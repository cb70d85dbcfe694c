import FrameLoop.Proofs.Disjoint
import FrameLoop.Proofs.IterationCalls
import FrameLoop.Proofs.Routine

/-! Engines of which only one may have a script worker. As long as the rendering and the scripting
keep apart, no move tells one from the other. -/

namespace FrameLoop.Engine

variable {σ φ ω α β : Type}

/-- Engines that differ at most in their settings, in where updates run, and in what the subsystems
cannot see of the scene. No update is under way in either. -/
structure Alike (e e' : Engine σ φ ω) : Prop where
  rest : ∃ settings scene strategy, e' = { e with settings, scene, strategy }
  scene : Scene.Alike e.scene e'.scene
  rested : ∃ strategy, e.strategy = some strategy ∧ strategy.Rested
  rested' : ∃ strategy, e'.strategy = some strategy ∧ strategy.Rested

/-- Engines that are alike give the same answer, and engines that are alike. -/
def Agrees (act : Action σ φ ω α) : Prop :=
  ∀ e e', Alike e e' → (act e).1 = (act e').1 ∧ Alike (act e).2 (act e').2

namespace Agrees

theorem chains : Chains (S := Engine σ φ ω) Agrees where
  pure _ _ _ h := ⟨rfl, h⟩
  bind {α β act f} hact hf e e' h := by
    obtain ⟨hr, he⟩ := hact e e' h
    have hrest := hf (act e).1 _ _ he
    change (f (act e).1 (act e).2).1 = (f (act e').1 (act e').2).1 ∧
      Alike (f (act e).1 (act e).2).2 (f (act e').1 (act e').2).2
    rw [← hr]
    exact hrest

theorem onScene {act : Act σ FrameStats α} (h : Respects act) :
    Agrees (onScene act : Action σ φ ω α) := by
  intro e e' he
  obtain ⟨hr, hs⟩ := h e.scene e'.scene he.scene
  obtain ⟨settings, scene, strategy, hrest⟩ := he.rest
  refine ⟨hr, ⟨settings, (act e'.scene).2, strategy, ?_⟩, hs, he.rested, he.rested'⟩
  subst hrest
  rfl

/-- What follows a look at the parts that are the same. -/
theorem look {v : Engine σ φ ω → β} {f : β → Action σ φ ω α}
    (hv : ∀ e e', Alike e e' → v e = v e') (hf : ∀ b, Agrees (f b)) :
    Agrees (do f (v (← get))) := by
  intro e e' he
  have hrest := hf (v e) e e' he
  change (f (v e) e).1 = (f (v e') e').1 ∧ Alike (f (v e) e).2 (f (v e') e').2
  rw [← hv e e' he]
  exact hrest

/-- A change of the parts that are the same. -/
theorem adjust {g : Engine σ φ ω → Engine σ φ ω}
    (hg : ∀ e settings scene strategy,
      g { e with settings, scene, strategy } = { g e with settings, scene, strategy })
    (hscene : ∀ e, (g e).scene = e.scene) (hstrategy : ∀ e, (g e).strategy = e.strategy) :
    Agrees (modify g : Action σ φ ω PUnit) := by
  intro e e' he
  refine ⟨rfl, ?_, ?_, ?_, ?_⟩
  · obtain ⟨settings, scene, strategy, rfl⟩ := he.rest
    exact ⟨settings, scene, strategy, hg ..⟩
  · change Scene.Alike (g e).scene (g e').scene
    rw [hscene, hscene]
    exact he.scene
  · change ∃ strategy, (g e).strategy = some strategy ∧ strategy.Rested
    rw [hstrategy]
    exact he.rested
  · change ∃ strategy, (g e').strategy = some strategy ∧ strategy.Rested
    rw [hstrategy]
    exact he.rested'

theorem append (records : List Record) : Agrees (append records : Action σ φ ω Unit) :=
  onScene fun _ _ h => ⟨rfl, h.append .main .main records records⟩

theorem routine (F : Facades σ FrameStats) : Routine (σ := σ) (φ := φ) (ω := ω) Agrees F where
  toChains := chains
  now := onScene Respects.now
  attempt c := onScene (Respects.call c)
  append := append
  change f := onScene (Respects.change f)
  setStarted := adjust (fun _ _ _ _ => rfl) (fun _ => rfl) fun _ => rfl
  retime _ := adjust (fun _ _ _ _ => rfl) (fun _ => rfl) fun _ => rfl
  addTime _ := adjust (fun _ _ _ _ => rfl) (fun _ => rfl) fun _ => rfl
  look hv hf := by
    refine look (fun e e' he => ?_) hf
    have hw := he.scene.world
    obtain ⟨settings, scene, strategy, rfl⟩ := he.rest
    exact (hv e settings scene strategy hw.symm).symm

variable {F : Facades σ FrameStats}

theorem stampFrame : Agrees (stampFrame : Action σ φ ω Stamp) := by
  refine chains.bind (onScene Respects.now) fun now => ?_
  let rest (counter : FrameCounter) : Action σ φ ω Stamp := do
    modify fun e => { e with counter := (counter.advance now).2 }
    return (counter.advance now).1
  refine look (f := rest) (v := Engine.counter) ?_ fun counter => ?_
  · intro e e' he
    obtain ⟨settings, scene, strategy, rfl⟩ := he.rest
    rfl
  · refine chains.bind ?_ fun _ => chains.pure _
    exact adjust (fun _ _ _ _ => rfl) (fun _ => rfl) fun _ => rfl

theorem endFrame [Report ω φ] (frame : Nat) : Agrees (endFrame frame : Action σ φ ω Unit) := by
  refine chains.bind (onScene Respects.now) fun now => ?_
  let rest (b : Telemetry ω × FrameStats × φ) : Action σ φ ω Unit := do
    let r := b.1.endFrame b.2.1 frame now b.2.2
    modify fun e => { e with telemetry := r.2.1, storage := r.2.2.1 }
    Engine.append r.2.2.2
  refine look (f := rest) (v := fun e => (e.telemetry, e.scene.sink, e.storage)) ?_ fun b => ?_
  · intro e e' he
    have hsink := he.scene.sink
    obtain ⟨settings, scene, strategy, rfl⟩ := he.rest
    rw [hsink]
  · refine chains.bind ?_ fun _ => append _
    exact adjust (fun _ _ _ _ => rfl) (fun _ => rfl) fun _ => rfl

theorem simulate (hF : Confined F) (dt : Single) : Agrees (simulate F dt : Action σ φ ω _) := by
  refine chains.bind stampFrame fun stamp => ?_
  let rest (b : Double × Orchestrator) : Action σ φ ω (Stamp × Option FrameOutcome) := do
    Engine.tell F (.advanceRenderer b.1 stamp.number)
    let outcome ← Engine.onScene (Orchestrator.frame F b.2 dt stamp)
    return (stamp, outcome)
  refine look (f := rest) (v := fun e => (e.simulationTime, e.orchestrator)) ?_ fun b => ?_
  · intro e e' he
    obtain ⟨settings, scene, strategy, rfl⟩ := he.rest
    rfl
  · refine chains.bind ((routine F).tell _) fun _ => ?_
    have hframe := Orchestrator.throughout_frame (hF.throughout stamp) dt b.2
    exact chains.bind (onScene hframe) fun _ => chains.pure _

/-- The rendering of a frame that was completed, with or without an update beside it. -/
theorem overlap (hF : Separate F) (stamp : Stamp) :
    Agrees (do
      onStrategy (UpdateStrategy.allow F stamp)
      let rendered ← Engine.onScene (F.call .renderingTraversals).run
      onStrategy (UpdateStrategy.finish F)
      return rendered : Action σ φ ω (Except Failure Unit)) := by
  intro e e' he
  obtain ⟨strategy, hs, hrested⟩ := he.rested
  obtain ⟨strategy', hs', hrested'⟩ := he.rested'
  obtain ⟨hanswer, hr, hscene⟩ := hrested.overlap hF stamp e.scene
  obtain ⟨hanswer', hr', hscene'⟩ := hrested'.overlap hF stamp e'.scene
  have hrun := Update.alike_run (F := F) .main .main stamp (he.scene.onWorld F.rendered)
  rw [he.scene.world] at hanswer
  obtain ⟨settings, scene, other, rfl⟩ := he.rest
  obtain ⟨_, _, _, _, _, _, _, _, _, _, _, _, _, _⟩ := e
  cases hs
  cases hs'
  exact ⟨hanswer.trans hanswer'.symm, ⟨_, _, _, rfl⟩, (hscene.trans hrun).trans hscene'.symm,
    ⟨_, rfl, hr⟩, ⟨_, rfl, hr'⟩⟩

theorem render (hF : Separate F) (dt : Single) (stamp : Stamp) :
    Agrees (render F dt stamp : Action σ φ ω FrameOutcome) := by
  have htell (c : Call) : Agrees (Engine.tell F c : Action σ φ ω Unit) := (routine F).tell c
  refine chains.bind (htell _) fun _ => chains.bind (htell _) fun _ => ?_
  refine chains.bind (htell _) fun _ => ?_
  refine chains.bind (f := afterRendering F dt stamp) (overlap hF stamp) fun rendered => ?_
  cases rendered with
  | ok _ => exact chains.bind ((routine F).countTime dt) fun _ => chains.pure _
  | error _ => exact chains.bind ((routine F).note _ _) fun _ => chains.pure _

variable [Report ω φ]

theorem conclude (hF : Separate F) (dt : Single) (stamp : Stamp) (outcome : Option FrameOutcome) :
    Agrees (conclude F dt stamp outcome : Action σ φ ω (Option FrameOutcome)) := by
  have hend (b : FrameOutcome) : Agrees (do
      Engine.endFrame stamp.number
      return some b : Action σ φ ω (Option FrameOutcome)) :=
    chains.bind (endFrame _) fun _ => chains.pure _
  cases outcome with
  | none => exact chains.pure _
  | some outcome =>
    cases outcome with
    | completed => exact chains.bind (render hF dt stamp) hend
    | skipped => exact hend .skipped
    | failed => exact hend .failed

theorem step (hF : Confined F) (hd : Separate F) :
    Agrees (step F : Action σ φ ω (Option FrameOutcome)) := by
  let rest (frame : Duration) : Action σ φ ω (Option FrameOutcome) := do
    let r ← Engine.simulate F (simulationStep frame)
    Engine.conclude F (simulationStep frame) r.1 r.2
  refine look (f := rest) (v := fun e => e.limiter.lastFrame) ?_ fun frame => ?_
  · intro e e' he
    obtain ⟨settings, scene, strategy, rfl⟩ := he.rest
    rfl
  · exact chains.bind (simulate hF _) fun r => conclude hd _ r.1 r.2

theorem make (hF : Confined F) (hd : Separate F) (move : Move σ) :
    Agrees (make F move : Action σ φ ω Answer) :=
  (routine F).make fun _ => step hF hd

/-- Whatever is done with engines that are alike, the same can be seen of them. -/
theorem play (hF : Confined F) (hd : Separate F) (moves : List (Move σ)) :
    Agrees (play F moves : Action σ φ ω (List (Glimpse σ))) := by
  induction moves with
  | nil => exact chains.pure _
  | cons move moves ih =>
    refine chains.bind (make hF hd move) fun answer => ?_
    let rest (b : Double × σ) : Action σ φ ω (List (Glimpse σ)) := do
      return ⟨answer, b.1, b.2⟩ :: (← Engine.play F moves)
    refine look (f := rest) (v := fun e => (e.simulationTime, e.scene.world)) ?_ fun b => ?_
    · intro e e' he
      have hw := he.scene.world
      obtain ⟨settings, scene, strategy, rfl⟩ := he.rest
      rw [hw]
    · exact chains.bind ih fun _ => chains.pure _

end Agrees

end FrameLoop.Engine
