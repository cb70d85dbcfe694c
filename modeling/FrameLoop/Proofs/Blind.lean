import FrameLoop.Proofs.Throughout
import FrameLoop.Proofs.Stores

/-! Subsystems that are blind to the statistics. Scenes with the same world lead them to the same
answers and to scenes with the same world, whatever is collected, when, and by whom. -/

namespace FrameLoop

variable {σ κ α β ε : Type}

/-- Nothing but the world of a scene matters to the action, and to the world it leaves. -/
def Worldly (act : Act σ κ α) : Prop :=
  ∀ s s' : Scene σ κ, s.world = s'.world →
    (act s).1 = (act s').1 ∧ (act s).2.world = (act s').2.world

namespace Worldly

theorem chains : Chains (S := Scene σ κ) Worldly where
  pure _ _ _ h := ⟨rfl, h⟩
  bind {α β act f} hact hf s s' h := by
    obtain ⟨hr, hw⟩ := hact s s' h
    have hrest := hf (act s).1 _ _ hw
    change (f (act s).1 (act s).2).1 = (f (act s').1 (act s').2).1 ∧
      (f (act s).1 (act s).2).2.world = (f (act s').1 (act s').2).2.world
    rw [← hr]
    exact hrest

theorem of_world_eq {act : Act σ κ PUnit} (h : ∀ s, (act s).2.world = s.world) : Worldly act :=
  fun s s' hs => ⟨rfl, (h s).trans (hs.trans (h s').symm)⟩

theorem ask (query : σ → α) : Worldly (Facades.ask query : Act σ κ α) :=
  fun _ _ h => ⟨congrArg query h, h⟩

theorem change (f : σ → σ) :
    Worldly (modify fun s => { s with world := f s.world } : Act σ κ PUnit) :=
  fun _ _ h => ⟨rfl, congrArg f h⟩

theorem note (thread : Thread) (level : Level) (message : String) :
    Worldly (Scene.note thread level message : Act σ κ Unit) := by
  cases thread <;> exact of_world_eq fun _ => rfl

theorem call (F : Facades σ κ) (c : Call) : Worldly (F.call c).run := by
  intro s s' h
  change (if c.fallible then (F.perform c s.world).answer else .ok ()) =
      (if c.fallible then (F.perform c s'.world).answer else .ok ()) ∧
    (F.perform c s.world).world = (F.perform c s'.world).world
  rw [h]
  exact ⟨rfl, rfl⟩

theorem nextEntry (F : Facades σ κ) : Worldly (Orchestrator.nextEntry F) := by
  intro s s' h
  change (F.localScripts s.world).next.1 = (F.localScripts s'.world).next.1 ∧
    F.withLocalScripts (F.localScripts s.world).next.2 s.world =
      F.withLocalScripts (F.localScripts s'.world).next.2 s'.world
  rw [h]
  exact ⟨rfl, rfl⟩

theorem runLocal (F : Facades σ κ) (entry : LocalScript) : Worldly (F.runLocal entry).run := by
  intro s s' h
  let o (w : σ) := F.runScript entry (F.localScripts w, w)
  change (o s.world).answer = (o s'.world).answer ∧
    F.withLocalScripts (o s.world).world.1 (o s.world).world.2 =
      F.withLocalScripts (o s'.world).world.1 (o s'.world).world.2
  rw [h]
  exact ⟨rfl, rfl⟩

variable [StatsSink κ]

/-- The clock is read more often if timings are collected, which the action does not tell. -/
theorem timed (phase : Phase) (stamp : Stamp) {body : Attempt ε σ κ α} (h : Worldly body.run) :
    Worldly (Scene.timed phase stamp body).run := by
  intro s s' hs
  obtain ⟨hr, hw⟩ := h (Scene.now s).2 (Scene.now s').2 hs
  refine ⟨hr, ?_⟩
  exact (Scene.closePhase_world phase stamp _ _).trans
    (hw.trans (Scene.closePhase_world phase stamp _ _).symm)

end Worldly

/-- Facades whose behaviour does not depend on the statistics, and that only read the world when they
report. -/
structure Blind (F : Facades σ κ) : Prop where
  stepPhysics : ∀ dt guiActive stamp, Worldly (F.stepPhysics dt guiActive stamp).run
  reportPart : ∀ part frame s, (F.reportPart part frame s).2.world = s.world

namespace Blind

variable [StatsSink κ] {F : Facades σ κ}

theorem reportStats_world (hF : Blind F) (frame : Nat) (s : Scene σ κ) :
    (F.reportStats frame s).2.world = s.world := by
  let Still : ∀ {α : Type}, Act σ κ α → Prop := fun act => ∀ s, (act s).2.world = s.world
  have hstill : Chains (S := Scene σ κ) Still :=
    ⟨fun _ _ => rfl, fun hact hf s => (hf _ _).trans (hact s)⟩
  have hset (name : String) (value : Double) : Still (Scene.setAttribute frame name value) :=
    fun _ => rfl
  have hask (query : σ → Nat) : Still (Facades.ask query : Act σ κ Nat) := fun _ => rfl
  have hpart (part : Part) : Still (F.reportPart part frame) := hF.reportPart part frame
  have hall : Still (F.reportStats frame) := by
    refine hstill.bind (hset _ _) fun _ => hstill.bind (hpart _) fun _ => ?_
    refine hstill.bind (hask _) fun _ => hstill.bind (hset _ _) fun _ => ?_
    refine hstill.bind (hask _) fun _ => hstill.bind (hset _ _) fun _ => ?_
    exact hstill.forM hpart
  exact hall s

theorem phased (hF : Blind F) (stamp : Stamp) : Phased Worldly F stamp where
  toChains := Worldly.chains
  timed phase _ _ _ h := Worldly.timed phase stamp h
  note := Worldly.note
  ask := Worldly.ask
  change := Worldly.change
  call := Worldly.call F
  nextEntry := Worldly.nextEntry F
  runLocal := Worldly.runLocal F
  stepPhysics dt guiActive := hF.stepPhysics dt guiActive stamp
  reports := by
    have hworld (s : Scene σ κ) : ((do
        if ← ExceptT.lift (Scene.collects resourceStats) then
          ExceptT.lift (F.reportStats stamp.number) : Attempt Stop σ κ Unit).run s) =
        (.ok (), if StatsSink.collects s.sink resourceStats then
          (F.reportStats stamp.number s).2 else s) := by
      change (if StatsSink.collects s.sink resourceStats then
        ExceptT.lift (F.reportStats stamp.number) else ExceptT.lift (pure ()) :
        Attempt Stop σ κ Unit) s = _
      split <;> rfl
    intro s s' hs
    rw [hworld, hworld]
    refine ⟨rfl, ?_⟩
    have hreport := hF.reportStats_world stamp.number
    dsimp only
    split <;> split <;> simp only [hreport, hs]

/-- However a frame is observed, it goes the same way. -/
theorem frame (hF : Blind F) (o : Orchestrator) (dt : Single) (stamp : Stamp) :
    Worldly (Orchestrator.frame F o dt stamp) :=
  Orchestrator.phased_frame (hF.phased stamp) dt o

end Blind

end FrameLoop
