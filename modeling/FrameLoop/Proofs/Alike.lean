import FrameLoop.Proofs.Scene
import FrameLoop.Proofs.Throughout

/-! Scenes that the subsystems cannot tell apart: they differ at most in the schedule of the threads
and in what was logged. -/

namespace FrameLoop

variable {σ κ α β : Type}

/-- A change of the world alone. -/
def Scene.onWorld (f : σ → σ) (s : Scene σ κ) : Scene σ κ := { s with world := f s.world }

structure Scene.Alike (s s' : Scene σ κ) : Prop where
  world : s.world = s'.world
  sink : s.sink = s'.sink
  clock : s.clock = s'.clock

namespace Scene.Alike

variable {s s' s'' : Scene σ κ}

theorem refl (s : Scene σ κ) : Alike s s := ⟨rfl, rfl, rfl⟩

theorem symm (h : Alike s s') : Alike s' s := ⟨h.world.symm, h.sink.symm, h.clock.symm⟩

theorem trans (h : Alike s s') (h' : Alike s' s'') : Alike s s'' :=
  ⟨h.world.trans h'.world, h.sink.trans h'.sink, h.clock.trans h'.clock⟩

theorem append (thread thread' : Thread) (records records' : List Record) (h : Alike s s') :
    Alike (s.append thread records) (s'.append thread' records') := by
  cases thread <;> cases thread' <;> exact ⟨h.world, h.sink, h.clock⟩

theorem onWorld (f : σ → σ) (h : Alike s s') :
    Alike (s.onWorld f) (s'.onWorld f) :=
  ⟨congrArg f h.world, h.sink, h.clock⟩

end Scene.Alike

/-- Scenes that are alike lead to the same result, and to scenes that are alike. -/
def Respects (act : Act σ κ α) : Prop :=
  ∀ s s', Scene.Alike s s' → (act s).1 = (act s').1 ∧ Scene.Alike (act s).2 (act s').2

namespace Respects

variable {act : Act σ κ α}

theorem chains : Chains (S := Scene σ κ) Respects where
  pure _ _ _ h := ⟨rfl, h⟩
  bind {α β act f} hact hf s s' h := by
    obtain ⟨hr, hs⟩ := hact s s' h
    have hrest := hf (act s).1 _ _ hs
    change (f (act s).1 (act s).2).1 = (f (act s').1 (act s').2).1 ∧
      Scene.Alike (f (act s).1 (act s).2).2 (f (act s').1 (act s').2).2
    rw [← hr]
    exact hrest

/-- Only what can be told apart has to be looked at. -/
theorem of_parts (h : ∀ w k c schedule schedule' log log' workerLog workerLog',
    (act ⟨w, k, c, schedule, log, workerLog⟩).1 = (act ⟨w, k, c, schedule', log', workerLog'⟩).1 ∧
      Scene.Alike (act ⟨w, k, c, schedule, log, workerLog⟩).2
        (act ⟨w, k, c, schedule', log', workerLog'⟩).2) : Respects act := by
  rintro ⟨w, k, c, schedule, log, workerLog⟩ ⟨_, _, _, schedule', log', workerLog'⟩ ⟨hw, hk, hc⟩
  cases hw
  cases hk
  cases hc
  exact h ..

theorem now : Respects (Scene.now : Act σ κ Instant) :=
  of_parts fun _ _ _ _ _ _ _ _ _ => ⟨rfl, rfl, rfl, rfl⟩

theorem note (thread : Thread) (level : Level) (message : String) :
    Respects (Scene.note thread level message : Act σ κ Unit) :=
  fun _ _ h => ⟨rfl, h.append _ _ _ _⟩

theorem ask (query : σ → α) : Respects (Facades.ask query : Act σ κ α) :=
  fun _ _ h => ⟨congrArg query h.world, h⟩

theorem change (f : σ → σ) : Respects (modify (Scene.onWorld f) : Act σ κ PUnit) :=
  fun _ _ h => ⟨rfl, h.onWorld f⟩

theorem collects [StatsSink κ] (category : String) :
    Respects (Scene.collects category : Act σ κ Bool) :=
  fun _ _ h => ⟨congrArg (StatsSink.collects · category) h.sink, h⟩

theorem setAttribute [StatsSink κ] (frame : Nat) (name : String) (value : Double) :
    Respects (Scene.setAttribute frame name value : Act σ κ Unit) :=
  of_parts fun _ _ _ _ _ _ _ _ _ => ⟨rfl, rfl, rfl, rfl⟩

variable {F : Facades σ κ}

theorem call (c : Call) : Respects (F.call c).run :=
  of_parts fun _ _ _ _ _ _ _ _ _ => ⟨rfl, rfl, rfl, rfl⟩

theorem nextEntry : Respects (Orchestrator.nextEntry F) :=
  of_parts fun _ _ _ _ _ _ _ _ _ => ⟨rfl, rfl, rfl, rfl⟩

theorem runLocal (entry : LocalScript) : Respects (F.runLocal entry).run :=
  of_parts fun _ _ _ _ _ _ _ _ _ => ⟨rfl, rfl, rfl, rfl⟩

theorem perform (thread : Thread) (stamp : Stamp) :
    Respects (Update.perform F thread stamp) := by
  intro s s' h
  rw [Update.perform_eq, Update.perform_eq, h.world]
  have hs : Scene.Alike { s with world := (F.updateScripting stamp s'.world).world }
      { s' with world := (F.updateScripting stamp s'.world).world } := ⟨rfl, h.sink, h.clock⟩
  exact ⟨rfl, hs.append _ _ _ _⟩


theorem timing [StatsSink κ] (stamp : Stamp) : Timing (σ := σ) (κ := κ) Respects stamp where
  toChains := chains
  now := now
  collects := collects
  setAttribute := setAttribute stamp.number

end Respects

/-- The physics and the reports look at nothing but the world, the statistics and the clock. -/
structure Confined (F : Facades σ κ) : Prop where
  stepPhysics : ∀ dt guiActive stamp, Respects (F.stepPhysics dt guiActive stamp).run
  reportPart : ∀ part frame, Respects (F.reportPart part frame)

theorem Confined.throughout [StatsSink κ] {F : Facades σ κ} (h : Confined F) (stamp : Stamp) :
    Throughout Respects F stamp where
  toTiming := Respects.timing stamp
  note := Respects.note
  ask := Respects.ask
  change := Respects.change
  call := Respects.call
  nextEntry := Respects.nextEntry
  runLocal := Respects.runLocal
  stepPhysics dt guiActive := h.stepPhysics dt guiActive stamp
  reportPart part := h.reportPart part stamp.number

end FrameLoop
