import FrameLoop.Proofs.Alike
import FrameLoop.Proofs.Handshake.Pairs

/-! The update strategy between the frames, with a worker or without: it rests, an allow and
the finish after it run one update, and while it rests no update can come up. -/

namespace FrameLoop.UpdateStrategy

variable {σ κ : Type}

/-- No update is allowed that is not finished. -/
def Rested : UpdateStrategy → Prop
  | synchronous pending => pending = none
  | threaded t => t.Rested

theorem new_rested {workers : Nat} (hw : workers ≤ 1) (s : Scene (Watched σ) κ) :
    (new workers s).1.Rested ∧ Asks [] s (new workers s).2 := by
  match workers, hw with
  | 0, _ => exact ⟨rfl, .note .main s _ (by decide)⟩
  | 1, _ => exact ⟨Update.Threaded.Rested.spawn, .refl s⟩

theorem new_alike {workers : Nat} (hw : workers ≤ 1) (s : Scene σ κ) :
    (new workers s).1.Rested ∧ Scene.Alike (new workers s).2 s := by
  match workers, hw with
  | 0, _ => exact ⟨rfl, rfl, rfl, rfl⟩
  | 1, _ => exact ⟨Update.Threaded.Rested.spawn, .refl s⟩

variable [StatsSink κ] {F : Facades σ κ}

/-- No update is under way, and none comes up by itself, whatever turns the threads take. -/
def Dormant (F : Facades σ κ) : UpdateStrategy → Prop
  | synchronous pending => pending = none
  | threaded t =>
    t.worker.underWay = [] ∧ ∀ turns s,
      Update.Threaded.begun (t.history F turns s) = [] ∧ (t.take F turns s).2.world = s.world

theorem Rested.dormant {strategy : UpdateStrategy} (hs : strategy.Rested) :
    strategy.Dormant F := by
  cases strategy with
  | synchronous pending => exact hs
  | threaded t =>
    refine ⟨?_, fun turns s => ?_⟩
    · exact hs.clear.updating
    · obtain ⟨hb, hw, -⟩ := Update.Threaded.Rested.dormant (F := F) hs turns s
      exact ⟨hb, hw⟩

theorem makes_run (thread : Thread) (stamp : Stamp) :
    Makes (Update.run F.watched thread stamp : Act (Watched σ) κ Unit) fun _ calls =>
      calls = [.update stamp] := by
  refine Silent.now.then_makes fun start => ?_
  have hperform : Makes (Update.perform F.watched thread stamp : Act (Watched σ) κ Unit)
      fun _ calls => calls = [.update stamp] := fun s => ⟨_, .perform F thread stamp s, rfl⟩
  refine hperform.bind fun _ calls hc => ?_
  subst hc
  exact (Silent.closePhase _ _ _).makes.mono fun _ more hm => by rw [hm, List.append_nil]

/-- An allow and the finish after it run one update, for the stamp of the allow, whatever
happens to the scene between them. -/
theorem Rested.pair {strategy : UpdateStrategy} (hs : strategy.Rested) (stamp : Stamp)
    (s s' : Scene (Watched σ) κ) :
    ∃ before after, before ++ after = [.update stamp] ∧
      Asks before s (strategy.allow F.watched stamp s).2 ∧
      ((strategy.allow F.watched stamp s).1.finish F.watched s').1.Rested ∧
      Asks after s' ((strategy.allow F.watched stamp s).1.finish F.watched s').2 := by
  cases strategy with
  | synchronous pending =>
    obtain rfl : pending = none := hs
    obtain ⟨calls, ha, hc⟩ := makes_run (F := F) .main stamp s'
    subst hc
    exact ⟨[], [.update stamp], rfl, .refl s, rfl, ha⟩
  | threaded t =>
    obtain ⟨before, after, hu, -, hallow, hrested, hfinish⟩ :=
      Update.Threaded.Rested.pair (F := F) hs stamp s s'
    exact ⟨before, after, hu, hallow, hrested, hfinish⟩

/-- The strategy has no worker that could run. -/
def Joined : UpdateStrategy → Prop
  | synchronous pending => pending = none
  | threaded t => t.worker = .exited

theorem Rested.join {strategy : UpdateStrategy} (hs : strategy.Rested)
    (s : Scene (Watched σ) κ) :
    (strategy.join F.watched s).1.Joined ∧ Asks [] s (strategy.join F.watched s).2 := by
  cases strategy with
  | synchronous pending => exact ⟨hs, .refl s⟩
  | threaded t =>
    obtain ⟨turns, hg, hexited, he, -⟩ := Update.Threaded.Rested.join (F := F.watched) hs s
    have hasks := hg.asks hs.coherent hs.idle
    rw [he] at hasks
    exact ⟨hexited, hasks⟩

end FrameLoop.UpdateStrategy
