import FrameLoop.Proofs.IterationCalls
import FrameLoop.Proofs.Play
import FrameLoop.Proofs.Throughout

/-! What lasts from one iteration to the next: what an engine was told, and whether it has
started. -/

namespace FrameLoop.Engine

variable {σ φ ω α : Type} {F : Facades σ FrameStats}

structure Lasting (e e' : Engine σ φ ω) : Prop where
  settings : e'.settings = e.settings
  settingsPath : e'.settingsPath = e.settingsPath
  userDirectory : e'.userDirectory = e.userDirectory
  startup : e'.startup = e.startup
  startupScript : e'.startupScript = e.startupScript
  started : e'.started = e.started

theorem Lasting.trans {e e' e'' : Engine σ φ ω} (h : Lasting e e') (h' : Lasting e' e'') :
    Lasting e e'' :=
  ⟨h'.settings.trans h.settings, h'.settingsPath.trans h.settingsPath,
    h'.userDirectory.trans h.userDirectory, h'.startup.trans h.startup,
    h'.startupScript.trans h.startupScript, h'.started.trans h.started⟩

def Lasts (act : Action σ φ ω α) : Prop := ∀ e, Lasting e (act e).2

namespace Lasts

theorem chains : Chains (S := Engine σ φ ω) Lasts where
  pure _ _ := ⟨rfl, rfl, rfl, rfl, rfl, rfl⟩
  bind hact hf e := (hact e).trans (hf _ _)

theorem onScene (act : Act σ FrameStats α) : Lasts (onScene act : Action σ φ ω α) :=
  fun _ => ⟨rfl, rfl, rfl, rfl, rfl, rfl⟩

theorem onStrategy (act : UpdateStrategy → Act σ FrameStats UpdateStrategy) :
    Lasts (onStrategy act : Action σ φ ω Unit) := by
  intro e
  cases he : e.strategy with
  | none =>
    have hskip : Engine.onStrategy act e = ((), e) := by
      simp only [Engine.onStrategy, get_bind, he]
      rfl
    rw [hskip]
    exact ⟨rfl, rfl, rfl, rfl, rfl, rfl⟩
  | some strategy =>
    rw [onStrategy_eq he]
    exact ⟨rfl, rfl, rfl, rfl, rfl, rfl⟩

theorem countTime (dt : Single) : Lasts (countTime F dt : Action σ φ ω Unit) := by
  intro e
  rw [Engine.countTime, get_bind]
  split <;> exact ⟨rfl, rfl, rfl, rfl, rfl, rfl⟩

theorem simulate (dt : Single) :
    Lasts (simulate F dt : Action σ φ ω (Stamp × Option FrameOutcome)) :=
  fun _ => ⟨rfl, rfl, rfl, rfl, rfl, rfl⟩

theorem render (dt : Single) (stamp : Stamp) :
    Lasts (render F dt stamp : Action σ φ ω FrameOutcome) := by
  have h := chains (σ := σ) (φ := φ) (ω := ω)
  refine h.bind (onScene _) fun _ => h.bind (onScene _) fun _ => h.bind (onScene _) fun _ => ?_
  refine h.bind (onStrategy _) fun _ => h.bind (onScene _) fun rendered => ?_
  refine h.bind (onStrategy _) fun _ => ?_
  cases rendered with
  | ok _ => exact h.bind (countTime dt) fun _ => h.pure _
  | error f => exact h.bind (onScene _) fun _ => h.pure _

theorem pace (outcome : FrameOutcome) : Lasts (pace outcome : Action σ φ ω Unit) := by
  cases outcome <;> exact fun _ => ⟨rfl, rfl, rfl, rfl, rfl, rfl⟩

variable [Report ω φ]

theorem endFrame (frame : Nat) : Lasts (endFrame frame : Action σ φ ω Unit) :=
  fun _ => ⟨rfl, rfl, rfl, rfl, rfl, rfl⟩

theorem conclude (dt : Single) (stamp : Stamp) (outcome : Option FrameOutcome) :
    Lasts (conclude F dt stamp outcome : Action σ φ ω (Option FrameOutcome)) := by
  have h := chains (σ := σ) (φ := φ) (ω := ω)
  have hend (outcome : FrameOutcome) : Lasts (do
      Engine.endFrame stamp.number
      return some outcome : Action σ φ ω (Option FrameOutcome)) :=
    h.bind (endFrame _) fun _ => h.pure _
  cases outcome with
  | none => exact h.pure _
  | some outcome =>
    cases outcome with
    | completed => exact h.bind (render dt stamp) hend
    | skipped | failed => exact hend _

theorem step : Lasts (step F : Action σ φ ω (Option FrameOutcome)) := fun e =>
  chains.bind (simulate (simulationStep e.limiter.lastFrame)) (fun _ => conclude _ _ _) e

/-- Only a start changes whether an engine has started. -/
theorem make {move : Move σ} (hstart : move ≠ .start) :
    Lasts (make F move : Action σ φ ω Answer) := by
  have h := chains (σ := σ) (φ := φ) (ω := ω)
  cases move with
  | start => exact absurd rfl hstart
  | step => exact h.bind step fun _ => h.pure _
  | pace outcome => exact h.bind (pace outcome) fun _ => h.pure _
  | change f => exact h.bind (onScene _) fun _ => h.pure _
  | retime f => exact fun _ => ⟨rfl, rfl, rfl, rfl, rfl, rfl⟩

end Lasts

end FrameLoop.Engine
