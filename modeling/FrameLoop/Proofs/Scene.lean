import FrameLoop.Update.Handshake

/-! What the small actions on a scene come to: logging, timing and one run of the update. -/

namespace FrameLoop

variable {σ κ : Type}

theorem exists_of_isOk {ε α : Type} {r : Except ε α} (h : r.isOk = true) : ∃ a, r = .ok a := by
  cases r with
  | error _ => cases h
  | ok a => exact ⟨a, rfl⟩

namespace Scene

theorem append_append (thread : Thread) (a b : List Record) (s : Scene σ κ) :
    append thread b (append thread a s) = append thread (a ++ b) s := by
  cases thread <;> simp [append]

theorem append_nil (thread : Thread) (s : Scene σ κ) : append thread [] s = s := by
  cases thread <;> simp [append]

variable [StatsSink κ]

/-- The clock is read at the end of a phase only if the timings are collected. -/
theorem dueTimings_eq (phase : Phase) (stamp : Stamp) (start : Instant) (s : Scene σ κ) :
    dueTimings phase stamp start s =
      if StatsSink.collects s.sink engineStats then
        (timings phase stamp start s.clock.read.1, { s with clock := s.clock.read.2 })
      else ([], s) := by
  change (if StatsSink.collects s.sink engineStats then
    (do return timings phase stamp start (← now)) else (do return []) : Act σ κ _) s = _
  split <;> rfl

end Scene

/-- The world after an update. -/
def Update.updated (F : Facades σ κ) (w : σ) (stamp : Stamp) : σ :=
  (F.updateScripting stamp w).world

/-- What is logged about the end of an update. -/
def UpdateEnd.report (stamp : Stamp) : UpdateEnd → List Record
  | .finished => []
  | .failed f => [⟨.error, s!"Scripting update failed: {f.line}"⟩]
  | .panicked => [⟨.error, s!"Scripting update panicked in frame {stamp.number}"⟩]

/-- However the update ends, its changes stay and all that it logged. -/
theorem Update.perform_eq (F : Facades σ κ) (thread : Thread) (stamp : Stamp) (s : Scene σ κ) :
    Update.perform F thread stamp s =
      ((), Scene.append thread ((F.updateScripting stamp s.world).log ++
        (F.updateScripting stamp s.world).answer.report stamp)
        { s with world := (F.updateScripting stamp s.world).world }) := by
  rw [← Scene.append_append]
  change (match (F.updateScripting stamp s.world).answer with
    | .finished => return
    | .failed f => Scene.note thread .error s!"Scripting update failed: {f.line}"
    | .panicked => Scene.note thread .error s!"Scripting update panicked in frame {stamp.number}" :
      Act σ κ Unit) _ = _
  cases (F.updateScripting stamp s.world).answer with
  | finished => exact congrArg (Prod.mk ()) (Scene.append_nil ..).symm
  | failed f => rfl
  | panicked => rfl

end FrameLoop
