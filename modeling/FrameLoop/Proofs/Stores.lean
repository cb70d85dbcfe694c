import FrameLoop.Proofs.Scene
import FrameLoop.Telemetry.FrameStats

/-! Attributes stored in a sink, one after the other. -/

namespace FrameLoop

variable {κ : Type} [StatsSink κ]

/-- Stores attributes, each a frame, a name and a value. -/
def storeAll (k : κ) (stores : List (Nat × String × Double)) : κ :=
  stores.foldl (fun k a => StatsSink.set k a.1 a.2.1 a.2.2) k

/-- Where an attribute is stored. -/
def storeKey (a : Nat × String × Double) : Nat × String := (a.1, a.2.1)

theorem storeAll_append (k : κ) (stores more : List (Nat × String × Double)) :
    storeAll k (stores ++ more) = storeAll (storeAll k stores) more :=
  List.foldl_append

/-- What is stored does not change what is collected. -/
structure Steady (κ : Type) [StatsSink κ] : Prop where
  collects_set : ∀ (k : κ) frame name value category,
    StatsSink.collects (StatsSink.set k frame name value) category = StatsSink.collects k category

theorem Steady.collects_storeAll (h : Steady κ) (k : κ) (stores : List (Nat × String × Double))
    (category : String) :
    StatsSink.collects (storeAll k stores) category = StatsSink.collects k category := by
  induction stores generalizing k with
  | nil => rfl
  | cons a stores ih => exact (ih _).trans (h.collects_set ..)

theorem FrameStats.steady : Steady FrameStats := ⟨fun _ _ _ _ _ => rfl⟩

/-- The keys under which a phase of a frame is timed, if the timings are collected. -/
def Phase.receipts (p : Phase) (collecting : Bool) (frame : Nat) : List (Nat × String) :=
  if collecting then [(frame, p.beginKey), (frame, p.takenKey), (frame, p.endKey)] else []

namespace Scene

variable {σ : Type}

theorem forM_setAttribute (frame : Nat) (l : List (String × Double)) (s : Scene σ κ) :
    ((l.forM fun (name, value) => setAttribute frame name value : Act σ κ _) s).2 =
      { s with sink := storeAll s.sink (l.map fun a => (frame, a.1, a.2)) } := by
  induction l generalizing s with
  | nil => rfl
  | cons a l ih => exact ih _

theorem closePhase_eq (phase : Phase) (stamp : Stamp) (start : Instant) (s : Scene σ κ) :
    (closePhase phase stamp start s).2 =
      if StatsSink.collects s.sink engineStats then
        { s with
          clock := s.clock.read.2
          sink := storeAll s.sink ((timings phase stamp start s.clock.read.1).map fun a =>
            (stamp.number, a.1, a.2)) }
      else s := by
  have hclose : (closePhase phase stamp start s).2 =
      (((dueTimings phase stamp start s).1.forM fun (name, value) =>
        setAttribute stamp.number name value : Act σ κ _) (dueTimings phase stamp start s).2).2 := rfl
  rw [hclose, forM_setAttribute, dueTimings_eq]
  split <;> rfl

theorem closePhase_world (phase : Phase) (stamp : Stamp) (start : Instant) (s : Scene σ κ) :
    (closePhase phase stamp start s).2.world = s.world := by
  rw [closePhase_eq]
  split <;> rfl

/-- The end of a phase stores its timings. -/
theorem closePhase_stores (phase : Phase) (stamp : Stamp) (start : Instant) (s : Scene σ κ) :
    ∃ stores, (closePhase phase stamp start s).2.sink = storeAll s.sink stores ∧
      stores.map storeKey =
        phase.receipts (StatsSink.collects s.sink engineStats) stamp.number := by
  rw [closePhase_eq]
  cases hc : StatsSink.collects s.sink engineStats with
  | true => exact ⟨_, rfl, rfl⟩
  | false => exact ⟨[], rfl, rfl⟩

end Scene

end FrameLoop
