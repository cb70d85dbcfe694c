import FrameLoop.Scene

/-! Programs of nested timed phases that may fail or panic anywhere. -/

namespace FrameLoop.Rehearsal

inductive ScopeStep
  | collect (category : String) (enabled : Bool)
  | scope (phase : Phase) (frame : Nat) (inner : List ScopeStep)
  | fail
  | panic

/-- How a program was left early. -/
inductive Leave
  | failed
  | panicked
  deriving DecidableEq, Repr

variable {κ : Type} [StatsSink κ] (setCollecting : String → Bool → κ → κ)

mutual

/-- Runs one step; every scope starts from a stamp at `start`. -/
def runScope (start : Instant) : ScopeStep → Attempt Leave Unit κ Unit
  | .collect category enabled =>
    ExceptT.lift (modify fun s => { s with sink := setCollecting category enabled s.sink })
  | .scope phase frame inner => Scene.timed phase ⟨frame, start⟩ (runScopes start inner)
  | .fail => throw .failed
  | .panic => throw .panicked

def runScopes (start : Instant) : List ScopeStep → Attempt Leave Unit κ Unit
  | [] => return
  | step :: rest => do
    runScope start step
    runScopes start rest

end

end FrameLoop.Rehearsal
