import FrameLoop.Update.Handshake

/-! When the scripting update of a frame runs: inside `finish` on the main thread,
or on a worker between `allow` and `finish`. -/

namespace FrameLoop

inductive UpdateStrategy
  /-- No worker; holds the frame whose update was allowed. -/
  | synchronous (pending : Option Stamp)
  | threaded (t : Update.Threaded)
  deriving DecidableEq

namespace UpdateStrategy

/-- The name of the worker thread. -/
def workerName : String := "cadence-script"

def isThreaded : UpdateStrategy → Bool
  | synchronous _ => false
  | threaded _ => true

/-- Whether the strategy or its worker still holds the scripting engine: the worker
lets go of it when it exits. -/
def holdsScripting : UpdateStrategy → Bool
  | synchronous _ => true
  | threaded t => t.worker != .exited

variable {σ κ : Type} [StatsSink κ] (F : Facades σ κ)

/-- Starts a worker if any is wanted; there is never more than one. -/
def new (workers : Nat) : Act σ κ UpdateStrategy := do
  if workers = 0 then
    Scene.note .main .info "Scripting update runs on the main thread"
    return synchronous none
  else
    if 1 < workers then
      Scene.note .main .warn s!"{workers} script workers requested, using one"
    return threaded .spawn

/-- A call of the main thread on the worker's handshake. -/
def onWorker (t : Update.Threaded) (point : Update.MainPoint) : Act σ κ UpdateStrategy := do
  let (t, s) := t.run F point (← get)
  set s
  return threaded t

/-- Lets the update of a frame start. -/
def allow (stamp : Stamp) : UpdateStrategy → Act σ κ UpdateStrategy
  | synchronous pending => do
    if let some previous := pending then
      Scene.note .main .warn
        s!"Script update of frame {previous.number} was allowed but never finished"
    return synchronous (some stamp)
  | threaded t => onWorker F t (.allowing stamp)

/-- Returns once the update allowed last has completed. -/
def finish : UpdateStrategy → Act σ κ UpdateStrategy
  | synchronous (some stamp) => do
    Update.run F .main stamp
    return synchronous none
  | synchronous none => do
    Scene.note .main .warn "finish_update called without a matching allow_update"
    return synchronous none
  | threaded t => onWorker F t .finishing

/-- Stops the worker; may be called again. -/
def join : UpdateStrategy → Act σ κ UpdateStrategy
  | synchronous pending => return synchronous pending
  | threaded t => onWorker F t .joining

/-- Waits until the worker has begun the update. -/
def awaitEntry : UpdateStrategy → Act σ κ UpdateStrategy
  | synchronous pending => return synchronous pending
  | threaded t => do
    let (t, s) := t.awaitEntry F Update.Threaded.callSteps (← get)
    set s
    return threaded t

end UpdateStrategy

end FrameLoop
