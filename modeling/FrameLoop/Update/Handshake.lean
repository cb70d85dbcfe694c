import FrameLoop.Facades

/-! The scripting update, timed as a phase of its frame, and the handshake of the main
thread with the worker that runs it. Both threads take the same lock and wait on the
same condition; each step of either is atomic, and any step that is enabled may be the
next. Failures and panics of an update are logged and go no further. -/

namespace FrameLoop.Update

section

variable {σ κ : Type} (F : Facades σ κ)

/-- Calls the update and logs how it ended. -/
def perform (thread : Thread) (stamp : Stamp) : Act σ κ Unit := do
  let s ← get
  let o := F.updateScripting stamp s.world
  set ({ s with world := o.world }.append thread o.log)
  match o.answer with
  | .finished => return
  | .failed f => Scene.note thread .error s!"Scripting update failed: {f.line}"
  | .panicked => Scene.note thread .error s!"Scripting update panicked in frame {stamp.number}"

/-- The update of one frame, from the start of its timing to the end. -/
def run [StatsSink κ] (thread : Thread) (stamp : Stamp) : Act σ κ Unit := do
  let start ← Scene.now
  perform F thread stamp
  Scene.closePhase .lua stamp start

end

/-- What the lock guards. -/
structure Shared where
  updateRequested : Bool
  joinRequested : Bool
  stamp : Option Stamp
  deriving DecidableEq, Repr

/-- What the worker does next. -/
inductive WorkerPoint
  | starting
  /-- Takes the lock. -/
  | locking
  /-- Holding the lock, looks for a request. -/
  | testing
  /-- Waits to be notified. -/
  | asleep
  /-- Holding the lock, takes the stamp and lets go of the lock. -/
  | taking
  | taken (stamp : Option Stamp)
  | updating (stamp : Stamp) (start : Instant)
  | closing (stamp : Stamp) (start : Instant)
  | writing (frame : Nat) (timings : List (String × Double))
  /-- Takes the lock after an update. -/
  | relocking
  /-- Holding the lock, withdraws the request and lets go of the lock. -/
  | clearing
  | notifying
  /-- Holding the lock, withdraws the request because it was asked to join. -/
  | leaving
  | announcing
  | stopping
  | exited
  deriving DecidableEq

/-- What the main thread does next in a call. -/
inductive MainPoint
  | idle
  | allowing (stamp : Stamp)
  | allowLocking (stamp : Stamp)
  /-- Holding the lock, looks whether a request is still open. -/
  | allowTesting (stamp : Stamp)
  /-- Holding the lock, leaves the stamp and lets go of the lock. -/
  | allowFilling (stamp : Stamp)
  | allowMarking
  | allowNotifying
  | finishing
  | finishLocking
  /-- Holding the lock, looks whether the request is still open. -/
  | finishTesting
  /-- Waits to be notified. -/
  | finishAsleep
  | joining
  | joinLocking
  /-- Holding the lock, asks the worker to stop and lets go of the lock. -/
  | joinFlagging
  | joinNotifying
  /-- Waits for the worker to exit. -/
  | joinWaiting
  deriving DecidableEq

/-- The two threads and what they share. -/
structure Threaded where
  shared : Shared
  /-- The thread that holds the lock. -/
  owner : Option Thread
  worker : WorkerPoint
  main : MainPoint
  /-- An update was allowed and not yet finished. -/
  pending : Bool
  /-- The worker has not been joined. -/
  joinable : Bool
  deriving DecidableEq

namespace Threaded

/-- A worker that has just been started. -/
def spawn : Threaded := ⟨⟨false, false, none⟩, none, .starting, .idle, false, true⟩

/-- Wakes whoever waits on the condition. -/
def notifyAll (t : Threaded) : Threaded :=
  { t with
    worker := if t.worker = .asleep then .locking else t.worker
    main := if t.main = .finishAsleep then .finishLocking else t.main }

variable {σ κ : Type} [StatsSink κ] (F : Facades σ κ)

/-- One step of the worker; none if it sleeps, waits for the lock or has exited. -/
def workerStep (t : Threaded) (s : Scene σ κ) : Option (Threaded × Scene σ κ) :=
  match t.worker with
  | .starting =>
    some ({ t with worker := .locking }, (Scene.note .worker .info "Script worker started" s).2)
  | .locking =>
    if t.owner = none then some ({ t with owner := some .worker, worker := .testing }, s) else none
  | .testing =>
    if t.shared.joinRequested then some ({ t with worker := .leaving }, s)
    else if t.shared.updateRequested then some ({ t with worker := .taking }, s)
    else some ({ t with owner := none, worker := .asleep }, s)
  | .asleep => none
  | .taking =>
    some ({ t with
      shared := { t.shared with stamp := none }, owner := none, worker := .taken t.shared.stamp }, s)
  | .taken none =>
    some ({ t with worker := .relocking },
      (Scene.note .worker .warn "Script update requested without a frame stamp" s).2)
  | .taken (some stamp) =>
    let (start, s) := Scene.now s
    some ({ t with worker := .updating stamp start }, s)
  | .updating stamp start =>
    some ({ t with worker := .closing stamp start }, (perform F .worker stamp s).2)
  | .closing stamp start =>
    let (timings, s) := Scene.dueTimings .lua stamp start s
    some ({ t with worker := .writing stamp.number timings }, s)
  | .writing _ [] => some ({ t with worker := .relocking }, s)
  | .writing frame ((name, value) :: rest) =>
    some ({ t with worker := .writing frame rest }, (Scene.setAttribute frame name value s).2)
  | .relocking =>
    if t.owner = none then some ({ t with owner := some .worker, worker := .clearing }, s) else none
  | .clearing =>
    some ({ t with
      shared := { t.shared with updateRequested := false }, owner := none, worker := .notifying }, s)
  | .notifying => some ({ t with worker := .locking }.notifyAll, s)
  | .leaving =>
    some ({ t with
      shared := { t.shared with updateRequested := false }, owner := none, worker := .announcing }, s)
  | .announcing => some ({ t with worker := .stopping }.notifyAll, s)
  | .stopping =>
    some ({ t with worker := .exited }, (Scene.note .worker .info "Script worker stopped" s).2)
  | .exited => none

/-- One step of the main thread inside a call; none if it waits or is in no call. -/
def mainStep (t : Threaded) (s : Scene σ κ) : Option (Threaded × Scene σ κ) :=
  match t.main with
  | .idle => none
  | .allowing stamp =>
    if t.joinable then some ({ t with main := .allowLocking stamp }, s)
    else some ({ t with main := .idle }, (Scene.note .main .warn
      s!"Script update of frame {stamp.number} allowed after the worker was joined" s).2)
  | .allowLocking stamp =>
    if t.owner = none then
      some ({ t with owner := some .main, main := .allowTesting stamp }, s)
    else none
  | .allowTesting stamp =>
    if t.shared.updateRequested then
      some ({ t with owner := none, main := .idle }, (Scene.note .main .warn
        s!"Script update of frame {stamp.number} allowed while another update is in flight" s).2)
    else some ({ t with
      shared := { t.shared with updateRequested := true }, main := .allowFilling stamp }, s)
  | .allowFilling stamp =>
    some ({ t with
      shared := { t.shared with stamp := some stamp }, owner := none, main := .allowMarking }, s)
  | .allowMarking => some ({ t with pending := true, main := .allowNotifying }, s)
  | .allowNotifying => some ({ t with main := .idle }.notifyAll, s)
  | .finishing =>
    if t.pending then some ({ t with pending := false, main := .finishLocking }, s)
    else some ({ t with main := .idle }, (Scene.note .main .warn
      "finish_update called without a matching allow_update" s).2)
  | .finishLocking =>
    if t.owner = none then some ({ t with owner := some .main, main := .finishTesting }, s)
    else none
  | .finishTesting =>
    if t.shared.updateRequested then some ({ t with owner := none, main := .finishAsleep }, s)
    else some ({ t with owner := none, main := .idle }, s)
  | .finishAsleep => none
  | .joining =>
    if t.joinable then some ({ t with joinable := false, main := .joinLocking }, s)
    else some ({ t with main := .idle }, s)
  | .joinLocking =>
    if t.owner = none then some ({ t with owner := some .main, main := .joinFlagging }, s)
    else none
  | .joinFlagging =>
    some ({ t with
      shared := { t.shared with joinRequested := true }, owner := none, main := .joinNotifying }, s)
  | .joinNotifying => some ({ t with main := .joinWaiting }.notifyAll, s)
  | .joinWaiting => if t.worker = .exited then some ({ t with main := .idle }, s) else none

/-- One turn; none if the thread has nothing to do in it. -/
def turn (t : Threaded) (s : Scene σ κ) : Turn → Option (Threaded × Scene σ κ)
  | .run .main => mainStep t s
  | .run .worker => workerStep F t s
  | .wake .main =>
    if t.main = .finishAsleep then some ({ t with main := .finishLocking }, s) else none
  | .wake .worker =>
    if t.worker = .asleep then some ({ t with worker := .locking }, s) else none

/-- Takes turns in order, leaving out those in which there is nothing to do. -/
def take : List Turn → Threaded → Scene σ κ → Threaded × Scene σ κ
  | [], t, s => (t, s)
  | next :: rest, t, s =>
    match turn F t s next with
    | some (t, s) => take rest t s
    | none => take rest t s

/-- Lets the main thread run to the end of its call; the worker runs only while
the main thread waits for it. -/
def settle : Nat → Threaded → Scene σ κ → Threaded × Scene σ κ
  | 0, t, s => (t, s)
  | fuel + 1, t, s =>
    if t.main = .idle then (t, s)
    else match mainStep t s with
      | some (t, s) => settle fuel t s
      | none =>
        match workerStep F t s with
        | some (t, s) => settle fuel t s
        | none => (t, s)

/-- More steps than any call takes, together with the worker's steps that it waits for. -/
def callSteps : Nat := 64

/-- A whole call of the main thread, begun at a point. The worker may run before it,
during it and after it, as the schedule has it. -/
def run (point : MainPoint) (t : Threaded) (s : Scene σ κ) : Threaded × Scene σ κ :=
  let (turns, schedule) := s.schedule.next
  let (t, s) := take F turns { t with main := point } { s with schedule }
  settle F callSteps t s

/-- Lets the worker run alone until it is about to call the update. -/
def awaitEntry : Nat → Threaded → Scene σ κ → Threaded × Scene σ κ
  | 0, t, s => (t, s)
  | fuel + 1, t, s =>
    match t.worker with
    | .updating _ _ => (t, s)
    | _ =>
      match workerStep F t s with
      | some (t, s) => awaitEntry fuel t s
      | none => (t, s)

end Threaded

end FrameLoop.Update
