import FrameLoop.Proofs.Scene
import FrameLoop.Update.Strategy

/-! What one turn can do to the handshake, and what happens in it that others can tell:
requests accepted and turned down, updates begun and ended, attributes written. -/

namespace FrameLoop.Update

def WorkerPoint.woken (w : WorkerPoint) : WorkerPoint := if w = .asleep then .locking else w

def MainPoint.woken (m : MainPoint) : MainPoint := if m = .finishAsleep then .finishLocking else m

namespace Threaded

inductive Request
  | allow (stamp : Stamp)
  | finish
  | join
  deriving DecidableEq

def Request.point : Request → MainPoint
  | allow stamp => .allowing stamp
  | finish => .finishing
  | join => .joining

inductive Event
  | called (r : Request)
  /-- The update of a frame was allowed. -/
  | accepted (stamp : Stamp)
  /-- The update of a frame was not allowed because another one is in flight. -/
  | refused (stamp : Stamp)
  /-- The update of a frame was not allowed because the worker was joined. -/
  | belated (stamp : Stamp)
  /-- There was no update to finish. -/
  | unmatched
  /-- The worker entered the update. -/
  | began (stamp : Stamp)
  /-- The update came back, however it ended. -/
  | ended (stamp : Stamp)
  /-- The timing of the update closed, and whether timings were collected then. -/
  | closed (stamp : Stamp) (collecting : Bool)
  | wrote (frame : Nat) (name : String) (value : Double)
  deriving DecidableEq

/-- The names under which an update is timed. -/
def luaKeys : List String := [Phase.lua.beginKey, Phase.lua.takenKey, Phase.lua.endKey]

section

variable {σ κ : Type} [StatsSink κ]

def workerEvents (t : Threaded) (s : Scene σ κ) : List Event :=
  match t.worker with
  | .taken (some stamp) => [.began stamp]
  | .updating stamp _ => [.ended stamp]
  | .closing stamp _ => [.closed stamp (StatsSink.collects s.sink engineStats)]
  | .writing frame ((name, value) :: _) => [.wrote frame name value]
  | _ => []

def mainEvents (t : Threaded) : List Event :=
  match t.main with
  | .allowing stamp => if t.joinable then [] else [.belated stamp]
  | .allowTesting stamp => if t.shared.updateRequested then [.refused stamp] else [.accepted stamp]
  | .finishing => if t.pending then [] else [.unmatched]
  | _ => []

def events (t : Threaded) (s : Scene σ κ) : Turn → List Event
  | .run .main => mainEvents t
  | .run .worker => workerEvents t s
  | .wake _ => []

end

/-- Everything a turn can do to the handshake, with what happens in it. -/
inductive Shift : Threaded → Turn → List Event → Threaded → Prop
  | start {sh o m p a} :
    Shift ⟨sh, o, .starting, m, p, a⟩ (.run .worker) [] ⟨sh, o, .locking, m, p, a⟩
  | lock {sh m p a} :
    Shift ⟨sh, none, .locking, m, p, a⟩ (.run .worker) [] ⟨sh, some .worker, .testing, m, p, a⟩
  | heed {u sl o m p a} :
    Shift ⟨⟨u, true, sl⟩, o, .testing, m, p, a⟩ (.run .worker) []
      ⟨⟨u, true, sl⟩, o, .leaving, m, p, a⟩
  | serve {sl o m p a} :
    Shift ⟨⟨true, false, sl⟩, o, .testing, m, p, a⟩ (.run .worker) []
      ⟨⟨true, false, sl⟩, o, .taking, m, p, a⟩
  | sleep {sl o m p a} :
    Shift ⟨⟨false, false, sl⟩, o, .testing, m, p, a⟩ (.run .worker) []
      ⟨⟨false, false, sl⟩, none, .asleep, m, p, a⟩
  | take {u j sl o m p a} :
    Shift ⟨⟨u, j, sl⟩, o, .taking, m, p, a⟩ (.run .worker) []
      ⟨⟨u, j, none⟩, none, .taken sl, m, p, a⟩
  | miss {sh o m p a} :
    Shift ⟨sh, o, .taken none, m, p, a⟩ (.run .worker) [] ⟨sh, o, .relocking, m, p, a⟩
  | enter {sh o m p a st} (i : Instant) :
    Shift ⟨sh, o, .taken (some st), m, p, a⟩ (.run .worker) [.began st]
      ⟨sh, o, .updating st i, m, p, a⟩
  | update {sh o m p a st i} :
    Shift ⟨sh, o, .updating st i, m, p, a⟩ (.run .worker) [.ended st] ⟨sh, o, .closing st i, m, p, a⟩
  | close {sh o m p a st i} (c : Bool) (l : List (String × Double))
    (hl : l.map Prod.fst = if c then luaKeys else []) :
    Shift ⟨sh, o, .closing st i, m, p, a⟩ (.run .worker) [.closed st c]
      ⟨sh, o, .writing st.number l, m, p, a⟩
  | write {sh o m p a f n v l} :
    Shift ⟨sh, o, .writing f ((n, v) :: l), m, p, a⟩ (.run .worker) [.wrote f n v]
      ⟨sh, o, .writing f l, m, p, a⟩
  | written {sh o m p a f} :
    Shift ⟨sh, o, .writing f [], m, p, a⟩ (.run .worker) [] ⟨sh, o, .relocking, m, p, a⟩
  | relock {sh m p a} :
    Shift ⟨sh, none, .relocking, m, p, a⟩ (.run .worker) [] ⟨sh, some .worker, .clearing, m, p, a⟩
  | clear {u j sl o m p a} :
    Shift ⟨⟨u, j, sl⟩, o, .clearing, m, p, a⟩ (.run .worker) []
      ⟨⟨false, j, sl⟩, none, .notifying, m, p, a⟩
  | notify {sh o m p a} :
    Shift ⟨sh, o, .notifying, m, p, a⟩ (.run .worker) [] ⟨sh, o, .locking, m.woken, p, a⟩
  | leave {u j sl o m p a} :
    Shift ⟨⟨u, j, sl⟩, o, .leaving, m, p, a⟩ (.run .worker) []
      ⟨⟨false, j, sl⟩, none, .announcing, m, p, a⟩
  | announce {sh o m p a} :
    Shift ⟨sh, o, .announcing, m, p, a⟩ (.run .worker) [] ⟨sh, o, .stopping, m.woken, p, a⟩
  | stop {sh o m p a} :
    Shift ⟨sh, o, .stopping, m, p, a⟩ (.run .worker) [] ⟨sh, o, .exited, m, p, a⟩
  | allow {sh o w st p} :
    Shift ⟨sh, o, w, .allowing st, p, true⟩ (.run .main) [] ⟨sh, o, w, .allowLocking st, p, true⟩
  | allowLate {sh o w st p} :
    Shift ⟨sh, o, w, .allowing st, p, false⟩ (.run .main) [.belated st] ⟨sh, o, w, .idle, p, false⟩
  | allowLock {sh w st p a} :
    Shift ⟨sh, none, w, .allowLocking st, p, a⟩ (.run .main) []
      ⟨sh, some .main, w, .allowTesting st, p, a⟩
  | refuse {j sl o w st p a} :
    Shift ⟨⟨true, j, sl⟩, o, w, .allowTesting st, p, a⟩ (.run .main) [.refused st]
      ⟨⟨true, j, sl⟩, none, w, .idle, p, a⟩
  | accept {j sl o w st p a} :
    Shift ⟨⟨false, j, sl⟩, o, w, .allowTesting st, p, a⟩ (.run .main) [.accepted st]
      ⟨⟨true, j, sl⟩, o, w, .allowFilling st, p, a⟩
  | fill {u j sl o w st p a} :
    Shift ⟨⟨u, j, sl⟩, o, w, .allowFilling st, p, a⟩ (.run .main) []
      ⟨⟨u, j, some st⟩, none, w, .allowMarking, p, a⟩
  | mark {sh o w p a} :
    Shift ⟨sh, o, w, .allowMarking, p, a⟩ (.run .main) [] ⟨sh, o, w, .allowNotifying, true, a⟩
  | allowNotify {sh o w p a} :
    Shift ⟨sh, o, w, .allowNotifying, p, a⟩ (.run .main) [] ⟨sh, o, w.woken, .idle, p, a⟩
  | finish {sh o w a} :
    Shift ⟨sh, o, w, .finishing, true, a⟩ (.run .main) [] ⟨sh, o, w, .finishLocking, false, a⟩
  | finishNone {sh o w a} :
    Shift ⟨sh, o, w, .finishing, false, a⟩ (.run .main) [.unmatched] ⟨sh, o, w, .idle, false, a⟩
  | finishLock {sh w p a} :
    Shift ⟨sh, none, w, .finishLocking, p, a⟩ (.run .main) []
      ⟨sh, some .main, w, .finishTesting, p, a⟩
  | wait {j sl o w p a} :
    Shift ⟨⟨true, j, sl⟩, o, w, .finishTesting, p, a⟩ (.run .main) []
      ⟨⟨true, j, sl⟩, none, w, .finishAsleep, p, a⟩
  | finished {j sl o w p a} :
    Shift ⟨⟨false, j, sl⟩, o, w, .finishTesting, p, a⟩ (.run .main) []
      ⟨⟨false, j, sl⟩, none, w, .idle, p, a⟩
  | join {sh o w p} :
    Shift ⟨sh, o, w, .joining, p, true⟩ (.run .main) [] ⟨sh, o, w, .joinLocking, p, false⟩
  | joinAgain {sh o w p} :
    Shift ⟨sh, o, w, .joining, p, false⟩ (.run .main) [] ⟨sh, o, w, .idle, p, false⟩
  | joinLock {sh w p a} :
    Shift ⟨sh, none, w, .joinLocking, p, a⟩ (.run .main) [] ⟨sh, some .main, w, .joinFlagging, p, a⟩
  | flag {u j sl o w p a} :
    Shift ⟨⟨u, j, sl⟩, o, w, .joinFlagging, p, a⟩ (.run .main) []
      ⟨⟨u, true, sl⟩, none, w, .joinNotifying, p, a⟩
  | joinNotify {sh o w p a} :
    Shift ⟨sh, o, w, .joinNotifying, p, a⟩ (.run .main) [] ⟨sh, o, w.woken, .joinWaiting, p, a⟩
  | joined {sh o p a} :
    Shift ⟨sh, o, .exited, .joinWaiting, p, a⟩ (.run .main) [] ⟨sh, o, .exited, .idle, p, a⟩
  | rouseMain {sh o w p a} :
    Shift ⟨sh, o, w, .finishAsleep, p, a⟩ (.wake .main) [] ⟨sh, o, w, .finishLocking, p, a⟩
  | rouseWorker {sh o m p a} :
    Shift ⟨sh, o, .asleep, m, p, a⟩ (.wake .worker) [] ⟨sh, o, .locking, m, p, a⟩

section

variable {σ κ : Type} {F : Facades σ κ} {t t' : Threaded} {s s' : Scene σ κ}

theorem shift_of_mainStep (h : mainStep t s = some (t', s')) :
    Shift t (.run .main) (mainEvents t) t' := by
  obtain ⟨⟨u, j, sl⟩, o, w, m, p, a⟩ := t
  cases m with
  | idle => cases h
  | allowing st =>
    cases a with
    | true => cases h; exact .allow
    | false => cases h; exact .allowLate
  | allowLocking st =>
    cases o with
    | none => cases h; exact .allowLock
    | some _ => cases h
  | allowTesting st =>
    cases u with
    | true => cases h; exact .refuse
    | false => cases h; exact .accept
  | allowFilling st => cases h; exact .fill
  | allowMarking => cases h; exact .mark
  | allowNotifying => cases h; exact .allowNotify
  | finishing =>
    cases p with
    | true => cases h; exact .finish
    | false => cases h; exact .finishNone
  | finishLocking =>
    cases o with
    | none => cases h; exact .finishLock
    | some _ => cases h
  | finishTesting =>
    cases u with
    | true => cases h; exact .wait
    | false => cases h; exact .finished
  | finishAsleep => cases h
  | joining =>
    cases a with
    | true => cases h; exact .join
    | false => cases h; exact .joinAgain
  | joinLocking =>
    cases o with
    | none => cases h; exact .joinLock
    | some _ => cases h
  | joinFlagging => cases h; exact .flag
  | joinNotifying => cases h; exact .joinNotify
  | joinWaiting =>
    by_cases hw : w = .exited
    · subst hw
      cases h; exact .joined
    · simp [mainStep, hw] at h

variable [StatsSink κ]

theorem dueTimings_names (phase : Phase) (stamp : Stamp) (start : Instant) (s : Scene σ κ) :
    ((Scene.dueTimings phase stamp start s).1.map Prod.fst) =
      if StatsSink.collects s.sink engineStats then [phase.beginKey, phase.takenKey, phase.endKey]
      else [] := by
  rw [Scene.dueTimings_eq]
  split <;> rfl

theorem shift_of_workerStep (h : workerStep F t s = some (t', s')) :
    Shift t (.run .worker) (workerEvents t s) t' := by
  obtain ⟨⟨u, j, sl⟩, o, w, m, p, a⟩ := t
  cases w with
  | starting => cases h; exact .start
  | locking =>
    cases o with
    | none => cases h; exact .lock
    | some _ => cases h
  | testing =>
    cases j with
    | true => cases h; exact .heed
    | false =>
      cases u with
      | true => cases h; exact .serve
      | false => cases h; exact .sleep
  | asleep => cases h
  | taking => cases h; exact .take
  | taken st =>
    cases st with
    | none => cases h; exact .miss
    | some st => cases h; exact .enter _
  | updating st i => cases h; exact .update
  | closing st i => cases h; exact .close _ _ (dueTimings_names ..)
  | writing f l =>
    cases l with
    | nil => cases h; exact .written
    | cons _ _ => cases h; exact .write
  | relocking =>
    cases o with
    | none => cases h; exact .relock
    | some _ => cases h
  | clearing => cases h; exact .clear
  | notifying => cases h; exact .notify
  | leaving => cases h; exact .leave
  | announcing => cases h; exact .announce
  | stopping => cases h; exact .stop
  | exited => cases h

theorem shift_of_turn {next : Turn} (h : turn F t s next = some (t', s')) :
    Shift t next (events t s next) t' := by
  rcases next with (_ | _) | (_ | _)
  · exact shift_of_mainStep h
  · exact shift_of_workerStep h
  · obtain ⟨sh, o, w, m, p, a⟩ := t
    by_cases hm : m = .finishAsleep
    · subst hm
      cases h; exact .rouseMain
    · simp [turn, hm] at h
  · obtain ⟨sh, o, w, m, p, a⟩ := t
    by_cases hw : w = .asleep
    · subst hw
      cases h; exact .rouseWorker
    · simp [turn, hw] at h

end

end Threaded

end FrameLoop.Update
