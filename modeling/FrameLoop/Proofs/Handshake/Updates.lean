import FrameLoop.Headless
import FrameLoop.Proofs.Handshake.Ledger
import FrameLoop.Rehearsal.Journal

/-! Which updates run: those that were accepted, in that order, each with its own stamp and
never two at a time; and a finish returns only when all of them are over. -/

namespace FrameLoop.Update

def MainPoint.inJoin : MainPoint → Bool
  | joining | joinLocking | joinFlagging | joinNotifying | joinWaiting => true
  | _ => false

@[simp] theorem MainPoint.inJoin_woken (m : MainPoint) : m.woken.inJoin = m.inJoin := by
  cases m <;> rfl

variable {σ κ : Type} {F : Facades σ κ} {s : Scene σ κ}

namespace Threaded

/-- The attributes that are written, with their values. -/
def Event.stores : Event → List (Nat × String × Double)
  | wrote frame name value => [(frame, name, value)]
  | _ => []

/-- What the main thread logs of what happens. -/
def Event.warnings : Event → List Record
  | refused st =>
    [⟨.warn, s!"Script update of frame {st.number} allowed while another update is in flight"⟩]
  | belated st =>
    [⟨.warn, s!"Script update of frame {st.number} allowed after the worker was joined"⟩]
  | unmatched => [⟨.warn, "finish_update called without a matching allow_update"⟩]
  | _ => []

variable {t t' : Threaded} {s' : Scene σ κ} {next : Turn}

theorem ended_mainEvents (t : Threaded) : ended (mainEvents t) = [] := by
  cases hm : t.main <;> simp only [mainEvents, hm] <;> (try split) <;> rfl

theorem scene_of_mainStep (h : mainStep t s = some (t', s')) :
    s' = s.append .main ((mainEvents t).flatMap Event.warnings) := by
  have hsame := (Scene.append_nil .main s).symm
  obtain ⟨⟨u, j, sl⟩, o, w, m, p, a⟩ := t
  cases m with
  | idle | finishAsleep => cases h
  | allowing st =>
    cases a with
    | true => cases h; exact hsame
    | false => cases h; rfl
  | allowTesting st =>
    cases u with
    | true => cases h; rfl
    | false => cases h; exact hsame
  | finishing =>
    cases p with
    | true => cases h; exact hsame
    | false => cases h; rfl
  | finishTesting => cases u <;> cases h <;> exact hsame
  | joining => cases a <;> cases h <;> exact hsame
  | allowLocking _ | finishLocking | joinLocking =>
    cases o with
    | none => cases h; exact hsame
    | some _ => cases h
  | joinWaiting =>
    by_cases hw : w = .exited
    · subst hw
      cases h; exact hsame
    · simp [mainStep, hw] at h
  | _ => cases h; exact hsame

variable [StatsSink κ]

/-- What a scene has come to after some events: its world by the updates that ended, its sink by
the attributes that were written, its log by the warnings. -/
structure Follows (F : Facades σ κ) (s : Scene σ κ) (es : List Event) (s' : Scene σ κ) : Prop where
  world : s'.world = (ended es).foldl (fun w stamp => (F.updateScripting stamp w).world) s.world
  sink : s'.sink = (es.flatMap Event.stores).foldl
    (fun k a => StatsSink.set k a.1 a.2.1 a.2.2) s.sink
  log : s'.log = s.log ++ (es.flatMap Event.warnings).toArray

theorem Follows.silent (hw : s'.world = s.world) (hk : s'.sink = s.sink) (hl : s'.log = s.log) :
    Follows F s [] s' :=
  ⟨hw, hk, by simpa using hl⟩

theorem follows_of_mainStep (h : mainStep t s = some (t', s')) :
    Follows F s (mainEvents t) s' := by
  have hstores : (mainEvents t).flatMap Event.stores = [] := by
    cases hm : t.main <;> simp only [mainEvents, hm] <;> (try split) <;> rfl
  obtain rfl := scene_of_mainStep h
  exact ⟨by simp [ended_mainEvents, Scene.append], by simp [hstores, Scene.append], rfl⟩

theorem follows_of_workerStep (h : workerStep F t s = some (t', s')) :
    Follows F s (workerEvents t s) s' := by
  obtain ⟨⟨u, j, sl⟩, o, w, m, p, a⟩ := t
  cases w with
  | asleep | exited => cases h
  | locking | relocking =>
    cases o with
    | none => cases h; exact .silent rfl rfl rfl
    | some _ => cases h
  | testing => cases j <;> cases u <;> cases h <;> exact .silent rfl rfl rfl
  | taken st =>
    cases st with
    | none => cases h; exact .silent rfl rfl rfl
    | some st => cases h; exact ⟨rfl, rfl, by simp [workerEvents, Event.warnings]⟩
  | updating st i =>
    simp only [workerStep, perform_eq] at h
    cases h; exact ⟨rfl, rfl, by simp [workerEvents, Event.warnings, Scene.append]⟩
  | closing st i =>
    simp only [workerStep, Scene.dueTimings_eq] at h
    split at h <;> cases h <;> exact ⟨rfl, rfl, by simp [workerEvents, Event.warnings]⟩
  | writing f l =>
    cases l with
    | nil => cases h; exact .silent rfl rfl rfl
    | cons _ _ => cases h; exact ⟨rfl, rfl, by simp [workerEvents, Event.warnings]; rfl⟩
  | _ => cases h; exact .silent rfl rfl rfl

/-- In a turn the world changes by the update that ends in it, the sink by what is written in it,
and the main thread logs nothing but its warnings. -/
theorem follows_of_turn (h : turn F t s next = some (t', s')) :
    Follows F s (events t s next) s' := by
  rcases next with (_ | _) | (_ | _)
  · exact follows_of_mainStep h
  · exact follows_of_workerStep h
  · by_cases hm : t.main = .finishAsleep
    · simp only [turn, hm, if_true] at h
      cases h; exact .silent rfl rfl rfl
    · simp [turn, hm] at h
  · by_cases hw : t.worker = .asleep
    · simp only [turn, hw, if_true] at h
      cases h; exact .silent rfl rfl rfl
    · simp [turn, hw] at h

theorem Follows.trans {s'' : Scene σ κ} {es es' : List Event} (h : Follows F s es s')
    (h' : Follows F s' es' s'') : Follows F s (es ++ es') s'' where
  world := by rw [h'.world, h.world, ended, ended, ended, List.flatMap_append, List.foldl_append]
  sink := by rw [h'.sink, h.sink, List.flatMap_append, List.foldl_append]
  log := by rw [h'.log, h.log, List.flatMap_append]; simp

theorem follows_of_take (F : Facades σ κ) (turns : List Turn) (t : Threaded) (s : Scene σ κ) :
    Follows F s (history F turns t s) (take F turns t s).2 := by
  induction turns generalizing t s with
  | nil => exact .silent rfl rfl rfl
  | cons next rest ih =>
    simp only [take, history]
    cases hn : turn F t s next with
    | none => exact ih t s
    | some y => exact (follows_of_turn hn).trans (ih y.1 y.2)

theorem world_of_take (F : Facades σ κ) (turns : List Turn) (t : Threaded) (s : Scene σ κ) :
    (take F turns t s).2.world = (ended (history F turns t s)).foldl
      (fun w stamp => (F.updateScripting stamp w).world) s.world :=
  (follows_of_take F turns t s).world

theorem Shift.joinable {es : List Event} (h : Shift t next es t') (ha : t.joinable)
    (hm : t.main.inJoin = false) : t'.joinable ∧ t'.main.inJoin = false := by
  cases h with
  | notify | announce => exact ⟨ha, by simpa using hm⟩
  | join | joinAgain | joinLock | flag | joinNotify | joined => cases hm
  | _ => exact ⟨ha, hm⟩

variable {x y : Threaded × Scene σ κ} {h : List Event}

theorem Run.joinable (hr : Run F x h y) (hj : .called .join ∉ h) (ha : x.1.joinable)
    (hm : x.1.main.inJoin = false) : y.1.joinable ∧ y.1.main.inJoin = false := by
  induction hr with
  | refl => exact ⟨ha, hm⟩
  | turn next _ ht ih =>
    obtain ⟨ha, hm⟩ := ih fun hc => hj (List.mem_append_left _ hc)
    exact (shift_of_turn ht).joinable ha hm
  | call r _ _ ih =>
    obtain ⟨ha, -⟩ := ih fun hc => hj (List.mem_append_left _ hc)
    cases r with
    | join => simp at hj
    | allow | finish => exact ⟨ha, rfl⟩
  | aside _ _ _ ih => exact ih hj

/-- How the updates of a history follow its calls: each answer is for the stamp of its own call,
the updates that begin are the accepted ones in that order, and none begins before the one
before it has ended. -/
structure Orderly (h : List Event) (t : Threaded) : Prop where
  answers : answered h ++ t.main.asked = asked h
  accepts : (accepted h).Sublist (answered h)
  begins : begun h <+: accepted h
  ends : ended h <+: begun h
  single : (begun h).length ≤ (ended h).length + 1

theorem accepted_sublist_answered (h : List Event) : (accepted h).Sublist (answered h) := by
  induction h with
  | nil => exact .slnil
  | cons e h ih =>
    have he : (Event.accepts e).Sublist (Event.answers e) := by
      cases e <;> simp [Event.accepts, Event.answers]
    simpa using he.append ih

theorem Run.orderly (hr : Run F (spawn, s) h y) : Orderly h y.1 := by
  have ha := answering_conserves.run .spawn hr
  have hs := starting_conserves.run .spawn hr
  have hu := updating_conserves.run .spawn hr
  rw [show answering.held spawn = [] from rfl, List.nil_append] at ha
  rw [Clear.spawn.starting, List.nil_append] at hs
  rw [Clear.spawn.updating, List.nil_append] at hu
  refine ⟨ha.symm, accepted_sublist_answered h, ⟨_, hs.symm⟩, ⟨_, hu.symm⟩, ?_⟩
  have hl : (updating.held y.1).length ≤ 1 := by
    simp only [updating]
    cases y.1.worker <;> simp [WorkerPoint.underWay]
  have hn := congrArg List.length hu
  rw [List.length_append] at hn
  change (begun h).length = (ended h).length + _ at hn
  omega

/-- Without a join the updates that run are the accepted ones, one after the other, each called
with the stamp of its allow; and whenever a finish that had an update pending returns, all of
them are over, none is requested, and their attributes are written if they were collected. -/
theorem updates_are_accepted (hr : Run F (spawn, s) h (t, s')) (hj : .called .join ∉ h) :
    Orderly h t ∧
      (∀ next y, turn F t s' next = some y → Follows F s' (events t s' next) y.2) ∧
      ∀ y, t.main.awaits → turn F t s' (.run .main) = some y → y.1.main = .idle →
        y.1.shared.updateRequested = false ∧ ended h = accepted h ∧ closed h = accepted h ∧
          written h = due h := by
  refine ⟨hr.orderly, fun next y hy => follows_of_turn hy, fun y hw hy hi => ?_⟩
  have hc := Coherent.spawn.run hr
  obtain ⟨ha, -⟩ := hr.joinable hj rfl rfl
  have hu : t.shared.updateRequested = false ∧ y.1 = { t with owner := none, main := .idle } := by
    have hy := shift_of_turn hy
    generalize y.1 = t' at hy hi
    cases hy with
    | finished => simp_all
    | _ => simp_all [MainPoint.awaits]
  refine ⟨by simpa [hu.2] using hu.1, ?_⟩
  exact hr.completed .spawn .spawn (hc.clear ha hu.1)

/-- An empty world whose timings are collected. -/
def collectingScene : Scene Headless.World Rehearsal.Journal :=
  ⟨.new (fun _ => false) 0 0, .new [engineStats], ⟨id, 0⟩, .lazy, #[], #[]⟩

/-- Two allows, the second of them while an update is in flight, and a finish up to its return. -/
def refusedAndFinished : List Event × Threaded × Scene Headless.World Rehearsal.Journal :=
  enact Headless.facades
    [(.allow ⟨7, 0⟩, List.replicate 6 (.run .main)), (.allow ⟨8, 0⟩, List.replicate 3 (.run .main)),
      (.finish, List.replicate 14 (.run .worker) ++ List.replicate 2 (.run .main))]
    (spawn, collectingScene)

theorem updates_are_accepted_after_refusal :
    .called .join ∉ refusedAndFinished.1 ∧ refusedAndFinished.2.1.main.awaits ∧
      asked refusedAndFinished.1 = [⟨7, 0⟩, ⟨8, 0⟩] ∧ ended refusedAndFinished.1 = [⟨7, 0⟩] ∧
      ended refusedAndFinished.1 = accepted refusedAndFinished.1 := by
  have hr : Run Headless.facades (spawn, collectingScene) refusedAndFinished.1
      refusedAndFinished.2 := run_enact ..
  obtain ⟨-, -, hf⟩ := updates_are_accepted hr (by decide)
  obtain ⟨y, hy⟩ : ∃ y, turn Headless.facades refusedAndFinished.2.1 refusedAndFinished.2.2
      (.run .main) = some y := ⟨_, rfl⟩
  have hi : (turn Headless.facades refusedAndFinished.2.1 refusedAndFinished.2.2
      (.run .main)).map (·.1.main) = some .idle := rfl
  obtain ⟨-, he, -⟩ := hf y rfl hy (by simpa [hy] using hi)
  exact ⟨by decide, rfl, rfl, rfl, he⟩

end Threaded

end FrameLoop.Update
