import FrameLoop.Proofs.FrameCalls
import FrameLoop.Proofs.Handshake.Completion

/-! What comes of the calls in pairs: an allow and the finish after it run one update, for the
stamp of the allow, and no misuse is logged; between such pairs the worker touches nothing. -/

namespace FrameLoop.Update

namespace MainPoint

def rests : MainPoint → Bool
  | idle => true
  | _ => false

/-- The main thread is in an allow, up to where it notes that the update is pending. -/
def unmarked : MainPoint → Bool
  | allowing _ | allowLocking _ | allowTesting _ | allowFilling _ | allowMarking => true
  | _ => false

def notifies : MainPoint → Bool
  | allowNotifying => true
  | _ => false

/-- The main thread is about to look for the pending update. -/
def claims : MainPoint → Bool
  | finishing => true
  | _ => false

def joins : MainPoint → Bool
  | joining => true
  | _ => false

variable (m : MainPoint)

@[simp] theorem rests_woken : m.woken.rests = m.rests := by cases m <;> rfl

@[simp] theorem unmarked_woken : m.woken.unmarked = m.unmarked := by cases m <;> rfl

@[simp] theorem notifies_woken : m.woken.notifies = m.notifies := by cases m <;> rfl

@[simp] theorem claims_woken : m.woken.claims = m.claims := by cases m <;> rfl

@[simp] theorem joins_woken : m.woken.joins = m.joins := by cases m <;> rfl

end MainPoint

namespace Threaded

variable {σ κ : Type} [StatsSink κ] {F : Facades σ κ} {t t' : Threaded} {next : Turn}
  {es h h' : List Event}

/-- The worker asks for the updates that end, and logs no misuse: it never finds a request
without a stamp. -/
theorem asks_of_workerStep {s s' : Scene (Watched σ) κ} (h : workerStep F.watched t s = some (t', s'))
    (hm : t.worker.misses = false) : Asks ((ended (workerEvents t s)).map .update) s s' := by
  obtain ⟨⟨u, j, sl⟩, o, w, m, p, a⟩ := t
  cases w with
  | asleep | exited => cases h
  | starting | stopping => cases h; exact .note .worker s _ (by decide)
  | locking | relocking =>
    cases o with
    | none => cases h; exact .refl s
    | some _ => cases h
  | testing => cases j <;> cases u <;> cases h <;> exact .refl s
  | taken st =>
    cases st with
    | none => cases hm
    | some st => cases h; exact Silent.now s
  | updating st i => cases h; exact .perform F .worker st s
  | closing st i => cases h; exact Silent.dueTimings .lua st i s
  | writing f l =>
    cases l with
    | nil => cases h; exact .refl s
    | cons _ _ => cases h; exact Silent.setAttribute _ _ _ s
  | _ => cases h; exact .refl s

theorem asks_of_turn {s s' : Scene (Watched σ) κ} (h : turn F.watched t s next = some (t', s')) (hc : Coherent t)
    (hw : (events t s next).flatMap Event.warnings = []) :
    Asks ((ended (events t s next)).map .update) s s' := by
  rcases next with (_ | _) | (_ | _)
  · have hs := scene_of_mainStep h
    change (mainEvents t).flatMap Event.warnings = [] at hw
    rw [hw, Scene.append_nil] at hs
    subst hs
    change Asks ((ended (mainEvents t)).map .update) s' s'
    rw [ended_mainEvents]
    exact .refl s'
  · exact asks_of_workerStep h hc.request.misses
  · by_cases hm : t.main = .finishAsleep
    · simp only [turn, hm, if_true] at h
      cases h; exact .refl s
    · simp [turn, hm] at h
  · by_cases hw : t.worker = .asleep
    · simp only [turn, hw, if_true] at h
      cases h; exact .refl s
    · simp [turn, hw] at h

/-- What holds throughout a call in which nothing is warned of. -/
structure Discreet (I : Threaded → Prop) : Prop where
  shift : ∀ {t t' : Threaded} {next : Turn} {es : List Event}, Coherent t → I t →
    Shift t next es t' → I t' ∧ es.flatMap Event.warnings = []

variable {I : Threaded → Prop}

theorem Discreet.take (hI : Discreet I) (hc : Coherent t) (ht : I t) (turns : List Turn)
    (s : Scene σ κ) :
    I (take F turns t s).1 ∧ (history F turns t s).flatMap Event.warnings = [] := by
  induction turns generalizing t s with
  | nil => exact ⟨ht, rfl⟩
  | cons next rest ih =>
    simp only [Threaded.take, history]
    cases hn : turn F t s next with
    | none => exact ih hc ht s
    | some y =>
      have hs := shift_of_turn hn
      obtain ⟨ht', hw⟩ := hI.shift hc ht hs
      obtain ⟨hy, hr⟩ := ih (hc.shift hs) ht' y.2
      exact ⟨hy, by rw [List.flatMap_append, hw, hr, List.append_nil]⟩

/-- Where nothing is warned of, the scripting engine is asked for the updates that end. -/
theorem asks_take (hc : Coherent t) (turns : List Turn) (s : Scene (Watched σ) κ)
    (hw : (history F.watched turns t s).flatMap Event.warnings = []) :
    Asks ((ended (history F.watched turns t s)).map .update) s (take F.watched turns t s).2 := by
  induction turns generalizing t s with
  | nil => exact .refl s
  | cons next rest ih =>
    simp only [Threaded.take, history] at hw ⊢
    cases hn : turn F.watched t s next with
    | none =>
      simp only [hn] at hw
      exact ih hc s hw
    | some y =>
      simp only [hn, List.flatMap_append, List.append_eq_nil_iff] at hw
      have hrest := ih (hc.shift (shift_of_turn hn)) y.2 hw.2
      rw [ended, List.flatMap_append, List.map_append]
      exact (asks_of_turn hn hc hw.1).trans hrest

theorem Shift.asked_eq (h : Shift t next es t') : asked es = [] := by
  cases h <;> rfl

theorem asks_history (F : Facades σ κ) (turns : List Turn) (t : Threaded) (s : Scene σ κ) :
    asked (history F turns t s) = [] := by
  induction turns generalizing t s with
  | nil => rfl
  | cons next rest ih =>
    simp only [history]
    cases hn : turn F t s next with
    | none => exact ih t s
    | some y =>
      have he := (shift_of_turn hn).asked_eq
      rw [asked, List.flatMap_append, List.append_eq_nil_iff]
      exact ⟨he, ih y.1 y.2⟩

theorem accepted_eq_answered (h : List Event) (hw : h.flatMap Event.warnings = []) :
    accepted h = answered h := by
  induction h with
  | nil => rfl
  | cons e h ih =>
    rw [List.flatMap_cons, List.append_eq_nil_iff] at hw
    have he : Event.accepts e = Event.answers e := by
      cases e <;> first | rfl | cases hw.1
    rw [accepted, answered, List.flatMap_cons, List.flatMap_cons, he]
    exact congrArg _ (ih hw.2)

/-- A whole call of the main thread: it takes some turns, accepts what it asks for and warns of
nothing. -/
structure Goes (F : Facades σ κ) (r : Request) (t : Threaded) (s : Scene σ κ)
    (turns : List Turn) : Prop where
  run_eq : run F r.point t s =
    take F turns { t with main := r.point } { s with schedule := s.schedule.next.2 }
  accepts : accepted (callHistory F r turns t s) = Event.asks (.called r)
  unwarned : (callHistory F r turns t s).flatMap Event.warnings = []

theorem Discreet.call (hI : Discreet I) (hc : Coherent t) (hi : t.main = .idle) (r : Request)
    (ht : I { t with main := r.point }) (s : Scene σ κ) :
    ∃ turns, Goes F r t s turns ∧ I (run F r.point t s).1 ∧
      (run F r.point t s).1.main = .idle := by
  obtain ⟨turns, he, hidle⟩ := exists_run (F := F) (s := s) hc hi r
  have hcall := run_call (F := F) (s := s) hi r turns
  obtain ⟨hy, hw⟩ := hI.take (F := F) (hc.call hi r) ht turns
    { s with schedule := s.schedule.next.2 }
  rw [← he] at hcall hy
  refine ⟨turns, ⟨he, ?_, hw⟩, hy, hidle⟩
  -- without a warning every answer is an acceptance
  have hall := answering_conserves.run hc hcall
  rw [accepted_eq_answered (callHistory F r turns t s) hw]
  simpa [answering, hi, hidle, MainPoint.asked, Event.answers, callHistory, asks_history]
    using hall.symm

namespace Goes

variable {r : Request} {turns : List Turn}

theorem isRun {s : Scene σ κ} (hg : Goes F r t s turns) (hi : t.main = .idle) :
    Run F (t, s) (.called r :: callHistory F r turns t s) (run F r.point t s) := by
  rw [hg.run_eq]
  exact run_call hi r turns

theorem coherent {s : Scene σ κ} (hg : Goes F r t s turns) (hc : Coherent t)
    (hi : t.main = .idle) : Coherent (run F r.point t s).1 :=
  hc.run (hg.isRun hi)

theorem asks {s : Scene (Watched σ) κ} (hg : Goes F.watched r t s turns) (hc : Coherent t)
    (hi : t.main = .idle) :
    Asks ((ended (callHistory F.watched r turns t s)).map .update) s
      (run F.watched r.point t s).2 := by
  have hs : Asks [] s { s with schedule := s.schedule.next.2 } := .of_eq rfl rfl rfl
  rw [hg.run_eq]
  exact hs.trans (asks_take (hc.call hi r) turns _ hg.unwarned)

end Goes

/-- The main thread is in an allow, or has just left it, and no update was pending before. -/
structure InAllow (t : Threaded) : Prop where
  joinable : t.joinable
  main : t.main.unmarked || t.main.notifies || t.main.rests
  pending : t.pending = !t.main.unmarked

theorem inAllow_discreet : Discreet InAllow where
  shift hc ht h := by
    have hrequest := hc.notice.pending
    obtain ⟨ha, hm, hp⟩ := ht
    cases h with
    | refuse => simp_all [MainPoint.unmarked, MainPoint.opening, MainPoint.awaits]
    | allowLate => cases ha
    | notify | announce => exact ⟨⟨ha, by simpa using hm, by simpa using hp⟩, rfl⟩
    | finish | finishNone | finishLock | wait | finished | join | joinAgain | joinLock | flag
    | joinNotify | joined | rouseMain => cases hm
    | mark => exact ⟨⟨ha, rfl, rfl⟩, rfl⟩
    | _ => exact ⟨⟨ha, hm, hp⟩, rfl⟩

/-- The main thread is in a finish that has an update to wait for, or has just left it. -/
structure InFinish (t : Threaded) : Prop where
  joinable : t.joinable
  main : t.main.claims || t.main.awaits || t.main.rests
  pending : t.pending = t.main.claims
  done : t.main.rests → t.shared.updateRequested = false

theorem inFinish_discreet : Discreet InFinish where
  shift _ ht h := by
    obtain ⟨ha, hm, hp, hd⟩ := ht
    cases h with
    | finishNone => cases hp
    | notify | announce =>
      exact ⟨⟨ha, by simpa using hm, by simpa using hp, by simpa using hd⟩, rfl⟩
    | clear | leave => exact ⟨⟨ha, hm, hp, fun _ => rfl⟩, rfl⟩
    | finish => exact ⟨⟨ha, rfl, rfl, nofun⟩, rfl⟩
    | finished => exact ⟨⟨ha, rfl, hp, fun _ => rfl⟩, rfl⟩
    | allow | allowLate | allowLock | refuse | accept | fill | mark | allowNotify | join
    | joinAgain | joinLock | flag | joinNotify | joined => cases hm
    | _ => exact ⟨⟨ha, hm, hp, hd⟩, rfl⟩

structure InJoin (t : Threaded) : Prop where
  main : t.main.inJoin || t.main.rests
  joined : t.main.joins || !t.joinable

theorem inJoin_discreet : Discreet InJoin where
  shift _ ht h := by
    obtain ⟨hm, hj⟩ := ht
    cases h with
    | notify | announce => exact ⟨⟨by simpa using hm, by simpa using hj⟩, rfl⟩
    | join | joinAgain => exact ⟨⟨rfl, rfl⟩, rfl⟩
    | allow | allowLate | allowLock | refuse | accept | fill | mark | allowNotify | finish
    | finishNone | finishLock | wait | finished | rouseMain => cases hm
    | _ => exact ⟨⟨hm, hj⟩, rfl⟩

/-- Between an allow and its finish: one update may be under way. -/
structure Primed (t : Threaded) : Prop where
  coherent : Coherent t
  idle : t.main = .idle
  joinable : t.joinable
  pending : t.pending

/-- Between a finish and the next allow: no update is under way, and none is asked for. -/
structure Rested (t : Threaded) : Prop where
  coherent : Coherent t
  idle : t.main = .idle
  joinable : t.joinable
  pending : t.pending = false
  requested : t.shared.updateRequested = false

theorem Rested.spawn : Rested spawn := ⟨.spawn, rfl, rfl, rfl, rfl⟩

theorem Rested.allow (ht : Rested t) (stamp : Stamp) (s : Scene σ κ) :
    ∃ turns, Goes F (.allow stamp) t s turns ∧ Primed (run F (.allowing stamp) t s).1 := by
  obtain ⟨turns, hg, ⟨ha, -, hp⟩, hi⟩ := inAllow_discreet.call (F := F) ht.coherent ht.idle
    (.allow stamp) ⟨ht.joinable, rfl, ht.pending⟩ s
  exact ⟨turns, hg, hg.coherent ht.coherent ht.idle, hi, ha, hp.trans (by rw [hi]; rfl)⟩

theorem Primed.finish (ht : Primed t) (s : Scene σ κ) :
    ∃ turns, Goes F .finish t s turns ∧ Rested (run F .finishing t s).1 := by
  obtain ⟨turns, hg, ⟨ha, -, hp, hd⟩, hi⟩ := inFinish_discreet.call (F := F) ht.coherent ht.idle
    .finish ⟨ht.joinable, rfl, ht.pending, nofun⟩ s
  exact ⟨turns, hg, hg.coherent ht.coherent ht.idle, hi, ha, hp.trans (by rw [hi]; rfl),
    hd (by rw [hi]; rfl)⟩

theorem Rested.clear (ht : Rested t) : Clear t := ht.coherent.clear ht.joinable ht.requested

/-- Between them an allow and the finish after it make one update, for the stamp of the allow,
and time it and write its timings, whatever the main thread does meanwhile. -/
theorem Rested.served (ht : Rested t) {stamp : Stamp} {s s' : Scene σ κ} {turns turns' : List Turn}
    (hg : Goes F (.allow stamp) t s turns) (hp : Primed (run F (.allowing stamp) t s).1)
    (hg' : Goes F .finish (run F (.allowing stamp) t s).1 s' turns')
    (hy : Rested (run F .finishing (run F (.allowing stamp) t s).1 s').1) :
    let h := callHistory F (.allow stamp) turns t s ++
      callHistory F .finish turns' (run F (.allowing stamp) t s).1 s'
    ended h = [stamp] ∧ closed h = [stamp] ∧ written h = due h := by
  have hrun := ((hg.isRun ht.idle).aside s' hp.idle).trans (hg'.isRun hp.idle)
  have hall := hrun.completed ht.coherent ht.clear hy.clear
  have hacc : (callHistory F (.allow stamp) turns t s).flatMap Event.accepts = [stamp] := hg.accepts
  have hacc' : (callHistory F .finish turns' (run F (.allowing stamp) t s).1 s').flatMap
      Event.accepts = [] := hg'.accepts
  simpa [Request.point, Event.ends, Event.accepts, Event.closes, Event.dues, Event.writes, hacc,
    hacc'] using hall

/-- An allow and the finish after it ask for one update, for the stamp of the allow, wherever
between them it ends and whatever the main thread does there. -/
theorem Rested.pair (ht : Rested t) (stamp : Stamp) (s s' : Scene (Watched σ) κ) :
    ∃ before after, before ++ after = [.update stamp] ∧
      Primed (run F.watched (.allowing stamp) t s).1 ∧
      Asks before s (run F.watched (.allowing stamp) t s).2 ∧
      Rested (run F.watched .finishing (run F.watched (.allowing stamp) t s).1 s').1 ∧
      Asks after s' (run F.watched .finishing (run F.watched (.allowing stamp) t s).1 s').2 := by
  obtain ⟨turns, hg, hprimed⟩ := ht.allow (F := F.watched) stamp s
  obtain ⟨turns', hg', hrested⟩ := hprimed.finish (F := F.watched) s'
  refine ⟨_, _, ?_, hprimed, hg.asks ht.coherent ht.idle, hrested,
    hg'.asks hprimed.coherent hprimed.idle⟩
  obtain ⟨he, -⟩ := ht.served hg hprimed hg' hrested
  rw [← List.map_append, ← List.flatMap_append]
  exact congrArg (List.map _) he

theorem Run.updateless {F : Facades σ κ} {x y : Threaded × Scene σ κ} (hr : Run F x h y)
    (hc : Coherent x.1) (hx : Clear x.1) (ha : accepted h = []) :
    begun h = [] ∧ ended h = [] ∧ written h = [] ∧ y.1.worker.underWay = [] := by
  have hstart := starting_conserves.run hc hr
  have hupdate := updating_conserves.run hc hr
  have htime := timing_conserves.run hc hr
  have hwrite := writing_conserves.run hc hr
  rw [hx.starting, List.nil_append] at hstart
  rw [hx.updating, List.nil_append] at hupdate
  rw [hx.timing, List.nil_append] at htime
  rw [hx.writing, List.nil_append] at hwrite
  have hb : begun h = [] := (List.append_eq_nil_iff.mp (hstart.symm.trans ha)).1
  have he := List.append_eq_nil_iff.mp (hupdate.symm.trans hb)
  have hcl : closed h = [] := (List.append_eq_nil_iff.mp (htime.symm.trans he.1)).1
  have hd : due h = [] := due_eq_nil hcl
  have hwr := (List.append_eq_nil_iff.mp (hwrite.symm.trans hd)).1
  exact ⟨hb, he.1, hwr, he.2⟩

/-- A join ends no update and writes nothing when none is under way, and the worker is gone when
it returns. -/
theorem Rested.join (ht : Rested t) (s : Scene σ κ) :
    ∃ turns, Goes F .join t s turns ∧ (run F .joining t s).1.worker = .exited ∧
      ended (callHistory F .join turns t s) = [] ∧ written (callHistory F .join turns t s) = [] := by
  obtain ⟨turns, hg, ⟨-, hj⟩, hi⟩ := inJoin_discreet.call (F := F) ht.coherent ht.idle
    .join ⟨rfl, rfl⟩ s
  have hr := hg.isRun ht.idle
  have hgone : (run F .joining t s).1.worker.gone := by
    simp only [Request.point] at hr hj hi
    have hjoined : (run F .joining t s).1.joinable = false := by
      simpa [hi, MainPoint.joins] using hj
    have hwait := (ht.coherent.run hr).join.joined hjoined
    simpa [hi, MainPoint.approaches, MainPoint.outlasts] using hwait
  obtain ⟨-, he, hw, -⟩ := hr.updateless ht.coherent ht.clear hg.accepts
  exact ⟨turns, hg, WorkerPoint.eq_exited_of_gone hgone, he, hw⟩

/-- While the main thread is in no call and no update is under way, the worker gets to none,
whatever turns are taken. -/
theorem Rested.dormant {F : Facades σ κ} (ht : Rested t) (turns : List Turn) (s : Scene σ κ) :
    begun (history F turns t s) = [] ∧ (take F turns t s).2.world = s.world ∧
      (take F turns t s).1.worker.underWay = [] := by
  have hrun := run_take F turns t s
  have hall := answering_conserves.run ht.coherent hrun
  have hnone : answered (history F turns t s) = [] := by
    have hheld : answering.held t = [] := by simp [answering, ht.idle, MainPoint.asked]
    rw [hheld, List.nil_append] at hall
    exact (List.append_eq_nil_iff.mp (hall.symm.trans (asks_history F turns t s))).1
  have hacc : accepted (history F turns t s) = [] := by
    have hsub := accepted_sublist_answered (history F turns t s)
    rw [hnone] at hsub
    exact List.sublist_nil.mp hsub
  obtain ⟨hb, he, -, hw⟩ := hrun.updateless ht.coherent ht.clear hacc
  refine ⟨hb, ?_, hw⟩
  rw [world_of_take, he]
  rfl

end Threaded

end FrameLoop.Update
