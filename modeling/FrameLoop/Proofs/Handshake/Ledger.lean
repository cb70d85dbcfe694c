import FrameLoop.Proofs.Handshake.Coherence

/-! Runs of the two threads under any calls and any turns, with everything that happens in
them. What is let in at one place of the handshake comes out at the next in the same order:
calls become answers, accepted updates begin, begun updates end, and their timings are written. -/

namespace FrameLoop.Update

namespace Threaded

variable {σ κ α : Type} [StatsSink κ] {F : Facades σ κ}

/-- Runs from one state to another, with what happens in them. Between its calls the main
thread may do anything that leaves the handshake alone. -/
inductive Run (F : Facades σ κ) : Threaded × Scene σ κ → List Event → Threaded × Scene σ κ → Prop
  | refl (x : Threaded × Scene σ κ) : Run F x [] x
  | turn {x : Threaded × Scene σ κ} {h : List Event} {t : Threaded} {s : Scene σ κ}
    {y : Threaded × Scene σ κ} (next : Turn) :
    Run F x h (t, s) → Threaded.turn F t s next = some y → Run F x (h ++ events t s next) y
  | call {x : Threaded × Scene σ κ} {h : List Event} {t : Threaded} {s : Scene σ κ} (r : Request) :
    Run F x h (t, s) → t.main = .idle → Run F x (h ++ [.called r]) ({ t with main := r.point }, s)
  | aside {x : Threaded × Scene σ κ} {h : List Event} {t : Threaded} {s : Scene σ κ}
    (s' : Scene σ κ) : Run F x h (t, s) → t.main = .idle → Run F x h (t, s')

/-- What happens in the turns that are taken. -/
def history (F : Facades σ κ) : List Turn → Threaded → Scene σ κ → List Event
  | [], _, _ => []
  | next :: rest, t, s =>
    match turn F t s next with
    | some (t', s') => events t s next ++ history F rest t' s'
    | none => history F rest t s

variable {x y z : Threaded × Scene σ κ} {h h' : List Event}

theorem Run.trans (hxy : Run F x h y) (hyz : Run F y h' z) : Run F x (h ++ h') z := by
  induction hyz with
  | refl => simpa using hxy
  | turn next _ ht ih => simpa only [List.append_assoc] using ih.turn next ht
  | call r _ hi ih => simpa only [List.append_assoc] using ih.call r hi
  | aside s' _ hi ih => exact ih.aside s' hi

theorem run_take (F : Facades σ κ) (turns : List Turn) (t : Threaded) (s : Scene σ κ) :
    Run F (t, s) (history F turns t s) (take F turns t s) := by
  induction turns generalizing t s with
  | nil => exact .refl _
  | cons next rest ih =>
    simp only [history, take]
    cases hn : turn F t s next with
    | none => exact ih t s
    | some y => simpa using (Run.turn next (.refl _) hn).trans (ih y.1 y.2)

/-- What happens in the turns that are taken from the beginning of a call on. -/
def callHistory (F : Facades σ κ) (r : Request) (turns : List Turn) (t : Threaded)
    (s : Scene σ κ) : List Event :=
  history F turns { t with main := r.point } { s with schedule := s.schedule.next.2 }

theorem run_call {t : Threaded} {s : Scene σ κ} (hi : t.main = .idle) (r : Request)
    (turns : List Turn) :
    Run F (t, s) (.called r :: callHistory F r turns t s)
      (take F turns { t with main := r.point } { s with schedule := s.schedule.next.2 }) := by
  have hcall := ((Run.refl (t, s)).aside { s with schedule := s.schedule.next.2 } hi).call
    (F := F) r hi
  exact hcall.trans (run_take F turns _ _)

/-- Calls one after the other, each with the turns that are taken from its beginning on: what
happens in them and where they lead. They end early at a call that does not come to its end. -/
def enact (F : Facades σ κ) :
    List (Request × List Turn) → Threaded × Scene σ κ → List Event × Threaded × Scene σ κ
  | [], x => ([], x)
  | (r, turns) :: rest, (t, s) =>
    if t.main = .idle then
      let y := enact F rest (take F turns { t with main := r.point } s)
      (.called r :: history F turns { t with main := r.point } s ++ y.1, y.2)
    else ([], t, s)

theorem run_enact (F : Facades σ κ) (calls : List (Request × List Turn))
    (x : Threaded × Scene σ κ) : Run F x (enact F calls x).1 (enact F calls x).2 := by
  induction calls generalizing x with
  | nil => exact .refl _
  | cons c rest ih =>
    obtain ⟨t, s⟩ := x
    by_cases hi : t.main = .idle
    · simp only [enact, hi, if_true]
      have hc := (Run.refl (F := F) (t, s)).call c.1 hi
      exact (hc.trans (run_take F c.2 _ s)).trans (ih _)
    · simpa only [enact, hi, if_false] using .refl _

theorem Coherent.run (hc : Coherent x.1) (hr : Run F x h y) : Coherent y.1 := by
  induction hr with
  | refl => exact hc
  | turn next _ ht ih => exact ih.shift (shift_of_turn ht)
  | call r _ hi ih => exact ih.call hi r
  | aside _ _ _ ih => exact ih

/-- A place of the handshake that holds back what was let into it: `into` and `out` tell
what an event lets in and out. -/
structure Stage (α : Type) where
  held : Threaded → List α
  into : Event → List α
  out : Event → List α

/-- Nothing gets lost or out of order in a stage. -/
structure Stage.Conserves (g : Stage α) : Prop where
  shift : ∀ {t t' : Threaded} {next : Turn} {es : List Event}, Coherent t → Shift t next es t' →
    g.held t ++ es.flatMap g.into = es.flatMap g.out ++ g.held t'
  call : ∀ {t : Threaded} (r : Request), t.main = .idle →
    g.held t ++ g.into (.called r) = g.out (.called r) ++ g.held { t with main := r.point }

theorem Stage.Conserves.run {g : Stage α} (hg : g.Conserves) (hc : Coherent x.1)
    (hr : Run F x h y) : g.held x.1 ++ h.flatMap g.into = h.flatMap g.out ++ g.held y.1 := by
  induction hr with
  | refl => simp
  | turn next hr ht ih =>
    have hs := hg.shift (hc.run hr) (shift_of_turn ht)
    rw [List.flatMap_append, ← List.append_assoc, ih, List.append_assoc, hs]
    simp
  | call r _ hi ih =>
    have hs := hg.call r hi
    rw [List.flatMap_append, ← List.append_assoc, ih]
    simp [hs]
  | aside _ _ _ ih => exact ih

end Threaded

/-- The stamp of an allow that is not yet answered. -/
def MainPoint.asked : MainPoint → List Stamp
  | allowing st | allowLocking st | allowTesting st => [st]
  | _ => []

/-- The stamp of an accepted update that is not yet in the slot. -/
def MainPoint.opened : MainPoint → List Stamp
  | allowFilling st => [st]
  | _ => []

theorem MainPoint.opened_eq_nil {m : MainPoint} (h : m.filling = false) : m.opened = [] := by
  cases m <;> first | rfl | cases h

namespace WorkerPoint

/-- The stamp that was taken for an update that is not yet begun. -/
def inHand : WorkerPoint → List Stamp
  | taken st => st.toList
  | _ => []

/-- The stamp of an update that is under way. -/
def underWay : WorkerPoint → List Stamp
  | updating st _ => [st]
  | _ => []

/-- The stamp of an update that is over but still timed. -/
def timed : WorkerPoint → List Stamp
  | closing st _ => [st]
  | _ => []

def unwritten : WorkerPoint → List (Nat × String)
  | writing frame l => l.map fun a => (frame, a.1)
  | _ => []

variable (w : WorkerPoint)

@[simp] theorem inHand_woken : w.woken.inHand = w.inHand := by cases w <;> rfl

@[simp] theorem underWay_woken : w.woken.underWay = w.underWay := by cases w <;> rfl

@[simp] theorem timed_woken : w.woken.timed = w.timed := by cases w <;> rfl

@[simp] theorem unwritten_woken : w.woken.unwritten = w.unwritten := by cases w <;> rfl

end WorkerPoint

@[simp] theorem MainPoint.asked_woken (m : MainPoint) : m.woken.asked = m.asked := by
  cases m <;> rfl

@[simp] theorem MainPoint.opened_woken (m : MainPoint) : m.woken.opened = m.opened := by
  cases m <;> rfl

namespace Threaded

namespace Event

def calls : Event → List Request
  | called r => [r]
  | _ => []

def asks : Event → List Stamp
  | called (.allow st) => [st]
  | _ => []

def answers : Event → List Stamp
  | accepted st | refused st | belated st => [st]
  | _ => []

def accepts : Event → List Stamp
  | accepted st => [st]
  | _ => []

def begins : Event → List Stamp
  | began st => [st]
  | _ => []

def ends : Event → List Stamp
  | ended st => [st]
  | _ => []

def closes : Event → List Stamp
  | closed st _ => [st]
  | _ => []

/-- The attributes that the end of a timing calls for. -/
def dues : Event → List (Nat × String)
  | closed st true => luaKeys.map fun name => (st.number, name)
  | _ => []

def writes : Event → List (Nat × String)
  | wrote frame name _ => [(frame, name)]
  | _ => []

end Event

/-- From the call of an allow to its answer. -/
def answering : Stage Stamp := ⟨fun t => t.main.asked, Event.asks, Event.answers⟩

/-- From the acceptance of an update to its beginning. -/
def starting : Stage Stamp :=
  ⟨fun t => t.worker.inHand ++ t.main.opened ++ t.shared.stamp.toList, Event.accepts, Event.begins⟩

/-- From the beginning of an update to its end. -/
def updating : Stage Stamp := ⟨fun t => t.worker.underWay, Event.begins, Event.ends⟩

/-- From the end of an update to the end of its timing. -/
def timing : Stage Stamp := ⟨fun t => t.worker.timed, Event.ends, Event.closes⟩

/-- From the end of a timing to the attributes. -/
def writing : Stage (Nat × String) := ⟨fun t => t.worker.unwritten, Event.dues, Event.writes⟩

theorem answering_conserves : answering.Conserves where
  shift hc h := by
    cases h with
    | notify | announce => simp [answering]
    | allowLate | refuse | accept => rfl
    | _ => exact List.append_nil _
  call r hi := by
    cases r <;> simp_all [answering, Request.point, MainPoint.asked, Event.asks, Event.answers]

theorem starting_conserves : starting.Conserves where
  shift hc h := by
    cases h with
    | take =>
      have ho := MainPoint.opened_eq_nil (hc.lock.not_filling rfl)
      simp [starting, WorkerPoint.inHand, ho]
    | enter => simp [starting, WorkerPoint.inHand, Event.accepts, Event.begins]
    | accept =>
      obtain rfl := hc.request.stamp_eq_none hc.join (hc.join.allows rfl) rfl
      simp [starting, MainPoint.opened, Event.accepts, Event.begins]
    | fill =>
      obtain ⟨-, rfl, -⟩ := hc.request.filling rfl
      simp [starting, MainPoint.opened]
    | notify | announce => simp [starting, WorkerPoint.inHand]
    | allowNotify | joinNotify => simp [starting, MainPoint.opened]
    | _ => exact List.append_nil _
  call r hi := by
    cases r <;> simp_all [starting, Request.point, MainPoint.opened, Event.accepts, Event.begins]

theorem updating_conserves : updating.Conserves where
  shift _ h := by
    cases h with
    | allowNotify | joinNotify => simp [updating]
    | enter | update => rfl
    | _ => exact List.append_nil _
  call _ _ := List.append_nil _

theorem timing_conserves : timing.Conserves where
  shift _ h := by
    cases h with
    | allowNotify | joinNotify => simp [timing]
    | update | close => rfl
    | _ => exact List.append_nil _
  call _ _ := List.append_nil _

theorem writing_conserves : writing.Conserves where
  shift _ h := by
    cases h with
    | allowNotify | joinNotify => simp [writing]
    | close c l hl =>
      cases c
      · simp_all [writing, WorkerPoint.unwritten, Event.dues, Event.writes]
      · simp only [if_true] at hl
        simp [writing, WorkerPoint.unwritten, Event.dues, Event.writes, ← hl]
    | _ => exact List.append_nil _
  call _ _ := List.append_nil _

abbrev calls (h : List Event) : List Request := h.flatMap Event.calls

/-- The stamps that allows were called with. -/
abbrev asked (h : List Event) : List Stamp := h.flatMap Event.asks

/-- The stamps of the allows that were answered. -/
abbrev answered (h : List Event) : List Stamp := h.flatMap Event.answers

abbrev accepted (h : List Event) : List Stamp := h.flatMap Event.accepts

abbrev begun (h : List Event) : List Stamp := h.flatMap Event.begins

abbrev ended (h : List Event) : List Stamp := h.flatMap Event.ends

abbrev closed (h : List Event) : List Stamp := h.flatMap Event.closes

abbrev due (h : List Event) : List (Nat × String) := h.flatMap Event.dues

abbrev written (h : List Event) : List (Nat × String) := h.flatMap Event.writes

section

variable {σ κ : Type} [StatsSink κ] {F : Facades σ κ} {x y : Threaded × Scene σ κ}
  {h : List Event}

/-- Only the end of a timing calls for attributes. -/
theorem due_eq_nil (hc : closed h = []) : due h = [] := by
  rw [due, List.flatMap_eq_nil_iff]
  intro e he
  have hclose := List.flatMap_eq_nil_iff.mp hc e he
  cases e <;> first | rfl | cases hclose

/-- No accepted update is left over, and nothing is left to write. -/
structure Clear (t : Threaded) : Prop where
  starting : starting.held t = []
  updating : updating.held t = []
  timing : timing.held t = []
  writing : writing.held t = []

theorem Clear.spawn : Clear spawn := ⟨rfl, rfl, rfl, rfl⟩

theorem Coherent.clear {t : Threaded} (hc : Coherent t) (ha : t.joinable)
    (hu : t.shared.updateRequested = false) : Clear t := by
  have hs : t.worker.serving = false := by
    apply Bool.eq_false_iff.mpr
    intro h
    simpa [hu] using (hc.request.serving h).1
  have hf : t.main.filling = false := by
    apply Bool.eq_false_iff.mpr
    intro h
    simpa [hu] using (hc.request.filling h).1
  have hn := hc.request.stamp_eq_none hc.join ha hu
  have ho := MainPoint.opened_eq_nil hf
  cases hw : t.worker <;> simp only [hw, WorkerPoint.serving, Bool.true_eq_false] at hs <;>
    exact ⟨by simp [Threaded.starting, WorkerPoint.inHand, hw, hn, ho],
      by simp [Threaded.updating, WorkerPoint.underWay, hw],
      by simp [Threaded.timing, WorkerPoint.timed, hw],
      by simp [Threaded.writing, WorkerPoint.unwritten, hw]⟩

/-- From one clear state to another all that was accepted is over and all that was called for
is written. -/
theorem Run.completed (hr : Run F x h y) (hc : Coherent x.1) (hx : Clear x.1) (hy : Clear y.1) :
    ended h = accepted h ∧ closed h = accepted h ∧ written h = due h := by
  have h1 := starting_conserves.run hc hr
  have h2 := updating_conserves.run hc hr
  have h3 := timing_conserves.run hc hr
  have h4 := writing_conserves.run hc hr
  rw [hx.starting, hy.starting, List.nil_append, List.append_nil] at h1
  rw [hx.updating, hy.updating, List.nil_append, List.append_nil] at h2
  rw [hx.timing, hy.timing, List.nil_append, List.append_nil] at h3
  rw [hx.writing, hy.writing, List.nil_append, List.append_nil] at h4
  exact ⟨(h1.trans h2).symm, ((h1.trans h2).trans h3).symm, h4.symm⟩

end

end Threaded

end FrameLoop.Update
