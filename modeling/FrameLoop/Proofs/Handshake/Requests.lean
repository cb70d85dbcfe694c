import FrameLoop.Proofs.Handshake.Updates

/-! What an open request stands for: the update that was accepted last. Its stamp is about to be
left in the slot, lies there, or is with the worker. Only an accepted allow opens a request, and only
the worker withdraws one. -/

namespace FrameLoop.Update

namespace MainPoint

def inAllow : MainPoint → Bool
  | allowing _ | allowLocking _ | allowTesting _ | allowFilling _ | allowMarking
  | allowNotifying => true
  | _ => false

def inFinish : MainPoint → Bool
  | finishing | finishLocking | finishTesting | finishAsleep => true
  | _ => false

theorem inAllow_of_opening {m : MainPoint} (h : m.opening) : m.inAllow := by
  cases m <;> first | rfl | cases h

theorem inFinish_of_awaits {m : MainPoint} (h : m.awaits) : m.inFinish := by
  cases m <;> first | rfl | cases h

theorem exists_of_filling {m : MainPoint} (h : m.filling) : ∃ stamp, m = .allowFilling stamp := by
  cases m <;> first | exact ⟨_, rfl⟩ | cases h

end MainPoint

/-- The stamp that the worker has taken, as long as it still needs it. -/
def WorkerPoint.stamp? : WorkerPoint → Option Stamp
  | taken stamp => stamp
  | updating stamp _ | closing stamp _ => some stamp
  | _ => none

namespace Threaded

variable {σ κ : Type} [StatsSink κ] {F : Facades σ κ} {t t' : Threaded} {s s' s₀ : Scene σ κ}
  {next : Turn} {es h : List Event} {x y : Threaded × Scene σ κ}

/-- Where the stamp of an open request is. -/
inductive Lies (stamp : Stamp) (t : Threaded) : Prop
  /-- The main thread is about to leave it in the slot. It holds the lock, so that nobody can look
  before. -/
  | leaving : t.main = .allowFilling stamp → t.owner = some .main → t.shared.stamp = none →
    t.worker.serving = false → Lies stamp t
  /-- It waits to be taken. -/
  | inSlot : t.main.filling = false → t.shared.stamp = some stamp → t.worker.serving = false →
    Lies stamp t
  /-- The worker has taken it and not yet withdrawn the request. -/
  | taken : t.main.filling = false → t.shared.stamp = none → t.worker.serving →
    (∀ held, t.worker.stamp? = some held → held = stamp) → Lies stamp t

/-- A request is opened where an update is accepted, and nowhere else. -/
theorem Shift.opens_iff (h : Shift t next es t') :
    (t.shared.updateRequested = false ∧ t'.shared.updateRequested = true) ↔
      ∃ stamp, t.main = .allowTesting stamp ∧ es = [.accepted stamp] := by
  cases h <;> simp

theorem Shift.withdraws (h : Shift t next es t') (hu : t.shared.updateRequested = true)
    (hu' : t'.shared.updateRequested = false) :
    next = .run .worker ∧ (t.worker = .clearing ∨ t.worker = .leaving) := by
  cases h with
  | clear => exact ⟨rfl, .inl rfl⟩
  | leave => exact ⟨rfl, .inr rfl⟩
  | accept => cases hu
  | _ => cases hu.symm.trans hu'

/-- A request is open only after one was accepted. -/
theorem Run.accepted_ne_nil (hr : Run F x h y) (hx : x.1.shared.updateRequested = false)
    (hu : y.1.shared.updateRequested = true) : accepted h ≠ [] := by
  induction hr with
  | refl => cases hx.symm.trans hu
  | @turn h t s y next _ ht ih =>
    rw [accepted, List.flatMap_append]
    cases hopen : t.shared.updateRequested with
    | true => exact List.append_ne_nil_of_left_ne_nil (ih hopen) _
    | false =>
      obtain ⟨stamp, -, he⟩ := (shift_of_turn ht).opens_iff.mp ⟨hopen, hu⟩
      rw [he]
      exact List.append_ne_nil_of_right_ne_nil _ (List.cons_ne_nil _ _)
  | call r _ _ ih =>
    rw [accepted, List.flatMap_append]
    exact List.append_ne_nil_of_left_ne_nil (ih hu) _
  | aside _ _ _ ih => exact ih hu

/-- The accepted updates by how far they have come. -/
theorem Run.accepted_eq (hr : Run F (spawn, s₀) h (t, s)) :
    accepted h = closed h ++ t.worker.timed ++ t.worker.underWay ++
      (t.worker.inHand ++ t.main.opened ++ t.shared.stamp.toList) := by
  have hstart : accepted h = begun h ++
      (t.worker.inHand ++ t.main.opened ++ t.shared.stamp.toList) := by
    have hrun := starting_conserves.run .spawn hr
    rwa [Clear.spawn.starting, List.nil_append] at hrun
  have hupdate : begun h = ended h ++ t.worker.underWay := by
    have hrun := updating_conserves.run .spawn hr
    rwa [Clear.spawn.updating, List.nil_append] at hrun
  have htime : ended h = closed h ++ t.worker.timed := by
    have hrun := timing_conserves.run .spawn hr
    rwa [Clear.spawn.timing, List.nil_append] at hrun
  rw [hstart, hupdate, htime]

/-- A stamp in the slot is that of the update accepted last. -/
theorem Run.last_of_slot (hr : Run F (spawn, s₀) h (t, s)) {stamp : Stamp}
    (hs : t.shared.stamp = some stamp) : (accepted h).getLast? = some stamp := by
  rw [hr.accepted_eq, hs, Option.toList_some, ← List.append_assoc, List.getLast?_concat]

theorem Run.lies (hr : Run F (spawn, s₀) h (t, s)) (hu : t.shared.updateRequested = true) :
    ∃ stamp, (accepted h).getLast? = some stamp ∧ Lies stamp t := by
  have hc := Coherent.spawn.run hr
  have hall := hr.accepted_eq
  cases hf : t.main.filling with
  | true =>
    obtain ⟨-, hslot, hserving⟩ := hc.request.filling hf
    obtain ⟨stamp, hm⟩ := MainPoint.exists_of_filling hf
    have ho := hc.lock.main.mpr (MainPoint.locked_of_filling hf)
    refine ⟨stamp, ?_, .leaving hm ho hslot hserving⟩
    rw [hall, hm, hslot, Option.toList_none, List.append_nil, MainPoint.opened, ← List.append_assoc,
      List.getLast?_concat]
  | false =>
    cases hserving : t.worker.serving with
    | false =>
      have hslot := hc.request.requested hu
      rw [hf, hserving, Bool.false_or, Bool.false_or] at hslot
      obtain ⟨stamp, hslot⟩ := Option.isSome_iff_exists.mp hslot
      exact ⟨stamp, hr.last_of_slot hslot, .inSlot hf hslot hserving⟩
    | true =>
      have hslot := (hc.request.serving hserving).2
      obtain ⟨stamp, hlast⟩ := Option.ne_none_iff_exists'.mp
        (mt List.getLast?_eq_none_iff.mp (hr.accepted_ne_nil rfl hu))
      refine ⟨stamp, hlast, .taken hf hslot hserving fun held hheld => ?_⟩
      -- of the update that the worker serves nothing is left but what the worker has
      rw [hall, MainPoint.opened_eq_nil hf, hslot] at hlast
      cases hw : t.worker <;> simp_all [WorkerPoint.stamp?, WorkerPoint.timed, WorkerPoint.underWay,
        WorkerPoint.inHand]

/-- Whenever a request is open it stands for the update that was accepted last: the main thread is
about to leave its stamp under the lock, or the stamp is in the slot and was not taken, or the worker
has taken it and not yet withdrawn the request. So the worker never takes from an empty slot, and it
never finds a request without a stamp. A request is opened by an accepted allow and withdrawn by the
worker, and as long as it is open the main thread has an update pending or is in an allow or a
finish. -/
theorem requests_have_stamps (hr : Run F (spawn, s₀) h (t, s)) :
    (t.shared.updateRequested = true → ∃ stamp, (accepted h).getLast? = some stamp ∧ Lies stamp t) ∧
    (t.worker = .taking → t.shared.stamp.isSome ∧ t.shared.stamp = (accepted h).getLast?) ∧
    t.worker ≠ .taken none ∧
    (∀ next y, turn F t s next = some y →
      (t.shared.updateRequested = false ∧ y.1.shared.updateRequested = true ↔
        ∃ stamp, t.main = .allowTesting stamp ∧ events t s next = [.accepted stamp]) ∧
      (t.shared.updateRequested = true → y.1.shared.updateRequested = false →
        next = .run .worker ∧ (t.worker = .clearing ∨ t.worker = .leaving))) ∧
    (t.shared.updateRequested = true →
      t.pending = true ∨ t.main.inAllow = true ∨ t.main.inFinish = true) := by
  have hc := Coherent.spawn.run hr
  refine ⟨hr.lies, fun hw => ?_, fun hw => ?_, fun next y hy => ?_, fun hu => ?_⟩
  · obtain ⟨-, hslot⟩ := hc.request.takes (by simp [hw, WorkerPoint.takes])
    obtain ⟨stamp, hstamp⟩ := Option.isSome_iff_exists.mp hslot
    exact ⟨hslot, hstamp.trans (hr.last_of_slot hstamp).symm⟩
  · have hmiss := hc.request.misses
    simp [hw, WorkerPoint.misses] at hmiss
  · have hs := shift_of_turn hy
    exact ⟨hs.opens_iff, hs.withdraws⟩
  · have hn := hc.notice.pending hu
    rw [Bool.or_eq_true, Bool.or_eq_true] at hn
    rcases hn with (hp | ho) | ha
    · exact .inl hp
    · exact .inr (.inl (MainPoint.inAllow_of_opening ho))
    · exact .inr (.inr (MainPoint.inFinish_of_awaits ha))

/-- An allow, another one that is refused, and a worker that is about to take the stamp. -/
def refusedBeforeTaken : List Event × Threaded × Scene Headless.World Rehearsal.Journal :=
  enact Headless.facades
    [(.allow ⟨7, 0⟩, List.replicate 6 (.run .main)),
      (.allow ⟨8, 0⟩, List.replicate 3 (.run .main) ++ List.replicate 3 (.run .worker))]
    (spawn, collectingScene)

theorem requests_have_stamps_before_taken :
    refusedBeforeTaken.1.contains (.refused ⟨8, 0⟩) ∧ refusedBeforeTaken.2.1.worker = .taking ∧
      refusedBeforeTaken.2.1.shared.updateRequested = true ∧ Lies ⟨7, 0⟩ refusedBeforeTaken.2.1 ∧
      refusedBeforeTaken.2.1.shared.stamp = some ⟨7, 0⟩ ∧ refusedBeforeTaken.2.1.pending = true := by
  have hr : Run Headless.facades (spawn, collectingScene) refusedBeforeTaken.1
      refusedBeforeTaken.2 := run_enact ..
  obtain ⟨hlies, htakes, -, -, hpending⟩ := requests_have_stamps hr
  have hlast : (accepted refusedBeforeTaken.1).getLast? = some ⟨7, 0⟩ := rfl
  obtain ⟨stamp, hstamp, hlies⟩ := hlies rfl
  obtain rfl : stamp = ⟨7, 0⟩ := Option.some.inj (hstamp.symm.trans hlast)
  refine ⟨by decide, rfl, rfl, hlies, (htakes rfl).2.trans hlast, ?_⟩
  rcases hpending rfl with hp | ha | hf
  · exact hp
  · cases ha
  · cases hf

end Threaded

end FrameLoop.Update
