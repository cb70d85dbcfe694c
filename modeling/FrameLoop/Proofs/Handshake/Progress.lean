import FrameLoop.Proofs.Handshake.Updates

/-! The handshake never gets stuck: while the main thread is in a call one of the threads can
go on, and whoever sleeps although there is something to do is about to be notified. -/

namespace FrameLoop.Update

namespace WorkerPoint

theorem owesNotice_eq_false_of_sleeps {w : WorkerPoint} (h : w.sleeps) : w.owesNotice = false := by
  cases w <;> first | rfl | cases h

theorem owesNotice_eq_false_of_gone {w : WorkerPoint} (h : w.gone) : w.owesNotice = false := by
  cases w <;> first | rfl | cases h

theorem departed_of_gone {w : WorkerPoint} (h : w.gone) : w.departed := by
  cases w <;> first | rfl | cases h

end WorkerPoint

namespace Threaded

variable {σ κ : Type} [StatsSink κ] {F : Facades σ κ} {t : Threaded} {s s₀ : Scene σ κ}
  {h : List Event}

theorem LockKept.owner_eq_none (hl : LockKept t) (hw : t.worker.locked = false)
    (hm : t.main.locked = false) : t.owner = none := by
  cases ho : t.owner with
  | none => rfl
  | some thread =>
    cases thread with
    | main => simp [hl.main.mp ho] at hm
    | worker => simp [hl.worker.mp ho] at hw

/-- Only its sleep, its exit and the main thread's hold on the lock keep the worker from its
next step. -/
theorem workerStep_isSome (hl : LockKept t) (hm : t.main.locked = false)
    (ha : t.worker.sleeps = false) (hx : t.worker.gone = false) :
    (workerStep F t s).isSome := by
  have hfree := hl.owner_eq_none
  cases hw : t.worker with
  | asleep => simp [hw, WorkerPoint.sleeps] at ha
  | exited => simp [hw, WorkerPoint.gone] at hx
  | locking | relocking =>
    have ho := hfree (by simp [hw, WorkerPoint.locked]) hm
    simp [workerStep, hw, ho]
  | testing =>
    simp only [workerStep, hw]
    split
    · rfl
    · split <;> rfl
  | taken st => cases st <;> simp only [workerStep, hw] <;> rfl
  | writing _ l => cases l <;> simp [workerStep, hw]
  | _ => simp only [workerStep, hw]; rfl

theorem workerStep_isSome_of_lock (hc : Coherent t) (ho : t.owner ≠ none)
    (hm : t.main.locked = false) : (workerStep F t s).isSome := by
  have hw : t.worker.locked := by
    cases hl : t.worker.locked with
    | true => rfl
    | false => exact absurd (hc.lock.owner_eq_none hl hm) ho
  apply workerStep_isSome hc.lock hm
  · cases hs : t.worker <;> simp_all [WorkerPoint.locked, WorkerPoint.sleeps]
  · cases hs : t.worker <;> simp_all [WorkerPoint.locked, WorkerPoint.gone]

/-- While the main thread waits, for the lock, for the end of an update or for the end of the
worker, the worker can go on. -/
theorem workerStep_isSome_of_wait (hc : Coherent t) (hi : t.main ≠ .idle)
    (hn : mainStep t s = none) : (workerStep F t s).isSome := by
  have hsleep := hc.notice.worker
  cases hm : t.main with
  | idle => exact absurd hm hi
  | allowLocking | finishLocking | joinLocking =>
    have ho : t.owner ≠ none := by simpa [mainStep, hm] using hn
    exact workerStep_isSome_of_lock hc ho (by simp [hm, MainPoint.locked])
  | finishAsleep =>
    have hwait := hc.notice.main (by simp [hm, MainPoint.sleeps])
    apply workerStep_isSome hc.lock (by simp [hm, MainPoint.locked])
    · apply Bool.eq_false_iff.mpr
      intro hs
      -- both asleep with the request open: the main thread would still owe the worker a notice
      have hw := WorkerPoint.owesNotice_eq_false_of_sleeps hs
      have hu : t.shared.updateRequested := by simpa [hw] using hwait
      simp [hm, MainPoint.owesNotice, hu, hs] at hsleep
    · apply Bool.eq_false_iff.mpr
      intro hg
      have hu := hc.request.departed (WorkerPoint.departed_of_gone hg)
      have hw := WorkerPoint.owesNotice_eq_false_of_gone hg
      simp [hu, hw] at hwait
  | joinWaiting =>
    have hx : t.worker ≠ .exited := by simpa [mainStep, hm] using hn
    have ha := hc.join.joins (by simp [hm, MainPoint.outlasts])
    have hj : t.shared.joinRequested := by simp [hc.join.asked, ha, hm, MainPoint.approaches]
    apply workerStep_isSome hc.lock (by simp [hm, MainPoint.locked])
    · apply Bool.eq_false_iff.mpr
      intro hs
      simp [hm, MainPoint.owesNotice, hj, hs] at hsleep
    · cases hw : t.worker <;> simp_all [WorkerPoint.gone]
  | allowing | allowTesting | finishing | finishTesting | joining =>
    simp only [mainStep, hm] at hn
    split at hn <;> cases hn
  | _ => simp [mainStep, hm] at hn

theorem turn_isSome (hc : Coherent t) (hi : t.main ≠ .idle) :
    ∃ thread, (turn F t s (.run thread)).isSome := by
  cases hn : mainStep t s with
  | some y => exact ⟨.main, by simp [turn, hn]⟩
  | none => exact ⟨.worker, workerStep_isSome_of_wait hc hi hn⟩

/-- A main thread that set a flag tells the worker in the rest of its call. -/
theorem worker_roused (hm : t.main.owesNotice) (hw : t.worker.sleeps) :
    ∃ n, (take F (List.replicate n (.run .main)) t s).1.worker.sleeps = false := by
  obtain ⟨⟨u, j, sl⟩, o, w, m, p, a⟩ := t
  cases w <;> try cases hw
  cases m <;> try cases hm
  · exact ⟨3, rfl⟩
  · exact ⟨2, rfl⟩
  · exact ⟨1, rfl⟩
  · exact ⟨1, rfl⟩

theorem main_roused (hw : t.worker.owesNotice) (hm : t.main.sleeps) :
    ∃ n, (take F (List.replicate n (.run .worker)) t s).1.main.sleeps = false := by
  obtain ⟨⟨u, j, sl⟩, o, w, m, p, a⟩ := t
  cases m <;> try cases hm
  cases w <;> try cases hw
  · exact ⟨1, rfl⟩
  · exact ⟨1, rfl⟩

/-- While there are calls left to complete, a thread can go on without being woken for nothing,
or the main thread can begin the next call. A worker that sleeps with a flag set is woken by
the call that the main thread is in; a finish that sleeps with the request withdrawn or the worker
gone is woken by the worker. -/
theorem never_stuck (hr : Run F (spawn, s₀) h (t, s)) :
    (∀ all, calls h <+: all → t.main ≠ .idle ∨ calls h ≠ all →
      (∃ thread, (turn F t s (.run thread)).isSome) ∨
        t.main = .idle ∧ ∃ r rest, all = calls h ++ r :: rest) ∧
    (t.worker = .asleep → t.shared.updateRequested ∨ t.shared.joinRequested →
      ∃ n, (take F (List.replicate n (.run .main)) t s).1.worker ≠ .asleep) ∧
    (t.main = .finishAsleep → t.shared.updateRequested = false ∨ t.worker = .exited →
      ∃ n, (take F (List.replicate n (.run .worker)) t s).1.main ≠ .finishAsleep) := by
  have hc := Coherent.spawn.run hr
  refine ⟨fun all ⟨rest, hall⟩ hleft => ?_, fun hw hflag => ?_, fun hm hdone => ?_⟩
  · by_cases hi : t.main = .idle
    · cases rest with
      | nil => simp [hi, ← hall] at hleft
      | cons r rest => exact .inr ⟨hi, r, rest, hall.symm⟩
    · exact .inl (turn_isSome hc hi)
  · have hs : t.worker.sleeps := by simp [hw, WorkerPoint.sleeps]
    obtain ⟨n, hn⟩ := worker_roused (F := F) (s := s) (hc.notice.worker hs (by simpa using hflag)) hs
    exact ⟨n, fun ha => by simp [ha, WorkerPoint.sleeps] at hn⟩
  · have hs : t.main.sleeps := by simp [hm, MainPoint.sleeps]
    have hu : t.shared.updateRequested = false := by
      rcases hdone with hu | hx
      · exact hu
      · exact hc.request.departed (by simp [hx, WorkerPoint.departed])
    obtain ⟨n, hn⟩ := main_roused (F := F) (s := s) (by simpa [hu] using hc.notice.main hs) hs
    exact ⟨n, fun ha => by simp [ha, MainPoint.sleeps] at hn⟩

/-- A finish that waits for an update while the worker has not yet woken up to it. -/
def waitingFinish : List Event × Threaded × Scene Headless.World Rehearsal.Journal :=
  enact Headless.facades
    [(.allow ⟨7, 0⟩, List.replicate 3 (.run .worker) ++ List.replicate 6 (.run .main)),
      (.finish, List.replicate 3 (.run .main))]
    (spawn, collectingScene)

theorem never_stuck_waiting_finish :
    waitingFinish.2.1.main = .finishAsleep ∧ waitingFinish.2.1.worker = .locking ∧
      ∃ thread, (turn Headless.facades waitingFinish.2.1 waitingFinish.2.2 (.run thread)).isSome := by
  have hr : Run Headless.facades (spawn, collectingScene) waitingFinish.1 waitingFinish.2 := run_enact ..
  obtain ⟨hgo, -⟩ := never_stuck hr
  refine ⟨rfl, rfl, ?_⟩
  rcases hgo _ (List.prefix_refl _) (.inl (by decide)) with hthread | ⟨hi, -⟩
  · exact hthread
  · exact absurd hi (by decide)

end Threaded

end FrameLoop.Update
