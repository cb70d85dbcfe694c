import FrameLoop.Proofs.Handshake.Progress

/-! A call comes to its end. Every turn that is not a wake-up for nothing uses up some of a
rank, so the two threads cannot go on for ever, and they never get stuck before the end. -/

namespace FrameLoop.Update

/-- Steps that a worker at its loop's head may still take, with what each of its notices costs. -/
def loopRank (requested joining : Bool) : Nat :=
  if joining then 8 else if requested then 18 else 2

theorem two_le_loopRank (u j : Bool) : 2 ≤ loopRank u j := by
  cases u <;> cases j <;> decide

/-- What the worker may still use up. -/
def WorkerPoint.rank (requested joining : Bool) : WorkerPoint → Nat
  | starting => loopRank requested joining + 1
  | locking => loopRank requested joining
  | testing => loopRank requested joining - 1
  | asleep => if requested || joining then loopRank requested joining else 0
  | taking => loopRank false joining + 14
  | taken _ => loopRank false joining + 13
  | updating _ _ => loopRank false joining + 12
  | closing _ _ => loopRank false joining + 11
  | writing _ l => loopRank false joining + 7 + l.length
  | relocking => loopRank false joining + 6
  | clearing => loopRank false joining + 5
  -- The main thread may be woken by a notice that is not meant for it, and go back to sleep.
  | notifying => loopRank requested joining + 4
  | leaving => 6
  | announcing => 5
  | stopping => 1
  | exited => 0

/-- What the main thread may still use up, with all that it sets the worker to. -/
def MainPoint.rank (requested : Bool) : MainPoint → Nat
  | idle => 0
  | allowing _ => 26
  | allowLocking _ => 25
  | allowTesting _ => 24
  | allowFilling _ => 5
  | allowMarking => 4
  | allowNotifying => 3
  | finishing => 6
  | finishLocking => if requested then 5 else 2
  | finishTesting => if requested then 4 else 1
  | finishAsleep => 3
  | joining => 15
  | joinLocking => 14
  | joinFlagging => 13
  | joinNotifying => 4
  | joinWaiting => 1

theorem MainPoint.eq_idle_of_rank {m : MainPoint} {u : Bool} (h : m.rank u = 0) : m = .idle := by
  cases m <;> simp [MainPoint.rank] at h ⊢ <;> split at h <;> cases h

theorem MainPoint.rank_le (m : MainPoint) (u : Bool) : m.rank u ≤ 26 := by
  cases m <;> cases u <;> simp [MainPoint.rank]

theorem WorkerPoint.rank_le (w : WorkerPoint) (u j : Bool) :
    w.rank u j ≤ 22 + w.backlog := by
  cases w <;> cases u <;> cases j <;> simp +arith [WorkerPoint.rank, WorkerPoint.backlog, loopRank]

theorem MainPoint.rank_false_le (m : MainPoint) (u : Bool) : m.rank false ≤ m.rank u := by
  cases m <;> cases u <;> simp [MainPoint.rank]

theorem MainPoint.rank_woken (m : MainPoint) (u : Bool) : m.woken.rank u ≤ m.rank u + 2 := by
  cases m <;> cases u <;> simp [MainPoint.woken, MainPoint.rank]

theorem WorkerPoint.rank_woken (w : WorkerPoint) (u j : Bool) :
    w.woken.rank u j ≤ w.rank u j + 2 := by
  cases w <;> cases u <;> cases j <;> simp [WorkerPoint.woken, WorkerPoint.rank, loopRank]

theorem WorkerPoint.rank_request (w : WorkerPoint) (j : Bool) :
    w.rank true j ≤ w.rank false j + 18 := by
  cases w <;> cases j <;> simp [WorkerPoint.rank, loopRank]

theorem WorkerPoint.rank_join (w : WorkerPoint) (u j : Bool) :
    w.rank u true ≤ w.rank u j + 8 := by
  cases w <;> cases u <;> cases j <;> simp +arith [WorkerPoint.rank, loopRank]

namespace Threaded

/-- An upper bound for the turns that are left until the call of the main thread is over and the
worker sleeps or is gone. -/
def rank (t : Threaded) : Nat :=
  t.worker.rank t.shared.updateRequested t.shared.joinRequested + t.main.rank t.shared.updateRequested

variable {σ κ : Type} [StatsSink κ] {F : Facades σ κ} {t t' : Threaded} {s s' : Scene σ κ}
  {es : List Event} {thread : Thread}

/-- A turn that is not a wake-up for nothing uses up some of the rank. -/
theorem Shift.rank_lt (h : Shift t (.run thread) es t') : t'.rank < t.rank := by
  cases h with
  | @start sh o m p a | @lock sh m p a =>
    have hl := two_le_loopRank sh.updateRequested sh.joinRequested
    simp only [rank, WorkerPoint.rank]
    omega
  | heed | serve | sleep => simp +arith [rank, WorkerPoint.rank, loopRank]
  | close c l hl =>
    have hlen := length_le_of_names hl
    simp only [rank, WorkerPoint.rank]
    omega
  | @clear u j sl o m p a | @leave u j sl o m p a =>
    -- a finish that waits has less to do once the request is withdrawn
    have hm := m.rank_false_le u
    simp only [rank, WorkerPoint.rank]
    omega
  | @notify sh o m p a | @announce sh o m p a =>
    have hm := m.rank_woken sh.updateRequested
    simp only [rank, WorkerPoint.rank]
    omega
  | @allowNotify sh o w p a | @joinNotify sh o w p a =>
    have hw := w.rank_woken sh.updateRequested sh.joinRequested
    simp only [rank, MainPoint.rank]
    omega
  | @accept j sl o w st p a =>
    have hw := w.rank_request j
    simp only [rank, MainPoint.rank]
    omega
  | @flag u j sl o w p a =>
    have hw := w.rank_join u j
    simp only [rank, MainPoint.rank]
    omega
  | finish | finishLock =>
    simp only [rank, MainPoint.rank]
    split <;> omega
  | _ => simp +arith [rank, WorkerPoint.rank, MainPoint.rank]

theorem Coherent.rank_le_callSteps (hc : Coherent t) : t.rank ≤ callSteps := by
  have hb := hc.backlog
  have hw := t.worker.rank_le t.shared.updateRequested t.shared.joinRequested
  have hm := t.main.rank_le t.shared.updateRequested
  simp only [rank, callSteps]
  omega

/-- With as many steps as the rank the main thread gets to the end of its call. -/
theorem settle_idle {fuel : Nat} (hc : Coherent t) (hf : t.rank ≤ fuel) :
    (settle F fuel t s).1.main = .idle := by
  induction fuel generalizing t s with
  | zero =>
    have hm : t.main.rank t.shared.updateRequested = 0 := by
      simp only [rank] at hf
      omega
    exact MainPoint.eq_idle_of_rank hm
  | succ fuel ih =>
    by_cases hi : t.main = .idle
    · simp [settle, hi]
    · simp only [settle, hi, if_false]
      cases hm : mainStep t s with
      | some y =>
        have hs := shift_of_mainStep hm
        have hlt := hs.rank_lt
        exact ih (hc.shift hs) (by omega)
      | none =>
        obtain ⟨y, hw⟩ := Option.isSome_iff_exists.mp (workerStep_isSome_of_wait (F := F) hc hi hm)
        have hs := shift_of_workerStep hw
        have hlt := hs.rank_lt
        simp only [hw]
        exact ih (hc.shift hs) (by omega)

theorem take_append (a b : List Turn) (t : Threaded) (s : Scene σ κ) :
    take F (a ++ b) t s = take F b (take F a t s).1 (take F a t s).2 := by
  induction a generalizing t s with
  | nil => rfl
  | cons next rest ih =>
    simp only [List.cons_append, take]
    cases turn F t s next with
    | none => exact ih t s
    | some y => exact ih y.1 y.2

theorem exists_settle (F : Facades σ κ) (fuel : Nat) (t : Threaded) (s : Scene σ κ) :
    ∃ turns, settle F fuel t s = take F turns t s := by
  induction fuel generalizing t s with
  | zero => exact ⟨[], rfl⟩
  | succ fuel ih =>
    by_cases hi : t.main = .idle
    · exact ⟨[], by simp [settle, hi, take]⟩
    · simp only [settle, hi, if_false]
      cases hm : mainStep t s with
      | some y =>
        obtain ⟨turns, ht⟩ := ih y.1 y.2
        exact ⟨.run .main :: turns, by simpa [take, turn, hm] using ht⟩
      | none =>
        cases hw : workerStep F t s with
        | none => exact ⟨[], rfl⟩
        | some y =>
          obtain ⟨turns, ht⟩ := ih y.1 y.2
          exact ⟨.run .worker :: turns, by simpa [take, turn, hw] using ht⟩

/-- A whole call is some sequence of turns, and comes to its end. -/
theorem exists_run (hc : Coherent t) (hi : t.main = .idle) (r : Request) :
    ∃ turns, run F r.point t s =
        take F turns { t with main := r.point } { s with schedule := s.schedule.next.2 } ∧
      (run F r.point t s).1.main = .idle := by
  obtain ⟨more, hm⟩ := exists_settle F callSteps
    (take F s.schedule.next.1 { t with main := r.point } { s with schedule := s.schedule.next.2 }).1
    (take F s.schedule.next.1 { t with main := r.point } { s with schedule := s.schedule.next.2 }).2
  refine ⟨s.schedule.next.1 ++ more, by rw [take_append]; exact hm, ?_⟩
  have hrun := run_take F s.schedule.next.1 { t with main := r.point }
    { s with schedule := s.schedule.next.2 }
  have hc' := (hc.call hi r).run hrun
  exact settle_idle hc' hc'.rank_le_callSteps

end Threaded

end FrameLoop.Update
