import FrameLoop.Proofs.Handshake.Moves

/-! What always holds between the two threads: who has the lock, where the stamp of an open
request is, how far a join has come, and who still has to be notified. -/

namespace FrameLoop.Update

namespace WorkerPoint

def locked : WorkerPoint → Bool
  | testing | taking | clearing | leaving => true
  | _ => false

def takes : WorkerPoint → Bool
  | taking => true
  | _ => false

/-- The worker took a request that came without a stamp. -/
def misses : WorkerPoint → Bool
  | taken none => true
  | _ => false

/-- The worker has taken a stamp and not yet withdrawn its request. -/
def serving : WorkerPoint → Bool
  | taken _ | updating _ _ | closing _ _ | writing _ _ | relocking | clearing => true
  | _ => false

def sleeps : WorkerPoint → Bool
  | asleep => true
  | _ => false

/-- The worker has left its loop and withdrawn any request. -/
def departed : WorkerPoint → Bool
  | announcing | stopping | exited => true
  | _ => false

/-- The worker is on its way out or gone. -/
def ends : WorkerPoint → Bool
  | leaving | announcing | stopping | exited => true
  | _ => false

def gone : WorkerPoint → Bool
  | exited => true
  | _ => false

def backlog : WorkerPoint → Nat
  | writing _ l => l.length
  | _ => 0

/-- The worker withdrew a request and has not yet told the main thread. -/
def owesNotice : WorkerPoint → Bool
  | notifying | announcing => true
  | _ => false

end WorkerPoint

namespace MainPoint

def locked : MainPoint → Bool
  | allowTesting _ | allowFilling _ | finishTesting | joinFlagging => true
  | _ => false

/-- The main thread has opened a request and not yet left its stamp. -/
def filling : MainPoint → Bool
  | allowFilling _ => true
  | _ => false

/-- The main thread has opened a request and not yet noted that it is pending. -/
def opening : MainPoint → Bool
  | allowFilling _ | allowMarking => true
  | _ => false

/-- The main thread is in an allow that found the worker unjoined. -/
def allows : MainPoint → Bool
  | allowLocking _ | allowTesting _ | allowFilling _ | allowMarking | allowNotifying => true
  | _ => false

/-- The main thread is in a finish that took the pending update. -/
def awaits : MainPoint → Bool
  | finishLocking | finishTesting | finishAsleep => true
  | _ => false

def sleeps : MainPoint → Bool
  | finishAsleep => true
  | _ => false

def flags : MainPoint → Bool
  | joinFlagging => true
  | _ => false

/-- The main thread is in a join and has not yet asked the worker to stop. -/
def approaches : MainPoint → Bool
  | joinLocking | joinFlagging => true
  | _ => false

/-- The main thread is in a join and has asked the worker to stop. -/
def outlasts : MainPoint → Bool
  | joinNotifying | joinWaiting => true
  | _ => false

/-- The main thread set a flag and has not yet told the worker. -/
def owesNotice : MainPoint → Bool
  | allowFilling _ | allowMarking | allowNotifying | joinNotifying => true
  | _ => false

variable (m : MainPoint)

@[simp] theorem locked_woken : m.woken.locked = m.locked := by cases m <;> rfl

@[simp] theorem filling_woken : m.woken.filling = m.filling := by cases m <;> rfl

@[simp] theorem opening_woken : m.woken.opening = m.opening := by cases m <;> rfl

@[simp] theorem allows_woken : m.woken.allows = m.allows := by cases m <;> rfl

@[simp] theorem awaits_woken : m.woken.awaits = m.awaits := by cases m <;> rfl

@[simp] theorem sleeps_woken : m.woken.sleeps = false := by cases m <;> rfl

@[simp] theorem flags_woken : m.woken.flags = m.flags := by cases m <;> rfl

@[simp] theorem approaches_woken : m.woken.approaches = m.approaches := by cases m <;> rfl

@[simp] theorem outlasts_woken : m.woken.outlasts = m.outlasts := by cases m <;> rfl

@[simp] theorem owesNotice_woken : m.woken.owesNotice = m.owesNotice := by cases m <;> rfl

theorem locked_of_filling {m : MainPoint} (h : m.filling) : m.locked := by
  cases m <;> first | rfl | cases h

theorem locked_of_flags {m : MainPoint} (h : m.flags) : m.locked := by
  cases m <;> first | rfl | cases h

end MainPoint

namespace WorkerPoint

variable (w : WorkerPoint)

@[simp] theorem locked_woken : w.woken.locked = w.locked := by cases w <;> rfl

@[simp] theorem takes_woken : w.woken.takes = w.takes := by cases w <;> rfl

@[simp] theorem misses_woken : w.woken.misses = w.misses := by cases w <;> rfl

@[simp] theorem serving_woken : w.woken.serving = w.serving := by cases w <;> rfl

@[simp] theorem sleeps_woken : w.woken.sleeps = false := by cases w <;> rfl

@[simp] theorem departed_woken : w.woken.departed = w.departed := by cases w <;> rfl

@[simp] theorem ends_woken : w.woken.ends = w.ends := by cases w <;> rfl

@[simp] theorem gone_woken : w.woken.gone = w.gone := by cases w <;> rfl

@[simp] theorem backlog_woken : w.woken.backlog = w.backlog := by cases w <;> rfl

@[simp] theorem owesNotice_woken : w.woken.owesNotice = w.owesNotice := by cases w <;> rfl

theorem locked_of_takes {w : WorkerPoint} (h : w.takes) : w.locked := by
  cases w <;> first | rfl | cases h

theorem eq_exited_of_gone {w : WorkerPoint} (h : w.gone) : w = exited := by
  cases w <;> first | rfl | cases h

theorem ends_of_departed {w : WorkerPoint} (h : w.departed) : w.ends := by
  cases w <;> first | rfl | cases h

end WorkerPoint

namespace Threaded

variable {t t' : Threaded} {next : Turn} {es : List Event}

/-- The lock is held by the thread whose point says so. -/
structure LockKept (t : Threaded) : Prop where
  worker : t.owner = some .worker ↔ t.worker.locked
  main : t.owner = some .main ↔ t.main.locked

theorem LockKept.not_filling (hl : LockKept t) (hw : t.worker.locked) : t.main.filling = false := by
  apply Bool.eq_false_iff.mpr
  intro hf
  have hm := hl.main.mpr (MainPoint.locked_of_filling hf)
  simp [hl.worker.mpr hw] at hm

theorem LockKept.shift (hl : LockKept t) (h : Shift t next es t') : LockKept t' := by
  obtain ⟨hw, hm⟩ := hl
  cases h with
  | lock | relock => exact ⟨by simp [WorkerPoint.locked], by simpa using hm⟩
  | allowLock | finishLock | joinLock => exact ⟨by simpa using hw, by simp [MainPoint.locked]⟩
  | sleep | take | clear | leave =>
    obtain rfl := hw.mpr rfl
    exact ⟨by simp [WorkerPoint.locked], by simpa using hm⟩
  | refuse | fill | wait | finished | flag =>
    obtain rfl := hm.mpr rfl
    exact ⟨by simpa using hw, by simp [MainPoint.locked]⟩
  | notify | announce => exact ⟨hw, by simpa using hm⟩
  | allowNotify | joinNotify => exact ⟨by simpa using hw, hm⟩
  | _ => exact ⟨hw, hm⟩

/-- How far a join has come. -/
structure JoinKept (t : Threaded) : Prop where
  asked : t.shared.joinRequested = (!t.joinable && !t.main.approaches)
  allows : t.main.allows → t.joinable
  joins : t.main.approaches || t.main.outlasts → t.joinable = false
  worker : t.worker.ends → t.shared.joinRequested
  joined : t.joinable = false → t.main.approaches || t.main.outlasts || t.worker.gone

theorem JoinKept.shift (hj : JoinKept t) (h : Shift t next es t') : JoinKept t' := by
  obtain ⟨ha, hb, hc, hd, he⟩ := hj
  cases h with
  | heed => exact ⟨ha, hb, hc, fun _ => rfl, he⟩
  | stop => exact ⟨ha, hb, hc, hd, by simp [WorkerPoint.gone]⟩
  | notify | announce =>
    exact ⟨by simpa using ha, by simpa using hb, by simpa using hc, hd,
      by simpa [WorkerPoint.gone] using he⟩
  | allow => exact ⟨ha, fun _ => rfl, hc, hd, he⟩
  | allowNotify =>
    exact ⟨ha, by simp [MainPoint.allows], hc, by simpa using hd,
      by simpa [MainPoint.approaches, MainPoint.outlasts] using he⟩
  | refuse => exact ⟨ha, by simp [MainPoint.allows], hc, hd, he⟩
  | join =>
    exact ⟨by simpa [MainPoint.approaches] using ha, by simp [MainPoint.allows], fun _ => rfl, hd,
      fun _ => rfl⟩
  | flag =>
    obtain rfl := hc rfl
    exact ⟨rfl, hb, fun _ => rfl, fun _ => rfl, fun _ => rfl⟩
  | joinNotify => exact ⟨ha, hb, hc, by simpa using hd, fun _ => rfl⟩
  | joined => exact ⟨ha, hb, by simp [MainPoint.approaches, MainPoint.outlasts], hd, fun _ => rfl⟩
  | _ => exact ⟨ha, hb, hc, hd, he⟩

theorem JoinKept.not_departed (hj : JoinKept t) (ha : t.joinable) : t.worker.departed = false := by
  apply Bool.eq_false_iff.mpr
  intro h
  have hr := hj.worker (WorkerPoint.ends_of_departed h)
  simp [hj.asked, ha] at hr

/-- Where the stamp of an open request is: about to be left, in the slot, or with the worker.
Only a worker that has left leaves a stamp behind. -/
structure RequestKept (t : Threaded) : Prop where
  serving : t.worker.serving → t.shared.updateRequested ∧ t.shared.stamp = none
  misses : t.worker.misses = false
  takes : t.worker.takes → t.shared.updateRequested ∧ t.shared.stamp.isSome
  filling : t.main.filling →
    t.shared.updateRequested ∧ t.shared.stamp = none ∧ t.worker.serving = false
  requested : t.shared.updateRequested →
    t.main.filling || t.worker.serving || t.shared.stamp.isSome
  kept : t.shared.stamp.isSome → t.shared.updateRequested || t.worker.departed
  departed : t.worker.departed → t.shared.updateRequested = false

theorem RequestKept.stamp_eq_none (hr : RequestKept t) (hj : JoinKept t) (ha : t.joinable)
    (hu : t.shared.updateRequested = false) : t.shared.stamp = none := by
  have hk := hr.kept
  simpa [hu, hj.not_departed ha] using hk

theorem RequestKept.shift (hr : RequestKept t) (hl : LockKept t) (hj : JoinKept t)
    (h : Shift t next es t') : RequestKept t' := by
  have hfree := hl.not_filling
  have hempty := hr.stamp_eq_none hj
  have hallows := hj.allows
  have hleft := hj.not_departed
  obtain ⟨ha, hb, hc, hd, he, hf, hg⟩ := hr
  cases h with
  | serve =>
    -- nobody fills or serves, so the stamp of the open request is in the slot
    have hfill := hfree rfl
    have hs := he rfl
    simp only [hfill, WorkerPoint.serving, Bool.false_or] at hs
    exact ⟨ha, rfl, fun _ => ⟨rfl, hs⟩, hd, he, hf, hg⟩
  | take =>
    obtain ⟨rfl, hs⟩ := hc rfl
    obtain ⟨st, rfl⟩ := Option.isSome_iff_exists.mp hs
    have hfill := hfree rfl
    exact ⟨fun _ => ⟨rfl, rfl⟩, rfl, nofun, by simp [hfill], by simp [WorkerPoint.serving], nofun, hg⟩
  | miss => cases hb
  | clear =>
    obtain ⟨rfl, rfl⟩ := ha rfl
    have hfill := hfree rfl
    exact ⟨nofun, rfl, nofun, by simp [hfill], nofun, nofun, nofun⟩
  | leave =>
    have hfill := hfree rfl
    exact ⟨nofun, rfl, nofun, by simp [hfill], nofun, fun _ => rfl, fun _ => rfl⟩
  | notify | announce =>
    exact ⟨ha, hb, hc, by simpa [WorkerPoint.serving] using hd,
      by simpa [WorkerPoint.serving] using he, hf, hg⟩
  | accept =>
    -- an old stamp would have been left by a worker that is gone, and this one is not
    obtain rfl := hempty (hallows rfl) rfl
    exact ⟨by simp, hb, by simpa using hc, fun _ => ⟨rfl, rfl, by simpa using ha⟩, fun _ => rfl,
      nofun, by simp [hleft (hallows rfl)]⟩
  | fill =>
    obtain ⟨rfl, rfl, hs⟩ := hd rfl
    exact ⟨by simp [hs], hb, by simp, nofun, by simp, by simp, hg⟩
  | allowNotify | joinNotify =>
    exact ⟨by simpa using ha, by simpa using hb, by simpa using hc, nofun,
      by simpa [MainPoint.filling] using he, by simpa using hf, by simpa using hg⟩
  | _ => exact ⟨ha, hb, hc, hd, he, hf, hg⟩

/-- Whoever sleeps has nothing to wake up for, or is still to be notified of it. -/
structure NoticeKept (t : Threaded) : Prop where
  worker : t.worker.sleeps → t.shared.updateRequested || t.shared.joinRequested → t.main.owesNotice
  main : t.main.sleeps → t.shared.updateRequested || t.worker.owesNotice
  pending : t.shared.updateRequested → t.pending || t.main.opening || t.main.awaits

theorem NoticeKept.shift (hn : NoticeKept t) (h : Shift t next es t') : NoticeKept t' := by
  obtain ⟨ha, hb, hc⟩ := hn
  cases h with
  | sleep => exact ⟨nofun, hb, hc⟩
  | clear | leave => exact ⟨nofun, fun _ => rfl, nofun⟩
  | notify | announce => exact ⟨nofun, by simp, by simpa using hc⟩
  | accept => exact ⟨fun _ _ => rfl, nofun, by simp [MainPoint.opening]⟩
  | mark => exact ⟨ha, hb, fun _ => rfl⟩
  | allowNotify => exact ⟨by simp, nofun, hc⟩
  | finish => exact ⟨ha, hb, by simp [MainPoint.awaits]⟩
  | wait => exact ⟨ha, fun _ => rfl, hc⟩
  | finished => exact ⟨ha, nofun, nofun⟩
  | flag => exact ⟨fun _ _ => rfl, nofun, hc⟩
  | joinNotify => exact ⟨by simp, nofun, hc⟩
  | rouseMain => exact ⟨ha, nofun, hc⟩
  | rouseWorker => exact ⟨nofun, hb, hc⟩
  | _ => exact ⟨ha, hb, hc⟩

theorem length_le_of_names {l : List (String × Double)} {c : Bool}
    (hl : l.map Prod.fst = if c then luaKeys else []) : l.length ≤ 3 := by
  rw [← List.length_map (f := Prod.fst), hl]
  cases c <;> simp [luaKeys]

theorem Shift.backlog_le (h : Shift t next es t') (hb : t.worker.backlog ≤ 3) :
    t'.worker.backlog ≤ 3 := by
  cases h with
  | close c l hl => exact length_le_of_names hl
  | write => exact Nat.le_of_succ_le hb
  | written => exact Nat.zero_le 3
  | allowNotify | joinNotify => simpa using hb
  | _ => exact hb

/-- Everything that always holds between the two threads. -/
structure Coherent (t : Threaded) : Prop where
  lock : LockKept t
  join : JoinKept t
  request : RequestKept t
  notice : NoticeKept t
  backlog : t.worker.backlog ≤ 3

theorem Coherent.spawn : Coherent spawn where
  lock := ⟨by simp [Threaded.spawn, WorkerPoint.locked], by simp [Threaded.spawn, MainPoint.locked]⟩
  join := ⟨rfl, nofun, nofun, nofun, nofun⟩
  request := ⟨nofun, rfl, nofun, nofun, nofun, nofun, nofun⟩
  notice := ⟨nofun, nofun, nofun⟩
  backlog := Nat.zero_le 3

theorem Coherent.shift (hc : Coherent t) (h : Shift t next es t') : Coherent t' where
  lock := hc.lock.shift h
  join := hc.join.shift h
  request := hc.request.shift hc.lock hc.join h
  notice := hc.notice.shift h
  backlog := h.backlog_le hc.backlog

/-- Between two calls the main thread may begin any other. -/
theorem Coherent.call (hc : Coherent t) (h : t.main = .idle) (r : Request) :
    Coherent { t with main := r.point } := by
  obtain ⟨sh, o, w, m, p, a⟩ := t
  obtain rfl := h
  obtain ⟨⟨hw, hm⟩, ⟨ja, jb, jc, jd, je⟩, ⟨ra, rb, rc, rd, re, rf, rg⟩, ⟨na, nb, nc⟩, hb⟩ := hc
  cases r <;>
    exact ⟨⟨hw, hm⟩, ⟨ja, nofun, nofun, jd, je⟩, ⟨ra, rb, rc, nofun, re, rf, rg⟩, ⟨na, nofun, nc⟩, hb⟩

end Threaded

end FrameLoop.Update
