import FrameLoop.Proofs.Handshake.Updates

/-! What becomes of an accepted update when the worker is joined: it runs if the worker had
taken its stamp by the time it is asked to stop, and is dropped without a word if not. -/

namespace FrameLoop.Update

namespace Threaded

variable {σ κ : Type} [StatsSink κ] {F : Facades σ κ} {t t' : Threaded} {s s' s₀ : Scene σ κ}
  {next : Turn} {es h h' : List Event} {slot : Option Stamp} {x y : Threaded × Scene σ κ}

/-- The worker is asked to stop, or about to be, and what is in the slot stays there. -/
structure Stopping (slot : Option Stamp) (t : Threaded) : Prop where
  joined : t.joinable = false
  slot : t.shared.stamp = slot
  takes : t.worker.takes = false
  asked : t.main.flags || t.shared.joinRequested

theorem Coherent.stopping (hc : Coherent t) (hm : t.main = .joinFlagging) :
    Stopping t.shared.stamp t := by
  have ho := hc.lock.main.mpr (by simp [hm, MainPoint.locked])
  refine ⟨hc.join.joins (by simp [hm, MainPoint.approaches]), rfl, ?_, by simp [hm, MainPoint.flags]⟩
  cases hw : t.worker.takes with
  | false => rfl
  | true =>
    have hl := hc.lock.worker.mpr (WorkerPoint.locked_of_takes hw)
    simp [ho] at hl

/-- Once it is asked to stop, the worker takes nothing out of the slot and nothing is accepted. -/
theorem Stopping.shift (hs : Stopping slot t) (hc : Coherent t) (h : Shift t next es t') :
    Stopping slot t' ∧ accepted es = [] := by
  have hallows := hc.join.allows
  have hlock := hc.lock
  obtain ⟨hj, hsl, ht, ha⟩ := hs
  cases h with
  | serve =>
    -- the flag is not set yet, so the main thread holds the lock that the worker looks under
    have hm := hlock.main.mpr (MainPoint.locked_of_flags (by simpa using ha))
    rw [hlock.worker.mpr rfl] at hm
    cases hm
  | take => cases ht
  | accept | fill => cases hj.symm.trans (hallows rfl)
  | joinLock | flag => exact ⟨⟨hj, hsl, ht, rfl⟩, rfl⟩
  | join => cases hj
  | notify | announce => exact ⟨⟨hj, hsl, rfl, by simpa using ha⟩, rfl⟩
  | allowNotify | joinNotify => exact ⟨⟨hj, hsl, by simpa using ht, ha⟩, rfl⟩
  | _ => exact ⟨⟨hj, hsl, ht, ha⟩, rfl⟩

theorem Stopping.call (hs : Stopping slot t) (hm : t.main = .idle) (r : Request) :
    Stopping slot { t with main := r.point } := by
  obtain ⟨hj, hsl, ht, ha⟩ := hs
  have hq : t.shared.joinRequested := by simpa [hm, MainPoint.flags] using ha
  exact ⟨hj, hsl, ht, by simp [hq]⟩

theorem Stopping.run (hs : Stopping slot x.1) (hc : Coherent x.1) (hr : Run F x h y) :
    Stopping slot y.1 ∧ accepted h = [] := by
  induction hr with
  | refl => exact ⟨hs, rfl⟩
  | turn next hr ht ih =>
    obtain ⟨hs, ha⟩ := ih
    obtain ⟨hs, he⟩ := hs.shift (hc.run hr) (shift_of_turn ht)
    refine ⟨hs, ?_⟩
    rw [accepted, List.flatMap_append]
    exact List.append_eq_nil_iff.mpr ⟨ha, he⟩
  | call r _ hi ih =>
    obtain ⟨hs, ha⟩ := ih
    refine ⟨hs.call hi r, ?_⟩
    rw [accepted, List.flatMap_append]
    exact List.append_eq_nil_iff.mpr ⟨ha, rfl⟩
  | aside _ _ _ ih => exact ih

/-- When the join has returned, and however the main thread goes on, every accepted update has
run but the one whose stamp was still in the slot when the worker was asked to stop. -/
theorem dropped_by_join (hr : Run F (spawn, s₀) h (t, s)) (hf : t.main = .joinFlagging)
    (hr' : Run F (t, s) h' (t', s')) (hi : t'.main = .idle) :
    accepted (h ++ h') = accepted h ∧ accepted h = ended (h ++ h') ++ t.shared.stamp.toList ∧
      (ended (h ++ h') = accepted h ↔ t.shared.stamp = none) := by
  have hc := Coherent.spawn.run hr
  have hc' := hc.run hr'
  obtain ⟨hs, ha⟩ := (hc.stopping hf).run hc hr'
  have hx : t'.worker = .exited := by
    apply WorkerPoint.eq_exited_of_gone
    simpa [hi, MainPoint.approaches, MainPoint.outlasts] using hc'.join.joined hs.joined
  have hall : accepted (h ++ h') = accepted h := by
    rw [accepted, List.flatMap_append]
    simp [ha]
  have hstart : accepted (h ++ h') = begun (h ++ h') ++ t.shared.stamp.toList := by
    have hrun := starting_conserves.run .spawn (hr.trans hr')
    have hslot : t'.shared.stamp = t.shared.stamp := hs.slot
    have hheld : starting.held t' = t.shared.stamp.toList := by
      simp [starting, hx, hi, hslot, WorkerPoint.inHand, MainPoint.opened]
    rwa [hheld, Clear.spawn.starting, List.nil_append] at hrun
  have hupdate : begun (h ++ h') = ended (h ++ h') := by
    have hrun := updating_conserves.run .spawn (hr.trans hr')
    have hheld : updating.held t' = [] := by simp [updating, hx, WorkerPoint.underWay]
    rwa [hheld, Clear.spawn.updating, List.nil_append, List.append_nil] at hrun
  have hleft : accepted h = ended (h ++ h') ++ t.shared.stamp.toList := by
    rw [← hall, hstart, hupdate]
  refine ⟨hall, hleft, ?_⟩
  rw [hleft]
  cases t.shared.stamp <;> simp

/-- An allow whose stamp the worker has taken, and a join that is about to ask it to stop. -/
def takenBeforeJoin : List Event × Threaded × Scene Headless.World Rehearsal.Journal :=
  enact Headless.facades
    [(.allow ⟨7, 0⟩, List.replicate 6 (.run .main) ++ List.replicate 4 (.run .worker)),
      (.join, List.replicate 2 (.run .main))]
    (spawn, collectingScene)

theorem dropped_by_join_taken_before :
    takenBeforeJoin.2.1.main = .joinFlagging ∧ takenBeforeJoin.2.1.shared.stamp = none ∧
      ∃ h t s, Run Headless.facades takenBeforeJoin.2 h (t, s) ∧ t.main = .idle ∧
        ended (takenBeforeJoin.1 ++ h) = accepted takenBeforeJoin.1 ∧
        ended (takenBeforeJoin.1 ++ h) = [⟨7, 0⟩] := by
  have hr : Run Headless.facades (spawn, collectingScene) takenBeforeJoin.1 takenBeforeJoin.2 :=
    run_enact ..
  have hr' := run_take Headless.facades
    (List.replicate 2 (.run .main) ++ List.replicate 16 (.run .worker) ++ [.run .main])
    takenBeforeJoin.2.1 takenBeforeJoin.2.2
  obtain ⟨-, -, hiff⟩ := dropped_by_join hr rfl hr' rfl
  exact ⟨rfl, rfl, _, _, _, hr', rfl, hiff.mpr rfl, rfl⟩

/-- An allow, a join that the worker heeds before it looks for an update, and a finish. -/
def joinBeforeTaken : List Event × Threaded × Scene Headless.World Rehearsal.Journal :=
  enact Headless.facades
    [(.allow ⟨7, 0⟩, List.replicate 6 (.run .main)),
      (.join, List.replicate 4 (.run .main) ++ List.replicate 6 (.run .worker) ++ [.run .main]),
      (.finish, List.replicate 3 (.run .main))]
    (spawn, collectingScene)

/-- A join may return, and a finish after it, without the update that was accepted before. -/
theorem update_lost_in_join :
    ∃ h t s, Run Headless.facades (spawn, collectingScene) h (t, s) ∧ t.main = .idle ∧
      calls h = [.allow ⟨7, 0⟩, .join, .finish] ∧ accepted h = [⟨7, 0⟩] ∧ .unmatched ∉ h ∧
      ended h = [] :=
  ⟨joinBeforeTaken.1, joinBeforeTaken.2.1, joinBeforeTaken.2.2, run_enact .., rfl, rfl, rfl,
    by decide, rfl⟩

end Threaded

end FrameLoop.Update
