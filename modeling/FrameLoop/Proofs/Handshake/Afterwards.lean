import FrameLoop.Proofs.Handshake.Completion

/-! What is left of the handshake when a join has returned: the worker is gone, the main thread
never waits again, and no update is accepted or run. Dropping the strategy is a join as well. -/

namespace FrameLoop.Update

namespace Threaded

/-- What can still happen when there is no worker any more. -/
def Event.vain : Event → Bool
  | called _ | belated _ | unmatched => true
  | _ => false

/-- What the main thread logs of a call that finds no worker. -/
def Request.remark (pending : Bool) : Request → List Record
  | allow st =>
    [⟨.warn, s!"Script update of frame {st.number} allowed after the worker was joined"⟩]
  | finish =>
    if pending then [] else [⟨.warn, "finish_update called without a matching allow_update"⟩]
  | join => []

/-- Whether an update is still pending after a call that finds no worker. -/
def Request.leavesPending (pending : Bool) : Request → Bool
  | finish => false
  | _ => pending

variable {σ κ : Type} [StatsSink κ] {F : Facades σ κ} {t t' : Threaded} {s s' s₀ : Scene σ κ}
  {next : Turn} {es h h' : List Event} {x y : Threaded × Scene σ κ}

theorem begun_eq_nil_of_vain (hv : ∀ e ∈ h, e.vain) : begun h = [] := by
  rw [begun, List.flatMap_eq_nil_iff]
  intro e he
  have hev := hv e he
  cases e <;> first | rfl | cases hev

theorem ended_eq_nil_of_vain (hv : ∀ e ∈ h, e.vain) : ended h = [] := by
  rw [ended, List.flatMap_eq_nil_iff]
  intro e he
  have hev := hv e he
  cases e <;> first | rfl | cases hev

/-- Whoever was called to join is about to look whether the worker is joined, or it is. -/
def Joins (t : Threaded) : Prop := t.main = .joining ∨ t.joinable = false

theorem Joins.shift (hj : Joins t) (h : Shift t next es t') : Joins t' := by
  cases h with
  | join => exact .inr rfl
  | notify | announce =>
    rcases hj with rfl | ha
    · exact .inl rfl
    · exact .inr ha
  | joinAgain => exact .inr rfl
  | _ =>
    rcases hj with hm | ha
    · first | exact .inl hm | cases hm
    · exact .inr ha

/-- A turn is no call. -/
theorem Shift.not_called (h : Shift t next es t') (r : Request) : .called r ∉ es := by
  cases h <;> simp

theorem Run.joins (hr : Run F x h y) (hj : .called .join ∈ h) : Joins y.1 := by
  induction hr with
  | refl => cases hj
  | turn next _ ht ih =>
    have hs := shift_of_turn ht
    rcases List.mem_append.mp hj with hj | hj
    · exact (ih hj).shift hs
    · exact absurd hj (hs.not_called .join)
  | call r _ hi ih =>
    rcases List.mem_append.mp hj with hj | hj
    · rcases ih hj with hm | ha
      · cases hm.symm.trans hi
      · exact .inr ha
    · obtain rfl : .join = r := by simpa using hj
      exact .inl rfl
  | aside _ _ _ ih => exact ih hj

/-- The worker was joined, and the join has returned. -/
structure Alone (t : Threaded) : Prop where
  coherent : Coherent t
  joinable : t.joinable = false
  main : (t.main.approaches || t.main.outlasts) = false

namespace Alone

theorem of_idle (hc : Coherent t) (hj : Joins t) (hi : t.main = .idle) : Alone t := by
  rcases hj with hm | ha
  · cases hm.symm.trans hi
  · exact ⟨hc, ha, by simp [hi, MainPoint.approaches, MainPoint.outlasts]⟩

theorem worker (ha : Alone t) : t.worker = .exited := by
  apply WorkerPoint.eq_exited_of_gone
  have hj := ha.coherent.join.joined ha.joinable
  rwa [ha.main, Bool.false_or] at hj

theorem requested (ha : Alone t) : t.shared.updateRequested = false :=
  ha.coherent.request.departed (by simp [ha.worker, WorkerPoint.departed])

theorem allows (ha : Alone t) : t.main.allows = false := by
  apply Bool.eq_false_iff.mpr
  intro hm
  have hj := ha.coherent.join.allows hm
  simp [ha.joinable] at hj

theorem awake (ha : Alone t) : t.main.sleeps = false := by
  apply Bool.eq_false_iff.mpr
  intro hm
  have hn := ha.coherent.notice.main hm
  simp [ha.requested, ha.worker, WorkerPoint.owesNotice] at hn

theorem owner_eq_none (ha : Alone t) (hm : t.main.locked = false) : t.owner = none :=
  ha.coherent.lock.owner_eq_none (by simp [ha.worker, WorkerPoint.locked]) hm

/-- Only the main thread still takes turns. It cannot open a request, as it would have to be past
the look whether there is a worker. -/
theorem shift (ha : Alone t) (h : Shift t next es t') :
    Alone t' ∧ next = .run .main ∧ (∀ e ∈ es, e.vain) ∧
      (t.main = .finishing ∨ t.pending = false → t'.pending = false) := by
  have hc := ha.coherent.shift h
  have hw := ha.worker
  have hallow := ha.allows
  have hsleep := ha.awake
  obtain ⟨-, hj, hm⟩ := ha
  cases h with
  | allow => cases hj
  | allowLate => exact ⟨⟨hc, hj, rfl⟩, rfl, by simp [Event.vain], by simp⟩
  | allowLock | refuse | accept | fill | mark | allowNotify => cases hallow
  | finish => exact ⟨⟨hc, hj, rfl⟩, rfl, nofun, fun _ => rfl⟩
  | finishNone => exact ⟨⟨hc, hj, rfl⟩, rfl, by simp [Event.vain], fun _ => rfl⟩
  | finishLock | wait | finished | joinAgain => exact ⟨⟨hc, hj, rfl⟩, rfl, nofun, by simp⟩
  | join => cases hj
  | joinLock | flag | joinNotify | joined => cases hm
  | rouseMain => cases hsleep
  | _ => cases hw

theorem call (ha : Alone t) (hi : t.main = .idle) (r : Request) :
    Alone { t with main := r.point } :=
  ⟨ha.coherent.call hi r, ha.joinable, by cases r <;> rfl⟩

theorem run (ha : Alone x.1) (hr : Run F x h y) :
    Alone y.1 ∧ (∀ e ∈ h, e.vain) ∧ (.called .finish ∈ h → y.1.main = .finishing ∨
      y.1.pending = false) := by
  induction hr with
  | refl => exact ⟨ha, nofun, nofun⟩
  | turn next _ ht ih =>
    obtain ⟨ha, hv, hp⟩ := ih
    have hs := shift_of_turn ht
    obtain ⟨ha', -, hv', hp'⟩ := ha.shift hs
    refine ⟨ha', fun e he => ?_, fun hf => .inr ?_⟩
    · rcases List.mem_append.mp he with he | he
      · exact hv e he
      · exact hv' e he
    · rcases List.mem_append.mp hf with hf | hf
      · exact hp' (hp hf)
      · exact absurd hf (hs.not_called .finish)
  | call r _ hi ih =>
    obtain ⟨ha, hv, hp⟩ := ih
    refine ⟨ha.call hi r, fun e he => ?_, fun hf => ?_⟩
    · rcases List.mem_append.mp he with he | he
      · exact hv e he
      · obtain rfl := List.mem_singleton.mp he
        rfl
    · rcases List.mem_append.mp hf with hf | hf
      · rcases hp hf with hm | hp
        · cases hm.symm.trans hi
        · exact .inr hp
      · obtain rfl : .finish = r := by simpa using hf
        exact .inl rfl
  | aside _ _ _ ih => exact ih

theorem turn_eq_none (ha : Alone t) (hn : next ≠ .run .main) (s : Scene σ κ) :
    turn F t s next = none := by
  cases ht : turn F t s next with
  | none => rfl
  | some y => exact absurd (ha.shift (shift_of_turn ht)).2.1 hn

omit [StatsSink κ] in
/-- The main thread waits for nothing: the lock is free whenever it wants it, no request is open
and the worker is gone. -/
theorem mainStep_isSome (ha : Alone t) (hi : t.main ≠ .idle) (s : Scene σ κ) :
    (mainStep t s).isSome := by
  have hfree := ha.owner_eq_none
  have hallow := ha.allows
  have hm := ha.main
  have hsleep := ha.awake
  cases hp : t.main with
  | idle => exact absurd hp hi
  | allowing | finishing | finishTesting | joining =>
    simp only [mainStep, hp]
    split <;> rfl
  | finishLocking =>
    have ho := hfree (by simp [hp, MainPoint.locked])
    simp [mainStep, hp, ho]
  | finishAsleep => simp [hp, MainPoint.sleeps] at hsleep
  | joinLocking | joinFlagging | joinNotifying | joinWaiting =>
    simp [hp, MainPoint.approaches, MainPoint.outlasts] at hm
  | _ => simp [hp, MainPoint.allows] at hallow

/-- The turns of the worker and the wake-ups make no difference. -/
theorem take_eq (ha : Alone t) (turns : List Turn) (s : Scene σ κ) :
    take F turns t s =
      take F (List.replicate (turns.count (.run .main)) (.run .main)) t s := by
  induction turns generalizing t s with
  | nil => rfl
  | cons next rest ih =>
    by_cases hn : next = .run .main
    · subst hn
      rw [List.count_cons_self, List.replicate_succ]
      simp only [take]
      cases ht : turn F t s (.run .main) with
      | none => exact ih ha s
      | some y => exact ih (ha.shift (shift_of_turn ht)).1 y.2
    · rw [List.count_cons_of_ne hn]
      simp only [take, ha.turn_eq_none hn]
      exact ih ha s

end Alone

theorem take_replicate_of_idle (F : Facades σ κ) (hi : t.main = .idle) (n : Nat) (s : Scene σ κ) :
    take F (List.replicate n (.run .main)) t s = (t, s) := by
  induction n with
  | zero => rfl
  | succ n ih => simpa [List.replicate_succ, take, turn, mainStep, hi] using ih

namespace Alone

/-- A call is over after three steps of the main thread, whatever other turns are taken. -/
theorem take_call (ha : Alone t) (hi : t.main = .idle) (r : Request) (turns : List Turn)
    (hn : 3 ≤ turns.count (.run .main)) (s : Scene σ κ) :
    take F turns { t with main := r.point } s =
      ({ t with pending := r.leavesPending t.pending }, s.append .main (r.remark t.pending)) := by
  have ho := ha.owner_eq_none (by simp [hi, MainPoint.locked])
  have hu := ha.requested
  have hj := ha.joinable
  have hthree : take F (List.replicate 3 (.run .main)) { t with main := r.point } s =
      ({ t with pending := r.leavesPending t.pending }, s.append .main (r.remark t.pending)) := by
    obtain ⟨⟨u, j, sl⟩, o, w, m, p, a⟩ := t
    subst hi ho hu hj
    cases r with
    | allow st => rfl
    | join => exact congrArg _ (Scene.append_nil ..).symm
    | finish =>
      cases p with
      | true => exact congrArg _ (Scene.append_nil ..).symm
      | false => rfl
  obtain ⟨n, hn⟩ := Nat.exists_eq_add_of_le hn
  rw [(ha.call hi r).take_eq, hn, ← List.replicate_append_replicate, take_append, hthree]
  -- the turns that are left find no call
  apply take_replicate_of_idle
  exact hi

/-- A whole call as it is made comes to the same, whatever its schedule. -/
theorem run_call (ha : Alone t) (hi : t.main = .idle) (r : Request) (s : Scene σ κ) :
    Threaded.run F r.point t s =
      ({ t with pending := r.leavesPending t.pending },
        Scene.append .main (r.remark t.pending) { s with schedule := s.schedule.next.2 }) := by
  obtain ⟨turns, hrun, hidle⟩ := exists_run (F := F) (s := s) ha.coherent hi r
  rw [hrun] at hidle ⊢
  -- three steps more change nothing, and with them there are enough
  have hmore := take_append (F := F) turns (List.replicate 3 (.run .main))
    { t with main := r.point } { s with schedule := s.schedule.next.2 }
  rw [take_replicate_of_idle F hidle] at hmore
  rw [← ha.take_call hi r (turns ++ List.replicate 3 (.run .main)) (by simp)]
  exact hmore.symm

end Alone

/-- When a join has returned the worker has exited. From then on only the main thread takes turns,
it never has to wait, and none of them touches the world; no update is accepted, begun or ended
and none is requested. Each further call is over after three steps of the main thread at most:
an allow is warned of and leaves it pending or not as it was, a join does nothing, and after a
finish nothing is pending. -/
theorem inert_after_join (hr : Run F (spawn, s₀) h (t, s)) (hj : .called .join ∈ h)
    (hi : t.main = .idle) (hr' : Run F (t, s) h' (t', s')) :
    (t.worker = .exited ∧ t'.worker = .exited ∧ t'.shared.updateRequested = false) ∧
    ((∀ e ∈ h', e.vain) ∧ begun h' = [] ∧ ended h' = []) ∧
    (∀ next y, turn F t' s' next = some y → next = .run .main ∧ y.2.world = s'.world) ∧
    (t'.main ≠ .idle → (turn F t' s' (.run .main)).isSome) ∧
    (t'.main = .idle → ∀ r : Request,
      (∀ turns, 3 ≤ turns.count (.run .main) → take F turns { t' with main := r.point } s' =
        ({ t' with pending := r.leavesPending t'.pending },
          s'.append .main (r.remark t'.pending))) ∧
      Threaded.run F r.point t' s' = ({ t' with pending := r.leavesPending t'.pending },
        Scene.append .main (r.remark t'.pending) { s' with schedule := s'.schedule.next.2 })) ∧
    (.called .finish ∈ h' → t'.main = .finishing ∨ t'.pending = false) := by
  have ha : Alone t := .of_idle (Coherent.spawn.run hr) (hr.joins hj) hi
  obtain ⟨ha', hv, hp⟩ := ha.run hr'
  refine ⟨⟨ha.worker, ha'.worker, ha'.requested⟩,
    ⟨hv, begun_eq_nil_of_vain hv, ended_eq_nil_of_vain hv⟩, fun next y hy => ?_,
    fun hi' => ha'.mainStep_isSome hi' s', fun hi' r => ⟨fun turns hn => ?_, ?_⟩, hp⟩
  · obtain ⟨-, rfl, -⟩ := ha'.shift (shift_of_turn hy)
    exact ⟨rfl, by rw [scene_of_mainStep hy]; rfl⟩
  · exact ha'.take_call hi' r turns hn s'
  · exact ha'.run_call hi' r s'

/-- A join that the worker heeds while a request is open and its stamp in the slot. -/
def joinedWithRequest : List Event × Threaded × Scene Headless.World Rehearsal.Journal :=
  enact Headless.facades
    [(.allow ⟨7, 0⟩, List.replicate 6 (.run .main)),
      (.join, List.replicate 4 (.run .main) ++ List.replicate 6 (.run .worker) ++ [.run .main])]
    (spawn, collectingScene)

/-- An allow and a finish after it, with turns of the worker and wake-ups between. -/
def callsAfterJoin : List Event × Threaded × Scene Headless.World Rehearsal.Journal :=
  enact Headless.facades
    [(.allow ⟨8, 0⟩, [.run .worker, .run .main, .wake .main]),
      (.finish, [.wake .worker, .run .main, .run .worker, .run .main, .run .main])]
    joinedWithRequest.2

theorem inert_after_join_open_request :
    calls joinedWithRequest.1 = [.allow ⟨7, 0⟩, .join] ∧ joinedWithRequest.2.1.main = .idle ∧
      joinedWithRequest.2.1.shared.stamp = some ⟨7, 0⟩ ∧ joinedWithRequest.2.1.pending ∧
      callsAfterJoin.2.1.worker = .exited ∧ callsAfterJoin.2.1.shared.updateRequested = false ∧
      begun callsAfterJoin.1 = [] ∧ callsAfterJoin.1.contains (.belated ⟨8, 0⟩) ∧
      callsAfterJoin.2.1.pending = false ∧
      take Headless.facades (List.replicate 3 (.run .main)) { callsAfterJoin.2.1 with main := .finishing }
        callsAfterJoin.2.2 = (callsAfterJoin.2.1, callsAfterJoin.2.2.append .main
          [⟨.warn, "finish_update called without a matching allow_update"⟩]) := by
  have hr : Run Headless.facades (spawn, collectingScene) joinedWithRequest.1 joinedWithRequest.2 :=
    run_enact ..
  have hr' : Run Headless.facades joinedWithRequest.2 callsAfterJoin.1 callsAfterJoin.2 :=
    run_enact ..
  obtain ⟨⟨-, hw, hu⟩, ⟨-, hb, -⟩, -, -, hcall, hp⟩ := inert_after_join hr (by decide) rfl hr'
  have hpending : callsAfterJoin.2.1.pending = false := by
    rcases hp (by decide) with hm | hp
    · exact absurd hm (by decide)
    · exact hp
  exact ⟨rfl, rfl, rfl, rfl, hw, hu, hb, by decide, hpending,
    (hcall rfl .finish).1 (List.replicate 3 (.run .main)) (by decide)⟩

end Threaded

end FrameLoop.Update
