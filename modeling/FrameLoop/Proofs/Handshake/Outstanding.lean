import FrameLoop.Proofs.Alike
import FrameLoop.Proofs.Handshake.Pairs

/-! What the worker still owes of the updates that were accepted. A turn changes what is done and
what is owed, but not what both come to together. -/

namespace FrameLoop

variable {σ κ : Type} [StatsSink κ]

/-- A property that passes from the parts of an update to what is owed. -/
structure Owing (P : ∀ {α : Type}, Act σ κ α → Prop) (F : Facades σ κ) : Prop where
  timing : ∀ stamp, Timing P stamp
  perform : ∀ stamp, P (Update.perform F .worker stamp)

theorem Respects.owing (F : Facades σ κ) : Owing Respects F where
  timing := Respects.timing
  perform := Respects.perform .worker

namespace Update

variable (F : Facades σ κ)

/-- The rest of an update that the worker has begun. -/
def WorkerPoint.rest : WorkerPoint → Act σ κ Unit
  | updating stamp start => do
    perform F .worker stamp
    Scene.closePhase .lua stamp start
  | closing stamp start => Scene.closePhase .lua stamp start
  | writing frame timings => timings.forM fun (name, value) => Scene.setAttribute frame name value
  | _ => return

theorem WorkerPoint.rest_woken (w : WorkerPoint) :
    (w.woken.rest F : Act σ κ Unit) = w.rest F := by
  cases w <;> rfl

/-- Updates one after the other. -/
def catchUp (stamps : List Stamp) : Act σ κ Unit := stamps.forM (Update.run F .worker)

namespace Threaded

/-- The rest of the update that was begun, and those that were not. -/
def outstanding (t : Threaded) : Act σ κ Unit := do
  t.worker.rest F
  catchUp F (starting.held t)

end Threaded

variable {F} {P : ∀ {α : Type}, Act σ κ α → Prop}

theorem catchUp_append (stamps more : List Stamp) (s : Scene σ κ) :
    (catchUp F (stamps ++ more) s).2 = (catchUp F more (catchUp F stamps s).2).2 := by
  induction stamps generalizing s with
  | nil => rfl
  | cons stamp stamps ih => exact ih _

end Update

namespace Owing

open Update

variable {F : Facades σ κ} {P : ∀ {α : Type}, Act σ κ α → Prop}

theorem chains (h : Owing P F) : Chains P := (h.timing ⟨0, 0⟩).toChains

theorem run (h : Owing P F) (stamp : Stamp) : P (Update.run F .worker stamp) :=
  have ht := h.timing stamp
  ht.bind ht.now fun _ => ht.bind (h.perform stamp) fun _ => ht.closePhase _ _

theorem catchUp (h : Owing P F) (stamps : List Stamp) : P (catchUp F stamps) :=
  h.chains.forM h.run

theorem rest (h : Owing P F) (w : WorkerPoint) : P (w.rest F) := by
  cases w with
  | updating stamp start =>
    exact h.chains.bind (h.perform stamp) fun _ => (h.timing stamp).closePhase _ _
  | closing stamp start => exact (h.timing stamp).closePhase _ _
  | writing frame timings => exact h.chains.forM fun a => (h.timing ⟨frame, 0⟩).setAttribute a.1 a.2
  | _ => exact h.chains.pure _

theorem outstanding (h : Owing P F) (t : Threaded) : P (t.outstanding F) :=
  h.chains.bind (h.rest _) fun _ => h.catchUp _

end Owing

namespace Update.Threaded

variable {F : Facades σ κ} {t t' : Threaded} {s s' : Scene σ κ} {next : Turn}

omit [StatsSink κ] in
theorem worker_of_mainStep (h : mainStep t s = some (t', s')) :
    t'.worker = t.worker ∨ t'.worker = t.worker.woken := by
  have hs := shift_of_mainStep h
  cases hs <;> first | exact .inl rfl | exact .inr rfl

/-- A turn that begins no update leaves the rest of the one that was begun to be done, or does a
part of it. -/
theorem rest_of_turn (h : turn F t s next = some (t', s')) (hb : begun (events t s next) = []) :
    Scene.Alike (t'.worker.rest F s').2 (t.worker.rest F s).2 := by
  have hrespects := (Respects.owing F).rest
  rcases next with (_ | _) | (_ | _)
  · have hw : (t'.worker.rest F : Act σ κ Unit) = t.worker.rest F := by
      rcases worker_of_mainStep h with hw | hw
      · rw [hw]
      · rw [hw, WorkerPoint.rest_woken]
    rw [hw]
    have hs : Scene.Alike s' s := by
      rw [scene_of_mainStep h]
      exact ⟨rfl, rfl, rfl⟩
    exact (hrespects t.worker s' s hs).2
  · obtain ⟨⟨u, j, sl⟩, o, w, m, p, a⟩ := t
    cases w with
    | asleep | exited => cases h
    | locking | relocking =>
      cases o with
      | none => cases h; exact .refl _
      | some _ => cases h
    | testing => cases j <;> cases u <;> cases h <;> exact .refl _
    | taken st =>
      cases st with
      | none => cases h; exact ⟨rfl, rfl, rfl⟩
      | some st => cases hb
    | closing st i => cases h; exact .refl _
    | writing f l =>
      cases l with
      | nil => cases h; exact .refl _
      | cons _ _ => cases h; exact .refl _
    | _ => cases h; exact ⟨rfl, rfl, rfl⟩
  · by_cases hm : t.main = .finishAsleep
    · simp only [turn, hm, if_true] at h
      cases h
      exact .refl _
    · simp [turn, hm] at h
  · by_cases hw : t.worker = .asleep
    · simp only [turn, hw, if_true] at h
      cases h
      rw [hw]
      exact .refl _
    · simp [turn, hw] at h

/-- Only the worker begins an update, when it has a stamp in hand. -/
theorem taken_of_begun (hb : begun (events t s next) ≠ []) :
    ∃ stamp, next = .run .worker ∧ t.worker = .taken (some stamp) := by
  rcases next with (_ | _) | _
  · refine absurd ?_ hb
    cases hm : t.main <;> simp only [events, mainEvents, hm] <;> (try split) <;> rfl
  · cases hw : t.worker with
    | taken st =>
      cases st with
      | none => simp [events, workerEvents, hw, begun] at hb
      | some st => exact ⟨st, rfl, rfl⟩
    | writing f l =>
      cases l <;> simp [events, workerEvents, hw, begun, Event.begins] at hb
    | _ => simp [events, workerEvents, hw, begun, Event.begins] at hb
  · exact absurd rfl hb

/-- A turn leaves what is owed to be done, with the update that it accepts. -/
theorem outstanding_of_turn (hc : Coherent t) (h : turn F t s next = some (t', s')) :
    Scene.Alike (t'.outstanding F s').2
      (catchUp F (accepted (events t s next)) (t.outstanding F s).2).2 := by
  have hheld := starting_conserves.shift hc (shift_of_turn h)
  change starting.held t ++ accepted (events t s next) =
    begun (events t s next) ++ starting.held t' at hheld
  by_cases hb : begun (events t s next) = []
  · rw [hb, List.nil_append] at hheld
    have hrest := rest_of_turn h hb
    have hall := ((Respects.owing F).catchUp (starting.held t')) _ _ hrest
    have hsplit := catchUp_append (F := F) (starting.held t) (accepted (events t s next))
      (t.worker.rest F s).2
    rw [hheld] at hsplit
    change Scene.Alike (catchUp F (starting.held t') (t'.worker.rest F s').2).2 _
    exact hall.2.trans (hsplit ▸ .refl _)
  · obtain ⟨stamp, rfl, hw⟩ := taken_of_begun hb
    simp only [turn, workerStep, hw] at h
    obtain ⟨rfl, rfl⟩ := Prod.mk.inj (Option.some.inj h)
    have hevents : events t s (.run .worker) = [.began stamp] := by simp [events, workerEvents, hw]
    rw [hevents] at hheld ⊢
    have hlist : starting.held t = [stamp] ++ starting.held
        { t with worker := .updating stamp (Scene.now s).1 } :=
      (List.append_nil _).symm.trans hheld
    have hsplit := catchUp_append (F := F) [stamp]
      (starting.held { t with worker := .updating stamp (Scene.now s).1 }) s
    have howed : (t.outstanding F s).2 = (catchUp F (starting.held t) s).2 := by
      rw [outstanding, hw]
      rfl
    change Scene.Alike _ (t.outstanding F s).2
    rw [howed, hlist, hsplit]
    exact .refl _

theorem outstanding_of_take (hc : Coherent t) (turns : List Turn) (s : Scene σ κ) :
    Scene.Alike ((take F turns t s).1.outstanding F (take F turns t s).2).2
      (catchUp F (accepted (history F turns t s)) (t.outstanding F s).2).2 := by
  induction turns generalizing t s with
  | nil => exact .refl _
  | cons next rest ih =>
    simp only [take, history]
    cases hn : turn F t s next with
    | none => exact ih hc s
    | some y =>
      have hturn := outstanding_of_turn hc hn
      have hrest := ih (hc.shift (shift_of_turn hn)) y.2
      have hall := (Respects.owing F).catchUp (accepted (history F rest y.1 y.2)) _ _ hturn
      rw [accepted, List.flatMap_append, catchUp_append]
      exact hrest.trans hall.2

theorem Goes.outstanding {r : Request} {turns : List Turn} (hg : Goes F r t s turns)
    (hc : Coherent t) (hi : t.main = .idle) :
    Scene.Alike ((run F r.point t s).1.outstanding F (run F r.point t s).2).2
      (catchUp F (Event.asks (.called r)) (t.outstanding F s).2).2 := by
  have htake := outstanding_of_take (F := F) (hc.call hi r) turns
    { s with schedule := s.schedule.next.2 }
  rw [← hg.run_eq] at htake
  have hheld : starting.held { t with main := r.point } = starting.held t := by
    cases r <;> simp [starting, hi, Request.point, MainPoint.opened]
  have hsame : ({ t with main := r.point } : Threaded).outstanding F = t.outstanding F := by
    rw [Threaded.outstanding, Threaded.outstanding, hheld]
  have hscene : Scene.Alike { s with schedule := s.schedule.next.2 } s := ⟨rfl, rfl, rfl⟩
  have howed := (Respects.owing F).outstanding t _ _ hscene
  have hall := (Respects.owing F).catchUp (Event.asks (.called r)) _ _ howed.2
  have hacc := hg.accepts
  rw [hsame] at htake
  rw [callHistory] at hacc
  rw [hacc] at htake
  exact htake.trans hall.2

theorem outstanding_of_clear (h : Clear t) (s : Scene σ κ) : (t.outstanding F s).2 = s := by
  have hrest : (t.worker.rest F s).2 = s := by
    have hupdate := h.updating
    have htime := h.timing
    have hwrite := h.writing
    cases hw : t.worker with
    | updating st i => simp [updating, hw, WorkerPoint.underWay] at hupdate
    | closing st i => simp [timing, hw, WorkerPoint.timed] at htime
    | writing f l =>
      obtain rfl : l = [] := by simpa [writing, hw, WorkerPoint.unwritten] using hwrite
      rfl
    | _ => rfl
  have howed : (t.outstanding F s).2 =
      (catchUp F (starting.held t) (t.worker.rest F s).2).2 := rfl
  rw [howed, hrest, h.starting]
  rfl

end Update.Threaded

open Update

/-- The action takes no notice of a change of the world, and the change none of the action. -/
def Steers (g : σ → σ) {α : Type} (act : Act σ κ α) : Prop :=
  Respects act ∧ ∀ s : Scene σ κ, (act (s.onWorld g)).1 = (act s).1 ∧
    Scene.Alike (act (s.onWorld g)).2 ((act s).2.onWorld g)

theorem Steers.timing (g : σ → σ) (stamp : Stamp) :
    Timing (σ := σ) (κ := κ) (Steers g) stamp where
  pure a := ⟨Respects.chains.pure a, fun _ => ⟨rfl, .refl _⟩⟩
  bind {α β act f} hact hf := by
    refine ⟨Respects.chains.bind hact.1 fun a => (hf a).1, fun s => ?_⟩
    obtain ⟨hr, hs⟩ := hact.2 s
    obtain ⟨hr', hs'⟩ := (hf (act s).1).1 _ _ hs
    obtain ⟨hr'', hs''⟩ := (hf (act s).1).2 (act s).2
    change (f (act (s.onWorld g)).1 _).1 = _ ∧ Scene.Alike (f (act (s.onWorld g)).1 _).2 _
    rw [hr]
    exact ⟨hr'.trans hr'', hs'.trans hs''⟩
  now := ⟨Respects.now, fun _ => ⟨rfl, .refl _⟩⟩
  collects category := ⟨Respects.collects category, fun _ => ⟨rfl, .refl _⟩⟩
  setAttribute name value :=
    ⟨Respects.setAttribute stamp.number name value, fun _ => ⟨rfl, .refl _⟩⟩

theorem Steers.owing {F : Facades σ κ} {g : σ → σ}
    (hg : ∀ stamp w, updated F (g w) stamp = g (updated F w stamp)) : Owing (Steers g) F where
  timing := Steers.timing g
  perform stamp := by
    refine ⟨Respects.perform .worker stamp, fun s => ?_⟩
    rw [perform_eq, perform_eq]
    exact ⟨rfl, hg stamp s.world, rfl, rfl⟩

/-- What a look at the world tells is not changed by the action. -/
def Preserves {β : Type} (look : σ → β) {α : Type} (act : Act σ κ α) : Prop :=
  ∀ s, look (act s).2.world = look s.world

theorem Preserves.timing {β : Type} (look : σ → β) (stamp : Stamp) :
    Timing (σ := σ) (κ := κ) (Preserves look) stamp where
  pure _ _ := rfl
  bind hact hf s := (hf _ _).trans (hact s)
  now _ := rfl
  collects _ _ := rfl
  setAttribute _ _ _ := rfl

theorem Preserves.owing {F : Facades σ κ} {β : Type} {look : σ → β}
    (hl : ∀ stamp w, look (updated F w stamp) = look w) : Owing (Preserves look) F where
  timing := Preserves.timing look
  perform stamp s := by
    rw [perform_eq]
    exact hl stamp s.world

namespace Update.Threaded

variable {F : Facades σ κ} {t : Threaded} {s s' : Scene σ κ}

/-- Whatever the worker does when: an allow, a change of the world that takes no notice of updates
and the finish come to the same as the change and one update after it. -/
theorem Rested.around (ht : Rested t) (stamp : Stamp) {g : σ → σ}
    (hg : ∀ stamp w, updated F (g w) stamp = g (updated F w stamp))
    (hs : Scene.Alike s' ((run F (.allowing stamp) t s).2.onWorld g)) :
    Rested (run F .finishing (run F (.allowing stamp) t s).1 s').1 ∧
      Scene.Alike (run F .finishing (run F (.allowing stamp) t s).1 s').2
        (Update.run F .worker stamp (s.onWorld g)).2 := by
  obtain ⟨turns, hcall, hp⟩ := ht.allow (F := F) stamp s
  obtain ⟨turns', hcall', hy⟩ := hp.finish (F := F) s'
  refine ⟨hy, ?_⟩
  have hallow := (hcall.outstanding ht.coherent ht.idle).onWorld g
  have hfinish := hcall'.outstanding hp.coherent hp.idle
  simp only [Request.point] at hallow hfinish
  rw [outstanding_of_clear hy.clear] at hfinish
  rw [outstanding_of_clear ht.clear] at hallow
  have hsame := ((Respects.owing F).outstanding (run F (.allowing stamp) t s).1 _ _ hs).2
  have hpass := (((Steers.owing hg).outstanding (run F (.allowing stamp) t s).1).2
    (run F (.allowing stamp) t s).2).2
  have hback := (((Steers.owing hg).catchUp [stamp]).2 s).2
  exact (((hfinish.trans hsame).trans hpass).trans hallow).trans hback.symm

theorem Rested.look (ht : Rested t) (stamp : Stamp) (s : Scene σ κ) {β : Type} {look : σ → β}
    (hl : ∀ stamp w, look (updated F w stamp) = look w) :
    look (run F (.allowing stamp) t s).2.world = look s.world := by
  obtain ⟨turns, hcall, hp⟩ := ht.allow (F := F) stamp s
  have hallow := hcall.outstanding ht.coherent ht.idle
  simp only [Request.point] at hallow
  rw [outstanding_of_clear ht.clear] at hallow
  have howed := (Preserves.owing hl).outstanding (run F (.allowing stamp) t s).1
    (run F (.allowing stamp) t s).2
  have hrun := (Preserves.owing hl).catchUp [stamp] s
  exact howed.symm.trans ((congrArg look hallow.world).trans hrun)

end Update.Threaded

end FrameLoop
