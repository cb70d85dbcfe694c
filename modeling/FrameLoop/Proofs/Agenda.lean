import FrameLoop.Proofs.Chronicle

/-! Agendas: lists of tasks in a fixed order, each behind a gate that is looked at when its turn
comes. A run through an agenda does the tasks whose gates are open, up to the first that fails. -/

namespace FrameLoop

/-- What a frame has taken note of. -/
structure Notes where
  visible : Bool
  paused : Bool
  guiActive : Bool
  sessionActive : Bool
  scriptsEnabled : Bool

def Notes.blank : Notes := ⟨false, false, false, false, false⟩

/-- The world as it is when an item comes up, and what has been noted before. -/
structure Moment (σ : Type) where
  world : σ
  notes : Notes

inductive Item (σ : Type)
  /-- Takes note of something. -/
  | note (look : Moment σ → Notes)
  | task (gate : Moment σ → Bool) (task : Moment σ → Task)
  /-- Runs the local scripts from the first on. -/
  | drain (patience : Nat) (gate : Moment σ → Bool)
  /-- Ends the run early. -/
  | halt (gate : Moment σ → Bool)
  /-- Reports or the update of the scripting engine may come here. -/
  | meanwhile (frame : Nat)

variable {σ κ α β : Type}

/-- A run through an agenda with the deeds it comes to: it ends with `true` after the last item,
with `false` where it is halted, and with an error where a task fails. -/
inductive Follows (F : Facades σ κ) :
    List (Item σ) → Moment σ → List (Deed σ) → Except Stop Bool → Moment σ → Prop
  | done (m : Moment σ) : Follows F [] m [] (.ok true) m
  | note {look rest m deeds r m'} :
    Follows F rest ⟨m.world, look m⟩ deeds r m' → Follows F (.note look :: rest) m deeds r m'
  | closed {gate task rest m deeds r m'} :
    gate m = false → Follows F rest m deeds r m' → Follows F (.task gate task :: rest) m deeds r m'
  | task {gate task rest m w deeds r m'} :
    gate m = true → Does F m.world (task m) (.ok ()) w → Follows F rest ⟨w, m.notes⟩ deeds r m' →
      Follows F (.task gate task :: rest) m (⟨m.world, task m, .ok ()⟩ :: deeds) r m'
  | failed {gate task rest m w f} :
    gate m = true → Does F m.world (task m) (.error f) w →
      Follows F (.task gate task :: rest) m [⟨m.world, task m, .error f⟩] (.error (.failure f))
        ⟨w, m.notes⟩
  | undrained {patience gate rest m deeds r m'} :
    gate m = false → Follows F rest m deeds r m' →
      Follows F (.drain patience gate :: rest) m deeds r m'
  | drained {patience gate rest m deeds w more r m'} :
    gate m = true →
    Drains F (patience + 1) (F.withLocalScripts (F.localScripts m.world).start m.world) deeds
      (.ok ()) w →
    Follows F rest ⟨w, m.notes⟩ more r m' →
      Follows F (.drain patience gate :: rest) m (deeds ++ more) r m'
  | stuck {patience gate rest m deeds stop w} :
    gate m = true →
    Drains F (patience + 1) (F.withLocalScripts (F.localScripts m.world).start m.world) deeds
      (.error stop) w →
      Follows F (.drain patience gate :: rest) m deeds (.error stop) ⟨w, m.notes⟩
  | halted {gate rest m} : gate m = true → Follows F (.halt gate :: rest) m [] (.ok false) m
  | unhalted {gate rest m deeds r m'} :
    gate m = false → Follows F rest m deeds r m' → Follows F (.halt gate :: rest) m deeds r m'
  | meanwhile {frame rest m w deeds r m'} :
    Meanwhile F frame m.world w → Follows F rest ⟨w, m.notes⟩ deeds r m' →
      Follows F (.meanwhile frame :: rest) m deeds r m'

variable {F : Facades σ κ} {items rest : List (Item σ)} {m m' m'' : Moment σ}
  {deeds more : List (Deed σ)} {r : Except Stop Bool}

theorem Follows.append (h : Follows F items m deeds (.ok true) m')
    (h' : Follows F rest m' more r m'') : Follows F (items ++ rest) m (deeds ++ more) r m'' := by
  generalize hr : (Except.ok true : Except Stop Bool) = a at h
  induction h with
  | done => exact h'
  | note _ ih => exact .note (ih h' hr)
  | closed hg _ ih => exact .closed hg (ih h' hr)
  | task hg hd _ ih => exact .task hg hd (ih h' hr)
  | undrained hg _ ih => exact .undrained hg (ih h' hr)
  | drained hg hd _ ih =>
    rw [List.append_assoc]
    exact .drained hg hd (ih h' hr)
  | unhalted hg _ ih => exact .unhalted hg (ih h' hr)
  | meanwhile hm _ ih => exact .meanwhile hm (ih h' hr)
  | failed | stuck | halted => cases hr

/-- Where a run stops early, nothing of what follows matters. -/
theorem Follows.stop (h : Follows F items m deeds r m') (hr : r ≠ .ok true) :
    Follows F (items ++ rest) m deeds r m' := by
  induction h with
  | done => exact absurd rfl hr
  | note _ ih => exact .note (ih hr)
  | closed hg _ ih => exact .closed hg (ih hr)
  | task hg hd _ ih => exact .task hg hd (ih hr)
  | failed hg hd => exact .failed hg hd
  | undrained hg _ ih => exact .undrained hg (ih hr)
  | drained hg hd _ ih => exact .drained hg hd (ih hr)
  | stuck hg hd => exact .stuck hg hd
  | halted hg => exact .halted hg
  | unhalted hg _ ih => exact .unhalted hg (ih hr)
  | meanwhile hm _ ih => exact .meanwhile hm (ih hr)

/-- A run through a longer agenda runs through its beginning, and through the rest if it gets
there. -/
theorem Follows.split (h : Follows F (items ++ rest) m deeds r m') :
    (Follows F items m deeds r m' ∧ r ≠ .ok true) ∨
      ∃ before after m₁, deeds = before ++ after ∧ Follows F items m before (.ok true) m₁ ∧
        Follows F rest m₁ after r m' := by
  induction items generalizing m deeds with
  | nil => exact .inr ⟨[], deeds, m, rfl, .done m, h⟩
  | cons item items ih =>
    cases h with
    | note h =>
      rcases ih h with ⟨h, hr⟩ | ⟨before, after, m₁, hd, h, h'⟩
      · exact .inl ⟨.note h, hr⟩
      · exact .inr ⟨before, after, m₁, hd, .note h, h'⟩
    | closed hg h =>
      rcases ih h with ⟨h, hr⟩ | ⟨before, after, m₁, hd, h, h'⟩
      · exact .inl ⟨.closed hg h, hr⟩
      · exact .inr ⟨before, after, m₁, hd, .closed hg h, h'⟩
    | task hg hdo h =>
      rcases ih h with ⟨h, hr⟩ | ⟨before, after, m₁, rfl, h, h'⟩
      · exact .inl ⟨.task hg hdo h, hr⟩
      · exact .inr ⟨_ :: before, after, m₁, rfl, .task hg hdo h, h'⟩
    | failed hg hdo => exact .inl ⟨.failed hg hdo, nofun⟩
    | undrained hg h =>
      rcases ih h with ⟨h, hr⟩ | ⟨before, after, m₁, hd, h, h'⟩
      · exact .inl ⟨.undrained hg h, hr⟩
      · exact .inr ⟨before, after, m₁, hd, .undrained hg h, h'⟩
    | drained hg hdr h =>
      rcases ih h with ⟨h, hr⟩ | ⟨before, after, m₁, rfl, h, h'⟩
      · exact .inl ⟨.drained hg hdr h, hr⟩
      · exact .inr ⟨_, after, m₁, (List.append_assoc ..).symm, .drained hg hdr h, h'⟩
    | stuck hg hdr => exact .inl ⟨.stuck hg hdr, nofun⟩
    | halted hg => exact .inl ⟨.halted hg, nofun⟩
    | unhalted hg h =>
      rcases ih h with ⟨h, hr⟩ | ⟨before, after, m₁, hd, h, h'⟩
      · exact .inl ⟨.unhalted hg h, hr⟩
      · exact .inr ⟨before, after, m₁, hd, .unhalted hg h, h'⟩
    | meanwhile hm h =>
      rcases ih h with ⟨h, hr⟩ | ⟨before, after, m₁, hd, h, h'⟩
      · exact .inl ⟨.meanwhile hm h, hr⟩
      · exact .inr ⟨before, after, m₁, hd, .meanwhile hm h, h'⟩

/-- Nothing is done after a failure, and the result tells of it. -/
def CutShort {α : Type} (deeds : List (Deed σ)) : Except Stop α → Prop
  | .error (.failure f) => ∃ init last,
    deeds = init ++ [last] ∧ last.answer = .error f ∧ ∀ d ∈ init, d.answer = .ok ()
  | .error .endless | .ok _ => ∀ d ∈ deeds, d.answer = .ok ()

theorem CutShort.nothing {r : Except Stop α} (hr : ∀ f, r ≠ .error (.failure f)) :
    CutShort ([] : List (Deed σ)) r := by
  rcases r with (f | _) | _
  · exact absurd rfl (hr f)
  · simp [CutShort]
  · simp [CutShort]

theorem CutShort.failed {d : Deed σ} {f : Failure} (hd : d.answer = .error f) :
    CutShort [d] (.error (.failure f) : Except Stop α) :=
  ⟨[], d, rfl, hd, by simp⟩

theorem CutShort.after {r : Except Stop α} (hb : ∀ d ∈ deeds, d.answer = .ok ())
    (h : CutShort more r) : CutShort (deeds ++ more) r := by
  have hall : (∀ d ∈ more, d.answer = .ok ()) → ∀ d ∈ deeds ++ more, d.answer = .ok () := by
    intro hm d hd
    rcases List.mem_append.mp hd with hd | hd
    · exact hb d hd
    · exact hm d hd
  rcases r with (f | _) | _
  · obtain ⟨init, last, rfl, hl, hi⟩ := h
    refine ⟨deeds ++ init, last, (List.append_assoc ..).symm, hl, fun d hd => ?_⟩
    rcases List.mem_append.mp hd with hd | hd
    · exact hb d hd
    · exact hi d hd
  · exact hall h
  · exact hall h

theorem CutShort.cons {r : Except Stop α} {d : Deed σ} (hd : d.answer = .ok ())
    (h : CutShort deeds r) : CutShort (d :: deeds) r := by
  have hone : ∀ d' ∈ [d], d'.answer = .ok () := by simpa using hd
  exact h.after hone

theorem Drains.cutShort {patience : Nat} {w w' : σ} {ending : Except Stop Unit}
    (h : Drains F patience w deeds ending w') : CutShort deeds ending := by
  induction h with
  | endless | spent => exact .nothing (by simp)
  | run _ _ _ ih => exact ih.cons rfl
  | failed => exact .failed rfl

theorem Follows.cutShort (h : Follows F items m deeds r m') : CutShort deeds r := by
  induction h with
  | done | halted => exact .nothing (by simp)
  | task _ _ _ ih => exact ih.cons rfl
  | failed => exact .failed rfl
  | drained _ hd _ ih => exact ih.after hd.cutShort
  | @stuck _ _ _ _ _ stop _ _ hd =>
    have hc := hd.cutShort
    cases stop <;> exact hc
  | note _ ih | closed _ _ ih | undrained _ _ ih | unhalted _ _ ih | meanwhile _ _ ih => exact ih

/-- The place of a task in an iteration. -/
def Task.place : Task → Nat
  | .call (.advanceRenderer _ _) => 0
  | .call (.updateInput _ _) => 1
  | .call .pausePlayback => 2
  | .call .resumePlayback => 3
  | .call (.updateAudio _) => 4
  | .call .synchronize => 5
  | .call (.updateState _) => 6
  | .runScript _ => 7
  | .call .runGlobalScripts => 8
  | .call .markCellUnchanged => 9
  | .call (.advanceTime _) => 10
  | .call (.rechargeItems _) => 11
  | .call (.updateMechanics _ _) => 12
  | .call .endSession => 13
  | .stepPhysics _ _ _ => 14
  | .call (.updateWorld _ _) => 15
  | .call (.updateGui _) => 16
  | .call .eventTraversal => 17
  | .call .updateTraversal => 18
  | .call .updateWindowManager => 19
  | .call .renderingTraversals => 20
  | .call _ => 21

/-- The order of tasks: only the local scripts are run several at a time. -/
def Task.Precedes (a b : Task) : Prop :=
  a.place < b.place ∨ ∃ entry entry', a = .runScript entry ∧ b = .runScript entry'

/-- The tasks of an agenda have increasing places, from some place on. -/
def InOrder : Nat → List (Item σ) → Prop
  | _, [] => True
  | place, .note _ :: rest | place, .halt _ :: rest | place, .meanwhile _ :: rest =>
    InOrder place rest
  | place, .task _ task :: rest =>
    ∃ place' ≥ place, (∀ m, (task m).place = place') ∧ InOrder (place' + 1) rest
  | place, .drain _ _ :: rest => place ≤ 7 ∧ InOrder 8 rest

theorem Drains.runs {patience : Nat} {w w' : σ} {ending : Except Stop Unit}
    (h : Drains F patience w deeds ending w') :
    ∀ d ∈ deeds, ∃ entry, d.task = .runScript entry := by
  induction h with
  | endless | spent => simp
  | run _ _ _ ih => simpa using ih
  | failed => simp

/-- What is done in a place has its successors in later places. -/
structure Queued (place : Nat) (deeds : List (Deed σ)) : Prop where
  from_place : ∀ d ∈ deeds, place ≤ d.task.place
  in_order : deeds.Pairwise fun a b => a.task.Precedes b.task

theorem Queued.nil (place : Nat) : Queued place ([] : List (Deed σ)) :=
  ⟨by simp, .nil⟩

theorem Queued.cons {place : Nat} {d : Deed σ} (hd : place ≤ d.task.place)
    (h : Queued (d.task.place + 1) deeds) : Queued place (d :: deeds) := by
  refine ⟨fun d' hd' => ?_, .cons (fun d' hd' => ?_) h.in_order⟩
  · rcases List.mem_cons.mp hd' with rfl | hd'
    · exact hd
    · have := h.from_place d' hd'
      omega
  · have := h.from_place d' hd'
    exact .inl (by omega)

theorem Queued.drained {place patience : Nat} {w w' : σ} {ending : Except Stop Unit}
    (hp : place ≤ 7) (hd : Drains F patience w deeds ending w') (h : Queued 8 more) :
    Queued place (deeds ++ more) := by
  have hruns := hd.runs
  have hplace : ∀ d ∈ deeds, d.task.place = 7 := by
    intro d hd
    obtain ⟨entry, he⟩ := hruns d hd
    rw [he]
    rfl
  refine ⟨fun d hd => ?_, List.pairwise_append.mpr ⟨?_, h.in_order, fun a ha b hb => ?_⟩⟩
  · rcases List.mem_append.mp hd with hd | hd
    · rw [hplace d hd]
      exact hp
    · have := h.from_place d hd
      omega
  · refine List.pairwise_iff_forall_sublist.mpr fun {a b} hab => ?_
    obtain ⟨entry, ha⟩ := hruns a (hab.subset (by simp))
    obtain ⟨entry', hb⟩ := hruns b (hab.subset (by simp))
    exact .inr ⟨entry, entry', ha, hb⟩
  · have := hplace a ha
    have := h.from_place b hb
    exact .inl (by omega)

theorem Queued.mono {place place' : Nat} (hp : place ≤ place') (h : Queued place' deeds) :
    Queued place deeds :=
  ⟨fun d hd => Nat.le_trans hp (h.from_place d hd), h.in_order⟩

theorem Follows.queued {place : Nat} (h : Follows F items m deeds r m')
    (ho : InOrder place items) : Queued place deeds := by
  induction h generalizing place with
  | done | halted => exact .nil _
  | note _ ih | unhalted _ _ ih | meanwhile _ _ ih => exact ih ho
  | undrained _ _ ih =>
    obtain ⟨hp, ho⟩ := ho
    exact (ih ho).mono (by omega)
  | closed _ _ ih =>
    obtain ⟨place', hp, -, ho⟩ := ho
    exact (ih ho).mono (by omega)
  | @task _ _ _ m _ _ _ _ _ _ _ ih =>
    obtain ⟨place', hp, ht, ho⟩ := ho
    exact .cons (by rw [ht m]; exact hp) (by rw [ht m]; exact ih ho)
  | @failed _ _ _ m _ _ _ _ =>
    obtain ⟨place', hp, ht, -⟩ := ho
    exact .cons (by rw [ht m]; exact hp) (.nil _)
  | drained _ hd _ ih => exact .drained ho.1 hd (ih ho.2)
  | stuck _ hd => simpa using Queued.drained ho.1 hd (.nil 8)

/-- An attempt comes to a run through an agenda: `goesOn` tells from its result whether what
follows is still to come, and then `N` holds of the moment. -/
def Plays (F : Facades σ κ) (items : List (Item σ)) (n : Notes)
    (act : Attempt Stop (Chronicle σ) κ α) (goesOn : α → Bool) (N : Moment σ → Prop)
    (s : Scene (Chronicle σ) κ) : Prop :=
  ∃ deeds m, (act.run s).2.world = ⟨m.world, s.world.deeds ++ deeds⟩ ∧
    Follows F items ⟨s.world.world, n⟩ deeds ((act.run s).1.map goesOn) m ∧
      ((act.run s).1.map goesOn = .ok true → N m)

/-- An attempt that goes on unless it fails, and that notes nothing for what follows. -/
abbrev Performs (F : Facades σ κ) (items : List (Item σ)) (n : Notes)
    (act : Attempt Stop (Chronicle σ) κ Unit) (s : Scene (Chronicle σ) κ) : Prop :=
  Plays F items n act (fun _ => true) (·.notes = n) s

section

variable {n : Notes} {N N' : Moment σ → Prop} {s : Scene (Chronicle σ) κ}
  {act : Attempt Stop (Chronicle σ) κ α} {k : α → Attempt Stop (Chronicle σ) κ β}
  {goesOn : α → Bool} {goesOn' : β → Bool} {gate : Moment σ → Bool} {task : Moment σ → Task}

theorem Plays.pure {a : α} (hg : goesOn a = true) (hn : N ⟨s.world.world, n⟩) :
    Plays F [] n (Pure.pure a) goesOn N s := by
  refine ⟨[], ⟨s.world.world, n⟩, by rw [List.append_nil]; rfl, ?_, fun _ => hn⟩
  have hr : ((Pure.pure a : Attempt Stop (Chronicle σ) κ α).run s).1.map goesOn = .ok true :=
    congrArg Except.ok hg
  rw [hr]
  exact .done _

theorem Plays.mono (h : Plays F items n act goesOn N s) (hn : ∀ m, N m → N' m) :
    Plays F items n act goesOn N' s := by
  obtain ⟨deeds, m, hw, hf, hm⟩ := h
  exact ⟨deeds, m, hw, hf, fun hr => hn m (hm hr)⟩

theorem Plays.bind (h : Plays F items n act goesOn N s)
    (hgo : ∀ a m s', goesOn a = true → N m → s'.world.world = m.world →
      Plays F rest m.notes (k a) goesOn' N' s')
    (hstop : ∀ a s', goesOn a = false →
      ((k a).run s').2 = s' ∧ ((k a).run s').1.map goesOn' = .ok false) :
    Plays F (items ++ rest) n (act >>= k) goesOn' N' s := by
  obtain ⟨deeds, m, hw, hf, hn⟩ := h
  -- the rest of the attempt begins where this part has ended
  have hbind : (act >>= k).run s = ExceptT.bindCont k (act.run s).1 (act.run s).2 := rfl
  cases ha : (act.run s).1 with
  | error e =>
    rw [ha] at hbind hf
    have hrun : (act >>= k).run s = (.error e, (act.run s).2) := hbind
    refine ⟨deeds, m, by rw [hrun, hw], ?_, ?_⟩
    · rw [hrun]
      exact hf.stop nofun
    · rw [hrun]
      exact nofun
  | ok a =>
    rw [ha] at hbind hf hn
    have hrun : (act >>= k).run s = (k a).run (act.run s).2 := hbind
    cases hg : goesOn a with
    | true =>
      have hr : (Except.ok a : Except Stop α).map goesOn = .ok true := congrArg Except.ok hg
      rw [hr] at hf hn
      obtain ⟨more, m', hw', hf', hn'⟩ :=
        hgo a m (act.run s).2 hg (hn rfl) (congrArg Chronicle.world hw)
      rw [hw] at hw' hf'
      refine ⟨deeds ++ more, m', ?_, ?_, ?_⟩
      · rw [hrun, hw', List.append_assoc]
      · rw [hrun]
        exact hf.append hf'
      · rw [hrun]
        exact hn'
    | false =>
      obtain ⟨hs, hr⟩ := hstop a (act.run s).2 hg
      have hr' : (Except.ok a : Except Stop α).map goesOn = .ok false := congrArg Except.ok hg
      rw [hr'] at hf
      refine ⟨deeds, m, ?_, ?_, ?_⟩
      · rw [hrun, hs, hw]
      · rw [hrun, hr]
        exact hf.stop nofun
      · rw [hrun, hr]
        exact nofun

theorem Plays.andThen (h : Plays F items n act (fun _ => true) N s)
    (hk : ∀ a m s', N m → s'.world.world = m.world → Plays F rest m.notes (k a) goesOn' N' s') :
    Plays F (items ++ rest) n (act >>= k) goesOn' N' s :=
  h.bind (fun a m s' _ => hk a m s') nofun

theorem Performs.bind {act : Attempt Stop (Chronicle σ) κ Unit}
    {k : Unit → Attempt Stop (Chronicle σ) κ β} (h : Performs F items n act s)
    (hk : ∀ s, Plays F rest n (k ()) goesOn' N' s) :
    Plays F (items ++ rest) n (act >>= k) goesOn' N' s :=
  Plays.andThen h fun _ _ s' hn _ => hn ▸ hk s'

/-- One item more. -/
theorem Performs.cons {item : Item σ} {act : Attempt Stop (Chronicle σ) κ Unit}
    {k : Unit → Attempt Stop (Chronicle σ) κ β} (h : Performs F [item] n act s)
    (hk : ∀ s, Plays F rest n (k ()) goesOn' N' s) :
    Plays F (item :: rest) n (act >>= k) goesOn' N' s :=
  h.bind hk

theorem Plays.asking {query : Chronicle σ → β} {k : β → Attempt Stop (Chronicle σ) κ α}
    (h : Plays F items n (k (query s.world)) goesOn N s) :
    Plays F items n (Orchestrator.ask query >>= k) goesOn N s := h

theorem Plays.note {look : Moment σ → Notes}
    (h : Plays F rest (look ⟨s.world.world, n⟩) act goesOn N s) :
    Plays F (.note look :: rest) n act goesOn N s := by
  obtain ⟨deeds, m, hw, hf, hn⟩ := h
  exact ⟨deeds, m, hw, .note hf, hn⟩

theorem Plays.closed (hg : gate ⟨s.world.world, n⟩ = false) (h : Plays F rest n act goesOn N s) :
    Plays F (.task gate task :: rest) n act goesOn N s := by
  obtain ⟨deeds, m, hw, hf, hn⟩ := h
  exact ⟨deeds, m, hw, .closed hg hf, hn⟩

theorem Plays.undrained {patience : Nat} (hg : gate ⟨s.world.world, n⟩ = false)
    (h : Plays F rest n act goesOn N s) :
    Plays F (.drain patience gate :: rest) n act goesOn N s := by
  obtain ⟨deeds, m, hw, hf, hn⟩ := h
  exact ⟨deeds, m, hw, .undrained hg hf, hn⟩

theorem Plays.unhalted (hg : gate ⟨s.world.world, n⟩ = false)
    (h : Plays F rest n act goesOn N s) : Plays F (.halt gate :: rest) n act goesOn N s := by
  obtain ⟨deeds, m, hw, hf, hn⟩ := h
  exact ⟨deeds, m, hw, .unhalted hg hf, hn⟩

theorem Plays.halted {a : α} (hg : gate ⟨s.world.world, n⟩ = true) (ha : goesOn a = false) :
    Plays F (.halt gate :: rest) n (Pure.pure a) goesOn N s := by
  have hr : ((Pure.pure a : Attempt Stop (Chronicle σ) κ α).run s).1.map goesOn = .ok false :=
    congrArg Except.ok ha
  refine ⟨[], ⟨s.world.world, n⟩, by rw [List.append_nil]; rfl, ?_, ?_⟩
  · rw [hr]
    exact .halted hg
  · rw [hr]
    exact nofun

theorem Performs.idle {frame : Nat} {act : Act (Chronicle σ) κ Unit} (h : Idles F frame act)
    (s : Scene (Chronicle σ) κ) : Performs F [.meanwhile frame] n (ExceptT.lift act) s := by
  obtain ⟨w, hw, hm⟩ := h s
  refine ⟨[], ⟨w, n⟩, ?_, .meanwhile hm (.done _), fun _ => rfl⟩
  rw [List.append_nil]
  exact hw

/-- A task whose answer is heeded. -/
theorem Performs.of_answer {answer : Except Failure Unit} {w : σ}
    {act : Attempt Stop (Chronicle σ) κ Unit} (hg : gate ⟨s.world.world, n⟩ = true)
    (hd : Does F s.world.world (task ⟨s.world.world, n⟩) answer w)
    (hr : (act.run s).1 = answer.mapError .failure)
    (hw : (act.run s).2.world =
      ⟨w, s.world.deeds ++ [⟨s.world.world, task ⟨s.world.world, n⟩, answer⟩]⟩) :
    Performs F [.task gate task] n act s := by
  refine ⟨_, ⟨w, n⟩, hw, ?_, fun _ => rfl⟩
  rw [hr]
  cases answer with
  | ok _ => exact .task hg hd (.done _)
  | error f => exact .failed hg hd

theorem Performs.call {c : Call} (hg : gate ⟨s.world.world, n⟩ = true)
    (ht : task ⟨s.world.world, n⟩ = .call c) :
    Performs F [.task gate task] n (Orchestrator.call F.chronicled c) s := by
  have hd : Does F s.world.world (task ⟨s.world.world, n⟩)
      (c.heeded (F.perform c s.world.world).answer) (F.perform c s.world.world).world :=
    ht ▸ .call c _
  refine .of_answer hg hd rfl ?_
  rw [ht]
  rfl

theorem Performs.tell {c : Call} (hc : c.fallible = false) (hg : gate ⟨s.world.world, n⟩ = true)
    (ht : task ⟨s.world.world, n⟩ = .call c) :
    Performs F [.task gate task] n (Orchestrator.tell F.chronicled c) s := by
  have hd : Does F s.world.world (task ⟨s.world.world, n⟩)
      (c.heeded (F.perform c s.world.world).answer) (F.perform c s.world.world).world :=
    ht ▸ .call c _
  have hok : c.heeded (F.perform c s.world.world).answer = .ok () := by simp [Call.heeded, hc]
  refine .of_answer hg hd ?_ ?_
  · rw [hok]
    rfl
  · rw [ht]
    rfl

end

end FrameLoop
