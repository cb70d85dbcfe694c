import FrameLoop.Proofs.Changes
import FrameLoop.Proofs.Segments
import FrameLoop.Proofs.LoopMoves
import FrameLoop.Proofs.SimulationClock

/-! How the death of the player ends a session: while it is running and is played outside the
interface, after the mechanics of the frame, and not again before something has set it running
again. A session that is over is still updated. -/

namespace FrameLoop

variable {σ κ φ ω : Type}

def Deed.ends (d : Deed σ) : Bool := d.task = .call .endSession

def Change.ends (c : Change σ) : Bool := c.deed?.any Deed.ends

theorem Deed.ends_eq_false {d : Deed σ} (h : d.task.place ≠ 13) : d.ends = false := by
  rw [Deed.ends, decide_eq_false_iff_not]
  intro ht
  rw [ht] at h
  exact h rfl

/-- The task is done, unless one before it failed. -/
def DoneUnlessFailed (deeds : List (Deed σ)) (t : Task) : Prop :=
  (∃ d ∈ deeds, d.task = t) ∨ ∃ d ∈ deeds, d.task.Precedes t ∧ d.answer ≠ .ok ()

theorem DoneUnlessFailed.mono {deeds more : List (Deed σ)} {t : Task}
    (h : DoneUnlessFailed deeds t) (hs : deeds ⊆ more) : DoneUnlessFailed more t := by
  rcases h with ⟨d, hd, ht⟩ | ⟨d, hd, hfailed⟩
  · exact .inl ⟨d, hs hd, ht⟩
  · exact .inr ⟨d, hs hd, hfailed⟩

theorem Item.Meets.mono {N : Notes → Prop} {P Q : Deed σ → Prop} {item : Item σ}
    (h : item.Meets N P) (hpq : ∀ d, P d → Q d) : item.Meets N Q := by
  cases item with
  | note => exact h
  | task => exact fun m answer hn hg => hpq _ (h m answer hn hg)
  | drain => exact fun w entry answer => hpq _ (h w entry answer)
  | halt | meanwhile => trivial

/-- A task whose gate the notes keep open is done, unless one of those before it fails. -/
theorem Follows.reaches {F : Facades σ κ} {N : Notes → Prop} {items rest : List (Item σ)}
    {gate : Moment σ → Bool} {due : Moment σ → Task} {t : Task} {m m' : Moment σ}
    {deeds : List (Deed σ)} {r : Except Stop Bool}
    (h : Follows F (items ++ .task gate due :: rest) m deeds r m') (hr : r ≠ .error .endless)
    (hi : ∀ item ∈ items, item.Meets N fun d => d.task.place < t.place)
    (hhalt : ∀ gate, .halt gate ∉ items) (hn : N m.notes)
    (hdue : ∀ m, N m.notes → gate m = true ∧ due m = t) : DoneUnlessFailed deeds t := by
  rcases h.split with ⟨hstop, hne⟩ | ⟨before, after, m₁, rfl, hbefore, hrest⟩
  · have hhalted : r ≠ .ok false := by
      intro hfalse
      obtain ⟨gate, hmem⟩ := hstop.exists_halt hfalse
      exact hhalt gate hmem
    have hfailed : ¬∀ d ∈ deeds, d.answer = .ok () :=
      fun hall => hne (hstop.ends_iff.mpr ⟨hall, hhalted, hr⟩)
    obtain ⟨d, hd⟩ := Classical.not_forall.mp hfailed
    obtain ⟨hd, ha⟩ := Classical.not_imp.mp hd
    exact .inr ⟨d, hd, .inl ((hstop.meets hi hn).1 d hd), ha⟩
  · obtain ⟨hopen, hsame⟩ := hdue m₁ (hbefore.meets hi hn).2
    refine .inl ?_
    cases hrest with
    | closed hg => exact absurd (hg.symm.trans hopen) (by decide)
    | task | failed => exact ⟨_, List.mem_append_right _ List.mem_cons_self, hsame⟩

/-- Among the deeds of a frame the session is ended once: right after the mechanics, in the world
that they have left, where it was running and the player dead. -/
def EndsOnce (F : Facades σ κ) (dt : Single) (deeds : List (Deed σ)) : Prop :=
  ∃ before w after, let w' := (F.perform (.updateMechanics dt false) w).world
    deeds = before ++
        ⟨w, .call (.updateMechanics dt false), .ok ()⟩ :: ⟨w', .call .endSession, .ok ()⟩ :: after ∧
      F.session w' = .running ∧ F.playerDead w' = true ∧ ∀ d ∈ before ++ after, d.ends = false

theorem EndsOnce.within {F : Facades σ κ} {dt : Single} {deeds before after : List (Deed σ)}
    (h : EndsOnce F dt deeds) (hb : ∀ d ∈ before, d.ends = false)
    (ha : ∀ d ∈ after, d.ends = false) : EndsOnce F dt (before ++ deeds ++ after) := by
  obtain ⟨before', w, after', rfl, hrunning, hdead, hother⟩ := h
  obtain ⟨hb', ha'⟩ := List.forall_mem_append.mp hother
  refine ⟨before ++ before', w, after' ++ after, by simp, hrunning, hdead, ?_⟩
  exact List.forall_mem_append.mpr
    ⟨List.forall_mem_append.mpr ⟨hb, hb'⟩, List.forall_mem_append.mpr ⟨ha', ha⟩⟩

theorem EndsOnce.countP_eq {F : Facades σ κ} {dt : Single} {deeds : List (Deed σ)}
    (h : EndsOnce F dt deeds) : deeds.countP Deed.ends = 1 := by
  obtain ⟨before, w, after, rfl, -, -, hother⟩ := h
  obtain ⟨hb, ha⟩ := List.forall_mem_append.mp hother
  have hbefore : before.countP Deed.ends = 0 :=
    List.countP_eq_zero.mpr fun d hd => by simp [hb d hd]
  have hafter : after.countP Deed.ends = 0 :=
    List.countP_eq_zero.mpr fun d hd => by simp [ha d hd]
  simp [List.countP_append, hbefore, hafter, Deed.ends]

theorem EndsOnce.moment {F : Facades σ κ} {dt : Single} {deeds : List (Deed σ)} {d : Deed σ}
    (h : EndsOnce F dt deeds) (hd : d ∈ deeds) (he : d.ends) :
    F.session d.before = .running ∧ F.playerDead d.before = true ∧ ∃ before w after,
      deeds = before ++ ⟨w, .call (.updateMechanics dt false), .ok ()⟩ :: d :: after ∧
        d.before = (F.perform (.updateMechanics dt false) w).world := by
  obtain ⟨before, w, after, rfl, hrunning, hdead, hother⟩ := h
  obtain ⟨hb, ha⟩ := List.forall_mem_append.mp hother
  simp only [List.mem_append, List.mem_cons] at hd
  rcases hd with hd | rfl | rfl | hd
  · simp [hb d hd] at he
  · simp [Deed.ends] at he
  · exact ⟨hrunning, hdead, before, w, after, rfl, rfl⟩
  · simp [ha d hd] at he

namespace Change

variable {F : Facades σ κ} {c : Change σ}

theorem exists_deed (h : c.ends) : ∃ d, c.deed? = some d ∧ d.ends ∧ d.before = c.before := by
  obtain ⟨w, cause, w'⟩ := c
  cases cause with
  | task task answer => exact ⟨⟨w, task, answer⟩, rfl, by simpa [ends, deed?] using h, rfl⟩
  | register | report | update => cases h

theorem Made.ended (h : c.Made F) (hF : ∀ w, F.session (F.perform .endSession w).world = .ended)
    (he : c.ends) : F.session c.after = .ended := by
  cases h with
  | @task w w' task answer hd =>
    obtain rfl : task = .call .endSession := by simpa [ends, deed?, Deed.ends] using he
    rw [hd.call_eq.2]
    exact hF w
  | register | report | update => cases he

end Change

theorem countP_deedsIn (changes : List (Change σ)) :
    (deedsIn changes).countP Deed.ends = changes.countP Change.ends := by
  rw [deedsIn, List.countP_filterMap]
  refine List.countP_congr fun c _ => ?_
  rw [Change.ends]
  cases c.deed? <;> rfl

/-- Between two ends of the session something else has set it running again. -/
theorem Becomes.revived {F : Facades σ κ} {w w' : σ} {before between after : List (Change σ)}
    {c c' : Change σ} (h : Becomes F w (before ++ c :: (between ++ c' :: after)) w')
    (hF : ∀ w, F.session (F.perform .endSession w).world = .ended) (hc : c.ends)
    (hc' : F.session c'.before = .running) :
    ∃ r ∈ between, r.ends = false ∧ F.session r.before ≠ .running ∧ F.session r.after = .running := by
  obtain ⟨w₁, -, h⟩ := h.split
  cases h with
  | cons hmade h =>
    obtain ⟨w₂, hbetween, h⟩ := h.split
    have hended : F.session c.after ≠ .running := by
      rw [hmade.ended hF hc]
      nofun
    cases h with
    | cons _ _ =>
      obtain ⟨r, hmem, hbefore, hafter⟩ :=
        hbetween.exists_crossing (P := (F.session · = .running)) hended hc'
      refine ⟨r, hmem, Bool.eq_false_iff.mpr fun he => ?_, hbefore, hafter⟩
      rw [(hbetween.made r hmem).ended hF he] at hafter
      cases hafter

theorem exists_two_of_lt_countP {α : Type} {p : α → Bool} {l : List α} (h : 1 < l.countP p) :
    ∃ before x between y after, l = before ++ x :: (between ++ y :: after) ∧ p x ∧ p y := by
  induction l with
  | nil => cases h
  | cons x l ih =>
    by_cases hx : p x
    · rw [List.countP_cons_of_pos hx] at h
      obtain ⟨y, hy, hpy⟩ := List.countP_pos_iff.mp (Nat.lt_of_succ_lt_succ h)
      obtain ⟨between, after, rfl⟩ := List.append_of_mem hy
      exact ⟨[], x, between, y, after, rfl, hx, hpy⟩
    · rw [List.countP_cons_of_neg hx] at h
      obtain ⟨before, x', between, y, after, rfl, hx', hy⟩ := ih h
      exact ⟨x :: before, x', between, y, after, rfl, hx', hy⟩

namespace Orchestrator

variable {F : Facades σ κ} {o : Orchestrator} {dt : Single} {stamp : Stamp} {m m' : Moment σ}
  {deeds : List (Deed σ)} {r : Except Stop Bool}

/-- Only the mechanics may be followed by the end of the session. -/
theorem mechanics_ends (h : Follows F (mechanicsAgenda F dt) m deeds r m') :
    (∀ d ∈ deeds, d.ends = false) ∨ m.notes.guiActive = false ∧ EndsOnce F dt deeds := by
  obtain ⟨w, visible, paused, guiActive, sessionActive, scriptsEnabled⟩ := m
  cases h with
  | closed hg h =>
    cases h with
    | closed _ h =>
      cases h
      exact .inl nofun
    | task hg' | failed hg' => simp_all
  | failed => exact .inl (by simp [Deed.ends])
  | task _ hd h =>
    obtain ⟨-, rfl⟩ := hd.call_eq
    cases h with
    | closed _ h =>
      cases h
      exact .inl (by simp [Deed.ends])
    | @failed _ _ _ _ _ f _ hd' =>
      have hok : Except.error f = Except.ok () := hd'.call_eq.1
      cases hok
    | task hg' _ h =>
      cases h
      simp only [Bool.and_eq_true, beq_iff_eq, Bool.not_eq_true'] at hg'
      obtain ⟨⟨⟨-, hrunning⟩, rfl⟩, hdead⟩ := hg'
      exact .inr ⟨rfl, [], w, [], rfl, hrunning, hdead, nofun⟩

theorem scripts_keep (F : Facades σ κ) (patience : Nat) (dt : Single) (g a : Bool) :
    ∀ item ∈ scriptAgenda F patience dt,
      item.Meets (fun n => n.guiActive = g ∧ n.sessionActive = a) fun d => d.task.place < 12 := by
  simp +contextual [scriptAgenda, timeAgenda, Item.Meets, Task.place]

theorem simulationAgenda_append (F : Facades σ κ) (o : Orchestrator) (dt : Single) (stamp : Stamp)
    (rest : List (Item σ)) :
    simulationAgenda F o dt stamp ++ rest = scriptAgenda F o.patience dt ++
      (mechanicsAgenda F dt ++
        (physicsAgenda dt stamp ++ (worldAgenda dt ++ (guiAgenda dt stamp ++ rest)))) := by
  simp [simulationAgenda]

theorem simulation_ends {rest : List (Item σ)}
    (h : Follows F (simulationAgenda F o dt stamp ++ rest) m deeds r m')
    (hrest : ∀ item ∈ rest, item.Meets (fun _ => True) fun d => 13 < d.task.place) :
    (∀ d ∈ deeds, d.ends = false) ∨ m.notes.guiActive = false ∧ EndsOnce F dt deeds := by
  have hscripts := scripts_keep F o.patience dt m.notes.guiActive m.notes.sessionActive
  have hlate : ∀ item ∈ physicsAgenda dt stamp ++ (worldAgenda dt ++ (guiAgenda dt stamp ++ rest)),
      item.Meets (fun _ => True) fun d => 13 < d.task.place := by
    simp only [← List.append_assoc]
    refine List.forall_mem_append.mpr ⟨?_, hrest⟩
    simp [physicsAgenda, worldAgenda, guiAgenda, always, Item.Meets, Task.place]
  rw [simulationAgenda_append] at h
  rcases h.split with ⟨hstop, -⟩ | ⟨before, after, m₁, rfl, hbefore, h⟩
  · have hplace := (hstop.meets hscripts ⟨rfl, rfl⟩).1
    exact .inl fun d hd => Deed.ends_eq_false (by have := hplace d hd; omega)
  obtain ⟨hplace, hgui, -⟩ := hbefore.meets hscripts ⟨rfl, rfl⟩
  have hb : ∀ d ∈ before, d.ends = false := fun d hd =>
    Deed.ends_eq_false (by have := hplace d hd; omega)
  rcases h.split with ⟨hstop, -⟩ | ⟨during, late, m₂, rfl, hmechanics, h⟩
  · rcases mechanics_ends hstop with hnone | ⟨hg, honce⟩
    · exact .inl (List.forall_mem_append.mpr ⟨hb, hnone⟩)
    · have hwithin : EndsOnce F dt (before ++ after ++ []) :=
        honce.within hb (List.forall_mem_nil _)
      rw [List.append_nil] at hwithin
      exact .inr ⟨hgui ▸ hg, hwithin⟩
  · have hl : ∀ d ∈ late, d.ends = false := fun d hd =>
      Deed.ends_eq_false (by have := (h.meets hlate trivial).1 d hd; omega)
    rcases mechanics_ends hmechanics with hnone | ⟨hg, honce⟩
    · exact .inl (List.forall_mem_append.mpr ⟨hb, List.forall_mem_append.mpr ⟨hnone, hl⟩⟩)
    · rw [← List.append_assoc]
      exact .inr ⟨hgui ▸ hg, honce.within hb hl⟩

/-- As long as the session counts as active, the mechanics, the physics and the world have their
turn. -/
theorem simulation_reaches {rest : List (Item σ)}
    (h : Follows F (simulationAgenda F o dt stamp ++ rest) m deeds r m') (hr : r ≠ .error .endless)
    (hactive : m.notes.sessionActive = true) :
    DoneUnlessFailed deeds (.call (.updateMechanics dt m.notes.guiActive)) ∧
      DoneUnlessFailed deeds (.stepPhysics dt m.notes.guiActive stamp) ∧
      DoneUnlessFailed deeds (.call (.updateWorld dt m.notes.guiActive)) := by
  let N (n : Notes) : Prop := n.guiActive = m.notes.guiActive ∧ n.sessionActive = true
  have hscripts : ∀ item ∈ scriptAgenda F o.patience dt, item.Meets N (·.task.place < 12) :=
    scripts_keep F o.patience dt m.notes.guiActive true
  have hmechanics : ∀ item ∈ scriptAgenda F o.patience dt ++ mechanicsAgenda F dt,
      item.Meets N (·.task.place < 14) := by
    refine List.forall_mem_append.mpr ⟨fun item hitem => ?_, ?_⟩
    · exact (hscripts item hitem).mono fun d hd => by omega
    · simp [mechanicsAgenda, Item.Meets, Task.place]
  have hphysics : ∀ item ∈ scriptAgenda F o.patience dt ++ mechanicsAgenda F dt ++
      physicsAgenda dt stamp, item.Meets N (·.task.place < 15) := by
    refine List.forall_mem_append.mpr ⟨fun item hitem => ?_, ?_⟩
    · exact (hmechanics item hitem).mono fun d hd => by omega
    · simp [physicsAgenda, Item.Meets, Task.place]
  have hunhalted : ∀ gate, .halt gate ∉ scriptAgenda F o.patience dt ++ mechanicsAgenda F dt ++
      physicsAgenda dt stamp := by
    simp [scriptAgenda, timeAgenda, mechanicsAgenda, physicsAgenda]
  have hstart : N m.notes := ⟨rfl, hactive⟩
  rw [simulationAgenda_append] at h
  refine ⟨?_, ?_, ?_⟩
  · exact h.reaches hr hscripts (fun gate hg => hunhalted gate (by simp [hg])) hstart
      fun m' hm' => ⟨hm'.2, by rw [hm'.1]⟩
  · rw [← List.append_assoc] at h
    exact h.reaches hr hmechanics (fun gate hg => hunhalted gate (List.mem_append_left _ hg)) hstart
      fun m' hm' => ⟨hm'.2, by rw [hm'.1]⟩
  · rw [← List.append_assoc, ← List.append_assoc] at h
    exact h.reaches hr hphysics hunhalted hstart fun m' hm' => ⟨hm'.2, by rw [hm'.1]⟩

end Orchestrator

namespace Engine

variable {F : Facades σ FrameStats}

/-- The changes by which the subsystems got from one engine's world to the other's, with all that was
done meanwhile. -/
def Recounts (F : Facades σ FrameStats) (e e' : Engine (Chronicle σ) φ ω)
    (changes : List (Change σ)) : Prop :=
  Becomes F e.scene.world.world changes e'.scene.world.world ∧
    e'.scene.world.deeds = e.scene.world.deeds ++ deedsIn changes

theorem Recounts.refl (F : Facades σ FrameStats) (e : Engine (Chronicle σ) φ ω) :
    Recounts F e e [] :=
  ⟨.refl _, (List.append_nil _).symm⟩

theorem Recounts.trans {e e' e'' : Engine (Chronicle σ) φ ω} {changes more : List (Change σ)}
    (h : Recounts F e e' changes) (h' : Recounts F e' e'' more) :
    Recounts F e e'' (changes ++ more) := by
  refine ⟨h.1.trans h'.1, ?_⟩
  rw [h'.2, h.2, deedsIn_append, List.append_assoc]

variable [Report ω φ]

/-- How far an iteration comes before it looks at the interface and the session: either the state
is not updated, or they are looked at in the world that its update has left. -/
theorem step_sampled (F : Facades σ FrameStats) (e : Engine (Chronicle σ) φ ω) :
    (∀ d ∈ deedsOf F e, d.task.place ≤ 6 ∧
        (d.task = .call (.updateState e.dueStep) → d.answer ≠ .ok ())) ∨
      ∃ before w after m m' r, deedsOf F e =
          before ++ ⟨w, .call (.updateState e.dueStep), .ok ()⟩ :: after ∧
        (∀ d ∈ before, d.task.place < 6) ∧
        m.world = (F.perform (.updateState e.dueStep) w).world ∧
        m.notes.guiActive = F.guiActive m.world ∧
        m.notes.sessionActive = F.hasActiveSession m.world ∧
        (step F.chronicled e).1 = FrameOutcome.ofResult r ∧
        Follows F (Orchestrator.simulationAgenda F e.orchestrator e.dueStep (dueStamp e) ++
          renderAgenda (dueStamp e).number) m after r m' := by
  obtain ⟨r, m', hf, hr⟩ := step_deeds F e
  let front : List (Item σ) :=
    Orchestrator.always (.advanceRenderer e.simulationTime (dueStamp e).number) ::
      (Orchestrator.inputAgenda e.dueStep ++
        (Orchestrator.soundAgenda F e.orchestrator.useSound e.dueStep ++
          [.note fun m => { m.notes with paused := F.containsMode .mainMenu m.world },
            Orchestrator.always .synchronize]))
  have hagenda : stepAgenda F e = front ++
      (Orchestrator.always (.updateState e.dueStep) ::
        .note (fun m => { m.notes with
          guiActive := F.guiActive m.world, sessionActive := F.hasActiveSession m.world }) ::
        (Orchestrator.simulationAgenda F e.orchestrator e.dueStep (dueStamp e) ++
          renderAgenda (dueStamp e).number)) := by
    simp [front, stepAgenda, Orchestrator.agenda, Orchestrator.openingAgenda,
      Orchestrator.stateAgenda, dueStep]
  have hfront : ∀ item ∈ front, item.Meets (fun _ => True) fun d => d.task.place < 6 := by
    simp [front, Orchestrator.inputAgenda, Orchestrator.soundAgenda, Orchestrator.always,
      Item.Meets, Task.place]
  have hearly : ∀ d : Deed σ, d.task.place < 6 → d.task.place ≤ 6 ∧
      (d.task = .call (.updateState e.dueStep) → d.answer ≠ .ok ()) := by
    intro d hd
    refine ⟨Nat.le_of_lt hd, fun ht => ?_⟩
    rw [ht] at hd
    exact absurd hd (Nat.lt_irrefl 6)
  rw [hagenda] at hf
  rcases hf.split with ⟨hstop, -⟩ | ⟨before, rest, m₁, hd, hbefore, hrest⟩
  · exact .inl fun d hd => hearly d ((hstop.meets hfront trivial).1 d hd)
  have hplace := (hbefore.meets hfront trivial).1
  rw [hd]
  cases hrest with
  | closed hg => cases hg
  | failed =>
    refine .inl (List.forall_mem_append.mpr ⟨fun d hd => hearly d (hplace d hd), ?_⟩)
    simp [Task.place]
  | task _ hdoes hnote =>
    cases hnote with
    | note hrest =>
      exact .inr ⟨before, m₁.world, _, _, m', r, rfl, hplace, hdoes.call_eq.2, rfl, rfl, hr, hrest⟩

theorem render_late (frame : Nat) : ∀ item ∈ (renderAgenda frame : List (Item σ)),
    item.Meets (fun _ => True) fun d => 13 < d.task.place := by
  simp [renderAgenda, Orchestrator.always, Item.Meets, Task.place]

/-- An iteration that ends the session does so once, after an update of the state that has left a
world without modes of the interface. -/
theorem step_ends (F : Facades σ FrameStats) (e : Engine (Chronicle σ) φ ω) :
    (∀ d ∈ deedsOf F e, d.ends = false) ∨ ∃ before w after,
      deedsOf F e = before ++ ⟨w, .call (.updateState e.dueStep), .ok ()⟩ :: after ∧
        F.guiActive (F.perform (.updateState e.dueStep) w).world = false ∧
        (∀ d ∈ before, d.ends = false) ∧ EndsOnce F e.dueStep after := by
  rcases step_sampled F e with hearly |
    ⟨before, w, after, m, m', r, hd, hplace, hw, hgui, -, -, hrest⟩
  · exact .inl fun d hd => Deed.ends_eq_false (by have := (hearly d hd).1; omega)
  have hbefore : ∀ d ∈ before, d.ends = false := fun d hd =>
    Deed.ends_eq_false (by have := hplace d hd; omega)
  rcases Orchestrator.simulation_ends hrest (render_late _) with hnone | ⟨hg, honce⟩
  · rw [hd]
    exact .inl (List.forall_mem_append.mpr
      ⟨hbefore, List.forall_mem_cons.mpr ⟨by simp [Deed.ends], hnone⟩⟩)
  · exact .inr ⟨before, w, after, hd, by rw [← hw, ← hgui, hg], hbefore, honce⟩

theorem countP_ends_le_one (F : Facades σ FrameStats) (e : Engine (Chronicle σ) φ ω) :
    (deedsOf F e).countP Deed.ends ≤ 1 := by
  rcases step_ends F e with hnone | ⟨before, w, after, hd, -, hbefore, honce⟩
  · rw [List.countP_eq_zero.mpr fun d hd => by simp [hnone d hd]]
    exact Nat.zero_le 1
  · have hb : before.countP Deed.ends = 0 :=
      List.countP_eq_zero.mpr fun d hd => by simp [hbefore d hd]
    simp [hd, hb, honce.countP_eq, Deed.ends]

theorem moment_of_end {e : Engine (Chronicle σ) φ ω} {d : Deed σ} (hd : d ∈ deedsOf F e)
    (he : d.ends) :
    F.session d.before = .running ∧ F.playerDead d.before = true ∧ ∃ before w between w' after,
      deedsOf F e = before ++ ⟨w, .call (.updateState e.dueStep), .ok ()⟩ ::
          (between ++ ⟨w', .call (.updateMechanics e.dueStep false), .ok ()⟩ :: d :: after) ∧
        F.guiActive (F.perform (.updateState e.dueStep) w).world = false ∧
        d.before = (F.perform (.updateMechanics e.dueStep false) w').world := by
  rcases step_ends F e with hnone | ⟨before, w, after, hdeeds, hgui, hbefore, honce⟩
  · simp [hnone d hd] at he
  have hmem : d ∈ after := by
    simp only [hdeeds, List.mem_append, List.mem_cons] at hd
    rcases hd with hd | rfl | hd
    · simp [hbefore d hd] at he
    · simp [Deed.ends] at he
    · exact hd
  obtain ⟨hrunning, hdead, between, w', rest, rfl, hw'⟩ := honce.moment hmem he
  exact ⟨hrunning, hdead, before, w, between, w', rest, hdeeds, hgui, hw'⟩

/-- A session that is loaded when the state was updated, running or over, is updated in this
iteration. -/
theorem step_updates {e : Engine (Chronicle σ) φ ω} {d : Deed σ} (hd : d ∈ deedsOf F e)
    (ht : d.task = .call (.updateState e.dueStep)) (ha : d.answer = .ok ())
    (hs : F.session (F.perform (.updateState e.dueStep) d.before).world ≠ .noSession)
    (hr : (step F.chronicled e).1 ≠ none) :
    let gui := F.guiActive (F.perform (.updateState e.dueStep) d.before).world
    DoneUnlessFailed (deedsOf F e) (.call (.updateMechanics e.dueStep gui)) ∧
      DoneUnlessFailed (deedsOf F e) (.stepPhysics e.dueStep gui (dueStamp e)) ∧
      DoneUnlessFailed (deedsOf F e) (.call (.updateWorld e.dueStep gui)) := by
  have hplace : d.task.place = 6 := by
    rw [ht]
    rfl
  rcases step_sampled F e with hearly |
    ⟨before, w, after, m, m', r, hdeeds, hbefore, hw, hgui, hactive, hr', hrest⟩
  · exact absurd ha ((hearly d hd).2 ht)
  -- the state is updated once in a frame, so this is the update that the notes were taken after
  have hlater : ∀ d ∈ after, 6 < d.task.place := by
    refine (hrest.meets (N := fun _ => True) (List.forall_mem_append.mpr ⟨?_, ?_⟩) trivial).1
    · simp [Orchestrator.simulationAgenda, Orchestrator.scriptAgenda, Orchestrator.timeAgenda,
        Orchestrator.mechanicsAgenda, Orchestrator.physicsAgenda, Orchestrator.worldAgenda,
        Orchestrator.guiAgenda, Orchestrator.always, Item.Meets, Task.place]
    · exact fun item hitem => (render_late _ item hitem).mono fun d hd => by omega
  obtain rfl : d = ⟨w, .call (.updateState e.dueStep), .ok ()⟩ := by
    rw [hdeeds, List.mem_append, List.mem_cons] at hd
    rcases hd with hd | hd | hd
    · have := hbefore d hd
      omega
    · exact hd
    · have := hlater d hd
      omega
  have hloaded : m.notes.sessionActive = true := by
    rw [hactive, hw, Facades.hasActiveSession]
    cases hstate : F.session (F.perform (.updateState e.dueStep) w).world with
    | noSession => exact absurd hstate hs
    | running | ended => rfl
  have hendless : r ≠ .error .endless := by
    rintro rfl
    exact hr hr'
  obtain ⟨hmechanics, hphysics, hworld⟩ := Orchestrator.simulation_reaches hrest hendless hloaded
  rw [hgui, hw] at hmechanics hphysics hworld
  have hwithin : after ⊆ deedsOf F e := by
    rw [hdeeds]
    exact fun d hd => List.mem_append_right _ (List.mem_cons_of_mem _ hd)
  exact ⟨hmechanics.mono hwithin, hphysics.mono hwithin, hworld.mono hwithin⟩

theorem step_recounts (F : Facades σ FrameStats) (e : Engine (Chronicle σ) φ ω) :
    ∃ changes, Recounts F e (step F.chronicled e).2 changes ∧ deedsIn changes = deedsOf F e := by
  obtain ⟨deeds, r, m, w, hw, hf, hm, -⟩ := step_follows F e
  obtain ⟨changes, hb, rfl⟩ := hf.becomes
  obtain ⟨more, hb', hnone⟩ := hm.becomes
  have hdeeds : deedsOf F e = deedsIn changes := by rw [deedsOf, hw, List.drop_left]
  have hall : deedsIn (changes ++ more) = deedsIn changes := by
    rw [deedsIn_append, hnone, List.append_nil]
  refine ⟨changes ++ more, ⟨?_, ?_⟩, hall.trans hdeeds.symm⟩
  · rw [hw]
    exact hb.trans hb'
  · rw [hw, hall]

def Move.iterates {τ : Type} : Move τ → Bool
  | .step | .pace _ | .retime _ => true
  | .start | .change _ => false

/-- However long a run is, it ends no session that is not running. -/
theorem play_recounts (F : Facades σ FrameStats) {moves : List (Move (Chronicle σ))}
    (h : ∀ move ∈ moves, move.iterates) (e : Engine (Chronicle σ) φ ω) :
    ∃ changes, Recounts F e (play F.chronicled moves e).2 changes ∧
      ∀ d ∈ deedsIn changes, d.ends → F.session d.before = .running := by
  induction moves generalizing e with
  | nil => exact ⟨[], .refl F e, nofun⟩
  | cons move rest ih =>
    obtain ⟨hmove, hrest⟩ := List.forall_mem_cons.mp h
    obtain ⟨more, hmore, hends⟩ := ih hrest (make F.chronicled move e).2
    rw [play_cons]
    cases move with
    | step =>
      obtain ⟨changes, hchanges, hdeeds⟩ := step_recounts F e
      refine ⟨changes ++ more, hchanges.trans hmore, ?_⟩
      rw [deedsIn_append, hdeeds]
      exact List.forall_mem_append.mpr ⟨fun d hd he => (moment_of_end hd he).1, hends⟩
    | pace outcome =>
      refine ⟨more, ?_, hends⟩
      cases outcome <;> exact hmore
    | retime f => exact ⟨more, hmore, hends⟩
    | start | change => cases hmove

/-- The death of the player ends a session once at most in an iteration: while it is running, right
after the mechanics have succeeded, and if no mode of the interface was open after the state was
updated. If a session is loaded then, running or over, and the scripts come to an end, the mechanics,
the physics and the world have their turn unless something before fails. However the changes of a
run of iterations are told, between two ends of the session something else has set it running again;
if nothing does, the run ends it once at most. -/
theorem session_ended_by_death (F : Facades σ FrameStats)
    (hF : ∀ w, F.session (F.perform .endSession w).world = .ended) :
    (∀ e : Engine (Chronicle σ) φ ω,
      (deedsOf F e).countP Deed.ends ≤ 1 ∧
      (∀ d ∈ deedsOf F e, d.ends →
        F.session d.before = .running ∧ F.playerDead d.before = true ∧
        ∃ before w between w' after,
          deedsOf F e = before ++ ⟨w, .call (.updateState e.dueStep), .ok ()⟩ ::
            (between ++ ⟨w', .call (.updateMechanics e.dueStep false), .ok ()⟩ :: d :: after) ∧
          F.guiActive (F.perform (.updateState e.dueStep) w).world = false ∧
          d.before = (F.perform (.updateMechanics e.dueStep false) w').world) ∧
      ∀ d ∈ deedsOf F e, d.task = .call (.updateState e.dueStep) → d.answer = .ok () →
        F.session (F.perform (.updateState e.dueStep) d.before).world ≠ .noSession →
        (step F.chronicled e).1 ≠ none →
        let gui := F.guiActive (F.perform (.updateState e.dueStep) d.before).world
        DoneUnlessFailed (deedsOf F e) (.call (.updateMechanics e.dueStep gui)) ∧
        DoneUnlessFailed (deedsOf F e) (.stepPhysics e.dueStep gui (dueStamp e)) ∧
        DoneUnlessFailed (deedsOf F e) (.call (.updateWorld e.dueStep gui))) ∧
    ∀ (e : Engine (Chronicle σ) φ ω) (moves : List (Move (Chronicle σ))),
      (∀ move ∈ moves, move.iterates) →
      (∃ changes, Recounts F e (play F.chronicled moves e).2 changes) ∧
      ∀ changes, Recounts F e (play F.chronicled moves e).2 changes →
        (∀ before c between c' after, changes = before ++ c :: (between ++ c' :: after) →
          c.ends → c'.ends → ∃ r ∈ between,
            r.ends = false ∧ F.session r.before ≠ .running ∧ F.session r.after = .running) ∧
        ((∀ r ∈ changes, r.ends = false → F.session r.after = .running →
          F.session r.before = .running) → (deedsIn changes).countP Deed.ends ≤ 1) := by
  refine ⟨fun e => ⟨countP_ends_le_one F e, fun d hd he => moment_of_end hd he,
    fun d hd ht ha hs hr => step_updates hd ht ha hs hr⟩, fun e moves hmoves => ?_⟩
  obtain ⟨told, htold, hends⟩ := play_recounts F hmoves e
  refine ⟨⟨told, htold⟩, fun changes hchanges => ?_⟩
  -- all accounts of a run have the same deeds
  have hdeeds : deedsIn changes = deedsIn told :=
    List.append_cancel_left (hchanges.2.symm.trans htold.2)
  have hrunning : ∀ c ∈ changes, c.ends → F.session c.before = .running := by
    intro c hc he
    obtain ⟨d, hd, hde, hbefore⟩ := Change.exists_deed he
    rw [← hbefore]
    exact hends d (hdeeds ▸ List.mem_filterMap.mpr ⟨c, hc, hd⟩) hde
  have hrevived : ∀ before c between c' after, changes = before ++ c :: (between ++ c' :: after) →
      c.ends → c'.ends → ∃ r ∈ between,
        r.ends = false ∧ F.session r.before ≠ .running ∧ F.session r.after = .running := by
    rintro before c between c' after rfl hc hc'
    exact hchanges.1.revived hF hc (hrunning c' (by simp) hc')
  refine ⟨hrevived, fun hquiet => Nat.le_of_not_lt fun htwice => ?_⟩
  rw [countP_deedsIn] at htwice
  obtain ⟨before, c, between, c', after, hsplit, hc, hc'⟩ := exists_two_of_lt_countP htwice
  obtain ⟨r, hr, hother, hbefore, hafter⟩ := hrevived before c between c' after hsplit hc hc'
  exact hbefore (hquiet r (by simp [hsplit, hr]) hother hafter)

/-- Subsystems that know of nothing but a session, whose player is dead. -/
def deadPlayer : Facades SessionState FrameStats where
  windowVisible _ := true
  containsMode _ _ := false
  guiActive _ := false
  session state := state
  quitRequested _ := false
  scriptsEnabled _ := true
  playerDead _ := true
  timeScale _ := .ofNat 30
  queuedItems _ := 0
  activeThreads _ := 0
  windowClosed _ := false
  localScripts _ := .empty
  withLocalScripts _ state := state
  perform c state := ⟨.ok (), if c = .endSession then .ended else state, []⟩
  runScript _ rw := ⟨.ok (), rw, []⟩
  stepPhysics _ _ _ := pure ()
  reportPart _ _ := pure ()
  updateScripting _ state := ⟨.finished, state, []⟩

theorem deadPlayer_quiet {r : Change SessionState} (h : r.Made deadPlayer) (he : r.ends = false) :
    r.after = r.before := by
  cases h with
  | task hd =>
    cases hd with
    | call c w =>
      have hc : c ≠ .endSession := by simpa [Change.ends, Change.deed?, Deed.ends] using he
      simp [deadPlayer, hc]
    | runScript | stepPhysics => rfl
  | register | report | update => rfl

def runningSession : Engine (Chronicle SessionState) Places PlaceReport where
  settings := .defaults
  settingsPath := none
  userDirectory := none
  startup := .mainMenu
  startupScript := none
  started := true
  scene := ⟨⟨.running, []⟩, .new 25, ⟨id, 0⟩, .lazy, #[], #[]⟩
  storage := []
  orchestrator := ⟨true, 9⟩
  strategy := some (.synchronous none)
  limiter := ⟨0, 0, 0⟩
  counter := .new
  telemetry := .new Duration.second 0
  simulationTime := .zero false

/-- Of two iterations the first ends the session, and the second still updates it. -/
theorem session_ended_by_death_two_steps :
    let e := (step deadPlayer.chronicled runningSession).2
    (∃ d ∈ deedsOf deadPlayer runningSession, d.ends ∧ d.before = .running ∧
      ∃ w, ⟨w, .call (.updateMechanics runningSession.dueStep false), .ok ()⟩ ∈
        deedsOf deadPlayer runningSession) ∧
    worldAfter deadPlayer runningSession = .ended ∧
    DoneUnlessFailed (deedsOf deadPlayer e) (.call (.updateMechanics e.dueStep false)) ∧
    ((play deadPlayer.chronicled [.step, .pace .completed, .step]
      runningSession).2.scene.world.deeds).countP Deed.ends ≤ 1 := by
  obtain ⟨hstep, hrun⟩ :=
    session_ended_by_death (φ := Places) (ω := PlaceReport) deadPlayer fun _ => rfl
  obtain ⟨-, hmoment, -⟩ := hstep runningSession
  obtain ⟨-, -, hupdates⟩ := hstep (step deadPlayer.chronicled runningSession).2
  have hends : (deedsOf deadPlayer runningSession).any Deed.ends = true := by decide +kernel
  obtain ⟨d, hd, he⟩ := List.any_eq_true.mp hends
  obtain ⟨hrunning, -, before, w, between, w', after, hsplit, -, -⟩ := hmoment d hd he
  refine ⟨⟨d, hd, he, hrunning, w', by simp [hsplit]⟩, by decide +kernel, ?_, ?_⟩
  · have hstate : (deedsOf deadPlayer (step deadPlayer.chronicled runningSession).2).any (fun d =>
        d.task = .call (.updateState (step deadPlayer.chronicled runningSession).2.dueStep) &&
          d.answer.isOk && d.before = .ended) = true := by decide +kernel
    obtain ⟨d, hd, hall⟩ := List.any_eq_true.mp hstate
    simp only [Bool.and_eq_true, decide_eq_true_eq] at hall
    obtain ⟨⟨ht, ha⟩, hover⟩ := hall
    have hok : d.answer = .ok () := by
      cases hanswer : d.answer with
      | ok _ => rfl
      | error _ => simp [hanswer, Except.isOk, Except.toBool] at ha
    have hloaded : d.before ≠ .noSession := by simp [hover]
    exact (hupdates d hd ht hok hloaded (by decide +kernel)).1
  · obtain ⟨⟨changes, hchanges⟩, hall⟩ :=
      hrun runningSession [.step, .pace .completed, .step] (by simp [Move.iterates])
    have hquiet : ∀ r ∈ changes, r.ends = false → r.after = .running → r.before = .running := by
      intro r hr hother hafter
      rw [← deadPlayer_quiet (hchanges.1.made r hr) hother, hafter]
    rw [hchanges.2]
    exact (hall changes hchanges).2 hquiet

end Engine

end FrameLoop
