import FrameLoop.Headless
import FrameLoop.Proofs.Building
import FrameLoop.Proofs.Routine
import FrameLoop.Proofs.SimulationStep
import FrameLoop.Proofs.StepOrder
import FrameLoop.Storage.Basic

/-! The clock of the simulation and the time of the world. Both pass while a session is played
outside the interface, but each is told at a moment of its own: the world in the midst of a frame,
the clock after its rendering. -/

namespace FrameLoop

variable {σ κ φ ω : Type}

/-- The step of time that a task is told. -/
def Task.dt? : Task → Option Single
  | .call (.updateInput dt _) | .call (.updateAudio dt) | .call (.updateState dt)
  | .call (.updateMechanics dt _) | .call (.rechargeItems dt) | .call (.updateWorld dt _)
  | .call (.updateGui dt) | .stepPhysics dt _ _ => some dt
  | _ => none

def Task.hours? : Task → Option Double
  | .call (.advanceTime hours) => some hours
  | _ => none

theorem Task.eq_of_hours? {t : Task} {hours : Double} (h : t.hours? = some hours) :
    t = .call (.advanceTime hours) := by
  unfold hours? at h
  split at h
  · cases h
    rfl
  · cases h

/-- The time of the simulation that the renderer is told. -/
def Task.told? : Task → Option Double
  | .call (.advanceRenderer time _) => some time
  | _ => none

def Task.passesTime : Task → Bool
  | .call (.advanceTime _) | .call (.rechargeItems _) => true
  | _ => false

theorem Task.passesTime_of_hours? {t : Task} (h : t.hours?.isSome = true) : t.passesTime = true := by
  obtain ⟨hours, hh⟩ := Option.isSome_iff_exists.mp h
  rw [eq_of_hours? hh]
  rfl

/-- While the notes have `N`, what is done for the item has `P`, and the notes keep `N`. -/
def Item.Meets (N : Notes → Prop) (P : Deed σ → Prop) : Item σ → Prop
  | .note look => ∀ m, N m.notes → N (look m)
  | .task gate due => ∀ m answer, N m.notes → gate m = true → P ⟨m.world, due m, answer⟩
  | .drain _ _ => ∀ w entry answer, P ⟨w, .runScript entry, answer⟩
  | .halt _ | .meanwhile _ => True

theorem Drains.meets {F : Facades σ κ} {P : Deed σ → Prop} {patience : Nat} {w w' : σ}
    {deeds : List (Deed σ)} {ending : Except Stop Unit} (h : Drains F patience w deeds ending w')
    (hp : ∀ w entry answer, P ⟨w, .runScript entry, answer⟩) : ∀ d ∈ deeds, P d := by
  induction h with
  | endless | spent => simp
  | run _ _ _ ih => exact List.forall_mem_cons.mpr ⟨hp _ _ _, ih⟩
  | failed => exact List.forall_mem_singleton.mpr (hp _ _ _)

theorem Follows.meets {F : Facades σ κ} {N : Notes → Prop} {P : Deed σ → Prop}
    {items : List (Item σ)} {m m' : Moment σ} {deeds : List (Deed σ)} {r : Except Stop Bool}
    (h : Follows F items m deeds r m') (hi : ∀ item ∈ items, item.Meets N P) (hn : N m.notes) :
    (∀ d ∈ deeds, P d) ∧ N m'.notes := by
  induction h with
  | done | halted => exact ⟨by simp, hn⟩
  | @note look rest m _ _ _ _ ih =>
    have hlook : N (look m) := hi _ List.mem_cons_self m hn
    exact ih (fun item hm => hi item (List.mem_cons_of_mem _ hm)) hlook
  | closed _ _ ih | undrained _ _ ih | unhalted _ _ ih | meanwhile _ _ ih =>
    exact ih (fun item hm => hi item (List.mem_cons_of_mem _ hm)) hn
  | @task gate task rest m _ _ _ _ hg _ _ ih =>
    obtain ⟨hd, hn'⟩ := ih (fun item hm => hi item (List.mem_cons_of_mem _ hm)) hn
    have hfirst : P ⟨m.world, task m, .ok ()⟩ := hi (.task gate task) List.mem_cons_self m _ hn hg
    exact ⟨List.forall_mem_cons.mpr ⟨hfirst, hd⟩, hn'⟩
  | @failed gate task rest m _ f hg _ =>
    have hfirst : P ⟨m.world, task m, .error f⟩ := hi (.task gate task) List.mem_cons_self m _ hn hg
    exact ⟨List.forall_mem_singleton.mpr hfirst, hn⟩
  | @drained patience gate rest _ _ _ _ _ _ _ hd _ ih =>
    obtain ⟨hmore, hn'⟩ := ih (fun item hm => hi item (List.mem_cons_of_mem _ hm)) hn
    have hruns := hd.meets (P := P) (hi (.drain patience gate) List.mem_cons_self)
    exact ⟨List.forall_mem_append.mpr ⟨hruns, hmore⟩, hn'⟩
  | @stuck patience gate _ _ _ _ _ _ hd =>
    exact ⟨hd.meets (P := P) (hi (.drain patience gate) List.mem_cons_self), hn⟩

theorem Does.call_eq {F : Facades σ κ} {c : Call} {w w' : σ} {answer : Except Failure Unit}
    (h : Does F w (.call c) answer w') :
    answer = c.heeded (F.perform c w).answer ∧ w' = (F.perform c w).world := by
  cases h
  exact ⟨rfl, rfl⟩

def Notes.playing (n : Notes) : Bool := n.sessionActive && !n.guiActive

/-- A session is played outside the interface. -/
def Facades.playing (F : Facades σ κ) (w : σ) : Bool := F.hasActiveSession w && !F.guiActive w

namespace Orchestrator

variable {F : Facades σ κ} {o : Orchestrator} {dt : Single} {stamp : Stamp}

/-- A task tells its step of time to whom it concerns, and the world how many hours that is. -/
def Steps (F : Facades σ κ) (dt : Single) (d : Deed σ) : Prop :=
  (∀ dt', d.task.dt? = some dt' → dt' = dt) ∧
    (∀ hours, d.task.hours? = some hours → hours = hoursOf dt (F.timeScale d.before)) ∧
    d.task.told? = none

theorem agenda_steps :
    ∀ item ∈ agenda F o dt stamp, item.Meets (fun _ => True) (Steps F dt) := by
  simp [agenda, openingAgenda, simulationAgenda, inputAgenda, soundAgenda, stateAgenda,
    scriptAgenda, timeAgenda, mechanicsAgenda, physicsAgenda, worldAgenda, guiAgenda, always,
    Item.Meets, Steps, Task.dt?, Task.hours?, Task.told?]

theorem opening_idle :
    ∀ item ∈ openingAgenda F o dt, item.Meets (fun _ => True) fun d => d.task.passesTime = false := by
  simp [openingAgenda, inputAgenda, soundAgenda, stateAgenda, always, Item.Meets, Task.passesTime]

/-- Afterwards time passes only if the notes tell of a session that is played, which they go on
to do. -/
theorem simulation_idle (F : Facades σ κ) (o : Orchestrator) (dt : Single) (stamp : Stamp)
    (playing : Bool) :
    ∀ item ∈ simulationAgenda F o dt stamp,
      item.Meets (fun n => n.playing = playing) fun d =>
        playing = false → d.task.passesTime = false := by
  cases playing <;> simp +contextual [simulationAgenda, scriptAgenda, timeAgenda,
    mechanicsAgenda, physicsAgenda, worldAgenda, guiAgenda, always, Item.Meets, Task.passesTime,
    Notes.playing]

/-- What is noted when the opening is over: the state was updated, and the session and the interface
were looked at in the world that this has left. -/
theorem opening_noted {m m' : Moment σ} {deeds : List (Deed σ)}
    (h : Follows F (openingAgenda F o dt) m deeds (.ok true) m') :
    m'.notes.playing = F.playing m'.world ∧
      ∃ d ∈ deeds, d.task = .call (.updateState dt) ∧ d.answer = .ok () ∧
        m'.world = (F.perform (.updateState dt) d.before).world := by
  let before : List (Item σ) := inputAgenda dt ++ (soundAgenda F o.useSound dt ++
    [.note fun m => { m.notes with paused := F.containsMode .mainMenu m.world }, always .synchronize])
  have hagenda : openingAgenda F o dt = before ++ [always (.updateState dt), .note fun m =>
      { m.notes with
        guiActive := F.guiActive m.world, sessionActive := F.hasActiveSession m.world }] := rfl
  rw [hagenda] at h
  rcases h.split with ⟨-, hr⟩ | ⟨done, rest, m₁, rfl, -, hrest⟩
  · exact absurd rfl hr
  cases hrest with
  | closed hg => cases hg
  | task _ hd hnote =>
    cases hnote with
    | note hdone =>
      cases hdone
      exact ⟨rfl, _, List.mem_append_right _ List.mem_cons_self, rfl, rfl, hd.call_eq.2⟩

theorem simulation_passes {m m' : Moment σ} {deeds : List (Deed σ)} {rest : List (Item σ)}
    (h : Follows F (simulationAgenda F o dt stamp ++ rest) m deeds (.ok true) m')
    (hm : m.notes.playing = true) : ∃ d ∈ deeds, d.task.hours?.isSome = true := by
  let before : List (Item σ) := (scriptAgenda F o.patience dt).take 4
  let after : List (Item σ) := mechanicsAgenda F dt ++
    (physicsAgenda dt stamp ++ (worldAgenda dt ++ guiAgenda dt stamp))
  have hagenda : simulationAgenda F o dt stamp = before ++ (timeAgenda F dt ++ after) := rfl
  have hkeep : ∀ item ∈ before, item.Meets (fun n => n.playing = true) fun d =>
      true = false → d.task.passesTime = false := by
    intro item hitem
    refine simulation_idle F o dt stamp true item ?_
    rw [hagenda]
    exact List.mem_append_left _ hitem
  rw [hagenda, List.append_assoc] at h
  rcases h.split with ⟨-, hr⟩ | ⟨done, more, m₁, rfl, hbefore, hrest⟩
  · exact absurd rfl hr
  obtain ⟨-, hplaying⟩ := hbefore.meets hkeep hm
  cases hrest with
  | closed hg => exact absurd (hg.symm.trans hplaying) (by decide)
  | task => exact ⟨_, List.mem_append_right _ List.mem_cons_self, rfl⟩

end Orchestrator

namespace Engine

variable {τ : Type} {F : Facades σ FrameStats} {G : Facades τ FrameStats}

def dueStep (e : Engine τ φ ω) : Single := simulationStep e.limiter.lastFrame

theorem onStrategy_time (act : UpdateStrategy → Act τ FrameStats UpdateStrategy)
    (e : Engine τ φ ω) : (onStrategy act e).2.simulationTime = e.simulationTime := by
  cases he : e.strategy with
  | none =>
    simp only [onStrategy, get_bind, he]
    rfl
  | some strategy => rw [onStrategy_eq he]

theorem countTime_time (dt : Single) (e : Engine τ φ ω) :
    (countTime G dt e).2.simulationTime =
      if G.playing e.scene.world = true then e.simulationTime + dt.convert
      else e.simulationTime := by
  have hplaying : (!G.guiActive e.scene.world && G.hasActiveSession e.scene.world) =
    G.playing e.scene.world := Bool.and_comm ..
  rw [countTime, get_bind, hplaying]
  split <;> rfl

/-- The clock is set after the rendering, in the world that the update has left. -/
theorem render_time (dt : Single) (stamp : Stamp) (e : Engine τ φ ω) :
    (render G dt stamp e).2.simulationTime =
      if (render G dt stamp e).1 = .completed ∧
          G.playing (render G dt stamp e).2.scene.world = true then
        e.simulationTime + dt.convert
      else e.simulationTime := by
  let e₃ := ((do
    tell G .eventTraversal
    tell G .updateTraversal
    tell G .updateWindowManager : Action τ φ ω Unit) e).2
  let e₄ := (onStrategy (UpdateStrategy.allow G stamp) e₃).2
  let x := onScene (G.call .renderingTraversals).run e₄
  let e₆ := (onStrategy (UpdateStrategy.finish G) x.2).2
  have hsame : e₆.simulationTime = e.simulationTime :=
    (onStrategy_time _ x.2).trans (onStrategy_time (UpdateStrategy.allow G stamp) e₃)
  have hrun : render G dt stamp e = afterRendering G dt stamp x.1 e₆ := rfl
  rw [hrun, ← hsame]
  cases x.1 with
  | ok _ =>
    have hworld := congrArg Scene.world (countTime_scene (F := G) dt e₆)
    have htime := countTime_time (G := G) dt e₆
    change (countTime G dt e₆).2.simulationTime = if FrameOutcome.completed = .completed ∧
      G.playing (countTime G dt e₆).2.scene.world = true then _ else _
    rw [hworld, htime]
    simp only [true_and]
  | error f => exact (if_neg (by rintro ⟨h, -⟩; cases h)).symm

def Timeless {α : Type} (act : Action τ φ ω α) : Prop :=
  ∀ e, (act e).2.simulationTime = e.simulationTime

theorem timeless_outset (G : Facades τ FrameStats) :
    Outset (σ := τ) (φ := φ) (ω := ω) Timeless G where
  pure _ _ := rfl
  bind hact hf e := (hf _ _).trans (hact e)
  attempt _ _ := rfl
  append _ _ := rfl
  setStarted _ := rfl
  look _ hf e := hf _ e

theorem prepared_timeless :
    Prepared fun _ (e : Engine τ φ ω) => e.simulationTime = .zero false where
  told _ _ _ _ _ _ h := h
  reporting _ _ _ _ _ h := h

variable [Report ω φ]

/-- The clock of the simulation goes on in an iteration that comes to its end, if a session is
played outside the interface then. -/
theorem step_time (G : Facades τ FrameStats) (e : Engine τ φ ω) :
    (step G e).2.simulationTime =
      if (step G e).1 = some .completed ∧ G.playing (step G e).2.scene.world = true then
        e.simulationTime + e.dueStep.convert
      else e.simulationTime := by
  let y := simulate G e.dueStep e
  have hstep : step G e = conclude G e.dueStep y.1.1 y.1.2 y.2 := rfl
  have hsame : y.2.simulationTime = e.simulationTime := rfl
  rw [hstep, ← hsame]
  cases y.1.2 with
  | none => exact (if_neg nofun).symm
  | some outcome =>
    cases outcome with
    | completed =>
      change (render G e.dueStep y.1.1 y.2).2.simulationTime =
        if some (render G e.dueStep y.1.1 y.2).1 = some .completed ∧
          G.playing (render G e.dueStep y.1.1 y.2).2.scene.world = true then _ else _
      simp only [Option.some_inj]
      exact render_time e.dueStep y.1.1 y.2
    | skipped | failed => exact (if_neg (by rintro ⟨h, -⟩; cases h)).symm

theorem make_time (G : Facades τ FrameStats) (e : Engine τ φ ω) {move : Move τ} (h : move ≠ .step) :
    (make G move e).2.simulationTime = e.simulationTime := by
  cases move with
  | start => exact (timeless_outset G).start e
  | step => exact absurd rfl h
  | pace outcome => cases outcome <;> rfl
  | change f | retime f => rfl

def deedsOf (F : Facades σ FrameStats) (e : Engine (Chronicle σ) φ ω) : List (Deed σ) :=
  (step F.chronicled e).2.scene.world.deeds.drop e.scene.world.deeds.length

def worldAfter (F : Facades σ FrameStats) (e : Engine (Chronicle σ) φ ω) : σ :=
  (step F.chronicled e).2.scene.world.world

/-- The worlds in which an iteration asks whether a session is played outside the interface: the one
that the update of the state leaves, and in the end, if it is completed, the one that the update of
the scripting engine leaves. -/
inductive AsksIn (F : Facades σ FrameStats) (e : Engine (Chronicle σ) φ ω) : σ → Prop
  | updated {d : Deed σ} :
    d ∈ deedsOf F e → d.task = .call (.updateState e.dueStep) → d.answer = .ok () →
      AsksIn F e (F.perform (.updateState e.dueStep) d.before).world
  | rendered : (step F.chronicled e).1 = some .completed → AsksIn F e (worldAfter F e)

theorem step_deeds (F : Facades σ FrameStats) (e : Engine (Chronicle σ) φ ω) :
    ∃ r m, Follows F (stepAgenda F e) ⟨e.scene.world.world, .blank⟩ (deedsOf F e) r m ∧
      (step F.chronicled e).1 = FrameOutcome.ofResult r := by
  obtain ⟨deeds, r, m, w, hw, hf, -, hr⟩ := step_follows F e
  have hdeeds : deedsOf F e = deeds := by rw [deedsOf, hw, List.drop_left]
  rw [hdeeds]
  exact ⟨r, m, hf, hr⟩

theorem eq_true_of_completed {r : Except Stop Bool}
    (h : some FrameOutcome.completed = FrameOutcome.ofResult r) : r = .ok true := by
  rcases r with (_ | _) | (_ | _) <;> cases h
  rfl

theorem step_steps (F : Facades σ FrameStats) (e : Engine (Chronicle σ) φ ω) :
    ∃ rest, deedsOf F e =
        ⟨e.scene.world.world, .call (.advanceRenderer e.simulationTime e.counter.next), .ok ()⟩ ::
          rest ∧ ∀ d ∈ rest, Orchestrator.Steps F e.dueStep d := by
  obtain ⟨r, m, hf, -⟩ := step_deeds F e
  have hmeets : ∀ item ∈ Orchestrator.agenda F e.orchestrator e.dueStep (dueStamp e) ++
      renderAgenda (dueStamp e).number,
      item.Meets (fun _ => True) (Orchestrator.Steps F e.dueStep) := by
    refine List.forall_mem_append.mpr ⟨Orchestrator.agenda_steps, ?_⟩
    simp [renderAgenda, Orchestrator.always, Item.Meets, Orchestrator.Steps, Task.dt?, Task.hours?,
      Task.told?]
  rw [stepAgenda] at hf
  generalize deedsOf F e = deeds at hf ⊢
  cases hf with
  | closed hg => cases hg
  | task _ _ hrest => exact ⟨_, rfl, (hrest.meets hmeets trivial).1⟩
  | @failed _ _ _ _ _ f _ hd =>
    have hok : Except.error f = Except.ok () := hd.call_eq.1
    cases hok

theorem told_once (F : Facades σ FrameStats) (e : Engine (Chronicle σ) φ ω) :
    (deedsOf F e).countP (·.task.hours?.isSome) ≤ 1 := by
  obtain ⟨r, m, hf, -⟩ := step_deeds F e
  have hplace : ∀ d : Deed σ, d.task.hours?.isSome = true → d.task.place = 10 := by
    intro d hd
    obtain ⟨hours, hh⟩ := Option.isSome_iff_exists.mp hd
    rw [Task.eq_of_hours? hh]
    rfl
  have horder := (hf.queued (stepAgenda_inOrder F e)).in_order.filter (·.task.hours?.isSome)
  have hall : ∀ d ∈ (deedsOf F e).filter (·.task.hours?.isSome), d.task.place = 10 :=
    fun d hd => hplace d (List.mem_filter.mp hd).2
  rw [List.countP_eq_length_filter]
  generalize (deedsOf F e).filter (·.task.hours?.isSome) = told at horder hall
  match told with
  | [] => exact Nat.zero_le _
  | [_] => exact Nat.le_refl _
  | a :: b :: rest =>
    have ha := hall a List.mem_cons_self
    have hb := hall b (List.mem_cons_of_mem _ List.mem_cons_self)
    rcases List.rel_of_pairwise_cons horder List.mem_cons_self with h | ⟨_, _, h, -⟩
    · omega
    · rw [h] at ha
      cases ha

theorem completed_iff (F : Facades σ FrameStats) (e : Engine (Chronicle σ) φ ω) :
    (step F.chronicled e).1 = some .completed ↔
      (nextFrame F.chronicled e).1.2 = some .completed ∧
        ∃ d ∈ deedsOf F e, d.task = .call .renderingTraversals ∧ d.answer = .ok () := by
  obtain ⟨r, m, hf, hr⟩ := step_deeds F e
  let front : List (Item σ) := [Orchestrator.always (.advanceRenderer e.simulationTime (dueStamp e).number)] ++
    (Orchestrator.agenda F e.orchestrator e.dueStep (dueStamp e) ++
      (renderAgenda (dueStamp e).number).take 4)
  have hagenda : stepAgenda F e = front ++ [Orchestrator.always .renderingTraversals] := by
    simp [front, stepAgenda, renderAgenda, dueStep]
  have hfront : ∀ item ∈ front, item.Meets (fun _ => True) fun d =>
      d.task ≠ .call .renderingTraversals := by
    simp [front, renderAgenda, Orchestrator.agenda, Orchestrator.openingAgenda,
      Orchestrator.simulationAgenda, Orchestrator.inputAgenda, Orchestrator.soundAgenda,
      Orchestrator.stateAgenda, Orchestrator.scriptAgenda, Orchestrator.timeAgenda,
      Orchestrator.mechanicsAgenda, Orchestrator.physicsAgenda, Orchestrator.worldAgenda,
      Orchestrator.guiAgenda, Orchestrator.always, Item.Meets]
  have hframe : (step F.chronicled e).1 = some .completed →
      (nextFrame F.chronicled e).1.2 = some .completed := by
    change (conclude F.chronicled e.dueStep (nextFrame F.chronicled e).1.1
      (nextFrame F.chronicled e).1.2 (nextFrame F.chronicled e).2).1 = some .completed → _
    cases (nextFrame F.chronicled e).1.2 with
    | none => intro h; cases h
    | some outcome =>
      cases outcome with
      | completed => exact fun _ => rfl
      | skipped | failed => intro h; cases h
  rw [hagenda] at hf
  rcases hf.split with ⟨hstop, hne⟩ | ⟨before, after, m₁, hd, hbefore, hlast⟩
  · have hnone := (hstop.meets hfront trivial).1
    refine ⟨fun h => absurd (eq_true_of_completed (h.symm.trans hr)) hne, ?_⟩
    rintro ⟨-, d, hd, ht, -⟩
    exact absurd ht (hnone d hd)
  · have hnone := (hbefore.meets hfront trivial).1
    have hrendered : (step F.chronicled e).1 = some .completed ↔
        ∃ d ∈ deedsOf F e, d.task = .call .renderingTraversals ∧ d.answer = .ok () := by
      rw [hr, hd]
      cases hlast with
      | closed hg => cases hg
      | task _ _ hdone =>
        cases hdone
        exact ⟨fun _ => ⟨_, List.mem_append_right _ List.mem_cons_self, rfl, rfl⟩, fun _ => rfl⟩
      | failed =>
        refine ⟨(by intro h; cases h), ?_⟩
        rintro ⟨d, hd, ht, ha⟩
        rcases List.mem_append.mp hd with hd | hd
        · exact absurd ht (hnone d hd)
        · rw [List.mem_singleton.mp hd] at ha
          cases ha
    exact ⟨fun h => ⟨hframe h, hrendered.mp h⟩, fun h => hrendered.mpr h.2⟩

/-- When the session and the interface have been looked at: until then no time passes. -/
theorem deeds_noted {F : Facades σ FrameStats} {e : Engine (Chronicle σ) φ ω} {r : Except Stop Bool}
    {m : Moment σ}
    (h : Follows F (stepAgenda F e) ⟨e.scene.world.world, .blank⟩ (deedsOf F e) r m) :
    ((∀ d ∈ deedsOf F e, d.task.passesTime = false) ∧ r ≠ .ok true) ∨
      ∃ before after m₁, deedsOf F e = before ++ after ∧ AsksIn F e m₁.world ∧
        m₁.notes.playing = F.playing m₁.world ∧ (∀ d ∈ before, d.task.passesTime = false) ∧
        Follows F (Orchestrator.simulationAgenda F e.orchestrator e.dueStep (dueStamp e) ++
          renderAgenda (dueStamp e).number) m₁ after r m := by
  have hagenda : stepAgenda F e =
      Orchestrator.always (.advanceRenderer e.simulationTime (dueStamp e).number) ::
        (Orchestrator.openingAgenda F e.orchestrator e.dueStep ++
          (Orchestrator.simulationAgenda F e.orchestrator e.dueStep (dueStamp e) ++
            renderAgenda (dueStamp e).number)) := by
    simp [stepAgenda, Orchestrator.agenda, dueStep]
  rw [hagenda] at h
  generalize hd : deedsOf F e = deeds at h
  cases h with
  | closed hg => cases hg
  | failed => exact .inl ⟨by simp [Task.passesTime], by intro hr; cases hr⟩
  | task _ _ h =>
    rcases h.split with ⟨hstop, hr⟩ | ⟨before, after, m₁, rfl, hopening, hrest⟩
    · have hidle := (hstop.meets Orchestrator.opening_idle trivial).1
      exact .inl ⟨List.forall_mem_cons.mpr ⟨rfl, hidle⟩, hr⟩
    · have hidle := (hopening.meets Orchestrator.opening_idle trivial).1
      obtain ⟨hnoted, d, hmem, ht, ha, hw⟩ := Orchestrator.opening_noted hopening
      have hasks : AsksIn F e m₁.world := by
        rw [hw]
        refine .updated ?_ ht ha
        rw [hd]
        exact List.mem_cons_of_mem _ (List.mem_append_left _ hmem)
      exact .inr ⟨_ :: before, after, m₁, rfl, hasks, hnoted,
        List.forall_mem_cons.mpr ⟨rfl, hidle⟩, hrest⟩

/-- How the rest of a frame deals with time: not at all unless a session is played, and if it gets to
the end, it tells the world in that case. -/
theorem simulation_deeds {F : Facades σ FrameStats} {o : Orchestrator} {dt : Single} {stamp : Stamp}
    {m m' : Moment σ} {deeds : List (Deed σ)} {r : Except Stop Bool}
    (h : Follows F (Orchestrator.simulationAgenda F o dt stamp ++ renderAgenda stamp.number) m deeds
      r m') :
    (m.notes.playing = false → ∀ d ∈ deeds, d.task.passesTime = false) ∧
      (m.notes.playing = true → r = .ok true → ∃ d ∈ deeds, d.task.hours?.isSome = true) := by
  refine ⟨fun hm => ?_, fun hm hr => ?_⟩
  · have hrender : ∀ item ∈ (renderAgenda stamp.number : List (Item σ)),
        item.Meets (fun n => n.playing = false) fun d =>
          false = false → d.task.passesTime = false := by
      simp [renderAgenda, Orchestrator.always, Item.Meets, Task.passesTime]
    have hmeets := List.forall_mem_append.mpr
      ⟨Orchestrator.simulation_idle F o dt stamp false, hrender⟩
    exact fun d hd => (h.meets hmeets hm).1 d hd rfl
  · subst hr
    exact Orchestrator.simulation_passes h hm

/-- As long as no session is played when the iteration asks, no time passes at all. -/
theorem step_idle {F : Facades σ FrameStats} {e : Engine (Chronicle σ) φ ω}
    (h : ∀ w, AsksIn F e w → F.playing w = false) :
    (∀ d ∈ deedsOf F e, d.task.passesTime = false) ∧
      (step F.chronicled e).2.simulationTime = e.simulationTime := by
  refine ⟨?_, ?_⟩
  · obtain ⟨r, m, hf, -⟩ := step_deeds F e
    rcases deeds_noted hf with ⟨hidle, -⟩ | ⟨before, after, m₁, hd, hasks, hnoted, hidle, hrest⟩
    · exact hidle
    · rw [hd]
      exact List.forall_mem_append.mpr
        ⟨hidle, (simulation_deeds hrest).1 (hnoted.trans (h _ hasks))⟩
  · rw [step_time]
    refine if_neg ?_
    rintro ⟨hcompleted, hplaying⟩
    exact absurd (hplaying.symm.trans (h _ (.rendered hcompleted))) (by decide)

/-- If the answers stay the same after the update of the state, the clock of the simulation goes on
in a completed iteration exactly if the world is told of the time. -/
theorem step_together {F : Facades σ FrameStats} {e : Engine (Chronicle σ) φ ω}
    (hcompleted : (step F.chronicled e).1 = some .completed)
    (hsame : ∀ w, AsksIn F e w → F.playing w = F.playing (worldAfter F e)) :
    (step F.chronicled e).2.simulationTime =
      if (deedsOf F e).any (·.task.hours?.isSome) then e.simulationTime + e.dueStep.convert
      else e.simulationTime := by
  obtain ⟨r, m, hf, hr⟩ := step_deeds F e
  have htrue : r = .ok true := eq_true_of_completed (hcompleted.symm.trans hr)
  have htime := step_time F.chronicled e
  have hafter : F.chronicled.playing (step F.chronicled e).2.scene.world =
    F.playing (worldAfter F e) := rfl
  rw [htime, hafter]
  rcases deeds_noted hf with ⟨-, hne⟩ | ⟨before, after, m₁, hd, hasks, hnoted, hidle, hrest⟩
  · exact absurd htrue hne
  obtain ⟨hshut, hopen⟩ := simulation_deeds hrest
  have hnotes : m₁.notes.playing = F.playing (worldAfter F e) := hnoted.trans (hsame _ hasks)
  have htold : ((deedsOf F e).any (·.task.hours?.isSome)) = F.playing (worldAfter F e) := by
    cases hp : F.playing (worldAfter F e) with
    | true =>
      obtain ⟨d, hmem, hh⟩ := hopen (hnotes.trans hp) htrue
      rw [hd]
      exact List.any_eq_true.mpr ⟨d, List.mem_append_right _ hmem, hh⟩
    | false =>
      have hall := List.forall_mem_append.mpr ⟨hidle, hshut (hnotes.trans hp)⟩
      rw [hd, List.any_eq_false]
      intro d hmem hh
      exact absurd (Task.passesTime_of_hours? hh) (by simp [hall d hmem])
  rw [htold]
  simp only [hcompleted, true_and]

/-- The law of the two clocks in one iteration. -/
structure Clocked (F : Facades σ FrameStats) (e : Engine (Chronicle σ) φ ω) : Prop where
  /-- First of all the renderer is told the time that was accumulated before, and only then. -/
  advance : ∃ rest, deedsOf F e =
    ⟨e.scene.world.world, .call (.advanceRenderer e.simulationTime e.counter.next), .ok ()⟩ ::
      rest ∧ ∀ d ∈ rest, d.task.told? = none
  /-- The step is the length of the last frame, or 200 ms if that was longer, in seconds. -/
  length : e.dueStep = (min e.limiter.lastFrame (200 * 10 ^ 6)).seconds ∧
    Duration.InSeconds (min e.limiter.lastFrame (200 * 10 ^ 6)) e.dueStep
  /-- Whoever is told a step of time is told the same one. -/
  steps : ∀ d ∈ deedsOf F e, ∀ dt, d.task.dt? = some dt → dt = e.dueStep
  /-- The world is told at most once how many hours the step comes to. -/
  hours : ((deedsOf F e).countP (·.task.hours?.isSome) ≤ 1) ∧
    ∀ d ∈ deedsOf F e, ∀ hours, d.task.hours? = some hours →
      hours = e.dueStep.convert * (F.timeScale d.before).convert / .ofNat 3600
  completed : (step F.chronicled e).1 = some .completed ↔
    (nextFrame F.chronicled e).1.2 = some .completed ∧
      ∃ d ∈ deedsOf F e, d.task = .call .renderingTraversals ∧ d.answer = .ok ()
  time : (step F.chronicled e).2.simulationTime =
    if (step F.chronicled e).1 = some .completed ∧ F.guiActive (worldAfter F e) = false ∧
        F.hasActiveSession (worldAfter F e) = true then
      e.simulationTime + e.dueStep.convert
    else e.simulationTime
  /-- The step goes into the sum as it is, and the sum is rounded once. -/
  sum : e.simulationTime.Nonneg →
    (e.dueStep.convert : Double).size = e.dueStep.size ∧
      (e.simulationTime + e.dueStep.convert).negative = false ∧
      (e.simulationTime + e.dueStep.convert).Rounds (e.simulationTime.size + e.dueStep.size)
  together : (step F.chronicled e).1 = some .completed →
    (∀ w, AsksIn F e w → F.guiActive w = F.guiActive (worldAfter F e) ∧
      F.hasActiveSession w = F.hasActiveSession (worldAfter F e)) →
    (step F.chronicled e).2.simulationTime =
      if (deedsOf F e).any (·.task.hours?.isSome) then e.simulationTime + e.dueStep.convert
      else e.simulationTime

theorem clocked (F : Facades σ FrameStats) (e : Engine (Chronicle σ) φ ω) : Clocked F e := by
  obtain ⟨rest, hd, hrest⟩ := step_steps F e
  obtain ⟨hseconds, hnonneg, -⟩ := simulationStep_inSeconds e.limiter.lastFrame
  refine ⟨⟨rest, hd, fun d hm => (hrest d hm).2.2⟩, ⟨rfl, hseconds⟩, ?_, ⟨told_once F e, ?_⟩,
    completed_iff F e, ?_, fun htime => ⟨(Binary.widened hnonneg).2, ?_⟩,
    fun hcompleted hsame => step_together hcompleted fun w hw => ?_⟩
  · rw [hd]
    exact List.forall_mem_cons.mpr ⟨nofun, fun d hm => (hrest d hm).1⟩
  · rw [hd]
    exact List.forall_mem_cons.mpr ⟨nofun, fun d hm => (hrest d hm).2.1⟩
  · rw [step_time]
    have hplaying : F.chronicled.playing (step F.chronicled e).2.scene.world = true ↔
        F.guiActive (worldAfter F e) = false ∧ F.hasActiveSession (worldAfter F e) = true := by
      change (_ && !_) = true ↔ _
      rw [Bool.and_eq_true, Bool.not_eq_true', and_comm]
      rfl
    simp only [hplaying]
  · obtain ⟨hsum, hrounds⟩ := add_simulationStep htime e.limiter.lastFrame
    exact ⟨hsum.sign, hrounds⟩
  · obtain ⟨hg, ha⟩ := hsame w hw
    rw [Facades.playing, Facades.playing, hg, ha]

/-- A part of a run in which no session is played outside the interface when an iteration asks: any
number of iterations, with pauses and changes from outside between them. -/
inductive Unplayed (F : Facades σ FrameStats) (e : Engine (Chronicle σ) φ ω) :
    Engine (Chronicle σ) φ ω → Prop
  | start : Unplayed F e e
  | step {e' : Engine (Chronicle σ) φ ω} :
    Unplayed F e e' → (∀ w, AsksIn F e' w → F.session w = .noSession ∨ F.guiActive w = true) →
      Unplayed F e (step F.chronicled e').2
  | pace {e' : Engine (Chronicle σ) φ ω} (outcome : FrameOutcome) :
    Unplayed F e e' → Unplayed F e (pace outcome e').2
  | retime {e' : Engine (Chronicle σ) φ ω} (limiter : Limiter) :
    Unplayed F e e' → Unplayed F e { e' with limiter }
  | change {e' : Engine (Chronicle σ) φ ω} (world : σ) :
    Unplayed F e e' →
      Unplayed F e { e' with scene := { e'.scene with world := ⟨world, e'.scene.world.deeds⟩ } }

theorem Unplayed.idle {F : Facades σ FrameStats} {e e' : Engine (Chronicle σ) φ ω}
    (h : Unplayed F e e') :
    e'.simulationTime = e.simulationTime ∧
      ∃ deeds, e'.scene.world.deeds = e.scene.world.deeds ++ deeds ∧
        ∀ d ∈ deeds, d.task.passesTime = false := by
  induction h with
  | start => exact ⟨rfl, [], (List.append_nil _).symm, by simp⟩
  | @step e' _ hasks ih =>
    obtain ⟨htime, deeds, hd, hidle⟩ := ih
    have hshut : ∀ w, AsksIn F e' w → F.playing w = false := by
      intro w hw
      rcases hasks w hw with hs | hg
      · simp [Facades.playing, Facades.hasActiveSession, hs, SessionState.isActive]
      · simp [Facades.playing, hg]
    obtain ⟨hmore, hstep⟩ := step_idle hshut
    refine ⟨hstep.trans htime, deeds ++ deedsOf F e', ?_, List.forall_mem_append.mpr ⟨hidle, hmore⟩⟩
    obtain ⟨more, r, m, w, hw, -⟩ := step_follows F e'
    rw [deedsOf, hw, List.drop_left, hd, List.append_assoc]
  | pace outcome _ ih =>
    cases outcome <;> exact ih
  | retime _ _ ih | change _ _ ih => exact ih

/-- However often the clock goes on, it stays a finite number that is not negative. -/
theorem play_nonneg (G : Facades τ FrameStats) {e : Engine τ φ ω} (h : e.simulationTime.Nonneg)
    (moves : List (Move τ)) : (play G moves e).2.simulationTime.Nonneg := by
  induction moves generalizing e with
  | nil => exact h
  | cons move moves ih =>
    have hmove : (make G move e).2.simulationTime.Nonneg := by
      by_cases hstep : move = .step
      · subst hstep
        change (step G e).2.simulationTime.Nonneg
        rw [step_time]
        split_ifs
        · exact (add_simulationStep h e.limiter.lastFrame).1
        · exact h
      · rwa [make_time G e hstep]
    exact ih hmove

variable [Storage φ ω]

/-- The clock of the simulation and the time of the world: the clock starts at zero, only iterations
move it, each of them by the law, and both stand still as long as no session is played outside the
interface. -/
theorem simulation_clock (F : Facades σ FrameStats) {settings : Settings} {world : Chronicle σ}
    {storage : φ} {clock : Clock} {schedule : Schedule} {statsFile : Option String} {patience : Nat}
    {preparations : List Preparation} {e₀ : Engine (Chronicle σ) φ ω}
    (hbuild : build F.chronicled settings world storage clock schedule statsFile patience
      preparations = .ok e₀) :
    e₀.simulationTime = .zero false ∧
      (∀ (e : Engine (Chronicle σ) φ ω) (move : Move (Chronicle σ)), move ≠ .step →
        (make F.chronicled move e).2.simulationTime = e.simulationTime) ∧
      (∀ e : Engine (Chronicle σ) φ ω, Clocked F e) ∧
      (∀ moves, (play F.chronicled moves e₀).2.simulationTime.Nonneg) ∧
      ∀ e e' : Engine (Chronicle σ) φ ω, Unplayed F e e' →
        e'.simulationTime = e.simulationTime ∧
          ∃ deeds, e'.scene.world.deeds = e.scene.world.deeds ++ deeds ∧
            ∀ d ∈ deeds, d.task.passesTime = false := by
  have hzero : e₀.simulationTime = .zero false := prepared_timeless.build (fun _ => rfl) hbuild
  exact ⟨hzero, fun e _ h => make_time F.chronicled e h, clocked F,
    play_nonneg F.chronicled (hzero ▸ ⟨rfl, rfl⟩), fun _ _ h => h.idle⟩

/-- The length of the last frame, and of the next iteration how it ends, the modes of the interface
then, and the session. -/
def nextIteration (e : Engine (Chronicle Headless.World) Places PlaceReport) :
    Duration × Option FrameOutcome × List GuiMode × SessionState :=
  (e.limiter.lastFrame, (step Headless.facades.chronicled e).1,
    (worldAfter Headless.facades e).modes, (worldAfter Headless.facades e).session)

/-- An iteration that is completed while a session runs and no mode is shown. -/
theorem Clocked.played {e : Engine (Chronicle Headless.World) Places PlaceReport}
    {lastFrame : Duration} (h : Clocked Headless.facades e)
    (hplayed : nextIteration e = (lastFrame, some .completed, [], .running)) :
    e.dueStep = (min lastFrame (200 * 10 ^ 6)).seconds ∧
      (step Headless.facades.chronicled e).2.simulationTime =
        e.simulationTime + e.dueStep.convert := by
  obtain ⟨rfl, hafter⟩ := Prod.mk.inj hplayed
  obtain ⟨hcompleted, hworld⟩ := Prod.mk.inj hafter
  obtain ⟨hmodes, hrunning⟩ := Prod.mk.inj hworld
  have hidle : (Headless.facades (κ := FrameStats)).guiActive (worldAfter Headless.facades e) =
      false := by
    change (!List.isEmpty _) = false
    rw [hmodes]
    rfl
  have hactive : (Headless.facades (κ := FrameStats)).hasActiveSession
      (worldAfter Headless.facades e) = true := congrArg SessionState.isActive hrunning
  exact ⟨h.length.1, h.time.trans (if_pos ⟨hcompleted, hidle, hactive⟩)⟩

/-- An engine that will play a session once it is started. The readings of its clock lie 30 ms
apart. -/
def playedSession : Except Refusal (Engine (Chronicle Headless.World) Places PlaceReport) :=
  build Headless.facades.chronicled Settings.defaults ⟨.new (fun _ => false) 0 9, []⟩ []
    ⟨fun n => n * (30 * 10 ^ 6), 0⟩ .lazy none 9 [.told none none (.newSession true) none]

/-- The first frame lasts 30 ms. The second is too long, and its step is the number next to 0.2 s. -/
theorem simulation_clock_played_session : ∃ e, playedSession = .ok e ∧
    (step Headless.facades.chronicled e).2.simulationTime = .zero false ∧
    let e₁ := (make Headless.facades.chronicled (.pace .completed)
      (make Headless.facades.chronicled .start e).2).2
    let e₂ := (make Headless.facades.chronicled (.pace .completed)
      (step Headless.facades.chronicled e₁).2).2
    nextIteration e₁ = (30 * 10 ^ 6, some .completed, [], .running) ∧
      e₁.dueStep = .ofBits 0x3cf5c28f ∧ e₁.simulationTime = .zero false ∧
      nextIteration e₂ = (390 * 10 ^ 6, some .completed, [], .running) ∧
      e₂.dueStep = .ofBits 0x3e4ccccd ∧ e₂.simulationTime = .ofBits 0x3f9eb851e0000000 ∧
      (step Headless.facades.chronicled e₂).2.simulationTime = .ofBits 0x3fcd70a3dc000000 := by
  obtain ⟨e, he⟩ : ∃ e, playedSession = .ok e := exists_of_isOk (by decide +kernel)
  have hsessions : (playedSession.toOption.map fun e =>
      ((deedsOf Headless.facades e).all (·.before.session == .noSession),
        (worldAfter Headless.facades e).session)) = some (true, .noSession) := by decide +kernel
  have hfirst : (playedSession.toOption.map fun e => nextIteration (make Headless.facades.chronicled
      (.pace .completed) (make Headless.facades.chronicled .start e).2).2) =
      some (30 * 10 ^ 6, some .completed, [], .running) := by decide +kernel
  have hsecond : (playedSession.toOption.map fun e => nextIteration (make Headless.facades.chronicled
      (.pace .completed) (step Headless.facades.chronicled (make Headless.facades.chronicled
        (.pace .completed) (make Headless.facades.chronicled .start e).2).2).2).2) =
      some (390 * 10 ^ 6, some .completed, [], .running) := by decide +kernel
  rw [he] at hsessions hfirst hsecond
  obtain ⟨hbefore, hafter⟩ := Prod.mk.inj (Option.some.inj hsessions)
  obtain ⟨hzero, hmake, hclocked, -, hunplayed⟩ := simulation_clock Headless.facades he
  have hasks : ∀ w, AsksIn Headless.facades e w →
      (Headless.facades (κ := FrameStats)).session w = .noSession ∨
        (Headless.facades (κ := FrameStats)).guiActive w = true := by
    intro w hw
    cases hw with
    | @updated d hd =>
      have hsession : d.before.session = .noSession := by
        simpa using List.all_eq_true.mp hbefore d hd
      exact .inl hsession
    | rendered => exact .inl hafter
  obtain ⟨hlength₁, hstep₁⟩ := (hclocked _).played (Option.some.inj hfirst)
  obtain ⟨hlength₂, hstep₂⟩ := (hclocked _).played (Option.some.inj hsecond)
  have htime₁ := (hmake _ (.pace .completed) nofun).trans ((hmake e .start nofun).trans hzero)
  have htime₂ := (hmake _ (.pace .completed) nofun).trans hstep₁
  rw [htime₁, hlength₁] at htime₂
  rw [htime₂, hlength₂] at hstep₂
  refine ⟨e, he, (hunplayed _ _ (.step .start hasks)).1.trans hzero, Option.some.inj hfirst,
    hlength₁.trans ?_, htime₁, Option.some.inj hsecond, hlength₂.trans ?_, htime₂.trans ?_,
    hstep₂.trans ?_⟩ <;> decide +kernel

end Engine

end FrameLoop
