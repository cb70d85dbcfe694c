import FrameLoop.Proofs.Agenda
import FrameLoop.Proofs.Stores

/-! The agenda of a frame. Whatever the subsystems answer, a frame is a run through it. -/

namespace FrameLoop

variable {σ κ α : Type} [StatsSink κ] {F : Facades σ κ}

theorem Plays.timed {items : List (Item σ)} {n : Notes} {N : Moment σ → Prop}
    {body : Attempt Stop (Chronicle σ) κ α} {goesOn : α → Bool} (phase : Phase) (stamp : Stamp)
    (s : Scene (Chronicle σ) κ)
    (h : ∀ s' : Scene (Chronicle σ) κ, s'.world = s.world → Plays F items n body goesOn N s') :
    Plays F items n (Scene.timed phase stamp body) goesOn N s := by
  obtain ⟨deeds, m, hw, hf, hn⟩ := h (Scene.now s).2 rfl
  refine ⟨deeds, m, ?_, hf, hn⟩
  exact (Scene.closePhase_world phase stamp (Scene.now s).1 _).trans hw

namespace Orchestrator

/-- A task that is always done. -/
def always (c : Call) : Item σ := .task (fun _ => true) fun _ => .call c

def inputAgenda (dt : Single) : List (Item σ) := [always (.updateInput dt false)]

/-- A hidden window is silent and ends the frame. -/
def soundAgenda (F : Facades σ κ) (useSound : Bool) (dt : Single) : List (Item σ) :=
  [.note fun m => { m.notes with visible := F.windowVisible m.world },
    .task (fun m => !m.notes.visible) fun _ => .call .pausePlayback,
    .halt fun m => !m.notes.visible,
    always .resumePlayback,
    .task (fun _ => useSound) fun _ => .call (.updateAudio dt)]

/-- The menu is looked at before the scripting engine is synchronized, the interface and the
session after the state is updated. -/
def stateAgenda (F : Facades σ κ) (dt : Single) : List (Item σ) :=
  [.note fun m => { m.notes with paused := F.containsMode .mainMenu m.world },
    always .synchronize,
    always (.updateState dt),
    .note fun m => { m.notes with
      guiActive := F.guiActive m.world, sessionActive := F.hasActiveSession m.world }]

/-- Time needs a session and an interface without modes. -/
def timeAgenda (F : Facades σ κ) (dt : Single) : List (Item σ) :=
  [.task (fun m => m.notes.sessionActive && !m.notes.guiActive)
      fun m => .call (.advanceTime (hoursOf dt (F.timeScale m.world))),
    .task (fun m => m.notes.sessionActive && !m.notes.guiActive)
      fun _ => .call (.rechargeItems dt)]

/-- Scripts need a session, a main menu that is closed, and to be enabled. -/
def scriptAgenda (F : Facades σ κ) (patience : Nat) (dt : Single) : List (Item σ) :=
  [.note fun m => { m.notes with scriptsEnabled := F.scriptsEnabled m.world },
    .drain patience fun m => m.notes.sessionActive && !m.notes.paused && m.notes.scriptsEnabled,
    .task (fun m => m.notes.sessionActive && !m.notes.paused && m.notes.scriptsEnabled)
      fun _ => .call .runGlobalScripts,
    .task (fun m => m.notes.sessionActive && !m.notes.paused)
      fun _ => .call .markCellUnchanged] ++ timeAgenda F dt

/-- Whether the session is running and the player dead is looked at after the mechanics. -/
def mechanicsAgenda (F : Facades σ κ) (dt : Single) : List (Item σ) :=
  [.task (fun m => m.notes.sessionActive) fun m => .call (.updateMechanics dt m.notes.guiActive),
    .task (fun m => m.notes.sessionActive && (F.session m.world == .running) &&
      !m.notes.guiActive && F.playerDead m.world) fun _ => .call .endSession]

def physicsAgenda (dt : Single) (stamp : Stamp) : List (Item σ) :=
  [.task (fun m => m.notes.sessionActive) fun m => .stepPhysics dt m.notes.guiActive stamp]

def worldAgenda (dt : Single) : List (Item σ) :=
  [.task (fun m => m.notes.sessionActive) fun m => .call (.updateWorld dt m.notes.guiActive)]

/-- The counters are reported at the end, if they are collected. -/
def guiAgenda (dt : Single) (stamp : Stamp) : List (Item σ) :=
  [always (.updateGui dt), .meanwhile stamp.number]

/-- What a frame does up to the point where the local scripts may be drained. -/
def openingAgenda (F : Facades σ κ) (o : Orchestrator) (dt : Single) : List (Item σ) :=
  inputAgenda dt ++ (soundAgenda F o.useSound dt ++ stateAgenda F dt)

def simulationAgenda (F : Facades σ κ) (o : Orchestrator) (dt : Single) (stamp : Stamp) :
    List (Item σ) :=
  scriptAgenda F o.patience dt ++ (mechanicsAgenda F dt ++
    (physicsAgenda dt stamp ++ (worldAgenda dt ++ guiAgenda dt stamp)))

/-- Everything that a frame does, in its order. -/
def agenda (F : Facades σ κ) (o : Orchestrator) (dt : Single) (stamp : Stamp) : List (Item σ) :=
  openingAgenda F o dt ++ simulationAgenda F o dt stamp

section

variable {o : Orchestrator} {dt : Single} {stamp : Stamp} {n : Notes} {s : Scene (Chronicle σ) κ}

omit [StatsSink κ] in
theorem performs_inputPhase : Performs F (inputAgenda dt) n (inputPhase F.chronicled dt) s :=
  .call rfl rfl

omit [StatsSink κ] in
theorem plays_soundPhase (useSound : Bool) :
    Plays F (soundAgenda F useSound dt) n (soundPhase F.chronicled useSound dt) id
      (fun _ => True) s := by
  refine .note (.asking ?_)
  cases hv : F.windowVisible s.world.world with
  | false =>
    have hq : F.chronicled.windowVisible s.world = false := hv
    simp only [hq]
    exact (Performs.tell rfl rfl rfl).bind fun _ => .halted rfl rfl
  | true =>
    have hq : F.chronicled.windowVisible s.world = true := hv
    simp only [hq]
    refine .closed rfl (.unhalted rfl ((Performs.tell rfl rfl rfl).bind fun _ => ?_))
    cases useSound with
    | false => exact .closed rfl (.pure rfl trivial)
    | true => exact (Performs.call rfl rfl).bind fun _ => .pure rfl trivial

/-- What a drain does when the entry that is next has been taken. -/
def drainFrom (F : Facades σ κ) (patience : Nat) :
    Option LocalScript → Attempt Stop (Chronicle σ) κ Unit
  | none => pure ()
  | some entry => do
    (F.chronicled.runLocal entry).adapt Stop.failure
    drain F.chronicled patience

omit [StatsSink κ] in
theorem drains_drain (patience : Nat) (s : Scene (Chronicle σ) κ) :
    ∃ deeds w, ((drain F.chronicled patience).run s).2.world = ⟨w, s.world.deeds ++ deeds⟩ ∧
      Drains F patience s.world.world deeds ((drain F.chronicled patience).run s).1 w := by
  induction patience generalizing s with
  | zero => exact ⟨[], s.world.world, by rw [List.append_nil]; rfl, .endless _⟩
  | succ patience ih =>
    let r := (F.localScripts s.world.world).next.2
    let s₁ := (nextEntry F.chronicled s).2
    have hw₁ : s₁.world = ⟨F.withLocalScripts r s.world.world, s.world.deeds⟩ := rfl
    have hrun : (drain F.chronicled (patience + 1)).run s =
        (drainFrom F patience (F.localScripts s.world.world).next.1).run s₁ := rfl
    rw [hrun]
    cases hn : (F.localScripts s.world.world).next.1 with
    | none => exact ⟨[], _, by rw [List.append_nil]; exact hw₁, .spent (Prod.ext hn rfl)⟩
    | some entry =>
      let s₂ := ((F.chronicled.runLocal entry).run s₁).2
      let o := F.runScript entry (F.localScripts s₁.world.world, s₁.world.world)
      have hd : Does F s₁.world.world (.runScript entry) o.answer
          (F.withLocalScripts o.world.1 o.world.2) := .runScript ..
      have hw₂ : s₂.world = ⟨F.withLocalScripts o.world.1 o.world.2,
          s.world.deeds ++ [⟨s₁.world.world, .runScript entry, o.answer⟩]⟩ := rfl
      have hgo : (drainFrom F patience (some entry)).run s₁ =
          (ExceptT.bindCont (fun _ => drain F.chronicled patience)
            (o.answer.mapError Stop.failure) : Act (Chronicle σ) κ _) s₂ := rfl
      rw [hgo]
      cases ha : o.answer with
      | error f =>
        rw [ha] at hd hw₂
        exact ⟨_, _, hw₂, .failed (Prod.ext hn rfl) hd⟩
      | ok _ =>
        rw [ha] at hd hw₂
        change ∃ deeds w, ((drain F.chronicled patience).run s₂).2.world = _ ∧
          Drains F _ _ deeds ((drain F.chronicled patience).run s₂).1 w
        obtain ⟨deeds, w, hw, hdr⟩ := ih s₂
        rw [hw₂] at hw hdr
        refine ⟨_, w, ?_, .run (Prod.ext hn rfl) hd hdr⟩
        rw [hw, List.append_assoc]
        rfl

omit [StatsSink κ] in
theorem performs_runLocalScripts {patience : Nat} {gate : Moment σ → Bool}
    (hg : gate ⟨s.world.world, n⟩ = true) :
    Performs F [.drain patience gate] n (runLocalScripts F.chronicled patience) s := by
  let s₁ : Scene (Chronicle σ) κ := { s with world :=
    ⟨F.withLocalScripts (F.localScripts s.world.world).start s.world.world, s.world.deeds⟩ }
  have hrun : (runLocalScripts F.chronicled patience).run s =
    (drain F.chronicled (patience + 1)).run s₁ := rfl
  obtain ⟨deeds, w, hw, hd⟩ := drains_drain (F := F) (patience + 1) s₁
  refine ⟨deeds, ⟨w, n⟩, hrun ▸ hw, ?_, fun _ => rfl⟩
  rw [hrun]
  cases ha : ((drain F.chronicled (patience + 1)).run s₁).1 with
  | ok _ =>
    rw [ha] at hd
    have hf : Follows F [.drain patience gate] ⟨s.world.world, n⟩ (deeds ++ []) (.ok true) ⟨w, n⟩ :=
      .drained hg hd (.done _)
    rwa [List.append_nil] at hf
  | error stop =>
    rw [ha] at hd
    exact .stuck hg hd

omit [StatsSink κ] in
theorem performs_time (dt : Single) (hs : n.sessionActive = true) (s : Scene (Chronicle σ) κ) :
    Performs F (timeAgenda F dt) n (do
      if !n.guiActive then
        tell F.chronicled (.advanceTime (hoursOf dt (← ask F.chronicled.timeScale)))
        tell F.chronicled (.rechargeItems dt)) s := by
  cases hg : n.guiActive with
  | true => exact .closed (by simp [hg]) (.closed (by simp [hg]) (.pure rfl rfl))
  | false =>
    have hopen : (n.sessionActive && !n.guiActive) = true := by simp [hs, hg]
    refine Plays.asking ?_
    exact (Performs.tell rfl hopen rfl).bind fun _ => Performs.tell rfl hopen rfl

/-- The scripts of a frame note only whether they are enabled, and without a session nothing
happens at all. -/
def AfterScripts (n : Notes) (w : σ) (m : Moment σ) : Prop :=
  m.notes.guiActive = n.guiActive ∧ m.notes.sessionActive = n.sessionActive ∧
    (n.sessionActive = false → m.world = w)

omit [StatsSink κ] in
theorem plays_scriptPhase (patience : Nat) (n : Notes) (s : Scene (Chronicle σ) κ) :
    Plays F (scriptAgenda F patience dt) n
      (scriptPhase F.chronicled patience dt n.paused n.guiActive n.sessionActive)
      (fun _ => true) (AfterScripts n s.world.world) s := by
  let n' : Notes := { n with scriptsEnabled := F.scriptsEnabled s.world.world }
  refine .note ?_
  cases hs : n.sessionActive with
  | false =>
    have hshut : ∀ b c, (n'.sessionActive && b && c) = false := by simp [n', hs]
    have hshut' : ∀ b, (n'.sessionActive && b) = false := by simp [n', hs]
    refine .undrained (hshut _ _) (.closed (hshut _ _) (.closed (hshut' _) ?_))
    exact .closed (hshut' _) (.closed (hshut' _) (.pure rfl ⟨rfl, rfl, fun _ => rfl⟩))
  | true =>
    have hafter : ∀ m : Moment σ, m.notes = n' → AfterScripts n s.world.world m := by
      intro m hm
      rw [AfterScripts, hm, hs]
      exact ⟨rfl, rfl, nofun⟩
    refine Plays.mono ?_ hafter
    have htime := performs_time (F := F) (n := n') dt hs
    cases hp : n.paused with
    | true =>
      have hshut : ∀ b, (n'.sessionActive && !n'.paused && b) = false := by simp [n', hp]
      have hidle : (n'.sessionActive && !n'.paused) = false := by simp [n', hp]
      exact .undrained (hshut _) (.closed (hshut _) (.closed hidle (htime s)))
    | false =>
      have hbusy : (n'.sessionActive && !n'.paused) = true := by simp [n', hs, hp]
      refine .asking ?_
      cases he : F.chronicled.scriptsEnabled s.world with
      | true =>
        have hopen : (n'.sessionActive && !n'.paused && n'.scriptsEnabled) = true := by
          rw [hbusy]
          exact he
        refine (performs_runLocalScripts hopen).bind fun s => ?_
        refine Performs.bind (Performs.call hopen rfl) fun s => ?_
        exact (Performs.tell rfl hbusy rfl).bind fun s => htime s
      | false =>
        have hshut : (n'.sessionActive && !n'.paused && n'.scriptsEnabled) = false := by
          rw [hbusy]
          exact he
        refine .undrained hshut (.closed hshut ?_)
        exact (Performs.tell rfl hbusy rfl).bind fun s => htime s

omit [StatsSink κ] in
/-- A session that is running is active. -/
theorem running_and_active {w : σ} {active : Bool}
    (h : active = false → F.hasActiveSession w = false) :
    (active && (F.session w == .running)) = (F.session w == .running) := by
  cases active with
  | true => rfl
  | false =>
    have hw := h rfl
    cases hr : F.session w with
    | running => rw [Facades.hasActiveSession, hr] at hw; cases hw
    | noSession | ended => rfl

omit [StatsSink κ] in
theorem performs_mechanicsPhase
    (hw : n.sessionActive = false → F.hasActiveSession s.world.world = false) :
    Performs F (mechanicsAgenda F dt) n
      (mechanicsPhase F.chronicled dt n.guiActive n.sessionActive) s := by
  have hdeath : ∀ s : Scene (Chronicle σ) κ,
      (n.sessionActive = false → F.hasActiveSession s.world.world = false) →
      Performs F (mechanicsAgenda F dt).tail n (do
        if (← ask F.chronicled.session) == SessionState.running && !n.guiActive &&
            (← ask F.chronicled.playerDead) then
          ExceptT.lift (Scene.note .main .info "Player is dead, ending the session")
          tell F.chronicled .endSession) s := by
    intro s hw
    refine .asking (.asking ?_)
    have hgate := congrArg (· && !n.guiActive && F.playerDead s.world.world)
      (running_and_active hw)
    cases hq : (F.chronicled.session s.world == .running && !n.guiActive &&
        F.chronicled.playerDead s.world) with
    | true =>
      let s' : Scene (Chronicle σ) κ :=
        Scene.append .main [⟨.info, "Player is dead, ending the session"⟩] s
      have hd : Performs F (mechanicsAgenda F dt).tail n
        (tell F.chronicled .endSession) s' := Performs.tell rfl (hgate.trans hq) rfl
      exact hd
    | false => exact .closed (hgate.trans hq) (.pure rfl rfl)
  cases hs : n.sessionActive with
  | false => exact .closed hs (hdeath s hw)
  | true =>
    refine Performs.bind (Performs.call hs rfl) fun s => hdeath s fun h => ?_
    rw [hs] at h
    cases h

omit [StatsSink κ] in
theorem performs_physicsPhase :
    Performs F (physicsAgenda dt stamp) n
      (physicsPhase F.chronicled dt stamp n.guiActive n.sessionActive) s := by
  cases hs : n.sessionActive with
  | false => exact .closed hs (.pure rfl rfl)
  | true =>
    refine .of_answer hs (.stepPhysics dt n.guiActive stamp (s.withWorld s.world.world)) rfl rfl

omit [StatsSink κ] in
theorem performs_worldPhase :
    Performs F (worldAgenda dt) n
      (worldPhase F.chronicled dt n.guiActive n.sessionActive) s := by
  cases hs : n.sessionActive with
  | false => exact .closed hs (.pure rfl rfl)
  | true => exact .call hs rfl

omit [StatsSink κ] in
theorem performs_always {c : Call} :
    Performs F [always c] n (call F.chronicled c) s :=
  .call rfl rfl

theorem performs_reports (s : Scene (Chronicle σ) κ) :
    Performs F [.meanwhile stamp.number] n (do
      if ← ExceptT.lift (Scene.collects resourceStats) then
        ExceptT.lift (F.chronicled.reportStats stamp.number)) s := by
  have h : Performs F [.meanwhile stamp.number] n
      (if StatsSink.collects s.sink resourceStats then
        ExceptT.lift (F.chronicled.reportStats stamp.number) else ExceptT.lift (pure ())) s := by
    split
    · exact .idle .reportStats s
    · exact .idle (.of_world_eq fun _ => rfl) s
  exact h

theorem performs_rest (hw : n.sessionActive = false → F.hasActiveSession s.world.world = false) :
    Performs F (mechanicsAgenda F dt ++ (physicsAgenda dt stamp ++
      (worldAgenda dt ++ guiAgenda dt stamp))) n (do
        Scene.timed .mechanics stamp
          (mechanicsPhase F.chronicled dt n.guiActive n.sessionActive)
        Scene.timed .physics stamp
          (physicsPhase F.chronicled dt stamp n.guiActive n.sessionActive)
        Scene.timed .world stamp (worldPhase F.chronicled dt n.guiActive n.sessionActive)
        Scene.timed .gui stamp (call F.chronicled (.updateGui dt))
        if ← ExceptT.lift (Scene.collects resourceStats) then
          ExceptT.lift (F.chronicled.reportStats stamp.number)) s := by
  have hmechanics : Performs F (mechanicsAgenda F dt) n (Scene.timed .mechanics stamp
      (mechanicsPhase F.chronicled dt n.guiActive n.sessionActive)) s :=
    Plays.timed .mechanics stamp s fun s' hs => performs_mechanicsPhase (hs ▸ hw)
  refine Performs.bind hmechanics fun s => ?_
  refine Performs.bind (Plays.timed .physics stamp s fun _ _ => performs_physicsPhase) fun s => ?_
  refine Performs.bind (Plays.timed .world stamp s fun _ _ => performs_worldPhase) fun s => ?_
  refine Performs.cons (Plays.timed .gui stamp s fun _ _ => performs_always) fun s => ?_
  exact performs_reports s

theorem plays_phases (hn : n.sessionActive = F.hasActiveSession s.world.world) :
    Plays F (simulationAgenda F o dt stamp) n (do
        Scene.timed .script stamp
          (scriptPhase F.chronicled o.patience dt n.paused n.guiActive n.sessionActive)
        Scene.timed .mechanics stamp
          (mechanicsPhase F.chronicled dt n.guiActive n.sessionActive)
        Scene.timed .physics stamp
          (physicsPhase F.chronicled dt stamp n.guiActive n.sessionActive)
        Scene.timed .world stamp (worldPhase F.chronicled dt n.guiActive n.sessionActive)
        Scene.timed .gui stamp (call F.chronicled (.updateGui dt))
        if ← ExceptT.lift (Scene.collects resourceStats) then
          ExceptT.lift (F.chronicled.reportStats stamp.number))
      (fun _ => true) (fun _ => True) s := by
  have hscript : Plays F (scriptAgenda F o.patience dt) n (Scene.timed .script stamp
      (scriptPhase F.chronicled o.patience dt n.paused n.guiActive n.sessionActive))
      (fun _ => true) (AfterScripts n s.world.world) s :=
    Plays.timed .script stamp s fun s' hs => hs ▸ plays_scriptPhase o.patience n s'
  refine Plays.andThen hscript fun _ m s' hm hw => ?_
  obtain ⟨hg, ha, hidle⟩ := hm
  rw [← hg, ← ha]
  refine Plays.mono (performs_rest fun h => ?_) fun _ _ => trivial
  rw [ha] at h
  rw [hw, hidle h, ← hn, h]

theorem plays_simulate (o : Orchestrator) (dt : Single) (stamp : Stamp) (n : Notes)
    (s : Scene (Chronicle σ) κ) :
    Plays F (stateAgenda F dt ++ simulationAgenda F o dt stamp) n
      (simulate F.chronicled o dt stamp) (fun _ => true) (fun _ => True) s := by
  refine .note (.asking (Performs.cons performs_always fun s => ?_))
  refine Performs.cons (Plays.timed .state stamp s fun s' _ => performs_always) fun s => ?_
  exact .note (.asking (.asking (plays_phases rfl)))

theorem plays_runPhases (o : Orchestrator) (dt : Single) (stamp : Stamp)
    (s : Scene (Chronicle σ) κ) :
    Plays F (agenda F o dt stamp) n (runPhases F.chronicled o dt stamp) id (fun _ => True) s := by
  rw [agenda, openingAgenda, List.append_assoc, List.append_assoc]
  have hinput : Performs F (inputAgenda dt) n
      (Scene.timed .input stamp (inputPhase F.chronicled dt)) s :=
    Plays.timed .input stamp s fun _ _ => performs_inputPhase
  refine hinput.bind fun s => ?_
  have hsound : Plays F (soundAgenda F o.useSound dt) n
      (Scene.timed .sound stamp (soundPhase F.chronicled o.useSound dt)) id (fun _ => True) s :=
    Plays.timed .sound stamp s fun _ _ => plays_soundPhase o.useSound
  refine hsound.bind (fun goesOn m s' hgo _ _ => ?_) fun goesOn s' hgo => ?_
  · obtain rfl : goesOn = true := hgo
    have hsim : Plays F ((stateAgenda F dt ++ simulationAgenda F o dt stamp) ++ []) m.notes (do
        simulate F.chronicled o dt stamp
        return true) id (fun _ => True) s' :=
      (plays_simulate o dt stamp m.notes s').andThen fun _ _ _ _ _ => .pure rfl trivial
    rwa [List.append_nil] at hsim
  · obtain rfl : goesOn = false := hgo
    exact ⟨rfl, rfl⟩

end

end Orchestrator

/-- The outcome of a frame that ran through its agenda. -/
def FrameOutcome.ofResult : Except Stop Bool → Option FrameOutcome
  | .ok true => some completed
  | .ok false => some skipped
  | .error (.failure _) => some failed
  | .error .endless => none

namespace Orchestrator

theorem frame_follows (F : Facades σ κ) (o : Orchestrator) (dt : Single) (stamp : Stamp)
    (n : Notes) (s : Scene (Chronicle σ) κ) :
    ∃ deeds r m,
      (frame F.chronicled o dt stamp s).2.world = ⟨m.world, s.world.deeds ++ deeds⟩ ∧
      Follows F (agenda F o dt stamp) ⟨s.world.world, n⟩ deeds r m ∧
      (frame F.chronicled o dt stamp s).1 = FrameOutcome.ofResult r := by
  obtain ⟨deeds, m, hw, hf, -⟩ := plays_runPhases (F := F) (n := n) o dt stamp s
  rw [frame, bind_apply]
  generalize (runPhases F.chronicled o dt stamp).run s = x at hw hf ⊢
  obtain ⟨r, s'⟩ := x
  refine ⟨deeds, r, m, ?_, ?_, ?_⟩
  · rw [← hw]
    rcases r with (_ | _) | (_ | _) <;> rfl
  · cases r <;> exact hf
  · rcases r with (_ | _) | (_ | _) <;> rfl

end Orchestrator

end FrameLoop
