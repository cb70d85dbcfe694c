import FrameLoop.Headless
import FrameLoop.Proofs.Blind
import FrameLoop.Proofs.PendingUpdates

/-! Frames of the headless subsystems. Nothing fails in them, the window is visible, and what decides
on the next frame stays as it is, so that all of them are completed. -/

namespace FrameLoop

variable {σ κ α β ε ε' : Type}

/-- In a world with `I` the attempt succeeds with a `Q`, and `I` stays. -/
def Succeeds (I : σ → Prop) (act : Attempt ε σ κ α) (Q : α → Prop) : Prop :=
  ∀ s, I s.world → ∃ a, (act.run s).1 = .ok a ∧ Q a ∧ I (act.run s).2.world

namespace Succeeds

variable {I : σ → Prop} {F : Facades σ κ} {act : Attempt ε σ κ α} {Q : α → Prop} {R : β → Prop}

theorem pure {a : α} (h : Q a) : Succeeds I (Pure.pure a : Attempt ε σ κ α) Q :=
  fun _ hs => ⟨a, rfl, h, hs⟩

theorem bind {f : α → Attempt ε σ κ β} (h : Succeeds I act Q)
    (hf : ∀ a, Q a → Succeeds I (f a) R) : Succeeds I (act >>= f) R := by
  intro s hs
  obtain ⟨a, ha, hq, hi⟩ := h s hs
  obtain ⟨b, hb, hr, hj⟩ := hf a hq _ hi
  have hbind : (act >>= f).run s = ExceptT.bindCont f (act.run s).1 (act.run s).2 := rfl
  rw [hbind, ha]
  exact ⟨b, hb, hr, hj⟩

theorem adapt {g : ε → ε'} (h : Succeeds I act Q) : Succeeds I (act.adapt g) Q := by
  intro s hs
  obtain ⟨a, ha, hq, hi⟩ := h s hs
  refine ⟨a, ?_, hq, hi⟩
  have hadapt : ((act.adapt g).run s).1 = Except.mapError g (act.run s).1 := rfl
  rw [hadapt, ha]
  rfl

/-- An action that cannot fail, and leaves the world as it is. -/
theorem of_still {act : Act σ κ Unit} (h : ∀ s, (act s).2.world = s.world) :
    Succeeds I (ExceptT.lift act : Attempt ε σ κ Unit) fun _ => True :=
  fun _ hs => ⟨(), rfl, trivial, (congrArg I (h _)).mpr hs⟩

theorem ask_bind {query : σ → α} {f : α → Attempt Stop σ κ β} (h : ∀ w, I w → Q (query w))
    (hf : ∀ a, Q a → Succeeds I (f a) R) : Succeeds I (Orchestrator.ask query >>= f) R :=
  bind (fun s hs => ⟨query s.world, rfl, h _ hs, hs⟩) hf

theorem tell {c : Call} (h : ∀ w, I w → I (F.perform c w).world) :
    Succeeds I (Orchestrator.tell F c) fun _ => True :=
  fun _ hs => ⟨(), rfl, trivial, h _ hs⟩

theorem call {c : Call} (h : ∀ w, I w → (F.perform c w).answer = .ok () ∧ I (F.perform c w).world) :
    Succeeds I (F.call c) fun _ => True := by
  intro s hs
  refine ⟨(), ?_, trivial, (h _ hs).2⟩
  have hanswer : ((F.call c).run s).1 = if c.fallible then (F.perform c s.world).answer else .ok () :=
    rfl
  rw [hanswer, (h _ hs).1, ite_self]

variable [StatsSink κ]

theorem timed {phase : Phase} {stamp : Stamp} (h : Succeeds I act Q) :
    Succeeds I (Scene.timed phase stamp act) Q := by
  intro s hs
  obtain ⟨a, ha, hq, hi⟩ := h (Scene.now s).2 hs
  refine ⟨a, ha, hq, ?_⟩
  have hclosed : ((Scene.timed phase stamp act).run s).2.world = (act.run (Scene.now s).2).2.world :=
    Scene.closePhase_world phase stamp (Scene.now s).1 _
  rw [hclosed]
  exact hi

/-- The reports of a frame only read the world. -/
theorem reports (hF : Blind F) (frame : Nat) :
    Succeeds I (do
      if ← ExceptT.lift (Scene.collects resourceStats) then
        ExceptT.lift (F.reportStats frame) : Attempt Stop σ κ Unit) fun _ => True := by
  have hcollects : Succeeds I (ExceptT.lift (Scene.collects resourceStats) : Attempt Stop σ κ Bool)
      fun _ => True :=
    fun s hs => ⟨StatsSink.collects s.sink resourceStats, rfl, trivial, hs⟩
  refine hcollects.bind fun collecting _ => ?_
  cases collecting with
  | true => exact of_still (hF.reportStats_world frame)
  | false => exact .pure trivial

end Succeeds

namespace Headless

/-- The world between two calls, `rendered` frames and `updates` updates after the start at the main
menu or in a session. -/
structure Stage (menu : Bool) (frames rendered updates : Nat) (w : World) : Prop where
  frames : w.frames = frames
  rendered : w.rendered = rendered
  updates : w.updates = updates
  modes : w.modes = if menu then [.mainMenu] else []
  session : w.session = if menu then .noSession else .running
  scripts : w.scripts.entries = []
  hours : menu = true → w.gameHours = .zero false

/-- The calls that change nothing of which the stage tells. -/
def stays (menu : Bool) : Call → Bool
  | .endSession | .newSession _ | .loadSession _ | .pushMode _ | .advanceRenderer _ _ => false
  | .advanceTime _ => !menu
  | _ => true

theorem blind {κ : Type} [StatsSink κ] : Blind (facades : Facades World κ) where
  stepPhysics dt guiActive stamp :=
    Worldly.chains.headless Worldly.ask (Worldly.timed .physicsWorker stamp (Worldly.chains.pure _))
      dt guiActive
  reportPart part frame s := by cases part <;> rfl

namespace Stage

variable {menu : Bool} {n r u : Nat} {w : World}

theorem perform (h : Stage menu n r u w) {c : Call} (hc : stays menu c = true) :
    (perform c w).answer = .ok () ∧ Stage menu n r u (perform c w).world := by
  have hpaused (paused : Bool) (message : String) :
      (setPaused paused message w).answer = .ok () ∧
        Stage menu n r u (setPaused paused message w).world := by
    unfold setPaused
    split
    · exact ⟨rfl, h⟩
    · exact ⟨rfl, h.frames, h.rendered, h.updates, h.modes, h.session, h.scripts, h.hours⟩
  cases c with
  | pausePlayback => exact hpaused true _
  | resumePlayback => exact hpaused false _
  | advanceTime hours =>
    refine ⟨rfl, h.frames, h.rendered, h.updates, h.modes, h.session, h.scripts, fun hmenu => ?_⟩
    rw [hmenu] at hc
    cases hc
  | endSession | newSession | loadSession | pushMode | advanceRenderer => cases hc
  | _ => exact ⟨rfl, h⟩

variable {κ : Type} [StatsSink κ]

theorem guiActive (h : Stage menu n r u w) :
    (facades : Facades World κ).guiActive w = menu := by
  change (!w.modes.isEmpty) = menu
  rw [h.modes]
  cases menu <;> rfl

theorem containsMode (h : Stage menu n r u w) :
    (facades : Facades World κ).containsMode .mainMenu w = menu := by
  change w.modes.contains .mainMenu = menu
  rw [h.modes]
  cases menu <;> rfl

theorem hasActiveSession (h : Stage menu n r u w) :
    (facades : Facades World κ).hasActiveSession w = !menu := by
  change w.session.isActive = !menu
  rw [h.session]
  cases menu <;> rfl

theorem windowClosed (h : Stage menu n r u w) :
    (facades : Facades World κ).windowClosed w = decide (n ≤ r) := by
  change decide (w.frames ≤ w.rendered) = decide (n ≤ r)
  rw [h.frames, h.rendered]

theorem advanceRenderer (h : Stage menu n r u w) (time : Double) (frame : Nat) :
    Stage menu n (r + 1) u (Headless.perform (.advanceRenderer time frame) w).world :=
  ⟨h.frames, congrArg (· + 1) h.rendered, h.updates, h.modes, h.session, h.scripts, h.hours⟩

theorem updated (h : Stage menu n r u w) (stamps : List Stamp) :
    Stage menu n r (u + stamps.length)
      (stamps.foldl (Update.updated (facades : Facades World κ)) w) := by
  induction stamps generalizing u w with
  | nil => exact h
  | cons stamp stamps ih =>
    have hone : Stage menu n r (u + 1) (Update.updated (facades : Facades World κ) w stamp) :=
      ⟨h.frames, h.rendered, congrArg (· + 1) h.updates, h.modes, h.session, h.scripts, h.hours⟩
    have hall := ih hone
    rwa [Nat.add_assoc, Nat.add_comm 1] at hall

end Stage

variable {κ : Type} [StatsSink κ] {menu : Bool} {n r u : Nat}

open Orchestrator

theorem call {c : Call} (hc : stays menu c = true) :
    Succeeds (Stage menu n r u)
      (Orchestrator.call (facades : Facades World κ) c) fun _ => True :=
  (Succeeds.call fun _ h => h.perform hc).adapt

theorem tell {c : Call} (hc : stays menu c = true) :
    Succeeds (Stage menu n r u)
      (Orchestrator.tell (facades : Facades World κ) c) fun _ => True :=
  .tell fun _ h => (h.perform hc).2

theorem soundPhase (useSound : Bool) (dt : Single) :
    Succeeds (Stage menu n r u) (Orchestrator.soundPhase (facades : Facades World κ) useSound dt)
      (· = true) := by
  refine .ask_bind (Q := (· = true)) (fun _ _ => rfl) fun visible hv => ?_
  subst hv
  refine (tell rfl).bind fun _ _ => ?_
  cases useSound with
  | true => exact (call rfl).bind fun _ _ => .pure rfl
  | false => exact .pure rfl

theorem runLocalScripts (patience : Nat) :
    Succeeds (Stage menu n r u)
      (Orchestrator.runLocalScripts (facades : Facades World κ) patience) fun _ => True := by
  intro s hs
  have hrun : (Orchestrator.runLocalScripts (facades : Facades World κ) patience).run s =
      (.ok (), { s with world := { s.world with scripts := ⟨[], none⟩ } }) := by
    obtain ⟨w, k, c, schedule, log, workerLog⟩ := s
    obtain ⟨saves, physicsWorkers, n, r, modes, session, audioPaused, hours, u, entries, cursor⟩ := w
    obtain rfl : entries = [] := hs.scripts
    rfl
  rw [hrun]
  exact ⟨(), rfl, trivial, hs.frames, hs.rendered, hs.updates, hs.modes, hs.session, rfl, hs.hours⟩

/-- Scripts run, and time passes, only in a session. -/
theorem scriptPhase (patience : Nat) (dt : Single) :
    Succeeds (Stage menu n r u)
      (Orchestrator.scriptPhase (facades : Facades World κ) patience dt menu menu (!menu))
      fun _ => True := by
  cases menu with
  | true => exact .pure trivial
  | false =>
    have htime : Succeeds (Stage false n r u) (do
        Orchestrator.tell (facades : Facades World κ)
          (.advanceTime (hoursOf dt (← Orchestrator.ask (facades : Facades World κ).timeScale)))
        Orchestrator.tell (facades : Facades World κ) (.rechargeItems dt)) fun _ => True :=
      .ask_bind (Q := fun _ => True) (fun _ _ => trivial) fun _ _ =>
        (tell rfl).bind fun _ _ => tell rfl
    have hmark := (tell (c := .markCellUnchanged) rfl).bind fun _ _ => htime
    refine .ask_bind (Q := (· = true)) (fun _ _ => rfl) fun enabled he => ?_
    subst he
    exact (runLocalScripts patience).bind fun _ _ => (call rfl).bind fun _ _ => hmark

theorem mechanicsPhase (dt : Single) :
    Succeeds (Stage menu n r u)
      (Orchestrator.mechanicsPhase (facades : Facades World κ) dt menu (!menu)) fun _ => True := by
  have hdeath : Succeeds (Stage menu n r u) (do
      if (← Orchestrator.ask (facades : Facades World κ).session) == SessionState.running && !menu &&
          (← Orchestrator.ask (facades : Facades World κ).playerDead) then
        ExceptT.lift (Scene.note .main .info "Player is dead, ending the session")
        Orchestrator.tell (facades : Facades World κ) .endSession) fun _ => True := by
    refine .ask_bind (Q := fun _ => True) (fun _ _ => trivial) fun session _ => ?_
    -- the headless player never dies
    refine .ask_bind (Q := (· = false)) (fun _ _ => rfl) fun dead hd => ?_
    rw [hd, Bool.and_false]
    exact .pure trivial
  cases menu with
  | true => exact hdeath
  | false => exact (call rfl).bind fun _ _ => hdeath

theorem physicsPhase (dt : Single) (stamp : Stamp) :
    Succeeds (Stage menu n r u)
      (Orchestrator.physicsPhase (facades : Facades World κ) dt stamp menu (!menu)) fun _ => True := by
  cases menu with
  | true => exact .pure trivial
  | false =>
    refine Succeeds.adapt ?_
    have hworkers : Succeeds (ε := Failure) (Stage false n r u)
        (ExceptT.lift (Facades.ask World.physicsWorkers) : Attempt Failure World κ Nat)
        fun _ => True :=
      fun s hs => ⟨s.world.physicsWorkers, rfl, trivial, hs⟩
    refine hworkers.bind fun workers _ => ?_
    split
    · exact .timed (.pure trivial)
    · exact .pure trivial

theorem worldPhase (dt : Single) :
    Succeeds (Stage menu n r u)
      (Orchestrator.worldPhase (facades : Facades World κ) dt menu (!menu)) fun _ => True := by
  cases menu with
  | true => exact .pure trivial
  | false => exact call rfl

theorem simulate (o : Orchestrator) (dt : Single) (stamp : Stamp) :
    Succeeds (Stage menu n r u) (Orchestrator.simulate (facades : Facades World κ) o dt stamp)
      fun _ => True := by
  refine .ask_bind (Q := (· = menu)) (fun _ h => h.containsMode) fun paused hp => ?_
  refine (call rfl).bind fun _ _ => (Succeeds.timed (call rfl)).bind fun _ _ => ?_
  refine .ask_bind (Q := (· = menu)) (fun _ h => h.guiActive) fun guiActive hg => ?_
  refine .ask_bind (Q := (· = !menu)) (fun _ h => h.hasActiveSession) fun sessionActive hs => ?_
  subst hp hg hs
  refine (Succeeds.timed (scriptPhase _ dt)).bind fun _ _ => ?_
  refine (Succeeds.timed (mechanicsPhase dt)).bind fun _ _ => ?_
  refine (Succeeds.timed (physicsPhase dt stamp)).bind fun _ _ => ?_
  refine (Succeeds.timed (worldPhase dt)).bind fun _ _ => ?_
  exact (Succeeds.timed (call rfl)).bind fun _ _ => .reports blind _

/-- Every frame is completed. -/
theorem frame (o : Orchestrator) (dt : Single) (stamp : Stamp) {s : Scene World κ}
    (hs : Stage menu n r u s.world) :
    (Orchestrator.frame facades o dt stamp s).1 = some .completed ∧
      Stage menu n r u (Orchestrator.frame facades o dt stamp s).2.world := by
  have hphases : Succeeds (Stage menu n r u)
      (Orchestrator.runPhases (facades : Facades World κ) o dt stamp) (· = true) := by
    refine (Succeeds.timed (call rfl)).bind fun _ _ => ?_
    refine (Succeeds.timed (soundPhase _ dt)).bind fun goesOn hg => ?_
    subst hg
    exact (simulate o dt stamp).bind fun _ _ => .pure rfl
  obtain ⟨goesOn, hr, rfl, hi⟩ := hphases s hs
  rw [Orchestrator.frame, bind_apply, hr]
  exact ⟨rfl, hi⟩

end Headless
end FrameLoop
