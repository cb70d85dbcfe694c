import FrameLoop.Frame
import FrameLoop.Headless
import FrameLoop.Proofs.Accounts

/-! Properties of actions that pass from the parts of a frame to the whole frame. -/

namespace FrameLoop

/-- Actions in a row have the property if each of them has it. -/
structure Chains {S : Type} (P : ∀ {α : Type}, StateM S α → Prop) : Prop where
  pure : ∀ {α : Type} (a : α), P (Pure.pure a : StateM S α)
  bind : ∀ {α β : Type} {act : StateM S α} {f : α → StateM S β},
    P act → (∀ a, P (f a)) → P (act >>= f)

namespace Chains

variable {S : Type} {P : ∀ {α : Type}, StateM S α → Prop} {α β ε ε' : Type}

theorem forM (h : Chains P) {l : List α} {f : α → StateM S PUnit} (hf : ∀ a, P (f a)) :
    P (l.forM f) := by
  induction l with
  | nil => exact h.pure _
  | cons a l ih => exact h.bind (hf a) fun _ => ih

/-- An attempt that stops early leaves out the rest. -/
theorem attempt_bind (h : Chains P) {act : ExceptT ε (StateM S) α}
    {f : α → ExceptT ε (StateM S) β} (hact : P act.run) (hf : ∀ a, P (f a).run) :
    P (act >>= f).run := by
  refine h.bind (f := ExceptT.bindCont f) hact fun r => ?_
  cases r with
  | ok a => exact hf a
  | error e => exact h.pure _

theorem lift (h : Chains P) {act : StateM S α} (hact : P act) :
    P (ExceptT.lift act : ExceptT ε (StateM S) α).run :=
  h.bind hact fun _ => h.pure _

theorem adapt (h : Chains P) {act : ExceptT ε (StateM S) α} {g : ε → ε'} (hact : P act.run) :
    P (act.adapt g).run :=
  h.bind hact fun _ => h.pure _

end Chains

variable {σ κ : Type}

/-- The property that all has of which the phases of a frame are made but their timing. -/
structure Untimed (P : ∀ {α : Type}, Act σ κ α → Prop) (F : Facades σ κ) (stamp : Stamp) : Prop
    extends Chains P where
  note : ∀ thread level message, P (Scene.note thread level message : Act σ κ Unit)
  ask : ∀ {α : Type} (query : σ → α), P (Facades.ask query : Act σ κ α)
  change : ∀ f : σ → σ, P (modify fun s => { s with world := f s.world } : Act σ κ PUnit)
  call : ∀ c, P (F.call c).run
  nextEntry : P (Orchestrator.nextEntry F)
  runLocal : ∀ entry, P (F.runLocal entry).run
  stepPhysics : ∀ dt guiActive, P (F.stepPhysics dt guiActive stamp).run

theorem Untimed.tell {P : ∀ {α : Type}, Act σ κ α → Prop} {F : Facades σ κ} {stamp : Stamp}
    (h : Untimed P F stamp) (c : Call) : P (F.tell c) :=
  h.bind (h.call c) fun _ => h.pure _

section

variable [StatsSink κ]

/-- The property that all has of which the timing of a phase of a frame is made. -/
structure Timing (P : ∀ {α : Type}, Act σ κ α → Prop) (stamp : Stamp) : Prop extends Chains P where
  now : P (Scene.now : Act σ κ Instant)
  collects : ∀ category, P (Scene.collects category : Act σ κ Bool)
  setAttribute : ∀ name value, P (Scene.setAttribute stamp.number name value : Act σ κ Unit)

/-- The property that the phases of a frame have, whether they are timed or not. -/
structure Phased (P : ∀ {α : Type}, Act σ κ α → Prop) (F : Facades σ κ) (stamp : Stamp) : Prop
    extends Untimed P F stamp where
  timed : ∀ (phase : Phase) {ε α : Type} {body : Attempt ε σ κ α},
    P body.run → P (Scene.timed phase stamp body).run
  reports : P (do
    if ← ExceptT.lift (Scene.collects resourceStats) then
      ExceptT.lift (F.reportStats stamp.number) : Attempt Stop σ κ Unit).run

/-- The property that the parts of a frame with a stamp have. -/
structure Throughout (P : ∀ {α : Type}, Act σ κ α → Prop) (F : Facades σ κ) (stamp : Stamp) : Prop
    extends Timing P stamp where
  note : ∀ thread level message, P (Scene.note thread level message : Act σ κ Unit)
  ask : ∀ {α : Type} (query : σ → α), P (Facades.ask query : Act σ κ α)
  change : ∀ f : σ → σ, P (modify fun s => { s with world := f s.world } : Act σ κ PUnit)
  call : ∀ c, P (F.call c).run
  nextEntry : P (Orchestrator.nextEntry F)
  runLocal : ∀ entry, P (F.runLocal entry).run
  stepPhysics : ∀ dt guiActive, P (F.stepPhysics dt guiActive stamp).run
  reportPart : ∀ part, P (F.reportPart part stamp.number)

variable {P : ∀ {α : Type}, Act σ κ α → Prop} {F : Facades σ κ} {stamp : Stamp} {α ε : Type}

theorem Timing.closePhase (h : Timing P stamp) (phase : Phase) (start : Instant) :
    P (Scene.closePhase phase stamp start) := by
  have hdue : P (Scene.dueTimings phase stamp start : Act σ κ _) := by
    refine h.bind (h.collects _) fun collecting => ?_
    cases collecting with
    | true => exact h.bind h.now fun _ => h.pure _
    | false => exact h.pure _
  exact h.bind hdue fun l => h.forM fun a => h.setAttribute a.1 a.2

theorem Timing.timed (h : Timing P stamp) (phase : Phase) {body : Attempt ε σ κ α}
    (hbody : P body.run) : P (Scene.timed phase stamp body).run :=
  h.bind h.now fun start => h.bind hbody fun _ => h.bind (h.closePhase phase start) fun _ => h.pure _

namespace Throughout

theorem reportStats (h : Throughout P F stamp) : P (F.reportStats stamp.number) := by
  refine h.bind (h.setAttribute _ _) fun _ => h.bind (h.reportPart _) fun _ => ?_
  refine h.bind (h.ask _) fun _ => h.bind (h.setAttribute _ _) fun _ => ?_
  refine h.bind (h.ask _) fun _ => h.bind (h.setAttribute _ _) fun _ => ?_
  exact h.forM fun part => h.reportPart part

theorem phased (h : Throughout P F stamp) : Phased P F stamp where
  toChains := h.toChains
  timed phase _ _ _ hbody := h.timed phase hbody
  note := h.note
  ask := h.ask
  change := h.change
  call := h.call
  nextEntry := h.nextEntry
  runLocal := h.runLocal
  stepPhysics := h.stepPhysics
  reports := by
    refine h.attempt_bind (h.lift (h.collects _)) fun collecting => ?_
    cases collecting with
    | true => exact h.lift h.reportStats
    | false => exact h.pure _

end Throughout

/-- The headless physics asks, and has a phase of its own. -/
theorem Chains.headless {P : ∀ {α : Type}, Act Headless.World κ α → Prop} (h : Chains P)
    (hask : ∀ query : Headless.World → Nat, P (Facades.ask query : Act Headless.World κ Nat))
    (hphase : P (Scene.timed (ε := Failure) .physicsWorker stamp (Pure.pure ())).run) (dt : Single)
    (guiActive : Bool) : P (Headless.stepPhysics dt guiActive stamp).run := by
  refine h.attempt_bind (h.lift (hask _)) fun workers => ?_
  split
  · exact hphase
  · exact h.pure _

theorem Timing.headless {P : ∀ {α : Type}, Act Headless.World κ α → Prop} (h : Timing P stamp)
    (hask : ∀ query : Headless.World → Nat, P (Facades.ask query : Act Headless.World κ Nat))
    (dt : Single) (guiActive : Bool) : P (Headless.stepPhysics dt guiActive stamp).run :=
  h.toChains.headless hask (h.timed .physicsWorker (h.pure _)) dt guiActive

end

namespace Orchestrator

variable {P : ∀ {α : Type}, Act σ κ α → Prop} {F : Facades σ κ} {stamp : Stamp}

section

variable (h : Untimed P F stamp) (dt : Single)

include h

theorem untimed_call (c : Call) : P (call F c).run := h.adapt (h.call c)

theorem untimed_tell (c : Call) : P (tell F c).run := h.lift (h.tell c)

theorem untimed_ask {α : Type} (query : σ → α) : P (ask query : Attempt Stop σ κ α).run :=
  h.lift (h.ask query)

theorem untimed_drain (patience : Nat) : P (drain F patience).run := by
  induction patience with
  | zero => exact h.pure _
  | succ patience ih =>
    refine h.attempt_bind (h.lift h.nextEntry) fun entry => ?_
    cases entry with
    | none => exact h.pure _
    | some entry => exact h.attempt_bind (h.adapt (h.runLocal entry)) fun _ => ih

theorem untimed_runLocalScripts (patience : Nat) : P (runLocalScripts F patience).run :=
  have hstart := h.change fun w => F.withLocalScripts (F.localScripts w).start w
  h.attempt_bind (h.bind hstart fun _ => h.pure _) fun _ => untimed_drain h _

theorem untimed_soundPhase (useSound : Bool) : P (soundPhase F useSound dt).run := by
  refine h.attempt_bind (untimed_ask h _) fun visible => ?_
  cases visible with
  | true =>
    refine h.attempt_bind (untimed_tell h _) fun _ => ?_
    cases useSound with
    | true => exact h.attempt_bind (untimed_call h _) fun _ => h.pure _
    | false => exact h.pure _
  | false => exact h.attempt_bind (untimed_tell h _) fun _ => h.pure _

theorem untimed_scriptPhase (patience : Nat) (paused guiActive sessionActive : Bool) :
    P (scriptPhase F patience dt paused guiActive sessionActive).run := by
  have htime : P (do
      if !guiActive then
        tell F (.advanceTime (hoursOf dt (← ask F.timeScale)))
        tell F (.rechargeItems dt) : Attempt Stop σ κ Unit).run := by
    cases guiActive with
    | true => exact h.pure _
    | false =>
      refine h.attempt_bind (untimed_ask h _) fun _ => ?_
      exact h.attempt_bind (untimed_tell h _) fun _ => untimed_tell h _
  have hmark := h.attempt_bind (untimed_tell h .markCellUnchanged) fun _ => htime
  cases sessionActive with
  | false => exact h.pure _
  | true =>
    cases paused with
    | true => exact htime
    | false =>
      refine h.attempt_bind (untimed_ask h _) fun enabled => ?_
      cases enabled with
      | true =>
        refine h.attempt_bind (untimed_runLocalScripts h patience) fun _ => ?_
        exact h.attempt_bind (untimed_call h _) fun _ => hmark
      | false => exact hmark

theorem untimed_mechanicsPhase (guiActive sessionActive : Bool) :
    P (mechanicsPhase F dt guiActive sessionActive).run := by
  have hdeath : P (do
      if (← ask F.session) == SessionState.running && !guiActive && (← ask F.playerDead) then
        ExceptT.lift (Scene.note .main .info "Player is dead, ending the session")
        tell F .endSession : Attempt Stop σ κ Unit).run := by
    refine h.attempt_bind (untimed_ask h _) fun session => ?_
    refine h.attempt_bind (untimed_ask h _) fun dead => ?_
    split
    · exact h.attempt_bind (h.lift (h.note _ _ _)) fun _ => untimed_tell h _
    · exact h.pure _
  cases sessionActive with
  | true => exact h.attempt_bind (untimed_call h _) fun _ => hdeath
  | false => exact hdeath

theorem untimed_physicsPhase (guiActive sessionActive : Bool) :
    P (physicsPhase F dt stamp guiActive sessionActive).run := by
  cases sessionActive with
  | true => exact h.adapt (h.stepPhysics _ _)
  | false => exact h.pure _

theorem untimed_worldPhase (guiActive sessionActive : Bool) :
    P (worldPhase F dt guiActive sessionActive).run := by
  cases sessionActive with
  | true => exact untimed_call h _
  | false => exact h.pure _

end

variable [StatsSink κ] (h : Phased P F stamp) (dt : Single)

include h

theorem phased_simulate (o : Orchestrator) : P (simulate F o dt stamp).run := by
  have hu := h.toUntimed
  refine h.attempt_bind (untimed_ask hu _) fun paused => ?_
  refine h.attempt_bind (untimed_call hu _) fun _ => ?_
  refine h.attempt_bind (h.timed .state (untimed_call hu _)) fun _ => ?_
  refine h.attempt_bind (untimed_ask hu _) fun guiActive => ?_
  refine h.attempt_bind (untimed_ask hu _) fun sessionActive => ?_
  refine h.attempt_bind (h.timed .script (untimed_scriptPhase hu dt _ _ _ _)) fun _ => ?_
  refine h.attempt_bind (h.timed .mechanics (untimed_mechanicsPhase hu dt _ _)) fun _ => ?_
  refine h.attempt_bind (h.timed .physics (untimed_physicsPhase hu dt _ _)) fun _ => ?_
  refine h.attempt_bind (h.timed .world (untimed_worldPhase hu dt _ _)) fun _ => ?_
  exact h.attempt_bind (h.timed .gui (untimed_call hu _)) fun _ => h.reports

section

variable {Q : ∀ {α : Type}, Act σ κ α → Prop}
  (hq : ∀ {α β : Type} {act : Act σ κ α} {f : α → Act σ κ β}, Q act → (∀ a, P (f a)) → Q (act >>= f))

include hq

/-- What the input phase has is not lost in the rest of the phases. -/
theorem opened_runPhases (o : Orchestrator)
    (hinput : Q (Scene.timed .input stamp (inputPhase F dt)).run) :
    Q (runPhases F o dt stamp).run := by
  have hsound := h.timed .sound (untimed_soundPhase h.toUntimed dt o.useSound)
  refine hq (f := ExceptT.bindCont _) hinput fun r => ?_
  cases r with
  | error e => exact h.pure _
  | ok _ =>
    refine h.attempt_bind hsound fun goesOn => ?_
    cases goesOn with
    | true => exact h.attempt_bind (phased_simulate h dt o) fun _ => h.pure _
    | false => exact h.pure _

theorem opened_frame (o : Orchestrator)
    (hinput : Q (Scene.timed .input stamp (inputPhase F dt)).run) : Q (frame F o dt stamp) := by
  refine hq (opened_runPhases h dt hq o hinput) fun r => ?_
  rcases r with (_ | _) | (_ | _)
  · exact h.bind (h.note _ _ _) fun _ => h.pure _
  · exact h.pure _
  · exact h.bind (h.note _ _ _) fun _ => h.pure _
  · exact h.pure _

end

theorem phased_frame (o : Orchestrator) : P (frame F o dt stamp) :=
  opened_frame h dt h.bind o (h.timed .input (untimed_call h.toUntimed _))

omit h in
theorem throughout_frame (h : Throughout P F stamp) (dt : Single) (o : Orchestrator) :
    P (frame F o dt stamp) :=
  phased_frame h.phased dt o

end Orchestrator

end FrameLoop
