import FrameLoop.Frame
import FrameLoop.Proofs.ScriptingCalls

/-! What a frame of the simulation asks of the scripting engine: nothing before the
synchronization, and after it at most a report of its counters, if every phase has run. -/

namespace FrameLoop

variable {σ κ α ε : Type} {F : Facades σ κ}

theorem makes_call (c : Call) :
    Makes (F.watched.call c : Attempt Failure (Watched σ) κ Unit).run fun _ calls =>
      calls = c.onScripting := by
  intro s
  refine ⟨_, ⟨rfl, fun r hr _ => ?_, fun _ hr _ => hr⟩, rfl⟩
  change r ∈ s.log ++ #[] at hr
  simpa using hr

namespace Silent

theorem now : Silent (Scene.now : Act (Watched σ) κ Instant) := .of_eq fun _ => ⟨rfl, rfl, rfl⟩

theorem ask (query : Watched σ → α) : Silent (Facades.ask query : Act (Watched σ) κ α) :=
  .of_eq fun _ => ⟨rfl, rfl, rfl⟩

theorem note (thread : Thread) {level : Level} (message : String) (h : level ≠ .warn) :
    Silent (Scene.note thread level message : Act (Watched σ) κ Unit) :=
  fun s => .note thread s message h

section

variable [StatsSink κ]

theorem collects (category : String) :
    Silent (Scene.collects category : Act (Watched σ) κ Bool) :=
  .of_eq fun _ => ⟨rfl, rfl, rfl⟩

theorem setAttribute (frame : Nat) (name : String) (value : Double) :
    Silent (Scene.setAttribute frame name value : Act (Watched σ) κ Unit) :=
  .of_eq fun _ => ⟨rfl, rfl, rfl⟩

theorem dueTimings (phase : Phase) (stamp : Stamp) (start : Instant) :
    Silent (Scene.dueTimings phase stamp start : Act (Watched σ) κ _) := by
  apply of_eq
  intro s
  rw [Scene.dueTimings_eq]
  split <;> exact ⟨rfl, rfl, rfl⟩

theorem closePhase (phase : Phase) (stamp : Stamp) (start : Instant) :
    Silent (Scene.closePhase phase stamp start : Act (Watched σ) κ Unit) :=
  (dueTimings phase stamp start).bind fun _ => .forM fun ⟨_, _⟩ => setAttribute _ _ _

theorem timed (phase : Phase) (stamp : Stamp) {body : Attempt ε (Watched σ) κ α}
    (h : Silent body.run) : Silent (Scene.timed phase stamp body).run :=
  now.bind fun _ => h.bind fun _ => (closePhase phase stamp _).bind fun _ => .pure _

end

theorem call {c : Call} (h : c.onScripting = []) : Silent (F.watched.call c).run := by
  intro s
  obtain ⟨calls, ha, hc⟩ := makes_call (F := F) c s
  rwa [hc, h] at ha

theorem tell {c : Call} (h : c.onScripting = []) : Silent (F.watched.tell c) :=
  (call h).bind fun _ => .pure _

theorem runLocal (entry : LocalScript) : Silent (F.watched.runLocal entry).run := by
  apply of_eq
  intro s
  refine ⟨rfl, ?_, rfl⟩
  change s.log ++ #[] = s.log
  simp

theorem stepPhysics (dt : Single) (guiActive : Bool) (stamp : Stamp) :
    Silent (F.watched.stepPhysics dt guiActive stamp).run :=
  .of_eq fun s => ⟨List.append_nil s.world.asked, rfl, rfl⟩

end Silent

namespace Orchestrator

variable {o : Orchestrator} {dt : Single} {stamp : Stamp}

theorem silent_call {c : Call} (h : c.onScripting = []) : Silent (call F.watched c).run :=
  (Silent.call h).adapt _

theorem silent_tell {c : Call} (h : c.onScripting = []) : Silent (tell F.watched c).run :=
  (Silent.tell h).lift

theorem silent_ask (query : Watched σ → α) :
    Silent (ask query : Attempt Stop (Watched σ) κ α).run :=
  (Silent.ask query).lift

theorem silent_nextEntry : Silent (nextEntry F.watched : Act (Watched σ) κ _) :=
  .of_eq fun _ => ⟨rfl, rfl, rfl⟩

theorem silent_drain (patience : Nat) :
    Silent (drain F.watched patience : Attempt Stop (Watched σ) κ Unit).run := by
  induction patience with
  | zero => exact .pure _
  | succ patience ih =>
    refine silent_nextEntry.lift.attempt_bind fun entry => ?_
    cases entry with
    | none => exact .pure _
    | some entry => exact ((Silent.runLocal entry).adapt _).attempt_bind fun _ => ih

theorem silent_runLocalScripts (patience : Nat) :
    Silent (runLocalScripts F.watched patience : Attempt Stop (Watched σ) κ Unit).run := by
  have hs : Silent (modify fun s => { s with
      world := F.watched.withLocalScripts (F.watched.localScripts s.world).start s.world } :
        Attempt Stop (Watched σ) κ Unit).run :=
    .of_eq fun _ => ⟨rfl, rfl, rfl⟩
  exact hs.attempt_bind fun _ => silent_drain _

theorem silent_inputPhase : Silent (inputPhase F.watched dt : Attempt Stop (Watched σ) κ _).run :=
  silent_call rfl

theorem silent_soundPhase (useSound : Bool) :
    Silent (soundPhase F.watched useSound dt : Attempt Stop (Watched σ) κ Bool).run := by
  refine (silent_ask _).attempt_bind fun visible => ?_
  cases visible with
  | false => exact (silent_tell rfl).attempt_bind fun _ => .pure _
  | true =>
    refine (silent_tell rfl).attempt_bind fun _ => ?_
    cases useSound with
    | false => exact .pure _
    | true => exact (silent_call rfl).attempt_bind fun _ => .pure _

theorem silent_scriptPhase (patience : Nat) (paused guiActive sessionActive : Bool) :
    Silent (scriptPhase F.watched patience dt paused guiActive sessionActive :
      Attempt Stop (Watched σ) κ Unit).run := by
  cases sessionActive with
  | false => exact .pure _
  | true =>
    have htime : Silent (do
        if !guiActive then
          tell F.watched (.advanceTime (hoursOf dt (← ask F.watched.timeScale)))
          tell F.watched (.rechargeItems dt) : Attempt Stop (Watched σ) κ Unit).run := by
      cases guiActive with
      | true => exact .pure _
      | false =>
        refine (silent_ask _).attempt_bind fun scale => ?_
        exact (silent_tell rfl).attempt_bind fun _ => silent_tell rfl
    cases paused with
    | true => exact htime
    | false =>
      refine (silent_ask _).attempt_bind fun enabled => ?_
      cases enabled with
      | false => exact (silent_tell rfl).attempt_bind fun _ => htime
      | true =>
        refine (silent_runLocalScripts patience).attempt_bind fun _ => ?_
        refine (silent_call rfl).attempt_bind fun _ => ?_
        exact (silent_tell rfl).attempt_bind fun _ => htime

theorem silent_mechanicsPhase (guiActive sessionActive : Bool) :
    Silent (mechanicsPhase F.watched dt guiActive sessionActive :
      Attempt Stop (Watched σ) κ Unit).run := by
  have hdeath : Silent (do
      if (← ask F.watched.session) == SessionState.running && !guiActive &&
          (← ask F.watched.playerDead) then
        ExceptT.lift (Scene.note .main .info "Player is dead, ending the session")
        tell F.watched .endSession : Attempt Stop (Watched σ) κ Unit).run := by
    refine (silent_ask _).attempt_bind fun session => ?_
    refine (silent_ask _).attempt_bind fun dead => ?_
    split
    · exact (Silent.note _ _ (by decide)).lift.attempt_bind fun _ => silent_tell rfl
    · exact .pure _
  cases sessionActive with
  | false => exact hdeath
  | true => exact (silent_call rfl).attempt_bind fun _ => hdeath

theorem silent_physicsPhase (guiActive sessionActive : Bool) :
    Silent (physicsPhase F.watched dt stamp guiActive sessionActive :
      Attempt Stop (Watched σ) κ Unit).run := by
  cases sessionActive with
  | false => exact .pure _
  | true => exact (Silent.stepPhysics _ _ _).adapt _

theorem silent_worldPhase (guiActive sessionActive : Bool) :
    Silent (worldPhase F.watched dt guiActive sessionActive :
      Attempt Stop (Watched σ) κ Unit).run := by
  cases sessionActive with
  | false => exact .pure _
  | true => exact silent_call rfl

theorem makes_reportPart (part : Part) (frame : Nat) :
    Makes (F.watched.reportPart part frame : Act (Watched σ) κ Unit) fun _ calls =>
      calls = part.onScripting frame :=
  fun _ => ⟨_, ⟨rfl, fun _ h _ => h, fun _ h _ => h⟩, rfl⟩

theorem makes_synchronize :
    Makes (call F.watched .synchronize : Attempt Stop (Watched σ) κ Unit).run fun _ calls =>
      calls = [.synchronize] := by
  have hcall : Makes (F.watched.call .synchronize : Attempt Failure (Watched σ) κ Unit).run
      fun _ calls => calls = [.synchronize] := makes_call _
  exact hcall.adapt fun _ _ hc => hc

variable [StatsSink κ]

/-- What a frame may ask of the scripting engine, by whether all of its phases have run. -/
inductive FrameCalls (stamp : Stamp) : Bool → List ScriptingCall → Prop
  | stopped : FrameCalls stamp false []
  | synchronized : FrameCalls stamp false [.synchronize]
  | completed : FrameCalls stamp true [.synchronize]
  | reported : FrameCalls stamp true [.synchronize, .report stamp.number]

theorem makes_reportStats (frame : Nat) :
    Makes (F.watched.reportStats frame) fun _ calls => calls = [.report frame] := by
  refine (Silent.setAttribute _ _ _).then_makes fun _ => ?_
  refine (makes_reportPart _ _).bind fun _ calls hc => ?_
  obtain rfl := hc
  refine (Silent.ask _).then_makes fun _ => (Silent.setAttribute _ _ _).then_makes fun _ => ?_
  refine (Silent.ask _).then_makes fun _ => (Silent.setAttribute _ _ _).then_makes fun _ => ?_
  exact Makes.forM fun part => makes_reportPart part frame

/-- The synchronization comes first and at most a report after it. -/
theorem makes_simulate :
    Makes (simulate F.watched o dt stamp).run fun r calls => FrameCalls stamp r.isOk calls := by
  refine (silent_ask _).attempt_then_makes (fun paused => ?_) fun _ => .stopped
  refine makes_synchronize.attempt_bind (fun _ calls hc => ?_) fun _ calls hc => ?_
  · subst hc
    have herr (e : Stop) : FrameCalls stamp (Except.error e : Except Stop Unit).isOk
        ([.synchronize] ++ []) := .synchronized
    refine (Silent.timed _ _ (silent_call rfl)).attempt_then_makes (fun _ => ?_) herr
    refine (silent_ask _).attempt_then_makes (fun guiActive => ?_) herr
    refine (silent_ask _).attempt_then_makes (fun sessionActive => ?_) herr
    refine (Silent.timed _ _ (silent_scriptPhase _ _ _ _)).attempt_then_makes (fun _ => ?_) herr
    refine (Silent.timed _ _ (silent_mechanicsPhase _ _)).attempt_then_makes (fun _ => ?_) herr
    refine (Silent.timed _ _ (silent_physicsPhase _ _)).attempt_then_makes (fun _ => ?_) herr
    refine (Silent.timed _ _ (silent_worldPhase _ _)).attempt_then_makes (fun _ => ?_) herr
    refine (Silent.timed _ _ (silent_call rfl)).attempt_then_makes (fun _ => ?_) herr
    refine (Silent.collects _).lift.attempt_then_makes (fun collecting => ?_) herr
    cases collecting with
    | false => exact .pure .completed
    | true =>
      refine (makes_reportStats _).lift fun _ _ hm => ?_
      subst hm
      exact .reported
  · subst hc
    exact .synchronized

theorem makes_runPhases :
    Makes (runPhases F.watched o dt stamp).run fun r calls =>
      FrameCalls stamp (r.toOption == some true) calls := by
  refine (Silent.timed _ _ silent_inputPhase).attempt_then_makes (fun _ => ?_) fun _ => .stopped
  refine (Silent.timed _ _ (silent_soundPhase _)).attempt_then_makes (fun visible => ?_)
    fun _ => .stopped
  cases visible with
  | false => exact .pure .stopped
  | true =>
    refine makes_simulate.attempt_bind (fun _ calls hc => ?_) fun _ calls hc => hc
    refine .pure ?_
    rw [List.append_nil]
    exact hc

theorem makes_frame :
    Makes (frame F.watched o dt stamp) fun outcome calls =>
      FrameCalls stamp (outcome == some .completed) calls := by
  refine makes_runPhases.bind fun r calls hc => ?_
  match r with
  | .ok true =>
    refine .pure ?_
    rw [List.append_nil]
    exact hc
  | .ok false =>
    refine (Silent.note _ _ (by decide)).then_makes fun _ => .pure ?_
    rw [List.append_nil]
    exact hc
  | .error (.failure f) =>
    refine (Silent.note _ _ (by decide)).then_makes fun _ => .pure ?_
    rw [List.append_nil]
    exact hc
  | .error .endless =>
    refine .pure ?_
    rw [List.append_nil]
    exact hc

end Orchestrator

end FrameLoop
