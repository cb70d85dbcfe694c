import FrameLoop.Proofs.Play

/-! Properties of actions that pass from the small things an engine does between the frames to all
that it does there. -/

namespace FrameLoop.Engine

variable {σ φ ω α β : Type}

/-- The same can be seen of engines that differ in their settings, their strategy and their scene, as
long as they have the same world. -/
def Overt (v : Engine σ φ ω → β) : Prop :=
  ∀ e settings scene strategy, scene.world = e.scene.world →
    v { e with settings, scene, strategy } = v e

/-- The same can be seen of engines that differ at most in what is told of them and of their frames. -/
def Plain (v : Engine σ φ ω → β) : Prop :=
  ∀ e settings scene strategy telemetry storage, scene.world = e.scene.world →
    v { e with settings, scene, strategy, telemetry, storage } = v e

/-- The property that all has of which the start of an engine is made. -/
structure Outset (P : ∀ {α : Type}, Action σ φ ω α → Prop) (F : Facades σ FrameStats) : Prop
    extends Chains P where
  attempt : ∀ c, P (onScene (F.call c).run : Action σ φ ω (Except Failure Unit))
  append : ∀ records, P (append records : Action σ φ ω Unit)
  setStarted : P (modify fun e => { e with started := true } : Action σ φ ω PUnit)
  look : ∀ {α β : Type} {v : Engine σ φ ω → β} {f : β → Action σ φ ω α},
    Plain v → (∀ b, P (f b)) → P (do f (v (← get)))

/-- The property that all that is done between the frames has. -/
structure Routine (P : ∀ {α : Type}, Action σ φ ω α → Prop) (F : Facades σ FrameStats) : Prop
    extends Chains P where
  now : P (onScene Scene.now : Action σ φ ω Instant)
  attempt : ∀ c, P (onScene (F.call c).run : Action σ φ ω (Except Failure Unit))
  append : ∀ records, P (append records : Action σ φ ω Unit)
  change : ∀ f : σ → σ, P (onScene (modify (Scene.onWorld f)) : Action σ φ ω PUnit)
  setStarted : P (modify fun e => { e with started := true } : Action σ φ ω PUnit)
  retime : ∀ f : Limiter → Limiter,
    P (modify fun e => { e with limiter := f e.limiter } : Action σ φ ω PUnit)
  addTime : ∀ x : Double,
    P (modify fun e => { e with simulationTime := e.simulationTime + x } : Action σ φ ω PUnit)
  look : ∀ {α β : Type} {v : Engine σ φ ω → β} {f : β → Action σ φ ω α},
    Overt v → (∀ b, P (f b)) → P (do f (v (← get)))

/-- The start of an engine of which this is known: whether it has started before, its directory and how
it sets out. -/
def startFrom (F : Facades σ FrameStats) (b : Bool × Option String × StartupMode × Option String) :
    Trial σ φ ω Unit := do
  if b.1 then return
  if let some directory := b.2.1 then call F (.loadStorage directory)
  setOut F b.2.2.1 b.2.2.2

namespace Outset

variable {P : ∀ {α : Type}, Action σ φ ω α → Prop} {F : Facades σ FrameStats}

theorem note (h : Outset P F) (level : Level) (message : String) :
    P (note level message : Action σ φ ω Unit) :=
  h.append _

theorem tell (h : Outset P F) (c : Call) : P (tell F c : Action σ φ ω Unit) :=
  h.bind (h.attempt c) fun _ => h.pure _

theorem call (h : Outset P F) (c : Call) : P (call F c : Trial σ φ ω Unit).run := by
  refine h.bind (h.attempt c) fun r => ?_
  cases r with
  | ok _ => exact h.pure _
  | error _ => exact h.pure _

/-- What follows a look, in an action that may fail. -/
theorem attempt_look (h : Outset P F) {v : Engine σ φ ω → β} {f : β → Trial σ φ ω α}
    (hv : Plain v) (hf : ∀ b, P (f b).run) :
    P (do f (v (← ExceptT.lift get)) : Trial σ φ ω α).run :=
  h.look (f := fun b => (f b).run) hv hf

theorem enter (h : Outset P F) (mode : StartupMode) : P (enter F mode : Trial σ φ ω Unit).run := by
  cases mode with
  | loadSave path => exact h.attempt_bind (h.lift (h.note _ _)) fun _ => h.call _
  | mainMenu => exact h.attempt_bind (h.lift (h.tell _)) fun _ => h.lift (h.tell _)
  | newSession bypassIntro => exact h.call _

theorem setOut (h : Outset P F) (mode : StartupMode) (script : Option String) :
    P (setOut F mode script : Trial σ φ ω Unit).run := by
  have hend : P (do
      ExceptT.lift (modify fun e => { e with started := true })
      ExceptT.lift (Engine.note .info "Engine started") : Trial σ φ ω Unit).run :=
    h.attempt_bind (h.lift h.setStarted) fun _ => h.lift (h.note _ _)
  refine h.attempt_bind (h.enter mode) fun _ => ?_
  cases script with
  | none => exact hend
  | some script =>
    let rest (session : SessionState) : Trial σ φ ω Unit := do
      if session == .running then
        ExceptT.lift (Engine.note .info s!"Running startup script '{script}'")
        Engine.call F (.executeInConsole script)
      ExceptT.lift (modify fun e => { e with started := true })
      ExceptT.lift (Engine.note .info "Engine started")
    refine h.attempt_look (v := fun e => F.session e.scene.world) (f := rest)
      (fun _ _ _ _ _ _ hw => congrArg F.session hw) fun session => ?_
    cases session with
    | running =>
      refine h.attempt_bind (h.lift (h.note _ _)) fun _ => ?_
      exact h.attempt_bind (h.call _) fun _ => hend
    | _ => exact hend

theorem start (h : Outset P F) : P (start F : Trial σ φ ω Unit).run := by
  refine h.attempt_look (f := startFrom F)
    (v := fun e => (e.started, e.userDirectory, e.startup, e.startupScript))
    (fun _ _ _ _ _ _ _ => rfl) ?_
  rintro ⟨started, userDirectory, startup, script⟩
  cases started with
  | true => exact h.pure _
  | false =>
    cases userDirectory with
    | none => exact h.setOut _ _
    | some directory => exact h.attempt_bind (h.call _) fun _ => h.setOut _ _

end Outset

namespace Routine

variable {P : ∀ {α : Type}, Action σ φ ω α → Prop} {F : Facades σ FrameStats}

theorem outset (h : Routine P F) : Outset P F where
  toChains := h.toChains
  attempt := h.attempt
  append := h.append
  setStarted := h.setStarted
  look hv hf := h.look (fun e settings scene strategy hw =>
    hv e settings scene strategy e.telemetry e.storage hw) hf

theorem note (h : Routine P F) (level : Level) (message : String) :
    P (note level message : Action σ φ ω Unit) :=
  h.append _

theorem tell (h : Routine P F) (c : Call) : P (tell F c : Action σ φ ω Unit) := h.outset.tell c

theorem pace (h : Routine P F) (outcome : FrameOutcome) :
    P (pace outcome : Action σ φ ω Unit) := by
  cases outcome with
  | completed => exact h.bind h.now fun now => h.bind h.now fun woken => h.retime (·.limit now woken)
  | skipped | failed => exact h.pure _

theorem countTime (h : Routine P F) (dt : Single) : P (countTime F dt : Action σ φ ω Unit) := by
  let rest (w : σ) : Action σ φ ω Unit := do
    if !F.guiActive w && F.hasActiveSession w then
      modify fun e => { e with simulationTime := e.simulationTime + dt.convert }
  have hcount : (Engine.countTime F dt : Action σ φ ω Unit) = (do rest (← get).scene.world) := by
    funext e
    change (if !F.guiActive e.scene.world && F.hasActiveSession e.scene.world then _ else _ :
      Action σ φ ω Unit) e = (if _ then _ else _ : Action σ φ ω Unit) e
    split <;> rfl
  rw [hcount]
  refine h.look (v := fun e => e.scene.world) (fun _ _ _ _ hw => hw) fun w => ?_
  dsimp only [rest]
  split
  · exact h.addTime _
  · exact h.pure _

variable [Report ω φ]

/-- A move that is no iteration. -/
theorem make (h : Routine P F) {move : Move σ}
    (hstep : move = .step → P (step F : Action σ φ ω (Option FrameOutcome))) :
    P (make F move : Action σ φ ω Answer) := by
  cases move with
  | start => exact h.bind h.outset.start fun _ => h.pure _
  | step => exact h.bind (hstep rfl) fun _ => h.pure _
  | pace outcome => exact h.bind (h.pace outcome) fun _ => h.pure _
  | change f => exact h.bind (h.change f) fun _ => h.pure _
  | retime f => exact h.bind (h.retime f) fun _ => h.pure _

end Routine

end FrameLoop.Engine
