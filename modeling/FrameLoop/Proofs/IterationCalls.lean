import FrameLoop.Engine.Run
import FrameLoop.Proofs.Strategy

/-! What an engine asks of the scripting engine when it starts and in an iteration: the calls of
its frame, and then one update if the frame was completed. -/

namespace FrameLoop

variable {σ φ ω α : Type} {F : Facades σ FrameStats}

namespace Engine

/-- From one engine to the other some calls were made on the scripting engine, no misuse was
logged, and the strategy was left alone. -/
structure Asks (calls : List ScriptingCall) (e e' : Engine (Watched σ) φ ω) : Prop where
  scene : FrameLoop.Asks calls e.scene e'.scene
  strategy : e'.strategy = e.strategy

instance : Accounts ScriptingCall (Engine (Watched σ) φ ω) where
  adds := Asks
  adds_nil e := ⟨.refl e.scene, rfl⟩
  adds_append h h' := ⟨h.scene.trans h'.scene, h'.strategy.trans h.strategy⟩

section

variable {act : Act (Watched σ) FrameStats α} {Q : α → List ScriptingCall → Prop}

theorem makes_onScene (h : Makes act Q) :
    Makes (onScene act : Action (Watched σ) φ ω α) Q := by
  intro e
  obtain ⟨calls, ha, hq⟩ := h e.scene
  exact ⟨calls, ⟨ha, rfl⟩, hq⟩

theorem silent_onScene (h : Silent act) : Silent (onScene act : Action (Watched σ) φ ω α) :=
  fun e => ⟨h e.scene, rfl⟩

end

theorem silent_of_scene {act : Action (Watched σ) φ ω α}
    (h : ∀ e, (act e).2.scene = e.scene ∧ (act e).2.strategy = e.strategy) : Silent act := by
  intro e
  obtain ⟨hs, ht⟩ := h e
  exact ⟨hs ▸ .refl e.scene, ht⟩

theorem asks_set_then {e e' : Engine (Watched σ) φ ω} {act : Action (Watched σ) φ ω α}
    (h : Silent act) (hs : e'.scene = e.scene) (ht : e'.strategy = e.strategy) :
    Asks [] e ((do set e'; act : Action (Watched σ) φ ω α) e).2 where
  scene := hs ▸ (h e').scene
  strategy := (h e').strategy.trans ht

theorem silent_append {records : List Record} (h : ∀ r ∈ records, ¬ Misuse r) :
    Silent (append records : Action (Watched σ) φ ω Unit) :=
  silent_onScene fun s => .append .main s h

theorem silent_note {level : Level} (message : String) (h : level ≠ .warn) :
    Silent (note level message : Action (Watched σ) φ ω Unit) :=
  silent_onScene fun s => .note .main s message h

theorem makes_call (c : Call) :
    Makes (call F.watched c : Trial (Watched σ) φ ω Unit).run fun _ calls =>
      calls = c.onScripting := by
  refine (makes_onScene (FrameLoop.makes_call c)).bind fun r calls hc => ?_
  subst hc
  cases r with
  | ok _ => exact .pure (List.append_nil _)
  | error _ => exact .pure (List.append_nil _)

theorem silent_call {c : Call} (h : c.onScripting = []) :
    Silent (call F.watched c : Trial (Watched σ) φ ω Unit).run := by
  intro e
  obtain ⟨calls, ha, hc⟩ := makes_call (F := F) c e
  rwa [hc, h] at ha

theorem silent_tell {c : Call} (h : c.onScripting = []) :
    Silent (tell F.watched c : Action (Watched σ) φ ω Unit) :=
  silent_onScene (Silent.tell h)

theorem silent_enter (mode : StartupMode) :
    Silent (enter F.watched mode : Trial (Watched σ) φ ω Unit).run := by
  cases mode with
  | loadSave path =>
    exact (silent_note _ (by decide)).lift.attempt_bind fun _ => silent_call rfl
  | mainMenu => exact (silent_tell rfl).lift.attempt_bind fun _ => (silent_tell rfl).lift
  | newSession bypassIntro => exact silent_call rfl

theorem silent_setOut (mode : StartupMode) (script : Option String) :
    Silent (setOut F.watched mode script : Trial (Watched σ) φ ω Unit).run := by
  have hend : Silent (do
      ExceptT.lift (modify fun e => { e with started := true })
      ExceptT.lift (note .info "Engine started") : Trial (Watched σ) φ ω Unit).run := by
    refine (silent_of_scene fun _ => ⟨rfl, rfl⟩).lift.attempt_bind fun _ => ?_
    exact (silent_note _ (by decide)).lift
  refine (silent_enter mode).attempt_bind fun _ => ?_
  cases script with
  | none => exact hend
  | some script =>
    refine (silent_of_scene fun _ => ⟨rfl, rfl⟩).lift.attempt_bind fun e => ?_
    split
    · refine (silent_note _ (by decide)).lift.attempt_bind fun _ => ?_
      exact (silent_call rfl).attempt_bind fun _ => hend
    · exact hend

/-- Only the loading of the storage comes before the first iteration. -/
theorem makes_start :
    Makes (start F.watched : Trial (Watched σ) φ ω Unit).run fun _ calls =>
      ∃ directory : Option String, calls = (directory.map .loadStorage).toList := by
  refine (silent_of_scene fun _ => ⟨rfl, rfl⟩).lift.attempt_then_makes (fun e => ?_)
    fun _ => ⟨none, rfl⟩
  cases e.started with
  | true => exact .pure ⟨none, rfl⟩
  | false =>
    have hrest := silent_setOut (F := F) (φ := φ) (ω := ω) e.startup e.startupScript
    cases e.userDirectory with
    | none => exact hrest.makes.mono fun _ _ hc => ⟨none, hc⟩
    | some directory =>
      refine (makes_call _).attempt_bind (fun _ calls hc => ?_) fun _ calls hc => ?_
      · exact hrest.makes.mono fun _ more hm => ⟨some directory, by rw [hc, hm]; rfl⟩
      · exact ⟨some directory, hc⟩

theorem silent_stampFrame : Silent (stampFrame : Action (Watched σ) φ ω Stamp) := by
  refine (silent_onScene Silent.now).bind fun _ => ?_
  exact silent_of_scene fun _ => ⟨rfl, rfl⟩

theorem makes_simulate (dt : Single) :
    Makes (simulate F.watched dt : Action (Watched σ) φ ω _) fun r calls =>
      Orchestrator.FrameCalls r.1 (r.2 == some .completed) calls := by
  refine silent_stampFrame.then_makes fun stamp => ?_
  refine (silent_of_scene fun _ => ⟨rfl, rfl⟩).then_makes fun e => ?_
  refine (silent_tell rfl).then_makes fun _ => ?_
  refine (makes_onScene Orchestrator.makes_frame).bind fun outcome calls hc => .pure ?_
  rw [List.append_nil]
  exact hc

theorem silent_countTime (dt : Single) :
    Silent (countTime F.watched dt : Action (Watched σ) φ ω Unit) := by
  apply silent_of_scene
  intro e
  have hcount : (countTime F.watched dt e).2 =
      if !F.watched.guiActive e.scene.world && F.watched.hasActiveSession e.scene.world then
        { e with simulationTime := e.simulationTime + dt.convert }
      else e := by
    change ((if !F.watched.guiActive e.scene.world && F.watched.hasActiveSession e.scene.world then
      set { e with simulationTime := e.simulationTime + dt.convert }
      else pure ⟨⟩ : Action (Watched σ) φ ω PUnit) e).2 = _
    split <;> rfl
  rw [hcount]
  split <;> exact ⟨rfl, rfl⟩

theorem endFrame_levels [Report ω φ] (t : Telemetry ω) (stats : FrameStats) (frame : Nat)
    (now : Instant) (storage : φ) :
    ∀ r ∈ (t.endFrame stats frame now storage).2.2.2, r.level ≠ .warn := by
  have hreport : ∀ r ∈ (t.reportFrame stats (frame - reportLag) storage).2.2.2,
      r.level ≠ .warn := by
    intro r hr
    unfold Telemetry.reportFrame at hr
    split at hr
    · cases hr
    · split at hr
      · cases hr
      · rw [List.mem_singleton.mp hr]
        exact (by decide : Level.error ≠ .warn)
  have hsummary (t : Telemetry ω) : ∀ r ∈ (t.summarize stats (frame - reportLag) now).2,
      r.level ≠ .warn := by
    intro r hr
    unfold Telemetry.summarize at hr
    split at hr
    · simp only [Option.mem_toList, Option.map_eq_some_iff] at hr
      obtain ⟨_, -, rfl⟩ := hr
      exact (by decide : Level.info ≠ .warn)
    · cases hr
  unfold Telemetry.endFrame
  split
  · exact fun _ hr => absurd hr List.not_mem_nil
  · intro r hr
    rcases List.mem_append.mp hr with hr | hr
    · exact hreport r hr
    · exact hsummary _ r hr

theorem silent_endFrame [Report ω φ] (frame : Nat) :
    Silent (endFrame frame : Action (Watched σ) φ ω Unit) := by
  refine (silent_onScene Silent.now).bind fun now e => ?_
  have hlog := endFrame_levels e.telemetry e.scene.sink frame now e.storage
  rw [get_bind]
  exact asks_set_then (silent_append fun r hr hm => hlog r hr hm.level) rfl rfl

/-- An engine whose strategy rests gets to rest again, and the calls it makes fit what the action
returns. -/
def Rests (act : Action (Watched σ) φ ω α) (Q : α → List ScriptingCall → Prop) : Prop :=
  ∀ e strategy, e.strategy = some strategy → strategy.Rested →
    ∃ calls rested, FrameLoop.Asks calls e.scene (act e).2.scene ∧
      (act e).2.strategy = some rested ∧ rested.Rested ∧ Q (act e).1 calls

section

variable {β : Type} {act : Action (Watched σ) φ ω α} {f : α → Action (Watched σ) φ ω β}
  {P : α → List ScriptingCall → Prop} {R : β → List ScriptingCall → Prop}

theorem Rests.of_makes (h : Makes act P) : Rests act P := by
  intro e strategy he hs
  obtain ⟨calls, ha, hp⟩ := h e
  exact ⟨calls, strategy, ha.scene, ha.strategy.trans he, hs, hp⟩

theorem Rests.mono {P' : α → List ScriptingCall → Prop} (h : Rests act P)
    (hp : ∀ a calls, P a calls → P' a calls) : Rests act P' := by
  intro e strategy he hs
  obtain ⟨calls, rested, ha, he, hs, hq⟩ := h e strategy he hs
  exact ⟨calls, rested, ha, he, hs, hp _ _ hq⟩

theorem Rests.bind (h : Rests act P)
    (hf : ∀ a calls, P a calls → Rests (f a) fun b more => R b (calls ++ more)) :
    Rests (act >>= f) R := by
  intro e strategy he hs
  obtain ⟨calls, rested, ha, he, hs, hp⟩ := h e strategy he hs
  obtain ⟨more, rested, hb, he, hs, hr⟩ := hf _ _ hp (act e).2 rested he hs
  exact ⟨calls ++ more, rested, ha.trans hb, he, hs, hr⟩

theorem Rests.after (h : Silent act) (hf : ∀ a, Rests (f a) R) : Rests (act >>= f) R :=
  (Rests.of_makes h.makes).bind fun a _ hn => by subst hn; exact hf a

theorem onStrategy_eq {e : Engine σ φ ω} {strategy : UpdateStrategy}
    (he : e.strategy = some strategy)
    (act : UpdateStrategy → Act σ FrameStats UpdateStrategy) :
    (onStrategy act e).2 =
      { e with scene := (act strategy e.scene).2, strategy := some (act strategy e.scene).1 } := by
  obtain ⟨_, _, _, _, _, _, _, _, _, _, _, _, _, _⟩ := e
  cases he
  rfl

/-- An allow, what the main thread does meanwhile, and the finish run one update. -/
theorem Rests.pair {mid : Action (Watched σ) φ ω α} (hm : Silent mid) (stamp : Stamp)
    (hf : ∀ a, Silent (f a)) :
    Rests (do
      onStrategy (UpdateStrategy.allow F.watched stamp)
      let a ← mid
      onStrategy (UpdateStrategy.finish F.watched)
      f a) fun _ calls => calls = [.update stamp] := by
  intro e strategy he hs
  let e1 := (onStrategy (UpdateStrategy.allow F.watched stamp) e).2
  let e2 := (mid e1).2
  let e3 := (onStrategy (UpdateStrategy.finish F.watched) e2).2
  -- the update may end in the allow or in the finish, so only the two together are known
  obtain ⟨before, after, hu, hallow, hrested, hfinish⟩ := hs.pair (F := F) stamp e.scene e2.scene
  have h1 := onStrategy_eq he (UpdateStrategy.allow F.watched stamp)
  have h2 := hm e1
  have h3 := onStrategy_eq (h2.strategy.trans (congrArg Engine.strategy h1))
    (UpdateStrategy.finish F.watched)
  have h4 := hf (mid e1).1 e3
  have ha1 : FrameLoop.Asks before e.scene e1.scene := congrArg Engine.scene h1 ▸ hallow
  have ha3 : FrameLoop.Asks after e2.scene e3.scene := congrArg Engine.scene h3 ▸ hfinish
  refine ⟨[.update stamp], _, ?_, h4.strategy.trans (congrArg Engine.strategy h3), hrested, rfl⟩
  have hall := ((ha1.trans h2.scene).trans ha3).trans h4.scene
  rwa [List.append_nil, List.append_nil, hu] at hall

end

/-- What follows the rendering of a frame. -/
def afterRendering (F : Facades σ FrameStats) (dt : Single) (stamp : Stamp) :
    Except Failure Unit → Action σ φ ω FrameOutcome
  | .ok () => do
    countTime F dt
    return .completed
  | .error f => do
    note .error s!"Error in frame {stamp.number}: {f.line}"
    return .failed

/-- A completed frame runs its update, whether or not it can be rendered. -/
theorem rests_render (dt : Single) (stamp : Stamp) :
    Rests (render F.watched dt stamp : Action (Watched σ) φ ω _) fun _ calls =>
      calls = [.update stamp] := by
  refine .after (silent_tell rfl) fun _ => .after (silent_tell rfl) fun _ => ?_
  refine .after (silent_tell rfl) fun _ => ?_
  refine Rests.pair (silent_onScene (Silent.call rfl)) stamp fun rendered => ?_
  cases rendered with
  | ok _ => exact (silent_countTime dt).bind fun _ => .pure _
  | error _ => exact (silent_note _ (by decide)).bind fun _ => .pure _

/-- The frame of the iteration that is due: its stamp and how it ends. -/
def nextFrame (F : Facades σ FrameStats) (e : Engine σ φ ω) :
    (Stamp × Option FrameOutcome) × Engine σ φ ω :=
  simulate F (simulationStep e.limiter.lastFrame) e

theorem rests_conclude [Report ω φ] (dt : Single) (stamp : Stamp)
    (outcome : Option FrameOutcome) :
    Rests (conclude F.watched dt stamp outcome : Action (Watched σ) φ ω _) fun _ calls =>
      calls = if outcome = some .completed then [.update stamp] else [] := by
  have hend (b : FrameOutcome) : Rests (do
      endFrame stamp.number
      return some b : Action (Watched σ) φ ω (Option FrameOutcome)) fun _ calls => calls = [] :=
    .after (silent_endFrame _) fun _ => .of_makes (Silent.pure _).makes
  cases outcome with
  | none => exact .of_makes (Silent.pure _).makes
  | some outcome =>
    cases outcome with
    | completed =>
      refine (rests_render dt stamp).bind fun b calls hc => ?_
      subst hc
      exact (hend b).mono fun _ more hm => by rw [hm]; rfl
    | skipped => exact hend .skipped
    | failed => exact hend .failed

/-- The update of a completed frame is all that an iteration asks for after its frame. -/
theorem step_asks [Report ω φ] {e : Engine (Watched σ) φ ω} {strategy : UpdateStrategy}
    (he : e.strategy = some strategy) (hs : strategy.Rested) :
    ∃ rested, (step F.watched e).2.strategy = some rested ∧ rested.Rested ∧
      FrameLoop.Asks (if (nextFrame F.watched e).1.2 = some .completed then
          [.update (nextFrame F.watched e).1.1] else [])
        (nextFrame F.watched e).2.scene (step F.watched e).2.scene := by
  obtain ⟨_, hframe, -⟩ := makes_simulate (F := F) (simulationStep e.limiter.lastFrame) e
  obtain ⟨calls, rested, ha, hr, hrested, hc⟩ :=
    rests_conclude (F := F) (simulationStep e.limiter.lastFrame) (nextFrame F.watched e).1.1
      (nextFrame F.watched e).1.2 (nextFrame F.watched e).2 strategy (hframe.strategy.trans he) hs
  exact ⟨rested, hr, hrested, hc ▸ ha⟩

end Engine

end FrameLoop
