import FrameLoop.Headless
import FrameLoop.Proofs.ShutdownCalls
import FrameLoop.Storage.Basic

/-! The discipline of the calls on the scripting engine, over the whole life of an engine: at
most one loading of the storage, then the iterations one after the other, then at most one
saving; no call is made while an update is under way, and no misuse is logged. -/

namespace FrameLoop.Engine

variable {σ φ ω : Type} {F : Facades σ FrameStats}

theorem remarks_misuse (settings : Settings) : ∀ r ∈ settings.remarks, ¬ Misuse r := by
  intro r hr hm
  have ho := hm.opening
  unfold Settings.remarks at hr
  split at hr
  · rw [List.mem_singleton.mp hr] at ho
    simp [String.toList_append, toString] at ho
  · cases hr

theorem frameFor_misuse (rate : Single) : ∀ r ∈ (Limiter.frameFor rate).2, ¬ Misuse r := by
  intro r hr hm
  have ho := hm.opening
  unfold Limiter.frameFor at hr
  split at hr
  · split at hr
    · cases hr
    · rw [List.mem_singleton.mp hr] at ho
      simp [String.toList_append, toString] at ho
  · cases hr

theorem addPhases_levels (workers : Nat) :
    ∀ r ∈ (Overlay.addPhases [] workers).2, r.level ≠ .warn := by
  have hrecords : (Overlay.addPhases [] workers).2 =
      Phase.all.map fun p => ⟨.debug, s!"Registered profiler line: {Text.quoted p.label}"⟩ := rfl
  intro r hr
  rw [hrecords, List.mem_map] at hr
  obtain ⟨_, -, rfl⟩ := hr
  exact (by decide : Level.debug ≠ .warn)

theorem makes_prepare (settings : Settings) :
    Makes (prepare settings : Act (Watched σ) FrameStats (_ × _ × Telemetry ω))
      fun r calls => calls = [] ∧ r.1.Rested := by
  have hworkers : settings.scriptWorkers ≤ 1 := Nat.min_le_right _ _
  have happend {records : List Record} (h : ∀ r ∈ records, ¬ Misuse r) :
      Silent (modify (Scene.append .main records) : Act (Watched σ) FrameStats PUnit) :=
    fun s => .append .main s h
  have hoverlay : ∀ r ∈ (Overlay.addPhases [] settings.physicsWorkers).2, ¬ Misuse r :=
    fun r hr hm => addPhases_levels _ r hr hm.level
  have hstrategy : Makes (UpdateStrategy.new settings.scriptWorkers :
      Act (Watched σ) FrameStats UpdateStrategy) fun r calls => calls = [] ∧ r.Rested := by
    intro s
    obtain ⟨hrested, hasks⟩ := UpdateStrategy.new_rested hworkers s
    exact ⟨[], hasks, rfl, hrested⟩
  refine Silent.now.then_makes fun _ => (happend hoverlay).then_makes fun _ => ?_
  refine hstrategy.bind fun strategy calls ⟨hc, hs⟩ => ?_
  subst hc
  refine Silent.now.then_makes fun _ => ?_
  exact (happend (frameFor_misuse settings.framerateLimit)).then_makes fun _ => .pure ⟨rfl, hs⟩

theorem prepared {settings : Settings} {s s' : Scene (Watched σ) FrameStats}
    {parts : UpdateStrategy × Limiter × Telemetry ω} (h : prepare settings s = (parts, s'))
    (hs : Accounted [] s) : Accounted [] s' ∧ parts.1.Rested := by
  obtain ⟨calls, ha, hc, hr⟩ := makes_prepare (ω := ω) settings s
  rw [h] at ha hr
  exact ⟨hc ▸ hs.asks ha, hr⟩

theorem silent_pace (outcome : FrameOutcome) :
    Silent (pace outcome : Action (Watched σ) φ ω Unit) := by
  cases outcome with
  | completed =>
    refine (silent_onScene Silent.now).bind fun _ => (silent_onScene Silent.now).bind fun _ => ?_
    exact silent_of_scene fun _ => ⟨rfl, rfl⟩
  | skipped | failed => exact .pure _

/-- What one iteration may ask for, in all. -/
inductive IterationCalls : List ScriptingCall → Prop
  | nothing : IterationCalls []
  | synchronized : IterationCalls [.synchronize]
  | updated (stamp : Stamp) : IterationCalls [.synchronize, .update stamp]
  | reported (stamp : Stamp) :
    IterationCalls [.synchronize, .report stamp.number, .update stamp]

theorem iterationCalls_of_frame {r : Stamp × Option FrameOutcome} {calls : List ScriptingCall}
    (h : Orchestrator.FrameCalls r.1 (r.2 == some .completed) calls) :
    IterationCalls (calls ++ if r.2 = some .completed then [.update r.1] else []) := by
  by_cases hr : r.2 = some .completed
  · rw [hr] at h
    rw [if_pos hr]
    cases h with
    | completed => exact .updated r.1
    | reported => exact .reported r.1
  · have hstop : (r.2 == some .completed) = false := by simpa using hr
    rw [hstop] at h
    rw [if_neg hr, List.append_nil]
    cases h with
    | stopped => exact .nothing
    | synchronized => exact .synchronized

/-- What a run asks for in `n` iterations: before them at most one loading. -/
def RunCalls (n : Nat) (calls : List ScriptingCall) : Prop :=
  ∃ (directory : Option String) (iterations : List (List ScriptingCall)),
    iterations.length = n ∧ (∀ more ∈ iterations, IterationCalls more) ∧
      calls = (directory.map .loadStorage).toList ++ iterations.flatten

/-- No update is under way, and none comes up by itself. -/
def Quiet (F : Facades σ FrameStats) (e : Engine (Watched σ) φ ω) : Prop :=
  ∃ strategy, e.strategy = some strategy ∧ strategy.Dormant F.watched

/-- No misuse of the update strategy was logged on either thread. -/
def Blameless (e : Engine (Watched σ) φ ω) : Prop :=
  ∀ r, r ∈ e.scene.log ∨ r ∈ e.scene.workerLog → ¬ Misuse r

/-- An engine whose strategy rests; `calls` are all that was asked so far. -/
structure Resting (calls : List ScriptingCall) (e : Engine (Watched σ) φ ω) : Prop where
  accounted : Accounted calls e.scene
  strategy : ∃ strategy, e.strategy = some strategy ∧ strategy.Rested

namespace Resting

variable {calls more : List ScriptingCall} {e e' : Engine (Watched σ) φ ω}

theorem quiet (h : Resting calls e) : Quiet F e := by
  obtain ⟨strategy, he, hs⟩ := h.strategy
  exact ⟨strategy, he, hs.dormant⟩

theorem blameless (h : Resting calls e) : Blameless e := by
  rintro r (hr | hr)
  · exact h.accounted.log r hr
  · exact h.accounted.workerLog r hr

theorem of_asks (h : Resting calls e) (ha : Asks more e e') : Resting (calls ++ more) e' where
  accounted := h.accounted.asks ha.scene
  strategy := by rw [ha.strategy]; exact h.strategy

variable [Report ω φ]

theorem step (h : Resting calls e) :
    ∃ more, IterationCalls more ∧ Resting (calls ++ more) (step F.watched e).2 := by
  obtain ⟨strategy, he, hs⟩ := h.strategy
  obtain ⟨frame, hframe, hcalls⟩ :=
    makes_simulate (F := F) (simulationStep e.limiter.lastFrame) e
  obtain ⟨rested, hr, hrested, hstep⟩ := step_asks (F := F) he hs
  refine ⟨_, iterationCalls_of_frame hcalls, ?_, rested, hr, hrested⟩
  exact h.accounted.asks (hframe.scene.trans hstep)

variable [Storage φ ω]

theorem withStatsFile {path : String} (h : Resting calls e)
    (hf : withStatsFile F.watched path e = .ok e') : Resting calls e' := by
  unfold Engine.withStatsFile at hf
  split at hf
  · cases hf
  · rename_i telemetry storage log ho
    cases hf
    have hlevels : ∀ r ∈ log, r.level ≠ .warn := by
      unfold Telemetry.openReport at ho
      split at ho
      · cases ho
      · cases ho
        intro r hr
        rw [List.mem_singleton.mp hr]
        exact (by decide : Level.info ≠ .warn)
    have ha := h.accounted.asks (.append .main e.scene fun r hr hm => hlevels r hr hm.level)
    rw [List.append_nil] at ha
    exact ⟨⟨ha.asked, ha.log, ha.workerLog⟩, h.strategy⟩

theorem new {settings : Settings} {world : σ} {storage : φ} {clock : Clock}
    {schedule : Schedule} {statsFile : Option String} {patience : Nat}
    (h : new F.watched settings ⟨world, []⟩ storage clock schedule statsFile patience = .ok e) :
    Resting [] e := by
  unfold Engine.new at h
  cases hv : settings.validate with
  | mk verdict log =>
    rw [hv] at h
    cases verdict with
    | error _ => cases h
    | ok _ =>
      have hlog : ∀ r ∈ log, ¬ Misuse r := by
        unfold Settings.validate at hv
        split at hv
        · cases hv
        · cases hv
          exact remarks_misuse settings
      dsimp only at h
      split at h
      rename_i strategy limiter telemetry scene hp
      obtain ⟨ha, hr⟩ := prepared hp ⟨rfl, by simpa using hlog, nofun⟩
      split at h
      · exact withStatsFile ⟨ha, strategy, rfl, hr⟩ h
      · cases h
        exact ⟨ha, strategy, rfl, hr⟩

end Resting

variable [Report ω φ]

/-- An iteration asks for what its frame does, with the update strategy left alone, and then for
one update for its own stamp if the frame was completed. -/
structure Iterates (F : Facades σ FrameStats) (e : Engine (Watched σ) φ ω) : Prop where
  strategy : (nextFrame F.watched e).2.strategy = e.strategy
  frame : ∃ calls, Orchestrator.FrameCalls (nextFrame F.watched e).1.1
      ((nextFrame F.watched e).1.2 == some .completed) calls ∧
    (nextFrame F.watched e).2.scene.world.asked = e.scene.world.asked ++ calls
  update : (step F.watched e).2.scene.world.asked =
    (nextFrame F.watched e).2.scene.world.asked ++
      if (nextFrame F.watched e).1.2 = some .completed then
        [.update (nextFrame F.watched e).1.1] else []

theorem Resting.iterates {calls : List ScriptingCall} {e : Engine (Watched σ) φ ω}
    (h : Resting calls e) : Iterates F e := by
  obtain ⟨strategy, he, hs⟩ := h.strategy
  obtain ⟨frame, hframe, hcalls⟩ :=
    makes_simulate (F := F) (simulationStep e.limiter.lastFrame) e
  obtain ⟨rested, hr, hrested, hstep⟩ := step_asks (F := F) he hs
  exact ⟨hframe.strategy, ⟨frame, hcalls, hframe.scene.asked⟩, hstep.asked⟩

/-- Engines in the midst of a run, by the number of iterations since the start. There may be a
pause after each of them. -/
inductive Reached (F : Facades σ FrameStats) (e : Engine (Watched σ) φ ω) :
    Nat → Engine (Watched σ) φ ω → Prop
  | started : Reached F e 0 ((start F.watched).run e).2
  | stepped {n : Nat} {e' : Engine (Watched σ) φ ω} :
    Reached F e n e' → Reached F e (n + 1) (step F.watched e').2
  | paced {n : Nat} {e' : Engine (Watched σ) φ ω} (outcome : FrameOutcome) :
    Reached F e n e' → Reached F e n (pace outcome e').2

theorem Reached.resting {e e' : Engine (Watched σ) φ ω} {n : Nat} (he : Resting [] e)
    (h : Reached F e n e') : ∃ calls, RunCalls n calls ∧ Resting calls e' := by
  induction h with
  | started =>
    obtain ⟨calls, ha, directory, hc⟩ := makes_start (F := F) e
    exact ⟨calls, ⟨directory, [], rfl, nofun, by rw [hc]; simp⟩, he.of_asks ha⟩
  | stepped _ ih =>
    obtain ⟨calls, ⟨directory, iterations, hn, hi, rfl⟩, hr⟩ := ih
    obtain ⟨more, hmore, hnext⟩ := hr.step (F := F)
    refine ⟨_, ⟨directory, iterations ++ [more], ?_, ?_, ?_⟩, hnext⟩
    · rw [List.length_append, hn]
      rfl
    · intro one hone
      rcases List.mem_append.mp hone with hone | hone
      · exact hi one hone
      · exact List.mem_singleton.mp hone ▸ hmore
    · simp
  | paced outcome _ ih =>
    obtain ⟨calls, hc, hr⟩ := ih
    have hp := hr.of_asks (silent_pace outcome _)
    rw [List.append_nil] at hp
    exact ⟨calls, hc, hp⟩

variable [Storage φ ω]

/-- A shutdown joins the worker, asks for nothing in that, and then for one saving at most. -/
structure Ends (F : Facades σ FrameStats) (e : Engine (Watched σ) φ ω) : Prop where
  join : ∃ strategy, (onStrategy (UpdateStrategy.join F.watched) e).2.strategy = some strategy ∧
    strategy.Joined
  silent : (onStrategy (UpdateStrategy.join F.watched) e).2.scene.world.asked =
    e.scene.world.asked
  save : ∃ directory : Option String, (shutdown F.watched e).2.scene.world.asked =
    e.scene.world.asked ++ (directory.map .saveStorage).toList

theorem Resting.ends {calls : List ScriptingCall} {e : Engine (Watched σ) φ ω}
    (h : Resting calls e) : Ends F e ∧ Blameless (shutdown F.watched e).2 := by
  obtain ⟨strategy, he, hs⟩ := h.strategy
  obtain ⟨joined, hj, hjoined, hjoin, directory, hsave⟩ := shutdown_asks (F := F) he hs
  have hall := h.accounted.asks (hjoin.trans hsave)
  refine ⟨⟨⟨joined, hj, hjoined⟩, ?_, directory, (hjoin.trans hsave).asked⟩, ?_⟩
  · rw [hjoin.asked, List.append_nil]
  · rintro r (hr | hr)
    · exact hall.log r hr
    · exact hall.workerLog r hr

/-- Engines that were built: new ones, and what they were told before their start. -/
inductive Built (F : Facades σ FrameStats) : Engine (Watched σ) φ ω → Prop
  | new {settings : Settings} {world : σ} {storage : φ} {clock : Clock} {schedule : Schedule}
    {statsFile : Option String} {patience : Nat} {e : Engine (Watched σ) φ ω} :
    new F.watched settings ⟨world, []⟩ storage clock schedule statsFile patience = .ok e → Built F e
  | told {e : Engine (Watched σ) φ ω} (settingsPath userDirectory : Option String)
    (startup : StartupMode) (startupScript : Option String) :
    Built F e → Built F { e with settingsPath, userDirectory, startup, startupScript }
  | reporting {e e' : Engine (Watched σ) φ ω} {path : String} :
    Built F e → withStatsFile F.watched path e = .ok e' → Built F e'

theorem Built.resting {e : Engine (Watched σ) φ ω} (h : Built F e) : Resting [] e := by
  induction h with
  | new h => exact .new h
  | told _ _ _ _ _ ih => exact ⟨ih.accounted, ih.strategy⟩
  | reporting _ h ih => exact ih.withStatsFile h

/-- The storage is loaded before the first iteration and saved after the last, and both at most
once. An iteration asks for nothing, for a synchronization, or for a synchronization and then an
update, for its own stamp, which it does exactly if its frame was completed; the report of its
counters lies between. Nothing is asked while an update is under way: none is when the engine
starts, loads, or works on a frame, and the worker is gone when it saves. The logs of both
threads hold no warning of misuse. -/
theorem scripting_discipline {e : Engine (Watched σ) φ ω} (h : Built F e) :
    Quiet F e ∧ ((start F.watched).run e).2.strategy = e.strategy ∧
      ∀ n e', Reached F e n e' →
        RunCalls n e'.scene.world.asked ∧ Quiet F e' ∧ Iterates F e' ∧ Ends F e' ∧
          Blameless e' ∧ Blameless (shutdown F.watched e').2 := by
  obtain ⟨_, hstart, -⟩ := makes_start (F := F) e
  refine ⟨h.resting.quiet, hstart.strategy, fun n e' hn => ?_⟩
  obtain ⟨calls, hc, hr⟩ := hn.resting h.resting
  obtain ⟨hends, hshutdown⟩ := hr.ends (F := F)
  rw [hr.accounted.asked]
  exact ⟨hc, hr.quiet, hr.iterates, hends, hr.blameless, hshutdown⟩

/-- A new engine with a script worker and nothing else around it. -/
def withWorker : Except Refusal (Engine (Watched Headless.World) Places PlaceReport) :=
  Engine.new Headless.facades.watched { Settings.defaults with scriptWorkerThreads := 1 }
    ⟨.new (fun _ => false) 0 1, []⟩ [] ⟨id, 0⟩ .lazy none 9

/-- What the engine has when it is started: a session of its own and a directory. -/
def startedInSession (e : Engine (Watched Headless.World) Places PlaceReport) :
    Engine (Watched Headless.World) Places PlaceReport :=
  ((start Headless.facades.watched).run { e with
    settingsPath := none
    userDirectory := some "user"
    startup := .newSession true
    startupScript := none }).2

theorem scripting_discipline_one_step :
    ∃ e, withWorker = .ok e ∧
      (step Headless.facades.watched (startedInSession e)).2.scene.world.asked =
        [.loadStorage "user", .synchronize, .update ⟨0, 2⟩] ∧
      Quiet Headless.facades (step Headless.facades.watched (startedInSession e)).2 ∧
      Blameless (step Headless.facades.watched (startedInSession e)).2 := by
  obtain ⟨e, he⟩ : ∃ e, withWorker = .ok e := exists_of_isOk (by decide +kernel)
  have hasked : (withWorker.toOption.map fun e =>
      (step Headless.facades.watched (startedInSession e)).2.scene.world.asked) =
        some [.loadStorage "user", .synchronize, .update ⟨0, 2⟩] := by decide +kernel
  rw [he] at hasked
  obtain ⟨-, -, hrun⟩ := scripting_discipline
    ((Built.new he).told none (some "user") (.newSession true) none)
  obtain ⟨-, hquiet, -, -, hblameless, -⟩ := hrun 1 _ (.stepped .started)
  exact ⟨e, he, Option.some.inj hasked, hquiet, hblameless⟩

end FrameLoop.Engine
