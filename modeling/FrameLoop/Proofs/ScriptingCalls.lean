import FrameLoop.Proofs.Accounts
import FrameLoop.Proofs.Scene

/-! Facades that keep account of what is asked of the scripting engine, and which actions ask
it for what. The accounts hold for any facades, whatever these answer. -/

namespace FrameLoop

/-- What may be asked of the scripting engine. -/
inductive ScriptingCall
  | synchronize
  | loadStorage (directory : String)
  | saveStorage (directory : String)
  /-- Publishes its counters for a frame. -/
  | report (frame : Nat)
  | update (stamp : Stamp)
  deriving DecidableEq

/-- What a call asks of the scripting engine. -/
def Call.onScripting : Call → List ScriptingCall
  | synchronize => [.synchronize]
  | loadStorage directory => [.loadStorage directory]
  | saveStorage directory => [.saveStorage directory]
  | _ => []

/-- What a report asks of the scripting engine. -/
def Part.onScripting (frame : Nat) : Part → List ScriptingCall
  | scripting => [.report frame]
  | _ => []

/-- A world and what has been asked of its scripting engine, in order. -/
structure Watched (σ : Type) where
  world : σ
  asked : List ScriptingCall

variable {σ κ α : Type}

/-- An action on the world behind, with what it asks of the scripting engine. -/
def Watched.behind (calls : List ScriptingCall) (act : Act σ κ α) : Act (Watched σ) κ α := fun s =>
  let (a, t) := act ⟨s.world.world, s.sink, s.clock, s.schedule, s.log, s.workerLog⟩
  (a, ⟨⟨t.world, s.world.asked ++ calls⟩, t.sink, t.clock, t.schedule, s.log, s.workerLog⟩)

/-- The same facades, watched. What they log themselves is left out, so that the logs hold
what the loop has to say and nothing else. -/
def Facades.watched (F : Facades σ κ) : Facades (Watched σ) κ where
  windowVisible w := F.windowVisible w.world
  containsMode mode w := F.containsMode mode w.world
  guiActive w := F.guiActive w.world
  session w := F.session w.world
  quitRequested w := F.quitRequested w.world
  scriptsEnabled w := F.scriptsEnabled w.world
  playerDead w := F.playerDead w.world
  timeScale w := F.timeScale w.world
  queuedItems w := F.queuedItems w.world
  activeThreads w := F.activeThreads w.world
  windowClosed w := F.windowClosed w.world
  localScripts w := F.localScripts w.world
  withLocalScripts scripts w := { w with world := F.withLocalScripts scripts w.world }
  perform c w :=
    let o := F.perform c w.world
    ⟨o.answer, ⟨o.world, w.asked ++ c.onScripting⟩, []⟩
  runScript entry w :=
    let o := F.runScript entry (w.1, w.2.world)
    ⟨o.answer, (o.world.1, { w.2 with world := o.world.2 }), []⟩
  stepPhysics dt guiActive stamp := ExceptT.mk (Watched.behind [] (F.stepPhysics dt guiActive stamp).run)
  reportPart part frame := Watched.behind (part.onScripting frame) (F.reportPart part frame)
  updateScripting stamp w :=
    let o := F.updateScripting stamp w.world
    ⟨o.answer, ⟨o.world, w.asked ++ [.update stamp]⟩, []⟩

/-- The warnings about calls on the update strategy that do not fit together. -/
inductive Misuse : Record → Prop
  | refused (frame : Nat) :
    Misuse ⟨.warn, s!"Script update of frame {frame} allowed while another update is in flight"⟩
  | belated (frame : Nat) :
    Misuse ⟨.warn, s!"Script update of frame {frame} allowed after the worker was joined"⟩
  | unfinished (frame : Nat) :
    Misuse ⟨.warn, s!"Script update of frame {frame} was allowed but never finished"⟩
  | unmatched : Misuse ⟨.warn, "finish_update called without a matching allow_update"⟩
  | unstamped : Misuse ⟨.warn, "Script update requested without a frame stamp"⟩

theorem Misuse.level {r : Record} (h : Misuse r) : r.level = .warn := by
  cases h <;> rfl

/-- How the warnings about the update strategy begin. -/
theorem Misuse.opening {r : Record} (h : Misuse r) :
    r.message.toList.take 2 = ['S', 'c'] ∨ r.message.toList.take 2 = ['f', 'i'] := by
  cases h with
  | refused | belated | unfinished => exact .inl (by simp [String.toList_append, toString])
  | unmatched => exact .inr (by decide)
  | unstamped => exact .inl (by decide)

/-- From one scene to the other some calls were made on the scripting engine and no misuse was
logged. -/
structure Asks (calls : List ScriptingCall) (s s' : Scene (Watched σ) κ) : Prop where
  asked : s'.world.asked = s.world.asked ++ calls
  log : ∀ r ∈ s'.log, Misuse r → r ∈ s.log
  workerLog : ∀ r ∈ s'.workerLog, Misuse r → r ∈ s.workerLog

namespace Asks

variable {s s' s'' : Scene (Watched σ) κ} {calls more : List ScriptingCall}

theorem refl (s : Scene (Watched σ) κ) : Asks [] s s :=
  ⟨(List.append_nil _).symm, fun _ h _ => h, fun _ h _ => h⟩

theorem trans (h : Asks calls s s') (h' : Asks more s' s'') : Asks (calls ++ more) s s'' := by
  refine ⟨?_, fun r hr hm => h.log r (h'.log r hr hm) hm,
    fun r hr hm => h.workerLog r (h'.workerLog r hr hm) hm⟩
  rw [h'.asked, h.asked, List.append_assoc]

theorem of_eq (hw : s'.world.asked = s.world.asked) (hl : s'.log = s.log)
    (hk : s'.workerLog = s.workerLog) : Asks [] s s' :=
  ⟨by simp [hw], fun _ h _ => hl ▸ h, fun _ h _ => hk ▸ h⟩

theorem append (thread : Thread) (s : Scene (Watched σ) κ) {records : List Record}
    (h : ∀ r ∈ records, ¬ Misuse r) : Asks [] s (s.append thread records) := by
  cases thread with
  | main =>
    refine ⟨(List.append_nil _).symm, fun r hr hm => ?_, fun _ hr _ => hr⟩
    rcases Array.mem_append.mp hr with hr | hr
    · exact hr
    · exact absurd hm (h r (by simpa using hr))
  | worker =>
    refine ⟨(List.append_nil _).symm, fun _ hr _ => hr, fun r hr hm => ?_⟩
    rcases Array.mem_append.mp hr with hr | hr
    · exact hr
    · exact absurd hm (h r (by simpa using hr))

theorem note (thread : Thread) (s : Scene (Watched σ) κ) {level : Level} (message : String)
    (h : level ≠ .warn) : Asks [] s (Scene.note thread level message s).2 := by
  refine append thread s fun r hr hm => ?_
  obtain rfl := List.mem_singleton.mp hr
  exact h hm.level

theorem perform (F : Facades σ κ) (thread : Thread) (stamp : Stamp) (s : Scene (Watched σ) κ) :
    Asks [.update stamp] s (Update.perform F.watched thread stamp s).2 := by
  rw [Update.perform_eq]
  have hcall : Asks [.update stamp] s
      { s with world := (F.watched (κ := κ) |>.updateScripting stamp s.world).world } :=
    ⟨rfl, fun _ h _ => h, fun _ h _ => h⟩
  refine hcall.trans (append thread _ fun r hr hm => ?_)
  cases ho : (F.updateScripting stamp s.world.world).answer with
  | finished => simp [Facades.watched, UpdateEnd.report, ho] at hr
  | failed | panicked =>
    have hl : r.level = .error := by
      simp only [Facades.watched, UpdateEnd.report, ho, List.nil_append, List.mem_singleton] at hr
      rw [hr]
    rw [hm.level] at hl
    cases hl

end Asks

/-- All that was ever asked of the scripting engine, and no misuse was logged. -/
structure Accounted (calls : List ScriptingCall) (s : Scene (Watched σ) κ) : Prop where
  asked : s.world.asked = calls
  log : ∀ r ∈ s.log, ¬ Misuse r
  workerLog : ∀ r ∈ s.workerLog, ¬ Misuse r

theorem Accounted.asks {calls more : List ScriptingCall} {s s' : Scene (Watched σ) κ}
    (h : Accounted calls s) (ha : Asks more s s') : Accounted (calls ++ more) s' where
  asked := by rw [ha.asked, h.asked]
  log r hr hm := h.log r (ha.log r hr hm) hm
  workerLog r hr hm := h.workerLog r (ha.workerLog r hr hm) hm

instance : Accounts ScriptingCall (Scene (Watched σ) κ) where
  adds := Asks
  adds_nil := .refl
  adds_append := .trans

theorem Silent.of_eq {act : Act (Watched σ) κ α}
    (h : ∀ s, (act s).2.world.asked = s.world.asked ∧ (act s).2.log = s.log ∧
      (act s).2.workerLog = s.workerLog) : Silent act :=
  fun s => Asks.of_eq (h s).1 (h s).2.1 (h s).2.2

end FrameLoop
