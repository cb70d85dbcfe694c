import FrameLoop.Proofs.Segments

/-! The start of an engine as a run through an agenda: the storage is loaded, the startup mode is
entered, and the startup script is run where a session is running by then. -/

namespace FrameLoop

open Orchestrator (always)

section Calls

variable {σ κ : Type} {F : Facades σ κ} {calls : List Call} {m m' : Moment σ} {deeds : List (Deed σ)}
  {r : Except Stop Bool}

theorem Follows.of_calls (h : Follows F (calls.map always) m deeds r m') :
    deeds.map Deed.task <+: calls.map Task.call ∧
      (r = .ok true → deeds.map Deed.task = calls.map Task.call) := by
  induction calls generalizing m deeds with
  | nil =>
    cases h
    exact ⟨List.prefix_rfl, fun _ => rfl⟩
  | cons c calls ih =>
    cases h with
    | closed hg => cases hg
    | task _ _ h =>
      obtain ⟨hrest, hall⟩ := ih h
      exact ⟨List.cons_prefix_cons.mpr ⟨rfl, hrest⟩, fun hr => congrArg _ (hall hr)⟩
    | failed => exact ⟨List.cons_prefix_cons.mpr ⟨rfl, List.nil_prefix⟩, nofun⟩

end Calls

namespace Engine

variable {σ φ ω : Type} {F : Facades σ FrameStats}

def entryCalls : StartupMode → List Call
  | .loadSave path => [.loadSession path]
  | .mainMenu => [.pushMode .mainMenu, .playTitleMusic]
  | .newSession bypassIntro => [.newSession bypassIntro]

/-- What is done at every start. -/
def openingCalls {τ : Type} (e : Engine τ φ ω) : List Call :=
  (e.userDirectory.map .loadStorage).toList ++ entryCalls e.startup

/-- The script is run where a session is running when its turn comes. -/
def consoleAgenda (F : Facades σ FrameStats) (script : Option String) : List (Item σ) :=
  (script.map fun script =>
    .task (fun m => F.session m.world == .running) fun _ => .call (.executeInConsole script)).toList

/-- Everything that belongs to the start of an engine. -/
def startAgenda {τ : Type} (F : Facades σ FrameStats) (e : Engine τ φ ω) : List (Item σ) :=
  e.openingCalls.map always ++ consoleAgenda F e.startupScript

def ending : Except Failure Unit → Except Stop Bool
  | .ok () => .ok true
  | .error f => .error (.failure f)

/-- From one engine to the other the items were gone through, and nothing else has happened, but that
the engine counts as started if `starts` and all of them were done. -/
structure Carried (F : Facades σ FrameStats) (items : List (Item σ)) (starts : Bool)
    (e e' : Engine (Chronicle σ) φ ω) (deeds : List (Deed σ)) (answer : Except Failure Unit) :
    Prop where
  follows : ∀ n, Follows F items ⟨e.scene.world.world, n⟩ deeds (ending answer)
    ⟨e'.scene.world.world, n⟩
  chronicle : e'.scene.world.deeds = e.scene.world.deeds ++ deeds
  started : e'.started = (e.started || starts && answer.isOk)
  rest : e' = { e with scene := e'.scene, started := e'.started }

/-- The attempt goes through the items from this engine on and answers with the first failure. -/
def Carries (F : Facades σ FrameStats) (items : List (Item σ)) (starts : Bool)
    (act : Trial (Chronicle σ) φ ω Unit) (e : Engine (Chronicle σ) φ ω) : Prop :=
  ∃ deeds answer, (act.run e).1 = answer.mapError .subsystem ∧
    Carried F items starts e (act.run e).2 deeds answer

namespace Carries

variable {items rest : List (Item σ)} {starts : Bool} {act act' : Trial (Chronicle σ) φ ω Unit}
  {e : Engine (Chronicle σ) φ ω}

theorem bind (h : Carries F items false act e) (h' : ∀ e, Carries F rest starts act' e) :
    Carries F (items ++ rest) starts (do act; act') e := by
  obtain ⟨deeds, answer, ha, hc⟩ := h
  have hrun : (do act; act' : Trial (Chronicle σ) φ ω Unit).run e =
    ExceptT.bindCont (fun _ => act') (act.run e).1 (act.run e).2 := rfl
  have hstarted : (act.run e).2.started = e.started := by
    rw [hc.started, Bool.false_and, Bool.or_false]
  rw [Carries, hrun, ha]
  -- what follows a failure is left out, and with it that the engine counts as started
  cases answer with
  | error f =>
    refine ⟨deeds, .error f, rfl, fun n => (hc.follows n).stop nofun, hc.chronicle, ?_, hc.rest⟩
    exact hstarted.trans (by simp [Except.isOk, Except.toBool])
  | ok _ =>
    obtain ⟨more, answer, ha', hc'⟩ := h' (act.run e).2
    refine ⟨deeds ++ more, answer, ha', fun n => (hc.follows n).append (hc'.follows n), ?_, ?_, ?_⟩
    · exact hc'.chronicle.trans (by rw [hc.chronicle, List.append_assoc])
    · exact hc'.started.trans (by rw [hstarted])
    · let e' := (act'.run (act.run e).2).2
      exact hc'.rest.trans (congrArg
        (fun x : Engine (Chronicle σ) φ ω => { x with scene := e'.scene, started := e'.started })
        hc.rest)

theorem noting {level : Level} {message : String}
    (h : Carries F items starts act (note level message e).2) :
    Carries F items starts (do ExceptT.lift (note level message); act) e := by
  obtain ⟨deeds, answer, ha, hc⟩ := h
  exact ⟨deeds, answer, ha, hc.follows, hc.chronicle, hc.started, hc.rest⟩

theorem closed {gate : Moment σ → Bool} {task : Moment σ → Task}
    (hg : ∀ n, gate ⟨e.scene.world.world, n⟩ = false) (h : Carries F items starts act e) :
    Carries F (.task gate task :: items) starts act e := by
  obtain ⟨deeds, answer, ha, hc⟩ := h
  refine ⟨deeds, answer, ha, fun n => ?_, hc.chronicle, hc.started, hc.rest⟩
  exact .closed (hg n) (hc.follows n)

theorem call {c : Call} {gate : Moment σ → Bool}
    (hg : ∀ n, gate ⟨e.scene.world.world, n⟩ = true) :
    Carries F [.task gate fun _ => .call c] false (call F.chronicled c) e := by
  let w := e.scene.world.world
  let answer := c.heeded (F.perform c w).answer
  let x := onScene (F.chronicled.call c).run e
  have hrun : (Engine.call F.chronicled c : Trial (Chronicle σ) φ ω Unit).run e =
      (answer.mapError .subsystem, x.2) := by
    have hmatch (r : Except Failure Unit) :
        (match r with
          | .ok () => return .ok ()
          | .error f => return .error (.subsystem f) :
          Action (Chronicle σ) φ ω (Except EngineError Unit)) x.2 =
        (r.mapError .subsystem, x.2) := by
      cases r <;> rfl
    exact hmatch answer
  rw [Carries, hrun]
  refine ⟨[⟨w, .call c, answer⟩], answer, rfl, fun n => ?_, rfl, (Bool.or_false _).symm, rfl⟩
  have hd : Does F w (.call c) answer (F.perform c w).world := .call c w
  cases ha : answer with
  | ok _ =>
    rw [ha] at hd
    exact .task (hg n) hd (.done _)
  | error f =>
    rw [ha] at hd
    exact .failed (hg n) hd

theorem tell {c : Call} (hc : c.fallible = false) :
    Carries F [always c] false (ExceptT.lift (tell F.chronicled c)) e := by
  let w := e.scene.world.world
  have hd : Does F w (.call c) (c.heeded (F.perform c w).answer) (F.perform c w).world := .call c w
  have hok : c.heeded (F.perform c w).answer = .ok () := by simp [Call.heeded, hc]
  rw [hok] at hd
  refine ⟨[⟨w, .call c, .ok ()⟩], .ok (), rfl, fun n => .task rfl hd (.done _), ?_,
    (Bool.or_false _).symm, rfl⟩
  rw [← hok]
  rfl

theorem finish : Carries F [] true (do
    ExceptT.lift (modify fun e => { e with started := true })
    ExceptT.lift (Engine.note .info "Engine started")) e :=
  ⟨[], .ok (), rfl, fun _ => .done _, (List.append_nil _).symm, (Bool.or_true _).symm, rfl⟩

theorem enter (mode : StartupMode) :
    Carries F ((entryCalls mode).map always) false (enter F.chronicled mode) e := by
  cases mode with
  | loadSave path => exact noting (call fun _ => rfl)
  | mainMenu => exact (tell rfl).bind fun _ => tell rfl
  | newSession bypassIntro => exact call fun _ => rfl

theorem setOut (mode : StartupMode) (script : Option String) :
    Carries F ((entryCalls mode).map always ++ consoleAgenda F script) true
      (setOut F.chronicled mode script) e := by
  refine (enter mode).bind fun e => ?_
  cases script with
  | none => exact finish
  | some script =>
    have hlook (running : Bool) (hr : (F.session e.scene.world.world == .running) = running) :
        Carries F (consoleAgenda F (some script)) true (do
          if running then
            ExceptT.lift (Engine.note .info s!"Running startup script '{script}'")
            Engine.call F.chronicled (.executeInConsole script)
          ExceptT.lift (modify fun e => { e with started := true })
          ExceptT.lift (Engine.note .info "Engine started")) e := by
      cases running with
      | true => exact noting ((call fun _ => hr).bind fun _ => finish)
      | false => exact closed (fun _ => hr) finish
    exact hlook _ rfl

theorem start (h : e.started = false) :
    Carries F (startAgenda F e) true (start F.chronicled) e := by
  have hstart : (Engine.start F.chronicled : Trial (Chronicle σ) φ ω Unit).run e =
      (startFrom F.chronicled (false, e.userDirectory, e.startup, e.startupScript)).run e := by
    rw [← h]
    rfl
  rw [Carries, hstart]
  rw [startAgenda, openingCalls, List.map_append, List.append_assoc]
  cases e.userDirectory with
  | none => exact setOut _ _
  | some directory => exact Carries.bind (call fun _ => rfl) fun _ => setOut _ _

end Carries

/-- Everything that an attempt to start may have done. -/
def startCalls {τ : Type} (e : Engine τ φ ω) : List Call :=
  e.openingCalls ++ (e.startupScript.map .executeInConsole).toList

section Agenda

variable {e : Engine (Chronicle σ) φ ω} {m m' : Moment σ} {deeds : List (Deed σ)}
  {r : Except Stop Bool}

theorem startAgenda_tasks (h : Follows F (startAgenda F e) m deeds r m') :
    deeds.map Deed.task <+: e.startCalls.map Task.call := by
  rw [startCalls, List.map_append]
  rcases h.split with ⟨hstop, -⟩ | ⟨before, after, m₁, rfl, hbefore, hafter⟩
  · exact hstop.of_calls.1.trans (List.prefix_append _ _)
  · rw [List.map_append, hbefore.of_calls.2 rfl, List.prefix_append_right_inj]
    cases hscript : e.startupScript with
    | none =>
      rw [hscript] at hafter
      cases hafter
      exact List.prefix_rfl
    | some script =>
      rw [hscript] at hafter
      cases hafter with
      | closed _ hdone =>
        cases hdone
        exact List.nil_prefix
      | task _ _ hdone =>
        cases hdone
        exact List.prefix_rfl
      | failed => exact List.prefix_rfl

theorem startAgenda_done (h : Follows F (startAgenda F e) m deeds (.ok true) m') :
    e.openingCalls.map Task.call <+: deeds.map Deed.task := by
  rcases h.split with ⟨-, hstop⟩ | ⟨before, after, m₁, rfl, hbefore, -⟩
  · exact absurd rfl hstop
  · rw [List.map_append, hbefore.of_calls.2 rfl]
    exact List.prefix_append _ _

theorem exists_startAgenda_eq_cons (F : Facades σ FrameStats) (e : Engine (Chronicle σ) φ ω) :
    ∃ c rest, startAgenda F e = always c :: rest := by
  rw [startAgenda, openingCalls]
  cases e.userDirectory with
  | some directory => exact ⟨_, _, rfl⟩
  | none => cases e.startup <;> exact ⟨_, _, rfl⟩

theorem startAgenda_ne_nil (h : Follows F (startAgenda F e) m deeds r m') : deeds ≠ [] := by
  obtain ⟨c, rest, hagenda⟩ := exists_startAgenda_eq_cons F e
  rw [hagenda] at h
  cases h with
  | closed hg => cases hg
  | task | failed => exact List.cons_ne_nil _ _

end Agenda

end Engine

end FrameLoop
