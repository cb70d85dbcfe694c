import FrameLoop.Proofs.Lasting
import FrameLoop.Proofs.LoopMoves
import FrameLoop.Proofs.Startup
import FrameLoop.Storage.Basic

/-! An engine that is started any number of times. Every attempt goes through the whole start again,
up to the first failure, until one comes to the end; the attempts after it are idle. What had been
done before a failure is done again. -/

namespace FrameLoop

theorem CutShort.head {σ α : Type} {d d' : Deed σ} {deeds : List (Deed σ)} {r : Except Stop α}
    (h : CutShort (d :: deeds) r) (hmem : d' ∈ d :: deeds) (hok : d'.answer = .ok ()) :
    d.answer = .ok () := by
  rcases r with (f | _) | _
  · obtain ⟨init, last, hsplit, hlast, hinit⟩ := h
    cases init with
    | nil =>
      obtain ⟨rfl, rfl⟩ := List.cons.inj hsplit
      rw [List.mem_singleton.mp hmem, hlast] at hok
      cases hok
    | cons first init =>
      obtain ⟨rfl, -⟩ := List.cons.inj hsplit
      exact hinit d List.mem_cons_self
  · exact h d List.mem_cons_self
  · exact h d List.mem_cons_self

namespace Engine

variable {σ φ ω : Type} {F : Facades σ FrameStats}

/-- An attempt to start an engine. -/
structure Launch (σ φ ω : Type) where
  before : Engine (Chronicle σ) φ ω
  after : Engine (Chronicle σ) φ ω
  answer : Except EngineError Unit

namespace Launch

def deeds (a : Launch σ φ ω) : List (Deed σ) :=
  a.after.scene.world.deeds.drop a.before.scene.world.deeds.length

def tasks (a : Launch σ φ ω) : List Task := a.deeds.map Deed.task

/-- The attempt touches nothing. -/
def Idle (a : Launch σ φ ω) : Prop := a.after = a.before ∧ a.answer = .ok ()

/-- The attempt goes through the start of the engine `e`, from its beginning up to the first failure,
which is its answer. -/
structure Attempts (F : Facades σ FrameStats) (e : Engine (Chronicle σ) φ ω) (a : Launch σ φ ω)
    (answer : Except Failure Unit) : Prop where
  answers : a.answer = answer.mapError .subsystem
  follows : ∀ n, Follows F (startAgenda F e) ⟨a.before.scene.world.world, n⟩ a.deeds (ending answer)
    ⟨a.after.scene.world.world, n⟩
  tasks : a.tasks <+: e.startCalls.map Task.call
  cut : CutShort a.deeds (ending answer)
  started : a.before.started = false ∧ a.after.started = answer.isOk
  rest : a.after = { a.before with scene := a.after.scene, started := a.after.started }

/-- Something that had succeeded in one attempt is done again in another. -/
def RedoneIn (a b : Launch σ φ ω) : Prop :=
  ∃ d ∈ a.deeds, d.answer = .ok () ∧ d.task ∈ b.tasks

theorem Attempts.redone {e : Engine (Chronicle σ) φ ω} {a b : Launch σ φ ω}
    {answer answer' : Except Failure Unit} {d : Deed σ} (ha : a.Attempts F e answer)
    (hb : b.Attempts F e answer') (hd : d ∈ a.deeds) (hok : d.answer = .ok ()) : a.RedoneIn b := by
  have hne : b.deeds ≠ [] := startAgenda_ne_nil (hb.follows .blank)
  have hcut := ha.cut
  have htasks := ha.tasks
  have htasks' := hb.tasks
  obtain ⟨first', more', hdeeds'⟩ := List.exists_cons_of_ne_nil hne
  obtain ⟨first, more, hdeeds⟩ := List.exists_cons_of_ne_nil (List.ne_nil_of_mem hd)
  rw [hdeeds] at hd hcut
  rw [Launch.tasks, hdeeds] at htasks
  rw [Launch.tasks, hdeeds'] at htasks'
  -- both begin with the first call of all
  have hsame : first.task = first'.task := by
    generalize e.startCalls.map Task.call = all at htasks htasks'
    cases all with
    | nil => exact absurd (List.prefix_nil.mp htasks) (List.cons_ne_nil _ _)
    | cons t all =>
      exact (List.cons_prefix_cons.mp htasks).1.trans (List.cons_prefix_cons.mp htasks').1.symm
  refine ⟨first, hdeeds ▸ List.mem_cons_self, hcut.head hd hok, ?_⟩
  rw [hsame, Launch.tasks, hdeeds']
  exact List.mem_cons_self

/-- Before the failure no script was run: all that was done then belongs to every start. -/
theorem Attempts.redone_by_last {e : Engine (Chronicle σ) φ ω} {a b : Launch σ φ ω} {f : Failure}
    {d : Deed σ} (ha : a.Attempts F e (.error f)) (hb : b.Attempts F e (.ok ())) (hd : d ∈ a.deeds)
    (hok : d.answer = .ok ()) : d.task ∈ b.tasks := by
  obtain ⟨init, failed, hsplit, hfailed, -⟩ := ha.cut
  have htasks : init.map Deed.task ++ [failed.task] <+: e.startCalls.map Task.call := by
    have htasks := ha.tasks
    rw [Launch.tasks, hsplit, List.map_append] at htasks
    exact htasks
  have hinit : d ∈ init := by
    rw [hsplit] at hd
    rcases List.mem_append.mp hd with hd | hd
    · exact hd
    · rw [List.mem_singleton.mp hd, hfailed] at hok
      cases hok
  have hlength : init.length ≤ e.openingCalls.length := by
    have hle := htasks.length_le
    have hscript : (e.startupScript.map Call.executeInConsole).toList.length ≤ 1 := by
      cases e.startupScript <;> simp
    simp only [startCalls, List.length_append, List.length_map, List.length_singleton] at hle
    omega
  have hopening : init.map Deed.task <+: e.openingCalls.map Task.call := by
    refine List.prefix_of_prefix_length_le ((List.prefix_append _ _).trans htasks) ?_ ?_
    · rw [startCalls, List.map_append]
      exact List.prefix_append _ _
    · simpa using hlength
  have hall : e.openingCalls.map Task.call <+: b.tasks := startAgenda_done (hb.follows .blank)
  exact hall.subset (hopening.subset (List.mem_map_of_mem hinit))

theorem Attempts.of_lasting {e e' : Engine (Chronicle σ) φ ω} {a : Launch σ φ ω}
    {answer : Except Failure Unit} (h : a.Attempts F e' answer) (hl : Lasting e e') :
    a.Attempts F e answer := by
  have hopening : e'.openingCalls = e.openingCalls := by
    rw [openingCalls, openingCalls, hl.userDirectory, hl.startup]
  have hagenda : startAgenda F e' = startAgenda F e := by
    rw [startAgenda, startAgenda, hopening, hl.startupScript]
  have hcalls : e'.startCalls = e.startCalls := by
    rw [startCalls, startCalls, hopening, hl.startupScript]
  exact ⟨h.answers, hagenda ▸ h.follows, hcalls ▸ h.tasks, h.cut, h.started, h.rest⟩

theorem Attempts.lasting {e : Engine (Chronicle σ) φ ω} {a : Launch σ φ ω} {f : Failure}
    (h : a.Attempts F e (.error f)) : Lasting a.before a.after where
  settings := (congrArg Engine.settings h.rest).trans rfl
  settingsPath := (congrArg Engine.settingsPath h.rest).trans rfl
  userDirectory := (congrArg Engine.userDirectory h.rest).trans rfl
  startup := (congrArg Engine.startup h.rest).trans rfl
  startupScript := (congrArg Engine.startupScript h.rest).trans rfl
  started := h.started.2.trans h.started.1.symm

theorem Idle.deeds {a : Launch σ φ ω} (h : a.Idle) : a.deeds = [] := by
  rw [Launch.deeds, h.1, List.drop_length]

theorem Idle.not_redoing {a b : Launch σ φ ω} (h : b.Idle) : ¬ a.RedoneIn b := by
  rintro ⟨d, -, -, hmem⟩
  rw [Launch.tasks, h.deeds] at hmem
  cases hmem

end Launch

/-- Attempts that begin all over again, until one comes to the end and those after it are idle. -/
inductive StartsOver (F : Facades σ FrameStats) (e : Engine (Chronicle σ) φ ω) :
    List (Launch σ φ ω) → Prop
  | nil : StartsOver F e []
  | failed {a f rest} : a.Attempts F e (.error f) → StartsOver F e rest → StartsOver F e (a :: rest)
  | done {a idle} : a.Attempts F e (.ok ()) → (∀ b ∈ idle, b.Idle) → StartsOver F e (a :: idle)

namespace StartsOver

variable {e e' : Engine (Chronicle σ) φ ω} {attempts : List (Launch σ φ ω)}

theorem of_lasting (h : StartsOver F e' attempts) (hl : Lasting e e') : StartsOver F e attempts := by
  induction h with
  | nil => exact .nil
  | failed ha _ ih => exact .failed (ha.of_lasting hl) ih
  | done ha hidle => exact .done (ha.of_lasting hl) hidle

theorem idle_or_attempts (h : StartsOver F e attempts) :
    ∀ a ∈ attempts, a.Idle ∨ ∃ answer, a.Attempts F e answer := by
  induction h with
  | nil => exact List.forall_mem_nil _
  | failed ha _ ih => exact List.forall_mem_cons.mpr ⟨.inr ⟨_, ha⟩, ih⟩
  | done ha hidle => exact List.forall_mem_cons.mpr ⟨.inr ⟨_, ha⟩, fun b hb => .inl (hidle b hb)⟩

theorem pairwise (h : StartsOver F e attempts) :
    attempts.Pairwise fun a b =>
      b.Idle ∨ ∃ f answer, a.Attempts F e (.error f) ∧ b.Attempts F e answer := by
  induction h with
  | nil => exact .nil
  | failed ha hrest ih =>
    refine .cons (fun b hb => ?_) ih
    exact (hrest.idle_or_attempts b hb).imp_right fun ⟨answer, hb⟩ => ⟨_, answer, ha, hb⟩
  | done ha hidle =>
    refine .cons (fun b hb => .inl (hidle b hb)) ?_
    exact List.pairwise_of_forall_mem_list fun _ _ b hb => .inl (hidle b hb)

end StartsOver

def launch (F : Facades σ FrameStats) (e : Engine (Chronicle σ) φ ω) : Launch σ φ ω :=
  ⟨e, (start F.chronicled e).2, (start F.chronicled e).1⟩

theorem launch_idle {e : Engine (Chronicle σ) φ ω} (h : e.started = true) : (launch F e).Idle := by
  have hstart : (start F.chronicled : Trial (Chronicle σ) φ ω Unit).run e =
      (startFrom F.chronicled (true, e.userDirectory, e.startup, e.startupScript)).run e := by
    rw [← h]
    rfl
  exact ⟨congrArg Prod.snd hstart, congrArg Prod.fst hstart⟩

theorem launch_attempts {e : Engine (Chronicle σ) φ ω} (h : e.started = false) :
    ∃ answer, (launch F e).Attempts F e answer := by
  obtain ⟨deeds, answer, ha, hc⟩ := Carries.start (F := F) h
  have hdeeds : (launch F e).deeds = deeds := by
    rw [Launch.deeds]
    exact (congrArg (List.drop _) hc.chronicle).trans List.drop_left
  refine ⟨answer, ha, hdeeds ▸ hc.follows, ?_, ?_, ⟨h, ?_⟩, hc.rest⟩
  · rw [Launch.tasks, hdeeds]
    exact startAgenda_tasks (hc.follows .blank)
  · rw [hdeeds]
    exact (hc.follows .blank).cutShort
  · exact hc.started.trans (by rw [h, Bool.false_or, Bool.true_and])

variable [Report ω φ]

/-- The attempts to start among some moves. -/
def launches (F : Facades σ FrameStats) :
    List (Move (Chronicle σ)) → Engine (Chronicle σ) φ ω → List (Launch σ φ ω)
  | [], _ => []
  | .start :: rest, e => launch F e :: launches F rest (launch F e).after
  | move :: rest, e => launches F rest (make F.chronicled move e).2

theorem launches_start (F : Facades σ FrameStats) (rest : List (Move (Chronicle σ)))
    (e : Engine (Chronicle σ) φ ω) :
    launches F (.start :: rest) e = launch F e :: launches F rest (launch F e).after := rfl

theorem launches_cons {move : Move (Chronicle σ)} (h : move ≠ .start)
    (rest : List (Move (Chronicle σ))) (e : Engine (Chronicle σ) φ ω) :
    launches F (move :: rest) e = launches F rest (make F.chronicled move e).2 := by
  cases move with
  | start => exact absurd rfl h
  | step | pace | change | retime => rfl

theorem launches_append (moves : List (Move (Chronicle σ))) (e : Engine (Chronicle σ) φ ω) :
    launches F (moves ++ [.start]) e =
      launches F moves e ++ [launch F (play F.chronicled moves e).2] := by
  induction moves generalizing e with
  | nil => rfl
  | cons move moves ih =>
    rw [List.cons_append, play_cons]
    by_cases hmove : move = .start
    · rw [hmove, launches_start, launches_start, ih]
      rfl
    · rw [launches_cons hmove, launches_cons hmove, ih]

theorem launches_idle {moves : List (Move (Chronicle σ))} {e : Engine (Chronicle σ) φ ω}
    (h : e.started = true) : ∀ a ∈ launches F moves e, a.Idle := by
  induction moves generalizing e with
  | nil => exact List.forall_mem_nil _
  | cons move moves ih =>
    by_cases hmove : move = .start
    · have hidle := launch_idle (F := F) h
      have hafter : (launch F e).after.started = true := by
        rw [hidle.1]
        exact h
      rw [hmove, launches_start]
      exact List.forall_mem_cons.mpr ⟨hidle, ih hafter⟩
    · rw [launches_cons hmove]
      exact ih ((Lasts.make hmove e).started.trans h)

theorem launches_startsOver {moves : List (Move (Chronicle σ))} {e : Engine (Chronicle σ) φ ω}
    (h : e.started = false) : StartsOver F e (launches F moves e) := by
  induction moves generalizing e with
  | nil => exact .nil
  | cons move moves ih =>
    have hfrom {e' : Engine (Chronicle σ) φ ω} (hl : Lasting e e') :
        StartsOver F e (launches F moves e') :=
      (ih (hl.started.trans h)).of_lasting hl
    by_cases hmove : move = .start
    · obtain ⟨answer, ha⟩ := launch_attempts (F := F) h
      rw [hmove, launches_start]
      cases answer with
      | ok _ => exact .done ha (launches_idle ha.started.2)
      | error f => exact .failed ha (hfrom ha.lasting)
    · rw [launches_cons hmove]
      exact hfrom (Lasts.make hmove e)

variable [Storage φ ω]

/-- How a run goes on from its attempt to start. -/
def Launch.goOn (F : Facades σ FrameStats) (fuel : Nat) (a : Launch σ φ ω) :
    Option (Except EngineError Unit) × Engine (Chronicle σ) φ ω :=
  match a.answer with
  | .error error => (some (.error error), (abandon F.chronicled a.after).2)
  | .ok () =>
    (do
      if ← loop F.chronicled fuel then return some (← leave F.chronicled) else return none :
      Action (Chronicle σ) φ ω (Option (Except EngineError Unit))) a.after

theorem run_eq_goOn (F : Facades σ FrameStats) (fuel : Nat) (e : Engine (Chronicle σ) φ ω) :
    run F.chronicled fuel e = (launch F e).goOn F fuel := by
  have hmatch (a : Launch σ φ ω) :
      (match a.answer with
        | .error error => do
          abandon F.chronicled
          return some (.error error)
        | .ok () => do
          if ← loop F.chronicled fuel then return some (← leave F.chronicled) else return none :
        Action (Chronicle σ) φ ω (Option (Except EngineError Unit))) a.after = a.goOn F fuel := by
    rw [Launch.goOn]
    cases a.answer <;> rfl
  exact hmatch (launch F e)

/-- Whatever the subsystems answer and however often an engine is started, on its own or by a run: it
goes through its start from the beginning, up to the first failure, until all of it was done; then
nothing is left to do. An attempt that does anything does something again if anything had succeeded
in one before, and the one that succeeds does all of it again. -/
theorem launches_start_over (F : Facades σ FrameStats) (moves : List (Move (Chronicle σ)))
    (e : Engine (Chronicle σ) φ ω) :
    (e.started = true → ∀ a ∈ launches F moves e, a.Idle) ∧
    (e.started = false → StartsOver F e (launches F moves e)) ∧
    ((launches F moves e).Pairwise fun a b =>
      (a.RedoneIn b ↔ b.deeds ≠ [] ∧ ∃ d ∈ a.deeds, d.answer = .ok ()) ∧
      (b.deeds ≠ [] → b.answer = .ok () →
        ∀ d ∈ a.deeds, d.answer = .ok () → d.task ∈ b.tasks)) ∧
    launches F (moves ++ [.start]) e =
      launches F moves e ++ [launch F (play F.chronicled moves e).2] ∧
    ∀ fuel, run F.chronicled fuel (play F.chronicled moves e).2 =
      (launch F (play F.chronicled moves e).2).goOn F fuel := by
  refine ⟨launches_idle, launches_startsOver, ?_, launches_append moves e,
    fun fuel => run_eq_goOn F fuel _⟩
  have hpairs : (launches F moves e).Pairwise fun a b =>
      b.Idle ∨ ∃ f answer, a.Attempts F e (.error f) ∧ b.Attempts F e answer := by
    cases h : e.started with
    | true => exact List.pairwise_of_forall_mem_list fun _ _ b hb => .inl (launches_idle h b hb)
    | false => exact (launches_startsOver h).pairwise
  refine hpairs.imp fun {a b} hab => ?_
  rcases hab with hidle | ⟨f, answer, ha, hb⟩
  · have hnothing := hidle.deeds
    exact ⟨iff_of_false hidle.not_redoing fun h => h.1 hnothing, fun hne => absurd hnothing hne⟩
  · refine ⟨⟨?_, ?_⟩, fun _ hok d hd hdone => ?_⟩
    · rintro ⟨d, hd, hok, -⟩
      exact ⟨startAgenda_ne_nil (hb.follows .blank), d, hd, hok⟩
    · rintro ⟨-, d, hd, hok⟩
      exact ha.redone hb hd hok
    · cases answer with
      | ok _ => exact ha.redone_by_last hb hd hdone
      | error f' =>
        rw [hb.answers] at hok
        cases hok

/-- A session, and the number of scripts that the console was given. -/
structure ConsoleWorld where
  session : SessionState
  scripts : Nat

/-- The console refuses the first script that it is given. -/
def refusingConsole : Facades ConsoleWorld FrameStats where
  windowVisible _ := true
  containsMode _ _ := false
  guiActive _ := false
  session := ConsoleWorld.session
  quitRequested _ := false
  scriptsEnabled _ := true
  playerDead _ := false
  timeScale _ := .ofNat 30
  queuedItems _ := 0
  activeThreads _ := 0
  windowClosed _ := false
  localScripts _ := .empty
  withLocalScripts _ w := w
  perform
    | .newSession _, w => ⟨.ok (), { w with session := .running }, []⟩
    | .executeInConsole _, w =>
      ⟨if w.scripts = 0 then .error ⟨"no such script", []⟩ else .ok (),
        { w with scripts := w.scripts + 1 }, []⟩
    | _, w => ⟨.ok (), w, []⟩
  runScript _ rw := ⟨.ok (), rw, []⟩
  stepPhysics _ _ _ := pure ()
  reportPart _ _ := pure ()
  updateScripting _ w := ⟨.finished, w, []⟩

def unstarted : Engine (Chronicle ConsoleWorld) Places PlaceReport where
  settings := .defaults
  settingsPath := none
  userDirectory := some "user"
  startup := .newSession true
  startupScript := some "startup.txt"
  started := false
  scene := ⟨⟨⟨.noSession, 0⟩, []⟩, .new 25, ⟨id, 0⟩, .lazy, #[], #[]⟩
  storage := []
  orchestrator := ⟨true, 9⟩
  strategy := some (.synchronous none)
  limiter := ⟨0, 0, 0⟩
  counter := .new
  telemetry := .new Duration.second 0
  simulationTime := .zero false

/-- Of two attempts the first fails at its last call, and the second loads the storage and begins the
session once more. -/
theorem session_begun_twice :
    ∃ a b, launches refusingConsole [.start, .start] unstarted = [a, b] ∧
      a.deeds.map (fun d => (d.task, d.answer)) =
        [(.call (.loadStorage "user"), .ok ()), (.call (.newSession true), .ok ()),
          (.call (.executeInConsole "startup.txt"), .error ⟨"no such script", []⟩)] ∧
      b.deeds.map (fun d => (d.task, d.answer)) =
        [(.call (.loadStorage "user"), .ok ()), (.call (.newSession true), .ok ()),
          (.call (.executeInConsole "startup.txt"), .ok ())] ∧
      a.RedoneIn b :=
  ⟨_, _, rfl, rfl, rfl, _, .tail _ (.head _), rfl, .tail _ (.head _)⟩

end Engine

end FrameLoop
