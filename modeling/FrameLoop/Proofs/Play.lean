import FrameLoop.Engine.Run
import FrameLoop.Proofs.Alike

/-! What can be done with an engine: how it is built, and the moves of its life. -/

namespace FrameLoop.Engine

variable {σ φ ω : Type} (F : Facades σ FrameStats)

/-- What a new engine may be told before it is used. -/
inductive Preparation
  | told (settingsPath userDirectory : Option String) (startup : StartupMode)
    (startupScript : Option String)
  | reporting (path : String)

/-- What may be done with an engine that is built. -/
inductive Move (σ : Type)
  | start
  | step
  /-- The pause after an iteration. -/
  | pace (outcome : FrameOutcome)
  /-- A change of the subsystems from outside. -/
  | change (f : σ → σ)
  /-- A change of the frame limiter from outside. -/
  | retime (f : Limiter → Limiter)

/-- What a move tells. -/
inductive Answer
  | done
  | started (r : Except EngineError Unit)
  | stepped (outcome : Option FrameOutcome)

/-- What can be seen after a move. -/
structure Glimpse (σ : Type) where
  answer : Answer
  simulationTime : Double
  world : σ

variable [Report ω φ]

def make : Move σ → Action σ φ ω Answer
  | .start => do return .started (← (start F).run)
  | .step => do return .stepped (← step F)
  | .pace outcome => do
    pace outcome
    return .done
  | .change f => do
    onScene (modify (Scene.onWorld f))
    return .done
  | .retime f => do
    modify fun e => { e with limiter := f e.limiter }
    return .done

/-- Makes moves in a row, with a glimpse after each of them. -/
def play : List (Move σ) → Action σ φ ω (List (Glimpse σ))
  | [] => return []
  | move :: rest => do
    let answer ← make F move
    let e ← get
    return ⟨answer, e.simulationTime, e.scene.world⟩ :: (← play rest)

/-- What can be seen of an engine that was built, while moves are made. -/
def seen (moves : List (Move σ)) :
    Except Refusal (Engine σ φ ω) → Except EngineError (List (Glimpse σ))
  | .error r => .error r.error
  | .ok e => .ok (play F moves e).1

/-- The scene in which an engine with accepted settings is prepared. -/
def opening (settings : Settings) (world : σ) (clock : Clock) (schedule : Schedule) :
    Scene σ FrameStats where
  world := world
  sink := if settings.collectStats then collectAll (.new FrameStats.defaultHistory)
    else .new FrameStats.defaultHistory
  clock := clock
  schedule := schedule
  log := settings.remarks.toArray
  workerLog := #[]

/-- The engine that is made of what was prepared. -/
def assembled (settings : Settings) (storage : φ) (patience : Nat)
    (p : (UpdateStrategy × Limiter × Telemetry ω) × Scene σ FrameStats) : Engine σ φ ω where
  settings := settings
  settingsPath := none
  userDirectory := none
  startup := .mainMenu
  startupScript := none
  started := false
  scene := p.2
  storage := storage
  orchestrator := ⟨settings.useSound, patience⟩
  strategy := some p.1.1
  limiter := p.1.2.1
  counter := .new
  telemetry := p.1.2.2
  simulationTime := .zero false

variable [Storage φ ω]

theorem new_of_problem {settings : Settings} {problem : Settings.Problem}
    (h : settings.problem? = some problem) (world : σ) (storage : φ) (clock : Clock)
    (schedule : Schedule) (statsFile : Option String) (patience : Nat) :
    new F settings world storage clock schedule statsFile patience =
      .error ⟨problem.error, #[], #[]⟩ := by
  rw [new, Settings.validate, h]

theorem new_eq {settings : Settings} (h : settings.problem? = none) (world : σ) (storage : φ)
    (clock : Clock) (schedule : Schedule) (statsFile : Option String) (patience : Nat) :
    new F settings world storage clock schedule statsFile patience =
      let e := assembled settings storage patience
        (prepare settings (opening settings world clock schedule))
      match statsFile with
      | some path => withStatsFile F path e
      | none => .ok e := by
  rw [new, Settings.validate, h]
  rfl

def equip (e : Engine σ φ ω) : Preparation → Except Refusal (Engine σ φ ω)
  | .told settingsPath userDirectory startup startupScript =>
    .ok { e with settingsPath, userDirectory, startup, startupScript }
  | .reporting path => withStatsFile F path e

/-- A new engine that is told some things, with a bound of its own for the drain of a frame. -/
def build (settings : Settings) (world : σ) (storage : φ) (clock : Clock) (schedule : Schedule)
    (statsFile : Option String) (patience : Nat) (preparations : List Preparation) :
    Except Refusal (Engine σ φ ω) := do
  preparations.foldlM (equip F)
    (← Engine.new F settings world storage clock schedule statsFile patience)

end FrameLoop.Engine
