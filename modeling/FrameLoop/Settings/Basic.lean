import FrameLoop.Duration
import FrameLoop.Error
import FrameLoop.Decimal.Layout

/-! The settings of the frame loop, the values they may take, and what they
mean to the rest of the engine. -/

namespace FrameLoop

structure Settings where
  /-- Frames per second; zero is unlimited. -/
  framerateLimit : Single
  scriptWorkerThreads : Int
  physicsWorkerThreads : Int
  collectStats : Bool
  useSound : Bool
  /-- Seconds between two timing summaries. -/
  statsSummaryInterval : Double
  deriving DecidableEq

namespace Settings

def defaultInterval : Duration := 10 * Duration.second

def defaults : Settings where
  framerateLimit := .zero false
  scriptWorkerThreads := 0
  physicsWorkerThreads := 0
  collectStats := false
  useSound := true
  statsSummaryInterval := defaultInterval.seconds

instance : Inhabited Settings := ⟨defaults⟩

/-- The members of a settings file. -/
inductive Field
  | framerateLimit
  | scriptWorkerThreads
  | physicsWorkerThreads
  | collectStats
  | useSound
  | statsSummaryInterval
  deriving DecidableEq, Repr

namespace Field

/-- Every field, in the order of a file. -/
def all : List Field :=
  [framerateLimit, scriptWorkerThreads, physicsWorkerThreads, collectStats, useSound,
    statsSummaryInterval]

def key : Field → String
  | framerateLimit => "framerate_limit"
  | scriptWorkerThreads => "script_worker_threads"
  | physicsWorkerThreads => "physics_worker_threads"
  | collectStats => "collect_stats"
  | useSound => "use_sound"
  | statsSummaryInterval => "stats_summary_interval_secs"

end Field

/-- A value for one field. -/
inductive Assignment
  | framerateLimit (x : Single)
  | scriptWorkerThreads (n : Int)
  | physicsWorkerThreads (n : Int)
  | collectStats (b : Bool)
  | useSound (b : Bool)
  | statsSummaryInterval (x : Double)
  deriving DecidableEq

def Assignment.field : Assignment → Field
  | framerateLimit _ => .framerateLimit
  | scriptWorkerThreads _ => .scriptWorkerThreads
  | physicsWorkerThreads _ => .physicsWorkerThreads
  | collectStats _ => .collectStats
  | useSound _ => .useSound
  | statsSummaryInterval _ => .statsSummaryInterval

def assign (s : Settings) : Assignment → Settings
  | .framerateLimit x => { s with framerateLimit := x }
  | .scriptWorkerThreads n => { s with scriptWorkerThreads := n }
  | .physicsWorkerThreads n => { s with physicsWorkerThreads := n }
  | .collectStats b => { s with collectStats := b }
  | .useSound b => { s with useSound := b }
  | .statsSummaryInterval x => { s with statsSummaryInterval := x }

/-- What a field holds. -/
def get (s : Settings) : Field → Assignment
  | .framerateLimit => .framerateLimit s.framerateLimit
  | .scriptWorkerThreads => .scriptWorkerThreads s.scriptWorkerThreads
  | .physicsWorkerThreads => .physicsWorkerThreads s.physicsWorkerThreads
  | .collectStats => .collectStats s.collectStats
  | .useSound => .useSound s.useSound
  | .statsSummaryInterval => .statsSummaryInterval s.statsSummaryInterval

/-- Equal in every field, numbers being compared as numbers. -/
def same (s t : Settings) : Bool :=
  s.framerateLimit.eq t.framerateLimit && s.scriptWorkerThreads == t.scriptWorkerThreads &&
    s.physicsWorkerThreads == t.physicsWorkerThreads && s.collectStats == t.collectStats &&
    s.useSound == t.useSound && s.statsSummaryInterval.eq t.statsSummaryInterval

/-- What may be wrong with a setting. -/
inductive Problem
  | rate (x : Single)
  | rateDuration (x : Single)
  | negativeThreads (field : Field) (n : Int)
  | interval (x : Double)
  deriving DecidableEq

namespace Problem

def field : Problem → Field
  | rate _ | rateDuration _ => .framerateLimit
  | negativeThreads f _ => f
  | interval _ => .statsSummaryInterval

def reason : Problem → String
  | rate x => s!"must be a finite, non-negative rate (got {x.message})"
  | rateDuration x => s!"frame duration of a {x.message} fps limit is out of range"
  | negativeThreads _ n => s!"must not be negative (got {n})"
  | interval x => s!"must be a positive number of seconds (got {x.message})"

def error (p : Problem) : EngineError := .config ⟨p.field.key, p.reason⟩

end Problem

/-- The first problem in the order of the checks. -/
def problem? (s : Settings) : Option Problem :=
  if !s.framerateLimit.isFinite || s.framerateLimit.lt (.zero false) then
    some (.rate s.framerateLimit)
  else if s.framerateLimit.isPositive && (Duration.ofRate? s.framerateLimit).isNone then
    some (.rateDuration s.framerateLimit)
  else if s.scriptWorkerThreads < 0 then
    some (.negativeThreads .scriptWorkerThreads s.scriptWorkerThreads)
  else if s.physicsWorkerThreads < 0 then
    some (.negativeThreads .physicsWorkerThreads s.physicsWorkerThreads)
  else if !(s.statsSummaryInterval.isPositive &&
      (Duration.ofSeconds? s.statsSummaryInterval).isSome) then
    some (.interval s.statsSummaryInterval)
  else none

/-- What is logged about accepted settings. -/
def remarks (s : Settings) : List Record :=
  if 1 < s.scriptWorkerThreads then
    [⟨.warn, s!"script_worker_threads = {s.scriptWorkerThreads} but the scripting update uses at most one worker"⟩]
  else []

/-- The verdict on the settings, and what is logged with it. -/
def validate (s : Settings) : Except EngineError Unit × List Record :=
  match s.problem? with
  | some p => (.error p.error, [])
  | none => (.ok (), s.remarks)

/-- Script workers to start: none or one. -/
def scriptWorkers (s : Settings) : Nat := min s.scriptWorkerThreads.toNat 1

def physicsWorkers (s : Settings) : Nat := s.physicsWorkerThreads.toNat

/-- Time between two summaries. Rejected values fall back to the default. -/
def summaryInterval (s : Settings) : Duration :=
  (Duration.ofSeconds? s.statsSummaryInterval).getD defaultInterval

end Settings

end FrameLoop
