import FrameLoop.Sandbox.Run
import FrameLoop.Sandbox.Usage
import FrameLoop.Sandbox.Verbosity
import FrameLoop.Storage.Basic

/-! The sandbox as a program: the engine's steps between the real clock, real sleep
and real files. The clock stands still during a step; the files that a run may
touch are looked at before it and written after it. -/

namespace FrameLoop.Sandbox

/-- The variable that says which records are shown. -/
def logVariable : String := "CADENCE_LOG"

/-- The engine of the program. -/
abbrev Host := Engine Headless.World Places PlaceReport

/-- The fault behind an error of the system, by its number where one number says more. -/
def faultOf : IO.Error → FileFault
  | .noFileOrDirectory .. => .notFound
  | .inappropriateType _ code _ => if code = 21 then .isDirectory else .notDirectory
  | e => .other (toString e)

/-- Reads a text. -/
def readText (path : String) : IO (Except FileFault String) := do
  try
    match String.fromUTF8? (← IO.FS.readBinFile path) with
    | some text => return .ok text
    | none => return .error .notText
  catch e => return .error (faultOf e)

/-- The directory in which a path lies. -/
def parent (path : String) : String :=
  match (path.splitOn "/").dropLast with
  | [] => "."
  | names => "/".intercalate names ++ "/"

/-- What stands at a path. Nothing may be put into what is no directory. -/
def look (path : String) : IO Place := do
  match ← readText path with
  | .ok text => return ⟨.ok text, true, none, false⟩
  | .error .notText => return ⟨.error .notText, true, none, false⟩
  | .error .isDirectory => return ⟨.error .isDirectory, true, some .isDirectory, false⟩
  | .error f =>
    match ← readText (parent path) with
    | .error .isDirectory => return ⟨.error f, false, none, false⟩
    | _ => return ⟨.error f, false, some f, false⟩

/-- Sets the clock of an engine to the present. -/
def atNow (e : Host) : IO Host := do
  let now ← IO.monoNanosNow
  return { e with scene := { e.scene with clock := ⟨fun _ => now, 0⟩ } }

/-- Prints records. -/
def printLog (shown : Verbosity) (log : Log) : IO Unit :=
  (log.filter (shown.shows ·)).forM fun r => IO.eprintln r.line

/-- Prints the log of an engine and empties it. -/
def tellLog (shown : Verbosity) (e : Host) : IO Host := do
  printLog shown e.scene.log
  printLog shown e.scene.workerLog
  return { e with scene := { e.scene with log := #[], workerLog := #[] } }

def sleepFor (d : Duration) : IO Unit :=
  IO.sleep (d / Duration.millisecond).toUInt32

/-- Waits after an iteration. -/
def rest (outcome : FrameOutcome) (e : Host) : IO Host := do
  if outcome.isCompleted then
    let now ← IO.monoNanosNow
    sleepFor (e.limiter.pause now)
    return { e with limiter := e.limiter.limit now (← IO.monoNanosNow) }
  else
    sleepFor Engine.idlePause
    return e

/-- Iterates until the window closes. -/
partial def iterate (shown : Verbosity) (e : Host) : IO Host := do
  let e ← atNow e
  if Engine.shouldContinue Headless.facades e then
    let (outcome, e) := Engine.step Headless.facades e
    let e ← tellLog shown e
    iterate shown (← rest (outcome.getD .failed) e)
  else return e

/-- Runs an engine and gives the error it ends with. -/
def live (shown : Verbosity) (e : Host) : IO (Option EngineError × Host) := do
  match Engine.start Headless.facades (← atNow e) with
  | (.error error, e) =>
    let (_, e) := Engine.abandon Headless.facades e
    return (some error, ← tellLog shown e)
  | (.ok (), e) =>
    let e ← iterate shown (← tellLog shown e)
    let (r, e) := Engine.leave Headless.facades e
    let e ← tellLog shown e
    match r with
    | .ok () => return (none, e)
    | .error error => return (some error, e)

/-- Prints the error of a run and gives its exit code. -/
def conclude : Option EngineError → IO UInt32
  | none => return 0
  | some error => do
    IO.eprintln error.report
    return 1

/-- A run over real files. -/
def perform (o : Options) : IO UInt32 := do
  let shown := ((← IO.getEnv logVariable).map Verbosity.ofDirectives).getD (some .info)
  let statsFile ← IO.getEnv statsFileVariable
  let paths := ([o.settings, o.load, statsFile].filterMap id).eraseDups
  let places ← paths.mapM fun path => return (path, ← look path)
  let now ← IO.monoNanosNow
  match start o statsFile ⟨fun _ => now, 0⟩ .lazy places with
  | .error r =>
    printLog shown (r.log ++ r.workerLog)
    conclude (some r.error)
  | .ok e =>
    let (error, e) ← live shown (← tellLog shown e)
    e.storage.changes.forM fun (path, text) => IO.FS.writeFile path text
    conclude error

end FrameLoop.Sandbox

def main (arguments : List String) : IO UInt32 := do
  match FrameLoop.Sandbox.Command.ofArguments? arguments with
  | none =>
    IO.eprintln FrameLoop.Sandbox.usage
    return 2
  | some .help =>
    IO.println FrameLoop.Sandbox.helpText
    return 0
  | some .version =>
    IO.println FrameLoop.Sandbox.versionText
    return 0
  | some (.run options) => FrameLoop.Sandbox.perform options
