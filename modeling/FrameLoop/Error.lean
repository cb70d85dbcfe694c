import FrameLoop.Json.Error

/-! What is told of a run: the records of its log, and the errors of the engine, with
what went wrong and in which words it is told. -/

namespace FrameLoop

inductive Level
  | error
  | warn
  | info
  | debug
  | trace
  deriving DecidableEq, Repr

structure Record where
  level : Level
  message : String
  deriving DecidableEq, Repr

/-- Records in the order in which they were made. -/
abbrev Log := Array Record

/-- The messages of a failed call, from the outermost to its first cause. -/
structure Failure where
  message : String
  causes : List String
  deriving DecidableEq, Repr

/-- The whole chain on one line. -/
def Failure.line (f : Failure) : String := ": ".intercalate (f.message :: f.causes)

/-- Why a file could not be read or written. -/
inductive FileFault
  | notFound
  | notDirectory
  | isDirectory
  | nameTooLong
  | nulInName
  | notText
  | other (text : String)
  deriving DecidableEq, Repr

def FileFault.message : FileFault → String
  | notFound => "No such file or directory (os error 2)"
  | notDirectory => "Not a directory (os error 20)"
  | isDirectory => "Is a directory (os error 21)"
  | nameTooLong => "File name too long (os error 36)"
  | nulInName => "file name contained an unexpected NUL byte"
  | notText => "stream did not contain valid UTF-8"
  | other text => text

/-- A setting that was rejected, and why. -/
structure InvalidValue where
  key : String
  reason : String
  deriving DecidableEq, Repr

inductive EngineError
  | config (v : InvalidValue)
  | file (path : String) (fault : FileFault)
  | json (e : Json.Error)
  | workerSpawn (reason : String)
  | subsystem (f : Failure)
  deriving DecidableEq, Repr

namespace EngineError

def message : EngineError → String
  | config v => s!"invalid value for `{v.key}`: {v.reason}"
  | file path fault => s!"I/O error on '{path}': {fault.message}"
  | json e => s!"malformed settings: {e.message}"
  | workerSpawn reason => s!"failed to spawn script worker: {reason}"
  | subsystem f => f.message

/-- The messages of what lies behind the error, nearest first. -/
def sources : EngineError → List String
  | config _ => []
  | file _ fault => [fault.message]
  | json e => [e.message]
  | workerSpawn reason => [reason]
  | subsystem f => f.causes

/-- The error as a program reports it on exit. -/
def report (e : EngineError) : String :=
  let causes := match e.sources with
    | [] => ""
    | [cause] => s!"\n\nCaused by:\n    {cause}"
    | causes =>
      let line (p : String × Nat) : String :=
        "\n" ++ String.ofList ((toString p.2).toList.leftpad 5 ' ') ++ ": " ++ p.1
      "\n\nCaused by:" ++ String.join (causes.zipIdx.map line)
  s!"Error: {e.message}{causes}"

end EngineError

end FrameLoop
