import FrameLoop.Error

/-! How the log is shown: the names of the levels, the line of a record, and which
records are shown. -/

namespace FrameLoop

namespace Level

def name : Level → String
  | error => "ERROR"
  | warn => "WARN"
  | info => "INFO"
  | debug => "DEBUG"
  | trace => "TRACE"

/-- Position by falling importance. -/
def rank : Level → Nat
  | error => 1
  | warn => 2
  | info => 3
  | debug => 4
  | trace => 5

end Level

/-- A record as it is shown. -/
def Record.line (r : Record) : String := s!"[{r.level.name}] {r.message}"

/-- The least important level that is shown, if any. -/
abbrev Verbosity := Option Level

namespace Verbosity

/-- A level by name, in any case; also the word for none. -/
def ofName? (name : String) : Option Verbosity :=
  match name.toLower with
  | "off" => some none
  | "error" => some (some .error)
  | "warn" => some (some .warn)
  | "info" => some (some .info)
  | "debug" => some (some .debug)
  | "trace" => some (some .trace)
  | _ => none

/-- The verbosity that a list with commas asks for. Its last level counts; other
words are about parts of the program that have no records here, and leave the rest
silent. An empty list shows errors. -/
def ofDirectives (text : String) : Verbosity :=
  let words := (text.splitOn ",").map (·.trimAscii.toString) |>.filter (· != "")
  match (words.filterMap ofName?).getLast? with
  | some v => v
  | none => if words.isEmpty then some .error else none

def shows (v : Verbosity) (r : Record) : Bool := v.any fun least => r.level.rank ≤ least.rank

end Verbosity

end FrameLoop
