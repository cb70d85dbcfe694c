import FrameLoop.Storage.FileTree
import FrameLoop.Telemetry.Phase

/-! Stand-ins for what is written to: a sink that keeps every write, and a report
of limited room. -/

namespace FrameLoop.Rehearsal

structure Write where
  frame : Nat
  name : String
  value : Double
  deriving DecidableEq

/-- A sink that keeps the categories it collects and all it was told, in order. -/
structure Journal where
  categories : List String
  writes : Array Write
  deriving DecidableEq

namespace Journal

def new (categories : List String) : Journal := ⟨categories, #[]⟩

def setCollecting (j : Journal) (category : String) (enabled : Bool) : Journal :=
  if enabled then { j with categories := j.categories.insert category }
  else { j with categories := j.categories.filter (· != category) }

instance : StatsSink Journal where
  collects j category := j.categories.contains category
  set j frame name value := { j with writes := j.writes.push ⟨frame, name, value⟩ }

end Journal

/-- A report in memory, with the bytes it has room for and how its flush fails. -/
structure Tape where
  limit : Option Nat
  flushFault : Option FileFault
  deriving DecidableEq

/-- A report in a file or in memory. -/
inductive Destination
  | file (f : OpenFile)
  | tape (t : Tape)

/-- Files, and the text of the latest report in memory. -/
structure Desk where
  files : FileTree
  tape : String

namespace Tape

/-- A piece that does not fit is refused as a whole. -/
def write (t : Tape) (piece : String) (text : String) : Except FileFault Unit × String :=
  if t.limit.any (· < text.utf8ByteSize + piece.utf8ByteSize) then
    (.error (.other "disk full"), text)
  else (.ok (), text ++ piece)

def flush (t : Tape) : Except FileFault Unit :=
  match t.flushFault with
  | some f => .error f
  | none => .ok ()

end Tape

instance : Report Destination Desk where
  write piece d desk :=
    match d with
    | .file f =>
      let (r, f, files) := Report.write piece f desk.files
      (r, .file f, { desk with files })
    | .tape t =>
      let (r, tape) := t.write piece desk.tape
      (r, .tape t, { desk with tape })
  flush d desk :=
    match d with
    | .file f =>
      let (r, f, files) := Report.flush f desk.files
      (r, .file f, { desk with files })
    | .tape t => (t.flush, .tape t, desk)
  close d desk :=
    match d with
    | .file f => { desk with files := Report.close f desk.files }
    | .tape _ => desk

instance : Storage Desk Destination where
  read path desk := desk.files.readText path
  save path text desk :=
    let (r, files) := desk.files.writeBytes path text.toUTF8
    (r, { desk with files })
  create path desk :=
    let (r, files) := Storage.create path desk.files
    (r.map .file, { desk with files })
  holds path desk := desk.files.holds path

end FrameLoop.Rehearsal
