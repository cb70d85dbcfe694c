import FrameLoop.Storage.Basic

/-! Files and directories below one working directory. Paths are walked name by
name, so each kind of wrong path has its own fault. -/

namespace FrameLoop

/-- The names from the working directory down to an entry. -/
abbrev Trail := List String

structure FileTree where
  directories : List Trail
  files : List (Trail × ByteArray)

namespace FileTree

def empty : FileTree := ⟨[], []⟩

def isDirectory (t : FileTree) (p : Trail) : Bool := p.isEmpty || t.directories.contains p

def content? (t : FileTree) (p : Trail) : Option ByteArray := t.files.lookup p

/-- Replaces the content of a file. -/
def put (t : FileTree) (p : Trail) (content : ByteArray) : FileTree :=
  if (t.content? p).isSome then
    { t with files := t.files.map fun (q, c) => if q = p then (q, content) else (q, c) }
  else { t with files := t.files ++ [(p, content)] }

/-- What stands at the end of a path. -/
inductive Target
  | directory (p : Trail)
  | file (p : Trail)
  /-- Nothing; the path may still end in a slash. -/
  | absent (p : Trail) (slash : Bool)
  deriving DecidableEq, Repr

/-- Bytes that a single name and a whole path may have. -/
def maxName : Nat := 255

def maxPath : Nat := 4095

/-- Follows the names of a path from a directory. -/
def follow (t : FileTree) (at_ : Trail) : List String → Except FileFault Target
  | [] => .ok (.directory at_)
  | name :: names =>
    if name = "" ∨ name = "." then follow t at_ names
    else if name = ".." then follow t at_.dropLast names
    else if maxName < name.utf8ByteSize then .error .nameTooLong
    else
      let p := at_ ++ [name]
      if t.isDirectory p then follow t p names
      else if (t.content? p).isSome then
        if names.isEmpty then .ok (.file p) else .error .notDirectory
      else if names.all (· = "") then .ok (.absent p (!names.isEmpty))
      else .error .notFound

/-- Resolves a path. Only relative paths lie in the tree. -/
def resolve (t : FileTree) (path : String) : Except FileFault Target :=
  if path.contains (Char.ofNat 0) then .error .nulInName
  else if maxPath < path.utf8ByteSize then .error .nameTooLong
  else if path = "" ∨ path.startsWith "/" then .error .notFound
  else t.follow [] (path.splitOn "/")

def holds (t : FileTree) (path : String) : Bool :=
  match t.resolve path with
  | .ok (.directory _) | .ok (.file _) => true
  | _ => false

def readBytes (t : FileTree) (path : String) : Except FileFault ByteArray :=
  match t.resolve path with
  | .error f => .error f
  | .ok (.directory _) => .error .isDirectory
  | .ok (.file p) => .ok ((t.content? p).getD .empty)
  | .ok (.absent _ _) => .error .notFound

def readText (t : FileTree) (path : String) : Except FileFault String := do
  let bytes ← t.readBytes path
  match String.fromUTF8? bytes with
  | some text => .ok text
  | none => .error .notText

/-- The file that writing to a path would change. -/
def writable (t : FileTree) (path : String) : Except FileFault Trail :=
  match t.resolve path with
  | .error f => .error f
  | .ok (.directory _) | .ok (.absent _ true) => .error .isDirectory
  | .ok (.file p) | .ok (.absent p false) => .ok p

def writeBytes (t : FileTree) (path : String) (content : ByteArray) :
    Except FileFault Unit × FileTree :=
  match t.writable path with
  | .error f => (.error f, t)
  | .ok p => (.ok (), t.put p content)

/-- Makes a directory and those above it. -/
def makeDirectory (t : FileTree) (path : String) : FileTree :=
  let names := (path.splitOn "/").filter fun n => n != "" && n != "."
  let trails := (List.range names.length).map fun n => names.take (n + 1)
  { t with directories := t.directories ++ trails.filter fun p => !t.isDirectory p }

/-- Overwrites the content of a file from an offset on, with zeros in a gap before it. -/
def writeAt (t : FileTree) (p : Trail) (offset : Nat) (bytes : ByteArray) : FileTree :=
  let old := (t.content? p).getD .empty
  let gap : ByteArray := ⟨Array.replicate (offset - old.size) 0⟩
  let before := (old ++ gap).extract 0 offset
  t.put p (before ++ bytes ++ old.extract (offset + bytes.size) old.size)

end FileTree

/-- A file that is written through a buffer, from a position of its own. -/
structure OpenFile where
  trail : Trail
  offset : Nat
  buffer : String

namespace OpenFile

/-- Bytes that the buffer holds. -/
def capacity : Nat := 8192

/-- Writes text to the file itself. -/
def emit (text : String) (f : OpenFile) (t : FileTree) : OpenFile × FileTree :=
  ({ f with offset := f.offset + text.utf8ByteSize }, t.writeAt f.trail f.offset text.toUTF8)

def flush (f : OpenFile) (t : FileTree) : OpenFile × FileTree :=
  if f.buffer.isEmpty then (f, t) else emit f.buffer { f with buffer := "" } t

/-- A piece goes to the buffer if it fits, and past it if it would fill it alone. -/
def write (piece : String) (f : OpenFile) (t : FileTree) : OpenFile × FileTree :=
  let size := piece.utf8ByteSize
  let (f, t) := if capacity < f.buffer.utf8ByteSize + size then flush f t else (f, t)
  if capacity ≤ size then emit piece f t else ({ f with buffer := f.buffer ++ piece }, t)

end OpenFile

instance : Report OpenFile FileTree where
  write piece f t := (.ok (), f.write piece t)
  flush f t := (.ok (), f.flush t)
  close f t := (f.flush t).2

instance : Storage FileTree OpenFile where
  read path t := t.readText path
  save path text t := t.writeBytes path text.toUTF8
  create path t :=
    match t.writable path with
    | .error f => (.error f, t)
    | .ok p => (.ok ⟨p, 0, ""⟩, t.put p .empty)
  holds path t := t.holds path

end FrameLoop
