import FrameLoop.Error

/-! What the engine asks of the place where its files are kept: whole texts for
settings, and open reports that take their text piece by piece. The least of such
storages has a few places, each known under one path, as they were found before a run. -/

namespace FrameLoop

/-- An open report `ω` on a storage `φ`. Any piece may be refused. -/
class Report (ω : Type) (φ : outParam Type) where
  write : String → ω → φ → Except FileFault Unit × ω × φ
  flush : ω → φ → Except FileFault Unit × ω × φ
  /-- Lets go of the report; what it still holds is written if possible. -/
  close : ω → φ → φ

/-- A storage `φ` whose files are opened as reports `ω`. -/
class Storage (φ : Type) (ω : outParam Type) where
  read : String → φ → Except FileFault String
  save : String → String → φ → Except FileFault Unit × φ
  create : String → φ → Except FileFault ω × φ
  /-- Whether anything stands at a path. -/
  holds : String → φ → Bool

/-- What is known about a path. -/
structure Place where
  /-- Its text, or why there is none. -/
  text : Except FileFault String
  /-- Whether anything stands there, with a text or without. -/
  occupied : Bool
  /-- Why it cannot be written. -/
  refusal : Option FileFault
  /-- Whether its text differs from what was found. -/
  changed : Bool

abbrev Places := List (String × Place)

namespace Places

/-- Paths that nothing is known of hold nothing. -/
def at? (places : Places) (path : String) : Except FileFault Place :=
  match places.lookup path with
  | some place => .ok place
  | none => .error .notFound

/-- Replaces the text at a path. -/
def write (places : Places) (path text : String) : Except FileFault Unit × Places :=
  match places.at? path with
  | .error f => (.error f, places)
  | .ok place =>
    match place.refusal with
    | some f => (.error f, places)
    | none => (.ok (), places.map fun (p, old) => (p, if p = path then ⟨.ok text, true, none, true⟩ else old))

/-- The text at a path; empty if there is none. -/
def textAt (places : Places) (path : String) : String :=
  match (places.at? path).bind Place.text with
  | .ok text => text
  | .error _ => ""

/-- The texts that are new. -/
def changes (places : Places) : List (String × String) :=
  (places.filter (·.2.changed)).map fun (path, _) => (path, places.textAt path)

end Places

/-- A report that is written at a place. -/
structure PlaceReport where
  path : String

instance : Report PlaceReport Places where
  write piece r places :=
    let (answer, places) := places.write r.path (places.textAt r.path ++ piece)
    (answer, r, places)
  flush r places := (.ok (), r, places)
  close _ places := places

instance : Storage Places PlaceReport where
  read path places := (places.at? path).bind Place.text
  save path text places := places.write path text
  create path places :=
    let (answer, places) := places.write path ""
    (answer.map fun () => ⟨path⟩, places)
  holds path places := (places.lookup path).any (·.occupied)

end FrameLoop
