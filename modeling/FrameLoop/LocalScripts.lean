/-! The scripts that are bound to entities. A drain walks the registry from its
start; entries that are added meanwhile are still visited, and removals keep
the cursor on the entry that is next. -/

namespace FrameLoop

structure LocalScript where
  script : String
  entity : Nat
  deriving DecidableEq, Repr

/-- An entity as it is shown. -/
def entityText (entity : Nat) : String := s!"#{entity}"

/-- The entries in the order of registration, and the next one of a running drain. -/
structure LocalScripts where
  entries : List LocalScript
  cursor : Option Nat
  deriving DecidableEq, Repr

namespace LocalScripts

def empty : LocalScripts := ⟨[], none⟩

def add (r : LocalScripts) (script : String) (entity : Nat) : LocalScripts :=
  { r with entries := r.entries ++ [⟨script, entity⟩] }

/-- How many of some entries belong to an entity. -/
def countOf (entity : Nat) (entries : List LocalScript) : Nat :=
  entries.countP (·.entity == entity)

/-- Removes the entries of an entity; the cursor moves back by those before it. -/
def remove (r : LocalScripts) (entity : Nat) : Nat × LocalScripts :=
  (countOf entity r.entries,
    { entries := r.entries.filter (·.entity != entity)
      cursor := r.cursor.map fun c => c - countOf entity (r.entries.take c) })

/-- Starts a drain at the first entry. -/
def start (r : LocalScripts) : LocalScripts := { r with cursor := some 0 }

/-- The next entry of a running drain, which ends after the last one. -/
def next (r : LocalScripts) : Option LocalScript × LocalScripts :=
  match r.cursor with
  | none => (none, r)
  | some c =>
    match r.entries[c]? with
    | some e => (some e, { r with cursor := some (c + 1) })
    | none => (none, { r with cursor := none })

/-- The entries that a drain of a registry at rest still visits. -/
def remaining (r : LocalScripts) : List LocalScript :=
  match r.cursor with
  | none => []
  | some c => r.entries.drop c

/-- Takes all that remains of the drain, which ends it. -/
def finish (r : LocalScripts) : List LocalScript × LocalScripts :=
  (r.remaining, { r with cursor := none })

end LocalScripts

end FrameLoop
