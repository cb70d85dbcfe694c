import FrameLoop.Proofs.Agenda

/-! Everything that changes the world, change by change: the tasks that are done, and between them
the registry of the local scripts, the reports of counters and the update of the scripting
engine. -/

namespace FrameLoop

/-- What the subsystems are called for when the world changes. -/
inductive Cause
  | task (task : Task) (answer : Except Failure Unit)
  /-- The registry of the local scripts is started over or gives out its next entry. -/
  | register (scripts : LocalScripts)
  | report (part : Part) (frame : Nat)
  | update (stamp : Stamp)

structure Change (σ : Type) where
  before : σ
  cause : Cause
  after : σ

variable {σ κ : Type} {F : Facades σ κ}

namespace Change

/-- The deed that makes a change, if it is one that does. -/
def deed? (c : Change σ) : Option (Deed σ) :=
  match c.cause with
  | .task task answer => some ⟨c.before, task, answer⟩
  | _ => none

/-- The subsystems may make this change. -/
inductive Made (F : Facades σ κ) : Change σ → Prop
  | task {w w' : σ} {task : Task} {answer : Except Failure Unit} :
    Does F w task answer w' → Made F ⟨w, .task task answer, w'⟩
  | register (scripts : LocalScripts) (w : σ) :
    Made F ⟨w, .register scripts, F.withLocalScripts scripts w⟩
  | report (part : Part) (frame : Nat) (s : Scene σ κ) :
    Made F ⟨s.world, .report part frame, (F.reportPart part frame s).2.world⟩
  | update (stamp : Stamp) (w : σ) :
    Made F ⟨w, .update stamp, (F.updateScripting stamp w).world⟩

end Change

/-- One world becomes the other by these changes, each in the world that the one before has left. -/
inductive Becomes (F : Facades σ κ) : σ → List (Change σ) → σ → Prop
  | refl (w : σ) : Becomes F w [] w
  | cons {c : Change σ} {rest : List (Change σ)} {w : σ} :
    c.Made F → Becomes F c.after rest w → Becomes F c.before (c :: rest) w

def deedsIn (changes : List (Change σ)) : List (Deed σ) := changes.filterMap Change.deed?

namespace Becomes

variable {w w' w'' : σ} {changes more : List (Change σ)}

theorem single {c : Change σ} (h : c.Made F) : Becomes F c.before [c] c.after :=
  .cons h (.refl _)

theorem trans (h : Becomes F w changes w') (h' : Becomes F w' more w'') :
    Becomes F w (changes ++ more) w'' := by
  induction h with
  | refl => exact h'
  | cons hc _ ih => exact .cons hc (ih h')

theorem split (h : Becomes F w (changes ++ more) w'') :
    ∃ w', Becomes F w changes w' ∧ Becomes F w' more w'' := by
  induction changes generalizing w with
  | nil => exact ⟨w, .refl w, h⟩
  | cons c rest ih =>
    cases h with
    | cons hc h =>
      obtain ⟨w', hrest, hmore⟩ := ih h
      exact ⟨w', .cons hc hrest, hmore⟩

theorem made (h : Becomes F w changes w') : ∀ c ∈ changes, c.Made F := by
  induction h with
  | refl => exact nofun
  | cons hc _ ih => exact List.forall_mem_cons.mpr ⟨hc, ih⟩

/-- What holds of the last world and not of the first comes about in some change. -/
theorem exists_crossing {P : σ → Prop} (h : Becomes F w changes w') (hw : ¬P w) (hw' : P w') :
    ∃ c ∈ changes, ¬P c.before ∧ P c.after := by
  induction h with
  | refl => exact absurd hw' hw
  | @cons c rest w _ _ ih =>
    by_cases hp : P c.after
    · exact ⟨c, List.mem_cons_self, hw, hp⟩
    · obtain ⟨c', hmem, hcross⟩ := ih hp hw'
      exact ⟨c', List.mem_cons_of_mem _ hmem, hcross⟩

end Becomes

theorem deedsIn_append (changes more : List (Change σ)) :
    deedsIn (changes ++ more) = deedsIn changes ++ deedsIn more :=
  List.filterMap_append

theorem Meanwhile.becomes {frame : Nat} {w w' : σ} (h : Meanwhile F frame w w') :
    ∃ changes, Becomes F w changes w' ∧ deedsIn changes = [] := by
  induction h with
  | nothing => exact ⟨[], .refl w, rfl⟩
  | report part s _ ih =>
    obtain ⟨changes, hb, hd⟩ := ih
    exact ⟨_, hb.trans (.single (.report part frame s)), by rw [deedsIn_append, hd]; rfl⟩
  | update stamp _ ih =>
    obtain ⟨changes, hb, hd⟩ := ih
    exact ⟨_, hb.trans (.single (.update stamp _)), by rw [deedsIn_append, hd]; rfl⟩

theorem Drains.becomes {patience : Nat} {w w' : σ} {deeds : List (Deed σ)}
    {ending : Except Stop Unit} (h : Drains F patience w deeds ending w') :
    ∃ changes, Becomes F w changes w' ∧ deedsIn changes = deeds := by
  induction h with
  | endless w => exact ⟨[], .refl w, rfl⟩
  | spent => exact ⟨_, .single (.register _ _), rfl⟩
  | run _ hd _ ih =>
    obtain ⟨changes, hb, rfl⟩ := ih
    exact ⟨_, .cons (.register _ _) (.cons (.task hd) hb), rfl⟩
  | failed _ hd => exact ⟨_, .cons (.register _ _) (.single (.task hd)), rfl⟩

/-- A run through an agenda changes the world by its deeds, and by nothing else that is told of. -/
theorem Follows.becomes {items : List (Item σ)} {m m' : Moment σ} {deeds : List (Deed σ)}
    {r : Except Stop Bool} (h : Follows F items m deeds r m') :
    ∃ changes, Becomes F m.world changes m'.world ∧ deedsIn changes = deeds := by
  induction h with
  | done m | halted => exact ⟨[], .refl _, rfl⟩
  | note _ ih | closed _ _ ih | undrained _ _ ih | unhalted _ _ ih => exact ih
  | task _ hd _ ih =>
    obtain ⟨changes, hb, rfl⟩ := ih
    exact ⟨_, .cons (.task hd) hb, rfl⟩
  | failed _ hd => exact ⟨_, .single (.task hd), rfl⟩
  | drained _ hd _ ih =>
    obtain ⟨drained, hb, rfl⟩ := hd.becomes
    obtain ⟨rest, hb', rfl⟩ := ih
    exact ⟨_, .cons (.register _ _) (hb.trans hb'), deedsIn_append _ _⟩
  | stuck _ hd =>
    obtain ⟨drained, hb, rfl⟩ := hd.becomes
    exact ⟨_, .cons (.register _ _) hb, rfl⟩
  | meanwhile hm _ ih =>
    obtain ⟨between, hb, hd⟩ := hm.becomes
    obtain ⟨rest, hb', rfl⟩ := ih
    exact ⟨_, hb.trans hb', by rw [deedsIn_append, hd]; rfl⟩

end FrameLoop
