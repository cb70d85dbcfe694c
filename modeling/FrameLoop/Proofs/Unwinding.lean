import FrameLoop.Proofs.Stores
import FrameLoop.Rehearsal.Scopes
import Mathlib.Data.List.TakeWhile

/-! Nested timed scopes, however they are left. The text of a program shows where each of its scopes
opens and closes. A run passes the marks of the text up to the point at which it is left, and from
there on it closes what is open, in the order of the text. -/

namespace FrameLoop.Rehearsal

/-- A scope in a program, with the positions of its step and of those around it, the innermost
first. -/
structure Scope where
  place : List Nat
  phase : Phase
  frame : Nat
  deriving DecidableEq

inductive Mark
  | opening (scope : Scope)
  | closing (scope : Scope)
  | collecting (category : String) (enabled : Bool)
  | leaving (how : Leave)
  deriving DecidableEq

namespace Mark

def opening? : Mark → Option Scope
  | opening scope => some scope
  | _ => none

def closing? : Mark → Option Scope
  | closing scope => some scope
  | _ => none

def leave? : Mark → Option Leave
  | leaving how => some how
  | _ => none

/-- The mark closes a scope that was opened by one of the others. -/
def closesOne (marks : List Mark) : Mark → Bool
  | closing scope => opening scope ∈ marks
  | _ => false

end Mark

mutual

/-- The text of a step that has `n` steps before it and is inside those at `outer`. -/
def stepText (outer : List Nat) (n : Nat) : ScopeStep → List Mark
  | .collect category enabled => [.collecting category enabled]
  | .scope phase frame inner =>
    .opening ⟨n :: outer, phase, frame⟩ ::
      (text (n :: outer) 0 inner ++ [.closing ⟨n :: outer, phase, frame⟩])
  | .fail => [.leaving .failed]
  | .panic => [.leaving .panicked]

/-- The text of steps that have `n` steps before them. -/
def text (outer : List Nat) (n : Nat) : List ScopeStep → List Mark
  | [] => []
  | step :: rest => stepText outer n step ++ text outer (n + 1) rest

end

def stays (m : Mark) : Bool := m.leave?.isNone

def reached (marks : List Mark) : List Mark := marks.takeWhile stays

def exit? (marks : List Mark) : Option Leave := marks.findSome? Mark.leave?

/-- The marks that are passed: those before the exit point, and after it the ends of the scopes that
are open there. -/
def route (marks : List Mark) : List Mark :=
  reached marks ++ (marks.dropWhile stays).filter (Mark.closesOne (reached marks))

def openings (marks : List Mark) : List Scope := marks.filterMap Mark.opening?

def closings (marks : List Mark) : List Scope := marks.filterMap Mark.closing?

/-- The first scope is inside the other one, or in an earlier step. -/
def Sooner (a b : Scope) : Prop :=
  (∃ inside, inside ≠ [] ∧ a.place = inside ++ b.place) ∨
    ∃ left right common i j, i < j ∧ a.place = left ++ i :: common ∧ b.place = right ++ j :: common

theorem program_induction {motive : List ScopeStep → Prop} (nil : motive [])
    (collect : ∀ category enabled rest, motive rest → motive (.collect category enabled :: rest))
    (scope : ∀ phase frame inner rest, motive inner → motive rest →
      motive (.scope phase frame inner :: rest))
    (fail : ∀ rest, motive rest → motive (.fail :: rest))
    (panic : ∀ rest, motive rest → motive (.panic :: rest)) : ∀ program, motive program
  | [] => nil
  | .collect category enabled :: rest =>
    collect category enabled rest (program_induction nil collect scope fail panic rest)
  | .scope phase frame inner :: rest =>
    scope phase frame inner rest (program_induction nil collect scope fail panic inner)
      (program_induction nil collect scope fail panic rest)
  | .fail :: rest => fail rest (program_induction nil collect scope fail panic rest)
  | .panic :: rest => panic rest (program_induction nil collect scope fail panic rest)

/-- The scope is that of a step from the `n`-th on, or inside of one. -/
def Under (outer : List Nat) (n : Nat) (scope : Scope) : Prop :=
  ∃ inside k, n ≤ k ∧ scope.place = inside ++ k :: outer

section Places

variable {outer : List Nat} {n : Nat} {a b : Scope} {phase : Phase} {frame : Nat}

theorem Sooner.ne (h : Sooner a b) : a ≠ b := by
  rintro rfl
  rcases h with ⟨inside, hne, hplace⟩ | ⟨left, right, common, i, j, hlt, hleft, hright⟩
  · exact hne (by simpa using hplace)
  · have htails := List.append_inj' (hleft.symm.trans hright)
    simp at htails
    omega

theorem Under.this : Under outer n ⟨n :: outer, phase, frame⟩ := ⟨[], n, Nat.le_refl n, rfl⟩

theorem Under.later (h : Under outer (n + 1) a) : Under outer n a := by
  obtain ⟨inside, k, hk, hplace⟩ := h
  exact ⟨inside, k, by omega, hplace⟩

theorem Under.inner (h : Under (n :: outer) 0 a) : Under outer n a := by
  obtain ⟨inside, k, -, hplace⟩ := h
  exact ⟨inside ++ [k], n, Nat.le_refl n, by simp [hplace]⟩

theorem Under.sooner_outer (h : Under (n :: outer) 0 a) : Sooner a ⟨n :: outer, phase, frame⟩ := by
  obtain ⟨inside, k, -, hplace⟩ := h
  exact .inl ⟨inside ++ [k], by simp, by simp [hplace]⟩

theorem Under.sooner_later (h : Under outer (n + 1) b) (ha : ∃ inside, a.place = inside ++ n :: outer) :
    Sooner a b := by
  obtain ⟨right, k, hk, hright⟩ := h
  obtain ⟨left, hleft⟩ := ha
  exact .inr ⟨left, right, outer, n, k, by omega, hleft, hright⟩

theorem Under.exists_inside (h : Under (n :: outer) 0 a) :
    ∃ inside, a.place = inside ++ n :: outer := by
  obtain ⟨inside, k, -, hplace⟩ := h
  exact ⟨inside ++ [k], by simp [hplace]⟩

end Places

section Text

variable {outer : List Nat} {n : Nat} {scope : Scope}

theorem text_scope (outer : List Nat) (n : Nat) (phase : Phase) (frame : Nat)
    (inner rest : List ScopeStep) :
    text outer n (.scope phase frame inner :: rest) =
      .opening ⟨n :: outer, phase, frame⟩ :: (text (n :: outer) 0 inner ++
        .closing ⟨n :: outer, phase, frame⟩ :: text outer (n + 1) rest) := by
  simp [text, stepText]

theorem opening_mem_text_iff (program : List ScopeStep) (outer : List Nat) (n : Nat) :
    .opening scope ∈ text outer n program ↔ .closing scope ∈ text outer n program := by
  induction program using program_induction generalizing outer n with
  | nil => simp [text]
  | collect category enabled rest ih => simp [text, stepText, ih]
  | scope phase frame inner rest hinner hrest => simp [text, stepText, hinner, hrest, or_left_comm]
  | fail rest ih => simp [text, stepText, ih]
  | panic rest ih => simp [text, stepText, ih]

theorem mem_closings {marks : List Mark} : scope ∈ closings marks ↔ .closing scope ∈ marks := by
  rw [closings, List.mem_filterMap]
  constructor
  · rintro ⟨m, hm, hscope⟩
    cases m <;> simp_all [Mark.closing?]
  · exact fun h => ⟨_, h, rfl⟩

theorem under_of_closing (program : List ScopeStep) {outer : List Nat} {n : Nat}
    (h : .closing scope ∈ text outer n program) : Under outer n scope := by
  induction program using program_induction generalizing outer n with
  | nil => simp [text] at h
  | collect category enabled rest ih => exact (ih (by simpa [text, stepText] using h)).later
  | scope phase frame inner rest hinner hrest =>
    have hcases : .closing scope ∈ text (n :: outer) 0 inner ∨ scope = ⟨n :: outer, phase, frame⟩ ∨
        .closing scope ∈ text outer (n + 1) rest := by simpa [text, stepText] using h
    rcases hcases with h | rfl | h
    · exact (hinner h).inner
    · exact .this
    · exact (hrest h).later
  | fail rest ih => exact (ih (by simpa [text, stepText] using h)).later
  | panic rest ih => exact (ih (by simpa [text, stepText] using h)).later

theorem text_pairwise (program : List ScopeStep) (outer : List Nat) (n : Nat) :
    (text outer n program).Pairwise fun m m' => ∀ scope, m = .closing scope → m' ≠ .opening scope := by
  induction program using program_induction generalizing outer n with
  | nil => exact .nil
  | collect category enabled rest ih => exact List.pairwise_cons.mpr ⟨nofun, ih outer (n + 1)⟩
  | scope phase frame inner rest hinner hrest =>
    have hlater {a : Scope} (h : .opening a ∈ text outer (n + 1) rest) : Under outer (n + 1) a :=
      under_of_closing rest ((opening_mem_text_iff rest outer (n + 1)).mp h)
    rw [text_scope]
    refine List.pairwise_cons.mpr ⟨nofun, List.pairwise_append.mpr ⟨hinner _ _,
      List.pairwise_cons.mpr ⟨?_, hrest _ _⟩, ?_⟩⟩
    · rintro m hm scope hscope rfl
      cases hscope
      exact ((hlater hm).sooner_later ⟨[], rfl⟩).ne rfl
    · rintro m hm m' hm' scope rfl rfl
      have hmem : .opening scope ∈ text outer (n + 1) rest := by simpa using hm'
      exact ((hlater hmem).sooner_later (under_of_closing inner hm).exists_inside).ne rfl
  | fail rest ih => exact List.pairwise_cons.mpr ⟨nofun, ih outer (n + 1)⟩
  | panic rest ih => exact List.pairwise_cons.mpr ⟨nofun, ih outer (n + 1)⟩

theorem closings_text_sooner (program : List ScopeStep) (outer : List Nat) (n : Nat) :
    (closings (text outer n program)).Pairwise Sooner := by
  induction program using program_induction generalizing outer n with
  | nil => exact .nil
  | collect category enabled rest ih => exact ih outer (n + 1)
  | scope phase frame inner rest hinner hrest =>
    have hunder {a : Scope} (h : a ∈ closings (text (n :: outer) 0 inner)) :
        Under (n :: outer) 0 a := under_of_closing inner (mem_closings.mp h)
    have hlater {a : Scope} (h : a ∈ closings (text outer (n + 1) rest)) :
        Under outer (n + 1) a := under_of_closing rest (mem_closings.mp h)
    have hsplit : closings (text outer n (.scope phase frame inner :: rest)) =
        closings (text (n :: outer) 0 inner) ++ ⟨n :: outer, phase, frame⟩ ::
          closings (text outer (n + 1) rest) := by
      rw [text_scope]
      simp only [closings, List.filterMap_cons, List.filterMap_append, Mark.closing?]
    rw [hsplit]
    refine List.pairwise_append.mpr ⟨hinner _ _, List.pairwise_cons.mpr ⟨?_, hrest _ _⟩, ?_⟩
    · exact fun b hb => (hlater hb).sooner_later ⟨[], rfl⟩
    · intro a ha b hb
      rcases List.mem_cons.mp hb with rfl | hb
      · exact (hunder ha).sooner_outer
      · exact (hlater hb).sooner_later (hunder ha).exists_inside
  | fail rest ih => exact ih outer (n + 1)
  | panic rest ih => exact ih outer (n + 1)

end Text

section Route

variable {marks more : List Mark} {scope : Scope} {how : Leave}

theorem exit?_eq_none_iff : exit? marks = none ↔ ∀ m ∈ marks, stays m := by
  simp [exit?, stays]

theorem exists_exit (h : exit? marks = some how) :
    ∃ before after, marks = before ++ .leaving how :: after ∧ ∀ m ∈ before, stays m := by
  obtain ⟨before, m, after, rfl, hm, hbefore⟩ := List.findSome?_eq_some_iff.mp h
  refine ⟨before, after, ?_, fun m hm => by simp [stays, hbefore m hm]⟩
  cases m <;> simp_all [Mark.leave?]

theorem route_of_stays (h : ∀ m ∈ marks, stays m) : route marks = marks := by
  rw [route, reached, List.takeWhile_eq_self_iff.mpr h, List.dropWhile_eq_nil_iff.mpr h]
  simp

theorem route_exit (h : ∀ m ∈ marks, stays m) :
    route (marks ++ .leaving how :: more) = marks ++ more.filter (Mark.closesOne marks) := by
  have hleaves : stays (.leaving how) = false := rfl
  have hreached : reached (marks ++ .leaving how :: more) = marks := by
    rw [reached, List.takeWhile_append_of_pos h, List.takeWhile_cons, hleaves]
    simp
  rw [route, hreached, List.dropWhile_append_of_pos h, List.dropWhile_cons, hleaves]
  simp [Mark.closesOne]

/-- What has been passed before does not matter to later marks that close none of its scopes. -/
theorem closesOne_append {m : Mark} (h : ∀ scope, m = .closing scope → .opening scope ∉ marks) :
    Mark.closesOne (marks ++ more) m = Mark.closesOne more m := by
  cases m with
  | closing scope => simp [Mark.closesOne, h scope rfl]
  | _ => rfl

theorem route_append (h : ∀ m ∈ marks, stays m)
    (hfresh : ∀ scope, .closing scope ∈ more → .opening scope ∉ marks) :
    route (marks ++ more) = marks ++ route more := by
  cases hexit : exit? more with
  | none =>
    have hmore := exit?_eq_none_iff.mp hexit
    rw [route_of_stays hmore, route_of_stays]
    intro m hm
    exact (List.mem_append.mp hm).elim (h m) (hmore m)
  | some how =>
    obtain ⟨before, after, rfl, hbefore⟩ := exists_exit hexit
    have hall : ∀ m ∈ marks ++ before, stays m := by
      intro m hm
      exact (List.mem_append.mp hm).elim (h m) (hbefore m)
    rw [route_exit hbefore, ← List.append_assoc, route_exit hall, List.append_assoc]
    congr 2
    refine List.filter_congr fun m hm => closesOne_append ?_
    rintro scope rfl
    exact hfresh scope (by simp [hm])

theorem route_leaving : route (.leaving how :: more) = [] := by
  have hroute : route ([] ++ .leaving how :: more) = [] ++ more.filter (Mark.closesOne []) :=
    route_exit (by simp)
  rw [List.nil_append, List.nil_append] at hroute
  rw [hroute, List.filter_eq_nil_iff]
  intro m _
  cases m <;> simp [Mark.closesOne]

section

variable {outer : List Nat} {n : Nat} {inner : List ScopeStep} (rest : List ScopeStep)
  (phase : Phase) (frame : Nat)

theorem exit?_scope : exit? (text outer n (.scope phase frame inner :: rest)) =
    (exit? (text (n :: outer) 0 inner)).or (exit? (text outer (n + 1) rest)) := by
  rw [text_scope, exit?, List.findSome?_cons, List.findSome?_append, List.findSome?_cons]
  rfl

/-- The scopes after a scope are others than this one and those inside of it. -/
theorem later_scopes {later : Scope} (h : .closing later ∈ text outer (n + 1) rest) :
    later ≠ ⟨n :: outer, phase, frame⟩ ∧ .opening later ∉ text (n :: outer) 0 inner := by
  have hlater := under_of_closing rest h
  refine ⟨(hlater.sooner_later ⟨[], rfl⟩).ne.symm, fun hopened => ?_⟩
  have hunder := under_of_closing inner ((opening_mem_text_iff inner _ _).mp hopened)
  exact (hlater.sooner_later hunder.exists_inside).ne rfl

/-- A scope that is not left early is passed as a whole. -/
theorem route_through (hexit : exit? (text (n :: outer) 0 inner) = none) :
    route (text outer n (.scope phase frame inner :: rest)) =
      .opening ⟨n :: outer, phase, frame⟩ :: (text (n :: outer) 0 inner ++
        .closing ⟨n :: outer, phase, frame⟩ :: route (text outer (n + 1) rest)) := by
  have hinner := exit?_eq_none_iff.mp hexit
  have hsplit : text outer n (.scope phase frame inner :: rest) =
      stepText outer n (.scope phase frame inner) ++ text outer (n + 1) rest := rfl
  rw [hsplit, route_append]
  · simp [stepText]
  · intro m hm
    have hm' : m = .opening ⟨n :: outer, phase, frame⟩ ∨ m ∈ text (n :: outer) 0 inner ∨
        m = .closing ⟨n :: outer, phase, frame⟩ := by simpa [stepText] using hm
    rcases hm' with rfl | hm | rfl
    · rfl
    · exact hinner m hm
    · rfl
  · intro later h
    obtain ⟨hne, hnot⟩ : later ≠ ⟨n :: outer, phase, frame⟩ ∧
        .opening later ∉ text (n :: outer) 0 inner := later_scopes rest phase frame h
    simp [stepText, hne, hnot]

/-- A scope that is left early is closed all the same, and what comes after it is not passed. -/
theorem route_left (hexit : exit? (text (n :: outer) 0 inner) = some how) :
    route (text outer n (.scope phase frame inner :: rest)) =
      .opening ⟨n :: outer, phase, frame⟩ ::
        (route (text (n :: outer) 0 inner) ++ [.closing ⟨n :: outer, phase, frame⟩]) := by
  have hnew : .closing ⟨n :: outer, phase, frame⟩ ∉ text (n :: outer) 0 inner := by
    intro h
    have hsooner : Sooner ⟨n :: outer, phase, frame⟩ ⟨n :: outer, phase, frame⟩ :=
      (under_of_closing inner h).sooner_outer
    exact hsooner.ne rfl
  have hlater {later : Scope} (h : .closing later ∈ text outer (n + 1) rest) :
      later ≠ ⟨n :: outer, phase, frame⟩ ∧ .opening later ∉ text (n :: outer) 0 inner :=
    later_scopes rest phase frame h
  rw [text_scope]
  generalize text outer (n + 1) rest = beyond at hlater
  obtain ⟨before, after, hinner, hbefore⟩ := exists_exit hexit
  rw [hinner] at hnew hlater ⊢
  generalize (⟨n :: outer, phase, frame⟩ : Scope) = scope at *
  have hall : ∀ m ∈ .opening scope :: before, stays m := by simpa [stays, Mark.leave?] using hbefore
  have hsplit : .opening scope :: ((before ++ .leaving how :: after) ++ .closing scope :: beyond) =
      (.opening scope :: before) ++ .leaving how :: (after ++ .closing scope :: beyond) := by simp
  have hafter : after.filter (Mark.closesOne (.opening scope :: before)) =
      after.filter (Mark.closesOne before) := by
    refine List.filter_congr fun m hm => ?_
    change Mark.closesOne ([.opening scope] ++ before) m = Mark.closesOne before m
    apply closesOne_append
    rintro later rfl
    have hne : later ≠ scope := by
      rintro rfl
      exact hnew (by simp [hm])
    simpa using hne
  have hbeyond : beyond.filter (Mark.closesOne (.opening scope :: before)) = [] := by
    rw [List.filter_eq_nil_iff]
    intro m hm
    cases m with
    | closing later =>
      obtain ⟨hne, hnot⟩ := hlater hm
      have hnot' : .opening later ∉ before := fun h => hnot (by simp [h])
      simp [Mark.closesOne, hne, hnot']
    | _ => simp [Mark.closesOne]
  rw [hsplit, route_exit hall, route_exit hbefore, List.filter_append, List.filter_cons, hafter,
    hbeyond]
  simp [Mark.closesOne]

end

end Route

section Closed

variable {scope : Scope}

theorem reached_append_dropWhile (marks : List Mark) :
    reached marks ++ marks.dropWhile stays = marks := List.takeWhile_append_dropWhile

theorem mem_openings {marks : List Mark} : scope ∈ openings marks ↔ .opening scope ∈ marks := by
  rw [openings, List.mem_filterMap]
  constructor
  · rintro ⟨m, hm, hscope⟩
    cases m <;> simp_all [Mark.opening?]
  · exact fun h => ⟨_, h, rfl⟩

/-- The scopes that are closed are those that were entered. -/
theorem mem_closings_route_iff (program : List ScopeStep) (outer : List Nat) (n : Nat) :
    scope ∈ closings (route (text outer n program)) ↔
      scope ∈ openings (reached (text outer n program)) := by
  have hboth : .opening scope ∈ text outer n program ↔ .closing scope ∈ text outer n program :=
    opening_mem_text_iff program outer n
  have hordered := text_pairwise program outer n
  have hsplit := reached_append_dropWhile (text outer n program)
  rw [mem_closings, mem_openings, route]
  generalize text outer n program = marks at *
  rw [← hsplit, List.pairwise_append] at hordered
  rw [← hsplit, List.mem_append, List.mem_append] at hboth
  have hclosed : .closing scope ∈ (marks.dropWhile stays).filter (Mark.closesOne (reached marks)) ↔
      .closing scope ∈ marks.dropWhile stays ∧ .opening scope ∈ reached marks := by
    simp [Mark.closesOne]
  rw [List.mem_append, hclosed]
  constructor
  · rintro (hbefore | ⟨-, hopened⟩)
    · rcases hboth.mpr (.inl hbefore) with hopened | hlate
      · exact hopened
      · exact absurd rfl (hordered.2.2 _ hbefore _ hlate scope rfl)
    · exact hopened
  · intro hopened
    rcases hboth.mp (.inl hopened) with hbefore | hafter
    · exact .inl hbefore
    · exact .inr ⟨hafter, hopened⟩

theorem closings_route_sooner (program : List ScopeStep) (outer : List Nat) (n : Nat) :
    (closings (route (text outer n program))).Pairwise Sooner := by
  refine (closings_text_sooner program outer n).sublist (List.Sublist.filterMap _ ?_)
  have hsub := (List.Sublist.refl (reached (text outer n program))).append
    (List.filter_sublist (p := Mark.closesOne (reached (text outer n program)))
      (l := (text outer n program).dropWhile stays))
  rwa [reached_append_dropWhile] at hsub

end Closed

/-- A sink that keeps all that is stored in it. -/
structure Transcript (κ : Type) where
  sink : κ
  stores : List (Nat × String × Double)

section Passage

variable {κ : Type} [StatsSink κ]

instance : StatsSink (Transcript κ) where
  collects k category := StatsSink.collects k.sink category
  set k frame name value := ⟨StatsSink.set k.sink frame name value, k.stores ++ [(frame, name, value)]⟩

theorem Transcript.storeAll_eq (k : Transcript κ) (stores : List (Nat × String × Double)) :
    storeAll k stores = ⟨storeAll k.sink stores, k.stores ++ stores⟩ := by
  induction stores generalizing k with
  | nil => simp [storeAll]
  | cons a stores ih =>
    refine (ih _).trans ?_
    simp [StatsSink.set, storeAll]

/-- What a run has come to: since when the open scopes have been open, the innermost first, the clock,
the sink, and all that was stored. -/
structure Passage (κ : Type) where
  since : List Instant
  clock : Clock
  sink : κ
  stores : List (Nat × String × Double)

/-- Every scope reads the clock when it opens. When it closes, and only if the sink collects the
timings then, it reads the clock again and stores its begin, the time taken and its end. -/
def Passage.pass (setCollecting : String → Bool → κ → κ) (start : Instant) (p : Passage κ) :
    Mark → Passage κ
  | .opening _ => { p with since := p.clock.read.1 :: p.since, clock := p.clock.read.2 }
  | .closing scope =>
    match p.since with
    | [] => p
    | opened :: since =>
      if StatsSink.collects p.sink engineStats then
        let stamp : Stamp := ⟨scope.frame, start⟩
        let now := p.clock.read.1
        let stores := [(scope.frame, scope.phase.beginKey, stamp.offsetOf opened),
          (scope.frame, scope.phase.takenKey, (now.since opened).seconds),
          (scope.frame, scope.phase.endKey, stamp.offsetOf now)]
        ⟨since, p.clock.read.2, storeAll p.sink stores, p.stores ++ stores⟩
      else { p with since }
  | .collecting category enabled => { p with sink := setCollecting category enabled p.sink }
  | .leaving _ => p

def Passage.of (since : List Instant) (s : Scene Unit (Transcript κ)) : Passage κ :=
  ⟨since, s.clock, s.sink.sink, s.sink.stores⟩

variable (setCollecting : String → Bool → κ → κ) (start : Instant)

def Transcript.lift (category : String) (enabled : Bool) (k : Transcript κ) : Transcript κ :=
  { k with sink := setCollecting category enabled k.sink }

theorem Passage.of_closePhase (scope : Scope) (opened : Instant) (since : List Instant)
    (s : Scene Unit (Transcript κ)) :
    Passage.of since (Scene.closePhase scope.phase ⟨scope.frame, start⟩ opened s).2 =
      (Passage.of (opened :: since) s).pass setCollecting start (.closing scope) := by
  rw [Scene.closePhase_eq]
  have hcollects : StatsSink.collects s.sink engineStats = StatsSink.collects s.sink.sink engineStats :=
    rfl
  rw [hcollects, Transcript.storeAll_eq]
  unfold Passage.pass Passage.of
  dsimp only
  split <;> rfl

section Run

variable {κ : Type} [StatsSink κ] (setCollecting : String → Bool → κ → κ) (start : Instant)
  (phase : Phase) (frame : Nat) (inner rest : List ScopeStep) (s : Scene Unit κ)

def afterScope : Scene Unit κ :=
  (Scene.closePhase phase ⟨frame, start⟩ (Scene.now s).1
    (runScopes setCollecting start inner (Scene.now s).2).2).2

theorem runScopes_scope :
    runScopes setCollecting start (.scope phase frame inner :: rest) s =
      match (runScopes setCollecting start inner (Scene.now s).2).1 with
      | .ok () => runScopes setCollecting start rest (afterScope setCollecting start phase frame inner s)
      | .error how => (.error how, afterScope setCollecting start phase frame inner s) := by
  have htimed : (Scene.timed phase ⟨frame, start⟩ (runScopes setCollecting start inner) :
      Attempt Leave Unit κ Unit) s =
      ((runScopes setCollecting start inner (Scene.now s).2).1,
        afterScope setCollecting start phase frame inner s) := rfl
  change ExceptT.bindCont (fun _ => runScopes setCollecting start rest)
    (Scene.timed phase ⟨frame, start⟩ (runScopes setCollecting start inner) s).1
    (Scene.timed phase ⟨frame, start⟩ (runScopes setCollecting start inner) s).2 = _
  rw [htimed]
  dsimp only
  cases (runScopes setCollecting start inner (Scene.now s).2).1 <;> rfl

end Run

variable {κ : Type} [StatsSink κ] (setCollecting : String → Bool → κ → κ) (start : Instant)

theorem runScopes_passes (program : List ScopeStep) (outer : List Nat) (n : Nat)
    (since : List Instant) (s : Scene Unit (Transcript κ)) :
    (runScopes (Transcript.lift setCollecting) start program s).1 =
        (exit? (text outer n program)).elim (.ok ()) .error ∧
      Passage.of since (runScopes (Transcript.lift setCollecting) start program s).2 =
        (route (text outer n program)).foldl (Passage.pass setCollecting start) (.of since s) := by
  induction program using program_induction generalizing outer n since s with
  | nil => exact ⟨rfl, rfl⟩
  | collect category enabled rest ih =>
    have hroute : route ([.collecting category enabled] ++ text outer (n + 1) rest) =
        [.collecting category enabled] ++ route (text outer (n + 1) rest) :=
      route_append (by simp [stays, Mark.leave?]) (by simp)
    obtain ⟨houtcome, hpassed⟩ := ih outer (n + 1) since
      { s with sink := Transcript.lift setCollecting category enabled s.sink }
    refine ⟨houtcome, hpassed.trans ?_⟩
    change _ = (route ([.collecting category enabled] ++ text outer (n + 1) rest)).foldl _ _
    rw [hroute, List.singleton_append, List.foldl_cons]
    rfl
  | scope phase frame inner rest hinner hrest =>
    obtain ⟨houtcome, hpassed⟩ := hinner (n :: outer) 0 ((Scene.now s).1 :: since) (Scene.now s).2
    have hclosed := Passage.of_closePhase setCollecting start ⟨n :: outer, phase, frame⟩
      (Scene.now s).1 since (runScopes (Transcript.lift setCollecting) start inner (Scene.now s).2).2
    rw [hpassed] at hclosed
    rw [runScopes_scope, houtcome, exit?_scope]
    -- the scope is closed in both cases; what stands behind it is passed only if it was not left
    cases hexit : exit? (text (n :: outer) 0 inner) with
    | none =>
      have hall := route_of_stays (exit?_eq_none_iff.mp hexit)
      obtain ⟨hend, hlast⟩ := hrest outer (n + 1) since
        (afterScope (Transcript.lift setCollecting) start phase frame inner s)
      refine ⟨hend, hlast.trans ?_⟩
      rw [route_through rest phase frame hexit, List.foldl_cons, List.foldl_append, List.foldl_cons,
        ← hall]
      exact congrArg (List.foldl _ · (route (text outer (n + 1) rest))) hclosed
    | some how =>
      refine ⟨rfl, ?_⟩
      rw [route_left rest phase frame hexit, List.foldl_cons, List.foldl_append, List.foldl_cons]
      exact hclosed
  | fail rest ih =>
    have hroute : route (text outer n (.fail :: rest)) = [] := route_leaving
    exact ⟨rfl, by rw [hroute]; rfl⟩
  | panic rest ih =>
    have hroute : route (text outer n (.panic :: rest)) = [] := route_leaving
    exact ⟨rfl, by rw [hroute]; rfl⟩

/-- However a program of nested scopes is left, every scope that was entered before the exit point
is closed exactly once, and no other; inner scopes before those around them, earlier ones before later
ones. When a scope closes, its begin, the time it took and its end are stored for its phase and its
frame, if the sink collects the timings at that moment, and nothing else is ever stored. -/
theorem scopes_unwind (program : List ScopeStep) (s : Scene Unit (Transcript κ)) :
    let marks := text [] 0 program
    let r := runScopes (Transcript.lift setCollecting) start program s
    r.1 = (exit? marks).elim (.ok ()) .error ∧
      (closings (route marks)).Nodup ∧ (closings (route marks)).Pairwise Sooner ∧
      (∀ scope, scope ∈ closings (route marks) ↔ scope ∈ openings (reached marks)) ∧
      Passage.of [] r.2 = (route marks).foldl (Passage.pass setCollecting start) (.of [] s) := by
  obtain ⟨houtcome, hpassed⟩ := runScopes_passes setCollecting start program [] 0 [] s
  have hsooner := closings_route_sooner program [] 0
  exact ⟨houtcome, hsooner.imp fun h => h.ne, hsooner,
    fun _ => mem_closings_route_iff program [] 0, hpassed⟩

/-- The second scope of the program is not entered. -/
example : closings (route (text [] 0 [.scope .input 7 [.scope .sound 8 [], .fail], .scope .gui 7 []])) =
    [⟨[0, 0], .sound, 8⟩, ⟨[0], .input, 7⟩] := by decide

end Passage

end FrameLoop.Rehearsal
