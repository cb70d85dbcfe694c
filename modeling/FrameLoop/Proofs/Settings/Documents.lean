import FrameLoop.Proofs.Json.Spelling
import FrameLoop.Proofs.Settings.Values

/-! Settings files of any form: known members in any order with their keys spelled in any way, unknown
members with any values among them, and blanks wherever they may stand. Each known member gives what
it gives on its own. -/

namespace FrameLoop.Settings

open Json

def Field.taken? (f : Field) (value : Bytes) : Option Assignment :=
  (f.read value).toOption.map Prod.fst

/-- The reader comes to the rest with the result, or to a fault if there is none. -/
def Yields {α : Type} (r : Except Fault (α × Bytes)) (rest : Bytes) : Option α → Prop
  | some x => r = .ok (x, rest)
  | none => ∃ f, r = .error f

theorem Field.read_yields (f : Field) {value rest : Bytes} (h : Text .value value)
    (hrest : EndsNumber rest) : Yields (f.read (value ++ rest)) rest (f.taken? value) := by
  have hend : EndsNumber [] := endsNumber_of_head nofun
  rcases f.read_settles h with ⟨a, ha⟩ | herror
  · have hself := ha [] hend
    rw [List.append_nil] at hself
    rw [taken?, hself]
    exact ha rest hrest
  · obtain ⟨e, he⟩ := herror [] hend
    rw [List.append_nil] at he
    rw [taken?, he]
    exact herror rest hrest

theorem Field.field_of_taken {f : Field} {value : Bytes} {a : Assignment}
    (h : f.taken? value = some a) : a.field = f := by
  unfold taken? at h
  cases hread : f.read value with
  | error e =>
    rw [hread] at h
    cases h
  | ok p =>
    rw [hread] at h
    obtain rfl : p.1 = a := Option.some.inj h
    exact field_of_read hread

section Override

variable {s t : Settings} {a : Assignment} {f : Field} {as : List Assignment}

theorem get_assign (s : Settings) (a : Assignment) : (s.assign a).get a.field = a := by
  cases a <;> rfl

theorem get_assign_of_ne (h : f ≠ a.field) : (s.assign a).get f = s.get f := by
  cases a <;> cases f <;> first | rfl | exact absurd rfl h

theorem ext_get (h : ∀ f, s.get f = t.get f) : s = t := by
  have hrate := h .framerateLimit
  have hscript := h .scriptWorkerThreads
  have hphysics := h .physicsWorkerThreads
  have hstats := h .collectStats
  have hsound := h .useSound
  have hinterval := h .statsSummaryInterval
  cases s
  cases t
  simp only [get, Assignment.framerateLimit.injEq, Assignment.scriptWorkerThreads.injEq,
    Assignment.physicsWorkerThreads.injEq, Assignment.collectStats.injEq, Assignment.useSound.injEq,
    Assignment.statsSummaryInterval.injEq] at hrate hscript hphysics hstats hsound hinterval
  rw [Settings.mk.injEq]
  exact ⟨hrate, hscript, hphysics, hstats, hsound, hinterval⟩

theorem get_override_of_not_mem (h : f ∉ as.map Assignment.field) :
    (override as).get f = defaults.get f := by
  induction as with
  | nil => rfl
  | cons a as ih =>
    rw [List.map_cons, List.mem_cons, not_or] at h
    exact (get_assign_of_ne h.1).trans (ih h.2)

theorem get_override (h : (as.map Assignment.field).Nodup) (ha : a ∈ as) :
    (override as).get a.field = a := by
  induction as with
  | nil => cases ha
  | cons b as ih =>
    rw [List.map_cons, List.nodup_cons] at h
    rcases List.mem_cons.mp ha with rfl | ha
    · exact get_assign _ a
    · have hne : a.field ≠ b.field := fun heq => h.1 (heq ▸ List.mem_map_of_mem ha)
      exact (get_assign_of_ne hne).trans (ih h.2 ha)

end Override

/-- A member as it stands in a file: a key, however it is spelled, and any value. -/
structure Member where
  before : Bytes
  key : Bytes
  gap : Bytes
  lead : Bytes
  value : Bytes
  after : Bytes
  name : Bytes
  before_blank : Blank before
  gap_blank : Blank gap
  lead_blank : Blank lead
  after_blank : Blank after
  spelling : Spelling key name
  isValue : Text .value value

namespace Member

/-- The member after the opening quote of its key, up to the end of its value. -/
def inner (m : Member) : Bytes :=
  m.key ++ Byte.quote :: (m.gap ++ Byte.colon :: (m.lead ++ m.value))

def text (m : Member) : Bytes := m.before ++ Byte.quote :: (m.inner ++ m.after)

/-- The field that the key names; the key of an unknown member names none. -/
def field? (m : Member) : Option Field := Field.ofKey? m.name

def setting? (m : Member) : Option (Field × Bytes) := m.field?.map fun f => (f, m.value)

/-- What the reader should make of the member after members for some fields. -/
def outcome (m : Member) (seen : List Field) : Option (Option Assignment) :=
  match m.setting? with
  | none => some none
  | some (f, value) => if f ∈ seen then none else (f.taken? value).map some

theorem read (m : Member) (seen : List Field) {rest : Bytes} (hrest : EndsNumber rest) :
    Yields (readMember seen (m.inner ++ rest)) rest (m.outcome seen) := by
  have hkey : Json.string (m.inner ++ rest) =
      .ok (m.name, m.gap ++ Byte.colon :: (m.lead ++ (m.value ++ rest))) := by
    rw [inner, List.append_assoc, List.cons_append, List.append_assoc, List.cons_append,
      List.append_assoc]
    exact string_spelling m.spelling _
  have hcolon := colon_text m.gap_blank (m.lead ++ (m.value ++ rest))
  rw [outcome, setting?, field?, readMember, hkey]
  simp only [bind, Except.bind]
  cases Field.ofKey? m.name with
  | none =>
    have hskip : walk .skipping (m.lead ++ (m.value ++ rest)) = .ok rest := by
      rw [← List.append_assoc]
      exact walk_value (m.isValue.blank_append m.lead_blank) hrest
    simp only [hcolon, hskip]
    rfl
  | some f =>
    by_cases hseen : f ∈ seen
    · simp only [if_pos hseen, Option.map_some]
      exact ⟨_, rfl⟩
    · have hread : f.read (m.lead ++ (m.value ++ rest)) = f.read (m.value ++ rest) :=
        f.read_congr (skipBlank_append m.lead_blank _)
      have hyields := f.read_yields m.isValue hrest
      simp only [if_neg hseen, Option.map_some, hcolon, hread]
      cases htaken : f.taken? m.value with
      | none =>
        rw [htaken] at hyields
        obtain ⟨e, he⟩ := hyields
        exact ⟨e, by rw [he]⟩
      | some a =>
        rw [htaken] at hyields
        have hok : f.read (m.value ++ rest) = .ok (a, rest) := hyields
        rw [hok]
        rfl

end Member

def furtherMembers : List Member → Bytes
  | [] => [Byte.closeBrace]
  | m :: ms => Byte.comma :: (m.text ++ furtherMembers ms)

def membersText : List Member → Bytes
  | [] => [Byte.closeBrace]
  | m :: ms => m.text ++ furtherMembers ms

/-- The assignments that settings give, last one first: none if a field comes twice or does not take
its value. -/
def collect (read : List Assignment) : List (Field × Bytes) → Option (List Assignment)
  | [] => some read
  | (f, value) :: settings =>
    if f ∈ read.map Assignment.field then none
    else (f.taken? value).bind fun a => collect (a :: read) settings

section Members

variable {m : Member} {ms : List Member} {blank rest s t : Bytes} {fuel : ℕ} {read : List Assignment}

theorem furtherMembers_head (ms : List Member) (rest : Bytes) : ∃ b t,
    furtherMembers ms ++ rest = b :: t ∧ (b = Byte.comma ∨ b = Byte.closeBrace) := by
  cases ms with
  | nil => exact ⟨_, _, rfl, .inr rfl⟩
  | cons m ms => exact ⟨_, _, rfl, .inl rfl⟩

theorem furtherMembers_ends (hblank : Blank blank) (ms : List Member) (rest : Bytes) :
    EndsNumber (blank ++ (furtherMembers ms ++ rest)) := by
  apply endsNumber_of_head
  cases blank with
  | nil =>
    obtain ⟨b, t, heq, hb⟩ := furtherMembers_head ms rest
    rw [List.nil_append, heq]
    rcases hb with rfl | rfl <;> simp
  | cons b blank => simp [hblank b List.mem_cons_self]

theorem length_le_furtherMembers (ms : List Member) : ms.length < (furtherMembers ms).length := by
  induction ms with
  | nil => exact Nat.zero_lt_one
  | cons m ms ih =>
    simp only [furtherMembers, List.length_cons, List.length_append]
    omega

theorem readMembers_first (hs : skipBlank s = Byte.quote :: t) :
    readMembers (fuel + 1) true read s = readMember (read.map Assignment.field) t >>= fun (a, s) =>
      readMembers fuel false (a.toList ++ read) s := by
  rw [readMembers, hs]
  rfl

theorem readMembers_comma (hs : skipBlank s = Byte.comma :: t)
    {u : Bytes} (ht : skipBlank t = Byte.quote :: u) :
    readMembers (fuel + 1) false read s = readMember (read.map Assignment.field) u >>= fun (a, s) =>
      readMembers fuel false (a.toList ++ read) s := by
  rw [readMembers, hs]
  simp only [ht]
  rfl

theorem Member.text_head (m : Member) (hblank : Blank blank) (rest : Bytes) :
    skipBlank (blank ++ (m.text ++ rest)) = Byte.quote :: (m.inner ++ (m.after ++ rest)) := by
  rw [skipBlank_append hblank, text, List.append_assoc, skipBlank_append m.before_blank,
    List.cons_append, List.append_assoc]
  rfl

/-- What one member adds to those before it, if it can be read, and then the others. -/
theorem Yields.member {n : ℕ}
    (hlater : ∀ read', Yields (readMembers n false read' (m.after ++ (furtherMembers ms ++ rest))) rest
      (collect read' (ms.filterMap Member.setting?))) :
    Yields (readMember (read.map Assignment.field)
        (m.inner ++ (m.after ++ (furtherMembers ms ++ rest))) >>= fun (a, s) =>
          readMembers n false (a.toList ++ read) s) rest
      (collect read ((m :: ms).filterMap Member.setting?)) := by
  have hread := m.read (read.map Assignment.field) (furtherMembers_ends m.after_blank ms rest)
  rw [Member.outcome] at hread
  rw [List.filterMap_cons]
  cases hsetting : m.setting? with
  | none =>
    rw [hsetting] at hread
    have hok : readMember (read.map Assignment.field)
        (m.inner ++ (m.after ++ (furtherMembers ms ++ rest))) = .ok (none, _) := hread
    rw [hok]
    exact hlater read
  | some p =>
    obtain ⟨f, value⟩ := p
    rw [hsetting] at hread
    dsimp only at hread ⊢
    rw [collect]
    by_cases hseen : f ∈ read.map Assignment.field
    · rw [if_pos hseen] at hread ⊢
      obtain ⟨e, he⟩ := hread
      exact ⟨e, by rw [he]; rfl⟩
    · rw [if_neg hseen] at hread ⊢
      cases htaken : f.taken? value with
      | none =>
        rw [htaken] at hread
        obtain ⟨e, he⟩ := hread
        exact ⟨e, by rw [he]; rfl⟩
      | some a =>
        rw [htaken] at hread
        have hok : readMember (read.map Assignment.field)
            (m.inner ++ (m.after ++ (furtherMembers ms ++ rest))) = .ok (some a, _) := hread
        rw [hok]
        exact hlater (a :: read)

theorem readMembers_yields (hblank : Blank blank) (hfuel : ms.length < fuel) :
    Yields (readMembers fuel false read (blank ++ (furtherMembers ms ++ rest))) rest
      (collect read (ms.filterMap Member.setting?)) := by
  induction ms generalizing blank fuel read with
  | nil =>
    obtain ⟨fuel, rfl⟩ : ∃ n, fuel = n + 1 := ⟨fuel - 1, by omega⟩
    change readMembers (fuel + 1) false read (blank ++ Byte.closeBrace :: rest) = .ok (read, rest)
    rw [readMembers, skipBlank_append hblank]
    rfl
  | cons m ms ih =>
    obtain ⟨fuel, rfl⟩ : ∃ n, fuel = n + 1 := ⟨fuel - 1, by omega⟩
    have hcomma : skipBlank (blank ++ (furtherMembers (m :: ms) ++ rest)) =
        Byte.comma :: ([] ++ (m.text ++ (furtherMembers ms ++ rest))) := by
      rw [skipBlank_append hblank, furtherMembers, List.cons_append, List.append_assoc]
      rfl
    rw [readMembers_comma hcomma (m.text_head blank_nil _)]
    exact Yields.member fun read' => ih m.after_blank (by simpa using hfuel)

end Members

def Takes (setting : Field × Bytes) (a : Assignment) : Prop :=
  setting.1.taken? setting.2 = some a

section Collect

variable {settings : List (Field × Bytes)} {read as news : List Assignment}

theorem fields_of_takes (h : List.Forall₂ Takes settings news) :
    news.map Assignment.field = settings.map Prod.fst := by
  induction h with
  | nil => rfl
  | cons ha _ ih => rw [List.map_cons, List.map_cons, Field.field_of_taken ha, ih]

theorem collect_some (h : collect read settings = some as)
    (hread : (read.map Assignment.field).Nodup) : (as.map Assignment.field).Nodup ∧
      ∃ news, as = news.reverse ++ read ∧ List.Forall₂ Takes settings news := by
  induction settings generalizing read with
  | nil =>
    obtain rfl : read = as := Option.some.inj h
    exact ⟨hread, [], rfl, .nil⟩
  | cons setting settings ih =>
    obtain ⟨f, value⟩ := setting
    rw [collect] at h
    by_cases hseen : f ∈ read.map Assignment.field
    · rw [if_pos hseen] at h
      cases h
    · rw [if_neg hseen] at h
      obtain ⟨a, ha, hlater⟩ := Option.bind_eq_some_iff.mp h
      have hfresh : ((a :: read).map Assignment.field).Nodup := by
        rw [List.map_cons, List.nodup_cons, Field.field_of_taken ha]
        exact ⟨hseen, hread⟩
      obtain ⟨hnodup, news, rfl, hnews⟩ := ih hlater hfresh
      exact ⟨hnodup, a :: news, by simp, .cons ha hnews⟩

theorem collect_of_takes (h : List.Forall₂ Takes settings news)
    (hnodup : (settings.map Prod.fst).Nodup)
    (hnew : ∀ f ∈ settings.map Prod.fst, f ∉ read.map Assignment.field) :
    collect read settings = some (news.reverse ++ read) := by
  induction h generalizing read with
  | nil => rfl
  | @cons setting a settings news ha _ ih =>
    obtain ⟨f, value⟩ := setting
    rw [List.map_cons, List.nodup_cons] at hnodup
    have htaken : f.taken? value = some a := ha
    rw [collect, if_neg (hnew f (by simp)), htaken]
    have hlater : collect (a :: read) settings = some (news.reverse ++ a :: read) := by
      refine ih hnodup.2 fun g hg => ?_
      rw [List.map_cons, List.mem_cons, not_or, Field.field_of_taken htaken]
      refine ⟨?_, hnew g (List.mem_cons_of_mem f hg)⟩
      rintro rfl
      exact hnodup.1 hg
    simpa using hlater

end Collect

/-- A settings file: an object with blanks before, inside of and after its braces. -/
structure Document where
  before : Bytes
  inside : Bytes
  members : List Member
  after : Bytes
  before_blank : Blank before
  inside_blank : Blank inside
  after_blank : Blank after

namespace Document

def text (d : Document) : Bytes :=
  d.before ++ Byte.openBrace :: (d.inside ++ (membersText d.members ++ d.after))

/-- The known settings, in the order of the file. -/
def settings (d : Document) : List (Field × Bytes) := d.members.filterMap Member.setting?

/-- A file with one member and nothing else. -/
def alone (m : Member) : Document := ⟨[], [], [m], [], blank_nil, blank_nil, blank_nil⟩

theorem readMembers_yields (d : Document) (fuel : ℕ) (hfuel : d.members.length ≤ fuel) :
    Yields (readMembers (fuel + 1) true [] (d.inside ++ (membersText d.members ++ d.after))) d.after
      (collect [] d.settings) := by
  rw [settings]
  -- the first member stands behind the brace, every other one behind a comma
  cases hmembers : d.members with
  | nil =>
    change readMembers (fuel + 1) true [] (d.inside ++ Byte.closeBrace :: d.after) = .ok ([], d.after)
    rw [readMembers, skipBlank_append d.inside_blank]
    rfl
  | cons m ms =>
    rw [membersText, List.append_assoc, readMembers_first (m.text_head d.inside_blank _)]
    rw [hmembers, List.length_cons] at hfuel
    exact Yields.member fun read' => Settings.readMembers_yields m.after_blank (by omega)

theorem length_le_text (ms : List Member) : ms.length ≤ (membersText ms).length := by
  cases ms with
  | nil => exact Nat.zero_le _
  | cons m ms =>
    have hlater := length_le_furtherMembers ms
    simp only [membersText, List.length_append, List.length_cons]
    omega

/-- A file is read as the assignments of its known members; blanks and unknown members leave no trace. -/
theorem parse_text (d : Document) : (∀ as, collect [] d.settings = some as →
    parse d.text = .ok (override as)) ∧
      (collect [] d.settings = none → ∃ e, parse d.text = .error e) := by
  have hlength := length_le_text d.members
  have hyields := d.readMembers_yields (d.inside ++ (membersText d.members ++ d.after)).length
    (by simp only [List.length_append]; omega)
  have hread : readAssignments d.text =
      readMembers ((d.inside ++ (membersText d.members ++ d.after)).length + 1) true []
        (d.inside ++ (membersText d.members ++ d.after)) := by
    rw [readAssignments, text, skipBlank_append d.before_blank]
    rfl
  have hend : atEnd d.after = .ok () := by
    have hskip := skipBlank_append d.after_blank []
    rw [List.append_nil] at hskip
    rw [atEnd, hskip]
    rfl
  rw [parse, hread]
  constructor
  · intro as has
    rw [has] at hyields
    have hok : readMembers _ true [] _ = .ok (as, d.after) := hyields
    rw [hok]
    simp only [bind, Except.bind, hend]
    rfl
  · intro hnone
    rw [hnone] at hyields
    obtain ⟨f, hf⟩ := hyields
    rw [hf]
    exact ⟨_, rfl⟩

end Document

end FrameLoop.Settings
