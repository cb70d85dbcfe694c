import FrameLoop.Proofs.Settings.Documents

/-! A settings file as a whole: the defaults, overridden by what each known member gives in a file of
its own, and the verdict on them. Neither the order of the members nor the unknown ones matter. -/

namespace FrameLoop.Settings

open Json

namespace Document

variable {d d' : Document} {m : Member} {f : Field} {t : Settings}

/-- The fields that the keys of a file name, in its order. -/
def fields (d : Document) : List Field := d.members.filterMap Member.field?

/-- No field comes twice, and each value is one that its field accepts in a file of its own. -/
structure Readable (d : Document) : Prop where
  distinct : d.fields.Nodup
  accepted : ∀ m ∈ d.members, ∀ f, m.field? = some f → ∃ t, parse (alone m).text = .ok t

theorem fields_eq (d : Document) : d.fields = d.settings.map Prod.fst := by
  rw [fields, settings, List.map_filterMap]
  refine List.filterMap_congr fun m _ => ?_
  cases hf : m.field? with
  | none => simp [Member.setting?, hf]
  | some f => simp [Member.setting?, hf]

theorem mem_settings {setting : Field × Bytes} : setting ∈ d.settings ↔
    ∃ m ∈ d.members, m.field? = some setting.1 ∧ m.value = setting.2 := by
  obtain ⟨f, value⟩ := setting
  simp [settings, Member.setting?]

theorem collect_alone (hf : m.field? = some f) :
    collect [] (alone m).settings = (f.taken? m.value).map fun a => [a] := by
  have hsettings : (alone m).settings = [(f, m.value)] := by
    simp [settings, alone, Member.setting?, hf]
  rw [hsettings, collect, List.map_nil, if_neg List.not_mem_nil]
  cases f.taken? m.value with
  | none => rfl
  | some a => rfl

theorem taken_of_alone (hf : m.field? = some f) (h : parse (alone m).text = .ok t) :
    f.taken? m.value = some (t.get f) := by
  have hcollect := collect_alone hf
  obtain ⟨hsome, hnone⟩ := (alone m).parse_text
  cases htaken : f.taken? m.value with
  | none =>
    rw [htaken] at hcollect
    obtain ⟨e, he⟩ := hnone hcollect
    cases he.symm.trans h
  | some a =>
    rw [htaken] at hcollect
    obtain rfl : override [a] = t := Except.ok.inj ((hsome [a] hcollect).symm.trans h)
    have hget := get_assign defaults a
    rw [Field.field_of_taken htaken] at hget
    exact congrArg some hget.symm

/-- Settings that are all taken, each for a field of its own, are read together as each by itself. -/
theorem parse_settings (d : Document) (hnodup : (d.settings.map Prod.fst).Nodup)
    (htakes : ∀ setting ∈ d.settings, ∃ a, Takes setting a) :
    ∃ s, parse d.text = .ok s ∧ (∀ setting ∈ d.settings, Takes setting (s.get setting.1)) ∧
      ∀ f ∉ d.settings.map Prod.fst, s.get f = defaults.get f := by
  have : Nonempty Assignment := ⟨defaults.get .useSound⟩
  choose! give hgive using htakes
  have hall : List.Forall₂ Takes d.settings (d.settings.map give) := by
    rw [List.forall₂_map_right_iff, List.forall₂_same]
    exact hgive
  have hcollect : collect [] d.settings = some ((d.settings.map give).reverse ++ []) :=
    collect_of_takes hall hnodup fun _ _ => List.not_mem_nil
  rw [List.append_nil] at hcollect
  have hfields : ((d.settings.map give).reverse.map Assignment.field) =
      (d.settings.map Prod.fst).reverse := by
    rw [List.map_reverse, fields_of_takes hall]
  refine ⟨_, d.parse_text.1 _ hcollect, fun setting hsetting => ?_, fun f hf => ?_⟩
  · have htaken := hgive setting hsetting
    have hmem : give setting ∈ (d.settings.map give).reverse := by
      rw [List.mem_reverse]
      exact List.mem_map_of_mem hsetting
    have hget := get_override (by rw [hfields, List.nodup_reverse]; exact hnodup) hmem
    rw [Field.field_of_taken htaken] at hget
    rw [hget]
    exact htaken
  · apply get_override_of_not_mem
    rw [hfields, List.mem_reverse]
    exact hf

theorem Readable.takes (h : d.Readable) {setting : Field × Bytes} (hmem : setting ∈ d.settings) :
    ∃ a, Takes setting a := by
  obtain ⟨m, hm, hf, hvalue⟩ := mem_settings.mp hmem
  obtain ⟨t, ht⟩ := h.accepted m hm setting.1 hf
  exact ⟨_, by rw [Takes, ← hvalue]; exact taken_of_alone hf ht⟩

theorem parse_perm (h : d.Readable) (hperm : d'.settings.Perm d.settings) :
    ∃ s, parse d.text = .ok s ∧ parse d'.text = .ok s := by
  have hnodup : (d.settings.map Prod.fst).Nodup := d.fields_eq ▸ h.distinct
  obtain ⟨s, hs, hgiven, hdefault⟩ := d.parse_settings hnodup fun _ => h.takes
  obtain ⟨s', hs', hgiven', hdefault'⟩ := d'.parse_settings
    ((hperm.map Prod.fst).nodup_iff.mpr hnodup) fun _ hmem => h.takes (hperm.mem_iff.mp hmem)
  have hsame : s' = s := by
    refine ext_get fun f => ?_
    by_cases hf : f ∈ d.settings.map Prod.fst
    · obtain ⟨setting, hmem, rfl⟩ := List.mem_map.mp hf
      exact Option.some.inj ((hgiven' setting (hperm.mem_iff.mpr hmem)).symm.trans
        (hgiven setting hmem))
    · have hf' : f ∉ d'.settings.map Prod.fst := by rwa [(hperm.map Prod.fst).mem_iff]
      rw [hdefault f hf, hdefault' f hf']
  exact ⟨s, hs, hsame ▸ hs'⟩

theorem parse_repeated (h : ¬ d.fields.Nodup) : ∃ e, parse d.text = .error e := by
  apply d.parse_text.2
  cases hcollect : collect [] d.settings with
  | none => rfl
  | some as =>
    obtain ⟨hnodup, news, rfl, hnews⟩ := collect_some hcollect List.nodup_nil
    rw [List.append_nil, List.map_reverse, List.nodup_reverse, fields_of_takes hnews, ← fields_eq]
      at hnodup
    exact absurd hnodup h

end Document

/-- A file whose known members are all accepted and for different fields gives, field by field, what
each of them gives in a file of its own, and the defaults elsewhere; then the verdict is on these
settings alone. Any other file with the same settings, in any order, among any unknown members, gives
the same. A file with two members for a field is not read. -/
theorem ofJson_members (d : Document) (text : String) (htext : text.toUTF8.toList = d.text) :
    (d.Readable → ∃ s : Settings, ofJson text = (s.validate.1.map fun () => s, s.validate.2) ∧
      (∀ m ∈ d.members, ∀ f t, m.field? = some f → parse (Document.alone m).text = .ok t →
        s.get f = t.get f) ∧
      ∀ f ∉ d.fields, s.get f = defaults.get f) ∧
    (d.Readable → ∀ (d' : Document) (text' : String), text'.toUTF8.toList = d'.text →
      d'.settings.Perm d.settings → ofJson text' = ofJson text) ∧
    (¬ d.fields.Nodup → ∃ e, ofJson text = (.error (.json e), [])) := by
  refine ⟨fun hreadable => ?_, fun hreadable d' text' htext' hperm => ?_, fun hrepeated => ?_⟩
  · obtain ⟨s, hs, hgiven, hdefault⟩ := d.parse_settings (d.fields_eq ▸ hreadable.distinct)
      fun _ => hreadable.takes
    refine ⟨s, by rw [ofJson, htext, hs], fun m hm f t hf ht => ?_, fun f hf => ?_⟩
    · have htaken := hgiven (f, m.value) (Document.mem_settings.mpr ⟨m, hm, hf, rfl⟩)
      exact Option.some.inj (htaken.symm.trans (Document.taken_of_alone hf ht))
    · exact hdefault f (d.fields_eq ▸ hf)
  · obtain ⟨s, hs, hs'⟩ := Document.parse_perm hreadable hperm
    rw [ofJson, ofJson, htext, htext', hs, hs']
  · obtain ⟨e, he⟩ := Document.parse_repeated hrepeated
    exact ⟨e, by rw [ofJson, htext, he]⟩

/-- A member for a field whose key is escaped: `"use\u005fsound":false`. -/
def escapedSound : Member where
  before := []
  key := encode "use".toList ++ (Byte.backslash :: 117 :: ([48, 48, 53, 102] ++ encode "sound".toList))
  gap := []
  lead := []
  value := wordText false
  after := []
  name := encode "use".toList ++ (utf8 0x5f ++ encode "sound".toList)
  before_blank := blank_nil
  gap_blank := blank_nil
  lead_blank := blank_nil
  after_blank := blank_nil
  spelling := by
    have hunit : UnitText [48, 48, 53, 102] 0x5f := .mk (w := 0) (x := 0) (y := 5) (z := 15) rfl rfl rfl rfl
    exact .append (.of_plain (by decide +kernel)) (.unit hunit rfl rfl (.of_plain (by decide +kernel)))
  isValue := .false

/-- An unknown member with a value of some depth: `"x":[null,{"y":"\ud800"}]`. -/
def nested : Member where
  before := []
  key := [120]
  gap := []
  lead := []
  value := Frame.list.open :: ([110, 117, 108, 108] ++ Byte.comma :: (Frame.object.open ::
    ([] ++ Byte.quote :: ([121] ++ Byte.quote :: ([] ++ Byte.colon :: ((Byte.quote ::
      ((Byte.backslash :: 117 :: 100 :: 56 :: 48 :: 48 :: []) ++ [Byte.quote])) ++
        [Frame.object.close])))) ++ [Frame.list.close]))
  after := []
  name := [120]
  before_blank := blank_nil
  gap_blank := blank_nil
  lead_blank := blank_nil
  after_blank := blank_nil
  spelling := .of_plain (by decide +kernel)
  isValue := by
    have hkey : StringText [121] := .plain (by decide) (by decide) rfl .nil
    have hlone : Text .value (Byte.quote :: ((Byte.backslash :: 117 :: 100 :: 56 :: 48 :: 48 :: []) ++
        [Byte.quote])) := .string (.unit (by decide +kernel) .nil)
    exact .bracket (.items (.element .null (.comma (.element
      (.bracket (.items (.member blank_nil hkey blank_nil hlone (.last .object)))) (.last .list)))))

def ofMembers (members : List Member) : Document :=
  ⟨[], [], members, [], blank_nil, blank_nil, blank_nil⟩

theorem ofJson_members_escaped :
    (ofMembers [nested, escapedSound]).Readable ∧
    ofJson "\x7b\"x\":[null,\x7b\"y\":\"\\ud800\"\x7d],\"use\\u005fsound\":false\x7d" =
      (.ok { defaults with useSound := false }, []) ∧
    ofJson "\x7b\"use\\u005fsound\":false,\"x\":[null,\x7b\"y\":\"\\ud800\"\x7d]\x7d" =
      (.ok { defaults with useSound := false }, []) ∧
    ¬ (ofMembers [escapedSound, escapedSound]).fields.Nodup ∧
    ∃ e, ofJson "\x7b\"use\\u005fsound\":false,\"use\\u005fsound\":false\x7d" = (.error (.json e), []) := by
  have hunknown : nested.field? = none := by decide +kernel
  have hknown : escapedSound.field? = some .useSound := by decide +kernel
  have halone : parse (Document.alone escapedSound).text = .ok { defaults with useSound := false } :=
    (Document.alone escapedSound).parse_text.1 [.useSound false] (by decide +kernel)
  have hreadable : (ofMembers [nested, escapedSound]).Readable := by
    refine ⟨by decide +kernel, fun m hm f hf => ?_⟩
    obtain rfl | rfl : m = nested ∨ m = escapedSound := by simpa [ofMembers] using hm
    · cases hunknown.symm.trans hf
    · exact ⟨_, halone⟩
  have hrepeated : ¬ (ofMembers [escapedSound, escapedSound]).fields.Nodup := by decide +kernel
  obtain ⟨hfields, hother, -⟩ := ofJson_members (ofMembers [nested, escapedSound])
    "\x7b\"x\":[null,\x7b\"y\":\"\\ud800\"\x7d],\"use\\u005fsound\":false\x7d"
    (by rw [toUTF8_toList]; decide +kernel)
  have hreordered := hother hreadable (ofMembers [escapedSound, nested])
    "\x7b\"use\\u005fsound\":false,\"x\":[null,\x7b\"y\":\"\\ud800\"\x7d]\x7d"
    (by rw [toUTF8_toList]; decide +kernel) (List.Perm.filterMap _ (List.Perm.swap _ _ _))
  obtain ⟨-, -, herror⟩ := ofJson_members (ofMembers [escapedSound, escapedSound])
    "\x7b\"use\\u005fsound\":false,\"use\\u005fsound\":false\x7d"
    (by rw [toUTF8_toList]; decide +kernel)
  obtain ⟨s, hs, hgiven, hdefault⟩ := hfields hreadable
  have hsound : s = { defaults with useSound := false } := by
    refine ext_get fun f => ?_
    by_cases hf : f = .useSound
    · exact hgiven escapedSound (by simp [ofMembers]) f _ (hf ▸ hknown) halone
    · have hnot : f ∉ (ofMembers [nested, escapedSound]).fields := by
        simpa [Document.fields, ofMembers, hunknown, hknown] using hf
      rw [hdefault f hnot]
      cases f <;> first | rfl | exact absurd rfl hf
  have haccepted : ({ defaults with useSound := false } : Settings).problem? = none := by decide +kernel
  have hverdict : ({ defaults with useSound := false } : Settings).validate = (.ok (), []) := by
    rw [validate, haccepted]
    rfl
  rw [hsound, hverdict] at hs
  exact ⟨hreadable, hs, hreordered.trans hs, hrepeated, herror hrepeated⟩

end FrameLoop.Settings
