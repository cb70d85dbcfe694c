import FrameLoop.Proofs.Settings.Members
import FrameLoop.Proofs.Storage.Keeping
import FrameLoop.Settings.File
import FrameLoop.Decimal.Literal

/-! Settings that are saved and loaded again. All of them come back as they were but the summary
interval: its digits are read with a rounding for each step, and may be read as a number next to it. -/

namespace FrameLoop.Settings

open Json

theorem toJson_bytes (s : Settings) : ∃ a as, Field.all.map s.get = a :: as ∧
    s.toJson.toUTF8.toList =
      Byte.openBrace :: newline :: (encode a.line.toList ++ furtherLines as) := by
  obtain ⟨a, as, has⟩ : ∃ a as, Field.all.map s.get = a :: as := ⟨_, _, rfl⟩
  refine ⟨a, as, has, ?_⟩
  have htext : s.toJson.toList = ['{', '\n'] ++
      (",\n".toList.intercalate ((a :: as).map fun a => a.line.toList) ++ ['\n', '}']) := by
    rw [← has]
    unfold toJson
    rw [String.toList_append, String.toList_append, String.toList_intercalate, List.append_assoc,
      List.map_map, List.map_map]
    rfl
  have hstart : encode ['{', '\n'] = [Byte.openBrace, newline] := rfl
  have hend : encode ['\n', '}'] = [newline, Byte.closeBrace] := rfl
  rw [toUTF8_toList, htext, encode_append, encode_append, hstart, hend, encode_lines]
  rfl

/-- An assignment to every field leaves nothing of what was there before. -/
theorem assign_all (base t : Settings) :
    (Field.all.map t.get).reverse.foldr (flip assign) base = t := rfl

theorem parse_toJson {s t : Settings} (h : ∀ f, ReadsAs (s.get f) (t.get f)) :
    parse s.toJson.toUTF8.toList = .ok t := by
  obtain ⟨a, as, has, hbytes⟩ := toJson_bytes s
  obtain ⟨b, bs, hbs⟩ : ∃ b bs, Field.all.map t.get = b :: bs := ⟨_, _, rfl⟩
  have hall : List.Forall₂ ReadsAs (Field.all.map s.get) (Field.all.map t.get) := by
    rw [List.forall₂_map_left_iff, List.forall₂_map_right_iff, List.forall₂_same]
    exact fun f _ => h f
  have hfields : ((Field.all.map s.get).map Assignment.field).Nodup := by
    have hid : (Field.all.map s.get).map Assignment.field = Field.all := rfl
    rw [hid]
    decide
  rw [has, hbs] at hall
  rw [has, List.map_cons, List.nodup_cons] at hfields
  obtain ⟨hab, hrest⟩ := List.forall₂_cons.mp hall
  have hlength := length_le_furtherLines as
  -- the first member has no comma before it, so the loop over the members starts at the second
  have hfirst := readMembers_member hab (furtherLines_ends as)
    (newline :: (encode a.line.toList ++ furtherLines as)).length true [] List.not_mem_nil
  have hmembers := readMembers_further hrest
    (newline :: (encode a.line.toList ++ furtherLines as)).length [b]
    (by simp only [List.length_cons, List.length_append]; omega) hfields.2 fun c hc => by
      rw [List.map_singleton, List.mem_singleton, hab.field]
      exact fun heq => hfields.1 (heq ▸ List.mem_map_of_mem hc)
  have hread : readAssignments (Byte.openBrace :: newline :: (encode a.line.toList ++
      furtherLines as)) = .ok ((b :: bs).reverse, []) := by
    rw [List.reverse_cons]
    exact hfirst.trans hmembers
  have hoverride : override (b :: bs).reverse = t := hbs ▸ assign_all defaults t
  rw [hbytes, parse, hread]
  simp only [bind, Except.bind, pure, Except.pure, atEnd, skipBlank, List.dropWhile_nil, hoverride,
    Except.mapError]

variable {s : Settings}

def reloaded (s : Settings) : Settings :=
  { s with statsSummaryInterval := reread s.statsSummaryInterval }

theorem get_reads (h : s.Accepted) (hscript : s.scriptWorkerThreads < 2 ^ 31)
    (hphysics : s.physicsWorkerThreads < 2 ^ 31) (f : Field) :
    ReadsAs (s.get f) (s.reloaded.get f) := by
  cases f with
  | framerateLimit =>
    refine ⟨rfl, fun rest hrest => ?_⟩
    change (readSingle (encode (floatText s.framerateLimit).toList ++ rest)).map _ = _
    rw [readSingle_text h.rate hrest]
    rfl
  | scriptWorkerThreads =>
    refine ⟨rfl, fun rest hrest => ?_⟩
    change (readInteger (encode (toString s.scriptWorkerThreads).toList ++ rest)).map _ = _
    rw [readInteger_text h.script hscript hrest]
    rfl
  | physicsWorkerThreads =>
    refine ⟨rfl, fun rest hrest => ?_⟩
    change (readInteger (encode (toString s.physicsWorkerThreads).toList ++ rest)).map _ = _
    rw [readInteger_text h.physics hphysics hrest]
    rfl
  | collectStats =>
    refine ⟨rfl, fun rest _ => ?_⟩
    change (readBoolean (encode (toString s.collectStats).toList ++ rest)).map _ = _
    rw [readBoolean_text]
    rfl
  | useSound =>
    refine ⟨rfl, fun rest _ => ?_⟩
    change (readBoolean (encode (toString s.useSound).toList ++ rest)).map _ = _
    rw [readBoolean_text]
    rfl
  | statsSummaryInterval =>
    refine ⟨rfl, fun rest hrest => ?_⟩
    obtain ⟨n, e, -, hread⟩ := reread_spec h.interval
    change (readDouble (encode (floatText s.statsSummaryInterval).toList ++ rest)).map _ = _
    rw [hread rest hrest]
    rfl

theorem ofJson_toJson (h : s.problem? = none) (hscript : s.scriptWorkerThreads < 2 ^ 31)
    (hphysics : s.physicsWorkerThreads < 2 ^ 31) : ofJson s.toJson = (.ok s.reloaded, s.remarks) := by
  have haccepted := accepted h
  have hnone : s.reloaded.problem? = none :=
    problem?_interval h (reread_accepted haccepted.interval)
  unfold ofJson
  rw [parse_toJson (get_reads haccepted hscript hphysics)]
  dsimp only
  rw [validate, hnone]
  rfl

variable {φ ω : Type} [Storage φ ω]

theorem load_saved (hkeeps : Keeps φ) (haccepted : s.problem? = none)
    (hscript : s.scriptWorkerThreads < 2 ^ 31) (hphysics : s.physicsWorkerThreads < 2 ^ 31)
    {path : String} {storage later : φ} (hsaved : (s.save path storage).1 = .ok ())
    (hunchanged : Storage.read path later = Storage.read path (s.save path storage).2.2) :
    load path later =
      (.ok s.reloaded, s.remarks ++ [⟨.info, s!"Loaded settings from '{path}'"⟩]) := by
  have htext : Storage.read path later = .ok s.toJson := by
    rw [hunchanged]
    unfold save at hsaved ⊢
    have hkeep := hkeeps path s.toJson storage
    cases hstored : Storage.save path s.toJson storage with
    | mk answer after =>
      rw [hstored] at hsaved hkeep
      cases answer with
      | error f => cases hsaved
      | ok _ => exact hkeep rfl
  unfold load
  rw [htext]
  dsimp only
  rw [ofJson_toJson haccepted hscript hphysics]

/-- Accepted settings that were saved are loaded if their file still reads the same. Every field comes
back as it was but the summary interval. This one comes back as the number that is read for its
shortest digits: near the one that was saved, and the same if it has few digits. -/
theorem load_of_saved (hkeeps : Keeps φ) (haccepted : s.problem? = none)
    (hscript : s.scriptWorkerThreads < 2 ^ 31) (hphysics : s.physicsWorkerThreads < 2 ^ 31)
    {path : String} {storage later : φ} (hsaved : (s.save path storage).1 = .ok ())
    (hunchanged : Storage.read path later = Storage.read path (s.save path storage).2.2) :
    load path later = (.ok { s with statsSummaryInterval := reread s.statsSummaryInterval },
        s.remarks ++ [⟨.info, s!"Loaded settings from '{path}'"⟩]) ∧
      |(reread s.statsSummaryInterval).size - s.statsSummaryInterval.size| ≤
        s.statsSummaryInterval.size / 2 ^ 49 + 2 ^ (-1073 : ℤ) ∧
      (FewDigits (Decimal.shortest .even s.statsSummaryInterval) →
        reread s.statsSummaryInterval = s.statsSummaryInterval) := by
  have hinterval := (accepted haccepted).interval
  exact ⟨load_saved hkeeps haccepted hscript hphysics hsaved hunchanged, reread_close hinterval,
    reread_same hinterval⟩

/-- A place for settings where nothing has been saved. -/
def unsavedPlace : Places := [("settings.json", ⟨.error .notFound, false, none, false⟩)]

/-- Settings with an interval of the given pattern and a rate that no power of two divides. -/
def withInterval (interval : ℕ) : Settings :=
  { defaults with
    framerateLimit := .ofDecimal false ⟨5994, -2⟩
    physicsWorkerThreads := 4
    statsSummaryInterval := .ofBits interval }

def tenth : ℕ := 0x3fb999999999999a

theorem load_of_saved_tenth :
    (withInterval tenth).problem? = none ∧
      ((withInterval tenth).save "settings.json" unsavedPlace).1 = .ok () ∧
      load "settings.json" ((withInterval tenth).save "settings.json" unsavedPlace).2.2 =
        (.ok (withInterval tenth), [⟨.info, "Loaded settings from 'settings.json'"⟩]) := by
  have haccepted : (withInterval tenth).problem? = none := by decide +kernel
  have hsaved : ((withInterval tenth).save "settings.json" unsavedPlace).1 = .ok () := by rfl
  have hshort : Decimal.shortest .even (withInterval tenth).statsSummaryInterval = ⟨1, -1⟩ := by
    decide +kernel
  have hfew : FewDigits (Decimal.shortest .even (withInterval tenth).statsSummaryInterval) := by
    rw [hshort]
    exact ⟨by decide, by decide⟩
  obtain ⟨hload, -, hsame⟩ := load_of_saved Places.keeps haccepted (by decide)
    (by decide) hsaved rfl
  rw [hsame hfew] at hload
  exact ⟨haccepted, hsaved, hload⟩

/-- A pattern of `90.28571428571429` seconds. -/
def sevenths : ℕ := 0x4056924924924925

/-- An accepted interval that is saved and loaded may not be the same. -/
theorem interval_lost_in_file :
    (withInterval sevenths).problem? = none ∧
      ((withInterval sevenths).save "settings.json" unsavedPlace).1 = .ok () ∧
      ∃ t log, load "settings.json" ((withInterval sevenths).save "settings.json" unsavedPlace).2.2 =
          (.ok t, log) ∧
        t.statsSummaryInterval = .ofBits (sevenths - 1) ∧ t ≠ withInterval sevenths := by
  have haccepted : (withInterval sevenths).problem? = none := by decide +kernel
  have hsaved : ((withInterval sevenths).save "settings.json" unsavedPlace).1 = .ok () := by rfl
  have hshort : Decimal.shortest .even (withInterval sevenths).statsSummaryInterval =
      ⟨9028571428571429, -14⟩ := by decide +kernel
  have hread : scaleByTen 5 (.ofNat 9028571428571429) (-14) = some (.ofBits (sevenths - 1)) := by
    decide +kernel
  have hreread : reread (withInterval sevenths).statsSummaryInterval = .ofBits (sevenths - 1) := by
    obtain ⟨n, e, ⟨-, hspells, hreads, -⟩, -⟩ := reread_spec (accepted haccepted).interval
    rw [hshort] at hspells
    rcases hspells.shape with ⟨rfl, rfl⟩ | ⟨-, hwhole, -⟩
    · exact Option.some.inj (hreads.scaled.symm.trans hread)
    · exact absurd hwhole (by decide)
  refine ⟨haccepted, hsaved, _, _, load_saved Places.keeps haccepted (by decide)
    (by decide) hsaved rfl, hreread, fun heq => ?_⟩
  have hsame : (.ofBits (sevenths - 1) : Double) = .ofBits sevenths :=
    hreread.symm.trans (congrArg Settings.statsSummaryInterval heq)
  exact absurd hsame (by decide)

end FrameLoop.Settings
