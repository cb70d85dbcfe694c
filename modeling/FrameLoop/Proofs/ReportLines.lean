import FrameLoop.Proofs.Json.Controls
import FrameLoop.Proofs.Json.Utf8
import FrameLoop.Proofs.LaggedReports
import FrameLoop.Proofs.LineReading
import Mathlib.Data.String.Basic

/-! The text of many reports is a file of lines. It splits at its newlines into one line for each record
that was reported, and each line is read back as its record. -/

namespace FrameLoop

open Json

namespace Line

theorem controlFree_quoted (name : String) : ControlFree (quoted name) :=
  controlFree_cons.mpr ⟨rfl, controlFree_append.mpr
    ⟨(spelling_escaped name.toList).controlFree, controlFree_cons.mpr ⟨rfl, controlFree_nil⟩⟩⟩

theorem controlFree_memberBytes (a : String × Double) : ControlFree (memberBytes a) := by
  refine controlFree_append.mpr ⟨controlFree_quoted a.1, controlFree_cons.mpr ⟨rfl, ?_⟩⟩
  cases ha : a.2.isFinite with
  | true => exact (numberText_finite ha).controlFree
  | false =>
    rw [numberText_not_finite ha]
    have hword : (encode "null".toList).all (fun b => !Byte.isControl b) := by decide
    simpa [ControlFree] using List.all_eq_true.mp hword

theorem controlFree_furtherBytes (as : List (String × Double)) : ControlFree (furtherBytes as) := by
  induction as with
  | nil => exact controlFree_nil
  | cons a as ih => exact controlFree_cons.mpr ⟨rfl, controlFree_append.mpr ⟨controlFree_memberBytes a, ih⟩⟩

theorem controlFree_memberPieces (attributes : Attributes) :
    ControlFree (bytes (memberPieces attributes)) := by
  cases attributes with
  | nil => exact controlFree_nil
  | cons a as =>
    rw [bytes_memberPieces]
    exact controlFree_append.mpr ⟨controlFree_memberBytes a, controlFree_furtherBytes as⟩

theorem controlFree_objectBytes (frame : ℕ) (attributes : Attributes) :
    ControlFree (objectBytes frame attributes) := by
  have hplain {b : UInt8} (h : Byte.isControl b = false) {s : Bytes} (hs : ControlFree s) :
    ControlFree (b :: s) := controlFree_cons.mpr ⟨h, hs⟩
  refine hplain rfl (controlFree_append.mpr ⟨controlFree_quoted _, hplain rfl (controlFree_append.mpr
    ⟨controlFree_digits (allDigits_encode (digits_toDigits frame)), hplain rfl (controlFree_append.mpr
      ⟨controlFree_quoted _, hplain rfl (hplain rfl (controlFree_append.mpr
        ⟨controlFree_memberPieces attributes, hplain rfl (hplain rfl controlFree_nil)⟩))⟩)⟩)⟩)

theorem encode_pieces (frame : ℕ) (attributes : Attributes) :
    bytes (pieces frame attributes) = objectBytes frame attributes ++ [newline] := by
  have hend : encode "\n".toList = [newline] := by decide
  rw [pieces, bytes_append, bytes_objectPieces, bytes_cons, hend, bytes_nil, List.append_nil]

/-- A file splits at its newlines into the lines that were put in it, and nothing after the last. -/
theorem splitOn_newline {lines : List Bytes} (h : ∀ line ∈ lines, ControlFree line) :
    (lines.flatMap (· ++ [newline])).splitOn newline = lines ++ [[]] := by
  induction lines with
  | nil => exact List.splitOn_nil newline
  | cons line lines ih =>
    obtain ⟨hline, hlines⟩ := List.forall_mem_cons.mp h
    have hnone : newline ∉ line := fun hmem => absurd (hline newline hmem) (by decide)
    rw [List.flatMap_cons, List.append_assoc, List.singleton_append,
      List.splitOn_append_cons_self_of_not_mem hnone, ih hlines]
    rfl

end Line

/-- Statistics that were filled by calls. -/
inductive FrameStats.Filled : FrameStats → Prop
  | new (history : ℕ) : Filled (new history)
  | set {s : FrameStats} (frame : ℕ) (name : String) (value : Double) :
    Filled s → Filled (s.set frame name value)
  | setCollecting {s : FrameStats} (category : String) (enabled : Bool) :
    Filled s → Filled (s.setCollecting category enabled)

theorem FrameStats.mem_of_record? {s : FrameStats} {frame : ℕ} {attributes : Attributes}
    (h : s.record? frame = some attributes) : (frame, attributes) ∈ s.frames := by
  obtain ⟨before, after, hsplit, -⟩ := List.lookup_eq_some_iff.mp h
  rw [hsplit]
  exact List.mem_append_right _ List.mem_cons_self

theorem FrameStats.Filled.ascending {s : FrameStats} (h : s.Filled) :
    ∀ a ∈ s.frames, Ascending a.2 := by
  induction h with
  | new => exact nofun
  | @set s frame name value _ ih =>
    have hold : Ascending ((s.record? frame).getD []) := by
      cases hrecord : s.record? frame with
      | none => exact .nil
      | some attributes => exact ih _ (mem_of_record? hrecord)
    intro a ha
    rcases mem_insertSorted (List.mem_of_mem_drop ha) with rfl | ha
    · exact hold.insertSorted name value
    · exact ih a ha
  | setCollecting category enabled _ ih =>
    rw [FrameStats.setCollecting]
    split
    · exact ih
    · exact ih

theorem Ascending.names {attributes : Attributes} (h : Ascending attributes) :
    (attributes.map fun a => a.1.toUTF8.toList).Pairwise (· < ·) := by
  refine List.pairwise_map.mpr (h.imp fun hlt => ?_)
  rw [toUTF8_toList, toUTF8_toList]
  exact encode_lt (String.lt_iff_toList_lt.mp (compareOfLessAndEq_eq_lt.mp hlt))

section Reports

variable {φ ω : Type} [Report ω φ]

/-- Reports frames, each out of the statistics at its time, to one writer. -/
def reportAll : List (FrameStats × ℕ) → ω → φ → List (Except FileFault Bool) × ω × φ
  | [], w, storage => ([], w, storage)
  | (stats, frame) :: rest, w, storage =>
    let (r, w, storage) := Telemetry.writeFrame stats frame w storage
    let (rs, w, storage) := reportAll rest w storage
    (r :: rs, w, storage)

def recordOf (r : FrameStats × ℕ) : Option (ℕ × Attributes) := (r.1.record? r.2).map (r.2, ·)

def lineOf (record : ℕ × Attributes) : Bytes := Line.objectBytes record.1 record.2

variable {good : ω → φ → Prop} {received : ω → φ → String} (h : Accepting good received)

include h

theorem Accepting.reportOne (stats : FrameStats) (frame : ℕ) {w : ω} {storage : φ}
    (hg : good w storage) : ∃ w' storage' text,
      Telemetry.writeFrame stats frame w storage =
        (.ok (stats.record? frame).isSome, w', storage') ∧ good w' storage' ∧
      received w' storage' = received w storage ++ text ∧
      encode text.toList =
        (recordOf (stats, frame)).toList.flatMap fun record => lineOf record ++ [newline] := by
  rw [Telemetry.writeFrame, recordOf]
  cases stats.record? frame with
  | none => exact ⟨w, storage, "", rfl, hg, by simp, rfl⟩
  | some attributes =>
    obtain ⟨w', storage', hwrite, hg', hr⟩ := h.writePieces (Line.pieces frame attributes) hg
    refine ⟨w', storage', _, ?_, hg', hr, ?_⟩
    · dsimp only
      rw [hwrite]
      rfl
    · exact (Line.encode_pieces frame attributes).trans (List.append_nil _).symm

theorem Accepting.reportAll (reports : List (FrameStats × ℕ)) {w : ω} {storage : φ}
    (hg : good w storage) : ∃ w' storage' text,
      reportAll reports w storage =
        (reports.map fun r => .ok (r.1.record? r.2).isSome, w', storage') ∧
      received w' storage' = received w storage ++ text ∧
      encode text.toList =
        (reports.filterMap recordOf).flatMap fun record => lineOf record ++ [newline] := by
  induction reports generalizing w storage with
  | nil => exact ⟨w, storage, "", rfl, by simp, rfl⟩
  | cons r reports ih =>
    obtain ⟨w', storage', text, hone, hg', hr, htext⟩ := h.reportOne r.1 r.2 hg
    obtain ⟨w'', storage'', text', hall, hr', htext'⟩ := ih hg'
    refine ⟨w'', storage'', text ++ text', ?_, ?_, ?_⟩
    · rw [FrameLoop.reportAll, hone]
      dsimp only
      rw [hall]
      rfl
    · rw [hr', hr, String.append_assoc]
    · rw [String.toList_append, encode_append, htext, htext', List.filterMap_cons]
      cases recordOf r <;> simp

/-- The reports to a writer that takes everything make a file of lines: split at its newlines it has one
line for each record, in order, without control characters, and every line is read back as its frame
and its names, each once and in the order of their bytes, and as which of them have a finite value. -/
theorem report_lines_read_back {reports : List (FrameStats × ℕ)}
    (hfilled : ∀ r ∈ reports, r.1.Filled) (hframes : ∀ r ∈ reports, r.2 < 2 ^ 64) {w : ω} {storage : φ}
    (hg : good w storage) :
    let after := reportAll reports w storage
    let records := reports.filterMap recordOf
    after.1 = reports.map (fun r => .ok (r.1.record? r.2).isSome) ∧
    ∃ output, received after.2.1 after.2.2 = received w storage ++ output ∧
    ∃ lines, output.toUTF8.toList.splitOn newline = lines ++ [[]] ∧
      lines.length = records.length ∧
      (∀ line ∈ lines, ∀ b ∈ line, 0x20 ≤ b) ∧
      lines.map LineReader.record = records.map (fun record =>
        .ok (record.1, record.2.map fun a => (a.1.toUTF8.toList, a.2.isFinite))) ∧
      ∀ record ∈ records, (record.2.map fun a => a.1.toUTF8.toList).Pairwise (· < ·) := by
  intro after records
  obtain ⟨w', storage', text, hall, hr, htext⟩ := h.reportAll reports hg
  have hafter : after = _ := hall
  have hrecords : ∀ record ∈ records, record.1 < 2 ^ 64 ∧ Ascending record.2 := by
    intro record hrecord
    obtain ⟨r, hmem, hof⟩ := List.mem_filterMap.mp hrecord
    obtain ⟨attributes, hlookup, rfl⟩ := Option.map_eq_some_iff.mp hof
    exact ⟨hframes r hmem, (hfilled r hmem).ascending _ (FrameStats.mem_of_record? hlookup)⟩
  have hfree : ∀ line ∈ records.map lineOf, ControlFree line := by
    intro line hline
    obtain ⟨record, -, rfl⟩ := List.mem_map.mp hline
    exact Line.controlFree_objectBytes record.1 record.2
  rw [hafter]
  refine ⟨rfl, text, hr, records.map lineOf, ?_, List.length_map lineOf, ?_, ?_, ?_⟩
  · rw [toUTF8_toList, htext, ← Line.splitOn_newline hfree, List.flatMap_map]
  · intro line hline b hb
    simpa [Byte.isControl] using hfree line hline b hb
  · rw [List.map_map]
    refine List.map_congr_left fun record hrecord => ?_
    exact LineReader.record_objectBytes (hrecords record hrecord).1 record.2
  · exact fun record hrecord => (hrecords record hrecord).2.names

end Reports

/-- Two frames, with a name that has to be escaped and a value that has no number. -/
def escapedStats : FrameStats :=
  (((FrameStats.new 2).set 7 "a\"\\\n\x01é" .nan).set 7 "b" (.ofNat 3)).set 8 "b" (.ofNat 4)

def escapedReports : List (FrameStats × ℕ) := [(escapedStats, 7), (escapedStats, 9), (escapedStats, 8)]

theorem report_lines_read_back_escaped :
    let places : Places := [("stats", ⟨.ok "", true, none, false⟩)]
    let after := (reportAll escapedReports (⟨"stats"⟩ : PlaceReport) places).2.2
    ∃ lines, (after.textAt "stats").toUTF8.toList.splitOn newline = lines ++ [[]] ∧
      lines.map LineReader.record =
        [.ok (7, [("a\"\\\n\x01é".toUTF8.toList, false), ("b".toUTF8.toList, true)]),
          .ok (8, [("b".toUTF8.toList, true)])] := by
  intro places after
  have hopen : PlaceReport.Open "stats" ⟨"stats"⟩ places := ⟨rfl, _, rfl, rfl⟩
  have hfilled : ∀ r ∈ escapedReports, r.1.Filled := by
    have hstats : escapedStats.Filled := .set _ _ _ (.set _ _ _ (.set _ _ _ (.new _)))
    simp [escapedReports, hstats]
  have hframes : ∀ r ∈ escapedReports, r.2 < 2 ^ 64 := by simp [escapedReports]
  have hrecords : escapedReports.filterMap recordOf =
      [(7, [("a\"\\\n\x01é", .nan), ("b", .ofNat 3)]), (8, [("b", .ofNat 4)])] := by decide +kernel
  have hfinite : ((Binary.nan : Double).isFinite, (Binary.ofNat 3 : Double).isFinite,
    (Binary.ofNat 4 : Double).isFinite) = (false, true, true) := by decide +kernel
  obtain ⟨-, output, houtput, lines, hsplit, -, -, hread, -⟩ := report_lines_read_back
    (PlaceReport.accepting "stats") hfilled hframes hopen
  refine ⟨lines, ?_, ?_⟩
  · rw [← hsplit]
    exact congrArg (fun s : String => s.toUTF8.toList.splitOn newline) (houtput.trans String.empty_append)
  · simp only [Prod.mk.injEq] at hfinite
    rw [hread, hrecords]
    simp [hfinite]

end FrameLoop
