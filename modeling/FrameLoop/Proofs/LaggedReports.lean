import FrameLoop.Headless
import FrameLoop.Proofs.Building
import FrameLoop.Proofs.Reports
import FrameLoop.Proofs.Storage.Keeping

/-! The reports of a whole run: a line for every frame, in their order, two frames late, when its
record is final. -/

namespace FrameLoop

/-- The lines of the first frames, in the pieces in which they are written. -/
def lines (records : List Attributes) : List String :=
  (numbered records).flatMap fun a => Line.pieces a.1 a.2

theorem lines_append (records : List Attributes) (a : Attributes) :
    lines (records ++ [a]) = lines records ++ Line.pieces records.length a := by
  rw [lines, numbered_append, List.flatMap_append, List.flatMap_singleton, lines]

/-- The lines that are reported when the frames with these records have ended. -/
def reported (records : List Attributes) : List String :=
  lines (records.take (records.length - reportLag))

/-- At the end of a frame the line that is due is that of the frame two before it. -/
theorem reported_append {records : List Attributes} {a : Attributes} {s : FrameStats}
    (h : History (records ++ [a]) s) :
    reported (records ++ [a]) = reported records ++ reportPieces s records.length := by
  rw [reported, reported, reportPieces, List.length_append, List.length_singleton]
  by_cases hlag : records.length < reportLag
  · have hnone : records.length - reportLag = 0 := Nat.sub_eq_zero_of_le (Nat.le_of_lt hlag)
    have hnext : records.length + 1 - reportLag = 0 := Nat.sub_eq_zero_of_le hlag
    rw [if_pos hlag, hnone, hnext]
    rfl
  · obtain ⟨k, hk⟩ := Nat.exists_eq_add_of_le (Nat.not_lt.mp hlag)
    have hlt : k < records.length := by
      rw [hk]
      exact Nat.lt_add_of_pos_left (by decide)
    have hprev : records.length - reportLag = k := by rw [hk, Nat.add_sub_cancel_left]
    have hnext : records.length + 1 - reportLag = k + 1 := by
      rw [hk, Nat.add_assoc, Nat.add_sub_cancel_left]
    have hrecord : s.record? k = some records[k] := by
      have hk' : (records ++ [a]).length ≤ k + s.history := by
        have hlag := h.lag
        rw [List.length_append, List.length_singleton, hk, Nat.add_comm reportLag, Nat.add_assoc]
        exact Nat.add_le_add_left hlag k
      rw [h.record? hk', List.getElem?_append_left hlt, List.getElem?_eq_getElem hlt]
    rw [if_neg hlag, hprev, hnext, hrecord, List.take_append_of_le_length hlt,
      ← List.take_append_getElem hlt, lines_append, List.length_take,
      Nat.min_eq_left (Nat.le_of_lt hlt)]
    rfl

namespace Engine

variable {σ φ ω : Type} {F : Facades σ FrameStats} [Report ω φ]

/-- An iteration of a run: the engine before it and after it, and how it ended. -/
structure Lap (σ φ ω : Type) where
  before : Engine σ φ ω
  after : Engine σ φ ω
  outcome : Option FrameOutcome

/-- The iterations among some moves. -/
def laps (F : Facades σ FrameStats) : List (Move σ) → Engine σ φ ω → List (Lap σ φ ω)
  | [], _ => []
  | .step :: rest, e => ⟨e, (step F e).2, (step F e).1⟩ :: laps F rest (step F e).2
  | move :: rest, e => laps F rest (make F move e).2

/-- An engine that reports: `records` are those of all frames so far, and `before` is what the report
had received before the first. -/
structure Reporting (good : ω → φ → Prop) (received : ω → φ → String) (before : String)
    (records : List Attributes) (e : Engine σ φ ω) : Prop where
  counter : e.counter.next = records.length
  collects : StatsSink.collects e.scene.sink engineStats = true
  history : History records e.scene.sink
  rested : ∃ strategy, e.strategy = some strategy ∧ strategy.Rested
  report : ∃ w, e.telemetry.report = some w ∧ good w e.storage ∧
    received w e.storage = before ++ String.join (reported records)

/-- What is told of the iteration with a number in a run with these records. -/
structure Recorded (received : ω → φ → String) (before : String) (records : List Attributes)
    (k : Nat) (lap : Lap σ φ ω) : Prop where
  number : lap.before.counter.next = k
  /-- All that the iteration writes it writes for its own frame. -/
  wrote : ∃ writes, Wrote k writes lap.before.scene lap.after.scene ∧
    (∀ key ∈ Phase.input.keys, key ∈ writes.map Prod.fst) ∧
    (lap.outcome = some .completed → ∀ key ∈ Phase.lua.keys, key ∈ writes.map Prod.fst)
  /-- The record of the frame holds what was written, however it is put. -/
  record : ∃ a, records[k]? = some a ∧
    ∀ writes, Wrote k writes lap.before.scene lap.after.scene → a.Records writes
  /-- The records that are not reported yet are still there. -/
  kept : ∀ j, j ≤ k → k ≤ j + reportLag → lap.after.scene.sink.record? j = records[j]?
  /-- From the end of its own iteration on, no record changes. -/
  final : ∀ j a, lap.after.scene.sink.record? j = some a → records[j]? = some a
  received : ∃ w, lap.after.telemetry.report = some w ∧
    received w lap.after.storage = before ++ String.join (reported (records.take (k + 1)))

variable {good : ω → φ → Prop} {received : ω → φ → String} {before : String}
  {records : List Attributes} {e : Engine σ φ ω}

omit [Report ω φ] in
theorem Reporting.kept {e' : Engine σ φ ω} (h : Reporting good received before records e)
    (hk : Kept e e') : Reporting good received before records e' where
  counter := by rw [hk.counter, h.counter]
  collects := by rw [hk.sink, h.collects]
  history := by rw [hk.sink]; exact h.history
  rested := by rw [hk.strategy]; exact h.rested
  report := by rw [hk.telemetry, hk.storage]; exact h.report

/-- An iteration adds one record, and one line as soon as there is one to report. -/
theorem Reporting.step (h : Reporting good received before records e)
    (hr : Accepting good received) (hF : Punctual F) {outcome : FrameOutcome}
    (ho : (step F e).1 = some outcome) :
    ∃ a, Reporting good received before (records ++ [a]) (step F e).2 ∧
      ∀ more, Recorded received before (records ++ a :: more) records.length
        ⟨e, (step F e).2, some outcome⟩ := by
  obtain ⟨strategy, he, hs⟩ := h.rested
  obtain ⟨writes, hstep⟩ := step_iterated hF he hs h.collects ho
  have hw : Wrote records.length writes e.scene (Engine.step F e).2.scene := h.counter ▸ hstep.wrote
  have hne : writes ≠ [] := by
    rintro rfl
    exact absurd (hstep.input _ List.mem_cons_self) List.not_mem_nil
  let a := Attributes.written writes []
  have hhistory : History (records ++ [a]) (Engine.step F e).2.scene.sink := by
    rw [hw]
    exact h.history.store hne
  have hlength : (records ++ [a]).length = records.length + 1 := by
    rw [List.length_append, List.length_singleton]
  have hreporting : Reporting good received before (records ++ [a]) (Engine.step F e).2 := by
    refine ⟨?_, ?_, hhistory, hstep.rested, ?_⟩
    · rw [hstep.counter, h.counter, hlength]
    · rw [hw.collects FrameStats.steady, h.collects]
    · obtain ⟨w, ht, hg, hreceived⟩ := h.report
      obtain ⟨now, htelemetry, hstorage⟩ := hstep.reported
      rw [h.counter] at htelemetry hstorage
      obtain ⟨w', ht', hg', hreceived'⟩ :=
        hr.endFrame ht hg (Engine.step F e).2.scene.sink records.length now
      refine ⟨w', htelemetry ▸ ht', hstorage ▸ hg', ?_⟩
      rw [hstorage, hreceived', hreceived, reported_append hhistory, String.join_append,
        String.append_assoc]
  refine ⟨a, hreporting, fun more => ?_⟩
  rw [List.append_cons records a more]
  refine ⟨h.counter, ⟨writes, hw, hstep.input, fun hcompleted => hstep.lua ?_⟩,
    ⟨a, ?_, fun other hother => ?_⟩, fun j hj hk => ?_, fun j b hb => ?_, ?_⟩
  · exact Option.some.inj hcompleted
  · rw [List.getElem?_append_left (by omega)]
    exact List.getElem?_concat_length
  · have hsame := h.history.unique hne (hw.symm.trans hother)
    change Attributes.Records (Attributes.written writes []) other
    rw [hsame]
    exact Attributes.records_written other
  · have hlag := hhistory.lag
    have hroom : (records ++ [a]).length ≤ j + (Engine.step F e).2.scene.sink.history := by omega
    rw [hhistory.record? hroom]
    exact (List.getElem?_append_left (by omega)).symm
  · have hrecord := hhistory.recorded hb
    obtain ⟨hlt, -⟩ := List.getElem?_eq_some_iff.mp hrecord
    rw [List.getElem?_append_left hlt, hrecord]
  · obtain ⟨w, ht, -, hreceived⟩ := hreporting.report
    refine ⟨w, ht, ?_⟩
    rw [hreceived, ← hlength, List.take_left]

/-- Whatever is done with an engine that reports: every iteration adds a record, and they are
reported in their order, two frames late. -/
theorem Reporting.play (hr : Accepting good received) (hF : Punctual F) (moves : List (Move σ))
    (h : Reporting good received before records e)
    (hends : ∀ lap ∈ laps F moves e, lap.outcome ≠ none) :
    ∃ more, more.length = (laps F moves e).length ∧
      Reporting good received before (records ++ more) (play F moves e).2 ∧
      ∀ i lap, (laps F moves e)[i]? = some lap →
        Recorded received before (records ++ more) (records.length + i) lap := by
  induction moves generalizing records e with
  | nil => exact ⟨[], rfl, by rwa [List.append_nil], fun i lap hlap => by cases hlap⟩
  | cons move moves ih =>
    by_cases hmove : move = .step
    · subst hmove
      have hfirst : (Engine.step F e).1 ≠ none := hends _ List.mem_cons_self
      obtain ⟨outcome, ho⟩ := Option.ne_none_iff_exists'.mp hfirst
      obtain ⟨a, ha, hlap⟩ := h.step hr hF ho
      obtain ⟨more, hlength, hplay, hlaps⟩ :=
        ih ha fun lap hlap => hends lap (List.mem_cons_of_mem _ hlap)
      rw [List.append_assoc] at hplay
      refine ⟨a :: more, congrArg (· + 1) hlength, hplay, fun i lap hi => ?_⟩
      cases i with
      | zero =>
        obtain rfl := Option.some.inj hi
        rw [ho]
        exact hlap more
      | succ i =>
        have hrest := hlaps i lap hi
        rw [List.append_assoc, List.length_append, List.length_singleton, Nat.add_assoc,
          Nat.add_comm 1] at hrest
        exact hrest
    · have hkept : Kept e (make F move e).2 :=
        (Keeps.routine F).make (fun hstep => absurd hstep hmove) e
      have hlaps : laps F (move :: moves) e = laps F moves (make F move e).2 := by
        cases move with
        | step => exact absurd rfl hmove
        | _ => rfl
      rw [hlaps] at hends ⊢
      exact ih (h.kept hkept) hends

variable [Storage φ ω]

/-- A new engine has written nothing, and no update is under way. -/
structure Fresh (e : Engine σ φ ω) : Prop where
  counter : e.counter = .new
  history : reportLag < e.scene.sink.history
  frames : e.scene.sink.frames = []
  rested : ∃ strategy, e.strategy = some strategy ∧ strategy.Rested

theorem prepare_sink (settings : Settings) (s : Scene σ FrameStats) :
    let p : (UpdateStrategy × Limiter × Telemetry ω) × _ := prepare settings s
    p.2.sink = s.sink ∧ p.1.1.Rested := by
  let opened := (Scene.now s).2.append .main (Overlay.addPhases [] settings.physicsWorkers).2
  obtain ⟨hr, ha⟩ := UpdateStrategy.new_alike (Nat.min_le_right _ 1) opened
  exact ⟨ha.sink, hr⟩

omit [Report ω φ] [Storage φ ω] in
theorem Fresh.prepared : Prepared fun _ (e : Engine σ φ ω) => Fresh e where
  told _ _ _ _ _ _ h := ⟨h.counter, h.history, h.frames, h.rested⟩
  reporting _ _ _ _ _ h := ⟨h.counter, h.history, h.frames, h.rested⟩

theorem Fresh.build {settings : Settings} {world : σ} {storage : φ} {clock : Clock}
    {schedule : Schedule} {statsFile : Option String} {patience : Nat}
    {preparations : List Preparation}
    (h : build F settings world storage clock schedule statsFile patience preparations = .ok e) :
    Fresh e := by
  refine prepared.build (fun _ => ?_) h
  obtain ⟨hsink, hr⟩ := prepare_sink (ω := ω) settings (opening settings world clock schedule)
  have hempty : (opening settings world clock schedule).sink.frames = [] ∧
      (opening settings world clock schedule).sink.history = FrameStats.defaultHistory := by
    unfold opening
    cases settings.collectStats <;> exact ⟨rfl, rfl⟩
  have hhistory := (congrArg FrameStats.history hsink).trans hempty.2
  exact ⟨rfl, Nat.lt_of_lt_of_eq (by decide) hhistory.symm,
    (congrArg FrameStats.frames hsink).trans hempty.1, _, rfl, hr⟩

/-- With the statistics collected and a report that takes every piece, a run of any iterations is
reported completely, in order and in its final form. -/
theorem lagged_reports_are_final (hr : Accepting good received) (hF : Punctual F)
    {settings : Settings} {world : σ} {storage : φ} {clock : Clock} {schedule : Schedule}
    {statsFile : Option String} {patience : Nat} {preparations : List Preparation}
    (hbuild : build F settings world storage clock schedule statsFile patience preparations = .ok e)
    (hc : StatsSink.collects e.scene.sink engineStats = true) {w : ω}
    (ht : e.telemetry.report = some w) (hg : good w e.storage) (moves : List (Move σ))
    (hends : ∀ lap ∈ laps F moves e, lap.outcome ≠ none) :
    ∃ records : List Attributes, records.length = (laps F moves e).length ∧
      (∃ w', (play F moves e).2.telemetry.report = some w' ∧ good w' (play F moves e).2.storage ∧
        received w' (play F moves e).2.storage =
          received w e.storage ++ String.join (lines (records.take (records.length - reportLag)))) ∧
      ∀ k lap, (laps F moves e)[k]? = some lap →
        Recorded received (received w e.storage) records k lap := by
  have hfresh : Fresh e := .build hbuild
  have hstart : Reporting good received (received w e.storage) [] e := by
    refine ⟨?_, hc, ⟨hfresh.history, hfresh.frames.trans List.drop_nil.symm⟩, hfresh.rested,
      w, ht, hg, ?_⟩
    · rw [hfresh.counter]
      rfl
    · exact String.append_empty.symm
  obtain ⟨records, hlength, hplay, hlaps⟩ := hstart.play hr hF moves hends
  refine ⟨records, hlength, hplay.report, fun k lap hk => ?_⟩
  have hlap := hlaps k lap hk
  rw [List.length_nil, Nat.zero_add] at hlap
  exact hlap

end Engine

/-- The report is written at a path, and nothing forbids it. -/
def PlaceReport.Open (path : String) (r : PlaceReport) (places : Places) : Prop :=
  r.path = path ∧ ∃ place, places.at? path = .ok place ∧ place.refusal = none

theorem PlaceReport.accepting (path : String) :
    Accepting (PlaceReport.Open path) fun (_ : PlaceReport) places => places.textAt path where
  write piece r places := by
    rintro ⟨rfl, place, hplace, hr⟩
    obtain ⟨hwrite, hat⟩ := Places.at?_write (places.textAt r.path ++ piece) hplace hr
    refine ⟨r, (places.write r.path (places.textAt r.path ++ piece)).2, ?_, ⟨rfl, _, hat, rfl⟩, ?_⟩
    · rw [← hwrite]
      rfl
    · rw [Places.textAt, hat]
      rfl

theorem Headless.punctual : Punctual (Headless.facades : Facades World FrameStats) where
  stepPhysics dt guiActive stamp :=
    (Pens.timing stamp).headless (fun _ => .of_sink fun _ => rfl) dt guiActive
  reportPart part frame := by
    cases part with
    | world => exact fun s => ⟨[("GameHour", s.world.gameHours)], rfl⟩
    | resources => exact fun s => ⟨[("Texture", .zero false)], rfl⟩
    | _ => exact (Pens.chains frame).pure _

namespace Engine

/-- An engine with a script worker that reports to a file. -/
def reportingWithWorker : Except Refusal (Engine Headless.World Places PlaceReport) :=
  build Headless.facades { Settings.defaults with scriptWorkerThreads := 1 }
    (.new (fun _ => false) 0 9) [("stats", ⟨.ok "", true, none, false⟩)] ⟨id, 0⟩ .lazy
    (some "stats") 9 [.told none none (.newSession true) none]

def threeSteps : List (Move Headless.World) := [.start, .step, .step, .pace .completed, .step]

theorem lagged_reports_are_final_three_steps :
    ∃ e, reportingWithWorker = .ok e ∧ ∃ records : List Attributes, records.length = 3 ∧
      (play Headless.facades threeSteps e).2.storage.textAt "stats" =
        String.join (lines (records.take 1)) := by
  obtain ⟨e, he⟩ : ∃ e, reportingWithWorker = .ok e := exists_of_isOk (by decide +kernel)
  have hbegin : (reportingWithWorker.toOption.map fun e =>
      (e.telemetry.report.map PlaceReport.path, e.storage.textAt "stats",
        StatsSink.collects e.scene.sink engineStats,
        (e.storage.at? "stats").toOption.map fun place => place.refusal)) =
      some (some "stats", "", true, some none) := by decide +kernel
  have houtcomes : (reportingWithWorker.toOption.map fun e =>
      (laps Headless.facades threeSteps e).map Lap.outcome) =
        some [some .completed, some .completed, some .completed] := by decide +kernel
  rw [he] at hbegin houtcomes
  have hlaps : (laps Headless.facades threeSteps e).map Lap.outcome = _ := Option.some.inj houtcomes
  obtain ⟨hpath, htext, hcollects, hplace⟩ : e.telemetry.report.map PlaceReport.path = some "stats" ∧
      e.storage.textAt "stats" = "" ∧ StatsSink.collects e.scene.sink engineStats = true ∧
      (e.storage.at? "stats").toOption.map (fun place => place.refusal) = some none := by
    simpa only [Prod.mk.injEq] using Option.some.inj hbegin
  obtain ⟨w, hreport, hw⟩ := Option.map_eq_some_iff.mp hpath
  have hopen : PlaceReport.Open "stats" w e.storage := by
    refine ⟨hw, ?_⟩
    cases hat : e.storage.at? "stats" with
    | error f => rw [hat] at hplace; cases hplace
    | ok place => rw [hat] at hplace; exact ⟨place, rfl, Option.some.inj hplace⟩
  have hends : ∀ lap ∈ laps Headless.facades threeSteps e, lap.outcome ≠ none := by
    intro lap hlap hnone
    have hmem := List.mem_map_of_mem (f := Lap.outcome) hlap
    rw [hlaps, hnone] at hmem
    revert hmem
    decide
  obtain ⟨records, hlength, ⟨_, _, _, hreceived⟩, -⟩ := lagged_reports_are_final
    (PlaceReport.accepting "stats") Headless.punctual he hcollects hreport hopen threeSteps hends
  have hthree : records.length = 3 := by
    have hcount := congrArg List.length hlaps
    rw [List.length_map] at hcount
    exact hlength.trans hcount
  refine ⟨e, he, records, hthree, ?_⟩
  rw [hreceived, htext, hthree, String.empty_append]
  rfl

end Engine

end FrameLoop
