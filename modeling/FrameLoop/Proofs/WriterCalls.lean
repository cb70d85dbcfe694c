import FrameLoop.Telemetry.Service

/-! Calls on the service that reports frames, and what each of them does to the writers. Every writer
is known by the number of the call that set it. -/

namespace FrameLoop

variable {ω φ : Type}

inductive ServiceCall (ω : Type)
  | setAttribute (frame : Nat) (name : String) (value : Double)
  | setWriter (w : ω)
  | flush
  | endFrame (frame : Nat) (now : Instant)

/-- What a call returns, if anything, and what it logs. -/
structure ServiceReply where
  answer : Option Bool
  log : List Record

structure Reporter (ω φ : Type) where
  telemetry : Telemetry ω
  stats : FrameStats
  storage : φ

namespace Reporter

def call [Report ω φ] (s : Reporter ω φ) : ServiceCall ω → ServiceReply × Reporter ω φ
  | .setAttribute frame name value =>
    (⟨none, []⟩, { s with stats := StatsSink.set s.stats frame name value })
  | .setWriter w =>
    let (telemetry, storage) := s.telemetry.setReport w s.storage
    (⟨none, []⟩, { s with telemetry, storage })
  | .flush =>
    let (telemetry, storage, log) := s.telemetry.flush s.storage
    (⟨none, log⟩, { s with telemetry, storage })
  | .endFrame frame now =>
    let (written, telemetry, storage, log) := s.telemetry.endFrame s.stats frame now s.storage
    (⟨some written, log⟩, { s with telemetry, storage })

def run [Report ω φ] : List (ServiceCall ω) → Reporter ω φ → List ServiceReply × Reporter ω φ
  | [], s => ([], s)
  | c :: calls, s =>
    let (reply, s) := s.call c
    let (replies, s) := run calls s
    (reply :: replies, s)

end Reporter

inductive Dealing
  | took (piece : String)
  | refused (piece : String)
  | flushed
  | unflushed
  | closed
  deriving DecidableEq

structure Overseen (φ : Type) where
  storage : φ
  dealings : List (Nat × Dealing)

namespace Overseen

def note (o : Overseen φ) (storage : φ) (n : Nat) (d : Dealing) : Overseen φ :=
  ⟨storage, o.dealings ++ [(n, d)]⟩

instance [Report ω φ] : Report (Nat × ω) (Overseen φ) where
  write piece w o :=
    match Report.write piece w.2 o.storage with
    | (.ok (), w', storage) => (.ok (), (w.1, w'), o.note storage w.1 (.took piece))
    | (.error f, w', storage) => (.error f, (w.1, w'), o.note storage w.1 (.refused piece))
  flush w o :=
    match Report.flush w.2 o.storage with
    | (.ok (), w', storage) => (.ok (), (w.1, w'), o.note storage w.1 .flushed)
    | (.error f, w', storage) => (.error f, (w.1, w'), o.note storage w.1 .unflushed)
  close w o := o.note (Report.close w.2 o.storage) w.1 .closed

end Overseen

abbrev Attended (ω φ : Type) := Reporter (Nat × ω) (Overseen φ)

def ServiceCall.number (n : Nat) : ServiceCall ω → ServiceCall (Nat × ω)
  | .setAttribute frame name value => .setAttribute frame name value
  | .setWriter w => .setWriter (n, w)
  | .flush => .flush
  | .endFrame frame now => .endFrame frame now

/-- The record that is looked up to be reported. -/
def ServiceCall.due (stats : FrameStats) : ServiceCall ω → Option (Nat × Attributes)
  | .endFrame frame _ =>
    if frame < reportLag then none
    else (stats.record? (frame - reportLag)).map fun a => (frame - reportLag, a)
  | _ => none

/-- A call, the writer that is set and the record that is due when it is made, and what comes of it. -/
structure Entry (ω : Type) where
  call : ServiceCall ω
  holder : Option Nat
  due : Option (Nat × Attributes)
  reply : ServiceReply
  dealings : List (Nat × Dealing)

def Telemetry.holder (t : Telemetry (Nat × ω)) : Option Nat := t.report.map Prod.fst

def Telemetry.forget (t : Telemetry (Nat × ω)) : Telemetry ω :=
  ⟨t.overlay, t.report.map Prod.snd, t.lastSummary, t.interval⟩

namespace Attended

variable [Report ω φ]

def forget (s : Attended ω φ) : Reporter ω φ := ⟨s.telemetry.forget, s.stats, s.storage.storage⟩

def entry (n : Nat) (c : ServiceCall ω) (s : Attended ω φ) : Entry ω × Attended ω φ :=
  let (reply, after) :=
    Reporter.call { s with storage := { s.storage with dealings := [] } } (c.number n)
  (⟨c, s.telemetry.holder, c.due s.stats, reply, after.storage.dealings⟩, after)

def entries : Nat → List (ServiceCall ω) → Attended ω φ → List (Entry ω) × Attended ω φ
  | _, [], s => ([], s)
  | n, c :: calls, s =>
    let (e, s) := entry n c s
    let (es, s) := entries (n + 1) calls s
    (e :: es, s)

end Attended

/-- What a call does to the writers, and the writer that is set after it. The summaries of `endFrame`
are informative, and it is the only call that logs an error. -/
inductive Served (n : Nat) : Entry ω → Option Nat → Prop
  | stored (frame : Nat) (name : String) (value : Double) (holder : Option Nat) :
    Served n ⟨.setAttribute frame name value, holder, none, ⟨none, []⟩, []⟩ holder
  | first (w : ω) : Served n ⟨.setWriter w, none, none, ⟨none, []⟩, []⟩ (some n)
  | next (w : ω) (m : Nat) :
    Served n ⟨.setWriter w, some m, none, ⟨none, []⟩, [(m, .closed)]⟩ (some n)
  | unset : Served n ⟨.flush, none, none, ⟨none, []⟩, []⟩ none
  | flushed (m : Nat) : Served n ⟨.flush, some m, none, ⟨none, []⟩, [(m, .flushed)]⟩ (some m)
  | unflushed (m : Nat) (f : FileFault) :
    Served n ⟨.flush, some m, none,
      ⟨none, [⟨.warn, s!"Failed to flush frame statistics: {f.message}"⟩]⟩, [(m, .unflushed)]⟩ (some m)
  | idle (frame : Nat) (now : Instant) {holder : Option Nat} {due : Option (Nat × Attributes)}
    {log : List Record} : holder = none ∨ due = none → (∀ r ∈ log, r.level = .info) →
      Served n ⟨.endFrame frame now, holder, due, ⟨some false, log⟩, []⟩ holder
  | line (frame : Nat) (now : Instant) (m k : Nat) (a : Attributes) {log : List Record} :
    (∀ r ∈ log, r.level = .info) →
      Served n ⟨.endFrame frame now, some m, some (k, a), ⟨some true, log⟩,
        (Line.pieces k a).map fun piece => (m, .took piece)⟩ (some m)
  | cut (frame : Nat) (now : Instant) (m k : Nat) (a : Attributes) (f : FileFault)
    {taken rest : List String} {piece : String} {log : List Record} :
    Line.pieces k a = taken ++ piece :: rest → (∀ r ∈ log, r.level = .info) →
      Served n ⟨.endFrame frame now, some m, some (k, a),
        ⟨some false,
          ⟨.error, s!"Failed to write frame statistics, reporting disabled: {f.message}"⟩ :: log⟩,
        taken.map (fun piece => (m, .took piece)) ++ [(m, .refused piece), (m, .closed)]⟩ none

section Overseeing

variable [Report ω φ]

/-- The pieces come to the writer in order, until it refuses one. -/
theorem writePieces_overseen (n : Nat) (pieces : List String) (w : ω) (o : Overseen φ) :
    let y := Telemetry.writePieces pieces w o.storage
    ∃ dealt, Telemetry.writePieces pieces (n, w) o = (y.1, (n, y.2.1), ⟨y.2.2, o.dealings ++ dealt⟩) ∧
      ((y.1 = .ok () ∧ dealt = pieces.map fun piece => (n, .took piece)) ∨
        ∃ f taken piece rest, y.1 = .error f ∧ pieces = taken ++ piece :: rest ∧
          dealt = taken.map (fun piece => (n, .took piece)) ++ [(n, .refused piece)]) := by
  induction pieces generalizing w o with
  | nil => exact ⟨[], by simp [Telemetry.writePieces], .inl ⟨rfl, rfl⟩⟩
  | cons piece pieces ih =>
    have hover : Report.write piece (n, w) o = match Report.write piece w o.storage with
      | (.ok (), w', storage) => (.ok (), (n, w'), o.note storage n (.took piece))
      | (.error f, w', storage) => (.error f, (n, w'), o.note storage n (.refused piece)) := rfl
    unfold Telemetry.writePieces
    rw [hover]
    cases hwrite : Report.write piece w o.storage with
    | mk answer after =>
      obtain ⟨w', storage⟩ := after
      cases answer with
      | error f => exact ⟨_, rfl, .inr ⟨f, [], piece, pieces, rfl, rfl, rfl⟩⟩
      | ok _ =>
        obtain ⟨dealt, hdealt, hcases⟩ := ih w' (o.note storage n (.took piece))
        refine ⟨(n, .took piece) :: dealt, ?_, ?_⟩
        · dsimp only
          rw [hdealt]
          simp [Overseen.note]
        · rcases hcases with ⟨hok, rfl⟩ | ⟨f, taken, refused, rest, hf, rfl, rfl⟩
          · exact .inl ⟨hok, rfl⟩
          · exact .inr ⟨f, piece :: taken, refused, rest, hf, rfl, rfl⟩

/-- What comes of the report of a frame, for the service, its writer and the log. -/
inductive Reported (stats : FrameStats) (k : Nat) :
    Option Nat → Bool → Option Nat → List (Nat × Dealing) → List Record → Prop
  | none {holder : Option Nat} : holder = none ∨ stats.record? k = none →
    Reported stats k holder false holder [] []
  | line {m : Nat} {a : Attributes} : stats.record? k = some a →
    Reported stats k (some m) true (some m) ((Line.pieces k a).map fun piece => (m, .took piece)) []
  | cut {m : Nat} {a : Attributes} {taken rest : List String} {piece : String} (f : FileFault) :
    stats.record? k = some a → Line.pieces k a = taken ++ piece :: rest →
      Reported stats k (some m) false none
        (taken.map (fun piece => (m, .took piece)) ++ [(m, .refused piece), (m, .closed)])
        [⟨.error, s!"Failed to write frame statistics, reporting disabled: {f.message}"⟩]

theorem reportFrame_overseen (t : Telemetry (Nat × ω)) (stats : FrameStats) (k : Nat)
    (o : Overseen φ) :
    let y := t.forget.reportFrame stats k o.storage
    ∃ t' dealt, t.reportFrame stats k o = (y.1, t', ⟨y.2.2.1, o.dealings ++ dealt⟩, y.2.2.2) ∧
      t'.forget = y.2.1 ∧ Reported stats k t.holder y.1 t'.holder dealt y.2.2.2 := by
  obtain ⟨overlay, report, lastSummary, interval⟩ := t
  unfold Telemetry.reportFrame Telemetry.writeFrame
  cases report with
  | none => exact ⟨_, [], by simp [Telemetry.forget], rfl, .none (.inl rfl)⟩
  | some w =>
    obtain ⟨m, w⟩ := w
    dsimp only [Telemetry.forget, Option.map_some]
    cases hrecord : stats.record? k with
    | none => exact ⟨_, [], by simp, rfl, .none (.inr hrecord)⟩
    | some a =>
      obtain ⟨dealt, hdealt, ⟨hok, rfl⟩ | ⟨f, taken, piece, rest, hf, hsplit, rfl⟩⟩ :=
        writePieces_overseen m (Line.pieces k a) w o
      · dsimp only
        rw [hdealt, hok]
        exact ⟨_, _, rfl, rfl, .line hrecord⟩
      · dsimp only
        rw [hdealt, hf]
        exact ⟨⟨overlay, none, lastSummary, interval⟩, _,
          by simp [Report.close, Overseen.note, Except.map], rfl, .cut f hrecord hsplit⟩

theorem summarize_forget (t : Telemetry (Nat × ω)) (stats : FrameStats) (k : Nat) (now : Instant) :
    (t.summarize stats k now).1.forget = (t.forget.summarize stats k now).1 ∧
      (t.summarize stats k now).1.holder = t.holder ∧
      (t.summarize stats k now).2 = (t.forget.summarize stats k now).2 ∧
      ∀ r ∈ (t.summarize stats k now).2, r.level = .info := by
  unfold Telemetry.summarize
  by_cases h : t.interval ≤ now.since t.lastSummary
  · have h' : t.forget.interval ≤ now.since t.forget.lastSummary := h
    rw [if_pos h, if_pos h']
    refine ⟨rfl, rfl, rfl, fun r hr => ?_⟩
    have hr' : ∃ s, Telemetry.summary stats k = some s ∧ (⟨.info, s⟩ : Record) = r := by simpa using hr
    obtain ⟨s, -, rfl⟩ := hr'
    rfl
  · have h' : ¬ t.forget.interval ≤ now.since t.forget.lastSummary := h
    rw [if_neg h, if_neg h']
    exact ⟨rfl, rfl, rfl, nofun⟩

/-- At the end of a frame its report is followed by a summary, which does not concern the writer. -/
theorem endFrame_overseen (t : Telemetry (Nat × ω)) (stats : FrameStats) (frame : Nat) (now : Instant)
    (o : Overseen φ) (hlate : ¬ frame < reportLag) :
    let y := t.forget.endFrame stats frame now o.storage
    ∃ t' dealt log infos, t.endFrame stats frame now o =
        (y.1, t', ⟨y.2.2.1, o.dealings ++ dealt⟩, y.2.2.2) ∧ t'.forget = y.2.1 ∧
      y.2.2.2 = log ++ infos ∧ (∀ r ∈ infos, r.level = .info) ∧
      Reported stats (frame - reportLag) t.holder y.1 t'.holder dealt log := by
  obtain ⟨t', dealt, hreport, hforget, hreported⟩ :=
    reportFrame_overseen t stats (frame - reportLag) o
  obtain ⟨hafter, hholder, hmore, hinfos⟩ := summarize_forget t' stats (frame - reportLag) now
  unfold Telemetry.endFrame
  rw [if_neg hlate, if_neg hlate, hreport]
  generalize t.forget.reportFrame stats (frame - reportLag) o.storage = y at *
  obtain ⟨written, service, storage, log⟩ := y
  obtain rfl : t'.forget = service := hforget
  dsimp only at hreported ⊢
  rw [← hmore]
  exact ⟨_, dealt, log, _, rfl, hafter, rfl, hinfos, hholder ▸ hreported⟩

theorem Reported.served {stats : FrameStats} {frame : Nat} {now : Instant} {written : Bool}
    {holder after : Option Nat} {dealt : List (Nat × Dealing)} {log infos : List Record} (n : Nat)
    (hlate : ¬ frame < reportLag) (h : Reported stats (frame - reportLag) holder written after dealt log)
    (hinfos : ∀ r ∈ infos, r.level = .info) :
    Served n (⟨.endFrame frame now, holder, (ServiceCall.endFrame frame now : ServiceCall ω).due stats,
      ⟨some written, log ++ infos⟩, dealt⟩ : Entry ω) after := by
  rw [ServiceCall.due, if_neg hlate]
  cases h with
  | none hnone =>
    refine .idle frame now ?_ hinfos
    exact hnone.imp_right fun hrecord => by rw [hrecord]; rfl
  | line hrecord =>
    rw [hrecord]
    exact .line frame now _ _ _ hinfos
  | cut f hrecord hsplit =>
    rw [hrecord]
    exact .cut frame now _ _ _ f hsplit hinfos

/-- Every call serves its writers by the rules, and the numbers change nothing for the caller. -/
theorem entry_served (n : Nat) (c : ServiceCall ω) (s : Attended ω φ) :
    Served n (s.entry n c).1 (s.entry n c).2.telemetry.holder ∧
      (s.entry n c).1.reply = (s.forget.call c).1 ∧
      (s.entry n c).2.forget = (s.forget.call c).2 := by
  obtain ⟨t, stats, ⟨storage, dealings⟩⟩ := s
  cases c with
  | setAttribute frame name value => exact ⟨.stored .., rfl, rfl⟩
  | setWriter w =>
    obtain ⟨overlay, report, lastSummary, interval⟩ := t
    cases report with
    | none => exact ⟨.first w, rfl, rfl⟩
    | some old => exact ⟨.next w old.1, rfl, rfl⟩
  | flush =>
    obtain ⟨overlay, report, lastSummary, interval⟩ := t
    cases report with
    | none => exact ⟨.unset, rfl, rfl⟩
    | some w =>
      obtain ⟨m, w⟩ := w
      have hover : Report.flush (m, w) (⟨storage, []⟩ : Overseen φ) =
        match Report.flush w storage with
        | (.ok (), w', storage) => (.ok (), (m, w'), ⟨storage, [(m, .flushed)]⟩)
        | (.error f, w', storage) => (.error f, (m, w'), ⟨storage, [(m, .unflushed)]⟩) := rfl
      unfold Attended.entry Attended.forget Reporter.call ServiceCall.number Telemetry.flush
      dsimp only [Telemetry.forget, Option.map_some]
      rw [hover]
      cases hflush : Report.flush w storage with
      | mk answer after =>
        cases answer with
        | error f => exact ⟨.unflushed m f, rfl, rfl⟩
        | ok _ => exact ⟨.flushed m, rfl, rfl⟩
  | endFrame frame now =>
    unfold Attended.entry Attended.forget Reporter.call ServiceCall.number
    dsimp only
    by_cases hearly : frame < reportLag
    · unfold Telemetry.endFrame
      rw [if_pos hearly, if_pos hearly]
      exact ⟨.idle frame now (.inr (by rw [ServiceCall.due, if_pos hearly])) nofun, rfl, rfl⟩
    · obtain ⟨t', dealt, log, infos, hcall, hforget, hlog, hinfos, hreported⟩ :=
        endFrame_overseen t stats frame now (⟨storage, []⟩ : Overseen φ) hearly
      rw [hcall]
      refine ⟨?_, rfl, by rw [hforget]⟩
      dsimp only
      rw [hlog]
      exact hreported.served n hearly hinfos

end Overseeing

end FrameLoop
