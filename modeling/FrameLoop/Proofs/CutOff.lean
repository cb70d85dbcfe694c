import FrameLoop.Proofs.Tenures
import FrameLoop.Storage.Basic

/-! A writer that fails is cut off: it is let go of at the piece that it refuses, with one error in the
log, and the service reports no more until it is given another one. -/

namespace FrameLoop

variable {ω φ : Type}

/-- How a service serves its writers in a run. -/
structure CutOff (es : List (Entry ω)) : Prop where
  /-- A writer that is set has the number of its call, and it stays until it refuses a piece or another
  one is set. -/
  installed : ∀ before e kept more, es = before ++ e :: (kept ++ more) → ∀ w, e.call = .setWriter w →
    (∀ e' ∈ kept, (∀ w, e'.call ≠ .setWriter w) ∧ ∀ m piece, (m, .refused piece) ∉ e'.dealings) →
      (∀ e' ∈ kept, e'.holder = some before.length) ∧
        ∀ e' ∈ more.head?, e'.holder = some before.length
  tenure : ∀ m, Tenure m es
  /-- After a refused piece nothing is reported until another writer is set. -/
  silence : ∀ before e quiet more, es = before ++ e :: (quiet ++ more) →
    (∃ m piece, (m, .refused piece) ∈ e.dealings) → (∀ e' ∈ quiet, ∀ w, e'.call ≠ .setWriter w) →
      ∀ e' ∈ quiet, e'.holder = none ∧ e'.dealings = [] ∧ e'.reply.answer ≠ some true
  /-- The end of a frame is answered by whether the writer took a whole line. -/
  answer : ∀ e ∈ es, ∀ frame now, e.call = .endFrame frame now →
    ∃ written, e.reply.answer = some written ∧ (written = true ↔ ∃ m k a, e.holder = some m ∧
      e.due = some (k, a) ∧ e.dealings = (Line.pieces k a).map fun piece => (m, .took piece))
  errors : ∀ e ∈ es, ∀ r ∈ e.reply.log, r.level = .error →
    ∃ m piece, (m, .refused piece) ∈ e.dealings
  /-- A flush that fails is logged, and the writer stays. -/
  flushes : ∀ before e more, es = before ++ e :: more → ∀ m, (m, .unflushed) ∈ e.dealings →
    e.call = .flush ∧ e.dealings = [(m, .unflushed)] ∧
      (∃ f : FileFault, e.reply =
        ⟨none, [⟨.warn, s!"Failed to flush frame statistics: {f.message}"⟩]⟩) ∧
      ∀ e' ∈ more.head?, e'.holder = some m

section Laws

variable {m n : Nat} {e : Entry ω} {es before more : List (Entry ω)} {holder after : Option Nat}

theorem Succession.head (h : Succession n holder (e :: es)) :
    e.holder = holder ∧ ∃ after, Served n e after ∧ Succession (n + 1) after es := by
  cases h with
  | cons hserved hlater => exact ⟨rfl, _, hserved, hlater⟩

theorem Succession.head? (h : Succession n holder es) : ∀ e ∈ es.head?, e.holder = holder := by
  cases h with
  | nil => exact nofun
  | cons =>
    intro e he
    rw [Option.some.inj he]

theorem Succession.drop (h : Succession n holder (before ++ es)) :
    ∃ holder', Succession (n + before.length) holder' es := by
  induction before generalizing n holder with
  | nil => exact ⟨holder, h⟩
  | cons e before ih =>
    obtain ⟨-, after, -, hlater⟩ := h.head
    obtain ⟨holder', hrest⟩ := ih hlater
    rw [Nat.succ_add_eq_add_succ] at hrest
    exact ⟨holder', hrest⟩

theorem Succession.mem (h : Succession n holder es) (he : e ∈ es) : ∃ k after, Served k e after := by
  obtain ⟨before, more, rfl⟩ := List.append_of_mem he
  obtain ⟨_, hrest⟩ := h.drop
  obtain ⟨-, after, hserved, -⟩ := hrest.head
  exact ⟨_, after, hserved⟩

theorem Served.installed (h : Served n e after) {w : ω} (hcall : e.call = .setWriter w) :
    after = some n := by
  cases h with
  | first | next => rfl
  | _ => cases hcall

theorem Served.stays (h : Served n e after) (hholder : e.holder = some m)
    (hset : ∀ w, e.call ≠ .setWriter w) (htaken : ∀ m piece, (m, .refused piece) ∉ e.dealings) :
    after = some m := by
  cases h with
  | first w | next w => exact absurd rfl (hset w)
  | unset => cases hholder
  | @cut _ _ m' _ _ _ _ _ piece => exact absurd (by simp) (htaken m' piece)
  | stored | flushed | unflushed | idle | line => exact hholder

theorem Succession.stays {kept : List (Entry ω)} (h : Succession n (some m) (kept ++ more))
    (hkept : ∀ e ∈ kept,
      (∀ w, e.call ≠ .setWriter w) ∧ ∀ m piece, (m, .refused piece) ∉ e.dealings) :
    (∀ e ∈ kept, e.holder = some m) ∧ ∀ e ∈ more.head?, e.holder = some m := by
  induction kept generalizing n with
  | nil => exact ⟨nofun, h.head?⟩
  | cons e kept ih =>
    obtain ⟨hholder, after, hserved, hlater⟩ := h.head
    obtain ⟨hset, htaken⟩ := hkept e List.mem_cons_self
    obtain rfl := hserved.stays hholder hset htaken
    obtain ⟨hall, hnext⟩ := ih hlater fun e he => hkept e (List.mem_cons_of_mem _ he)
    exact ⟨List.forall_mem_cons.mpr ⟨hholder, hall⟩, hnext⟩

theorem Served.of_refused (h : Served n e after) {piece : String}
    (hd : (m, .refused piece) ∈ e.dealings) : after = none := by
  cases h with
  | cut => rfl
  | _ => simp at hd

/-- While no writer is set, and none is being set, nothing is reported. -/
theorem Served.idle_of_none (h : Served n e after) (hholder : e.holder = none)
    (hset : ∀ w, e.call ≠ .setWriter w) :
    after = none ∧ e.dealings = [] ∧ e.reply.answer ≠ some true := by
  cases h with
  | stored => exact ⟨hholder, rfl, nofun⟩
  | first w => exact absurd rfl (hset w)
  | unset => exact ⟨rfl, rfl, nofun⟩
  | idle => exact ⟨hholder, rfl, nofun⟩
  | _ => cases hholder

theorem Succession.silence {quiet : List (Entry ω)} (h : Succession n none (quiet ++ more))
    (hset : ∀ e ∈ quiet, ∀ w, e.call ≠ .setWriter w) :
    ∀ e ∈ quiet, e.holder = none ∧ e.dealings = [] ∧ e.reply.answer ≠ some true := by
  induction quiet generalizing n with
  | nil => exact nofun
  | cons e quiet ih =>
    obtain ⟨hholder, after, hserved, hlater⟩ := h.head
    obtain ⟨rfl, hdealings, hanswer⟩ := hserved.idle_of_none hholder (hset e List.mem_cons_self)
    intro e' he'
    rcases List.mem_cons.mp he' with rfl | he'
    · exact ⟨hholder, hdealings, hanswer⟩
    · exact ih hlater (fun e he => hset e (List.mem_cons_of_mem _ he)) e' he'

theorem Served.answer (h : Served n e after) {frame : Nat} {now : Instant}
    (hcall : e.call = .endFrame frame now) : ∃ written, e.reply.answer = some written ∧
      (written = true ↔ ∃ m k a, e.holder = some m ∧ e.due = some (k, a) ∧
        e.dealings = (Line.pieces k a).map fun piece => (m, .took piece)) := by
  cases h with
  | idle frame now hidle =>
    refine ⟨false, rfl, nofun, ?_⟩
    rintro ⟨m, k, a, hholder, hdue, -⟩
    rcases hidle with hnone | hnone
    · cases hnone.symm.trans hholder
    · cases hnone.symm.trans hdue
  | line frame now m k a => exact ⟨true, rfl, fun _ => ⟨m, k, a, rfl, rfl, rfl⟩, fun _ => rfl⟩
  | @cut frame now m k a f taken rest piece log hsplit =>
    refine ⟨false, rfl, nofun, ?_⟩
    rintro ⟨m', k', a', -, -, hdealings⟩
    have hmem : (m, Dealing.refused piece) ∈
        (Line.pieces k' a').map fun piece => (m', Dealing.took piece) := by
      rw [← hdealings]
      simp
    simp at hmem
  | _ => cases hcall

theorem Served.errors (h : Served n e after) {r : Record} (hr : r ∈ e.reply.log)
    (hlevel : r.level = .error) : ∃ m piece, (m, .refused piece) ∈ e.dealings := by
  cases h with
  | unflushed m f =>
    obtain rfl := List.mem_singleton.mp hr
    cases hlevel
  | idle frame now hidle hinfos => cases (hinfos r hr).symm.trans hlevel
  | line frame now m k a hinfos => cases (hinfos r hr).symm.trans hlevel
  | @cut frame now m k a f taken rest piece => exact ⟨m, piece, by simp⟩
  | _ => cases hr

theorem Served.flushes (h : Served n e after) (hd : (m, .unflushed) ∈ e.dealings) :
    e.call = .flush ∧ e.dealings = [(m, .unflushed)] ∧
      (∃ f : FileFault, e.reply =
        ⟨none, [⟨.warn, s!"Failed to flush frame statistics: {f.message}"⟩]⟩) ∧ after = some m := by
  cases h with
  | unflushed m' f =>
    obtain rfl : m = m' := by simpa using hd
    exact ⟨rfl, rfl, ⟨f, rfl⟩, rfl⟩
  | _ => simp at hd

/-- The rules of the single calls make those of a run that begins without a writer. -/
theorem Succession.cutOff (h : Succession 0 none es) : CutOff es where
  installed := by
    rintro before e kept more rfl w hcall hkept
    obtain ⟨_, hrest⟩ := h.drop
    obtain ⟨-, after, hserved, hlater⟩ := hrest.head
    rw [Nat.zero_add] at hserved
    obtain rfl := hserved.installed hcall
    exact hlater.stays hkept
  tenure m := h.tenure_later nofun (Nat.zero_le m)
  silence := by
    rintro before e quiet more rfl ⟨m, piece, hd⟩ hset
    obtain ⟨_, hrest⟩ := h.drop
    obtain ⟨-, after, hserved, hlater⟩ := hrest.head
    obtain rfl := hserved.of_refused hd
    exact hlater.silence hset
  answer := by
    intro e he frame now hcall
    obtain ⟨k, after, hserved⟩ := h.mem he
    exact hserved.answer hcall
  errors := by
    intro e he r hr hlevel
    obtain ⟨k, after, hserved⟩ := h.mem he
    exact hserved.errors hr hlevel
  flushes := by
    rintro before e more rfl m hd
    obtain ⟨_, hrest⟩ := h.drop
    obtain ⟨-, after, hserved, hlater⟩ := hrest.head
    obtain ⟨hcall, hdealings, hreply, rfl⟩ := hserved.flushes hd
    exact ⟨hcall, hdealings, hreply, hlater.head?⟩

end Laws

/-- What a writer has accepted is a beginning of the lines that were due to it, and stays one with any
part of a piece that it refused. -/
theorem Tenure.received_begins {m : Nat} {es : List (Entry ω)} (h : Tenure m es) :
    ∃ refused rest, String.join (linePieces (lookedUp m es)) =
      String.join (received m es) ++ refused ++ rest ∧
        ∀ piece, .refused piece ∈ dealingsWith m es → piece = refused := by
  cases h with
  | kept hnone htaken =>
    refine ⟨"", "", by simp [htaken], fun piece hp => absurd hp (hnone piece)⟩
  | @cut ds whole k a taken rest piece f hall hnone hopen htaken hlooked hsplit =>
    have hreceived : received m es = linePieces whole ++ taken := by
      rw [received, hall, List.filterMap_append, htaken]
      simp [Dealing.taken?]
    refine ⟨piece, String.join rest, ?_, fun other hother => ?_⟩
    · rw [hlooked, hreceived]
      simp [linePieces, hsplit, String.append_assoc]
    · rw [hall] at hother
      simpa [hnone other] using hother

/-- A writer that refuses its first piece is given up before the frame after it. -/
example :
    let places : Places := [("stats", ⟨.ok "", true, some .isDirectory, false⟩)]
    let stats := ((FrameStats.new 5).set 0 "a" (.ofNat 1)).set 1 "a" (.ofNat 2)
    let start : Attended PlaceReport Places := ⟨.new 1 0, stats, ⟨places, []⟩⟩
    (start.entries 0 [.setWriter ⟨"stats"⟩, .endFrame 2 0, .endFrame 3 0]).1.map Entry.dealings =
      [[], [(0, .refused "\x7b"), (0, .closed)], []] := by decide +kernel

end FrameLoop
