import FrameLoop.Proofs.Stores
import FrameLoop.Proofs.WriterCalls

/-! What becomes of a writer over any sequence of calls. While it is set it gets the lines that are due,
piece by piece; with the first piece that it refuses it is let go of. -/

namespace FrameLoop

variable {ω φ : Type}

/-- A run of numbered calls, and the writer that is set before it. -/
inductive Succession : Nat → Option Nat → List (Entry ω) → Prop
  | nil (n : Nat) (holder : Option Nat) : Succession n holder []
  | cons {n : Nat} {e : Entry ω} {after : Option Nat} {es : List (Entry ω)} :
    Served n e after → Succession (n + 1) after es → Succession n e.holder (e :: es)

def storesOf (calls : List (ServiceCall ω)) : List (Nat × String × Double) :=
  calls.filterMap fun
    | .setAttribute frame name value => some (frame, name, value)
    | _ => none

section Runs

variable [Report ω φ] (calls : List (ServiceCall ω)) (n : Nat)

theorem entries_succession (s : Attended ω φ) : Succession n s.telemetry.holder (s.entries n calls).1 := by
  induction calls generalizing n s with
  | nil => exact .nil _ _
  | cons c calls ih => exact .cons (entry_served n c s).1 (ih (n + 1) (s.entry n c).2)

theorem entries_calls (s : Attended ω φ) : (s.entries n calls).1.map Entry.call = calls := by
  induction calls generalizing n s with
  | nil => rfl
  | cons c calls ih => exact congrArg (c :: ·) (ih (n + 1) (s.entry n c).2)

/-- Whoever makes the calls gets the same answers and log as without an overseer. -/
theorem entries_forget (s : Attended ω φ) :
    (s.entries n calls).1.map Entry.reply = (Reporter.run calls s.forget).1 ∧
      (s.entries n calls).2.forget = (Reporter.run calls s.forget).2 := by
  induction calls generalizing n s with
  | nil => exact ⟨rfl, rfl⟩
  | cons c calls ih =>
    obtain ⟨-, hreply, hafter⟩ := entry_served n c s
    obtain ⟨hreplies, hend⟩ := ih (n + 1) (s.entry n c).2
    rw [hafter] at hreplies hend
    exact ⟨List.cons_eq_cons.mpr ⟨hreply, hreplies⟩, hend⟩

theorem run_stats (s : Reporter ω φ) :
    (s.run calls).2.stats = storeAll s.stats (storesOf calls) := by
  induction calls generalizing s with
  | nil => rfl
  | cons c calls ih =>
    refine (ih (s.call c).2).trans ?_
    cases c <;> rfl

end Runs

section Accounts

def dealingsWith (m : Nat) (es : List (Entry ω)) : List Dealing :=
  es.flatMap fun e => (e.dealings.filter fun d => d.1 = m).map Prod.snd

def Dealing.taken? : Dealing → Option String
  | took piece => some piece
  | _ => none

def received (m : Nat) (es : List (Entry ω)) : List String :=
  (dealingsWith m es).filterMap Dealing.taken?

/-- The records that were looked up while a writer was set. -/
def lookedUp (m : Nat) (es : List (Entry ω)) : List (Nat × Attributes) :=
  es.filterMap fun e => if e.holder = some m then e.due else none

/-- The errors that were logged while a writer was set. -/
def complaints (m : Nat) (es : List (Entry ω)) : List Record :=
  es.flatMap fun e => if e.holder = some m then e.reply.log.filter fun r => r.level = .error else []

def linePieces (records : List (Nat × Attributes)) : List String :=
  records.flatMap fun r => Line.pieces r.1 r.2

/-- What can become of a writer. Either it took every piece of the lines that were due. Or it took
whole lines up to one of which it refused a piece; then it was closed, and an error was logged. -/
inductive Tenure (m : Nat) (es : List (Entry ω)) : Prop
  | kept : (∀ piece, .refused piece ∉ dealingsWith m es) →
    received m es = linePieces (lookedUp m es) → complaints m es = [] → Tenure m es
  | cut {ds : List Dealing} {whole : List (Nat × Attributes)} {k : Nat} {a : Attributes}
    {taken rest : List String} {piece : String} (f : FileFault) :
    dealingsWith m es = ds ++ [.refused piece, .closed] → (∀ piece, .refused piece ∉ ds) →
    .closed ∉ ds → ds.filterMap Dealing.taken? = linePieces whole ++ taken →
    lookedUp m es = whole ++ [(k, a)] → Line.pieces k a = taken ++ piece :: rest →
    complaints m es =
      [⟨.error, s!"Failed to write frame statistics, reporting disabled: {f.message}"⟩] → Tenure m es

variable {m n : Nat} {e : Entry ω} {es : List (Entry ω)} {holder after : Option Nat}

theorem Served.holder_of_mem (h : Served n e after) {d : Nat × Dealing} (hd : d ∈ e.dealings) :
    e.holder = some d.1 := by
  cases h with
  | stored | first | unset | idle => cases hd
  | next | flushed | unflushed =>
    obtain rfl := List.mem_singleton.mp hd
    rfl
  | line =>
    obtain ⟨piece, -, rfl⟩ := List.mem_map.mp hd
    rfl
  | @cut _ _ m _ _ _ taken rest piece =>
    rcases List.mem_append.mp hd with hd | hd
    · obtain ⟨piece, -, rfl⟩ := List.mem_map.mp hd
      rfl
    · have hd' : d = (m, .refused piece) ∨ d = (m, .closed) := by simpa using hd
      rcases hd' with rfl | rfl <;> rfl

theorem Served.after_cases (h : Served n e after) :
    after = e.holder ∨ after = none ∨ after = some n := by
  cases h <;> simp

theorem untouched (h : Served n e after) (hm : e.holder ≠ some m) (es : List (Entry ω)) :
    dealingsWith m (e :: es) = dealingsWith m es ∧ lookedUp m (e :: es) = lookedUp m es ∧
      complaints m (e :: es) = complaints m es := by
  have hown : e.dealings.filter (fun d => d.1 = m) = [] := by
    rw [List.filter_eq_nil_iff]
    intro d hd
    have hholder := h.holder_of_mem hd
    simp only [decide_eq_true_eq]
    rintro rfl
    exact hm hholder
  simp [dealingsWith, lookedUp, complaints, hown, hm]

theorem Succession.gone (h : Succession n holder es) (hholder : holder ≠ some m) (hm : m < n) :
    dealingsWith m es = [] ∧ lookedUp m es = [] ∧ complaints m es = [] := by
  induction h with
  | nil => exact ⟨rfl, rfl, rfl⟩
  | @cons n e after es hserved _ ih =>
    obtain ⟨hdealings, hlooked, hcomplaints⟩ := untouched hserved hholder es
    rw [hdealings, hlooked, hcomplaints]
    refine ih ?_ (by omega)
    rcases hserved.after_cases with heq | heq | heq
    · exact heq ▸ hholder
    · simp [heq]
    · simp only [heq, ne_eq, Option.some.injEq]
      omega

theorem filter_own (m : Nat) (ds : List Dealing) :
    ((ds.map fun d => (m, d)).filter fun d => d.1 = m).map Prod.snd = ds := by
  simp [List.filter_map, Function.comp_def]

theorem filterMap_took (pieces : List String) :
    (pieces.map Dealing.took).filterMap Dealing.taken? = pieces := by
  rw [List.filterMap_map]
  exact List.filterMap_some

theorem filter_infos {log : List Record} (h : ∀ r ∈ log, r.level = .info) :
    log.filter (fun r => r.level = .error) = [] := by
  rw [List.filter_eq_nil_iff]
  intro r hr
  simp [h r hr]

section Own

variable (ds : List Dealing) (hholder : e.holder = some m)
  (hds : e.dealings = ds.map fun d => (m, d))

include hholder hds

theorem account_cons (es : List (Entry ω)) : dealingsWith m (e :: es) = ds ++ dealingsWith m es ∧
    lookedUp m (e :: es) = e.due.toList ++ lookedUp m es ∧
      complaints m (e :: es) =
        e.reply.log.filter (fun r => r.level = .error) ++ complaints m es := by
  refine ⟨?_, ?_, ?_⟩
  · rw [dealingsWith, List.flatMap_cons, hds, filter_own]
    rfl
  · rw [lookedUp, List.filterMap_cons, if_pos hholder]
    cases e.due <;> rfl
  · rw [complaints, List.flatMap_cons, if_pos hholder]
    rfl

/-- Whole lines that a writer takes, or none, go before whatever else becomes of it. -/
theorem Tenure.cons (h : Tenure m es)
    (htaken : ds.filterMap Dealing.taken? = linePieces e.due.toList)
    (hnone : ∀ piece, .refused piece ∉ ds) (hopen : .closed ∉ ds)
    (hlog : e.reply.log.filter (fun r => r.level = .error) = []) : Tenure m (e :: es) := by
  obtain ⟨hdealings, hlooked, hcomplaints⟩ := account_cons ds hholder hds es
  rw [hlog, List.nil_append] at hcomplaints
  cases h with
  | kept hkept hreceived hquiet =>
    refine .kept (fun piece => ?_) ?_ (hcomplaints.trans hquiet)
    · rw [hdealings, List.mem_append, not_or]
      exact ⟨hnone piece, hkept piece⟩
    · unfold received at hreceived ⊢
      rw [hdealings, List.filterMap_append, htaken, hreceived, hlooked]
      simp [linePieces]
  | @cut ds' whole k a taken rest piece f hdealings' hnone' hopen' htaken' hlooked' hsplit hquiet =>
    have hall : dealingsWith m (e :: es) = (ds ++ ds') ++ [.refused piece, .closed] := by
      rw [hdealings, hdealings', List.append_assoc]
    have hrecords : lookedUp m (e :: es) = (e.due.toList ++ whole) ++ [(k, a)] := by
      rw [hlooked, hlooked', List.append_assoc]
    refine .cut f hall (fun piece => ?_) ?_ ?_ hrecords hsplit (hcomplaints.trans hquiet)
    · rw [List.mem_append, not_or]
      exact ⟨hnone piece, hnone' piece⟩
    · rw [List.mem_append, not_or]
      exact ⟨hopen, hopen'⟩
    · rw [List.filterMap_append, htaken, htaken']
      simp [linePieces]

theorem account_last (hgone : dealingsWith m es = [] ∧ lookedUp m es = [] ∧ complaints m es = []) :
    dealingsWith m (e :: es) = ds ∧ lookedUp m (e :: es) = e.due.toList ∧
      complaints m (e :: es) = e.reply.log.filter fun r => r.level = .error := by
  obtain ⟨hdealings, hlooked, hcomplaints⟩ := hgone
  obtain ⟨hdealings', hlooked', hcomplaints'⟩ := account_cons ds hholder hds es
  rw [hdealings, List.append_nil] at hdealings'
  rw [hlooked, List.append_nil] at hlooked'
  rw [hcomplaints, List.append_nil] at hcomplaints'
  exact ⟨hdealings', hlooked', hcomplaints'⟩

end Own

/-- A call lets the writer that is set go on, or another one takes its place, or it is cut off. -/
theorem Served.own (h : Served n e after) (hm : e.holder = some m) :
    (after = some m ∧ ∃ ds : List Dealing, e.dealings = ds.map (fun d => (m, d)) ∧
      ds.filterMap Dealing.taken? = linePieces e.due.toList ∧ (∀ piece, .refused piece ∉ ds) ∧
      .closed ∉ ds ∧ e.reply.log.filter (fun r => r.level = .error) = []) ∨
    (after = some n ∧ e.dealings = [Dealing.closed].map (fun d => (m, d)) ∧ e.due = none ∧
      e.reply.log.filter (fun r => r.level = .error) = []) ∨
    (after = none ∧ ∃ k a taken piece rest, ∃ f : FileFault, e.due = some (k, a) ∧
      Line.pieces k a = taken ++ piece :: rest ∧
      e.dealings = (taken.map .took ++ [.refused piece, .closed]).map (fun d => (m, d)) ∧
      e.reply.log.filter (fun r => r.level = .error) =
        [⟨.error, s!"Failed to write frame statistics, reporting disabled: {f.message}"⟩]) := by
  cases h with
  | stored => exact .inl ⟨hm, [], rfl, rfl, by simp, by simp, rfl⟩
  | first | unset => cases hm
  | next w m' =>
    obtain rfl : m' = m := Option.some.inj hm
    exact .inr (.inl ⟨rfl, rfl, rfl, rfl⟩)
  | flushed m' =>
    obtain rfl : m' = m := Option.some.inj hm
    exact .inl ⟨rfl, [.flushed], rfl, rfl, by simp, by simp, rfl⟩
  | unflushed m' f =>
    obtain rfl : m' = m := Option.some.inj hm
    exact .inl ⟨rfl, [.unflushed], rfl, rfl, by simp, by simp, rfl⟩
  | @idle frame now holder due log hidle hlog =>
    have hdue : due = none := hidle.resolve_left (by rw [show after = some m from hm]; nofun)
    exact .inl ⟨hm, [], rfl, by rw [hdue]; rfl, by simp, by simp, filter_infos hlog⟩
  | line frame now m' k a hlog =>
    obtain rfl : m' = m := Option.some.inj hm
    refine .inl ⟨rfl, (Line.pieces k a).map .took, ?_, ?_, by simp, by simp, filter_infos hlog⟩
    · rw [List.map_map]
      rfl
    · rw [filterMap_took]
      simp [linePieces]
  | @cut frame now m' k a f taken rest piece log hsplit hlog =>
    obtain rfl : m' = m := Option.some.inj hm
    refine .inr (.inr ⟨rfl, k, a, taken, piece, rest, f, rfl, hsplit, by simp, ?_⟩)
    rw [List.filter_cons_of_pos (by simp), filter_infos hlog]

/-- The lines come to the writer that is set one after the other, until it refuses a piece or another
one is set. -/
theorem Succession.tenure (h : Succession n holder es) (hholder : holder = some m) (hm : m < n) :
    Tenure m es := by
  induction h with
  | nil => exact .kept (by simp [dealingsWith]) rfl rfl
  | @cons n e after es hserved hlater ih =>
    rcases hserved.own hholder with ⟨rfl, ds, hds, htaken, hnone, hopen, hlog⟩ |
      ⟨rfl, hds, hdue, hlog⟩ | ⟨rfl, k, a, taken, piece, rest, f, hdue, hsplit, hds, hlog⟩
    · exact (ih rfl (by omega)).cons ds hholder hds htaken hnone hopen hlog
    · have hne : some n ≠ some m := by simpa using (by omega : n ≠ m)
      obtain ⟨hdealings, hlooked, hcomplaints⟩ :=
        account_last _ hholder hds (hlater.gone hne (by omega))
      rw [hdue] at hlooked
      refine .kept (by simp [hdealings]) ?_ (hcomplaints.trans hlog)
      rw [received, hdealings, hlooked]
      rfl
    · obtain ⟨hdealings, hlooked, hcomplaints⟩ :=
        account_last _ hholder hds (hlater.gone nofun (by omega))
      rw [hdue] at hlooked
      have htaken : (taken.map Dealing.took).filterMap Dealing.taken? = linePieces [] ++ taken :=
        filterMap_took taken
      exact .cut f hdealings (by simp) (by simp) htaken hlooked hsplit (hcomplaints.trans hlog)

theorem Tenure.congr {es' : List (Entry ω)} (h : Tenure m es)
    (hsame : dealingsWith m es' = dealingsWith m es ∧ lookedUp m es' = lookedUp m es ∧
      complaints m es' = complaints m es) : Tenure m es' := by
  obtain ⟨hdealings, hlooked, hcomplaints⟩ := hsame
  have hreceived : received m es' = received m es := by rw [received, received, hdealings]
  cases h with
  | kept hnone htaken hquiet =>
    exact .kept (hdealings ▸ hnone) (by rw [hreceived, hlooked, htaken]) (hcomplaints.trans hquiet)
  | cut f hall hnone hopen htaken hrecords hsplit hquiet =>
    exact .cut f (hdealings.trans hall) hnone hopen htaken (hlooked.trans hrecords) hsplit
      (hcomplaints.trans hquiet)

/-- A writer that has not been set yet may be set by a later call. -/
theorem Succession.tenure_later (h : Succession n holder es) (hholder : holder ≠ some m)
    (hm : n ≤ m) : Tenure m es := by
  induction h with
  | nil => exact .kept (by simp [dealingsWith]) rfl rfl
  | @cons n e after es hserved hlater ih =>
    refine Tenure.congr ?_ (untouched hserved hholder _)
    -- a call sets at most the writer that has its own number
    by_cases hafter : after = some m
    · have hnew : after = some n := by
        rcases hserved.after_cases with heq | heq | heq
        · exact absurd (heq.symm.trans hafter) hholder
        · simp [heq] at hafter
        · exact heq
      have hnumber : n = m := Option.some.inj (hnew.symm.trans hafter)
      exact hlater.tenure hafter (by omega)
    · by_cases hnow : n = m
      · obtain ⟨hdealings, hlooked, hcomplaints⟩ := hlater.gone hafter (by omega)
        exact .kept (by simp [hdealings]) (by rw [received, hdealings, hlooked]; rfl) hcomplaints
      · exact ih hafter (by omega)

end Accounts

end FrameLoop
