import FrameLoop.Proofs.SimulationClock

/-! The segments of a frame: runs of items, of which each is entered only if the one before it came
to its end. How far a frame came can be told from what was done in it. -/

namespace FrameLoop

variable {σ κ : Type} {F : Facades σ κ}

section Follows

variable {items : List (Item σ)} {m m' : Moment σ} {deeds : List (Deed σ)} {r : Except Stop Bool}

theorem Follows.exists_halt (h : Follows F items m deeds r m') (hr : r = .ok false) :
    ∃ gate, Item.halt gate ∈ items := by
  induction h with
  | done | failed | stuck => cases hr
  | @halted gate => exact ⟨gate, List.mem_cons_self⟩
  | note _ ih | closed _ _ ih | task _ _ _ ih | undrained _ _ ih | drained _ _ _ ih
  | unhalted _ _ ih | meanwhile _ _ ih =>
    obtain ⟨gate, hgate⟩ := ih hr
    exact ⟨gate, List.mem_cons_of_mem _ hgate⟩

theorem Follows.exists_drain (h : Follows F items m deeds r m') (hr : r = .error .endless) :
    ∃ patience gate, Item.drain patience gate ∈ items := by
  induction h with
  | done | failed | halted => cases hr
  | @stuck patience gate => exact ⟨patience, gate, List.mem_cons_self⟩
  | note _ ih | closed _ _ ih | task _ _ _ ih | undrained _ _ ih | drained _ _ _ ih
  | unhalted _ _ ih | meanwhile _ _ ih =>
    obtain ⟨patience, gate, hgate⟩ := ih hr
    exact ⟨patience, gate, List.mem_cons_of_mem _ hgate⟩

/-- A run that is neither halted nor given up comes to its end unless a task fails. -/
theorem Follows.ends_iff (h : Follows F items m deeds r m') :
    r = .ok true ↔ (∀ d ∈ deeds, d.answer = .ok ()) ∧ r ≠ .ok false ∧ r ≠ .error .endless := by
  have hcut := h.cutShort
  constructor
  · rintro rfl
    exact ⟨hcut, nofun, nofun⟩
  · rintro ⟨hall, hfalse, hendless⟩
    rcases r with (f | _) | (_ | _)
    · obtain ⟨init, last, rfl, hlast, -⟩ := hcut
      have hok := hall last (by simp)
      rw [hlast] at hok
      cases hok
    · exact absurd rfl hendless
    · exact absurd rfl hfalse
    · rfl

end Follows

/-- A part of a frame, with the names under which something is recorded whenever it is entered. -/
structure Segment (σ : Type) where
  names : List String
  items : List (Item σ)

/-- A run through some segments, and how many of them it enters. -/
inductive Passes (F : Facades σ κ) :
    List (Segment σ) → Moment σ → List (Deed σ) → Except Stop Bool → Moment σ → Nat → Prop
  | done (m : Moment σ) : Passes F [] m [] (.ok true) m 0
  | on {segment rest m m₁ m' deeds more r k} :
    Follows F segment.items m deeds (.ok true) m₁ → Passes F rest m₁ more r m' k →
      Passes F (segment :: rest) m (deeds ++ more) r m' (k + 1)
  | out {segment rest m deeds r m'} :
    r ≠ .ok true → Follows F segment.items m deeds r m' → Passes F (segment :: rest) m deeds r m' 1

/-- What is done in every segment is marked by its number, from some number on. -/
def Marked (mark : Task → Nat) : Nat → List (Segment σ) → Prop
  | _, [] => True
  | n, segment :: rest =>
    (∀ item ∈ segment.items, item.Meets (fun _ => True) fun d => mark d.task = n) ∧
      Marked mark (n + 1) rest

namespace Passes

variable {segments : List (Segment σ)} {m m' : Moment σ} {deeds : List (Deed σ)}
  {r : Except Stop Bool} {k : Nat}

theorem le_length (h : Passes F segments m deeds r m' k) : k ≤ segments.length := by
  induction h with
  | done => exact Nat.le_refl _
  | on _ _ ih => exact Nat.succ_le_succ ih
  | out => exact Nat.le_add_left 1 _

theorem eq_length (h : Passes F segments m deeds r m' k) (hr : r = .ok true) :
    k = segments.length := by
  induction h with
  | done => rfl
  | on _ _ ih => exact congrArg (· + 1) (ih hr)
  | out hne => exact absurd hr hne

theorem pos (h : Passes F segments m deeds r m' k) : 0 < k ∨ r = .ok true := by
  cases h with
  | done => exact .inr rfl
  | on | out => exact .inl (Nat.succ_pos _)

variable {mark : Task → Nat} {n : Nat}

theorem mark_bounds (h : Passes F segments m deeds r m' k) (hmark : Marked mark n segments) :
    ∀ d ∈ deeds, n ≤ mark d.task ∧ mark d.task < n + k := by
  induction h generalizing n with
  | done => simp
  | on hsegment _ ih =>
    obtain ⟨hfirst, hrest⟩ := hmark
    intro d hd
    rcases List.mem_append.mp hd with hd | hd
    · have hd := (hsegment.meets hfirst trivial).1 d hd
      omega
    · have hd := ih hrest d hd
      omega
  | out _ hsegment =>
    intro d hd
    have hd := (hsegment.meets hmark.1 trivial).1 d hd
    omega

/-- Every segment that is entered is run through by what is marked with its number; it comes to its
end if the next one is entered, or if it is the last one. -/
theorem segment (h : Passes F segments m deeds r m' k) (hmark : Marked mark n segments) {i : Nat}
    {segment : Segment σ} (hi : segments[i]? = some segment) (hk : i < k) :
    ∃ m₁ m₂ r', Follows F segment.items m₁ (deeds.filter fun d => mark d.task = n + i) r' m₂ ∧
      (r' = .ok true ↔ i + 1 < k ∨ r = .ok true) ∧ (r' = .ok true ∨ r' = r) := by
  induction h generalizing n i with
  | done => omega
  | @on first rest m m₁ m' deeds more r k hsegment hpasses ih =>
    obtain ⟨hfirst, hrest⟩ := hmark
    have hdeeds := (hsegment.meets hfirst trivial).1
    have hmore := hpasses.mark_bounds hrest
    cases i with
    | zero =>
      obtain rfl := Option.some.inj hi
      have hall : deeds.filter (fun d => mark d.task = n + 0) = deeds := by
        rw [List.filter_eq_self]
        intro d hd
        simp [hdeeds d hd]
      have hnone : more.filter (fun d => mark d.task = n + 0) = [] := by
        rw [List.filter_eq_nil_iff]
        intro d hd
        have := hmore d hd
        simp
        omega
      refine ⟨m, m₁, .ok true, ?_, ?_, .inl rfl⟩
      · rwa [List.filter_append, hall, hnone, List.append_nil]
      · have hpos := hpasses.pos
        simpa using hpos
    | succ i =>
      have hnone : deeds.filter (fun d => mark d.task = n + (i + 1)) = [] := by
        rw [List.filter_eq_nil_iff]
        intro d hd
        have := hdeeds d hd
        simp
        omega
      obtain ⟨m₂, m₃, r', hf, hr, hor⟩ := ih hrest hi (by omega)
      refine ⟨m₂, m₃, r', ?_, ?_, hor⟩
      · have hnumber : n + 1 + i = n + (i + 1) := by omega
        rw [List.filter_append, hnone, List.nil_append, ← hnumber]
        exact hf
      · rw [hr, Nat.add_lt_add_iff_right]
  | @out first rest m deeds r m' hne hsegment =>
    obtain rfl : i = 0 := by omega
    obtain rfl := Option.some.inj hi
    have hdeeds := (hsegment.meets hmark.1 trivial).1
    have hall : deeds.filter (fun d => mark d.task = n + 0) = deeds := by
      rw [List.filter_eq_self]
      intro d hd
      simp [hdeeds d hd]
    refine ⟨m, m', r, by rwa [hall], ?_, .inr rfl⟩
    simp

/-- The next segment is entered if and only if this one was and came to its end. -/
theorem next (h : Passes F segments m deeds r m' k) (hmark : Marked mark n segments) {i : Nat}
    {segment : Segment σ} (hi : segments[i]? = some segment) (hlast : i + 1 < segments.length)
    (hk : i < k) :
    ∃ m₁ m₂ r', Follows F segment.items m₁ (deeds.filter fun d => mark d.task = n + i) r' m₂ ∧
      (r' = .ok true ↔ i + 1 < k) ∧ (r' = .ok true ∨ r' = r) := by
  obtain ⟨m₁, m₂, r', hf, hr, hor⟩ := h.segment hmark hi hk
  refine ⟨m₁, m₂, r', hf, hr.trans (or_iff_left_of_imp fun htrue => ?_), hor⟩
  rwa [h.eq_length htrue]

/-- A segment that neither halts nor drains comes to its end unless one of its tasks fails. -/
theorem next_iff (h : Passes F segments m deeds r m' k) (hmark : Marked mark n segments) {i : Nat}
    {segment : Segment σ} (hi : segments[i]? = some segment) (hlast : i + 1 < segments.length)
    (hhalt : ∀ gate, Item.halt gate ∉ segment.items)
    (hdrain : ∀ patience gate, Item.drain patience gate ∉ segment.items) :
    i + 1 < k ↔ i < k ∧ ∀ d ∈ deeds, mark d.task = n + i → d.answer = .ok () := by
  constructor
  · intro hk
    have hik : i < k := by omega
    obtain ⟨m₁, m₂, r', hf, hr, -⟩ := h.next hmark hi hlast hik
    obtain ⟨hall, -, -⟩ := hf.ends_iff.mp (hr.mpr hk)
    exact ⟨hik, fun d hd hmarked => hall d (by simp [hd, hmarked])⟩
  · rintro ⟨hik, hall⟩
    obtain ⟨m₁, m₂, r', hf, hr, -⟩ := h.next hmark hi hlast hik
    refine hr.mp (hf.ends_iff.mpr ⟨fun d hd => ?_, fun hfalse => ?_, fun hendless => ?_⟩)
    · obtain ⟨hd, hmarked⟩ := List.mem_filter.mp hd
      exact hall d hd (by simpa using hmarked)
    · obtain ⟨gate, hgate⟩ := hf.exists_halt hfalse
      exact hhalt gate hgate
    · obtain ⟨patience, gate, hgate⟩ := hf.exists_drain hendless
      exact hdrain patience gate hgate

/-- A run is given up in the last segment that it enters. -/
theorem exists_drain (h : Passes F segments m deeds r m' k) (hr : r = .error .endless) :
    ∃ i segment, k = i + 1 ∧ segments[i]? = some segment ∧
      ∃ patience gate, Item.drain patience gate ∈ segment.items := by
  induction h with
  | done => cases hr
  | on _ _ ih =>
    obtain ⟨i, segment, rfl, hi, hdrain⟩ := ih hr
    exact ⟨i + 1, segment, rfl, hi, hdrain⟩
  | @out segment _ _ _ _ _ _ hsegment => exact ⟨0, segment, rfl, rfl, hsegment.exists_drain hr⟩

/-- The only segment that drains comes to its end unless one of its tasks fails or the run is given
up. -/
theorem next_iff_of_drain (h : Passes F segments m deeds r m' k) (hmark : Marked mark n segments)
    {i : Nat} {segment : Segment σ} (hi : segments[i]? = some segment)
    (hlast : i + 1 < segments.length)
    (hhalt : ∀ gate, Item.halt gate ∉ segment.items)
    (honly : ∀ j segment', segments[j]? = some segment' →
      (∃ patience gate, Item.drain patience gate ∈ segment'.items) → j = i) :
    i + 1 < k ↔ i < k ∧ (∀ d ∈ deeds, mark d.task = n + i → d.answer = .ok ()) ∧
      r ≠ .error .endless := by
  constructor
  · intro hk
    have hik : i < k := by omega
    obtain ⟨m₁, m₂, r', hf, hr, -⟩ := h.next hmark hi hlast hik
    obtain ⟨hall, -, -⟩ := hf.ends_iff.mp (hr.mpr hk)
    refine ⟨hik, fun d hd hmarked => hall d (by simp [hd, hmarked]), fun hendless => ?_⟩
    obtain ⟨j, segment', hj, hsegment', hdrain⟩ := h.exists_drain hendless
    have := honly j segment' hsegment' hdrain
    omega
  · rintro ⟨hik, hall, hendless⟩
    obtain ⟨m₁, m₂, r', hf, hr, hor⟩ := h.next hmark hi hlast hik
    refine hr.mp (hf.ends_iff.mpr ⟨fun d hd => ?_, fun hfalse => ?_, fun hgiven => ?_⟩)
    · obtain ⟨hd, hmarked⟩ := List.mem_filter.mp hd
      exact hall d hd (by simpa using hmarked)
    · obtain ⟨gate, hgate⟩ := hf.exists_halt hfalse
      exact hhalt gate hgate
    · rcases hor with htrue | rfl
      · exact absurd (hgiven.symm.trans htrue) nofun
      · exact hendless hgiven

/-- A segment that does a single task leads into the next one if and only if the task was done. -/
theorem next_iff_done (h : Passes F segments m deeds r m' k) (hmark : Marked mark n segments)
    {i : Nat} {segment : Segment σ} (hi : segments[i]? = some segment)
    (hlast : i + 1 < segments.length) {t : Task} (ht : mark t = n + i)
    (hsingle : ∀ {m m' : Moment σ} {deeds : List (Deed σ)} {r : Except Stop Bool},
      Follows F segment.items m deeds r m' →
        ∃ d, deeds = [d] ∧ d.task = t ∧ (r = .ok true ↔ d.answer = .ok ())) :
    i + 1 < k ↔ ∃ d ∈ deeds, d.task = t ∧ d.answer = .ok () := by
  by_cases hik : i < k
  · obtain ⟨m₁, m₂, r', hf, hr, -⟩ := h.next hmark hi hlast hik
    obtain ⟨d, hd, htask, hanswer⟩ := hsingle hf
    have hmem : ∀ d', d' ∈ deeds ∧ mark d'.task = n + i ↔ d' = d := by
      intro d'
      have hfilter : d' ∈ deeds.filter (fun d => mark d.task = n + i) ↔ d' ∈ [d] := by rw [hd]
      simpa using hfilter
    rw [← hr, hanswer]
    constructor
    · intro hok
      exact ⟨d, ((hmem d).mpr rfl).1, htask, hok⟩
    · rintro ⟨d', hd', rfl, hok⟩
      rwa [← (hmem d').mp ⟨hd', ht⟩]
  · constructor
    · omega
    · rintro ⟨d, hd, rfl, -⟩
      have := h.mark_bounds hmark d hd
      omega

end Passes

end FrameLoop
