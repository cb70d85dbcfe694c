import FrameLoop.Proofs.Stores
import FrameLoop.Telemetry.Service

/-! The records of the frames: each holds what was written for its frame, and the statistics keep the
last of them. -/

namespace FrameLoop

section Ascending

variable {α β : Type} [Ord α]

/-- By increasing key. -/
def Ascending (l : List (α × β)) : Prop := l.Pairwise fun a b => compare a.1 b.1 = .lt

theorem lookup_insertSorted [BEq α] [LawfulBEq α] [Std.LawfulEqOrd α] (key k : α) (value : β)
    (l : List (α × β)) :
    (insertSorted key value l).lookup k = if k == key then some value else l.lookup k := by
  induction l with
  | nil =>
    rw [insertSorted, List.lookup_cons]
    cases k == key <;> rfl
  | cons a l ih =>
    rw [insertSorted]
    cases hc : compare key a.1 with
    | lt =>
      rw [List.lookup_cons]
      cases k == key <;> rfl
    | eq =>
      obtain rfl : key = a.1 := Std.compare_eq_iff_eq.mp hc
      rw [List.lookup_cons, List.lookup_cons]
      cases k == a.1 <;> rfl
    | gt =>
      rw [List.lookup_cons, ih, List.lookup_cons]
      cases hk : k == a.1 with
      | false => rfl
      | true =>
        have hne : (k == key) = false := by
          rw [beq_eq_false_iff_ne]
          rintro rfl
          rw [eq_of_beq hk, Std.compare_self] at hc
          cases hc
        rw [hne]
        rfl

theorem mem_insertSorted {key : α} {value : β} {l : List (α × β)} {a : α × β}
    (h : a ∈ insertSorted key value l) : a = (key, value) ∨ a ∈ l := by
  induction l with
  | nil => exact .inl (List.mem_singleton.mp h)
  | cons b l ih =>
    rw [insertSorted] at h
    cases hc : compare key b.1 with
    | lt =>
      rw [hc] at h
      exact List.mem_cons.mp h
    | eq =>
      rw [hc] at h
      rcases List.mem_cons.mp h with rfl | h
      · exact .inl rfl
      · exact .inr (List.mem_cons_of_mem _ h)
    | gt =>
      rw [hc] at h
      rcases List.mem_cons.mp h with rfl | h
      · exact .inr List.mem_cons_self
      · exact (ih h).imp_right (List.mem_cons_of_mem _)

theorem insertSorted_append_of_gt {before : List (α × β)} {key : α}
    (h : ∀ a ∈ before, compare key a.1 = .gt) (value : β) (after : List (α × β)) :
    insertSorted key value (before ++ after) = before ++ insertSorted key value after := by
  induction before with
  | nil => rfl
  | cons a before ih =>
    obtain ⟨ha, hbefore⟩ := List.forall_mem_cons.mp h
    simp [insertSorted, ha, ih hbefore]

theorem Ascending.insertSorted [Std.TransOrd α] [Std.LawfulEqOrd α] {l : List (α × β)}
    (h : Ascending l) (key : α) (value : β) : Ascending (insertSorted key value l) := by
  induction l with
  | nil => exact List.pairwise_singleton _ _
  | cons a l ih =>
    obtain ⟨ha, hl⟩ := List.pairwise_cons.mp h
    rw [FrameLoop.insertSorted]
    cases hc : compare key a.1 with
    | lt =>
      refine List.pairwise_cons.mpr ⟨fun b hb => ?_, h⟩
      rcases List.mem_cons.mp hb with rfl | hb
      · exact hc
      · exact Std.TransCmp.lt_trans hc (ha b hb)
    | eq =>
      obtain rfl : key = a.1 := Std.compare_eq_iff_eq.mp hc
      exact List.pairwise_cons.mpr ⟨ha, hl⟩
    | gt =>
      refine List.pairwise_cons.mpr ⟨fun b hb => ?_, ih hl⟩
      rcases mem_insertSorted hb with rfl | hb
      · exact Std.OrientedCmp.gt_iff_lt.mp hc
      · exact ha b hb

end Ascending

section Last

variable {β : Type} {l : List (Nat × β)} {n : Nat}

theorem insertSorted_last (h : ∀ a ∈ l, a.1 < n) (value : β) :
    insertSorted n value l = l ++ [(n, value)] := by
  have hgt : ∀ a ∈ l, compare n a.1 = .gt := fun a ha => Nat.compare_eq_gt.mpr (h a ha)
  simpa [insertSorted] using insertSorted_append_of_gt hgt value []

theorem insertSorted_again (h : ∀ a ∈ l, a.1 < n) (old value : β) :
    insertSorted n value (l ++ [(n, old)]) = l ++ [(n, value)] := by
  have hgt : ∀ a ∈ l, compare n a.1 = .gt := fun a ha => Nat.compare_eq_gt.mpr (h a ha)
  rw [insertSorted_append_of_gt hgt]
  simp [insertSorted]

end Last

/-- Writes of attributes, each a name and a value, one after the other. -/
def Attributes.written (writes : List (String × Double)) (a : Attributes) : Attributes :=
  writes.foldl (fun a w => insertSorted w.1 w.2 a) a

/-- The record of a frame for which this was written: the last value of every name. -/
structure Attributes.Records (a : Attributes) (writes : List (String × Double)) : Prop where
  ascending : Ascending a
  value : ∀ name, a.lookup name = writes.reverse.lookup name

namespace Attributes

variable (writes : List (String × Double))

theorem lookup_written (a : Attributes) (name : String) :
    (a.written writes).lookup name = (writes.reverse.lookup name).or (a.lookup name) := by
  induction writes generalizing a with
  | nil => rfl
  | cons w writes ih =>
    rw [List.reverse_cons, List.lookup_append, Option.or_assoc, written, List.foldl_cons]
    refine (ih _).trans (congrArg _ ?_)
    rw [lookup_insertSorted, List.lookup_cons]
    cases name == w.1 <;> rfl

theorem ascending_written {a : Attributes} (h : Ascending a) : Ascending (a.written writes) := by
  induction writes generalizing a with
  | nil => exact h
  | cons w writes ih => exact ih (h.insertSorted w.1 w.2)

theorem records_written : Records (written writes []) writes where
  ascending := ascending_written writes .nil
  value name := (lookup_written writes [] name).trans Option.or_none

end Attributes

namespace FrameStats

variable {s : FrameStats} {n : Nat}

theorem lookup_of_lt {frames : List (Nat × Attributes)} (h : ∀ a ∈ frames, a.1 < n) :
    frames.lookup n = none := by
  rw [List.lookup_eq_none_iff]
  intro a ha
  simpa using Nat.ne_of_gt (h a ha)

theorem set_last {frames : List (Nat × Attributes)} {a : Attributes}
    (hs : s.frames = frames ++ [(n, a)]) (h : ∀ b ∈ frames, b.1 < n)
    (hroom : frames.length < s.history) (name : String) (value : Double) :
    s.set n name value = { s with frames := frames ++ [(n, insertSorted name value a)] } := by
  have hrecord : s.record? n = some a := by
    rw [record?, hs, List.lookup_append, lookup_of_lt h, List.lookup_cons_self]
    rfl
  rw [set, hrecord, hs, insertSorted_again h, evict, List.length_append, List.length_singleton,
    Nat.sub_eq_zero_of_le hroom]
  rfl

theorem set_new (h : ∀ a ∈ s.frames, a.1 < n) (hroom : 0 < s.history) (name : String)
    (value : Double) :
    s.set n name value =
      { s with frames := s.frames.drop (s.frames.length + 1 - s.history) ++
        [(n, insertSorted name value [])] } := by
  rw [set, record?, lookup_of_lt h, insertSorted_last h, evict, List.length_append,
    List.length_singleton, List.drop_append_of_le_length (by omega)]
  rfl

/-- What is written for the frame that was recorded last goes into its record. -/
theorem storeAll_last {frames : List (Nat × Attributes)} {a : Attributes}
    (hs : s.frames = frames ++ [(n, a)]) (h : ∀ b ∈ frames, b.1 < n)
    (hroom : frames.length < s.history) (writes : List (String × Double)) :
    storeAll s (writes.map (Prod.mk n)) = { s with frames := frames ++ [(n, a.written writes)] } := by
  induction writes generalizing s a with
  | nil =>
    obtain ⟨_, _, _⟩ := s
    cases hs
    rfl
  | cons w writes ih =>
    change storeAll (s.set n w.1 w.2) _ = _
    rw [set_last hs h hroom]
    exact ih rfl hroom

/-- What is written for a new frame makes its record, and drives out the oldest one if there is no
room. -/
theorem storeAll_new (h : ∀ a ∈ s.frames, a.1 < n) (hroom : 0 < s.history)
    {writes : List (String × Double)} (hw : writes ≠ []) :
    storeAll s (writes.map (Prod.mk n)) =
      { s with frames := s.frames.drop (s.frames.length + 1 - s.history) ++
        [(n, Attributes.written writes [])] } := by
  cases writes with
  | nil => exact absurd rfl hw
  | cons w writes =>
    change storeAll (s.set n w.1 w.2) _ = _
    rw [set_new h hroom, storeAll_last rfl (fun b hb => h b (List.mem_of_mem_drop hb)) ?_]
    · rfl
    · rw [List.length_drop]
      change s.frames.length - (s.frames.length + 1 - s.history) < s.history
      omega

end FrameStats

/-- The records of the first frames, by the numbers of the frames. -/
def numbered (records : List Attributes) : List (Nat × Attributes) :=
  records.zipIdx.map Prod.swap

theorem numbered_append (records : List Attributes) (a : Attributes) :
    numbered (records ++ [a]) = numbered records ++ [(records.length, a)] := by
  simp [numbered, List.zipIdx_append]

theorem length_numbered (records : List Attributes) :
    (numbered records).length = records.length := by
  simp [numbered]

theorem lt_of_mem_numbered {records : List Attributes} {a : Nat × Attributes}
    (h : a ∈ numbered records) : a.1 < records.length := by
  obtain ⟨b, hb, rfl⟩ := List.mem_map.mp h
  simpa using List.snd_lt_of_mem_zipIdx hb

theorem lookup_zipIdx (records : List Attributes) {d k : Nat} (h : d ≤ k) (n : Nat) :
    (((records.zipIdx n).map Prod.swap).drop d).lookup (n + k) = records[k]? := by
  induction records generalizing d k n with
  | nil => rw [List.zipIdx_nil, List.map_nil, List.drop_nil]; rfl
  | cons a records ih =>
    rw [List.zipIdx_cons, List.map_cons]
    have hstep (k : Nat) : n + (k + 1) = n + 1 + k := by omega
    cases d with
    | succ d =>
      obtain ⟨k, rfl⟩ := Nat.exists_eq_add_one_of_ne_zero (Nat.ne_of_gt (Nat.zero_lt_of_lt h))
      rw [List.drop_succ_cons, hstep]
      exact ih (Nat.le_of_succ_le_succ h) (n + 1)
    | zero =>
      rw [List.drop_zero, Prod.swap_prod_mk, List.lookup_cons]
      cases k with
      | zero => simp
      | succ k =>
        have hne : (n + 1 + k == n) = false := by
          rw [beq_eq_false_iff_ne]
          omega
        rw [hstep, hne]
        exact ih (Nat.zero_le k) (n + 1)

theorem lookup_numbered (records : List Attributes) {d k : Nat} (h : d ≤ k) :
    ((numbered records).drop d).lookup k = records[k]? := by
  have hlookup := lookup_zipIdx records h 0
  rwa [Nat.zero_add] at hlookup

/-- The statistics hold the last of the records of all frames so far. -/
structure History (records : List Attributes) (s : FrameStats) : Prop where
  lag : reportLag < s.history
  frames : s.frames = (numbered records).drop (records.length - s.history)

namespace History

variable {records : List Attributes} {s : FrameStats}

/-- A record is there until as many frames as are kept have come after it. -/
theorem record? (h : History records s) {k : Nat} (hk : records.length ≤ k + s.history) :
    s.record? k = records[k]? := by
  rw [FrameStats.record?, h.frames, lookup_numbered records (by omega)]

/-- There are no other records. -/
theorem recorded (h : History records s) {k : Nat} {a : Attributes} (hk : s.record? k = some a) :
    records[k]? = some a := by
  rw [FrameStats.record?, h.frames] at hk
  obtain ⟨_, _, hsplit, -⟩ := List.lookup_eq_some_iff.mp hk
  have hmem : (k, a) ∈ numbered records :=
    List.mem_of_mem_drop (hsplit ▸ List.mem_append_right _ List.mem_cons_self)
  obtain ⟨⟨b, i⟩, hb, hswap⟩ := List.mem_map.mp hmem
  cases hswap
  exact List.mk_mem_zipIdx_iff_getElem?.mp hb

theorem lt (h : History records s) : ∀ a ∈ s.frames, a.1 < records.length := by
  rw [h.frames]
  exact fun a ha => lt_of_mem_numbered (List.mem_of_mem_drop ha)

/-- What is written for the next frame adds its record. -/
theorem store (h : History records s) {writes : List (String × Double)} (hw : writes ≠ []) :
    History (records ++ [Attributes.written writes []])
      (storeAll s (writes.map (Prod.mk records.length))) := by
  have hpos : 0 < s.history := Nat.zero_lt_of_lt h.lag
  rw [FrameStats.storeAll_new h.lt hpos hw]
  refine ⟨h.lag, ?_⟩
  have hlength : s.frames.length = records.length - (records.length - s.history) := by
    rw [h.frames, List.length_drop, length_numbered]
  have hgone : records.length - s.history +
      (records.length - (records.length - s.history) + 1 - s.history) =
        records.length + 1 - s.history := by omega
  change s.frames.drop (s.frames.length + 1 - s.history) ++ [_] =
    (numbered (records ++ [_])).drop ((records ++ [_]).length - s.history)
  rw [hlength, h.frames, List.drop_drop, hgone, numbered_append, List.length_append,
    List.length_singleton, List.drop_append_of_le_length (by rw [length_numbered]; omega)]

/-- There is but one record that what was written for a frame can have led to. -/
theorem unique (h : History records s) {writes other : List (String × Double)} (hw : writes ≠ [])
    (ho : storeAll s (writes.map (Prod.mk records.length)) =
      storeAll s (other.map (Prod.mk records.length))) :
    Attributes.written writes [] = Attributes.written other [] := by
  have hpos : 0 < s.history := Nat.zero_lt_of_lt h.lag
  rw [FrameStats.storeAll_new h.lt hpos hw] at ho
  by_cases hother : other = []
  · -- no record would have come of nothing
    rw [hother] at ho
    have hframes : _ = s.frames := congrArg FrameStats.frames ho
    have hmem : (records.length, Attributes.written writes []) ∈ s.frames :=
      hframes ▸ List.mem_append_right _ List.mem_cons_self
    exact absurd (h.lt _ hmem) (Nat.lt_irrefl _)
  · rw [FrameStats.storeAll_new h.lt hpos hother] at ho
    have hlast := List.append_inj_right' (congrArg FrameStats.frames ho) rfl
    exact congrArg Prod.snd (List.cons.inj hlast).1

end History

end FrameLoop
