import FrameLoop.Proofs.History
import Mathlib.Data.Finset.Sort
import Mathlib.Data.List.DropRight

/-! Eviction costs no held frame anything: the statistics are the last frames of a ledger in which
every write of every frame is kept. -/

namespace FrameLoop

section Ascending

variable {α β : Type} [Ord α] {l : List (α × β)} {key : α}

/-- What has its place before the end of a part goes into that part. -/
theorem insertSorted_append_of_not_gt {before : List (α × β)}
    (h : ∃ a ∈ before, compare key a.1 ≠ .gt) (value : β) (after : List (α × β)) :
    insertSorted key value (before ++ after) = insertSorted key value before ++ after := by
  induction before with
  | nil => simp at h
  | cons a before ih =>
    rw [List.cons_append, insertSorted, insertSorted]
    cases hc : compare key a.1 with
    | lt => rfl
    | eq => rfl
    | gt =>
      have hbefore : ∃ b ∈ before, compare key b.1 ≠ .gt := by simpa [hc] using h
      simp [ih hbefore]

theorem insertSorted_of_lt (h : ∀ a ∈ l, compare key a.1 = .lt) (value : β) :
    insertSorted key value l = (key, value) :: l := by
  cases l with
  | nil => rfl
  | cons a l => simp [insertSorted, h a (by simp)]

theorem length_le_insertSorted (key : α) (value : β) (l : List (α × β)) :
    l.length ≤ (insertSorted key value l).length := by
  induction l with
  | nil => simp
  | cons a l ih =>
    rw [insertSorted]
    cases compare key a.1 <;> simp [ih]

variable [BEq α] [LawfulBEq α]

omit [Ord α] in
theorem lookup_eq_none_iff : l.lookup key = none ↔ key ∉ l.map Prod.fst := by
  rw [List.lookup_eq_none_iff, List.mem_map]
  simp only [bne_iff_ne, not_exists, not_and]
  exact forall₂_congr fun a _ => ne_comm

omit [Ord α] in
theorem lookup_filter_key [DecidableEq α] (l : List (α × β)) (key : α) :
    (l.filter (·.1 = key)).lookup key = l.lookup key := by
  induction l with
  | nil => rfl
  | cons a l ih =>
    obtain ⟨k, value⟩ := a
    by_cases hk : k = key
    · simp [hk]
    · have hne : (key == k) = false := by simpa using Ne.symm hk
      simp [hk, List.lookup_cons, hne, ih]

variable [Std.TransOrd α]

theorem Ascending.lookup_eq_some_iff (h : Ascending l) {value : β} :
    l.lookup key = some value ↔ (key, value) ∈ l := by
  rw [List.lookup_eq_some_iff]
  constructor
  · rintro ⟨before, after, rfl, -⟩
    simp
  · intro hmem
    obtain ⟨before, after, rfl⟩ := List.append_of_mem hmem
    refine ⟨before, after, rfl, fun a ha => ?_⟩
    have hlt := (List.pairwise_append.mp h).2.2 a ha (key, value) (by simp)
    rw [bne_iff_ne]
    rintro rfl
    simp at hlt

/-- There is but one list by increasing key with the same values of all keys. -/
theorem Ascending.ext {l' : List (α × β)} (h : Ascending l) (h' : Ascending l')
    (hlookup : ∀ key, l.lookup key = l'.lookup key) : l = l' := by
  have hnodup {l : List (α × β)} (h : Ascending l) : l.Nodup := by
    refine List.Pairwise.imp (fun hlt heq => ?_) h
    simp [heq] at hlt
  have hperm : l.Perm l' := by
    rw [List.perm_ext_iff_of_nodup (hnodup h) (hnodup h')]
    intro a
    rw [← h.lookup_eq_some_iff, ← h'.lookup_eq_some_iff, hlookup]
  refine hperm.eq_of_pairwise (fun a b _ _ hab hba => ?_) h h'
  exact absurd hba (Std.OrientedCmp.not_lt_of_lt hab)

end Ascending

theorem Attributes.isSome_written (writes : List (String × Double)) (name : String) :
    ((Attributes.written writes []).lookup name).isSome ↔ name ∈ writes.map Prod.fst := by
  rw [(Attributes.records_written writes).value, Option.isSome_iff_ne_none, Ne, lookup_eq_none_iff,
    not_not]
  simp

/-- What a store without bounds would hold. -/
def ledger (writes : List (Nat × String × Double)) : List (Nat × Attributes) :=
  writes.foldl (fun l a => insertSorted a.1 (insertSorted a.2.1 a.2.2 ((l.lookup a.1).getD [])) l) []

/-- What was written for a frame, each a name and a value. -/
def writesFor (frame : Nat) (writes : List (Nat × String × Double)) : List (String × Double) :=
  (writes.filter (·.1 = frame)).map Prod.snd

/-- The greatest numbers of a list, at most so many, by increasing number. -/
def newest (n : Nat) (numbers : List Nat) : List Nat := numbers.toFinset.sort.rtake n

/-- A number is among the newest unless there are greater ones. -/
theorem mem_newest {n number : Nat} {numbers : List Nat} (hn : 0 < n) (hmem : number ∈ numbers)
    (hlast : ∀ later ∈ newest n numbers, later ≤ number) : number ∈ newest n numbers := by
  have hsorted := numbers.toFinset.pairwise_sort (· ≤ ·)
  rw [← List.mem_toFinset, ← Finset.mem_sort (· ≤ ·)] at hmem
  unfold newest at hlast ⊢
  obtain ⟨k, rfl⟩ : ∃ k, n = k + 1 := ⟨n - 1, by omega⟩
  obtain hnil | ⟨before, last, hconcat⟩ := numbers.toFinset.sort.eq_nil_or_concat
  · simp [hnil] at hmem
  · rw [hconcat, List.concat_eq_append] at hsorted hmem hlast ⊢
    rw [List.rtake_concat_succ] at hlast ⊢
    have hle : last ≤ number := hlast last (by simp)
    rcases List.mem_append.mp hmem with hbefore | hlast'
    · have hge := (List.pairwise_append.mp hsorted).2.2 number hbefore last (by simp)
      simp [Nat.le_antisymm hge hle]
    · exact List.mem_append_right _ hlast'

theorem ledger_concat (writes : List (Nat × String × Double)) (a : Nat × String × Double) :
    ledger (writes ++ [a]) = insertSorted a.1
      (insertSorted a.2.1 a.2.2 (((ledger writes).lookup a.1).getD [])) (ledger writes) := by
  simp [ledger]

theorem ascending_ledger (writes : List (Nat × String × Double)) : Ascending (ledger writes) := by
  induction writes using List.reverseRecOn with
  | nil => exact .nil
  | append_singleton writes a ih =>
    rw [ledger_concat]
    exact ih.insertSorted _ _

theorem writesFor_concat (frame : Nat) (writes : List (Nat × String × Double))
    (a : Nat × String × Double) :
    writesFor frame (writes ++ [a]) =
      if a.1 = frame then writesFor frame writes ++ [a.2] else writesFor frame writes := by
  by_cases ha : a.1 = frame <;> simp [writesFor, ha]

theorem mem_names_writesFor {frame : Nat} {name : String} {writes : List (Nat × String × Double)} :
    name ∈ (writesFor frame writes).map Prod.fst ↔ ∃ a ∈ writes, a.1 = frame ∧ a.2.1 = name := by
  simp [writesFor]

theorem filter_writesFor (frame : Nat) (name : String) (writes : List (Nat × String × Double)) :
    (writesFor frame writes).filter (·.1 = name) =
      (writes.filter (storeKey · = (frame, name))).map Prod.snd := by
  rw [writesFor, List.filter_map, List.filter_filter]
  refine congrArg _ (List.filter_congr fun a _ => ?_)
  simp [storeKey, Bool.and_comm]

theorem writesFor_of_not_mem {frame : Nat} {writes : List (Nat × String × Double)}
    (h : frame ∉ writes.map Prod.fst) : writesFor frame writes = [] := by
  rw [writesFor, List.map_eq_nil_iff, List.filter_eq_nil_iff]
  intro a ha hframe
  exact h (List.mem_map.mpr ⟨a, ha, by simpa using hframe⟩)

/-- The record of a frame in the ledger is made of everything that was written for it. -/
theorem lookup_ledger (writes : List (Nat × String × Double)) (frame : Nat) :
    (ledger writes).lookup frame =
      if frame ∈ writes.map Prod.fst then some (Attributes.written (writesFor frame writes) [])
      else none := by
  induction writes using List.reverseRecOn with
  | nil => rfl
  | append_singleton writes a ih =>
    rw [ledger_concat, lookup_insertSorted, writesFor_concat]
    by_cases ha : a.1 = frame
    · obtain rfl := ha
      rw [ih]
      by_cases hmem : a.1 ∈ writes.map Prod.fst
      · simp [hmem, Attributes.written]
      · simp [hmem, writesFor_of_not_mem hmem, Attributes.written]
    · have hne : (frame == a.1) = false := by simpa using Ne.symm ha
      have hmem : frame ∈ (writes ++ [a]).map Prod.fst ↔ frame ∈ writes.map Prod.fst := by
        simp [Ne.symm ha]
      rw [hne, if_neg ha, if_congr hmem rfl rfl]
      exact ih

theorem map_fst_ledger (writes : List (Nat × String × Double)) :
    (ledger writes).map Prod.fst = (writes.map Prod.fst).toFinset.sort := by
  have hlt : ((ledger writes).map Prod.fst).Pairwise (· < ·) := by
    rw [List.pairwise_map]
    exact (ascending_ledger writes).imp Nat.compare_eq_lt.mp
  have hframes : (writes.map Prod.fst).toFinset = ((ledger writes).map Prod.fst).toFinset := by
    ext frame
    have hnone : frame ∉ (ledger writes).map Prod.fst ↔ frame ∉ writes.map Prod.fst := by
      rw [← lookup_eq_none_iff, lookup_ledger]
      split <;> simp only [*, reduceCtorEq, not_true_eq_false, not_false_eq_true]
    rw [List.mem_toFinset, List.mem_toFinset, not_iff_not.mp hnone]
  rw [hframes, (List.toFinset_sort (· ≤ ·) (hlt.imp Nat.ne_of_lt)).mpr (hlt.imp Nat.le_of_lt)]

namespace FrameStats

variable {history : Nat} {frames : List (Nat × Attributes)}

theorem map_fst_evict : (evict history frames).map Prod.fst = (frames.map Prod.fst).rtake history := by
  simp [evict, List.rtake]

theorem evict_eq_self (h : frames.length ≤ history) : evict history frames = frames := by
  simp [evict, Nat.sub_eq_zero_of_le h]

theorem evict_append (gone : List (Nat × Attributes)) (h : history ≤ frames.length) :
    evict history (gone ++ frames) = evict history frames := by
  rw [evict, evict, List.length_append, Nat.add_sub_assoc h, List.drop_append]
  simp

theorem lookup_evict (h : Ascending frames) {frame : Nat}
    (hmem : frame ∈ (evict history frames).map Prod.fst) :
    (evict history frames).lookup frame = frames.lookup frame := by
  obtain ⟨⟨n, a⟩, ha, rfl⟩ := List.mem_map.mp hmem
  have hkept : Ascending (evict history frames) := List.Pairwise.sublist (List.drop_sublist ..) h
  rw [hkept.lookup_eq_some_iff.mpr ha, h.lookup_eq_some_iff.mpr (List.mem_of_mem_drop ha)]

/-- A write makes no difference to the frames that have gone. -/
theorem evict_insertSorted_evict (h : Ascending frames) (hpos : 0 < history) (frame : Nat)
    (name : String) (value : Double) :
    evict history (insertSorted frame
        (insertSorted name value (((evict history frames).lookup frame).getD []))
        (evict history frames)) =
      evict history (insertSorted frame
        (insertSorted name value ((frames.lookup frame).getD [])) frames) := by
  by_cases hroom : frames.length ≤ history
  · rw [evict_eq_self hroom]
  obtain ⟨gone, kept, rfl, hkept, hlength⟩ : ∃ gone kept, frames = gone ++ kept ∧
      evict history frames = kept ∧ kept.length = history :=
    ⟨_, _, (List.take_append_drop (frames.length - history) frames).symm, rfl, by simp; omega⟩
  rw [hkept, List.lookup_append]
  by_cases hlater : ∀ a ∈ gone, compare frame a.1 = .gt
  · have hnone : gone.lookup frame = none := by
      rw [List.lookup_eq_none_iff]
      intro a ha
      rw [bne_iff_ne]
      rintro rfl
      simpa using hlater a ha
    rw [hnone, insertSorted_append_of_gt hlater, evict_append]
    · rfl
    · exact hlength.ge.trans (length_le_insertSorted ..)
  · -- the frame is older than all that are kept, and goes as it comes
    have hearlier : ∃ a ∈ gone, compare frame a.1 ≠ .gt := by simpa using hlater
    have hlt : ∀ b ∈ kept, compare frame b.1 = .lt := by
      intro b hb
      obtain ⟨a, ha, hle⟩ := hearlier
      have hab : compare a.1 b.1 = .lt := (List.pairwise_append.mp h).2.2 a ha b hb
      rw [Nat.compare_eq_lt] at hab ⊢
      rw [Ne, Nat.compare_eq_gt] at hle
      omega
    rw [insertSorted_of_lt hlt, insertSorted_append_of_not_gt hearlier, ← List.singleton_append,
      evict_append _ hlength.ge, evict_append _ hlength.ge]

theorem set_evict (s : FrameStats) (h : Ascending frames) (hpos : 0 < s.history) (frame : Nat)
    (name : String) (value : Double) :
    { s with frames := evict s.history frames }.set frame name value =
      { s with frames := evict s.history (insertSorted frame
        (insertSorted name value ((frames.lookup frame).getD [])) frames) } := by
  rw [← evict_insertSorted_evict h hpos]
  rfl

section

variable {s : FrameStats} (hempty : s.frames = []) (hpos : 0 < s.history)

include hempty hpos

/-- The statistics are the last frames of the ledger. -/
theorem storeAll_eq_ledger (writes : List (Nat × String × Double)) :
    storeAll s writes = { s with frames := evict s.history (ledger writes) } := by
  induction writes using List.reverseRecOn with
  | nil =>
    have hframes : evict s.history (ledger []) = s.frames := List.drop_nil.trans hempty.symm
    rw [hframes]
    rfl
  | append_singleton writes a ih =>
    rw [storeAll_append, ih, ledger_concat]
    exact set_evict s (ascending_ledger writes) hpos ..

theorem frameNumbers_storeAll (writes : List (Nat × String × Double)) :
    (storeAll s writes).frameNumbers = newest s.history (writes.map Prod.fst) := by
  rw [storeAll_eq_ledger hempty hpos, newest, ← map_fst_ledger]
  exact map_fst_evict

/-- A frame that is held has its record of the ledger. -/
theorem record?_storeAll {frame : Nat} {writes : List (Nat × String × Double)}
    (h : frame ∈ (storeAll s writes).frameNumbers) :
    (storeAll s writes).record? frame =
      some (Attributes.written (writesFor frame writes) []) := by
  rw [storeAll_eq_ledger hempty hpos] at h ⊢
  have hledger : frame ∈ (ledger writes).map Prod.fst :=
    List.map_subset Prod.fst (List.drop_subset ..) h
  have hwritten : frame ∈ writes.map Prod.fst := by
    rwa [map_fst_ledger, Finset.mem_sort, List.mem_toFinset] at hledger
  have hlookup := lookup_ledger writes frame
  rw [if_pos hwritten] at hlookup
  exact (lookup_evict (ascending_ledger writes) h).trans hlookup

/-- A record has exactly the names that were written for its frame. -/
theorem isSome_lookup_record {frame : Nat} {writes : List (Nat × String × Double)}
    {record : Attributes} (h : (storeAll s writes).record? frame = some record) (name : String) :
    (record.lookup name).isSome ↔ name ∈ (writesFor frame writes).map Prod.fst := by
  have hheld : frame ∈ (storeAll s writes).frameNumbers := by
    by_contra hnot
    exact absurd ((lookup_eq_none_iff.mpr hnot).symm.trans h) nofun
  rw [record?_storeAll hempty hpos hheld] at h
  rw [← Option.some.inj h, Attributes.isSome_written]

/-- A frame that was written is held unless there are later ones. -/
theorem isSome_record {frame : Nat} {writes : List (Nat × String × Double)}
    (hmem : frame ∈ writes.map Prod.fst)
    (hlast : ∀ later ∈ (storeAll s writes).frameNumbers, later ≤ frame) :
    ((storeAll s writes).record? frame).isSome := by
  rw [frameNumbers_storeAll hempty hpos] at hlast
  have hheld := mem_newest hpos hmem hlast
  rw [← frameNumbers_storeAll hempty hpos] at hheld
  rw [record?_storeAll hempty hpos hheld]
  rfl

end

end FrameStats

/-- The writes of the same attributes, those of each in the same order. -/
def Reordered (writes other : List (Nat × String × Double)) : Prop :=
  ∀ key, writes.filter (storeKey · = key) = other.filter (storeKey · = key)

namespace Reordered

variable {writes other : List (Nat × String × Double)}

theorem mem_iff (h : Reordered writes other) (a : Nat × String × Double) :
    a ∈ writes ↔ a ∈ other := by
  have hmem (l : List (Nat × String × Double)) : a ∈ l ↔ a ∈ l.filter (storeKey · = storeKey a) := by
    simp
  rw [hmem writes, hmem other, h]

theorem written (h : Reordered writes other) (frame : Nat) :
    Attributes.written (writesFor frame writes) [] =
      Attributes.written (writesFor frame other) [] := by
  refine (Attributes.ascending_written _ .nil).ext (Attributes.ascending_written _ .nil)
    fun name => ?_
  have hlast (l : List (Nat × String × Double)) : (writesFor frame l).reverse.lookup name =
      ((l.filter (storeKey · = (frame, name))).map Prod.snd).reverse.lookup name := by
    rw [← lookup_filter_key, List.filter_reverse, filter_writesFor]
  rw [Attributes.lookup_written, Attributes.lookup_written, hlast writes, hlast other, h]

theorem ledger (h : Reordered writes other) : ledger writes = ledger other := by
  refine (ascending_ledger writes).ext (ascending_ledger other) fun frame => ?_
  have hmem : frame ∈ writes.map Prod.fst ↔ frame ∈ other.map Prod.fst := by
    simp only [List.mem_map, h.mem_iff]
  rw [lookup_ledger, lookup_ledger, if_congr hmem (congrArg some (h.written frame)) rfl]

end Reordered

/-- The third list is made of the other two, the items of each in their order. -/
inductive Interleaves {α : Type} : List α → List α → List α → Prop
  | nil : Interleaves [] [] []
  | left {l r m : List α} (a : α) : Interleaves l r m → Interleaves (a :: l) r (a :: m)
  | right {l r m : List α} (a : α) : Interleaves l r m → Interleaves l (a :: r) (a :: m)

namespace Interleaves

variable {α : Type} {l r m : List α}

theorem filter (h : Interleaves l r m) (p : α → Bool) :
    Interleaves (l.filter p) (r.filter p) (m.filter p) := by
  induction h with
  | nil => exact .nil
  | left a _ ih =>
    by_cases ha : p a
    · simpa [ha] using ih.left a
    · simpa [ha] using ih
  | right a _ ih =>
    by_cases ha : p a
    · simpa [ha] using ih.right a
    · simpa [ha] using ih

theorem eq_of_left (h : Interleaves l r m) (hr : r = []) : m = l := by
  induction h with
  | nil => rfl
  | left a _ ih => rw [ih hr]
  | right => cases hr

theorem eq_of_right (h : Interleaves l r m) (hl : l = []) : m = r := by
  induction h with
  | nil => rfl
  | left => cases hl
  | right a _ ih => rw [ih hl]

end Interleaves

/-- In whatever order the parts of two threads come, if they write different attributes. -/
theorem Interleaves.reordered {main worker writes other : List (Nat × String × Double)}
    (h : Interleaves main worker writes) (h' : Interleaves main worker other)
    (hdiffer : ∀ a ∈ main, ∀ b ∈ worker, storeKey a ≠ storeKey b) : Reordered writes other := by
  intro key
  have hone : main.filter (storeKey · = key) = [] ∨ worker.filter (storeKey · = key) = [] := by
    by_contra hboth
    rw [not_or, List.filter_eq_nil_iff, List.filter_eq_nil_iff] at hboth
    push Not at hboth
    obtain ⟨⟨a, ha, hkey⟩, b, hb, hkey'⟩ := hboth
    exact hdiffer a ha b hb (by simp_all)
  rcases hone with hmain | hworker
  · rw [(h.filter _).eq_of_right hmain, (h'.filter _).eq_of_right hmain]
  · rw [(h.filter _).eq_of_left hworker, (h'.filter _).eq_of_left hworker]

namespace FrameStats

/-- The statistics keep exactly the newest frames that were ever written, each with the last value
of every attribute that was ever written for it; which depends on the order of the writes of the same
attribute only. -/
theorem newest_frames_are_kept (history : Nat) (writes : List (Nat × String × Double)) :
    let kept := storeAll (new history) writes
    kept.frameNumbers = newest (max history 1) (writes.map Prod.fst) ∧
    (∀ frame ∈ kept.frameNumbers,
      ∃ a, kept.record? frame = some a ∧ a.Records (writesFor frame writes)) ∧
    (∀ frame ∉ kept.frameNumbers, kept.record? frame = none) ∧
    (∀ other, Reordered writes other → storeAll (new history) other = kept) ∧
    ∀ main worker other, (∀ a ∈ main, ∀ b ∈ worker, storeKey a ≠ storeKey b) →
      Interleaves main worker writes → Interleaves main worker other →
      storeAll (new history) other = kept := by
  have hpos : 0 < (new history).history := Nat.le_max_right history 1
  have horder (other : List (Nat × String × Double)) (h : Reordered writes other) :
      storeAll (new history) other = storeAll (new history) writes := by
    rw [storeAll_eq_ledger rfl hpos, storeAll_eq_ledger rfl hpos, h.ledger]
  refine ⟨frameNumbers_storeAll rfl hpos writes, fun frame hframe => ?_, fun frame hframe => ?_,
    horder, fun main worker other hdiffer h h' => horder other (h.reordered h' hdiffer)⟩
  · exact ⟨_, record?_storeAll rfl hpos hframe, Attributes.records_written _⟩
  · exact lookup_eq_none_iff.mpr hframe

/-- Frame 3 goes as it comes if the worker was before it. -/
def mainWrites : List (Nat × String × Double) :=
  [(5, "input_time_taken", .ofNat 1), (3, "sound_time_taken", .ofNat 2),
    (5, "input_time_taken", .ofNat 4)]

def workerWrites : List (Nat × String × Double) := [(7, "lua_time_taken", .ofNat 8)]

theorem newest_frames_are_kept_interleaved :
    let early := storeAll (new 2) (workerWrites ++ mainWrites)
    early = storeAll (new 2) (mainWrites ++ workerWrites) ∧ early.frameNumbers = [5, 7] ∧
      ∃ a, early.record? 5 = some a ∧ a.lookup "input_time_taken" = some (.ofNat 4) := by
  have hdiffer : ∀ a ∈ mainWrites, ∀ b ∈ workerWrites, storeKey a ≠ storeKey b := by decide +kernel
  have hlate : Interleaves mainWrites workerWrites (mainWrites ++ workerWrites) :=
    .left _ (.left _ (.left _ (.right _ .nil)))
  have hearly : Interleaves mainWrites workerWrites (workerWrites ++ mainWrites) :=
    .right _ (.left _ (.left _ (.left _ .nil)))
  obtain ⟨-, hrecords, -, -, hinterleave⟩ := newest_frames_are_kept 2 (workerWrites ++ mainWrites)
  have hframes : (storeAll (new 2) (workerWrites ++ mainWrites)).frameNumbers = [5, 7] := by
    decide +kernel
  obtain ⟨a, ha, hvalue⟩ := hrecords 5 (by simp [hframes])
  refine ⟨(hinterleave mainWrites workerWrites _ hdiffer hearly hlate).symm, hframes, a, ha, ?_⟩
  exact hvalue.value _

end FrameStats

end FrameLoop
