import FrameLoop.LocalScripts

/-! Rolls: the entries of a registry with numbers that tell which add created them, so that equal
entries can be told apart, and where the cursor of a drain stands among them. -/

namespace FrameLoop

/-- A change of the registry. -/
inductive Edit
  | add (script : String) (entity : Nat)
  | remove (entity : Nat)
  deriving DecidableEq, Repr

def Edit.isAdd : Edit → Bool
  | add _ _ => true
  | remove _ => false

def Edit.apply (r : LocalScripts) : Edit → LocalScripts
  | add script entity => r.add script entity
  | remove entity => (r.remove entity).2

structure Roll where
  /-- Every entry with the number of the add that created it. -/
  entries : List (LocalScript × Nat)
  /-- The number of the next add. -/
  next : Nat
  deriving DecidableEq, Repr

namespace Roll

def empty : Roll := ⟨[], 0⟩

def numbers (r : Roll) : List Nat := r.entries.map Prod.snd

def scripts (r : Roll) : List LocalScript := r.entries.map Prod.fst

def edit (r : Roll) : Edit → Roll
  | .add script entity => ⟨r.entries ++ [(⟨script, entity⟩, r.next)], r.next + 1⟩
  | .remove entity => { r with entries := r.entries.filter fun x => x.1.entity != entity }

def edited (r : Roll) (edits : List Edit) : Roll := edits.foldl edit r

/-- Numbers are given in the order of the adds. -/
structure Orderly (r : Roll) : Prop where
  increasing : r.numbers.Pairwise (· < ·)
  given : ∀ k ∈ r.numbers, k < r.next

theorem Orderly.edit {r : Roll} (h : r.Orderly) (e : Edit) : (r.edit e).Orderly := by
  cases e with
  | add script entity =>
    have hn : (r.edit (.add script entity)).numbers = r.numbers ++ [r.next] := by
      simp [numbers, Roll.edit]
    refine ⟨?_, fun k hk => ?_⟩
    · rw [hn]
      refine List.pairwise_append.mpr ⟨h.increasing, .cons (by simp) .nil, fun a ha b hb => ?_⟩
      rw [List.mem_singleton.mp hb]
      exact h.given a ha
    · rw [hn] at hk
      change k < r.next + 1
      rcases List.mem_append.mp hk with hk | hk
      · exact Nat.lt_succ_of_lt (h.given k hk)
      · rw [List.mem_singleton.mp hk]
        exact Nat.lt_succ_self _
  | remove entity =>
    have hsub : (r.edit (.remove entity)).numbers.Sublist r.numbers :=
      List.filter_sublist.map Prod.snd
    exact ⟨h.increasing.sublist hsub, fun k hk => h.given k (hsub.subset hk)⟩

theorem Orderly.edited {r : Roll} (h : r.Orderly) (edits : List Edit) :
    (r.edited edits).Orderly := by
  induction edits generalizing r with
  | nil => exact h
  | cons e edits ih => exact ih (h.edit e)

theorem next_le_edited (r : Roll) (edits : List Edit) : r.next ≤ (r.edited edits).next := by
  induction edits generalizing r with
  | nil => exact Nat.le_refl _
  | cons e edits ih =>
    have hstep : r.next ≤ (r.edit e).next := by
      cases e with
      | add _ _ => exact Nat.le_succ _
      | remove _ => exact Nat.le_refl _
    exact Nat.le_trans hstep (ih (r.edit e))

theorem edited_append (r : Roll) (edits more : List Edit) :
    r.edited (edits ++ more) = (r.edited edits).edited more := List.foldl_append

theorem next_edited (r : Roll) (edits : List Edit) :
    (r.edited edits).next = r.next + edits.countP Edit.isAdd := by
  induction edits generalizing r with
  | nil => rfl
  | cons e edits ih =>
    have hstep : (r.edit e).next = r.next + if e.isAdd then 1 else 0 := by cases e <;> rfl
    have hrest := ih (r.edit e)
    change ((r.edit e).edited edits).next = _
    rw [List.countP_cons]
    omega

/-- The roll of a registry whose entries are numbered by their positions. -/
def of (scripts : List LocalScript) : Roll := ⟨scripts.zipIdx, scripts.length⟩

theorem scripts_of (scripts : List LocalScript) : (of scripts).scripts = scripts := by
  simp [Roll.scripts, of]

theorem Orderly.of (scripts : List LocalScript) : (of scripts).Orderly := by
  have hn : (Roll.of scripts).numbers = List.range' 0 scripts.length := by
    simp [numbers, Roll.of]
  refine ⟨?_, fun k hk => ?_⟩
  · rw [hn]
    exact List.pairwise_lt_range'
  · rw [hn] at hk
    have := List.mem_range'_1.mp hk
    simpa [Roll.of] using this.2

/-- How many entries have numbers from a place on. -/
def pending (r : Roll) (place : Nat) : Nat := r.numbers.countP (place ≤ ·)

theorem pending_zero (r : Roll) : r.pending 0 = r.entries.length := by
  simp [pending, numbers]

/-- Only adds bring new entries. -/
theorem pending_edit_le (r : Roll) (place : Nat) (e : Edit) :
    (r.edit e).pending place + r.next ≤ r.pending place + (r.edit e).next := by
  cases e with
  | add script entity =>
    have hn : (r.edit (.add script entity)).numbers = r.numbers ++ [r.next] := by
      simp [numbers, Roll.edit]
    have hone := List.countP_le_length (p := fun k => decide (place ≤ k)) (l := [r.next])
    rw [pending, hn, List.countP_append]
    change _ ≤ _ + (r.next + 1)
    rw [List.length_singleton] at hone
    rw [pending]
    omega
  | remove entity =>
    have hsub : (r.edit (.remove entity)).numbers.Sublist r.numbers :=
      List.filter_sublist.map Prod.snd
    exact Nat.add_le_add_right (hsub.countP_le) _

theorem pending_edited_le (r : Roll) (place : Nat) (edits : List Edit) :
    (r.edited edits).pending place + r.next ≤ r.pending place + (r.edited edits).next := by
  induction edits generalizing r with
  | nil => exact Nat.le_refl _
  | cons e edits ih =>
    have hstep := pending_edit_le r place e
    have hrest := ih (r.edit e)
    change (((r.edit e).edited edits).pending place) + _ ≤ _ + ((r.edit e).edited edits).next
    omega

/-- The drain of a registry stands behind the entries whose numbers are below a place. -/
def StandsAt (r : Roll) (place : Nat) (s : LocalScripts) : Prop :=
  ∃ visited rest, r.entries = visited ++ rest ∧ s = ⟨r.scripts, some visited.length⟩ ∧
    (∀ x ∈ visited, x.2 < place) ∧ ∀ x ∈ rest, place ≤ x.2

theorem countOf_map (entity : Nat) (entries : List (LocalScript × Nat)) :
    LocalScripts.countOf entity (entries.map Prod.fst) +
      (entries.filter fun x => x.1.entity != entity).length = entries.length := by
  have hsplit := List.length_eq_countP_add_countP (fun x : LocalScript × Nat => x.1.entity == entity)
    (l := entries)
  rw [LocalScripts.countOf, List.countP_map, ← List.countP_eq_length_filter, hsplit]
  congr 1
  refine List.countP_congr fun x _ => ?_
  simp

/-- An edit does not move the drain among the entries. -/
theorem StandsAt.edit {r : Roll} {place : Nat} {s : LocalScripts} (h : r.StandsAt place s)
    (hp : place ≤ r.next) (e : Edit) : (r.edit e).StandsAt place (e.apply s) := by
  obtain ⟨visited, rest, hr, rfl, hv, hp'⟩ := h
  cases e with
  | add script entity =>
    refine ⟨visited, rest ++ [(⟨script, entity⟩, r.next)], ?_, ?_, hv, fun x hx => ?_⟩
    · simp [Roll.edit, hr]
    · simp [Edit.apply, LocalScripts.add, scripts, Roll.edit]
    · rcases List.mem_append.mp hx with hx | hx
      · exact hp' x hx
      · rw [List.mem_singleton.mp hx]
        exact hp
  | remove entity =>
    let stays : LocalScript × Nat → Bool := fun x => x.1.entity != entity
    refine ⟨visited.filter stays, rest.filter stays, ?_, ?_, fun x hx => ?_, fun x hx => ?_⟩
    · simp only [Roll.edit, hr, List.filter_append, stays]
    · have hcount := countOf_map entity visited
      have htake : r.scripts.take visited.length = visited.map Prod.fst := by
        simp [scripts, hr]
      simp only [Edit.apply, LocalScripts.remove, htake, Option.map_some, LocalScripts.mk.injEq,
        Option.some.injEq]
      refine ⟨?_, ?_⟩
      · simp only [scripts, Roll.edit, List.filter_map]
        rfl
      · simp only [stays]
        omega
    · exact hv x (List.mem_filter.mp hx).1
    · exact hp' x (List.mem_filter.mp hx).1

theorem StandsAt.edited {r : Roll} {place : Nat} {s : LocalScripts} (h : r.StandsAt place s)
    (hp : place ≤ r.next) (edits : List Edit) :
    (r.edited edits).StandsAt place (edits.foldl Edit.apply s) := by
  induction edits generalizing r s with
  | nil => exact h
  | cons e edits ih =>
    exact ih (h.edit hp e) (Nat.le_trans hp (next_le_edited r [e]))

theorem pending_of_split {r : Roll} {place : Nat} {visited rest : List (LocalScript × Nat)}
    (hr : r.entries = visited ++ rest) (hv : ∀ x ∈ visited, x.2 < place)
    (hp : ∀ x ∈ rest, place ≤ x.2) : r.pending place = rest.length := by
  have hnone : (visited.map Prod.snd).countP (place ≤ ·) = 0 := by
    rw [List.countP_map, List.countP_eq_zero]
    intro x hx
    have := hv x hx
    simp
    omega
  have hall : (rest.map Prod.snd).countP (place ≤ ·) = rest.length := by
    rw [List.countP_map, List.countP_eq_length]
    intro x hx
    simpa using hp x hx
  rw [pending, numbers, hr, List.map_append, List.countP_append, hnone, hall, Nat.zero_add]

/-- The drain goes on with the entry of the least number from its place on, and is over if there
is none. -/
theorem StandsAt.next {r : Roll} {place : Nat} {s : LocalScripts} (h : r.StandsAt place s)
    (ho : r.Orderly) :
    (s.next.1 = none ∧ ∀ j ∈ r.numbers, j < place) ∨
      ∃ entry k, s.next.1 = some entry ∧ (entry, k) ∈ r.entries ∧ place ≤ k ∧
        (∀ j ∈ r.numbers, place ≤ j → k ≤ j) ∧ r.StandsAt (k + 1) s.next.2 ∧
        r.pending place = r.pending (k + 1) + 1 := by
  obtain ⟨visited, rest, hr, rfl, hv, hp⟩ := h
  have hscripts : r.scripts = visited.map Prod.fst ++ rest.map Prod.fst := by simp [scripts, hr]
  have hlen : (visited.map Prod.fst).length = visited.length := by simp
  cases rest with
  | nil =>
    have hget : r.scripts[visited.length]? = none := by simp [hscripts]
    refine .inl ⟨by simp [LocalScripts.next, hget], fun j hj => ?_⟩
    obtain ⟨x, hx, rfl⟩ := List.mem_map.mp hj
    rw [hr, List.append_nil] at hx
    exact hv x hx
  | cons x rest =>
    obtain ⟨entry, k⟩ := x
    have hget : r.scripts[visited.length]? = some entry := by simp [hscripts]
    have hk : place ≤ k := hp (entry, k) List.mem_cons_self
    have hnumbers : r.numbers = visited.map Prod.snd ++ k :: rest.map Prod.snd := by
      simp [numbers, hr]
    have hlater : ∀ x ∈ rest, k < x.2 := by
      have hinc := ho.increasing
      rw [hnumbers] at hinc
      have hcons := (List.pairwise_append.mp hinc).2.1
      intro x hx
      exact (List.pairwise_cons.mp hcons).1 x.2 (List.mem_map_of_mem hx)
    have hv' : ∀ x ∈ visited ++ [(entry, k)], x.2 < k + 1 := by
      intro x hx
      rcases List.mem_append.mp hx with hx | hx
      · have := hv x hx
        omega
      · rw [List.mem_singleton.mp hx]
        exact Nat.lt_succ_self k
    have hr' : r.entries = (visited ++ [(entry, k)]) ++ rest := by simp [hr]
    refine .inr ⟨entry, k, ?_, ?_, hk, fun j hj hpj => ?_, ?_, ?_⟩
    · simp [LocalScripts.next, hget]
    · simp [hr]
    · rw [hnumbers] at hj
      rcases List.mem_append.mp hj with hj | hj
      · obtain ⟨x, hx, rfl⟩ := List.mem_map.mp hj
        have := hv x hx
        omega
      · rcases List.mem_cons.mp hj with rfl | hj
        · exact Nat.le_refl j
        · obtain ⟨x, hx, rfl⟩ := List.mem_map.mp hj
          exact Nat.le_of_lt (hlater x hx)
    · refine ⟨visited ++ [(entry, k)], rest, hr', ?_, hv', hlater⟩
      simp [LocalScripts.next, hget]
    · rw [pending_of_split hr hv hp, pending_of_split hr' hv' hlater, List.length_cons]

end Roll

end FrameLoop
