import FrameLoop.Proofs.PhaseStores
import Mathlib.Tactic.IntervalCases

/-! Which phases of a frame are entered: the first in any case, and any other if and only if the one
before it came to its end. -/

namespace FrameLoop

variable {σ κ : Type}

def Task.phase? : Task → Option Phase
  | .call (.updateInput _ _) => some .input
  | .call .pausePlayback | .call .resumePlayback | .call (.updateAudio _) => some .sound
  | .call (.updateState _) => some .state
  | .runScript _ | .call .runGlobalScripts | .call .markCellUnchanged | .call (.advanceTime _)
  | .call (.rechargeItems _) => some .script
  | .call (.updateMechanics _ _) | .call .endSession => some .mechanics
  | .stepPhysics _ _ _ => some .physics
  | .call (.updateWorld _ _) => some .world
  | .call (.updateGui _) => some .gui
  | _ => none

/-- The place of a phase among the segments of a frame, and the update of the scripting engine after
them. -/
def Phase.segment : Phase → Nat
  | .input => 0
  | .sound => 1
  | .state => 3
  | .script => 4
  | .mechanics => 5
  | .physics => 6
  | .world => 7
  | .gui => 8
  | .lua => 9
  | .physicsWorker => 10

def Task.segment (t : Task) : Nat :=
  if t = .call .synchronize then 2 else (t.phase?.map Phase.segment).getD 10

theorem Phase.segment_injective {p q : Phase} (h : p.segment = q.segment) : p = q := by
  cases p <;> cases q <;> simp_all [segment]

theorem Task.segment_eq_iff {t : Task} {p : Phase} (hp : p.segment < 10) :
    t.segment = p.segment ↔ t.phase? = some p := by
  by_cases ht : t = .call .synchronize
  · subst ht
    have hne : p.segment ≠ 2 := by cases p <;> decide
    exact ⟨fun h => absurd h.symm hne, nofun⟩
  · rw [segment, if_neg ht]
    cases hq : t.phase? with
    | none => simpa using (Nat.ne_of_lt hp).symm
    | some q =>
      refine ⟨fun h => congrArg some (Phase.segment_injective h), fun h => ?_⟩
      rw [Option.some.inj h]
      rfl

/-- The phases that are entered on the first segments of a frame. -/
def Phase.within (i : Nat) : List Phase := course.take (if i ≤ 2 then i else i - 1)

theorem Phase.mem_within {i : Nat} (hi : i ≤ 10) {p : Phase} (hp : p ∈ course) :
    p ∈ within i ↔ p.segment < i := by
  have hall : ∀ i ≤ 10, ∀ p ∈ course, p ∈ within i ↔ p.segment < i := by decide
  exact hall i hi p hp

/-- Nothing that was done in the phase has failed. -/
def Unfailed (deeds : List (Deed σ)) (phase : Phase) : Prop :=
  ∀ d ∈ deeds, d.task.phase? = some phase → d.answer = .ok ()

/-- The phases that are entered in a frame in which these deeds were done and which ended in this
way. -/
structure Entered (F : Facades σ κ) (dt : Single) (deeds : List (Deed σ))
    (outcome : Option FrameOutcome) (phases : List Phase) : Prop where
  order : phases <+: Phase.course
  input : .input ∈ phases
  sound : .sound ∈ phases ↔ ∃ d ∈ deeds, d.task = .call (.updateInput dt false) ∧ d.answer = .ok ()
  state : .state ∈ phases ↔ .sound ∈ phases ∧
    (∃ d ∈ deeds, d.task = .call .resumePlayback ∧ F.windowVisible d.before = true) ∧
    Unfailed deeds .sound ∧ ∃ d ∈ deeds, d.task = .call .synchronize ∧ d.answer = .ok ()
  script : .script ∈ phases ↔ .state ∈ phases ∧ Unfailed deeds .state
  /-- Without an outcome the local scripts never come to an end. -/
  mechanics : .mechanics ∈ phases ↔ .script ∈ phases ∧ Unfailed deeds .script ∧ outcome ≠ none
  physics : .physics ∈ phases ↔ .mechanics ∈ phases ∧ Unfailed deeds .mechanics
  world : .world ∈ phases ↔ .physics ∈ phases ∧ Unfailed deeds .physics
  gui : .gui ∈ phases ↔ .world ∈ phases ∧ Unfailed deeds .world
  lua : .lua ∈ phases ↔ outcome = some .completed

namespace Orchestrator

variable {F : Facades σ κ} {o : Orchestrator} {dt : Single} {stamp : Stamp}
  {counting : Bool} {m m' : Moment σ} {deeds : List (Deed σ)} {r : Except Stop Bool} {i : Nat}

theorem segments_marked : Marked Task.segment 0 (frameSegments F o dt stamp counting) := by
  simp [Marked, frameSegments, inputAgenda, soundAgenda, scriptAgenda, timeAgenda, mechanicsAgenda,
    physicsAgenda, worldAgenda, always, Item.Meets, Task.segment, Task.phase?, Phase.segment]

theorem segments_drain {j : Nat} {segment : Segment σ}
    (hj : (frameSegments F o dt stamp counting)[j]? = some segment)
    (hdrain : ∃ patience gate, Item.drain patience gate ∈ segment.items) : j = 4 := by
  obtain ⟨patience, gate, hdrain⟩ := hdrain
  have hlt : j < 10 := (List.getElem?_eq_some_iff.mp hj).1
  by_contra hne
  interval_cases j <;> try exact hne rfl
  all_goals
    obtain rfl := Option.some.inj hj
    simp [inputAgenda, soundAgenda, mechanicsAgenda, physicsAgenda, worldAgenda, always] at hdrain

theorem follows_always {c : Call} (h : Follows F [always c] m deeds r m') :
    ∃ d, deeds = [d] ∧ d.task = .call c ∧ (r = .ok true ↔ d.answer = .ok ()) := by
  cases h with
  | closed hg => cases hg
  | task _ _ hdone =>
    cases hdone
    exact ⟨_, rfl, rfl, by simp⟩
  | failed => exact ⟨_, rfl, rfl, by simp⟩

/-- The sound comes to its end if and only if the window is visible and nothing fails. -/
theorem follows_sound {useSound : Bool} (h : Follows F (soundAgenda F useSound dt) m deeds r m') :
    r = .ok true ↔ (∃ d ∈ deeds, d.task = .call .resumePlayback ∧ F.windowVisible d.before = true) ∧
      ∀ d ∈ deeds, d.answer = .ok () := by
  obtain ⟨w, n⟩ := m
  cases h with
  | note h =>
  by_cases hv : F.windowVisible w = true
  · cases h with
    | task hg | failed hg => simp [hv] at hg
    | closed _ h =>
    cases h with
    | halted hg => simp [hv] at hg
    | unhalted _ h =>
    cases h with
    | closed hg => cases hg
    | failed => simp
    | task _ _ h =>
    cases h with
    | failed => simp
    | closed _ hdone | task _ _ hdone =>
      cases hdone
      simp [hv]
  · cases h with
    | closed hg => simp [hv] at hg
    | failed => simp
    | task _ _ h =>
    cases h with
    | unhalted hg => simp [hv] at hg
    | halted => simp

theorem ofResult_ne_none_iff : FrameOutcome.ofResult r ≠ none ↔ r ≠ .error .endless := by
  rcases r with (_ | _) | (_ | _) <;> simp [FrameOutcome.ofResult]

/-- All segments are entered if and only if the frame is completed. -/
theorem passes_all_iff (h : Passes F (frameSegments F o dt stamp counting) m deeds r m' i) :
    i = 10 ↔ FrameOutcome.ofResult r = some .completed := by
  constructor
  · rintro rfl
    obtain ⟨m₁, m₂, r', hf, hr, -⟩ := h.segment segments_marked (i := 9) rfl (by decide)
    have htrue : r' = .ok true := by
      generalize deeds.filter (fun d => d.task.segment = 0 + 9) = done at hf
      cases hf with
      | meanwhile _ hdone =>
        cases hdone
        rfl
    rcases hr.mp htrue with hlt | rfl
    · omega
    · rfl
  · intro hcompleted
    exact h.eq_length (Engine.eq_true_of_completed hcompleted.symm)

theorem sound_leads_on (h : Passes F (frameSegments F o dt stamp counting) m deeds r m' i) :
    2 < i ↔ 1 < i ∧
      (∃ d ∈ deeds, d.task = .call .resumePlayback ∧ F.windowVisible d.before = true) ∧
        ∀ d ∈ deeds, d.task.segment = 0 + 1 → d.answer = .ok () := by
  by_cases hentered : 1 < i
  · obtain ⟨m₁, m₂, r', hf, hr, -⟩ :=
      h.next segments_marked (i := 1) rfl (by decide : 1 + 1 < 10) hentered
    have hsegment : ∀ d : Deed σ, d.task = .call .resumePlayback → d.task.segment = 1 := by
      intro d hd
      rw [hd]
      rfl
    rw [← hr, follows_sound hf]
    simp only [List.mem_filter, decide_eq_true_eq, and_imp, hentered, true_and]
    refine and_congr_left fun _ => exists_congr fun d => ?_
    constructor
    · rintro ⟨⟨hd, -⟩, hresumed⟩
      exact ⟨hd, hresumed⟩
    · rintro ⟨hd, hresumed⟩
      exact ⟨⟨hd, hsegment d hresumed.1⟩, hresumed⟩
  · exact ⟨fun hi => absurd (by omega) hentered, fun hi => absurd hi.1 hentered⟩

theorem synchronization_leads_on (h : Passes F (frameSegments F o dt stamp counting) m deeds r m' i) :
    3 < i ↔ ∃ d ∈ deeds, d.task = .call .synchronize ∧ d.answer = .ok () := by
  refine h.next_iff_done segments_marked (i := 2) rfl (by decide : 2 + 1 < 10) rfl fun hf => ?_
  cases hf with
  | note hf => exact follows_always hf

/-- Which phases are entered can be told from the deeds, whatever else was done out of the
segments. -/
theorem entered (h : Passes F (frameSegments F o dt stamp counting) m deeds r m' i)
    {all : List (Deed σ)} (hall : ∀ d : Deed σ, d.task.segment < 10 → (d ∈ all ↔ d ∈ deeds)) :
    Entered F dt all (FrameOutcome.ofResult r) (Phase.within i) := by
  have hmark : Marked Task.segment 0 (frameSegments F o dt stamp counting) := segments_marked
  have hmem {p : Phase} (hp : p ∈ Phase.course) : p ∈ Phase.within i ↔ p.segment < i :=
    Phase.mem_within h.le_length hp
  have hunfailed {p : Phase} (hp : p.segment < 10) : Unfailed all p ↔
      ∀ d ∈ deeds, d.task.segment = 0 + p.segment → d.answer = .ok () := by
    rw [Nat.zero_add]
    simp only [Unfailed, ← Task.segment_eq_iff hp]
    constructor
    · intro hok d hd hsegment
      exact hok d ((hall d (by omega)).mpr hd) hsegment
    · intro hok d hd hsegment
      exact hok d ((hall d (by omega)).mp hd) hsegment
  have hdone {c : Call} {j : Nat} (hc : Task.segment (.call c) = j) (hj : j < 10) (P : Deed σ → Prop) :
      (∃ d ∈ all, d.task = .call c ∧ P d) ↔ ∃ d ∈ deeds, d.task = .call c ∧ P d := by
    have hiff (d : Deed σ) (hd : d.task = .call c) : d ∈ all ↔ d ∈ deeds := by
      refine hall d ?_
      rw [hd, hc]
      exact hj
    constructor
    · rintro ⟨d, hd, ht, hP⟩
      exact ⟨d, (hiff d ht).mp hd, ht, hP⟩
    · rintro ⟨d, hd, ht, hP⟩
      exact ⟨d, (hiff d ht).mpr hd, ht, hP⟩
  have hplain {p : Phase} (j : Nat) (segment : Segment σ) (hp : p.segment = j) (hj : j < 9)
      (hsegment : (frameSegments F o dt stamp counting)[j]? = some segment)
      (hhalt : ∀ gate, Item.halt gate ∉ segment.items)
      (hdrain : ∀ patience gate, Item.drain patience gate ∉ segment.items) :
      j + 1 < i ↔ p.segment < i ∧ Unfailed all p := by
    subst hp
    rw [h.next_iff hmark hsegment (Nat.succ_lt_succ hj) hhalt hdrain, hunfailed (by omega)]
  refine ⟨List.take_prefix .., ?_, ?_, ?_, ?_, ?_, ?_, ?_, ?_, ?_⟩
  · rw [hmem (by decide)]
    rcases h.pos with hpos | hr
    · exact hpos
    · rw [h.eq_length hr]
      exact (by decide : 0 < 10)
  · rw [hmem (by decide), hdone (j := 0) rfl (by decide)]
    exact h.next_iff_done hmark (i := 0) rfl (by decide : 0 + 1 < 10) rfl follows_always
  · rw [hmem (by decide), hmem (by decide), hdone (j := 1) rfl (by decide),
      hdone (j := 2) rfl (by decide), hunfailed (by decide)]
    constructor
    · intro (hi : 3 < i)
      obtain ⟨hpos, hresumed, hok⟩ := (sound_leads_on h).mp (by omega)
      exact ⟨hpos, hresumed, hok, (synchronization_leads_on h).mp hi⟩
    · rintro ⟨-, -, -, hsync⟩
      exact (synchronization_leads_on h).mpr hsync
  · rw [hmem (by decide), hmem (by decide)]
    exact hplain 3 _ rfl (by decide) rfl (by simp [always]) (by simp [always])
  · rw [hmem (by decide), hmem (by decide), hunfailed (by decide), ofResult_ne_none_iff]
    exact h.next_iff_of_drain hmark (i := 4) rfl (by decide : 4 + 1 < 10)
      (by simp [scriptAgenda, timeAgenda]) fun _ _ => segments_drain
  · rw [hmem (by decide), hmem (by decide)]
    exact hplain 5 _ rfl (by decide) rfl (by simp [mechanicsAgenda]) (by simp [mechanicsAgenda])
  · rw [hmem (by decide), hmem (by decide)]
    exact hplain 6 _ rfl (by decide) rfl (by simp [physicsAgenda]) (by simp [physicsAgenda])
  · rw [hmem (by decide), hmem (by decide)]
    exact hplain 7 _ rfl (by decide) rfl (by simp [worldAgenda]) (by simp [worldAgenda])
  · rw [hmem (by decide)]
    have hlength : i ≤ 10 := h.le_length
    rw [← passes_all_iff h]
    constructor
    · intro (hi : 9 < i)
      omega
    · rintro rfl
      decide

end Orchestrator

end FrameLoop
