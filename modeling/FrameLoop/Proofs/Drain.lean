import FrameLoop.Headless
import FrameLoop.Proofs.FrameOrder
import FrameLoop.Proofs.Roll
import FrameLoop.Telemetry.FrameStats

/-! What a drain of the local scripts runs: the entries that are on the roll when their turn comes,
in the order in which they were registered. -/

namespace FrameLoop

variable {σ κ : Type} {F : Facades σ κ} {edits : LocalScript → LocalScripts × σ → List Edit}

/-- The world keeps its registry, which scripts change by adds and removes only. -/
structure Scripted (F : Facades σ κ) (edits : LocalScript → LocalScripts × σ → List Edit) :
    Prop where
  kept : ∀ r w, F.localScripts (F.withLocalScripts r w) = r
  changes : ∀ entry r w,
    (F.runScript entry (r, w)).world.1 = (edits entry (r, w)).foldl Edit.apply r

/-- How a script that was run has changed the registry. -/
def Deed.changes (F : Facades σ κ) (edits : LocalScript → LocalScripts × σ → List Edit)
    (d : Deed σ) : List Edit :=
  match d.task with
  | .runScript entry => edits entry (F.localScripts d.before, d.before)
  | _ => []

namespace Roll

/-- The roll when scripts have been run. -/
def after (F : Facades σ κ) (edits : LocalScript → LocalScripts × σ → List Edit) (roll : Roll)
    (deeds : List (Deed σ)) : Roll :=
  roll.edited (deeds.flatMap (Deed.changes F edits))

theorem after_cons (roll : Roll) (d : Deed σ) (deeds : List (Deed σ)) :
    roll.after F edits (d :: deeds) = (roll.edited (d.changes F edits)).after F edits deeds := by
  rw [after, List.flatMap_cons, edited_append]
  rfl

end Roll

/-- What is run from a place on: the numbers of the entries, and whether the drain is over. -/
structure Visits (F : Facades σ κ) (edits : LocalScript → LocalScripts × σ → List Edit)
    (roll : Roll) (place : Nat) (runs : List (Deed σ)) (ids : List Nat) (spent : Bool) : Prop where
  length : ids.length = runs.length
  /-- Every run is of the entry with its number, which is still on the roll. -/
  entry : ∀ k d, runs[k]? = some d → ∃ entry id, ids[k]? = some id ∧ d.task = .runScript entry ∧
    (entry, id) ∈ (roll.after F edits (runs.take k)).entries
  increasing : ids.Pairwise (· < ·)
  from_place : ∀ id ∈ ids, place ≤ id
  /-- The turn of an entry comes when those of smaller numbers have been run; it is run if it is
  on the roll then. -/
  exact : ∀ j, place ≤ j → (spent = true ∨ ∃ id ∈ ids, j ≤ id) →
    (j ∈ ids ↔ j ∈ (roll.after F edits (runs.take (ids.countP (· < j)))).numbers)
  few : runs.length + roll.next ≤ roll.pending place + (roll.after F edits runs).next

namespace Visits

variable {roll : Roll} {place : Nat} {runs : List (Deed σ)} {ids : List Nat} {spent : Bool}

theorem nil (h : spent = true → ∀ j ∈ roll.numbers, j < place) :
    Visits F edits roll place [] [] spent where
  length := rfl
  entry := by simp
  increasing := .nil
  from_place := by simp
  exact := by
    intro j hj ho
    have hspent : spent = true := by simpa using ho
    have hnot : j ∉ roll.numbers := fun hm => Nat.not_lt.mpr hj (h hspent j hm)
    simpa [Roll.after, Roll.edited] using hnot
  few := by
    have hsame : (roll.after F edits []).next = roll.next := rfl
    rw [hsame, List.length_nil]
    omega

theorem cons {d : Deed σ} {entry : LocalScript} {k : Nat} (ht : d.task = .runScript entry)
    (he : (entry, k) ∈ roll.entries) (hk : place ≤ k)
    (hleast : ∀ j ∈ roll.numbers, place ≤ j → k ≤ j)
    (hpending : roll.pending place = roll.pending (k + 1) + 1)
    (h : Visits F edits (roll.edited (d.changes F edits)) (k + 1) runs ids spent) :
    Visits F edits roll place (d :: runs) (k :: ids) spent where
  length := by simp [h.length]
  entry := by
    intro i d' hd'
    cases i with
    | zero =>
      obtain rfl : d = d' := by simpa using hd'
      exact ⟨entry, k, rfl, ht, he⟩
    | succ i =>
      obtain ⟨entry', id, hid, ht', hmem⟩ := h.entry i d' (by simpa using hd')
      refine ⟨entry', id, by simpa using hid, ht', ?_⟩
      rw [List.take_succ_cons, Roll.after_cons]
      exact hmem
  increasing := .cons (fun id hid => h.from_place id hid) h.increasing
  from_place := by
    intro id hid
    rcases List.mem_cons.mp hid with rfl | hid
    · exact hk
    · have := h.from_place id hid
      omega
  exact := by
    intro j hj ho
    have hzero : j ≤ k → (k :: ids).countP (· < j) = 0 := by
      intro hjk
      rw [List.countP_eq_zero]
      intro id hid
      rcases List.mem_cons.mp hid with rfl | hid
      · simpa using hjk
      · have := h.from_place id hid
        simp
        omega
    rcases Nat.lt_trichotomy j k with hlt | rfl | hgt
    · have hnot : j ∉ k :: ids := by
        intro hm
        rcases List.mem_cons.mp hm with rfl | hm
        · exact Nat.lt_irrefl _ hlt
        · have := h.from_place j hm
          omega
      rw [hzero (Nat.le_of_lt hlt), iff_false_left hnot]
      intro hm
      exact absurd (hleast j hm hj) (Nat.not_le.mpr hlt)
    · rw [hzero (Nat.le_refl _)]
      have hmem : j ∈ roll.numbers := List.mem_map_of_mem he
      exact iff_of_true List.mem_cons_self hmem
    · have hcount : (k :: ids).countP (· < j) = ids.countP (· < j) + 1 := by
        simp [hgt]
      have hrest : spent = true ∨ ∃ id ∈ ids, j ≤ id := by
        rcases ho with ho | ⟨id, hid, hle⟩
        · exact .inl ho
        · rcases List.mem_cons.mp hid with rfl | hid
          · omega
          · exact .inr ⟨id, hid, hle⟩
      have hiff := h.exact j hgt hrest
      rw [hcount, List.take_succ_cons, Roll.after_cons, ← hiff]
      simp [Nat.ne_of_gt hgt]
  few := by
    have hrest := h.few
    have hedits := roll.pending_edited_le (k + 1) (d.changes F edits)
    rw [Roll.after_cons, List.length_cons]
    omega

end Visits

theorem Does.script {w w' : σ} {entry : LocalScript} {answer : Except Failure Unit}
    (h : Does F w (.runScript entry) answer w') :
    w' = F.withLocalScripts (F.runScript entry (F.localScripts w, w)).world.1
      (F.runScript entry (F.localScripts w, w)).world.2 := by
  cases h
  rfl

/-- A run goes on from where the edits of its script leave the registry. -/
theorem Scripted.registry (hs : Scripted F edits) {w w' : σ} {entry : LocalScript}
    {answer : Except Failure Unit} (h : Does F w (.runScript entry) answer w') :
    F.localScripts w' = (edits entry (F.localScripts w, w)).foldl Edit.apply (F.localScripts w) := by
  rw [h.script, hs.kept, hs.changes]

/-- Whether a drain came to its end. -/
def isOver : Except Stop Unit → Bool
  | .ok _ => true
  | .error _ => false

theorem Drains.visits (hs : Scripted F edits) {patience : Nat} {w w' : σ} {runs : List (Deed σ)}
    {ending : Except Stop Unit} (h : Drains F patience w runs ending w') {roll : Roll} {place : Nat}
    (ho : roll.Orderly) (hat : roll.StandsAt place (F.localScripts w)) :
    ∃ ids, Visits F edits roll place runs ids (isOver ending) := by
  induction h generalizing roll place with
  | endless w => exact ⟨[], .nil (by simp [isOver])⟩
  | spent hn =>
    rcases hat.next ho with ⟨-, hnone⟩ | ⟨entry, k, hsome, -⟩
    · exact ⟨[], .nil fun _ => hnone⟩
    · rw [hn] at hsome
      cases hsome
  | @run _ w w' _ r entry deeds _ hn hd _ ih =>
    rcases hat.next ho with ⟨hnone, -⟩ | ⟨entry', k, hsome, hmem, hk, hleast, hat', hpending⟩
    · rw [hn] at hnone
      cases hnone
    · rw [hn] at hsome hat'
      obtain rfl : entry = entry' := Option.some.inj hsome
      have hreg := hs.registry hd
      rw [hs.kept] at hreg
      have hlt : k + 1 ≤ roll.next := ho.given k (List.mem_map_of_mem hmem)
      have hat'' := hat'.edited hlt (edits entry (r, F.withLocalScripts r w))
      rw [← hreg] at hat''
      obtain ⟨ids, hv⟩ := ih (ho.edited _) hat''
      have hedits : (Deed.changes F edits ⟨F.withLocalScripts r w, .runScript entry, .ok ()⟩) =
          edits entry (r, F.withLocalScripts r w) := by rw [Deed.changes, hs.kept]
      rw [← hedits] at hv
      exact ⟨k :: ids, .cons rfl hmem hk hleast hpending hv⟩
  | @failed _ w w' r entry f hn hd =>
    rcases hat.next ho with ⟨hnone, -⟩ | ⟨entry', k, hsome, hmem, hk, hleast, hat', hpending⟩
    · rw [hn] at hnone
      cases hnone
    · rw [hn] at hsome
      obtain rfl : entry = entry' := Option.some.inj hsome
      exact ⟨[k], .cons rfl hmem hk hleast hpending (.nil (by simp [isOver]))⟩

/-- What is run in a drain that starts in a world. -/
structure DrainLaw (F : Facades σ κ) (edits : LocalScript → LocalScripts × σ → List Edit)
    (patience : Nat) (w : σ) (runs : List (Deed σ)) (ending : Except Stop Unit) : Prop where
  /-- Whichever adds the entries come from, the cursor that was left behind is of no account. -/
  visits : ∀ roll : Roll, roll.Orderly → roll.scripts = (F.localScripts w).entries →
    ∃ ids, Visits F edits roll 0 runs ids (isOver ending)
  few : runs.length ≤
    (F.localScripts w).entries.length + (runs.flatMap (Deed.changes F edits)).countP Edit.isAdd
  cut : CutShort runs ending
  endless : ending = .error .endless → runs.length = patience

theorem Drains.endless_length {patience : Nat} {w w' : σ} {runs : List (Deed σ)}
    {ending : Except Stop Unit} (h : Drains F patience w runs ending w') :
    ending = .error .endless → runs.length = patience := by
  induction h with
  | endless => simp
  | spent => simp
  | run _ _ _ ih => simpa using ih
  | failed => simp

theorem Drains.law (hs : Scripted F edits) {patience : Nat} {w w' : σ} {runs : List (Deed σ)}
    {ending : Except Stop Unit}
    (h : Drains F patience (F.withLocalScripts (F.localScripts w).start w) runs ending w') :
    DrainLaw F edits patience w runs ending := by
  have hvisits : ∀ roll : Roll, roll.Orderly → roll.scripts = (F.localScripts w).entries →
      ∃ ids, Visits F edits roll 0 runs ids (isOver ending) := by
    intro roll ho hr
    have hat : roll.StandsAt 0 (F.localScripts (F.withLocalScripts (F.localScripts w).start w)) := by
      refine ⟨[], roll.entries, rfl, ?_, by simp, by simp⟩
      rw [hs.kept, LocalScripts.start, hr]
      rfl
    exact h.visits hs ho hat
  refine ⟨hvisits, ?_, h.cutShort, h.endless_length⟩
  obtain ⟨ids, hv⟩ := hvisits (.of (F.localScripts w).entries) (.of _) (Roll.scripts_of _)
  have hfew := hv.few
  rw [Roll.after, Roll.next_edited, Roll.pending_zero] at hfew
  have hlen := congrArg List.length (Roll.scripts_of (F.localScripts w).entries)
  simp only [Roll.scripts, List.length_map] at hlen
  omega

/-- The local script that is run. -/
def Task.script? : Task → Option LocalScript
  | .runScript entry => some entry
  | .call _ | .stepPhysics _ _ _ => none

/-- An item in which no local script is run. -/
def Item.Scriptless : Item σ → Prop
  | .task _ f => ∀ m, (f m).script? = none
  | .drain _ _ => False
  | .note _ | .halt _ | .meanwhile _ => True

theorem Follows.scriptless {items : List (Item σ)} {m m' : Moment σ} {deeds : List (Deed σ)}
    {r : Except Stop Bool} (h : Follows F items m deeds r m')
    (hi : ∀ item ∈ items, item.Scriptless) : ∀ d ∈ deeds, d.task.script? = none := by
  induction h with
  | done | halted => simp
  | note _ ih | closed _ _ ih | unhalted _ _ ih | meanwhile _ _ ih =>
    exact ih fun item hm => hi item (List.mem_cons_of_mem _ hm)
  | undrained | drained | stuck => exact (hi _ List.mem_cons_self).elim
  | @task _ _ _ m _ _ _ _ _ _ _ ih =>
    intro d hd
    rcases List.mem_cons.mp hd with rfl | hd
    · exact hi _ List.mem_cons_self m
    · exact ih (fun item hm => hi item (List.mem_cons_of_mem _ hm)) d hd
  | @failed _ _ _ m _ _ _ _ =>
    intro d hd
    obtain rfl := List.mem_singleton.mp hd
    exact hi _ List.mem_cons_self m

namespace Orchestrator

/-- What a frame does before it gets to the local scripts. -/
def preludeAgenda (F : Facades σ κ) (o : Orchestrator) (dt : Single) : List (Item σ) :=
  openingAgenda F o dt ++ [.note fun m => { m.notes with scriptsEnabled := F.scriptsEnabled m.world }]

/-- When a frame that got to the local scripts drains them. -/
def drainGate (m : Moment σ) : Bool :=
  m.notes.sessionActive && !m.notes.paused && m.notes.scriptsEnabled

/-- What a frame does after the local scripts. -/
def postludeAgenda (F : Facades σ κ) (dt : Single) (stamp : Stamp) : List (Item σ) :=
  (scriptAgenda F 0 dt).drop 2 ++ (mechanicsAgenda F dt ++
    (physicsAgenda dt stamp ++ (worldAgenda dt ++ guiAgenda dt stamp)))

theorem agenda_eq (F : Facades σ κ) (o : Orchestrator) (dt : Single) (stamp : Stamp) :
    agenda F o dt stamp =
      preludeAgenda F o dt ++ (.drain o.patience drainGate :: postludeAgenda F dt stamp) := by
  rw [agenda, preludeAgenda, List.append_assoc]
  rfl

theorem prelude_scriptless (F : Facades σ κ) (o : Orchestrator) (dt : Single) :
    ∀ item ∈ preludeAgenda F o dt, item.Scriptless := by
  simp [preludeAgenda, openingAgenda, inputAgenda, soundAgenda, stateAgenda, always,
    Item.Scriptless, Task.script?]

theorem postlude_scriptless (F : Facades σ κ) (dt : Single) (stamp : Stamp) :
    ∀ item ∈ postludeAgenda F dt stamp, item.Scriptless := by
  simp [postludeAgenda, scriptAgenda, timeAgenda, mechanicsAgenda, physicsAgenda, worldAgenda,
    guiAgenda, always, Item.Scriptless, Task.script?]

/-- The part of the local scripts in a frame that starts at a moment. -/
inductive FrameLaw (F : Facades σ κ) (edits : LocalScript → LocalScripts × σ → List Edit)
    (o : Orchestrator) (dt : Single) (m : Moment σ) (deeds : List (Deed σ)) : Prop
  /-- The frame ends before it gets to them. -/
  | unreached {r : Except Stop Bool} {m' : Moment σ} :
    Follows F (preludeAgenda F o dt) m deeds r m' → r ≠ .ok true →
    (∀ d ∈ deeds, d.task.script? = none) → FrameLaw F edits o dt m deeds
  /-- The frame leaves them out. -/
  | shut {before after : List (Deed σ)} {m' : Moment σ} :
    deeds = before ++ after → Follows F (preludeAgenda F o dt) m before (.ok true) m' →
    drainGate m' = false → (∀ d ∈ deeds, d.task.script? = none) → FrameLaw F edits o dt m deeds
  | drained {before runs after : List (Deed σ)} {ending : Except Stop Unit} {m' : Moment σ} :
    deeds = before ++ (runs ++ after) → Follows F (preludeAgenda F o dt) m before (.ok true) m' →
    drainGate m' = true → (∀ d ∈ before ++ after, d.task.script? = none) →
    DrainLaw F edits (o.patience + 1) m'.world runs ending → (isOver ending = false → after = []) →
      FrameLaw F edits o dt m deeds

theorem frameLaw_of_follows (hs : Scripted F edits) {o : Orchestrator} {dt : Single} {stamp : Stamp}
    {m m' : Moment σ} {deeds : List (Deed σ)} {r : Except Stop Bool}
    (h : Follows F (agenda F o dt stamp) m deeds r m') : FrameLaw F edits o dt m deeds := by
  rw [agenda_eq] at h
  rcases h.split with ⟨h, hr⟩ | ⟨before, rest, m₁, rfl, hpre, hrest⟩
  · exact .unreached h hr (h.scriptless (prelude_scriptless F o dt))
  · have hbefore := hpre.scriptless (prelude_scriptless F o dt)
    have hboth : ∀ {after : List (Deed σ)}, (∀ d ∈ after, d.task.script? = none) →
        ∀ d ∈ before ++ after, d.task.script? = none := by
      intro after ha d hd
      rcases List.mem_append.mp hd with hd | hd
      · exact hbefore d hd
      · exact ha d hd
    cases hrest with
    | undrained hg hpost =>
      exact .shut rfl hpre hg (hboth (hpost.scriptless (postlude_scriptless F dt stamp)))
    | drained hg hd hpost =>
      exact .drained rfl hpre hg (hboth (hpost.scriptless (postlude_scriptless F dt stamp)))
        (hd.law hs) (by simp [isOver])
    | @stuck _ _ _ _ runs _ _ hg hd =>
      exact .drained (by rw [List.append_nil]) hpre hg (hboth (by simp)) (hd.law hs) fun _ => rfl

variable [StatsSink κ]

/-- Frames one after the other: their steps, the moments in which they start, and what they do.
Between two frames the world becomes another one, with whatever scripts. -/
def frames (F : Facades σ κ) (o : Orchestrator) :
    List (Single × Stamp × σ) → Scene (Chronicle σ) κ → List (Single × Moment σ × List (Deed σ))
  | [], _ => []
  | (dt, stamp, w) :: rest, s =>
    let s' := (frame F.chronicled o dt stamp s).2
    (dt, ⟨s.world.world, .blank⟩, s'.world.deeds.drop s.world.deeds.length) ::
      frames F o rest { s' with world := ⟨w, s'.world.deeds⟩ }

/-- In every frame that gets to the local scripts, those are run that are registered when their
turn comes, each once and in the order of their registration, up to one that fails; and scripts
are run nowhere else. -/
theorem local_scripts_are_drained (hs : Scripted F edits) (o : Orchestrator)
    (plan : List (Single × Stamp × σ)) (s : Scene (Chronicle σ) κ) :
    ∀ f ∈ frames F o plan s, FrameLaw F edits o f.1 f.2.1 f.2.2 := by
  induction plan generalizing s with
  | nil => simp [frames]
  | cons p plan ih =>
    obtain ⟨dt, stamp, w⟩ := p
    intro f hf
    rw [frames] at hf
    rcases List.mem_cons.mp hf with rfl | hf
    · obtain ⟨deeds, r, m, hw, hfollows, -⟩ := frame_follows F o dt stamp .blank s
      have hdeeds : (frame F.chronicled o dt stamp s).2.world.deeds.drop s.world.deeds.length =
          deeds := by rw [hw, List.drop_left]
      dsimp only
      rw [hdeeds]
      exact frameLaw_of_follows hs hfollows
    · exact ih _ f hf

/-- What the scripts of a small scene do to the registry. -/
def spawnerEdits : LocalScript → List Edit
  | ⟨"spawner", _⟩ => [.add "spawned" 7, .remove 2]
  | _ => []

/-- Subsystems whose scripts spawn others, and where a trap fails. -/
def spawningScripts : Facades Headless.World FrameStats := { Headless.facades with
  runScript := fun entry rw =>
    ⟨if entry.script = "trap" then .error ⟨"caught", []⟩ else .ok (),
      ((spawnerEdits entry).foldl Edit.apply rw.1, rw.2), []⟩ }

def runningWith (entries : List LocalScript) : Headless.World :=
  { Headless.World.new (fun _ => false) 0 9 with session := .running, scripts := ⟨entries, none⟩ }

def trapScene : Scene (Chronicle Headless.World) FrameStats :=
  ⟨⟨runningWith [⟨"spawner", 1⟩, ⟨"guard", 2⟩, ⟨"trap", 3⟩, ⟨"door", 4⟩], []⟩, .new 25, ⟨id, 0⟩, .lazy,
    #[], #[]⟩

/-- The first frame is aborted by the trap, which is gone in the second. -/
def trapPlan : List (Single × Stamp × Headless.World) :=
  [(.ofNat 1, ⟨0, 0⟩, runningWith [⟨"spawner", 1⟩, ⟨"door", 4⟩, ⟨"spawned", 7⟩, ⟨"late", 5⟩]),
    (.ofNat 1, ⟨1, 0⟩, runningWith [])]

theorem local_scripts_are_drained_trap :
    Scripted spawningScripts (fun entry _ => spawnerEdits entry) ∧
      ((frames spawningScripts ⟨true, 9⟩ trapPlan trapScene).map fun f =>
        (f.2.2.filterMap fun d => d.task.script?).map LocalScript.script) =
        [["spawner", "trap"], ["spawner", "door", "spawned", "late", "spawned"]] ∧
      ∀ f ∈ frames spawningScripts ⟨true, 9⟩ trapPlan trapScene,
        FrameLaw spawningScripts (fun entry _ => spawnerEdits entry) ⟨true, 9⟩ f.1 f.2.1 f.2.2 := by
  have hscripted : Scripted spawningScripts fun entry _ => spawnerEdits entry :=
    ⟨fun _ _ => rfl, fun _ _ _ => rfl⟩
  exact ⟨hscripted, by decide +kernel, local_scripts_are_drained hscripted _ _ _⟩

end Orchestrator

end FrameLoop
