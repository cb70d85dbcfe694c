import FrameLoop.Proofs.Shutdown
import FrameLoop.Proofs.LaggedReports
import FrameLoop.Proofs.Newest
import FrameLoop.Proofs.PhaseEntry

/-! What is recorded of the phases of a frame: of those that are entered everything, in whatever way
the frame ends, and of the others nothing. -/

namespace FrameLoop

variable {σ κ φ ω : Type}

/-- What is recorded of the phases, in the order of its recording. -/
def namesOf (counting : Bool) (phases : List Phase) : List String :=
  phases.flatMap fun p => if p = .lua ∧ counting then counters ++ p.keys else p.keys
section Names

variable {phases : List Phase} {counting : Bool}

theorem Phase.keys_apart : ∀ p ∈ course, ∀ q ∈ course, ∀ key ∈ p.keys, key ∈ q.keys → p = q := by
  decide +kernel

theorem Phase.keys_not_counters : ∀ p ∈ course, ∀ key ∈ p.keys, key ∉ counters := by
  decide +kernel

theorem mem_namesOf_of_key (h : phases ⊆ Phase.course) {phase : Phase} (hphase : phase ∈ Phase.course)
    {key : String} (hkey : key ∈ phase.keys) : key ∈ namesOf counting phases ↔ phase ∈ phases := by
  have hcounter := Phase.keys_not_counters phase hphase key hkey
  have heach (q : Phase) :
      (key ∈ if q = .lua ∧ counting then counters ++ q.keys else q.keys) ↔ key ∈ q.keys := by
    split <;> simp [hcounter]
  simp only [namesOf, List.mem_flatMap, heach]
  constructor
  · rintro ⟨q, hq, hmem⟩
    rwa [Phase.keys_apart phase hphase q (h hq) key hkey hmem]
  · intro hmem
    exact ⟨phase, hmem, hkey⟩

theorem mem_namesOf_of_counter (h : phases ⊆ Phase.course) {name : String} (hname : name ∈ counters) :
    name ∈ namesOf counting phases ↔ .lua ∈ phases ∧ counting = true := by
  simp only [namesOf, List.mem_flatMap]
  constructor
  · rintro ⟨q, hq, hmem⟩
    have hkey : name ∉ q.keys := fun hkey => Phase.keys_not_counters q (h hq) name hkey hname
    split at hmem
    · rename_i hlua
      exact ⟨hlua.1 ▸ hq, hlua.2⟩
    · exact absurd hmem hkey
  · rintro ⟨hlua, rfl⟩
    exact ⟨.lua, hlua, by simp [hname]⟩

/-- What is stored for a frame under a name of the loop. -/
theorem mem_names_of_stored {stores : List (Nat × String × Double)} {number : Nat} {names : List String}
    (h : (stores.filter (·.2.1 ∈ loopNames)).map storeKey = names.map (Prod.mk number)) {name : String}
    (hname : name ∈ loopNames) : name ∈ (writesFor number stores).map Prod.fst ↔ name ∈ names := by
  have hkey : (number, name) ∈ (stores.filter (·.2.1 ∈ loopNames)).map storeKey ↔ name ∈ names := by
    rw [h]
    simp
  rw [← hkey, mem_names_writesFor, List.mem_map]
  constructor
  · rintro ⟨a, ha, rfl, rfl⟩
    exact ⟨a, List.mem_filter.mpr ⟨ha, by simpa using hname⟩, rfl⟩
  · rintro ⟨a, ha, hkey⟩
    obtain ⟨rfl, rfl⟩ := Prod.mk.inj hkey
    exact ⟨a, (List.mem_filter.mp ha).1, rfl, rfl⟩

theorem stored_number {stores : List (Nat × String × Double)} {number : Nat} {names : List String}
    (h : (stores.filter (·.2.1 ∈ loopNames)).map storeKey = names.map (Prod.mk number))
    {a : Nat × String × Double} (ha : a ∈ stores) (hloop : a.2.1 ∈ loopNames) : a.1 = number := by
  have hmem : storeKey a ∈ names.map (Prod.mk number) := by
    rw [← h]
    exact List.mem_map_of_mem (List.mem_filter.mpr ⟨ha, by simpa using hloop⟩)
  obtain ⟨name, -, hname⟩ := List.mem_map.mp hmem
  exact (congrArg Prod.fst hname).symm

end Names
theorem Orchestrator.names_within (F : Facades σ κ) (o : Orchestrator) (dt : Single) (stamp : Stamp)
    (counting : Bool) {i : Nat} (hi : i ≤ 10) :
    ((frameSegments F o dt stamp counting).take i).flatMap Segment.names ++
      (if i = 10 then Phase.lua.keys else []) = namesOf counting (Phase.within i) := by
  interval_cases i <;> cases counting <;> rfl

theorem Wrote.adds [StatsSink κ] {own : String → Prop} {number : Nat} {writes : List (String × Double)}
    {s s' : Scene σ κ} (h : Wrote number writes s s')
    (hloop : ∀ name ∈ writes.map Prod.fst, name ∈ loopNames) :
    Adds own number (writes.map Prod.fst) s.sink s'.sink := by
  refine .of_loop h ?_ hloop
  simp [storeKey]

namespace Engine

variable {F : Facades σ FrameStats} {own : String → Prop} {counting : Bool}

/-- A rendering does nothing in a segment of the frame, and only the timings of its update are
stored. -/
theorem render_adds (dt : Single) (stamp : Stamp) {e : Engine (Chronicle σ) φ ω} (hr : Resumable e)
    (hc : Collecting counting e.scene.sink) :
    let e' := (render F.chronicled dt stamp e).2
    (∃ more, e'.scene.world.deeds = e.scene.world.deeds ++ more ∧ ∀ d ∈ more, d.task.segment = 10) ∧
      Adds own stamp.number Phase.lua.keys e.scene.sink e'.scene.sink ∧ e'.counter = e.counter := by
  obtain ⟨strategy, he, hs⟩ := hr
  obtain ⟨-, writes, hpenned, hnames⟩ := render_penned (F := F.chronicled) dt stamp he hs
  obtain ⟨more, r, m, w, hw, hf, -⟩ := render_follows (F := F) dt stamp .blank e
  rw [hc.engine, if_pos rfl] at hnames
  refine ⟨⟨more, by rw [hw], (hf.meets (N := fun _ => True) ?_ trivial).1⟩, ?_,
    hpenned.counter⟩
  · simp [renderAgenda, Orchestrator.always, Item.Meets, Task.segment, Task.phase?]
  · rw [← hnames]
    refine hpenned.wrote.adds fun name hname => ?_
    rw [hnames] at hname
    exact List.mem_append_left _ (List.mem_flatMap.mpr ⟨.lua, by decide, hname⟩)

variable [Report ω φ]

theorem conclude_adds (own : String → Prop) (dt : Single) (stamp : Stamp) (outcome : Option FrameOutcome)
    {e : Engine (Chronicle σ) φ ω} (hr : Resumable e) (hc : Collecting counting e.scene.sink) :
    let e' := (conclude F.chronicled dt stamp outcome e).2
    (∃ more, e'.scene.world.deeds = e.scene.world.deeds ++ more ∧ ∀ d ∈ more, d.task.segment = 10) ∧
      Adds own stamp.number (if outcome = some .completed then Phase.lua.keys else [])
        e.scene.sink e'.scene.sink ∧ e'.counter = e.counter := by
  have hnothing : (∃ more, e.scene.world.deeds = e.scene.world.deeds ++ more ∧
      ∀ d ∈ more, d.task.segment = 10) ∧ Adds own stamp.number [] e.scene.sink e.scene.sink ∧
        e.counter = e.counter :=
    ⟨⟨[], by simp, by simp⟩, .refl .., rfl⟩
  rcases outcome with _ | _ | _ | _
  · exact hnothing
  · exact render_adds dt stamp hr hc
  · exact hnothing
  · exact hnothing

/-- What an iteration records of its phases, and what it enters them for. -/
theorem step_adds (hF : Modest F own) {e : Engine (Chronicle σ) φ ω} (hr : Resumable e)
    (hc : Collecting counting e.scene.sink) :
    ∃ phases, Entered F e.dueStep (deedsOf F e) (nextFrame F.chronicled e).1.2 phases ∧
      Adds own e.counter.next (namesOf counting phases) e.scene.sink
        (step F.chronicled e).2.scene.sink ∧
      (step F.chronicled e).2.counter.next = e.counter.next + 1 := by
  let c : Call := .advanceRenderer e.simulationTime (dueStamp e).number
  let s₁ : Scene (Chronicle σ) FrameStats :=
    ((F.chronicled.tell c) { e.scene with clock := e.scene.clock.read.2 }).2
  obtain ⟨deeds, r, m, i, hw, hp, ha, ho⟩ := Orchestrator.frame_walks (s := s₁) hF FrameStats.steady
    e.orchestrator e.dueStep (dueStamp e) .blank hc
  let e₂ := (nextFrame F.chronicled e).2
  have ho₂ : (nextFrame F.chronicled e).1.2 = FrameOutcome.ofResult r := ho
  have hc₂ : Collecting counting e₂.scene.sink := hc.adds FrameStats.steady ha
  obtain ⟨⟨more, hmore, hrendering⟩, hlua, hcounter⟩ := conclude_adds (F := F) own e.dueStep
    (dueStamp e) (nextFrame F.chronicled e).1.2 (e := e₂) (hr.of_eq rfl) hc₂
  have hstep : step F.chronicled e =
    conclude F.chronicled e.dueStep (dueStamp e) (nextFrame F.chronicled e).1.2 e₂ := rfl
  rw [← hstep] at hmore hlua hcounter
  have hdeeds : deedsOf F e = ⟨e.scene.world.world, .call c, .ok ()⟩ :: (deeds ++ more) := by
    have he₂ : e₂.scene.world.deeds =
      (e.scene.world.deeds ++ [⟨e.scene.world.world, .call c, .ok ()⟩]) ++ deeds :=
      congrArg Chronicle.deeds hw
    rw [deedsOf, hmore, he₂, List.append_assoc, List.append_assoc, List.drop_left]
    rfl
  refine ⟨Phase.within i, ?_, ?_, congrArg FrameCounter.next hcounter⟩
  · rw [ho₂]
    refine Orchestrator.entered hp fun d hd => ?_
    have hadvance : d ≠ ⟨e.scene.world.world, .call c, .ok ()⟩ := by
      rintro rfl
      exact absurd hd (Nat.lt_irrefl 10)
    have hrender : d ∉ more := fun h => absurd (hrendering d h) (Nat.ne_of_lt hd)
    rw [hdeeds]
    simp [hadvance, hrender]
  · have hcompleted : (nextFrame F.chronicled e).1.2 = some .completed ↔ i = 10 := by
      rw [ho₂, Orchestrator.passes_all_iff hp]
    have hnames := Orchestrator.names_within F e.orchestrator e.dueStep (dueStamp e) counting
      hp.le_length
    rw [if_congr hcompleted rfl rfl] at hlua
    rw [← hnames]
    exact ha.trans hlua

/-- What is recorded of an iteration that enters these phases. -/
structure PhaseRecord (F : Facades σ FrameStats) (own : String → Prop)
    (lap : Lap (Chronicle σ) φ ω) (phases : List Phase) : Prop where
  entered : Entered F lap.before.dueStep (deedsOf F lap.before)
    (nextFrame F.chronicled lap.before).1.2 phases
  stored : Adds own lap.before.counter.next
    (namesOf (StatsSink.collects lap.before.scene.sink resourceStats) phases)
    lap.before.scene.sink lap.after.scene.sink
  /-- The record of the frame is there, unless the subsystems have stored so much for later frames that
  it had to go. -/
  held : (∀ later ∈ lap.after.scene.sink.frameNumbers, later ≤ lap.before.counter.next) →
    (lap.after.scene.sink.record? lap.before.counter.next).isSome
  timings : ∀ record, lap.after.scene.sink.record? lap.before.counter.next = some record →
    ∀ phase ∈ Phase.course, ∀ key ∈ phase.keys, (record.lookup key).isSome ↔ phase ∈ phases
  counters : ∀ record, lap.after.scene.sink.record? lap.before.counter.next = some record →
    ∀ name ∈ counters, (record.lookup name).isSome ↔
      .lua ∈ phases ∧ StatsSink.collects lap.before.scene.sink resourceStats = true
  worker : ∀ record, lap.after.scene.sink.record? lap.before.counter.next = some record →
    ∀ key ∈ Phase.physicsWorker.keys, (record.lookup key).isSome → own key

/-- An engine whose statistics hold, of the names of the loop, none for the frames to come. -/
structure Unwritten (own : String → Prop) (empty : FrameStats) (e : Engine (Chronicle σ) φ ω) :
    Prop where
  resumable : Resumable e
  engine : StatsSink.collects e.scene.sink engineStats = true
  writes : ∃ writes, e.scene.sink = storeAll empty writes ∧
    (∀ a ∈ writes, a.2.1 ∈ loopNames → a.1 < e.counter.next) ∧
    ∀ a ∈ writes, a.2.1 ∈ Phase.physicsWorker.keys → own a.2.1

theorem Unwritten.step {empty : FrameStats} (hempty : empty.frames = []) (hpos : 0 < empty.history)
    (hF : Modest F own) {e : Engine (Chronicle σ) φ ω} (h : Unwritten own empty e) :
    Unwritten own empty (step F.chronicled e).2 ∧
      ∃ phases, PhaseRecord F own ⟨e, (Engine.step F.chronicled e).2, (Engine.step F.chronicled e).1⟩
        phases := by
  obtain ⟨writes, hsink, hpast, hown⟩ := h.writes
  obtain ⟨phases, hentered, hadds, hcounter⟩ := step_adds hF h.resumable ⟨h.engine, rfl⟩
  obtain ⟨stores, hstores, hnames, hown'⟩ := id hadds
  have hall : (Engine.step F.chronicled e).2.scene.sink = storeAll empty (writes ++ stores) := by
    rw [hstores, hsink, storeAll_append]
  have hbefore : ∀ name ∈ loopNames, name ∉ (writesFor e.counter.next writes).map Prod.fst := by
    intro name hname hmem
    obtain ⟨a, ha, hnumber, rfl⟩ := mem_names_writesFor.mp hmem
    have := hpast a ha hname
    omega
  have hrecord {record : Attributes}
      (hr : (Engine.step F.chronicled e).2.scene.sink.record? e.counter.next = some record)
      (name : String) : (record.lookup name).isSome ↔
        name ∈ (writesFor e.counter.next (writes ++ stores)).map Prod.fst := by
    rw [hall] at hr
    exact FrameStats.isSome_lookup_record hempty hpos hr name
  have hloop {name : String} (hname : name ∈ loopNames) :
      name ∈ (writesFor e.counter.next (writes ++ stores)).map Prod.fst ↔
        name ∈ namesOf (StatsSink.collects e.scene.sink resourceStats) phases := by
    have happend : writesFor e.counter.next (writes ++ stores) =
      writesFor e.counter.next writes ++ writesFor e.counter.next stores := by simp [writesFor]
    rw [← mem_names_of_stored hnames hname, happend, List.map_append, List.mem_append]
    exact or_iff_right (hbefore name hname)
  have hcourse : phases ⊆ Phase.course := hentered.order.subset
  have hkey {phase : Phase} (hphase : phase ∈ Phase.course) {key : String} (hkey : key ∈ phase.keys) :
      key ∈ loopNames := List.mem_append_left _ (List.mem_flatMap.mpr ⟨phase, hphase, hkey⟩)
  have hown' : ∀ a ∈ writes ++ stores, a.2.1 ∈ Phase.physicsWorker.keys → own a.2.1 := by
    intro a ha
    rcases List.mem_append.mp ha with ha | ha
    · exact hown a ha
    · exact hown' a ha
  refine ⟨⟨h.resumable.step, ?_, writes ++ stores, hall, fun a ha hname => ?_, hown'⟩, phases, hentered,
    hadds, fun hlast => ?_, fun record hr phase hphase key hmem => ?_, fun record hr name hname => ?_,
    fun record hr key hmem hsome => ?_⟩
  · rw [hadds.collects FrameStats.steady, h.engine]
  · rw [hcounter]
    rcases List.mem_append.mp ha with ha | ha
    · have := hpast a ha hname
      omega
    · have := stored_number hnames ha hname
      omega
  · have hbegin : Phase.input.beginKey ∈ (writesFor e.counter.next (writes ++ stores)).map Prod.fst := by
      rw [hloop (by decide +kernel),
        mem_namesOf_of_key hcourse (by decide : Phase.input ∈ Phase.course) (by simp [Phase.keys])]
      exact hentered.input
    obtain ⟨a, ha, hnumber, -⟩ := mem_names_writesFor.mp hbegin
    rw [hall] at hlast ⊢
    exact FrameStats.isSome_record hempty hpos (hnumber ▸ List.mem_map_of_mem ha) hlast
  · rw [hrecord hr, hloop (hkey hphase hmem), mem_namesOf_of_key hcourse hphase hmem]
  · rw [hrecord hr, hloop (List.mem_append_right _ hname), mem_namesOf_of_counter hcourse hname]
  · obtain ⟨a, ha, -, rfl⟩ := mem_names_writesFor.mp ((hrecord hr key).mp hsome)
    exact hown' a ha hmem

theorem Unwritten.play {empty : FrameStats} (hempty : empty.frames = []) (hpos : 0 < empty.history)
    (hF : Modest F own) (moves : List (Move (Chronicle σ))) {e : Engine (Chronicle σ) φ ω}
    (h : Unwritten own empty e) :
    ∀ lap ∈ laps F.chronicled moves e, ∃ phases, PhaseRecord F own lap phases := by
  induction moves generalizing e with
  | nil => exact fun lap hlap => absurd hlap List.not_mem_nil
  | cons move moves ih =>
    by_cases hmove : move = .step
    · subst hmove
      obtain ⟨hnext, hrecord⟩ := h.step hempty hpos hF
      intro lap hlap
      rcases List.mem_cons.mp hlap with rfl | hlap
      · exact hrecord
      · exact ih hnext lap hlap
    · have hkept : Kept e (make F.chronicled move e).2 :=
        (Keeps.routine F.chronicled).make (fun hstep => absurd hstep hmove) e
      have hlaps : laps F.chronicled (move :: moves) e =
          laps F.chronicled moves (make F.chronicled move e).2 := by
        cases move with
        | step => exact absurd rfl hmove
        | _ => rfl
      rw [hlaps]
      refine ih ⟨h.resumable.of_eq hkept.strategy, ?_, ?_⟩
      · rw [hkept.sink, h.engine]
      · rw [hkept.sink, hkept.counter]
        exact h.writes

variable [Storage φ ω]

/-- In every iteration of every run exactly the phases are recorded that were entered, each with all
of its keys and under the number of the frame, in whatever way the frame ends. -/
theorem entered_phases_are_recorded (hF : Modest F own) {settings : Settings} {world : Chronicle σ}
    {storage : φ} {clock : Clock} {schedule : Schedule} {statsFile : Option String} {patience : Nat}
    {preparations : List Preparation} {e : Engine (Chronicle σ) φ ω}
    (hbuild : build F.chronicled settings world storage clock schedule statsFile patience
      preparations = .ok e)
    (hc : StatsSink.collects e.scene.sink engineStats = true) (moves : List (Move (Chronicle σ))) :
    ∀ lap ∈ laps F.chronicled moves e, ∃ phases, PhaseRecord F own lap phases := by
  have hfresh : Fresh e := .build hbuild
  have hpos : 0 < e.scene.sink.history := Nat.zero_lt_of_lt hfresh.history
  exact Unwritten.play hfresh.frames hpos hF moves
    ⟨hfresh.rested, hc, [], rfl, by simp, by simp⟩

end Engine

/-- With workers, the headless physics stores the timings of its worker. -/
theorem Headless.modest :
    Modest (Headless.facades : Facades World FrameStats) (· ∈ Phase.physicsWorker.keys) where
  stepPhysics dt guiActive stamp s := by
    have hrun : (Headless.stepPhysics dt guiActive stamp).run s =
        (if 0 < s.world.physicsWorkers then Scene.timed .physicsWorker stamp (pure ()) else pure () :
          Attempt Failure World FrameStats Unit).run s := rfl
    have hphysics : (Headless.facades.stepPhysics dt guiActive stamp).run s =
      (Headless.stepPhysics dt guiActive stamp).run s := rfl
    rw [hphysics, hrun]
    split
    · obtain ⟨writes, hwrote, hnames⟩ :=
        Scene.closePhase_wrote .physicsWorker stamp (Scene.now s).1 (Scene.now s).2
      refine ⟨writes.map (Prod.mk stamp.number), hwrote, fun a ha => ?_⟩
      obtain ⟨b, hb, rfl⟩ := List.mem_map.mp ha
      have hname : b.1 ∈ writes.map Prod.fst := List.mem_map_of_mem hb
      have hworker : b.1 ∈ Phase.physicsWorker.keys := by
        rw [hnames] at hname
        split at hname
        · exact hname
        · cases hname
      exact ⟨Adds.worker_not_loop _ hworker, hworker⟩
    · exact ⟨[], rfl, by simp⟩
  reportPart part frame s := by
    have hforeign : ∀ name ∈ ["GameHour", "Texture"],
        name ∉ loopNames ∧ name ∉ Phase.physicsWorker.keys := by decide +kernel
    cases part with
    | world =>
      refine ⟨[(frame, "GameHour", s.world.gameHours)], rfl, fun a ha => ?_⟩
      obtain rfl := List.mem_singleton.mp ha
      exact ⟨(hforeign _ (by simp)).1, .inr (hforeign _ (by simp)).2⟩
    | resources =>
      refine ⟨[(frame, "Texture", .zero false)], rfl, fun a ha => ?_⟩
      obtain rfl := List.mem_singleton.mp ha
      exact ⟨(hforeign _ (by simp)).1, .inr (hforeign _ (by simp)).2⟩
    | _ => exact ⟨[], rfl, by simp⟩

namespace Engine

/-- Subsystems whose mechanics fail. -/
def failingMechanics : Facades Headless.World FrameStats := { Headless.facades with
  perform := fun c w =>
    match c with
    | .updateMechanics _ _ => ⟨.error ⟨"no such actor", []⟩, w, []⟩
    | c => Headless.perform c w }

def failingFrame : Except Refusal (Engine (Chronicle Headless.World) Places PlaceReport) :=
  build failingMechanics.chronicled { Settings.defaults with collectStats := true }
    ⟨.new (fun _ => false) 1 9, []⟩ [] ⟨id, 0⟩ .lazy none 9 [.told none none (.newSession true) none]

theorem entered_phases_are_recorded_failing_mechanics : ∃ e, failingFrame = .ok e ∧
    ∃ lap ∈ laps failingMechanics.chronicled [.start, .step] e, ∃ phases,
      PhaseRecord failingMechanics (· ∈ Phase.physicsWorker.keys) lap phases ∧
        .mechanics ∈ phases ∧ .physics ∉ phases ∧ .lua ∉ phases := by
  obtain ⟨e, he⟩ : ∃ e, failingFrame = .ok e := exists_of_isOk (by decide +kernel)
  have hbegin : (failingFrame.toOption.map fun e => StatsSink.collects e.scene.sink engineStats) =
      some true := by decide +kernel
  have hrecorded : (failingFrame.toOption.bind fun e =>
      (laps failingMechanics.chronicled [.start, .step] e).head?.bind fun lap =>
        (lap.after.scene.sink.record? lap.before.counter.next).map fun record =>
          ((record.lookup Phase.mechanics.endKey).isSome, (record.lookup Phase.physics.endKey).isSome,
            (record.lookup Phase.lua.endKey).isSome)) = some (true, false, false) := by
    decide +kernel
  rw [he] at hbegin hrecorded
  have hmodest : Modest failingMechanics (· ∈ Phase.physicsWorker.keys) :=
    ⟨Headless.modest.stepPhysics, Headless.modest.reportPart⟩
  obtain ⟨e', he', hplayed⟩ := Option.bind_eq_some_iff.mp hrecorded
  obtain rfl : e = e' := Option.some.inj he'
  obtain ⟨lap, hlap, hfound⟩ := Option.bind_eq_some_iff.mp hplayed
  obtain ⟨record, hrecord, hkeys⟩ := Option.map_eq_some_iff.mp hfound
  have hmem : lap ∈ laps failingMechanics.chronicled [.start, .step] e := List.mem_of_mem_head? hlap
  obtain ⟨phases, hphases⟩ :=
    entered_phases_are_recorded hmodest he (Option.some.inj hbegin) [.start, .step] lap hmem
  have hend (p : Phase) (hp : p ∈ Phase.course) : (record.lookup p.endKey).isSome ↔ p ∈ phases :=
    hphases.timings record hrecord p hp p.endKey (by simp [Phase.keys])
  obtain ⟨hmechanics, hrest⟩ := Prod.mk.inj hkeys
  obtain ⟨hphysics, hlua⟩ := Prod.mk.inj hrest
  refine ⟨e, he, lap, hmem, phases, hphases, ?_, ?_, ?_⟩
  · rwa [← hend .mechanics (by decide)]
  · rw [← hend .physics (by decide), hphysics]
    decide
  · rw [← hend .lua (by decide), hlua]
    decide

end Engine

end FrameLoop
