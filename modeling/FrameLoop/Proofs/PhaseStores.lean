import FrameLoop.Proofs.Segments
import FrameLoop.Proofs.Writes

/-! What a frame stores of its phases: a phase is timed whenever it is entered, on whatever path it is
left. -/

namespace FrameLoop

variable {σ κ α β ε : Type}

/-- The phases that the loop times itself, in their order. -/
def Phase.course : List Phase :=
  [.input, .sound, .state, .script, .mechanics, .physics, .world, .gui, .lua]

/-- The counters of the loop itself. -/
def counters : List String := ["FrameNumber", "WorkQueue", "WorkThread"]

/-- The names under which the loop itself records something. -/
def loopNames : List String := Phase.course.flatMap Phase.keys ++ counters

section Adds

variable [StatsSink κ]

/-- From one sink to the other, of the names of the loop these were stored, in this order and for this
frame, and of the names of the worker of the physics only its `own`. -/
def Adds (own : String → Prop) (frame : Nat) (names : List String) (k k' : κ) : Prop :=
  ∃ stores, k' = storeAll k stores ∧
    (stores.filter (·.2.1 ∈ loopNames)).map storeKey = names.map (Prod.mk frame) ∧
    ∀ a ∈ stores, a.2.1 ∈ Phase.physicsWorker.keys → own a.2.1

/-- The subsystems store nothing under the names of the loop, and only the physics, under its `own`
names, for its worker. -/
structure Modest (F : Facades σ κ) (own : String → Prop) : Prop where
  stepPhysics : ∀ dt guiActive stamp s, ∃ stores,
    ((F.stepPhysics dt guiActive stamp).run s).2.sink = storeAll s.sink stores ∧
      ∀ a ∈ stores, a.2.1 ∉ loopNames ∧ own a.2.1
  reportPart : ∀ part frame s, ∃ stores, (F.reportPart part frame s).2.sink = storeAll s.sink stores ∧
    ∀ a ∈ stores, a.2.1 ∉ loopNames ∧
      (part = .physics ∧ own a.2.1 ∨ a.2.1 ∉ Phase.physicsWorker.keys)

variable {own : String → Prop} {frame : Nat} {names more : List String} {k k' k'' : κ}

namespace Adds

theorem refl (own : String → Prop) (frame : Nat) (k : κ) : Adds own frame [] k k :=
  ⟨[], rfl, rfl, by simp⟩

theorem trans (h : Adds own frame names k k') (h' : Adds own frame more k' k'') :
    Adds own frame (names ++ more) k k'' := by
  obtain ⟨stores, rfl, hnames, hown⟩ := h
  obtain ⟨stores', rfl, hnames', hown'⟩ := h'
  refine ⟨stores ++ stores', (storeAll_append ..).symm, by simp [hnames, hnames'], fun a ha => ?_⟩
  rcases List.mem_append.mp ha with ha | ha
  · exact hown a ha
  · exact hown' a ha

theorem collects (hk : Steady κ) (h : Adds own frame names k k') (category : String) :
    StatsSink.collects k' category = StatsSink.collects k category := by
  obtain ⟨stores, rfl, -⟩ := h
  exact hk.collects_storeAll k stores category

theorem worker_not_loop : ∀ name ∈ Phase.physicsWorker.keys, name ∉ loopNames := by decide +kernel

/-- Everything that was stored is the loop's. -/
theorem of_loop {stores : List (Nat × String × Double)} (h : k' = storeAll k stores)
    (hkeys : stores.map storeKey = names.map (Prod.mk frame)) (hloop : ∀ name ∈ names, name ∈ loopNames) :
    Adds own frame names k k' := by
  have hall : ∀ a ∈ stores, a.2.1 ∈ loopNames := by
    intro a ha
    have hkey : storeKey a ∈ names.map (Prod.mk frame) := hkeys ▸ List.mem_map_of_mem ha
    obtain ⟨name, hname, hsame⟩ := List.mem_map.mp hkey
    have hname' : name = a.2.1 := congrArg Prod.snd hsame
    exact hname' ▸ hloop name hname
  refine ⟨stores, h, ?_, fun a ha hworker => absurd (hall a ha) (worker_not_loop _ hworker)⟩
  rw [List.filter_eq_self.mpr (by simpa using hall), hkeys]

/-- Nothing that was stored is the loop's. -/
theorem of_foreign {stores : List (Nat × String × Double)} (h : k' = storeAll k stores)
    (hforeign : ∀ a ∈ stores, a.2.1 ∉ loopNames ∧ (a.2.1 ∈ Phase.physicsWorker.keys → own a.2.1)) :
    Adds own frame [] k k' := by
  refine ⟨stores, h, ?_, fun a ha => (hforeign a ha).2⟩
  rw [List.filter_eq_nil_iff.mpr (by simpa using fun a b c ha => (hforeign (a, b, c) ha).1)]
  rfl

end Adds

/-- The action stores these names of the loop. -/
def Adding (own : String → Prop) (frame : Nat) (names : List String) (act : Act σ κ α) : Prop :=
  ∀ s, Adds own frame names s.sink (act s).2.sink

namespace Adding

theorem of_sink {act : Act σ κ α} (h : ∀ s, (act s).2.sink = s.sink) : Adding own frame [] act := by
  intro s
  rw [h]
  exact .refl ..

theorem bind {act : Act σ κ α} {f : α → Act σ κ β} (h : Adding own frame names act)
    (hf : ∀ a, Adding own frame more (f a)) : Adding own frame (names ++ more) (act >>= f) :=
  fun s => (h s).trans (hf _ _)

theorem chains (own : String → Prop) (frame : Nat) : Chains (S := Scene σ κ) (Adding own frame []) where
  pure _ := .of_sink fun _ => rfl
  bind := bind

variable {F : Facades σ κ}

theorem reportPart (hF : Modest F own) (part : Part) (frame : Nat) :
    Adding own frame [] (F.reportPart part frame) := by
  intro s
  obtain ⟨stores, hstores, hforeign⟩ := hF.reportPart part frame s
  refine .of_foreign hstores fun a ha => ?_
  obtain ⟨hloop, ⟨-, hown⟩ | hworker⟩ := hforeign a ha
  · exact ⟨hloop, fun _ => hown⟩
  · exact ⟨hloop, fun h => absurd h hworker⟩

theorem untimed (hF : Modest F own) (stamp : Stamp) (frame : Nat) :
    Untimed (Adding own frame []) F stamp where
  toChains := chains own frame
  note thread _ _ := .of_sink fun _ => by cases thread <;> rfl
  ask _ := .of_sink fun _ => rfl
  change _ := .of_sink fun _ => rfl
  call _ := .of_sink fun _ => rfl
  nextEntry := .of_sink fun _ => rfl
  runLocal _ := .of_sink fun _ => rfl
  stepPhysics dt guiActive s := by
    obtain ⟨stores, hstores, hforeign⟩ := hF.stepPhysics dt guiActive stamp s
    exact .of_foreign hstores fun a ha => ⟨(hforeign a ha).1, fun _ => (hforeign a ha).2⟩

theorem counter (name : String) (hname : name ∈ counters) (value : Double) :
    Adding own frame [name] (Scene.setAttribute frame name value : Act σ κ Unit) := by
  intro s
  have hset : ((Scene.setAttribute frame name value : Act σ κ Unit) s).2.sink =
    storeAll s.sink [(frame, name, value)] := rfl
  refine .of_loop hset rfl fun name' hname' => ?_
  obtain rfl := List.mem_singleton.mp hname'
  exact List.mem_append_right _ hname

theorem reportStats (hF : Modest F own) (frame : Nat) :
    Adding own frame counters (F.reportStats frame) := by
  have hpart := fun part => reportPart hF part frame
  have hask : ∀ query : σ → Nat, Adding own frame [] (Facades.ask query : Act σ κ Nat) := fun _ =>
    .of_sink fun _ => rfl
  have hparts (parts : List Part) :
      Adding own frame [] (parts.forM fun part => F.reportPart part frame) :=
    (chains own frame).forM hpart
  refine (counter "FrameNumber" (by simp [counters]) _).bind fun _ => (hpart _).bind fun _ => ?_
  refine (hask _).bind fun _ => (counter "WorkQueue" (by simp [counters]) _).bind fun _ => ?_
  exact (hask _).bind fun _ => (counter "WorkThread" (by simp [counters]) _).bind fun _ => hparts _

end Adding

/-- However a phase of the loop ends, its timings are stored. -/
theorem timed_adds (hk : Steady κ) {phase : Phase} (hphase : phase ∈ Phase.course) (stamp : Stamp)
    {body : Attempt ε σ κ α} (hbody : Adding own stamp.number [] body.run) (s : Scene σ κ)
    (hc : StatsSink.collects s.sink engineStats = true) :
    Adds own stamp.number phase.keys s.sink ((Scene.timed phase stamp body).run s).2.sink := by
  have hstart : Adds own stamp.number [] s.sink (body.run (Scene.now s).2).2.sink :=
    hbody (Scene.now s).2
  obtain ⟨stores, hstores, hkeys⟩ :=
    Scene.closePhase_stores phase stamp (Scene.now s).1 (body.run (Scene.now s).2).2
  rw [hstart.collects hk, hc, Phase.receipts_eq, if_pos rfl] at hkeys
  refine hstart.trans (.of_loop hstores hkeys fun name hname => ?_)
  exact List.mem_append_left _ (List.mem_flatMap.mpr ⟨phase, hphase, hname⟩)

theorem reports_add {F : Facades σ κ} (hF : Modest F own) (frame : Nat) (s : Scene σ κ) :
    Adds own frame (if StatsSink.collects s.sink resourceStats then counters else []) s.sink
      ((do
        if ← ExceptT.lift (Scene.collects resourceStats) then
          ExceptT.lift (F.reportStats frame) : Attempt Stop σ κ Unit).run s).2.sink := by
  change Adds own frame _ s.sink ((if StatsSink.collects s.sink resourceStats then
    ExceptT.lift (F.reportStats frame) else pure () : Attempt Stop σ κ Unit).run s).2.sink
  split
  · exact Adding.reportStats hF frame s
  · exact .refl ..

theorem Modest.chronicled {F : Facades σ κ} (hF : Modest F own) : Modest F.chronicled own where
  stepPhysics dt guiActive stamp s := hF.stepPhysics dt guiActive stamp (s.withWorld s.world.world)
  reportPart part frame s := hF.reportPart part frame (s.withWorld s.world.world)

end Adds

section Walks

variable [StatsSink κ] {F : Facades σ κ} {own : String → Prop} {number : Nat} {counting : Bool}

/-- The engine's timings are collected, and it is known whether the counters are. -/
structure Collecting (counting : Bool) (k : κ) : Prop where
  engine : StatsSink.collects k engineStats = true
  resources : StatsSink.collects k resourceStats = counting

theorem Collecting.adds {names : List String} {k k' : κ} (h : Collecting counting k) (hk : Steady κ)
    (ha : Adds own number names k k') : Collecting counting k' :=
  ⟨(ha.collects hk _).trans h.engine, (ha.collects hk _).trans h.resources⟩

/-- An attempt comes to a run through segments, and stores the names of those that it enters. -/
def Walks (F : Facades σ κ) (own : String → Prop) (number : Nat) (segments : List (Segment σ))
    (n : Notes) (act : Attempt Stop (Chronicle σ) κ α) (goesOn : α → Bool) (s : Scene (Chronicle σ) κ) : Prop :=
  ∃ deeds m i, (act.run s).2.world = ⟨m.world, s.world.deeds ++ deeds⟩ ∧
    Passes F segments ⟨s.world.world, n⟩ deeds ((act.run s).1.map goesOn) m i ∧
      Adds own number ((segments.take i).flatMap Segment.names) s.sink (act.run s).2.sink

variable {segment : Segment σ} {rest segments : List (Segment σ)} {n : Notes} {N : Moment σ → Prop}
  {s : Scene (Chronicle σ) κ} {act : Attempt Stop (Chronicle σ) κ α}
  {k : α → Attempt Stop (Chronicle σ) κ β} {goesOn : α → Bool} {goesOn' : β → Bool}

namespace Walks

theorem pure {a : α} (hg : goesOn a = true) : Walks F own number [] n (Pure.pure a) goesOn s := by
  refine ⟨[], ⟨s.world.world, n⟩, 0, by rw [List.append_nil]; rfl, ?_, .refl ..⟩
  have hr : ((Pure.pure a : Attempt Stop (Chronicle σ) κ α).run s).1.map goesOn = .ok true :=
    congrArg Except.ok hg
  rw [hr]
  exact .done _

theorem asking {query : Chronicle σ → β} {k : β → Attempt Stop (Chronicle σ) κ α}
    (h : Walks F own number segments n (k (query s.world)) goesOn s) :
    Walks F own number segments n (Orchestrator.ask query >>= k) goesOn s := h

theorem cons (hk : Steady κ) (hc : Collecting counting s.sink)
    (h : Plays F segment.items n act goesOn N s)
    (ha : Adds own number segment.names s.sink (act.run s).2.sink)
    (hgo : ∀ a m s', goesOn a = true → N m → s'.world.world = m.world → Collecting counting s'.sink →
      Walks F own number rest m.notes (k a) goesOn' s')
    (hstop : ∀ a s', goesOn a = false →
      ((k a).run s').2 = s' ∧ ((k a).run s').1.map goesOn' = .ok false) :
    Walks F own number (segment :: rest) n (act >>= k) goesOn' s := by
  obtain ⟨deeds, m, hw, hf, hn⟩ := h
  have hbind : (act >>= k).run s = ExceptT.bindCont k (act.run s).1 (act.run s).2 := rfl
  have hout (r : Except Stop Bool) (hr : r ≠ .ok true)
      (hf : Follows F segment.items ⟨s.world.world, n⟩ deeds r m)
      (hrun : ((act >>= k).run s).2 = (act.run s).2)
      (hresult : ((act >>= k).run s).1.map goesOn' = r) :
      Walks F own number (segment :: rest) n (act >>= k) goesOn' s := by
    refine ⟨deeds, m, 1, by rw [hrun, hw], ?_, ?_⟩
    · rw [hresult]
      exact .out hr hf
    · rw [hrun]
      simpa using ha
  cases hr : (act.run s).1 with
  | error e =>
    rw [hr] at hbind hf
    have hrun : (act >>= k).run s = (.error e, (act.run s).2) := hbind
    exact hout (.error e) nofun hf (by rw [hrun]) (by rw [hrun]; rfl)
  | ok a =>
    rw [hr] at hbind hf hn
    have hrun : (act >>= k).run s = (k a).run (act.run s).2 := hbind
    cases hg : goesOn a with
    | true =>
      have htrue : (Except.ok a : Except Stop α).map goesOn = .ok true := congrArg Except.ok hg
      rw [htrue] at hf hn
      obtain ⟨more, m', i, hw', hf', ha'⟩ := hgo a m (act.run s).2 hg (hn rfl)
        (congrArg Chronicle.world hw) (hc.adds hk ha)
      rw [hw] at hw' hf'
      refine ⟨deeds ++ more, m', i + 1, ?_, ?_, ?_⟩
      · rw [hrun, hw', List.append_assoc]
      · rw [hrun]
        exact .on hf hf'
      · rw [hrun]
        exact ha.trans ha'
    | false =>
      obtain ⟨hs, hfalse⟩ := hstop a (act.run s).2 hg
      have hfalse' : (Except.ok a : Except Stop α).map goesOn = .ok false := congrArg Except.ok hg
      rw [hfalse'] at hf
      exact hout (.ok false) nofun hf (by rw [hrun, hs]) (by rw [hrun, hfalse])

theorem andThen (hk : Steady κ) (hc : Collecting counting s.sink)
    (h : Plays F segment.items n act (fun _ => true) N s)
    (ha : Adds own number segment.names s.sink (act.run s).2.sink)
    (hgo : ∀ a m s', N m → s'.world.world = m.world → Collecting counting s'.sink →
      Walks F own number rest m.notes (k a) goesOn' s') :
    Walks F own number (segment :: rest) n (act >>= k) goesOn' s :=
  cons hk hc h ha (fun a m s' _ => hgo a m s') nofun

theorem last (hk : Steady κ) (hc : Collecting counting s.sink)
    (h : Plays F segment.items n act (fun _ => true) N s)
    (ha : Adds own number segment.names s.sink (act.run s).2.sink) :
    Walks F own number [segment] n act (fun _ => true) s := by
  rw [← bind_pure act]
  exact andThen hk hc h ha fun _ _ _ _ _ _ => .pure rfl

theorem answering (h : Walks F own number segments n act (fun _ => true) s) {b : β}
    (hb : goesOn' b = true) :
    Walks F own number segments n (act >>= fun _ => Pure.pure b) goesOn' s := by
  obtain ⟨deeds, m, i, hw, hp, ha⟩ := h
  have hbind : (act >>= fun _ => Pure.pure b).run s =
      (ExceptT.bindCont (fun _ => Pure.pure b) (act.run s).1 : Act (Chronicle σ) κ _)
        (act.run s).2 := rfl
  generalize act.run s = x at hbind hw hp ha
  obtain ⟨r, s'⟩ := x
  have hrun : ((act >>= fun _ => Pure.pure b).run s).2 = s' ∧
      ((act >>= fun _ => Pure.pure b).run s).1.map goesOn' = r.map fun _ => true := by
    rw [hbind]
    cases r with
    | error e => exact ⟨rfl, rfl⟩
    | ok a => exact ⟨rfl, congrArg Except.ok hb⟩
  refine ⟨deeds, m, i, ?_, ?_, ?_⟩
  · rw [hrun.1, hw]
  · rw [hrun.2]
    exact hp
  · rw [hrun.1]
    exact ha

end Walks

namespace Orchestrator

variable {o : Orchestrator} {dt : Single} {stamp : Stamp}

/-- The segments of a frame: the phases that are timed, the synchronization between two of them, and
the report of the counters. -/
def frameSegments (F : Facades σ κ) (o : Orchestrator) (dt : Single) (stamp : Stamp)
    (counting : Bool) : List (Segment σ) :=
  [⟨Phase.input.keys, inputAgenda dt⟩,
    ⟨Phase.sound.keys, soundAgenda F o.useSound dt⟩,
    ⟨[], [.note fun m => { m.notes with paused := F.containsMode .mainMenu m.world },
      always .synchronize]⟩,
    ⟨Phase.state.keys, [always (.updateState dt)]⟩,
    ⟨Phase.script.keys, .note (fun m => { m.notes with
      guiActive := F.guiActive m.world, sessionActive := F.hasActiveSession m.world }) ::
        scriptAgenda F o.patience dt⟩,
    ⟨Phase.mechanics.keys, mechanicsAgenda F dt⟩,
    ⟨Phase.physics.keys, physicsAgenda dt stamp⟩,
    ⟨Phase.world.keys, worldAgenda dt⟩,
    ⟨Phase.gui.keys, [always (.updateGui dt)]⟩,
    ⟨if counting then counters else [], [.meanwhile stamp.number]⟩]

theorem walks_rest (hF : Modest F own) (hk : Steady κ) {s : Scene (Chronicle σ) κ}
    (hc : Collecting counting s.sink)
    (hw : n.sessionActive = false → F.hasActiveSession s.world.world = false) :
    Walks F own stamp.number ((frameSegments F o dt stamp counting).drop 5) n (do
        Scene.timed .mechanics stamp (mechanicsPhase F.chronicled dt n.guiActive n.sessionActive)
        Scene.timed .physics stamp (physicsPhase F.chronicled dt stamp n.guiActive n.sessionActive)
        Scene.timed .world stamp (worldPhase F.chronicled dt n.guiActive n.sessionActive)
        Scene.timed .gui stamp (call F.chronicled (.updateGui dt))
        if ← ExceptT.lift (Scene.collects resourceStats) then
          ExceptT.lift (F.chronicled.reportStats stamp.number)) (fun _ => true) s := by
  have hu := Adding.untimed hF.chronicled stamp stamp.number
  have hmechanics : Performs F (mechanicsAgenda F dt) n (Scene.timed .mechanics stamp
      (mechanicsPhase F.chronicled dt n.guiActive n.sessionActive)) s :=
    Plays.timed .mechanics stamp s fun s' hs => performs_mechanicsPhase (hs ▸ hw)
  refine Walks.andThen hk hc hmechanics (timed_adds hk (by decide) stamp
    (untimed_mechanicsPhase hu dt _ _) s hc.engine) fun _ m s hm _ hc => ?_
  obtain rfl : m.notes = n := hm
  have hphysics : Performs F (physicsAgenda dt stamp) m.notes (Scene.timed .physics stamp
      (physicsPhase F.chronicled dt stamp m.notes.guiActive m.notes.sessionActive)) s :=
    Plays.timed .physics stamp s fun _ _ => performs_physicsPhase
  refine Walks.andThen hk hc hphysics (timed_adds hk (by decide) stamp
    (untimed_physicsPhase hu dt _ _) s hc.engine) fun _ m' s hm _ hc => ?_
  rw [← hm]
  have hworld : Performs F (worldAgenda dt) m'.notes (Scene.timed .world stamp
      (worldPhase F.chronicled dt m'.notes.guiActive m'.notes.sessionActive)) s :=
    Plays.timed .world stamp s fun _ _ => performs_worldPhase
  refine Walks.andThen hk hc hworld (timed_adds hk (by decide) stamp
    (untimed_worldPhase hu dt _ _) s hc.engine) fun _ m s hm _ hc => ?_
  have hgui : Performs F [always (.updateGui dt)] m.notes
      (Scene.timed .gui stamp (call F.chronicled (.updateGui dt))) s :=
    Plays.timed .gui stamp s fun _ _ => performs_always
  refine Walks.andThen hk hc hgui (timed_adds hk (by decide) stamp
    (untimed_call hu _) s hc.engine) fun _ m s hm _ hc => ?_
  have hreports := reports_add hF.chronicled stamp.number s
  rw [hc.resources] at hreports
  exact .last hk hc (performs_reports s) hreports

theorem walks_simulate (hF : Modest F own) (hk : Steady κ) {s : Scene (Chronicle σ) κ}
    (hc : Collecting counting s.sink) :
    Walks F own stamp.number ((frameSegments F o dt stamp counting).drop 2) n
      (simulate F.chronicled o dt stamp) (fun _ => true) s := by
  have hu := Adding.untimed hF.chronicled stamp stamp.number
  have hsynchronize : Plays F [.note fun m => { m.notes with paused := F.containsMode .mainMenu m.world },
      always .synchronize] n (call F.chronicled .synchronize) (fun _ => true)
      (fun m => m.notes.paused = F.containsMode .mainMenu s.world.world) s :=
    .note (performs_always.mono fun m hm => hm ▸ rfl)
  refine .asking (Walks.andThen hk hc hsynchronize (untimed_call hu _ s) fun _ m s' hm _ hc => ?_)
  have hpaused : F.chronicled.containsMode .mainMenu s.world = m.notes.paused := hm.symm
  rw [hpaused]
  have hstate : Performs F [always (.updateState dt)] m.notes
      (Scene.timed .state stamp (call F.chronicled (.updateState dt))) s' :=
    Plays.timed .state stamp s' fun _ _ => performs_always
  refine Walks.andThen hk hc hstate (timed_adds hk (by decide) stamp
    (untimed_call hu _) s' hc.engine) fun _ m' s' hm _ hc => .asking (.asking ?_)
  rw [← hm]
  let n' : Notes := { m'.notes with
    guiActive := F.guiActive s'.world.world, sessionActive := F.hasActiveSession s'.world.world }
  have hscript : Plays F (scriptAgenda F o.patience dt) n' (Scene.timed .script stamp
      (scriptPhase F.chronicled o.patience dt n'.paused n'.guiActive n'.sessionActive))
      (fun _ => true) (AfterScripts n' s'.world.world) s' :=
    Plays.timed .script stamp s' fun s'' hs => hs ▸ plays_scriptPhase o.patience n' s''
  refine Walks.andThen hk hc hscript.note (timed_adds hk (by decide) stamp
    (untimed_scriptPhase hu dt _ _ _ _) s' hc.engine) fun _ m s hm hw hc => ?_
  obtain ⟨hgui, hactive, hidle⟩ := hm
  have hsame : F.chronicled.guiActive s'.world = m.notes.guiActive ∧
      F.chronicled.hasActiveSession s'.world = m.notes.sessionActive := ⟨hgui.symm, hactive.symm⟩
  rw [hsame.1, hsame.2]
  refine walks_rest (o := o) hF hk hc fun h => ?_
  have hactive' : n'.sessionActive = false := hactive.symm.trans h
  rw [hw, hidle hactive']
  exact hactive'

theorem walks_runPhases (hF : Modest F own) (hk : Steady κ) (o : Orchestrator) (dt : Single)
    (stamp : Stamp) (n : Notes) {s : Scene (Chronicle σ) κ} (hc : Collecting counting s.sink) :
    Walks F own stamp.number (frameSegments F o dt stamp counting) n
      (runPhases F.chronicled o dt stamp) id s := by
  have hu := Adding.untimed hF.chronicled stamp stamp.number
  have hinput : Performs F (inputAgenda dt) n
      (Scene.timed .input stamp (inputPhase F.chronicled dt)) s :=
    Plays.timed .input stamp s fun _ _ => performs_inputPhase
  refine Walks.andThen hk hc hinput (timed_adds hk (by decide) stamp (untimed_call hu _) s hc.engine)
    fun _ m s _ _ hc => ?_
  have hsound : Plays F (soundAgenda F o.useSound dt) m.notes
      (Scene.timed .sound stamp (soundPhase F.chronicled o.useSound dt)) id (fun _ => True) s :=
    Plays.timed .sound stamp s fun _ _ => plays_soundPhase o.useSound
  refine Walks.cons hk hc hsound (timed_adds hk (by decide) stamp (untimed_soundPhase hu dt _) s
    hc.engine) (fun goesOn m s' hgo _ _ hc => ?_) fun goesOn s' hgo => ?_
  · obtain rfl : goesOn = true := hgo
    exact (walks_simulate hF hk hc).answering rfl
  · obtain rfl : goesOn = false := hgo
    exact ⟨rfl, rfl⟩

theorem frame_walks (hF : Modest F own) (hk : Steady κ) (o : Orchestrator) (dt : Single)
    (stamp : Stamp) (n : Notes) {s : Scene (Chronicle σ) κ} (hc : Collecting counting s.sink) :
    let segments := frameSegments F o dt stamp counting
    ∃ deeds r m i,
      (frame F.chronicled o dt stamp s).2.world = ⟨m.world, s.world.deeds ++ deeds⟩ ∧
      Passes F segments ⟨s.world.world, n⟩ deeds r m i ∧
      Adds own stamp.number ((segments.take i).flatMap Segment.names) s.sink
        (frame F.chronicled o dt stamp s).2.sink ∧
      (frame F.chronicled o dt stamp s).1 = FrameOutcome.ofResult r := by
  obtain ⟨deeds, m, i, hw, hp, ha⟩ := walks_runPhases hF hk o dt stamp n hc
  rw [frame, bind_apply]
  generalize (runPhases F.chronicled o dt stamp).run s = x at hw hp ha ⊢
  obtain ⟨r, s'⟩ := x
  refine ⟨deeds, r, m, i, ?_, ?_, ?_, ?_⟩
  · rw [← hw]
    rcases r with (_ | _) | (_ | _) <;> rfl
  · cases r <;> exact hp
  · rcases r with (_ | _) | (_ | _) <;> exact ha
  · rcases r with (_ | _) | (_ | _) <;> rfl

end Orchestrator

end Walks

end FrameLoop
