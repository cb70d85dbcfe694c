import FrameLoop.Proofs.Service
import FrameLoop.Proofs.Throughout

/-! What a frame writes into the statistics, all of it under its own number. -/

namespace FrameLoop

variable {σ κ α ε : Type} [StatsSink κ]

/-- From one scene to the other these attributes, each a name and a value, were written for a
frame. -/
def Wrote (frame : Nat) (writes : List (String × Double)) (s s' : Scene σ κ) : Prop :=
  s'.sink = storeAll s.sink (writes.map (Prod.mk frame))

namespace Wrote

variable {frame : Nat} {writes more : List (String × Double)} {s s' s'' : Scene σ κ}

theorem of_sink (h : s'.sink = s.sink) : Wrote frame [] s s' := h

theorem trans (h : Wrote frame writes s s') (h' : Wrote frame more s' s'') :
    Wrote frame (writes ++ more) s s'' := by
  rw [Wrote, List.map_append, storeAll_append, ← h]
  exact h'

theorem collects (hk : Steady κ) (h : Wrote frame writes s s') (category : String) :
    StatsSink.collects s'.sink category = StatsSink.collects s.sink category := by
  rw [h, hk.collects_storeAll]

/-- Attributes that were stored under keys of one frame. -/
theorem of_stores {stores : List (Nat × String × Double)} {names : List String}
    (h : s'.sink = storeAll s.sink stores) (hkeys : stores.map storeKey = names.map (Prod.mk frame)) :
    ∃ writes, Wrote frame writes s s' ∧ writes.map Prod.fst = names := by
  refine ⟨stores.map Prod.snd, ?_, ?_⟩
  · have hframe : ∀ a ∈ stores, a.1 = frame := by
      intro a ha
      have hkey : storeKey a ∈ names.map (Prod.mk frame) := hkeys ▸ List.mem_map_of_mem ha
      obtain ⟨name, -, hname⟩ := List.mem_map.mp hkey
      exact (congrArg Prod.fst hname).symm
    have hback : (stores.map Prod.snd).map (Prod.mk frame) = stores := by
      rw [List.map_map]
      refine (List.map_congr_left fun a ha => ?_).trans (List.map_id _)
      rw [← hframe a ha]
      rfl
    rw [Wrote, hback]
    exact h
  · have hnames := congrArg (List.map Prod.snd) hkeys
    rw [List.map_map, List.map_map] at hnames
    rw [List.map_map]
    exact hnames.trans (List.map_id _)

end Wrote

/-- The keys under which a phase is timed. -/
def Phase.keys (p : Phase) : List String := [p.beginKey, p.takenKey, p.endKey]

theorem Phase.receipts_eq (p : Phase) (collecting : Bool) (frame : Nat) :
    p.receipts collecting frame = (if collecting then p.keys else []).map (Prod.mk frame) := by
  cases collecting <;> rfl

/-- The action writes attributes of one frame, and does nothing else to the statistics. -/
def Pens (frame : Nat) (act : Act σ κ α) : Prop :=
  ∀ s, ∃ writes, Wrote frame writes s (act s).2

namespace Pens

variable {frame : Nat}

theorem of_sink {act : Act σ κ α} (h : ∀ s, (act s).2.sink = s.sink) : Pens frame act :=
  fun s => ⟨[], .of_sink (h s)⟩

theorem chains (frame : Nat) : Chains (S := Scene σ κ) (Pens frame) where
  pure _ _ := ⟨[], rfl⟩
  bind {α β act f} hact hf s := by
    obtain ⟨writes, hw⟩ := hact s
    obtain ⟨more, hm⟩ := hf (act s).1 (act s).2
    exact ⟨writes ++ more, hw.trans hm⟩

theorem timing (stamp : Stamp) : Timing (σ := σ) (κ := κ) (Pens stamp.number) stamp where
  toChains := chains _
  now := .of_sink fun _ => rfl
  collects _ := .of_sink fun _ => rfl
  setAttribute name value _ := ⟨[(name, value)], rfl⟩

end Pens

/-- At the end of a phase its timings are written, if they are collected. -/
theorem Scene.closePhase_wrote (phase : Phase) (stamp : Stamp) (start : Instant) (s : Scene σ κ) :
    ∃ writes, Wrote stamp.number writes s (closePhase phase stamp start s).2 ∧
      writes.map Prod.fst =
        if StatsSink.collects s.sink engineStats then phase.keys else [] := by
  obtain ⟨stores, hstores, hkeys⟩ := closePhase_stores phase stamp start s
  rw [Phase.receipts_eq] at hkeys
  exact Wrote.of_stores hstores hkeys

/-- The physics and the reports write nothing but attributes of the frame that they are told. -/
structure Punctual (F : Facades σ κ) : Prop where
  stepPhysics : ∀ dt guiActive stamp, Pens stamp.number (F.stepPhysics dt guiActive stamp).run
  reportPart : ∀ part frame, Pens frame (F.reportPart part frame)

theorem Punctual.throughout {F : Facades σ κ} (h : Punctual F) (stamp : Stamp) :
    Throughout (Pens stamp.number) F stamp where
  toTiming := Pens.timing stamp
  note thread _ _ := .of_sink fun _ => by cases thread <;> rfl
  ask _ := .of_sink fun _ => rfl
  change _ := .of_sink fun _ => rfl
  call _ := .of_sink fun _ => rfl
  nextEntry := .of_sink fun _ => rfl
  runLocal _ := .of_sink fun _ => rfl
  stepPhysics dt guiActive := h.stepPhysics dt guiActive stamp
  reportPart part := h.reportPart part stamp.number

/-- The timings of a phase are written at its end, if they are collected. -/
theorem timed_wrote (hk : Steady κ) (phase : Phase) (stamp : Stamp) {body : Attempt ε σ κ α}
    (hbody : Pens stamp.number body.run) (s : Scene σ κ)
    (hc : StatsSink.collects s.sink engineStats = true) :
    ∃ writes, Wrote stamp.number writes s ((Scene.timed phase stamp body).run s).2 ∧
      ∀ key ∈ phase.keys, key ∈ writes.map Prod.fst := by
  obtain ⟨writes, hw⟩ := hbody (Scene.now s).2
  have hcollects : StatsSink.collects (body.run (Scene.now s).2).2.sink engineStats = true :=
    (hw.collects hk engineStats).trans hc
  obtain ⟨more, hm, hnames⟩ :=
    Scene.closePhase_wrote phase stamp (Scene.now s).1 (body.run (Scene.now s).2).2
  rw [hcollects, if_pos rfl] at hnames
  have hstart : Wrote stamp.number [] s (Scene.now s).2 := .of_sink rfl
  refine ⟨[] ++ writes ++ more, (hstart.trans hw).trans hm, fun key hkey => ?_⟩
  rw [List.map_append, hnames]
  exact List.mem_append_right _ hkey

namespace Orchestrator

variable {F : Facades σ κ} (o : Orchestrator) (dt : Single) (stamp : Stamp)

/-- A frame writes under its own number, and at least the timings of its first phase. -/
theorem frame_wrote (hF : Punctual F) (hk : Steady κ) (s : Scene σ κ)
    (hc : StatsSink.collects s.sink engineStats = true) :
    ∃ writes, Wrote stamp.number writes s (frame F o dt stamp s).2 ∧
      ∀ key ∈ Phase.input.keys, key ∈ writes.map Prod.fst := by
  have hall := hF.throughout stamp
  let Q : ∀ {α : Type}, Act σ κ α → Prop := fun act => ∀ s : Scene σ κ,
    StatsSink.collects s.sink engineStats = true → ∃ writes, Wrote stamp.number writes s (act s).2 ∧
      ∀ key ∈ Phase.input.keys, key ∈ writes.map Prod.fst
  have hinput : Q (Scene.timed .input stamp (inputPhase F dt)).run :=
    timed_wrote hk .input stamp (untimed_call hall.phased.toUntimed _)
  refine opened_frame (Q := Q) hall.phased dt (fun {α β act f} hact hf s hc => ?_) o hinput s hc
  obtain ⟨writes, hw, hkeys⟩ := hact s hc
  obtain ⟨more, hm⟩ := hf (act s).1 (act s).2
  refine ⟨writes ++ more, hw.trans hm, fun key hkey => ?_⟩
  rw [List.map_append]
  exact List.mem_append_left _ (hkeys key hkey)

end Orchestrator

/-- Between an allow and the finish after it the timings of the update are written, under the
number of its frame, if they are collected. -/
theorem UpdateStrategy.Rested.wrote {F : Facades σ κ} {strategy : UpdateStrategy}
    (hs : strategy.Rested) (hk : Steady κ) (stamp : Stamp) (s s' : Scene σ κ)
    (hsink : s'.sink = (strategy.allow F stamp s).2.sink) :
    ((strategy.allow F stamp s).1.finish F s').1.Rested ∧
      ∃ writes, Wrote stamp.number writes s ((strategy.allow F stamp s).1.finish F s').2 ∧
        writes.map Prod.fst =
          if StatsSink.collects s.sink engineStats then Phase.lua.keys else [] := by
  obtain ⟨hrested, stores, hstores, hkeys⟩ := hs.stores (F := F) hk stamp s s' hsink
  rw [Phase.receipts_eq] at hkeys
  exact ⟨hrested, Wrote.of_stores hstores hkeys⟩

end FrameLoop
