import FrameLoop.Proofs.Play

/-! What every engine has that was built: it is in the assembled engine, and the preparations leave
it alone. -/

namespace FrameLoop.Engine

variable {σ φ ω : Type} {F : Facades σ FrameStats} [Report ω φ] [Storage φ ω]

/-- The engine with its report opened and all statistics collected. -/
def reporting (e : Engine σ φ ω) (telemetry : Telemetry ω) (storage : φ) (log : List Record) :
    Engine σ φ ω :=
  let scene := e.scene.append .main log
  { e with telemetry, storage, scene := { scene with sink := collectAll scene.sink } }

theorem withStatsFile_ok {e e' : Engine σ φ ω} {path : String}
    (h : withStatsFile F path e = .ok e') :
    ∃ telemetry storage log, e' = e.reporting telemetry storage log := by
  unfold withStatsFile at h
  split at h
  · cases h
  · cases h
    exact ⟨_, _, _, rfl⟩

def Preparation.isTold : Preparation → Bool
  | told _ _ _ _ => true
  | reporting _ => false

/-- A property of engines that are prepared, in dependence on what they were told. -/
structure Prepared (P : List Preparation → Engine σ φ ω → Prop) : Prop where
  told : ∀ done e settingsPath userDirectory startup startupScript, P done e →
    P (done ++ [.told settingsPath userDirectory startup startupScript])
      { e with settingsPath, userDirectory, startup, startupScript }
  reporting : ∀ done (e : Engine σ φ ω) telemetry storage log, P done e →
    P done (e.reporting telemetry storage log)

namespace Prepared

variable {P : List Preparation → Engine σ φ ω → Prop}

theorem equip (h : Prepared P) {done : List Preparation} {e e' : Engine σ φ ω}
    {preparation : Preparation} (he : P done e) (hp : equip F e preparation = .ok e') :
    P (done ++ [preparation].filter Preparation.isTold) e' := by
  cases preparation with
  | told settingsPath userDirectory startup startupScript =>
    cases hp
    exact h.told done e settingsPath userDirectory startup startupScript he
  | reporting path =>
    obtain ⟨telemetry, storage, log, rfl⟩ := withStatsFile_ok hp
    have hreporting := h.reporting done e telemetry storage log he
    rwa [← List.append_nil done] at hreporting

/-- What the assembled engine has, the engine has that was built. -/
theorem build (h : Prepared P) {settings : Settings} {world : σ} {storage : φ} {clock : Clock}
    {schedule : Schedule} {statsFile : Option String} {patience : Nat}
    {preparations : List Preparation} {e : Engine σ φ ω}
    (hassembled : settings.problem? = none →
      P [] (assembled settings storage patience
        (prepare settings (opening settings world clock schedule))))
    (hb : build F settings world storage clock schedule statsFile patience preparations = .ok e) :
    P (preparations.filter Preparation.isTold) e := by
  have hmore {done : List Preparation} {made : Engine σ φ ω} (hmade : P done made)
      (hfold : preparations.foldlM (Engine.equip F) made = .ok e) :
      P (done ++ preparations.filter Preparation.isTold) e := by
    clear hb
    induction preparations generalizing made done with
    | nil =>
      cases hfold
      rwa [List.filter_nil, List.append_nil]
    | cons preparation rest ih =>
      cases hp : Engine.equip F made preparation with
      | error r =>
        rw [List.foldlM_cons, hp] at hfold
        cases hfold
      | ok next =>
        rw [List.foldlM_cons, hp] at hfold
        change rest.foldlM (Engine.equip F) next = .ok e at hfold
        have hall := ih (h.equip hmade hp) hfold
        rwa [List.append_assoc, ← List.filter_append] at hall
  unfold Engine.build at hb
  cases hn : Engine.new F settings world storage clock schedule statsFile patience with
  | error r =>
    rw [hn] at hb
    cases hb
  | ok made =>
    rw [hn] at hb
    rw [← List.nil_append (preparations.filter Preparation.isTold)]
    refine hmore ?_ hb
    cases hp : settings.problem? with
    | some problem =>
      rw [new_of_problem F hp] at hn
      cases hn
    | none =>
      rw [new_eq F hp] at hn
      cases statsFile with
      | none =>
        cases hn
        exact hassembled hp
      | some path =>
        obtain ⟨telemetry, storage', log, rfl⟩ := withStatsFile_ok hn
        exact h.reporting [] _ telemetry storage' log (hassembled hp)

end Prepared

end FrameLoop.Engine
