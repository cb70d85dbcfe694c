import FrameLoop.Proofs.IterationCalls

/-! What an engine asks of the scripting engine when it is shut down: nothing before the worker
is gone, and then to save the storage, if anything. -/

namespace FrameLoop.Engine

variable {σ φ ω : Type} {F : Facades σ FrameStats}

theorem silent_teardown : Silent (F.watched.teardown : Act (Watched σ) FrameStats Unit) := by
  refine (Silent.tell rfl).bind fun _ => (Silent.note _ _ (by decide)).bind fun _ => ?_
  refine (Silent.forM fun _ => .tell rfl).bind fun _ => ?_
  refine (Silent.note _ _ (by decide)).bind fun _ => ?_
  refine (Silent.forM fun _ => .tell rfl).bind fun _ => ?_
  refine (Silent.note _ _ (by decide)).bind fun _ => ?_
  exact (Silent.forM fun _ => .tell rfl).bind fun _ => .note _ _ (by decide)

theorem asks_then_abandon {α : Type} {act : Action (Watched σ) φ ω α}
    {f : α → Action (Watched σ) φ ω Unit} (h : Silent act)
    (hf : ∀ a e, e.strategy = none → FrameLoop.Asks [] e.scene (f a e).2.scene)
    (e : Engine (Watched σ) φ ω) (he : e.strategy = none) :
    FrameLoop.Asks [] e.scene ((act >>= f) e).2.scene :=
  (h e).scene.trans (hf _ _ ((h e).strategy.trans he))

theorem save_levels [Storage φ ω] (settings : Settings) (path : String) (storage : φ) :
    ∀ r ∈ (settings.save path storage).2.1, r.level ≠ .warn := by
  intro r hr
  unfold Settings.save at hr
  split at hr
  · cases hr
  · rw [List.mem_singleton.mp hr]
    exact (by decide : Level.info ≠ .warn)

theorem silent_saveSettings [Storage φ ω] :
    Silent (saveSettings : Action (Watched σ) φ ω (Option EngineError)) := by
  intro e
  unfold saveSettings
  rw [get_bind]
  dsimp only
  cases hp : e.settingsPath with
  | none => exact adds_nil _
  | some path =>
    have hlog := save_levels e.settings path e.storage
    refine asks_set_then ?_ rfl rfl
    refine (silent_append fun r hr hm => hlog r hr hm.level).bind fun _ => ?_
    split
    · exact .pure _
    · exact (silent_note _ (by decide)).bind fun _ => .pure _

theorem makes_saveStorage :
    Makes (saveStorage F.watched : Action (Watched σ) φ ω (Option EngineError)) fun _ calls =>
      ∃ directory : Option String, calls = (directory.map .saveStorage).toList := by
  refine (silent_of_scene fun _ => ⟨rfl, rfl⟩).then_makes fun e => ?_
  cases e.userDirectory with
  | none => exact .pure ⟨none, rfl⟩
  | some directory =>
    have hcall : Makes (onScene (F.watched.call (.saveStorage directory)).run :
        Action (Watched σ) φ ω _) fun _ calls => calls = [.saveStorage directory] :=
      makes_onScene (FrameLoop.makes_call _)
    refine hcall.bind fun r calls hc => ?_
    subst hc
    cases r with
    | ok _ => exact .pure ⟨some directory, rfl⟩
    | error f =>
      refine (silent_note _ (by decide)).then_makes fun _ => .pure ?_
      exact ⟨some directory, rfl⟩

variable [Report ω φ]

theorem flush_log (t : Telemetry ω) (storage : φ) :
    ∀ r ∈ (t.flush storage).2.2, ¬ Misuse r := by
  intro r hr hm
  have ho := hm.opening
  unfold Telemetry.flush at hr
  split at hr
  · cases hr
  · dsimp only at hr
    split at hr
    · cases hr
    · rw [List.mem_singleton.mp hr] at ho
      simp [String.toList_append, toString] at ho

theorem silent_flushReport : Silent (flushReport : Action (Watched σ) φ ω Unit) := by
  intro e
  unfold flushReport
  rw [get_bind]
  exact asks_set_then (silent_append (flush_log e.telemetry e.storage)) rfl rfl

theorem asks_abandon {e : Engine (Watched σ) φ ω} (he : e.strategy = none) :
    FrameLoop.Asks [] e.scene (abandon F.watched e).2.scene := by
  obtain ⟨_, _, _, _, _, _, _, _, _, _, _, _, _, _⟩ := e
  cases he
  exact .append .main _ (flush_log _ _)

theorem asks_release (e : Engine (Watched σ) φ ω) :
    FrameLoop.Asks [] e.scene (release F.watched e).2.scene := by
  unfold release
  rw [modify_bind]
  refine asks_then_abandon (silent_onScene silent_teardown) (fun _ => ?_) { e with strategy := none } rfl
  refine asks_then_abandon (silent_tell rfl) fun _ => ?_
  exact asks_then_abandon (silent_note _ (by decide)) fun _ _ => asks_abandon

variable [Storage φ ω]

/-- The worker is gone before the storage is saved. -/
theorem shutdown_asks {e : Engine (Watched σ) φ ω} {strategy : UpdateStrategy}
    (he : e.strategy = some strategy) (hs : strategy.Rested) :
    ∃ joined, (onStrategy (UpdateStrategy.join F.watched) e).2.strategy = some joined ∧
      joined.Joined ∧
      FrameLoop.Asks [] e.scene (onStrategy (UpdateStrategy.join F.watched) e).2.scene ∧
      ∃ directory : Option String, FrameLoop.Asks (directory.map .saveStorage).toList
        (onStrategy (UpdateStrategy.join F.watched) e).2.scene (shutdown F.watched e).2.scene := by
  obtain ⟨hjoined, hjoin⟩ := hs.join (F := F) e.scene
  have he1 := onStrategy_eq he (UpdateStrategy.join F.watched)
  simp only [shutdown, bind_apply, pure_apply]
  generalize (onStrategy (UpdateStrategy.join F.watched) e).2 = e1 at he1 ⊢
  refine ⟨_, congrArg Engine.strategy he1, hjoined, congrArg Engine.scene he1 ▸ hjoin, ?_⟩
  have hsettings := silent_saveSettings e1
  obtain ⟨calls, hstorage, directory, rfl⟩ := makes_saveStorage (F := F) (saveSettings e1).2
  have hflush := silent_flushReport (saveStorage F.watched (saveSettings e1).2).2
  have hrelease := asks_release (F := F)
    (flushReport (saveStorage F.watched (saveSettings e1).2).2).2
  have hall := ((hsettings.scene.trans hstorage.scene).trans hflush.scene).trans hrelease
  simp only [List.append_nil, List.nil_append] at hall
  exact ⟨directory, hall⟩

end FrameLoop.Engine
