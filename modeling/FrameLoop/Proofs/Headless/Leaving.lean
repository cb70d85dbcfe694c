import FrameLoop.Proofs.Shutdown
import FrameLoop.Proofs.Headless.Stage

/-! How a headless engine is left: the settings and the persistent storage are saved, the report is
flushed and closed, and nothing of what was logged is lost. -/

namespace FrameLoop

variable {σ κ φ ω : Type}

/-- What was logged on the main thread stays in the log. -/
def Logs {α : Type} (act : Act σ κ α) : Prop := ∀ s, ∀ r ∈ s.log, r ∈ (act s).2.log

namespace Logs

theorem chains : Chains (S := Scene σ κ) Logs where
  pure _ _ _ hr := hr
  bind hact hf s r hr := hf _ _ r (hact s r hr)

theorem append (thread : Thread) (records : List Record) :
    Logs (modify (Scene.append thread records) : Act σ κ PUnit) := by
  intro s r hr
  cases thread with
  | main => exact Array.mem_append_left _ hr
  | worker => exact hr

theorem call (F : Facades σ κ) (c : Call) : Logs (F.call c).run :=
  fun _ _ hr => Array.mem_append_left _ hr

theorem tell (F : Facades σ κ) (c : Call) : Logs (F.tell c) :=
  chains.bind (call F c) fun _ => chains.pure _

theorem teardown (F : Facades σ κ) : Logs F.teardown := by
  have hreleases (parts : List Part) : Logs (parts.forM fun part => F.tell (.release part)) :=
    chains.forM fun part => tell F _
  refine chains.bind (tell F _) fun _ => chains.bind (append _ _) fun _ => ?_
  refine chains.bind (hreleases _) fun _ => chains.bind (append _ _) fun _ => ?_
  refine chains.bind (hreleases _) fun _ => chains.bind (append _ _) fun _ => ?_
  exact chains.bind (hreleases _) fun _ => append _ _

end Logs

namespace Engine

section

variable {F : Facades σ FrameStats} [Report ω φ]

theorem logs_flushReport (e : Engine σ φ ω) {r : Record} (hr : r ∈ e.scene.log) :
    r ∈ (flushReport e).2.scene.log :=
  Logs.append .main _ e.scene r hr

/-- The teardown is an arbitrary action here, so that nothing of it has to be unfolded. -/
theorem logs_ending {act : Act σ FrameStats Unit} (hact : Logs act) (e : Engine σ φ ω) {r : Record}
    (hr : r ∈ e.scene.log) :
    r ∈ ((do
      modify fun e => { e with strategy := none }
      onScene act
      tell F .closeRenderer
      note .info "Engine shut down"
      abandon F : Action σ φ ω Unit) e).2.scene.log :=
  Array.mem_append_left _ (Array.mem_append_left _ (Array.mem_append_left _ (hact e.scene r hr)))

theorem logs_release (e : Engine σ φ ω) {r : Record} (hr : r ∈ e.scene.log) :
    r ∈ (release F e).2.scene.log := by
  unfold release
  exact logs_ending (Logs.teardown F) e hr

variable [Storage φ ω]

/-- The storage once the settings are saved. -/
def settled (e : Engine σ φ ω) : φ :=
  match e.settingsPath with
  | none => e.storage
  | some path => (Storage.save path e.settings.toJson e.storage).2

omit [Report ω φ] in
theorem saveSettings_settled {e : Engine σ φ ω}
    (h : ∀ path ∈ e.settingsPath, (Storage.save path e.settings.toJson e.storage).1 = .ok ()) :
    ∃ scene, e.scene.ComesTo scene e.scene.world ∧
      saveSettings e = (none, { e with storage := e.settled, scene }) := by
  rcases Option.eq_none_or_eq_some e.settingsPath with hp | ⟨path, hp⟩
  · have hidle : saveSettings e = (none, e) := by
      simp only [saveSettings, get_bind, hp]
      rfl
    have hsettled : e.settled = e.storage := by simp only [settled, hp]
    rw [hidle, hsettled]
    exact ⟨e.scene, ⟨rfl, rfl⟩, rfl⟩
  · have hok := h path hp
    cases hs : Storage.save path e.settings.toJson e.storage with
    | mk answer storage =>
      rw [hs] at hok
      obtain rfl : answer = .ok () := hok
      obtain ⟨scene, hscene, hsaved⟩ := saveSettings_eq hp hs
      have hsettled : e.settled = storage := by simp only [settled, hp, hs]
      rw [hsettled]
      exact ⟨scene, hscene, hsaved⟩

end

open Headless

variable {menu : Bool} {n r u k : Nat} {e : Engine World φ ω}

/-- What the persistent storage tells when it is saved. -/
def storageSaved (directory : String) (updates : Nat) : Record :=
  ⟨.info, s!"Saving persistent storage to '{directory}' after {updates} updates"⟩

theorem saveStorage_headless (e : Engine World φ ω) :
    ∃ scene, e.scene.ComesTo scene e.scene.world ∧ saveStorage facades e = (none, { e with scene }) ∧
      ∀ directory ∈ e.userDirectory, storageSaved directory e.scene.world.updates ∈ scene.log := by
  obtain ⟨_, _, userDirectory, _, _, _, scene, _, _, _, _, _, _, _⟩ := e
  cases userDirectory with
  | none => exact ⟨scene, ⟨rfl, rfl⟩, rfl, nofun⟩
  | some directory =>
    refine ⟨scene.append .main [storageSaved directory scene.world.updates], ⟨rfl, rfl⟩, rfl, ?_⟩
    intro other hmem
    obtain rfl : directory = other := Option.some.inj hmem
    exact Array.mem_append_right _ (by simp)

/-- What is left of an engine that is shut down: its storage, with the settings saved and the report
closed, and the count of the updates that the persistent storage has seen. -/
structure Left [Report ω φ] [Storage φ ω] (e e' : Engine World φ ω) : Prop where
  simulationTime : e'.simulationTime = e.simulationTime
  storage : e'.storage =
    ((e.telemetry.flush e.settled).1.close (e.telemetry.flush e.settled).2.1).1
  saved : ∀ directory ∈ e.userDirectory,
    storageSaved directory e.scene.world.updates ∈ e'.scene.log

variable [Report ω φ] [Storage φ ω]

omit [Report ω φ] [Storage φ ω] in
theorem released_stays {w : World} (h : Stage menu n r u w) (parts : List Part) :
    Stage menu n r u (released (facades : Facades World FrameStats) w parts) := by
  induction parts generalizing w with
  | nil => exact h
  | cons part parts ih => exact ih (h.perform (c := .release part) rfl).2

theorem shutdown_headless (hr : Resumable e)
    (hsaves : ∀ path ∈ e.settingsPath, (Storage.save path e.settings.toJson e.storage).1 = .ok ())
    (hs : Stage menu n r u e.scene.world) :
    (shutdown facades e).1 = .ok () ∧ Left e (shutdown facades e).2 ∧
      Stage menu n r u (shutdown facades e).2.scene.world := by
  obtain ⟨strategy, he, hrested⟩ := hr
  obtain ⟨-, hw₁, -⟩ := hrested.joins (F := (facades : Facades World FrameStats)) e.scene
  have hshutdown := shutdown_eq facades e
  dsimp only at hshutdown
  rw [onStrategy_eq he] at hshutdown
  generalize hjoin : UpdateStrategy.join facades strategy e.scene = joined at hshutdown hw₁
  obtain ⟨strategy₁, s₁⟩ := joined
  let e₁ : Engine World φ ω := { e with scene := s₁, strategy := some strategy₁ }
  obtain ⟨s₂, hs₂, hsaved⟩ := saveSettings_settled (e := e₁) hsaves
  let e₂ : Engine World φ ω := { e₁ with storage := e₁.settled, scene := s₂ }
  obtain ⟨s₃, hs₃, hstored, hlog⟩ := saveStorage_headless e₂
  let e₃ : Engine World φ ω := { e₂ with scene := s₃ }
  have hworld : s₃.world = e.scene.world := hs₃.world.trans (hs₂.world.trans hw₁)
  have hupdates : e₂.scene.world.updates = e.scene.world.updates :=
    congrArg World.updates (hs₂.world.trans hw₁)
  have hend : shutdown facades e = (.ok (), (release facades (flushReport e₃).2).2) := by
    rw [hshutdown, hsaved, hstored]
    rfl
  obtain ⟨s₅, hs₅, hreleased⟩ := release_eq (F := facades) (flushReport e₃).2
  rw [hend]
  dsimp only
  refine ⟨rfl, ⟨?_, ?_, fun directory hmem => ?_⟩, ?_⟩
  · rw [hreleased]
    rfl
  · rw [hreleased]
    rfl
  · have hlogged := logs_flushReport e₃ (hlog directory hmem)
    rw [hupdates] at hlogged
    exact logs_release (F := facades) (flushReport e₃).2 hlogged
  · rw [hreleased]
    have hstage : Stage menu n r u (flushReport e₃).2.scene.world := by
      have hsame : (flushReport e₃).2.scene.world = e.scene.world := hworld
      rw [hsame]
      exact hs
    have hdown := released_stays hstage parts
    have hclosed := hs₅.world
    generalize released (facades : Facades World FrameStats) (flushReport e₃).2.scene.world parts = w
      at hdown hclosed
    exact hclosed ▸ (hdown.perform (c := .closeRenderer) rfl).2

theorem leave_headless (hr : Resumable e)
    (hsaves : ∀ path ∈ e.settingsPath, (Storage.save path e.settings.toJson e.storage).1 = .ok ())
    (hs : Stage menu n r u e.scene.world) :
    (leave facades e).1 = .ok () ∧ Left e (leave facades e).2 ∧
      Stage menu n r u (leave facades e).2.scene.world := by
  obtain ⟨scene, hworld, hleave⟩ : ∃ scene, scene.world = e.scene.world ∧
      leave facades e = shutdown facades { e with scene } := by
    refine ⟨(note .info s!"Main loop exited after {e.counter.next} frames" e).2.scene, rfl, ?_⟩
    rw [leave, get_bind, bind_apply]
    rfl
  rw [← hworld] at hs
  have hshutdown := shutdown_headless (e := { e with scene }) (hr.of_eq rfl) hsaves hs
  rw [← hleave] at hshutdown
  obtain ⟨hok, hleft, hstage⟩ := hshutdown
  refine ⟨hok, ⟨hleft.simulationTime, hleft.storage, ?_⟩, hstage⟩
  rw [← hworld]
  exact hleft.saved

end Engine

end FrameLoop
