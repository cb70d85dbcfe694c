import FrameLoop.Proofs.Handshake.Outstanding
import FrameLoop.Proofs.Strategy

/-! Rendering and scripting that keep to parts of the world of their own: whether an update overlaps
the rendering or follows it makes no difference then. -/

namespace FrameLoop

/-- A part of a world. -/
structure Lens (σ α : Type) where
  get : σ → α
  set : α → σ → σ
  get_set : ∀ a w, get (set a w) = a
  set_get : ∀ w, set (get w) w = w

namespace Lens

variable {σ α β γ : Type} {l : Lens σ α} {m : Lens σ β}

/-- The parts have nothing in common: it does not matter which of them is set first. -/
def Apart (l : Lens σ α) (m : Lens σ β) : Prop :=
  ∀ a b w, l.set a (m.set b w) = m.set b (l.set a w)

/-- The action reads and changes nothing but the part. -/
def Covers (l : Lens σ α) (act : σ → Outcome γ σ) : Prop :=
  ∃ inside : α → Outcome γ α, ∀ w,
    act w = ⟨(inside (l.get w)).answer, l.set (inside (l.get w)).world w, (inside (l.get w)).log⟩

theorem Apart.symm (h : l.Apart m) : m.Apart l := fun a b w => (h b a w).symm

theorem Apart.get_set (h : l.Apart m) (b : β) (w : σ) : l.get (m.set b w) = l.get w := by
  have hset := h (l.get w) b w
  rw [l.set_get] at hset
  rw [← hset, l.get_set]

/-- An action on one part takes no notice of the other, and leaves it alone. -/
theorem Covers.set {act : σ → Outcome γ σ} (ha : l.Covers act) (h : l.Apart m) (b : β) (w : σ) :
    act (m.set b w) = ⟨(act w).answer, m.set b (act w).world, (act w).log⟩ := by
  obtain ⟨inside, hinside⟩ := ha
  rw [hinside, hinside, h.get_set, h]

end Lens

variable {σ κ : Type} {F : Facades σ κ}

/-- The world after its rendering. -/
def Facades.rendered (F : Facades σ κ) (w : σ) : σ := (F.perform .renderingTraversals w).world

/-- The rendering and the updates of the scripting engine touch disjoint parts of the world. -/
def Separate (F : Facades σ κ) : Prop :=
  ∃ (α β : Type) (drawn : Lens σ α) (scripted : Lens σ β), drawn.Apart scripted ∧
    drawn.Covers (F.perform .renderingTraversals) ∧ ∀ stamp, scripted.Covers (F.updateScripting stamp)

namespace Separate

open Update

theorem answer (h : Separate F) (stamp : Stamp) (w : σ) :
    (F.perform .renderingTraversals (updated F w stamp)).answer =
      (F.perform .renderingTraversals w).answer := by
  obtain ⟨α, β, drawn, scripted, hapart, hdraw, hscript⟩ := h
  obtain ⟨inside, hinside⟩ := hscript stamp
  rw [updated, hinside, hdraw.set hapart]

theorem updated_rendered (h : Separate F) (stamp : Stamp) (w : σ) :
    updated F (F.rendered w) stamp = F.rendered (updated F w stamp) := by
  obtain ⟨α, β, drawn, scripted, hapart, hdraw, hscript⟩ := h
  obtain ⟨draw, hinside⟩ := id hdraw
  obtain ⟨run, hrun⟩ := id (hscript stamp)
  have hrendered : F.rendered w = drawn.set (draw (drawn.get w)).world w := by
    rw [Facades.rendered, hinside]
  have hupdated : updated F w stamp = scripted.set (run (scripted.get w)).world w := by
    rw [updated, hrun]
  calc updated F (F.rendered w) stamp
      = drawn.set (draw (drawn.get w)).world (updated F w stamp) := by
        rw [hrendered, updated, (hscript stamp).set hapart.symm, updated]
    _ = scripted.set (run (scripted.get w)).world (F.rendered w) := by
        rw [hupdated, hrendered, hapart]
    _ = F.rendered (updated F w stamp) := by
        rw [hupdated, Facades.rendered, Facades.rendered, hdraw.set hapart]

end Separate

variable [StatsSink κ]

/-- Updates on different threads leave scenes that are alike. -/
theorem Update.alike_run (thread thread' : Thread) (stamp : Stamp) {s s' : Scene σ κ}
    (h : Scene.Alike s s') :
    Scene.Alike (Update.run F thread stamp s).2 (Update.run F thread' stamp s').2 := by
  obtain ⟨hstart, hs⟩ := Respects.now s s' h
  have hperform : Scene.Alike (perform F thread stamp (Scene.now s).2).2
      (perform F thread' stamp (Scene.now s').2).2 := by
    rw [perform_eq, perform_eq, hs.world]
    exact Scene.Alike.append _ _ _ _ ⟨rfl, hs.sink, hs.clock⟩
  have hclose := ((Respects.timing stamp).closePhase .lua (Scene.now s).1 _ _ hperform).2
  change Scene.Alike _
    (Scene.closePhase .lua stamp (Scene.now s').1 (perform F thread' stamp (Scene.now s').2).2).2
  rw [← hstart]
  exact hclose

namespace UpdateStrategy

open Update

variable {strategy : UpdateStrategy}

/-- With a worker or without, an allow, a change of the world that takes no notice of updates and
the finish come to the same as the change and one update after it. -/
theorem Rested.around (hs : strategy.Rested) (stamp : Stamp) {g : σ → σ}
    (hg : ∀ stamp w, updated F (g w) stamp = g (updated F w stamp)) {s s' : Scene σ κ}
    (h : Scene.Alike s' ((strategy.allow F stamp s).2.onWorld g)) :
    ((strategy.allow F stamp s).1.finish F s').1.Rested ∧
      Scene.Alike ((strategy.allow F stamp s).1.finish F s').2
        (Update.run F .main stamp (s.onWorld g)).2 := by
  cases strategy with
  | synchronous pending =>
    obtain rfl : pending = none := hs
    exact ⟨rfl, alike_run .main .main stamp h⟩
  | threaded t =>
    obtain ⟨hrested, hfinish⟩ := Threaded.Rested.around hs stamp hg h
    exact ⟨hrested, hfinish.trans (alike_run .worker .main stamp (.refl _))⟩

/-- What updates do not change can be seen at any time. -/
theorem Rested.look (hs : strategy.Rested) (stamp : Stamp) (s : Scene σ κ) {β : Type}
    {look : σ → β} (hl : ∀ stamp w, look (updated F w stamp) = look w) :
    look (strategy.allow F stamp s).2.world = look s.world := by
  cases strategy with
  | synchronous pending =>
    obtain rfl : pending = none := hs
    rfl
  | threaded t => exact Threaded.Rested.look hs stamp s hl

/-- With a worker or without, an allow, the rendering and a finish come to the rendering and one
update after it. -/
theorem Rested.overlap (hs : strategy.Rested) (hF : Separate F) (stamp : Stamp) (s : Scene σ κ) :
    let allowed := strategy.allow F stamp s
    let rendered := (F.call .renderingTraversals).run allowed.2
    rendered.1 = (F.perform .renderingTraversals s.world).answer ∧
      (allowed.1.finish F rendered.2).1.Rested ∧
      Scene.Alike (allowed.1.finish F rendered.2).2
        (Update.run F .main stamp (s.onWorld F.rendered)).2 := by
  let look (w : σ) := (F.perform .renderingTraversals w).answer
  have hlook : look (strategy.allow F stamp s).2.world = look s.world :=
    hs.look stamp s hF.answer
  exact ⟨hlook, hs.around stamp hF.updated_rendered ⟨rfl, rfl, rfl⟩⟩

end UpdateStrategy

end FrameLoop
