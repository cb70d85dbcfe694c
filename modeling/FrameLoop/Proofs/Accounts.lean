/-! Actions that account for the calls they make. What an action leaves behind is told by the
calls it made and by its result; actions in a row make their calls in a row. -/

namespace FrameLoop

/-- A state that changes by calls: `adds calls s s'` if they may lead from one to the other. -/
class Accounts (γ : outParam Type) (S : Type) where
  adds : List γ → S → S → Prop
  adds_nil (s : S) : adds [] s s
  adds_append {calls more : List γ} {s s' s'' : S} :
    adds calls s s' → adds more s' s'' → adds (calls ++ more) s s''

export Accounts (adds adds_nil adds_append)

variable {γ S α β ε : Type}

theorem bind_apply (act : StateM S α) (f : α → StateM S β) (s : S) :
    (act >>= f) s = f (act s).1 (act s).2 := rfl

theorem pure_apply (a : α) (s : S) : (pure a : StateM S α) s = (a, s) := rfl

theorem get_bind (f : S → StateM S α) (s : S) : (get >>= f) s = f s s := rfl

theorem modify_bind (g : S → S) (f : PUnit → StateM S α) (s : S) :
    (modify g >>= f) s = f ⟨⟩ (g s) := rfl

variable [Accounts γ S]

/-- However it goes, the action makes calls that fit what it returns. -/
def Makes (act : StateM S α) (Q : α → List γ → Prop) : Prop :=
  ∀ s, ∃ calls, adds calls s (act s).2 ∧ Q (act s).1 calls

/-- The action makes no call. -/
def Silent (act : StateM S α) : Prop := ∀ s, adds [] s (act s).2

namespace Makes

variable {act : StateM S α} {f : α → StateM S β} {P Q : α → List γ → Prop}
  {R : β → List γ → Prop}

theorem mono (h : Makes act P) (hpq : ∀ a calls, P a calls → Q a calls) : Makes act Q := by
  intro s
  obtain ⟨calls, ha, hp⟩ := h s
  exact ⟨calls, ha, hpq _ _ hp⟩

theorem pure {a : α} (h : Q a []) : Makes (Pure.pure a : StateM S α) Q :=
  fun s => ⟨[], adds_nil s, h⟩

theorem bind (h : Makes act P)
    (hf : ∀ a calls, P a calls → Makes (f a) fun b more => R b (calls ++ more)) :
    Makes (act >>= f) R := by
  intro s
  obtain ⟨calls, ha, hp⟩ := h s
  obtain ⟨more, hb, hr⟩ := hf _ _ hp (act s).2
  exact ⟨calls ++ more, adds_append ha hb, hr⟩

end Makes

namespace Silent

variable {act : StateM S α} {f : α → StateM S β} {R : β → List γ → Prop}

theorem pure (a : α) : Silent (Pure.pure a : StateM S α) := adds_nil

theorem bind (h : Silent act) (hf : ∀ a, Silent (f a)) : Silent (act >>= f) :=
  fun s => adds_append (h s) (hf _ _)

theorem makes (h : Silent act) : Makes act fun _ calls => calls = [] :=
  fun s => ⟨[], h s, rfl⟩

theorem then_makes (h : Silent act) (hf : ∀ a, Makes (f a) R) : Makes (act >>= f) R :=
  h.makes.bind fun a _ hn => by subst hn; exact hf a

theorem forM {l : List α} {f : α → StateM S PUnit} (h : ∀ a, Silent (f a)) :
    Silent (l.forM f) := by
  induction l with
  | nil => exact .pure _
  | cons a l ih => exact (h a).bind fun _ => ih

end Silent

theorem Makes.forM {l : List α} {f : α → StateM S PUnit} {g : α → List γ}
    (h : ∀ a, Makes (f a) fun _ calls => calls = g a) :
    Makes (l.forM f) fun _ calls => calls = l.flatMap g := by
  induction l with
  | nil => exact (Silent.pure PUnit.unit).makes
  | cons a l ih =>
    refine (h a).bind fun _ calls hc => ih.mono fun _ more hm => ?_
    rw [hc, hm, List.flatMap_cons]

section

variable {act : ExceptT ε (StateM S) α} {f : α → ExceptT ε (StateM S) β}
  {P : Except ε α → List γ → Prop} {R : Except ε β → List γ → Prop}

/-- An attempt that stops early leaves the rest of its calls out. -/
theorem Makes.attempt_bind (h : Makes act.run P)
    (hok : ∀ a calls, P (.ok a) calls → Makes (f a).run fun b more => R b (calls ++ more))
    (herr : ∀ e calls, P (.error e) calls → R (.error e) calls) : Makes (act >>= f).run R := by
  refine Makes.bind (f := ExceptT.bindCont f) h fun r calls hp => ?_
  cases r with
  | ok a => exact hok a calls hp
  | error e =>
    intro s
    refine ⟨[], adds_nil s, ?_⟩
    simp only [List.append_nil]
    exact herr e calls hp

theorem Silent.attempt_bind (h : Silent act.run) (hf : ∀ a, Silent (f a).run) :
    Silent (act >>= f).run := by
  refine Silent.bind (f := ExceptT.bindCont f) h fun r => ?_
  cases r with
  | ok a => exact hf a
  | error _ => exact .pure _

theorem Silent.attempt_then_makes (h : Silent act.run) (hf : ∀ a, Makes (f a).run R)
    (herr : ∀ e, R (.error e) []) : Makes (act >>= f).run R := by
  refine h.makes.attempt_bind (fun a calls hn => ?_) fun e calls hn => ?_
  · subst hn; exact hf a
  · subst hn; exact herr e

theorem Makes.lift {act : StateM S α} {P : α → List γ → Prop} {Q : Except ε α → List γ → Prop}
    (h : Makes act P) (hq : ∀ a calls, P a calls → Q (.ok a) calls) :
    Makes (ExceptT.lift act : ExceptT ε (StateM S) α).run Q :=
  h.bind fun a calls hp => .pure (by simpa using hq a calls hp)

theorem Makes.adapt {ε' : Type} {g : ε → ε'} {Q : Except ε' α → List γ → Prop}
    (h : Makes act.run P) (hq : ∀ r calls, P r calls → Q (r.mapError g) calls) :
    Makes (act.adapt g).run Q :=
  h.bind fun r calls hp => .pure (by simpa using hq r calls hp)

theorem Silent.lift {act : StateM S α} (h : Silent act) :
    Silent (ExceptT.lift act : ExceptT ε (StateM S) α).run :=
  h.bind fun _ => .pure _

theorem Silent.adapt {ε' : Type} (g : ε → ε') (h : Silent act.run) :
    Silent (act.adapt g).run :=
  h.bind fun _ => .pure _

end

end FrameLoop
