import FrameLoop.Proofs.Json.Skipping
import FrameLoop.Proofs.Json.Spelling

/-! No control character stands in a string or a number, however it is written. -/

namespace FrameLoop.Json

/-- Text without characters below the blank. -/
def ControlFree (s : Bytes) : Prop := ∀ b ∈ s, Byte.isControl b = false

variable {b : UInt8} {s t : Bytes}

theorem controlFree_nil : ControlFree [] := nofun

theorem controlFree_cons : ControlFree (b :: s) ↔ Byte.isControl b = false ∧ ControlFree s :=
  List.forall_mem_cons

theorem controlFree_append : ControlFree (s ++ t) ↔ ControlFree s ∧ ControlFree t := List.forall_mem_append

theorem not_control_of_le (h : 32 ≤ b.toNat) : Byte.isControl b = false := by
  simpa [Byte.isControl, UInt8.le_iff_toNat_le] using h

theorem controlFree_digits (h : AllDigits s) : ControlFree s := by
  intro b hb
  have hrange : 48 ≤ b.toNat ∧ b.toNat ≤ 57 := by
    simpa [Byte.isDigit, UInt8.le_iff_toNat_le] using h b hb
  exact not_control_of_le (by omega)

theorem not_control_of_hex {n : ℕ} (h : Byte.hex? b = some n) : Byte.isControl b = false := by
  unfold Byte.hex? at h
  split_ifs at h with hdigit hsmall hlarge
  · exact controlFree_digits (s := [b]) (by simpa [AllDigits] using hdigit) b List.mem_cons_self
  · have hrange : 97 ≤ b.toNat ∧ b.toNat ≤ 102 := by
      simpa [UInt8.le_iff_toNat_le] using hsmall
    exact not_control_of_le (by omega)
  · have hrange : 65 ≤ b.toNat ∧ b.toNat ≤ 70 := by
      simpa [UInt8.le_iff_toNat_le] using hlarge
    exact not_control_of_le (by omega)

theorem not_control_of_escape {c : UInt8} (h : simpleEscape? b = some c) : Byte.isControl b = false := by
  unfold simpleEscape? at h
  split_ifs at h with hself hback hfeed hnewline hreturn htab
  · rcases hself with rfl | rfl | rfl <;> rfl
  all_goals subst b; rfl

theorem UnitText.controlFree {unit : ℕ} (h : UnitText s unit) : ControlFree s := by
  cases h with
  | mk ha hb hc hd =>
    simp [ControlFree, not_control_of_hex ha, not_control_of_hex hb, not_control_of_hex hc,
      not_control_of_hex hd]

/-- However a string is written, no control character stands in it. -/
theorem Spelling.controlFree {content : Bytes} (h : Spelling s content) : ControlFree s := by
  have hback : Byte.isControl Byte.backslash = false := rfl
  have hu : Byte.isControl 117 = false := rfl
  induction h with
  | nil => exact controlFree_nil
  | plain _ _ hcontrol _ ih => exact controlFree_cons.mpr ⟨hcontrol, ih⟩
  | escape hb _ ih => simp [controlFree_cons, hback, not_control_of_escape hb, ih]
  | unit hdigits _ _ _ ih =>
    simp [controlFree_cons, controlFree_append, hback, hu, hdigits.controlFree, ih]
  | pair hlead htrail _ _ _ ih =>
    simp [controlFree_cons, controlFree_append, hback, hu, hlead.controlFree, htrail.controlFree, ih]

theorem UnsignedText.controlFree (h : UnsignedText s) : ControlFree s := by
  obtain ⟨hwhole, hfraction, hexponent⟩ := h
  refine controlFree_append.mpr ⟨?_, controlFree_append.mpr ⟨?_, ?_⟩⟩
  · cases hwhole with
    | zero => simp [ControlFree, Byte.isControl]
    | row hb _ hs =>
      refine controlFree_digits (List.forall_mem_cons.mpr ⟨hb, hs⟩)
  · cases hfraction with
    | none => exact controlFree_nil
    | some _ hs => exact controlFree_cons.mpr ⟨rfl, controlFree_digits hs⟩
  · cases hexponent with
    | none => exact controlFree_nil
    | some hmark hsign _ hs =>
      refine controlFree_cons.mpr ⟨?_, controlFree_append.mpr ⟨?_, controlFree_digits hs⟩⟩
      · rcases exponentMark_cases hmark with rfl | rfl <;> rfl
      · cases hsign <;> simp [ControlFree, Byte.isControl, Byte.plus, Byte.minus]

theorem NumberText.controlFree (h : NumberText s) : ControlFree s := by
  cases h with
  | positive h => exact h.controlFree
  | negative h => exact controlFree_cons.mpr ⟨rfl, h.controlFree⟩

end FrameLoop.Json
