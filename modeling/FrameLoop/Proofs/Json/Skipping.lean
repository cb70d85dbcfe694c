import FrameLoop.Proofs.Json.Grammar
import Mathlib.Data.List.DropRight

/-! Values that are read over. The walk with its stack of open brackets passes every value of the
grammar as a whole, whatever its depth, and stops at what follows it. -/

namespace FrameLoop.Json

section Digits

variable {b : UInt8} {s rest : Bytes}

theorem skipDigits_append (h : AllDigits s) (hrest : startsWithDigit rest = false) :
    skipDigits (s ++ rest) = rest := by
  rw [skipDigits, List.dropWhile_append_of_pos h]
  exact skipDigits_none hrest

theorem exponentMark_cases (h : Byte.isExponentMark b = true) : b = 101 ∨ b = 69 := by
  simpa [Byte.isExponentMark] using h

theorem not_digit_of_mark (h : Byte.isExponentMark b = true) : Byte.isDigit b = false := by
  rcases exponentMark_cases h with rfl | rfl <;> rfl

theorem ne_point_of_mark (h : Byte.isExponentMark b = true) : b ≠ Byte.point := by
  rcases exponentMark_cases h with rfl | rfl <;> decide

theorem ne_sign_of_digit (h : Byte.isDigit b = true) : b ≠ Byte.plus ∧ b ≠ Byte.minus := by
  constructor <;> rintro rfl <;> exact absurd h (by decide)

theorem digit_ne_zero (h : Byte.isDigit b = true) (hne : b ≠ 48) : Byte.digit b ≠ 0 := by
  have hrange : 48 ≤ b.toNat ∧ b.toNat ≤ 57 := by
    simpa [Byte.isDigit, UInt8.le_iff_toNat_le] using h
  have hne' : b.toNat ≠ 48 := fun heq => hne (UInt8.toNat_inj.mp heq)
  rw [Byte.digit]
  omega

end Digits

section Numbers

variable {whole fraction exponent s rest : Bytes} (hrest : EndsNumber rest)

include hrest

theorem exponent_not_digit (h : ExponentText exponent) :
    startsWithDigit (exponent ++ rest) = false := by
  cases h with
  | none => exact hrest.digit
  | some hmark => simp [startsWithDigit, not_digit_of_mark hmark]

theorem tail_not_digit (hf : FractionText fraction) (he : ExponentText exponent) :
    startsWithDigit (fraction ++ (exponent ++ rest)) = false := by
  cases hf with
  | none => simpa using exponent_not_digit hrest he
  | some => rfl

theorem skipExponent_text {sign : Bytes} (hsign : SignText sign) (hs : s ≠ []) (hd : AllDigits s) :
    skipExponent (sign ++ (s ++ rest)) = .ok rest := by
  obtain ⟨d, ds, rfl⟩ := List.exists_cons_of_ne_nil hs
  have hdigit := hd d List.mem_cons_self
  have hskip := skipDigits_append (fun b hb => hd b (List.mem_cons_of_mem d hb)) hrest.digit
  cases hsign with
  | none =>
    obtain ⟨hplus, hminus⟩ := ne_sign_of_digit hdigit
    simp [skipExponent, hplus, hminus, hdigit, hskip]
  | plus => simp [skipExponent, hdigit, hskip]
  | minus => simp [skipExponent, hdigit, hskip]

theorem skipFraction_text (hf : FractionText fraction) (he : ExponentText exponent) :
    skipFraction (fraction ++ (exponent ++ rest)) = .ok rest := by
  have hexponent : (if startsWithExponent (exponent ++ rest) then skipExponent (exponent ++ rest).tail
      else .ok (exponent ++ rest)) = .ok rest := by
    cases he with
    | none => simp [hrest.exponent]
    | some hmark hsign hs hd =>
      have hskip := skipExponent_text hrest hsign hs hd
      simpa [startsWithExponent, hmark] using hskip
  have hpoint : (exponent ++ rest).head? ≠ some Byte.point := by
    cases he with
    | none => exact hrest.point
    | some hmark => simpa using ne_point_of_mark hmark
  cases hf with
  | none =>
    rw [skipFraction, List.nil_append, if_neg hpoint]
    exact hexponent
  | @some ds hne hd =>
    obtain ⟨d, ds, rfl⟩ := List.exists_cons_of_ne_nil hne
    have hdigit : startsWithDigit (d :: ds ++ (exponent ++ rest)) = true := hd d List.mem_cons_self
    rw [skipFraction, List.cons_append, List.head?_cons, if_pos rfl, List.tail_cons]
    dsimp only
    rw [hdigit, skipDigits_append hd (exponent_not_digit hrest he)]
    exact hexponent

theorem skipUnsigned_text (h : UnsignedText s) : skipUnsigned (s ++ rest) = .ok rest := by
  obtain ⟨hw, hf, he⟩ := h
  have htail := tail_not_digit hrest hf he
  have hskip := skipFraction_text hrest hf he
  rw [List.append_assoc, List.append_assoc]
  cases hw with
  | zero =>
    have hdigit : Byte.isDigit 48 = true := rfl
    have hzero : Byte.digit 48 = 0 := rfl
    rw [List.singleton_append, skipUnsigned]
    simpa [hdigit, hzero, htail] using hskip
  | row hb hne hd =>
    rw [List.cons_append, skipUnsigned]
    simpa [hb, digit_ne_zero hb hne, skipDigits_append hd htail] using hskip

end Numbers

theorem WholeText.exists_digit {s : Bytes} (h : WholeText s) :
    ∃ b t, s = b :: t ∧ Byte.isDigit b = true := by
  cases h with
  | zero => exact ⟨48, [], rfl, rfl⟩
  | row hb => exact ⟨_, _, rfl, hb⟩

/-- A number begins with a digit or a minus, and is read over up to its end. -/
theorem NumberText.skips {s : Bytes} (h : NumberText s) : ∃ b t, s = b :: t ∧ startsNumber b = true ∧
    ∀ rest, EndsNumber rest → skipNumber b (t ++ rest) = .ok rest := by
  cases h with
  | positive h =>
    have hskip {rest : Bytes} (hrest : EndsNumber rest) := skipUnsigned_text hrest h
    obtain ⟨hw, hf, he⟩ := h
    obtain ⟨b, t, rfl, hb⟩ := hw.exists_digit
    refine ⟨b, _, rfl, by simp [startsNumber, hb], fun rest hrest => ?_⟩
    rw [skipNumber, if_neg (ne_sign_of_digit hb).2]
    exact hskip hrest
  | negative h => exact ⟨_, _, rfl, rfl, fun rest hrest => skipUnsigned_text hrest h⟩

section Strings

variable {s : Bytes}

theorem skipEscape_unit {a b c d : UInt8} (h : ∀ x ∈ [a, b, c, d], (Byte.hex? x).isSome)
    (rest : Bytes) : skipEscape (117 :: a :: b :: c :: d :: rest) = .ok rest := by
  have hsome {x : UInt8} (hx : x ∈ [a, b, c, d]) : ∃ n, Byte.hex? x = some n :=
    Option.isSome_iff_exists.mp (h x hx)
  obtain ⟨_, ha⟩ := hsome (x := a) (by simp)
  obtain ⟨_, hb⟩ := hsome (x := b) (by simp)
  obtain ⟨_, hc⟩ := hsome (x := c) (by simp)
  obtain ⟨_, hd⟩ := hsome (x := d) (by simp)
  simp [skipEscape, hexUnit, ha, hb, hc, hd, Except.map]

theorem skipStringLoop_text (h : StringText s) (rest : Bytes) (fuel : ℕ) (hfuel : s.length < fuel) :
    skipStringLoop fuel (s ++ Byte.quote :: rest) = .ok rest := by
  induction h generalizing fuel with
  | nil =>
    obtain ⟨fuel, rfl⟩ : ∃ n, fuel = n + 1 := ⟨fuel - 1, by omega⟩
    simp [skipStringLoop]
  | plain hquote hback hcontrol _ ih =>
    obtain ⟨fuel, rfl⟩ : ∃ n, fuel = n + 1 := ⟨fuel - 1, by omega⟩
    simpa [skipStringLoop, hquote, hback, hcontrol] using ih fuel (by simpa using hfuel)
  | @escape b s hb _ ih =>
    obtain ⟨fuel, rfl⟩ : ∃ n, fuel = n + 1 := ⟨fuel - 1, by omega⟩
    have hunit : b ≠ 117 := by
      rintro rfl
      exact absurd hb (by decide)
    have hstep := ih fuel (by simp at hfuel; omega)
    simpa [skipStringLoop, skipEscape, hunit, hb, Byte.backslash, Byte.quote] using hstep
  | unit hhex _ ih =>
    obtain ⟨fuel, rfl⟩ : ∃ n, fuel = n + 1 := ⟨fuel - 1, by omega⟩
    have hstep := ih fuel (by simp at hfuel; omega)
    simpa [skipStringLoop, skipEscape_unit hhex, Byte.backslash, Byte.quote] using hstep

theorem skipString_text (h : StringText s) (rest : Bytes) :
    skipString (s ++ Byte.quote :: rest) = .ok rest :=
  skipStringLoop_text h rest _ (by
    rw [List.length_append, List.length_cons]
    omega)

end Strings

namespace Walk

/-- From one state of the walk to the other it takes so many steps. -/
def Leads (steps : ℕ) (w w' : Walk) : Prop :=
  ∀ fuel, run .skipping (steps + fuel) w = run .skipping fuel w'

theorem Leads.trans {m n : ℕ} {w w' w'' : Walk} (h : Leads m w w') (h' : Leads n w' w'') :
    Leads (m + n) w w'' := by
  intro fuel
  rw [Nat.add_assoc, h, h']

theorem Leads.step {w w' : Walk} (h : step .skipping w = .ok (.inr w')) : Leads 1 w w' := by
  intro fuel
  rw [Nat.add_comm, run, h]

end Walk

/-- Where the walk is when a part comes up, inside of open brackets. -/
def Part.start (frames : List Frame) (s : Bytes) : Part → Walk
  | value => ⟨.value, frames, s⟩
  | content frame => ⟨.close false, frame :: frames, s⟩
  | item frame => ⟨.member, frame :: frames, s⟩
  | further frame => ⟨.close true, frame :: frames, s⟩

/-- An item leaves one more step of the bound, for the one that comes to it after a bracket. -/
def Part.slack : Part → ℕ
  | item _ => 3
  | _ => 2

theorem not_blank_of_number {b : UInt8} (h : startsNumber b = true) : Byte.isBlank b = false := by
  rw [Bool.eq_false_iff]
  intro hblank
  have hcases : b = 32 ∨ b = 10 ∨ b = 9 ∨ b = 13 := by simpa [Byte.isBlank, or_assoc] using hblank
  rcases hcases with rfl | rfl | rfl | rfl <;> exact absurd h (by decide)

theorem ne_quote_of_number {b : UInt8} (h : startsNumber b = true) : b ≠ Byte.quote := by
  rintro rfl
  exact absurd h (by decide)

theorem Text.exists_head {s : Bytes} {part : Part} (h : Text part s) (hpart : part = .value)
    (rest : Bytes) : ∃ b t, skipBlank (s ++ rest) = b :: t ∧ b ≠ Byte.closeBracket := by
  induction h with
  | blankValue hb _ ih =>
    rw [List.cons_append, skipBlank_cons hb]
    exact ih hpart
  | null | true | false => exact ⟨_, _, rfl, by decide⟩
  | number h =>
    obtain ⟨b, t, rfl, hb, -⟩ := h.skips
    refine ⟨b, t ++ rest, skipBlank_of_not (not_blank_of_number hb), ?_⟩
    rintro rfl
    exact absurd hb (by decide)
  | string _ => exact ⟨_, _, rfl, by decide⟩
  | @bracket frame _ _ => cases frame <;> exact ⟨_, _, rfl, by decide⟩
  | _ => cases hpart

/-- An item does not begin with the closing bracket. -/
theorem Text.item_head {frame : Frame} {s : Bytes} (h : Text (.item frame) s) (rest : Bytes) :
    ∃ b t, skipBlank (s ++ rest) = b :: t ∧ b ≠ frame.close := by
  cases h with
  | element hv _ =>
    rw [List.append_assoc]
    exact hv.exists_head rfl _
  | member hblank _ _ _ _ =>
    rw [List.append_assoc, skipBlank_append hblank]
    exact ⟨_, _, rfl, by decide⟩

theorem colon_text {gap : Bytes} (h : Blank gap) (rest : Bytes) :
    Walk.colon (gap ++ Byte.colon :: rest) = .ok rest := by
  rw [Walk.colon, skipBlank_append h]
  rfl

theorem Text.leads {part : Part} {s : Bytes} (h : Text part s) (frames : List Frame) {rest : Bytes}
    (hrest : EndsNumber rest) : ∃ k, k + part.slack ≤ 3 * s.length ∧
      ∀ u, skipBlank u = skipBlank (s ++ rest) →
        Walk.Leads k (part.start frames u) ⟨.close Bool.true, frames, rest⟩ := by
  -- the walk skips blanks by itself, so it may start at any text that differs in them only
  induction h generalizing frames rest with
  | blankValue hb _ ih | blankContent hb _ ih | blankFurther hb _ ih =>
    obtain ⟨k, hk, hleads⟩ := ih frames hrest
    refine ⟨k, by simp [Part.slack] at hk ⊢; omega, fun u hu => hleads u ?_⟩
    rw [hu, List.cons_append, skipBlank_cons hb]
  | null | true | false =>
    refine ⟨1, by decide, fun u hu => .step ?_⟩
    simp only [Walk.step, Part.start, Walk.value, hu]
    rfl
  | number h =>
    obtain ⟨b, t, rfl, hb, hskip⟩ := h.skips
    have hnumber : Rules.skipping.number b (t ++ rest) = .ok rest := hskip rest hrest
    refine ⟨1, by simp [Part.slack], fun u hu => .step ?_⟩
    rw [List.cons_append, skipBlank_of_not (not_blank_of_number hb)] at hu
    simp only [Walk.step, Part.start, Walk.value, hu, if_neg (ne_quote_of_number hb), hb, hnumber]
    rfl
  | @string s h =>
    have hstring : Rules.skipping.string (s ++ Byte.quote :: rest) = .ok rest := skipString_text h rest
    refine ⟨1, by simp [Part.slack], fun u hu => .step ?_⟩
    have hquote : skipBlank (Byte.quote :: (s ++ [Byte.quote]) ++ rest) =
        Byte.quote :: (s ++ Byte.quote :: rest) := by simp [skipBlank, Byte.isBlank, Byte.quote]
    rw [hquote] at hu
    simp only [Walk.step, Part.start, Walk.value, hu, hstring]
    rfl
  | @bracket frame s h ih =>
    obtain ⟨k, hk, hleads⟩ := ih frames hrest
    refine ⟨1 + k, by simp [Part.slack] at hk ⊢; omega, fun u hu => .trans (.step ?_) (hleads _ rfl)⟩
    have hopen : skipBlank (frame.open :: s ++ rest) = frame.open :: (s ++ rest) := by
      cases frame <;> rfl
    rw [hopen] at hu
    simp only [Walk.step, Part.start, Walk.value, hu]
    cases frame <;> rfl
  | empty frame =>
    refine ⟨1, by simp [Part.slack], fun u hu => .step ?_⟩
    simp only [Walk.step, Part.start, Walk.close, hu]
    cases frame <;> rfl
  | last frame =>
    refine ⟨1, by simp [Part.slack], fun u hu => .step ?_⟩
    simp only [Walk.step, Part.start, Walk.close, hu]
    cases frame <;> rfl
  | @items frame s h ih =>
    obtain ⟨k, hk, hleads⟩ := ih frames hrest
    obtain ⟨b, t, hhead, hne⟩ := h.item_head rest
    refine ⟨1 + k, by simp [Part.slack] at hk ⊢; omega, fun u hu => .trans (.step ?_) (hleads (b :: t) ?_)⟩
    · simp only [Walk.step, Part.start, Walk.close, hu, hhead, if_neg hne]
      rfl
    · rw [hhead, ← hhead, skipBlank, skipBlank, List.dropWhile_idempotent]
  | @element value s hv hs ihv ihs =>
    obtain ⟨k, hk, hleads⟩ := ihv (.list :: frames) (hs.endsNumber rest)
    obtain ⟨l, hl, hleads'⟩ := ihs frames hrest
    refine ⟨1 + (k + l), by simp [Part.slack] at hk hl ⊢; omega, fun u hu => ?_⟩
    rw [List.append_assoc] at hu
    exact .trans (.step rfl) (.trans (hleads u hu) (hleads' _ rfl))
  | @member blank key gap value s hblank hkey hgap hv hs ihv ihs =>
    obtain ⟨k, hk, hleads⟩ := ihv (.object :: frames) (hs.endsNumber rest)
    obtain ⟨l, hl, hleads'⟩ := ihs frames hrest
    refine ⟨1 + (k + l), by simp [Part.slack] at hk hl ⊢; omega, fun u hu => ?_⟩
    refine .trans (.step ?_) (.trans (hleads _ rfl) (hleads' _ rfl))
    have hstring : Rules.skipping.string (key ++ Byte.quote :: (gap ++ Byte.colon ::
        (value ++ (s ++ rest)))) = .ok (gap ++ Byte.colon :: (value ++ (s ++ rest))) :=
      skipString_text hkey _
    have hcolon := colon_text hgap (value ++ (s ++ rest))
    have hquote : skipBlank (blank ++ Byte.quote :: (key ++ Byte.quote :: (gap ++ Byte.colon ::
        (value ++ s))) ++ rest) = Byte.quote :: (key ++ Byte.quote :: (gap ++ Byte.colon ::
          (value ++ (s ++ rest)))) := by
      rw [List.append_assoc, skipBlank_append hblank]
      simp [skipBlank, Byte.isBlank, Byte.quote]
    rw [hquote] at hu
    simp only [Walk.step, Part.start, Walk.member, hu, if_true, hstring, bind, Except.bind, hcolon]
    rfl
  | @comma frame s h ih =>
    obtain ⟨k, hk, hleads⟩ := ih frames hrest
    refine ⟨1 + k, by simp [Part.slack] at hk ⊢; omega, fun u hu => .trans (.step ?_) (hleads _ rfl)⟩
    simp only [Walk.step, Part.start, Walk.close, hu]
    rfl

/-- A value is read over as a whole, whatever its depth. -/
theorem walk_value {s rest : Bytes} (h : Text .value s) (hrest : EndsNumber rest) :
    walk .skipping (s ++ rest) = .ok rest := by
  obtain ⟨k, hk, hleads⟩ := h.leads [] hrest
  obtain ⟨fuel, hfuel⟩ : ∃ fuel, 3 * (s ++ rest).length + 3 = k + (fuel + 1) :=
    ⟨3 * (s ++ rest).length + 2 - k, by simp [Part.slack] at hk ⊢; omega⟩
  rw [walk, hfuel]
  exact (hleads _ rfl (fuel + 1)).trans rfl

end FrameLoop.Json
