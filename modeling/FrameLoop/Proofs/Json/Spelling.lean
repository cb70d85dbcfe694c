import FrameLoop.Proofs.Json.NumberText

/-! The content of a string and the ways to write it. A character may stand for itself or be escaped,
and every way to write a content is read back as that content. -/

namespace FrameLoop.Json

/-- The four hexadecimal digits of a unit. -/
inductive UnitText : Bytes → ℕ → Prop
  | mk {a b c d : UInt8} {w x y z : ℕ} :
    Byte.hex? a = some w → Byte.hex? b = some x → Byte.hex? c = some y → Byte.hex? d = some z →
      UnitText [a, b, c, d] (((w * 16 + x) * 16 + y) * 16 + z)

/-- A code point of two units. -/
def joined (lead trail : ℕ) : ℕ := (lead - 0xD800) * 0x400 + (trail - 0xDC00) + 0x10000

/-- What stands between the quotes of a string, and the content of that string. -/
inductive Spelling : Bytes → Bytes → Prop
  | nil : Spelling [] []
  | plain {b : UInt8} {written content : Bytes} :
    b ≠ Byte.quote → b ≠ Byte.backslash → Byte.isControl b = false → Spelling written content →
      Spelling (b :: written) (b :: content)
  | escape {b c : UInt8} {written content : Bytes} :
    simpleEscape? b = some c → Spelling written content →
      Spelling (Byte.backslash :: b :: written) (c :: content)
  | unit {digits written content : Bytes} {unit : ℕ} :
    UnitText digits unit → isLeading unit = false → isTrailing unit = false →
      Spelling written content →
        Spelling (Byte.backslash :: 117 :: (digits ++ written)) (utf8 unit ++ content)
  | pair {digits digits' written content : Bytes} {lead trail : ℕ} :
    UnitText digits lead → UnitText digits' trail → isLeading lead → isTrailing trail →
      Spelling written content →
        Spelling (Byte.backslash :: 117 :: (digits ++ Byte.backslash :: 117 :: (digits' ++ written)))
          (utf8 (joined lead trail) ++ content)

theorem Spelling.append {written written' content content' : Bytes} (h : Spelling written content)
    (h' : Spelling written' content') : Spelling (written ++ written') (content ++ content') := by
  induction h with
  | nil => exact h'
  | plain hquote hback hcontrol _ ih => exact .plain hquote hback hcontrol ih
  | escape hb _ ih => exact .escape hb ih
  | unit hdigits hlead htrail _ ih =>
    simpa only [List.cons_append, List.append_assoc] using Spelling.unit hdigits hlead htrail ih
  | pair hdigits hdigits' hlead htrail _ ih =>
    simpa only [List.cons_append, List.append_assoc] using
      Spelling.pair hdigits hdigits' hlead htrail ih

/-- Text without quotes, backslashes and controls stands for itself. -/
theorem Spelling.of_plain {s : Bytes}
    (h : ∀ b ∈ s, b ≠ Byte.quote ∧ b ≠ Byte.backslash ∧ Byte.isControl b = false) : Spelling s s := by
  induction s with
  | nil => exact .nil
  | cons b s ih =>
    obtain ⟨hquote, hback, hcontrol⟩ := h b List.mem_cons_self
    exact .plain hquote hback hcontrol (ih fun c hc => h c (List.mem_cons_of_mem b hc))

section Units

variable {digits digits' : Bytes} {unit lead trail : ℕ}

theorem hexUnit_text (h : UnitText digits unit) (rest : Bytes) :
    hexUnit (digits ++ rest) = .ok (unit, rest) := by
  cases h with
  | mk ha hb hc hd => simp [hexUnit, ha, hb, hc, hd]

theorem not_trailing_of_leading (h : isLeading unit = true) : isTrailing unit = false := by
  simp only [isLeading, Bool.and_eq_true, decide_eq_true_eq] at h
  simp only [isTrailing, Bool.and_eq_false_iff, decide_eq_false_iff_not]
  omega

theorem escape_unit (h : UnitText digits unit) (hlead : isLeading unit = false)
    (htrail : isTrailing unit = false) (rest : Bytes) :
    escape (117 :: (digits ++ rest)) = .ok (utf8 unit, rest) := by
  simp [escape, unicodeEscape, hexUnit_text h, hlead, htrail, bind, Except.bind, Except.map]

theorem escape_pair (h : UnitText digits lead) (h' : UnitText digits' trail)
    (hlead : isLeading lead = true) (htrail : isTrailing trail = true) (rest : Bytes) :
    escape (117 :: (digits ++ Byte.backslash :: 117 :: (digits' ++ rest))) =
      .ok (utf8 (joined lead trail), rest) := by
  simp [escape, unicodeEscape, hexUnit_text h, hexUnit_text h', hlead, htrail,
    not_trailing_of_leading hlead, joined, bind, Except.bind, Except.map]

end Units

theorem stringLoop_escape {s rest content : Bytes} (h : escape s = .ok (content, rest)) (fuel : ℕ)
    (read : Bytes) : stringLoop (fuel + 1) read (Byte.backslash :: s) =
      stringLoop fuel (content.reverse ++ read) rest := by
  have hquote : Byte.backslash ≠ Byte.quote := by decide
  rw [stringLoop]
  simp only [if_neg hquote, if_true, h]

theorem stringLoop_spelling {written content : Bytes} (h : Spelling written content) (rest : Bytes)
    (fuel : ℕ) (read : Bytes) (hfuel : written.length < fuel) :
    stringLoop fuel read (written ++ Byte.quote :: rest) = .ok (read.reverse ++ content, rest) := by
  induction h generalizing fuel read with
  | nil =>
    obtain ⟨fuel, rfl⟩ : ∃ n, fuel = n + 1 := ⟨fuel - 1, by omega⟩
    simp [stringLoop]
  | @plain b written content hquote hback hcontrol _ ih =>
    obtain ⟨fuel, rfl⟩ : ∃ n, fuel = n + 1 := ⟨fuel - 1, by omega⟩
    have hstep := ih fuel (b :: read) (by simpa using hfuel)
    simpa [stringLoop, hquote, hback, hcontrol] using hstep
  | @escape b c written content hb _ ih =>
    obtain ⟨fuel, rfl⟩ : ∃ n, fuel = n + 1 := ⟨fuel - 1, by omega⟩
    have hunit : b ≠ 117 := by
      rintro rfl
      have hnone : simpleEscape? 117 = none := rfl
      cases hnone.symm.trans hb
    have hescape : escape (b :: (written ++ Byte.quote :: rest)) =
        .ok ([c], written ++ Byte.quote :: rest) := by simp [Json.escape, hunit, hb]
    rw [List.cons_append, List.cons_append, stringLoop_escape hescape,
      ih fuel _ (by simp at hfuel; omega)]
    simp
  | unit hdigits hlead htrail _ ih =>
    obtain ⟨fuel, rfl⟩ : ∃ n, fuel = n + 1 := ⟨fuel - 1, by omega⟩
    rw [List.cons_append, List.cons_append, List.append_assoc,
      stringLoop_escape (escape_unit hdigits hlead htrail _), ih fuel _ (by simp at hfuel; omega)]
    simp
  | pair hdigits hdigits' hlead htrail _ ih =>
    obtain ⟨fuel, rfl⟩ : ∃ n, fuel = n + 1 := ⟨fuel - 1, by omega⟩
    rw [List.cons_append, List.cons_append, List.append_assoc, List.cons_append, List.cons_append,
      List.append_assoc, stringLoop_escape (escape_pair hdigits hdigits' hlead htrail _),
      ih fuel _ (by simp at hfuel; omega)]
    simp

/-- A string is read as its content, however it is written. -/
theorem string_spelling {written content : Bytes} (h : Spelling written content) (rest : Bytes) :
    Json.string (written ++ Byte.quote :: rest) = .ok (content, rest) :=
  stringLoop_spelling h rest _ [] (by
    rw [List.length_append, List.length_cons]
    omega)

end FrameLoop.Json
