import FrameLoop.Json.Walk
import FrameLoop.Proofs.Json.NumberText

/-! The grammar of JSON texts: blanks, numbers, strings and values of any depth. A text is that of one
whole part; what may stand before or after the part is not in it. -/

namespace FrameLoop.Json

def Blank (s : Bytes) : Prop := ∀ b ∈ s, Byte.isBlank b

def AllDigits (s : Bytes) : Prop := ∀ b ∈ s, Byte.isDigit b

/-- The digits before the point: a zero, or a row that does not start with one. -/
inductive WholeText : Bytes → Prop
  | zero : WholeText [48]
  | row {b : UInt8} {s : Bytes} :
    Byte.isDigit b → b ≠ 48 → AllDigits s → WholeText (b :: s)

inductive FractionText : Bytes → Prop
  | none : FractionText []
  | some {s : Bytes} : s ≠ [] → AllDigits s → FractionText (Byte.point :: s)

inductive SignText : Bytes → Prop
  | none : SignText []
  | plus : SignText [Byte.plus]
  | minus : SignText [Byte.minus]

inductive ExponentText : Bytes → Prop
  | none : ExponentText []
  | some {mark : UInt8} {sign s : Bytes} :
    Byte.isExponentMark mark → SignText sign → s ≠ [] → AllDigits s →
      ExponentText (mark :: (sign ++ s))

inductive UnsignedText : Bytes → Prop
  | mk {whole fraction exponent : Bytes} :
    WholeText whole → FractionText fraction → ExponentText exponent →
      UnsignedText (whole ++ (fraction ++ exponent))

inductive NumberText : Bytes → Prop
  | positive {s : Bytes} : UnsignedText s → NumberText s
  | negative {s : Bytes} : UnsignedText s → NumberText (Byte.minus :: s)

inductive StringText : Bytes → Prop
  | nil : StringText []
  | plain {b : UInt8} {s : Bytes} :
    b ≠ Byte.quote → b ≠ Byte.backslash → Byte.isControl b = false → StringText s →
      StringText (b :: s)
  | escape {b : UInt8} {s : Bytes} :
    (simpleEscape? b).isSome → StringText s → StringText (Byte.backslash :: b :: s)
  | unit {a b c d : UInt8} {s : Bytes} :
    (∀ h ∈ [a, b, c, d], (Byte.hex? h).isSome) → StringText s →
      StringText (Byte.backslash :: 117 :: a :: b :: c :: d :: s)

def Frame.open : Frame → UInt8
  | list => Byte.openBracket
  | object => Byte.openBrace

inductive Part
  | value
  /-- What follows an opening bracket, with the closing one. -/
  | content (frame : Frame)
  /-- An item, and what follows it. -/
  | item (frame : Frame)
  /-- What follows an item, with the closing bracket. -/
  | further (frame : Frame)

/-- The texts of a part. Blanks may stand before a value, an item, a comma, a colon and a bracket. -/
inductive Text : Part → Bytes → Prop
  | blankValue {b : UInt8} {s : Bytes} : Byte.isBlank b → Text .value s → Text .value (b :: s)
  | null : Text .value [110, 117, 108, 108]
  | true : Text .value [116, 114, 117, 101]
  | false : Text .value [102, 97, 108, 115, 101]
  | number {s : Bytes} : NumberText s → Text .value s
  | string {s : Bytes} : StringText s → Text .value (Byte.quote :: (s ++ [Byte.quote]))
  | bracket {frame : Frame} {s : Bytes} :
    Text (.content frame) s → Text .value (frame.open :: s)
  | blankContent {frame : Frame} {b : UInt8} {s : Bytes} :
    Byte.isBlank b → Text (.content frame) s → Text (.content frame) (b :: s)
  | empty (frame : Frame) : Text (.content frame) [frame.close]
  | items {frame : Frame} {s : Bytes} : Text (.item frame) s → Text (.content frame) s
  | element {value s : Bytes} :
    Text .value value → Text (.further .list) s → Text (.item .list) (value ++ s)
  | member {blank key gap value s : Bytes} :
    Blank blank → StringText key → Blank gap → Text .value value → Text (.further .object) s →
      Text (.item .object)
        (blank ++ Byte.quote :: (key ++ Byte.quote :: (gap ++ Byte.colon :: (value ++ s))))
  | blankFurther {frame : Frame} {b : UInt8} {s : Bytes} :
    Byte.isBlank b → Text (.further frame) s → Text (.further frame) (b :: s)
  | last (frame : Frame) : Text (.further frame) [frame.close]
  | comma {frame : Frame} {s : Bytes} :
    Text (.item frame) s → Text (.further frame) (Byte.comma :: s)

section Blanks

variable {b : UInt8} {blank s : Bytes}

theorem blank_nil : Blank [] := nofun

theorem skipBlank_cons (h : Byte.isBlank b = true) : skipBlank (b :: s) = skipBlank s := by
  simp [skipBlank, h]

theorem skipBlank_append (h : Blank blank) (s : Bytes) : skipBlank (blank ++ s) = skipBlank s :=
  List.dropWhile_append_of_pos h

theorem skipBlank_of_not (h : Byte.isBlank b = false) : skipBlank (b :: s) = b :: s := by
  simp [skipBlank, h]

end Blanks

theorem Text.blank_append {blank s : Bytes} (h : Text .value s) (hblank : Blank blank) :
    Text .value (blank ++ s) := by
  induction blank with
  | nil => exact h
  | cons b blank ih =>
    exact .blankValue (hblank b List.mem_cons_self) (ih fun c hc => hblank c (List.mem_cons_of_mem b hc))

/-- What may follow a number: a blank, a comma, a closing bracket, or nothing. -/
theorem endsNumber_of_head {s : Bytes}
    (h : ∀ b ∈ s.head?, Byte.isBlank b ∨ b = Byte.comma ∨ b = Byte.closeBracket ∨
      b = Byte.closeBrace) : EndsNumber s := by
  cases s with
  | nil => exact ⟨rfl, rfl, nofun⟩
  | cons b s =>
    have hb := h b rfl
    have hcases : b = 32 ∨ b = 10 ∨ b = 9 ∨ b = 13 ∨ b = 44 ∨ b = 93 ∨ b = 125 := by
      simpa [Byte.isBlank, Byte.comma, Byte.closeBracket, Byte.closeBrace, or_assoc] using hb
    rcases hcases with rfl | rfl | rfl | rfl | rfl | rfl | rfl <;> exact ⟨rfl, rfl, by simp [Byte.point]⟩

/-- A number in a bracket ends where the text that follows it begins. -/
theorem Text.endsNumber {frame : Frame} {s : Bytes} (h : Text (.further frame) s) (rest : Bytes) :
    EndsNumber (s ++ rest) := by
  apply endsNumber_of_head
  cases h with
  | blankFurther hb => simp [hb]
  | last => cases frame <;> simp [Frame.close]
  | comma => simp

end FrameLoop.Json
