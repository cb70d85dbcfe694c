import FrameLoop.Proofs.Json.Skipping

/-! What a reader makes of a number does not depend on what follows the number: it gives the same
result before every rest, or a fault before every rest. -/

namespace FrameLoop.Json

/-- The reader gives one result for a text, or none, whatever follows the text. -/
def Settles {α : Type} (read : Bytes → Except Fault (α × Bytes)) (s : Bytes) : Prop :=
  (∃ x, ∀ rest, EndsNumber rest → read (s ++ rest) = .ok (x, rest)) ∨
    ∀ rest, EndsNumber rest → ∃ f, read (s ++ rest) = .error f

section Results

variable {α β : Type} {read read' : Bytes → Except Fault (α × Bytes)} {s s' : Bytes}

theorem Settles.ok {x : α} (h : ∀ rest, EndsNumber rest → read (s ++ rest) = .ok (x, rest)) :
    Settles read s := .inl ⟨x, h⟩

theorem Settles.error (h : ∀ rest, EndsNumber rest → ∃ f, read (s ++ rest) = .error f) :
    Settles read s := .inr h

theorem Settles.congr (h : Settles read' s')
    (heq : ∀ rest, EndsNumber rest → read (s ++ rest) = read' (s' ++ rest)) : Settles read s := by
  rcases h with ⟨x, hx⟩ | herror
  · exact .ok fun rest hrest => (heq rest hrest).trans (hx rest hrest)
  · refine .error fun rest hrest => ?_
    obtain ⟨f, hf⟩ := herror rest hrest
    exact ⟨f, (heq rest hrest).trans hf⟩

theorem Settles.map (h : Settles read s) (g : α → β) :
    Settles (fun s => (read s).map fun (x, s) => (g x, s)) s := by
  rcases h with ⟨x, hx⟩ | herror
  · exact .ok (x := g x) fun rest hrest => by rw [hx rest hrest]; rfl
  · refine .error fun rest hrest => ?_
    obtain ⟨f, hf⟩ := herror rest hrest
    exact ⟨f, by rw [hf]; rfl⟩

end Results

section Rows

variable {s : Bytes} (h : AllDigits s)

include h

theorem gather_row (n count : ℕ) : ∃ m taken left, AllDigits left ∧ s.length = taken + left.length ∧
    ∀ rest, startsWithDigit rest = false → gather n count (s ++ rest) = (m, count + taken, left ++ rest) := by
  induction s generalizing n count with
  | nil =>
    refine ⟨n, 0, [], nofun, rfl, fun rest hrest => ?_⟩
    cases rest with
    | nil => rfl
    | cons b rest =>
      have hb : Byte.isDigit b = false := hrest
      simp [gather, hb]
  | cons b s ih =>
    have hb := h b List.mem_cons_self
    by_cases hfits : n * 10 + Byte.digit b < Nat.pow 2 64
    · obtain ⟨m, taken, left, hleft, hlength, hgather⟩ :=
        ih (fun c hc => h c (List.mem_cons_of_mem b hc)) (n * 10 + Byte.digit b) (count + 1)
      refine ⟨m, taken + 1, left, hleft, by simp [hlength]; omega, fun rest hrest => ?_⟩
      have hstep := hgather rest hrest
      rw [List.cons_append, gather]
      simpa [hb, hfits, Nat.add_right_comm, Nat.add_assoc] using hstep
    · refine ⟨n, 0, b :: s, h, by simp, fun rest _ => ?_⟩
      rw [List.cons_append, gather]
      simp [hb, hfits]

theorem exponentDigits_row (n : ℕ) :
    (∃ m, ∀ rest, startsWithDigit rest = false → exponentDigits n (s ++ rest) = (some m, rest)) ∨
      ∃ left, AllDigits left ∧ ∀ rest, exponentDigits n (s ++ rest) = (none, left ++ rest) := by
  induction s generalizing n with
  | nil =>
    refine .inl ⟨n, fun rest hrest => ?_⟩
    cases rest with
    | nil => rfl
    | cons b rest =>
      have hb : Byte.isDigit b = false := hrest
      simp [exponentDigits, hb]
  | cons b s ih =>
    have hb := h b List.mem_cons_self
    have hs : AllDigits s := fun c hc => h c (List.mem_cons_of_mem b hc)
    -- from the first digit on that does not fit, all of them are left
    by_cases hfits : n * 10 + Byte.digit b < Nat.pow 2 31
    · rcases ih hs (n * 10 + Byte.digit b) with ⟨m, hm⟩ | ⟨left, hleft, hnone⟩
      · exact .inl ⟨m, fun rest hrest => by simp [exponentDigits, hb, hfits, hm rest hrest]⟩
      · exact .inr ⟨left, hleft, fun rest => by simp [exponentDigits, hb, hfits, hnone rest]⟩
    · exact .inr ⟨s, hs, fun rest => by simp [exponentDigits, hb, hfits]⟩

end Rows

section Numbers

variable (positive : Bool) (n : ℕ) (start : ℤ) {s fraction exponent : Bytes}

theorem assemble_settles : Settles (assemble positive n start) [] := by
  cases hscale : scaleByTen 5 (.ofNat n) start with
  | none => exact .error fun rest _ => ⟨.behind .numberOutOfRange rest, by simp [assemble, hscale]⟩
  | some f =>
    exact .ok (x := if positive then f else -f) fun rest _ => by simp [assemble, hscale]

/-- The sign of an exponent, and the digits behind it. -/
theorem exponentPart_sign {sign : Bytes} (hsign : SignText sign) : ∃ up : Bool, ∀ b t,
    Byte.isDigit b = true → exponentPart positive n start (sign ++ b :: t) =
      match exponentDigits (Byte.digit b) t with
      | (some e, s) => assemble positive n (if up then start + e else start - e) s
      | (none, s) =>
        if n ≠ 0 ∧ up then .error (.behind .numberOutOfRange s)
        else .ok (.zero (!positive), skipDigits s) := by
  cases hsign with
  | none =>
    refine ⟨true, fun b t hb => ?_⟩
    obtain ⟨hplus, hminus⟩ := ne_sign_of_digit hb
    simp only [exponentPart, List.nil_append, if_neg hplus, if_neg hminus, hb, Bool.not_true]
    rfl
  | plus =>
    refine ⟨true, fun b t hb => ?_⟩
    simp only [exponentPart, List.singleton_append, if_true, hb, Bool.not_true]
    rfl
  | minus =>
    refine ⟨false, fun b t hb => ?_⟩
    have hne : Byte.minus ≠ Byte.plus := by decide
    simp only [exponentPart, List.singleton_append, if_neg hne, if_true, hb, Bool.not_true]
    rfl

theorem exponentPart_settles {sign : Bytes} (hsign : SignText sign) (hs : s ≠ []) (hd : AllDigits s) :
    Settles (exponentPart positive n start) (sign ++ s) := by
  obtain ⟨b, t, rfl⟩ := List.exists_cons_of_ne_nil hs
  have hb := hd b List.mem_cons_self
  obtain ⟨up, hsplit⟩ := exponentPart_sign positive n start hsign
  rcases exponentDigits_row (fun c hc => hd c (List.mem_cons_of_mem b hc)) (Byte.digit b) with
    ⟨m, hm⟩ | ⟨left, hleft, hnone⟩
  · refine (assemble_settles positive n (if up then start + m else start - m)).congr
      fun rest hrest => ?_
    rw [List.append_assoc, List.cons_append, hsplit b _ hb, hm rest hrest.digit]
    rfl
  · by_cases hover : n ≠ 0 ∧ up
    · refine .error fun rest _ => ⟨.behind .numberOutOfRange (left ++ rest), ?_⟩
      rw [List.append_assoc, List.cons_append, hsplit b _ hb, hnone]
      simp only [if_pos hover]
    · refine .ok (x := .zero (!positive)) fun rest hrest => ?_
      rw [List.append_assoc, List.cons_append, hsplit b _ hb, hnone]
      simp only [if_neg hover, skipDigits_append hleft hrest.digit]

/-- What comes after the digits of a float, be it with an exponent or not. -/
theorem tail_settles (he : ExponentText exponent) : Settles (fun s =>
    if startsWithExponent s then exponentPart positive n start s.tail
    else assemble positive n start s) exponent := by
  cases he with
  | none =>
    refine (assemble_settles positive n start).congr fun rest hrest => ?_
    simp [hrest.exponent]
  | some hmark hsign hs hd =>
    refine (exponentPart_settles positive n start hsign hs hd).congr fun rest _ => ?_
    simp [startsWithExponent, hmark]

theorem decimalPart_settles (hs : s ≠ []) (hd : AllDigits s) (he : ExponentText exponent) :
    Settles (decimalPart positive n start) (s ++ exponent) := by
  obtain ⟨m, taken, left, hleft, hlength, hgather⟩ := gather_row hd n 0
  refine (tail_settles positive m (start - taken) he).congr fun rest hrest => ?_
  have hnot := exponent_not_digit hrest he
  have htaken : ¬ (taken = 0 ∧ (!startsWithDigit (left ++ (exponent ++ rest))) = true) := by
    rintro ⟨rfl, hnone⟩
    have hpos := List.length_pos_of_ne_nil hs
    obtain ⟨b, t, rfl⟩ := List.exists_cons_of_length_pos (l := left) (by omega)
    simp [startsWithDigit, hleft b List.mem_cons_self] at hnone
  rw [List.append_assoc, decimalPart, hgather _ hnot]
  simp only [Nat.zero_add, if_neg htaken, skipDigits_append hleft hnot]

theorem fractionPart_settles (hf : FractionText fraction) (he : ExponentText exponent) :
    Settles (fractionPart positive n start) (fraction ++ exponent) := by
  cases hf with
  | none =>
    refine (tail_settles positive n start he).congr fun rest hrest => ?_
    have hpoint : (exponent ++ rest).head? ≠ some Byte.point := by
      cases he with
      | none => exact hrest.point
      | some hmark => simpa using ne_point_of_mark hmark
    rw [List.nil_append, fractionPart, if_neg hpoint]
  | some hs hd =>
    refine (decimalPart_settles positive n start hs hd he).congr fun rest _ => ?_
    rw [fractionPart]
    simp

theorem finish_settles (hf : FractionText fraction) (he : ExponentText exponent) :
    Settles (finish positive n) (fraction ++ exponent) := by
  by_cases hfloat : fraction = [] ∧ exponent = []
  · obtain ⟨rfl, rfl⟩ := hfloat
    have hinteger {rest : Bytes} (hrest : EndsNumber rest) :
        ¬ (rest.head? = some Byte.point ∨ startsWithExponent rest = true) := by
      simp [hrest.point, hrest.exponent]
    cases positive with
    | true =>
      refine .ok (x := .natural n) fun rest hrest => ?_
      simp [finish, hinteger hrest]
    | false =>
      by_cases hfits : 0 < n ∧ n ≤ Nat.pow 2 63
      · refine .ok (x := .negative (-(n : ℤ))) fun rest hrest => ?_
        simp only [List.append_nil, List.nil_append, finish, if_neg (hinteger hrest), if_pos hfits]
        rfl
      · refine .ok (x := .real (-(.ofNat n))) fun rest hrest => ?_
        simp only [List.append_nil, List.nil_append, finish, if_neg (hinteger hrest), if_neg hfits]
        rfl
  · refine ((fractionPart_settles positive n 0 hf he).map .real).congr fun rest _ => ?_
    have hmark : (fraction ++ exponent ++ rest).head? = some Byte.point ∨
        startsWithExponent (fraction ++ exponent ++ rest) = true := by
      cases hf with
      | some => exact .inl rfl
      | none =>
        cases he with
        | some hmark => exact .inr (by simpa [startsWithExponent] using hmark)
        | none => exact absurd ⟨rfl, rfl⟩ hfloat
    rw [finish, if_pos hmark]

theorem unsigned_settles (h : UnsignedText s) : Settles (unsigned positive) s := by
  obtain @⟨_, fraction, exponent, hw, hf, he⟩ := h
  cases hw with
  | zero =>
    refine (finish_settles positive 0 hf he).congr fun rest hrest => ?_
    have hnot := tail_not_digit hrest hf he
    have hdigit : Byte.isDigit 48 = true := rfl
    have hzero : Byte.digit 48 = 0 := rfl
    simp [unsigned, hdigit, hzero, hnot]
  | @row b s hb hne hd =>
    obtain ⟨m, taken, left, hleft, -, hgather⟩ := gather_row hd (Byte.digit b) 1
    cases left with
    | nil =>
      refine (finish_settles positive m hf he).congr fun rest hrest => ?_
      have hnot := tail_not_digit hrest hf he
      simp [unsigned, hb, digit_ne_zero hb hne, hgather _ hnot, hnot]
    | cons c left =>
      refine ((fractionPart_settles positive m (c :: left).length hf he).map .real).congr
        fun rest hrest => ?_
      have hnot := tail_not_digit hrest hf he
      have hc : startsWithDigit (c :: left ++ (fraction ++ (exponent ++ rest))) = true := hleft c List.mem_cons_self
      have hdropped : (c :: left ++ (fraction ++ (exponent ++ rest))).length -
          (fraction ++ (exponent ++ rest)).length = (c :: left).length := by
        rw [List.length_append, Nat.add_sub_cancel]
      rw [List.cons_append, List.cons_append, List.append_assoc, List.append_assoc, unsigned]
      simp only [hb, digit_ne_zero hb hne, hgather _ hnot, hc, skipDigits_append hleft hnot, hdropped]
      simp

theorem NumberText.settles (h : NumberText s) :
    ∃ b t, s = b :: t ∧ startsNumber b = true ∧ Settles (number b) t := by
  cases h with
  | positive h =>
    have hsettles := unsigned_settles true h
    obtain ⟨hw, hf, he⟩ := h
    obtain ⟨b, t, rfl, hb⟩ := hw.exists_digit
    refine ⟨b, _, rfl, by simp [startsNumber, hb], ?_⟩
    rcases hsettles with ⟨x, hx⟩ | herror
    · exact .ok fun rest hrest => by
        rw [number, if_neg (ne_sign_of_digit hb).2]
        exact hx rest hrest
    · exact .error fun rest hrest => by
        rw [number, if_neg (ne_sign_of_digit hb).2]
        exact herror rest hrest
  | negative h => exact ⟨_, _, rfl, rfl, unsigned_settles false h⟩

end Numbers

end FrameLoop.Json
