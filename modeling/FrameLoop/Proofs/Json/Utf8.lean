import FrameLoop.Proofs.Json.NumberText

/-! The bytes of characters: those of one byte stand for themselves, all others have large bytes, and
texts are in the order of their bytes. -/

namespace FrameLoop.Json

theorem byte_toNat {n : ℕ} (h : n < 256) : (UInt8.ofNat n).toNat = n := by
  rw [UInt8.toNat_ofNat']
  omega

/-- The bytes of a character, by the number of them. -/
theorem utf8EncodeChar_cases (c : Char) :
    (c.toNat < 0x80 ∧ String.utf8EncodeChar c = [.ofNat c.toNat]) ∨
    (0x80 ≤ c.toNat ∧ c.toNat < 0x800 ∧ String.utf8EncodeChar c =
      [.ofNat (c.toNat / 0x40 + 0xC0), .ofNat (c.toNat % 0x40 + 0x80)]) ∨
    (0x800 ≤ c.toNat ∧ c.toNat < 0x10000 ∧ String.utf8EncodeChar c =
      [.ofNat (c.toNat / 0x1000 + 0xE0), .ofNat (c.toNat / 0x40 % 0x40 + 0x80),
        .ofNat (c.toNat % 0x40 + 0x80)]) ∨
    (0x10000 ≤ c.toNat ∧ c.toNat < 0x110000 ∧ String.utf8EncodeChar c =
      [.ofNat (c.toNat / 0x40000 + 0xF0), .ofNat (c.toNat / 0x1000 % 0x40 + 0x80),
        .ofNat (c.toNat / 0x40 % 0x40 + 0x80), .ofNat (c.toNat % 0x40 + 0x80)]) := by
  have hmax : c.toNat < 0x110000 := by
    rcases c.valid with h | ⟨-, h⟩
    · exact h.trans (by norm_num)
    · exact h
  have hval : c.val.toNat = c.toNat := rfl
  rw [String.utf8EncodeChar, hval]
  by_cases h1 : c.toNat ≤ 0x7f
  · exact .inl ⟨by omega, if_pos h1⟩
  by_cases h2 : c.toNat ≤ 0x7ff
  · refine .inr (.inl ⟨by omega, by omega, ?_⟩)
    rw [if_neg h1, if_pos h2, Nat.mod_eq_of_lt (by omega : c.toNat / 64 < 32)]
  by_cases h3 : c.toNat ≤ 0xffff
  · refine .inr (.inr (.inl ⟨by omega, by omega, ?_⟩))
    rw [if_neg h1, if_neg h2, if_pos h3, Nat.mod_eq_of_lt (by omega : c.toNat / 4096 < 16)]
  · refine .inr (.inr (.inr ⟨by omega, hmax, ?_⟩))
    rw [if_neg h1, if_neg h2, if_neg h3, Nat.mod_eq_of_lt (by omega : c.toNat / 262144 < 8)]

theorem utf8EncodeChar_small {c : Char} (h : c.toNat < 0x80) :
    String.utf8EncodeChar c = [.ofNat c.toNat] := by
  rcases utf8EncodeChar_cases c with ⟨-, heq⟩ | ⟨hlow, -⟩ | ⟨hlow, -⟩ | ⟨hlow, -⟩
  · exact heq
  all_goals omega

/-- A character of more than one byte has no small byte. -/
theorem le_of_mem_utf8EncodeChar {c : Char} (h : 0x80 ≤ c.toNat) :
    ∀ b ∈ String.utf8EncodeChar c, 0x80 ≤ b.toNat := by
  have hlarge {n : ℕ} (hn : 0x80 ≤ n) (hn' : n < 256) : 0x80 ≤ (UInt8.ofNat n).toNat := by
    rwa [byte_toNat hn']
  intro b hb
  rcases utf8EncodeChar_cases c with ⟨hc, -⟩ | ⟨-, hc, heq⟩ | ⟨-, hc, heq⟩ | ⟨-, hc, heq⟩
  · omega
  all_goals
    rw [heq] at hb
    simp only [List.mem_cons, List.not_mem_nil, or_false] at hb
  · rcases hb with rfl | rfl <;> exact hlarge (by omega) (by omega)
  · rcases hb with rfl | rfl | rfl <;> exact hlarge (by omega) (by omega)
  · rcases hb with rfl | rfl | rfl | rfl <;> exact hlarge (by omega) (by omega)

theorem cons_lt_of_lt {a b : ℕ} (ha : a < 256) (hb : b < 256) (h : a < b) (s t : Bytes) :
    UInt8.ofNat a :: s < UInt8.ofNat b :: t := by
  rw [List.cons_lt_cons_iff, UInt8.lt_iff_toNat_lt, byte_toNat ha, byte_toNat hb]
  exact .inl h

theorem cons_lt_cons_of_le {a b : ℕ} (ha : a < 256) (hb : b < 256) (hle : a ≤ b) {s t : Bytes}
    (h : a = b → s < t) : UInt8.ofNat a :: s < UInt8.ofNat b :: t := by
  rcases Nat.lt_or_eq_of_le hle with hlt | rfl
  · exact cons_lt_of_lt ha hb hlt s t
  · rw [List.cons_lt_cons_iff]
    exact .inr ⟨rfl, h rfl⟩

/-- A smaller character has smaller bytes, whatever follows. -/
theorem utf8EncodeChar_lt {c d : Char} (h : c < d) (s t : Bytes) :
    String.utf8EncodeChar c ++ s < String.utf8EncodeChar d ++ t := by
  have hlt : c.toNat < d.toNat := h
  rcases utf8EncodeChar_cases c with ⟨hc, hcs⟩ | ⟨hc, hc', hcs⟩ | ⟨hc, hc', hcs⟩ | ⟨hc, hc', hcs⟩ <;>
    rcases utf8EncodeChar_cases d with
      ⟨hd, hds⟩ | ⟨hd, hd', hds⟩ | ⟨hd, hd', hds⟩ | ⟨hd, hd', hds⟩ <;>
    rw [hcs, hds] <;> try omega
  -- fewer bytes begin with a smaller one, and so does the only byte
  all_goals try exact cons_lt_of_lt (by omega) (by omega) (by omega) _ _
  · refine cons_lt_cons_of_le (by omega) (by omega) (by omega) fun h1 => ?_
    exact cons_lt_of_lt (by omega) (by omega) (by omega) _ _
  · refine cons_lt_cons_of_le (by omega) (by omega) (by omega) fun h1 => ?_
    refine cons_lt_cons_of_le (by omega) (by omega) (by omega) fun h2 => ?_
    exact cons_lt_of_lt (by omega) (by omega) (by omega) _ _
  · refine cons_lt_cons_of_le (by omega) (by omega) (by omega) fun h1 => ?_
    refine cons_lt_cons_of_le (by omega) (by omega) (by omega) fun h2 => ?_
    refine cons_lt_cons_of_le (by omega) (by omega) (by omega) fun h3 => ?_
    exact cons_lt_of_lt (by omega) (by omega) (by omega) _ _

/-- Texts are in the order of their bytes. -/
theorem encode_lt {cs ds : List Char} (h : cs < ds) : encode cs < encode ds := by
  induction cs generalizing ds with
  | nil =>
    cases ds with
    | nil => exact absurd h (List.lt_irrefl [])
    | cons d ds =>
      obtain ⟨b, bs, hbytes⟩ := List.exists_cons_of_ne_nil (String.utf8EncodeChar_ne_nil (c := d))
      rw [encode_cons, hbytes]
      exact List.nil_lt_cons _ _
  | cons c cs ih =>
    cases ds with
    | nil => exact absurd h (List.not_lt_nil _)
    | cons d ds =>
      rw [encode_cons, encode_cons]
      rcases List.cons_lt_cons_iff.mp h with hlt | ⟨rfl, hrest⟩
      · exact utf8EncodeChar_lt hlt _ _
      · exact List.append_left_lt (ih hrest)

end FrameLoop.Json
