import FrameLoop.Proofs.Json.Settling
import FrameLoop.Proofs.Settings.Members

/-! Reading the value of a field. Any value can stand in a file, and a field takes it or refuses it
whatever stands around it. -/

namespace FrameLoop.Settings

open Json

def wordText (v : Bool) : Bytes := encode (toString v).toList

section Heads

variable {b : UInt8} {tail : Bytes} {v : Bool}

theorem wordTail_boolean (h : wordTail b = some (tail, .boolean v)) : b = 116 ∨ b = 102 := by
  unfold wordTail at h
  split_ifs at h with hnull htrue hfalse
  · cases h
  · exact .inl htrue
  · exact .inr hfalse

theorem not_boolean_of_number (h : startsNumber b = true) : b ≠ 116 ∧ b ≠ 102 := by
  constructor <;> rintro rfl <;> exact absurd h (by decide)

end Heads

/-- A value is a number, a boolean, or something that begins like neither. -/
theorem value_cases {part : Json.Part} {s : Bytes} (h : Text part s) (hpart : part = .value) :
    ∃ blank t, s = blank ++ t ∧ Blank blank ∧ (NumberText t ∨ (∃ v, t = wordText v) ∨
      ∃ b u, t = b :: u ∧ Byte.isBlank b = false ∧ startsNumber b = false ∧ b ≠ 116 ∧ b ≠ 102) := by
  induction h with
  | @blankValue b s hb _ ih =>
    obtain ⟨blank, t, rfl, hblank, ht⟩ := ih hpart
    refine ⟨b :: blank, t, rfl, ?_, ht⟩
    rintro c (_ | ⟨_, hc⟩)
    exacts [hb, hblank c hc]
  | null => exact ⟨[], _, rfl, nofun, .inr (.inr ⟨_, _, rfl, by decide⟩)⟩
  | true => exact ⟨[], _, rfl, nofun, .inr (.inl ⟨true, rfl⟩)⟩
  | false => exact ⟨[], _, rfl, nofun, .inr (.inl ⟨false, rfl⟩)⟩
  | number h => exact ⟨[], _, rfl, nofun, .inl h⟩
  | string _ => exact ⟨[], _, rfl, nofun, .inr (.inr ⟨_, _, rfl, by decide⟩)⟩
  | @bracket frame s _ =>
    refine ⟨[], _, rfl, nofun, .inr (.inr ⟨_, _, rfl, ?_⟩)⟩
    cases frame <;> decide
  | _ => cases hpart

section Reading

variable {α : Type} {wanted : String} {accept : Number → Except Cause α} {s t : Bytes} {b : UInt8}

theorem readNumber_other (hs : skipBlank s = b :: t) (hb : startsNumber b = false) :
    ∃ f, readNumber wanted accept s = .error f := by
  refine ⟨mistyped wanted (b :: t), ?_⟩
  rw [readNumber, hs]
  simp [hb]

theorem readBoolean_other (hs : skipBlank s = b :: t) (hb : b ≠ 116 ∧ b ≠ 102) :
    ∃ f, readBoolean s = .error f := by
  refine ⟨mistyped "a boolean" (b :: t), ?_⟩
  rw [readBoolean, hs]
  dsimp only
  split
  · next tail v hword => exact absurd (wordTail_boolean hword) (not_or.mpr hb)
  · rfl

theorem skipBlank_number {blank : Bytes} (hblank : Blank blank) (hb : startsNumber b = true) :
    skipBlank (blank ++ b :: t) = b :: t := by
  rw [skipBlank_append hblank, skipBlank_of_not (not_blank_of_number hb)]

theorem skipBlank_word {blank : Bytes} (hblank : Blank blank) (v : Bool) (rest : Bytes) :
    skipBlank (blank ++ (wordText v ++ rest)) = wordText v ++ rest := by
  rw [skipBlank_append hblank]
  cases v <;> rfl

/-- What a reader of numbers makes of one. -/
def takeNumber (accept : Number → Except Cause α) :
    Except Fault (Number × Bytes) → Except Fault (α × Bytes)
  | .error f => .error f
  | .ok (n, rest) =>
    match accept n with
    | .error cause => .error (.behind cause rest)
    | .ok x => .ok (x, rest)

theorem readNumber_settles (h : Text .value s) : Settles (readNumber wanted accept) s := by
  obtain ⟨blank, t, rfl, hblank, hnumber | ⟨v, rfl⟩ | ⟨b, u, rfl, hb, hother, -⟩⟩ := value_cases h rfl
  · obtain ⟨b, t, rfl, hb, hsettles⟩ := hnumber.settles
    have hread (rest : Bytes) : readNumber wanted accept (blank ++ b :: t ++ rest) =
        takeNumber accept (Json.number b (t ++ rest)) := by
      rw [List.append_assoc, List.cons_append, readNumber, skipBlank_number hblank hb]
      exact if_pos hb
    rcases hsettles with ⟨n, hn⟩ | herror
    · cases haccept : accept n with
      | error cause =>
        exact .error fun rest hrest => ⟨.behind cause rest, by simp only [hread, hn rest hrest, takeNumber, haccept]⟩
      | ok x => exact .ok (x := x) fun rest hrest => by simp only [hread, hn rest hrest, takeNumber, haccept]
    · refine .error fun rest hrest => ?_
      obtain ⟨f, hf⟩ := herror rest hrest
      exact ⟨f, by simp only [hread, hf, takeNumber]⟩
  · refine .error fun rest _ => ?_
    have hword := skipBlank_word hblank v rest
    rw [List.append_assoc]
    cases v <;> exact readNumber_other hword rfl
  · refine .error fun rest _ => readNumber_other (b := b) (t := u ++ rest) ?_ hother
    rw [List.append_assoc, skipBlank_append hblank, List.cons_append, skipBlank_of_not hb]

theorem readBoolean_settles (h : Text .value s) : Settles readBoolean s := by
  obtain ⟨blank, t, rfl, hblank, hnumber | ⟨v, rfl⟩ | ⟨b, u, rfl, hb, -, hother⟩⟩ := value_cases h rfl
  · obtain ⟨b, t, rfl, hb, -⟩ := hnumber.settles
    refine .error fun rest _ => readBoolean_other (t := t ++ rest) ?_ (not_boolean_of_number hb)
    rw [List.append_assoc, List.cons_append, skipBlank_number hblank hb]
  · refine .ok (x := v) fun rest _ => ?_
    have hword := skipBlank_word hblank v rest
    rw [List.append_assoc, readBoolean, hword]
    cases v <;> rfl
  · refine .error fun rest _ => readBoolean_other (b := b) (t := u ++ rest) ?_ hother
    rw [List.append_assoc, skipBlank_append hblank, List.cons_append, skipBlank_of_not hb]

end Reading

/-- A field takes a value or refuses it, whatever follows the value. -/
theorem Field.read_settles (f : Field) {s : Bytes} (h : Text .value s) : Settles f.read s := by
  cases f with
  | framerateLimit => exact (readNumber_settles h).map Assignment.framerateLimit
  | scriptWorkerThreads => exact (readNumber_settles h).map Assignment.scriptWorkerThreads
  | physicsWorkerThreads => exact (readNumber_settles h).map Assignment.physicsWorkerThreads
  | collectStats => exact (readBoolean_settles h).map Assignment.collectStats
  | useSound => exact (readBoolean_settles h).map Assignment.useSound
  | statsSummaryInterval => exact (readNumber_settles h).map Assignment.statsSummaryInterval

theorem Field.read_congr (f : Field) {s t : Bytes} (h : skipBlank s = skipBlank t) :
    f.read s = f.read t := by
  cases f <;>
    simp only [Field.read, readSingle, readDouble, readInteger, readNumber, readBoolean, h]

theorem Field.field_of_read {f : Field} {s rest : Bytes} {a : Assignment}
    (h : f.read s = .ok (a, rest)) : a.field = f := by
  have map_ok {α : Type} {r : Except Fault (α × Bytes)} {g : α → Assignment}
      (hg : ∀ x, (g x).field = f) (hr : (r.map fun p => (g p.1, p.2)) = .ok (a, rest)) :
      a.field = f := by
    cases r with
    | error e => cases hr
    | ok p =>
      cases hr
      exact hg _
  cases f <;> exact map_ok (fun _ => rfl) h

end FrameLoop.Settings
