import FrameLoop.Storage.FileTree
import FrameLoop.Storage.Basic
import Mathlib.Tactic.Common

/-! A text that was saved can be read again under the same path. -/

namespace FrameLoop

/-- A storage keeps the texts that are saved in it. -/
def Keeps (φ : Type) {ω : Type} [Storage φ ω] : Prop :=
  ∀ (path text : String) (storage : φ), (Storage.save path text storage).1 = .ok () →
    Storage.read path (Storage.save path text storage).2 = .ok text

theorem fromUTF8?_toUTF8 (text : String) : String.fromUTF8? text.toUTF8 = some text := by
  unfold String.fromUTF8?
  rw [dif_pos (String.toUTF8_eq_toByteArray ▸ text.isValidUTF8)]
  rfl

namespace FileTree

variable {t : FileTree} {p q : Trail} {content : ByteArray}

theorem content?_replaced (files : List (Trail × ByteArray)) :
    (files.map fun (q, c) => if q = p then (q, content) else (q, c)).lookup q =
      if q = p then (files.lookup q).map fun _ => content else files.lookup q := by
  induction files with
  | nil => simp
  | cons f files ih =>
    obtain ⟨r, c⟩ := f
    rw [List.map_cons]
    by_cases hr : q = r
    · subst hr
      by_cases hp : q = p
      · simp [hp]
      · simp [hp]
    · have hne : (q == r) = false := by simpa using hr
      by_cases hp : r = p
      · simp [hp, List.lookup_cons, hp ▸ hne, ih]
      · simp [hp, List.lookup_cons, hne, ih]

/-- Only the content of the file that is written changes. -/
theorem content?_put (q : Trail) :
    (t.put p content).content? q = if q = p then some content else t.content? q := by
  unfold put
  by_cases hp : (t.content? p).isSome = true
  · rw [if_pos hp, content?, content?_replaced]
    by_cases hq : q = p
    · obtain ⟨c, hc⟩ := Option.isSome_iff_exists.mp hp
      rw [content?] at hc
      rw [if_pos hq, if_pos hq, hq, hc]
      rfl
    · rw [if_neg hq, if_neg hq]
      rfl
  · rw [if_neg hp]
    by_cases hq : q = p
    · subst hq
      have hnone : t.files.lookup q = none := Option.not_isSome_iff_eq_none.mp hp
      simp [content?, List.lookup_append, hnone]
    · have hne : (q == p) = false := by simpa using hq
      simp [content?, List.lookup_append, List.lookup_cons, hne, hq]

theorem isDirectory_put (q : Trail) : (t.put p content).isDirectory q = t.isDirectory q := by
  unfold put
  split_ifs <;> rfl

/-- A path that can be written leads to the file once it is there. -/
theorem follow_put {at_ : Trail} {names : List String}
    (h : t.follow at_ names = .ok (.file p) ∨ t.follow at_ names = .ok (.absent p false)) :
    (t.put p content).follow at_ names = .ok (.file p) := by
  induction names generalizing at_ with
  | nil => rcases h with h | h <;> cases h
  | cons name names ih =>
    rw [follow] at h ⊢
    dsimp only at h ⊢
    rw [isDirectory_put, content?_put]
    split_ifs at h ⊢ with hdot hup hlong hdir hfile hlast hend <;> simp_all

theorem resolve_put {path : String}
    (h : t.resolve path = .ok (.file p) ∨ t.resolve path = .ok (.absent p false)) :
    (t.put p content).resolve path = .ok (.file p) := by
  unfold resolve at h ⊢
  split_ifs at h ⊢ with hnul hlong hroot
  · simp at h
  · simp at h
  · simp at h
  · exact follow_put h

theorem resolve_of_writable {path : String} (h : t.writable path = .ok p) :
    t.resolve path = .ok (.file p) ∨ t.resolve path = .ok (.absent p false) := by
  unfold writable at h
  split at h
  · cases h
  · cases h
  · cases h
  · simp_all
  · simp_all

theorem readText_of_readBytes {path text : String} (h : t.readBytes path = .ok text.toUTF8) :
    t.readText path = .ok text := by
  unfold readText
  rw [h]
  simp only [bind, Except.bind, fromUTF8?_toUTF8]

theorem keeps : Keeps FileTree := by
  intro path text t h
  change (t.writeBytes path text.toUTF8).1 = .ok () at h
  change (t.writeBytes path text.toUTF8).2.readText path = .ok text
  unfold writeBytes at h ⊢
  cases hwritable : t.writable path with
  | error f =>
    rw [hwritable] at h
    cases h
  | ok p =>
    have hresolve : (t.put p text.toUTF8).resolve path = .ok (.file p) :=
      resolve_put (resolve_of_writable hwritable)
    have hread : (t.put p text.toUTF8).readBytes path = .ok text.toUTF8 := by
      rw [readBytes, hresolve]
      dsimp only
      rw [content?_put, if_pos rfl]
      rfl
    exact readText_of_readBytes hread

end FileTree

namespace Places

theorem lookup_map (places : Places) (f : String → Place → Place) (path : String) :
    (places.map fun a => (a.1, f a.1 a.2)).lookup path = (places.lookup path).map (f path) := by
  induction places with
  | nil => rfl
  | cons a places ih =>
    rw [List.map_cons, List.lookup_cons, List.lookup_cons, ih]
    cases h : path == a.1 with
    | true => rw [eq_of_beq h]; rfl
    | false => rfl

theorem at?_write {places : Places} {path : String} {place : Place} (text : String)
    (h : places.at? path = .ok place) (hr : place.refusal = none) :
    (places.write path text).1 = .ok () ∧
      (places.write path text).2.at? path = .ok ⟨.ok text, true, none, true⟩ := by
  have hlookup : places.lookup path = some place := by
    unfold at? at h
    cases hl : places.lookup path with
    | none => rw [hl] at h; cases h
    | some found => rw [hl] at h; cases h; rfl
  let f (p : String) (old : Place) : Place := if p = path then ⟨.ok text, true, none, true⟩ else old
  have hwrite : places.write path text = (.ok (), places.map fun a => (a.1, f a.1 a.2)) := by
    simp only [write, h, hr]
    rfl
  rw [hwrite]
  refine ⟨rfl, ?_⟩
  rw [at?, lookup_map, hlookup]
  exact congrArg Except.ok (if_pos rfl)

theorem keeps : Keeps Places := by
  intro path text places h
  change (places.write path text).1 = .ok () at h
  change ((places.write path text).2.at? path).bind Place.text = .ok text
  cases hplace : places.at? path with
  | error f =>
    rw [write, hplace] at h
    cases h
  | ok place =>
    cases hrefusal : place.refusal with
    | some f =>
      rw [write, hplace] at h
      dsimp only at h
      rw [hrefusal] at h
      cases h
    | none =>
      rw [(at?_write text hplace hrefusal).2]
      rfl

end Places

end FrameLoop
