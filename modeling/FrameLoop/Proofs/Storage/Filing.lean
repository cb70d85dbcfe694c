import FrameLoop.Proofs.Reports
import FrameLoop.Proofs.Storage.Keeping

/-! Reports in the files of a tree: the file and the buffer hold together all that was written, and
files that are saved beside it do it no harm. -/

namespace FrameLoop

section

variable {φ ω : Type} [Report ω φ] {P : φ → Prop}

/-- Whatever is written to a report, and when it is let go of, `P` stays of the storage. -/
structure Spares (ω : Type) [Report ω φ] (P : φ → Prop) : Prop where
  write : ∀ piece (w : ω) storage, P storage → P (Report.write piece w storage).2.2
  close : ∀ (w : ω) storage, P storage → P (Report.close w storage)

namespace Spares

variable (h : Spares ω P)

include h

theorem writePieces (pieces : List String) (w : ω) {storage : φ} (hp : P storage) :
    P (Telemetry.writePieces pieces w storage).2.2 := by
  induction pieces generalizing w storage with
  | nil => exact hp
  | cons piece pieces ih =>
    have hone := h.write piece w storage hp
    rw [Telemetry.writePieces]
    generalize Report.write piece w storage = r at hone ⊢
    obtain ⟨_ | _, w', storage'⟩ := r
    · exact hone
    · exact ih w' hone

theorem reportFrame (t : Telemetry ω) (stats : FrameStats) (frame : Nat) {storage : φ}
    (hp : P storage) : P (t.reportFrame stats frame storage).2.2.1 := by
  unfold Telemetry.reportFrame Telemetry.writeFrame
  cases t.report with
  | none => exact hp
  | some w =>
    cases stats.record? frame with
    | none => exact hp
    | some attributes =>
      have hall := h.writePieces (Line.pieces frame attributes) w hp
      dsimp only
      generalize Telemetry.writePieces (Line.pieces frame attributes) w storage = r at hall ⊢
      obtain ⟨_ | _, w', storage'⟩ := r
      · exact h.close w' storage' hall
      · exact hall

theorem endFrame (t : Telemetry ω) (stats : FrameStats) (frame : Nat) (now : Instant) {storage : φ}
    (hp : P storage) : P (t.endFrame stats frame now storage).2.2.1 := by
  unfold Telemetry.endFrame
  split
  · exact hp
  · exact h.reportFrame t stats _ hp

end Spares

end

namespace FileTree

variable {t : FileTree} {p q : Trail} {content : ByteArray}

/-- A path leads where it led, unless nothing stood there and now something does. -/
theorem follow_put_of_ne {at_ : Trail} {names : List String} {target : Target}
    (h : t.follow at_ names = .ok target) (hne : ∀ slash, target ≠ .absent p slash) :
    (t.put p content).follow at_ names = .ok target := by
  induction names generalizing at_ with
  | nil => exact h
  | cons name names ih =>
    rw [follow] at h ⊢
    dsimp only at h ⊢
    rw [isDirectory_put]
    -- only the name of a file that is new here could be read in another way than before
    by_cases hnew : at_ ++ [name] = p ∧ (t.content? p).isSome = false
    · obtain ⟨rfl, hnone⟩ := hnew
      simp only [hnone, Bool.false_eq_true, if_false] at h
      split_ifs at h ⊢ <;> first | exact ih h | exact absurd (Except.ok.inj h).symm (hne _)
    · have hsame : ((t.put p content).content? (at_ ++ [name])).isSome =
          (t.content? (at_ ++ [name])).isSome := by
        rw [content?_put]
        split_ifs with heq
        · have hsome : (t.content? p).isSome = true := by
            by_contra hnone
            exact hnew ⟨heq, Bool.not_eq_true _ ▸ hnone⟩
          rw [heq, hsome]
          rfl
        · rfl
      rw [hsame]
      split_ifs at h ⊢ <;> first | exact ih h | exact h

theorem resolve_put_of_ne {path : String} {target : Target} (h : t.resolve path = .ok target)
    (hne : ∀ slash, target ≠ .absent p slash) : (t.put p content).resolve path = .ok target := by
  unfold resolve at h ⊢
  split_ifs at h ⊢
  exact follow_put_of_ne h hne

theorem writable_of_resolve {path : String}
    (h : t.resolve path = .ok (.file q) ∨ t.resolve path = .ok (.absent q false)) :
    t.writable path = .ok q := by
  rcases h with h | h <;> rw [writable, h]

/-- What can be written goes on to be so, whatever is put where. -/
theorem writable_put {path : String} (h : t.writable path = .ok q) :
    (t.put p content).writable path = .ok q := by
  have hq := resolve_of_writable h
  by_cases hp : q = p
  · subst hp
    exact writable_of_resolve (.inl (resolve_put hq))
  · refine writable_of_resolve (hq.imp (fun hfile => ?_) fun habsent => ?_)
    · exact resolve_put_of_ne hfile nofun
    · refine resolve_put_of_ne habsent fun slash heq => hp ?_
      cases heq
      rfl

theorem writeBytes_eq {path : String} (h : t.writable path = .ok p) (content : ByteArray) :
    t.writeBytes path content = (.ok (), t.put p content) := by
  rw [writeBytes, h]

def HasText (t : FileTree) (p : Trail) (text : String) : Prop := t.content? p = some text.toUTF8

theorem hasText_put (text : String) : (t.put p text.toUTF8).HasText p text := by
  rw [HasText, content?_put, if_pos rfl]

theorem HasText.put_of_ne {text : String} (h : t.HasText p text) (hne : p ≠ q) :
    (t.put q content).HasText p text := by
  rw [HasText, content?_put, if_neg hne]
  exact h

theorem HasText.readText {text path : String} (h : t.HasText p text)
    (hp : t.resolve path = .ok (.file p)) : t.readText path = .ok text := by
  refine readText_of_readBytes ?_
  rw [readBytes, hp]
  dsimp only
  rw [h]
  rfl

theorem HasText.writeAt {text : String} (h : t.HasText p text) (more : String) :
    t.writeAt p text.utf8ByteSize more.toUTF8 = t.put p (text ++ more).toUTF8 := by
  have hsize : text.toUTF8.size = text.utf8ByteSize := by simp
  have hgap : (⟨Array.replicate (text.utf8ByteSize - text.toUTF8.size) 0⟩ : ByteArray) = .empty := by
    rw [hsize, Nat.sub_self]
    rfl
  have hrest : text.toUTF8.extract (text.utf8ByteSize + more.toUTF8.size) text.toUTF8.size =
      .empty := by
    rw [← hsize]
    simp
  have happend : (text ++ more).toUTF8 = text.toUTF8 ++ more.toUTF8 := String.toByteArray_append
  rw [FileTree.writeAt, h, Option.getD_some, hgap, hrest, happend, ByteArray.append_empty,
    ByteArray.append_empty, ← hsize, ByteArray.extract_zero_size]

end FileTree

namespace OpenFile

variable {path text : String} {f : OpenFile} {t : FileTree}

/-- The report is written to the file at a path, at the end of its text. -/
structure Files (path text : String) (f : OpenFile) (t : FileTree) : Prop where
  resolve : t.resolve path = .ok (.file f.trail)
  hasText : t.HasText f.trail text
  offset : f.offset = text.utf8ByteSize

/-- All that was written, whether it is in the file yet or not. -/
def received (f : OpenFile) (t : FileTree) : String :=
  ((t.content? f.trail).bind String.fromUTF8?).getD "" ++ f.buffer

/-- The file, and the tree, once there is room for a piece in the buffer, or for nothing else. -/
def room (piece : String) (f : OpenFile) (t : FileTree) : OpenFile × FileTree :=
  if capacity < f.buffer.utf8ByteSize + piece.utf8ByteSize then flush f t else (f, t)

theorem write_eq (piece : String) (f : OpenFile) (t : FileTree) :
    write piece f t = if capacity ≤ piece.utf8ByteSize
      then emit piece (room piece f t).1 (room piece f t).2
      else ({ (room piece f t).1 with buffer := (room piece f t).1.buffer ++ piece },
        (room piece f t).2) :=
  rfl

namespace Files

theorem received_eq (h : Files path text f t) : received f t = text ++ f.buffer := by
  rw [received, h.hasText, Option.bind_some, fromUTF8?_toUTF8, Option.getD_some]

theorem emit (h : Files path text f t) (piece : String) :
    Files path (text ++ piece) (emit piece f t).1 (emit piece f t).2 := by
  have htree : (OpenFile.emit piece f t).2 = t.put f.trail (text ++ piece).toUTF8 := by
    rw [← h.hasText.writeAt, ← h.offset]
    rfl
  refine ⟨?_, ?_, ?_⟩
  · rw [htree]
    exact FileTree.resolve_put (.inl h.resolve)
  · rw [htree]
    exact FileTree.hasText_put _
  · rw [String.utf8ByteSize_append, ← h.offset]
    rfl

theorem flush (h : Files path text f t) :
    Files path (text ++ f.buffer) (flush f t).1 (flush f t).2 ∧ (flush f t).1.buffer = "" := by
  unfold OpenFile.flush
  split
  · rename_i hempty
    have hbuffer : f.buffer = "" := String.isEmpty_iff.mp hempty
    rw [hbuffer, String.append_empty]
    exact ⟨h, rfl⟩
  · exact ⟨emit (f := { f with buffer := "" }) ⟨h.resolve, h.hasText, h.offset⟩ f.buffer, rfl⟩

theorem room (h : Files path text f t) (piece : String) :
    ∃ text', Files path text' (room piece f t).1 (room piece f t).2 ∧
      text' ++ (room piece f t).1.buffer = text ++ f.buffer ∧
      (capacity ≤ piece.utf8ByteSize → (room piece f t).1.buffer = "") := by
  by_cases hfull : capacity < f.buffer.utf8ByteSize + piece.utf8ByteSize
  · obtain ⟨hflushed, hbuffer⟩ := h.flush
    simp only [OpenFile.room, if_pos hfull]
    exact ⟨_, hflushed, by rw [hbuffer, String.append_empty], fun _ => hbuffer⟩
  · simp only [OpenFile.room, if_neg hfull]
    refine ⟨text, h, rfl, fun hlarge => ?_⟩
    have hzero : f.buffer.utf8ByteSize = 0 := by omega
    exact String.utf8ByteSize_eq_zero_iff.mp hzero

/-- A piece goes past the buffer only if nothing is in it. -/
theorem write (h : Files path text f t) (piece : String) :
    ∃ text', Files path text' (write piece f t).1 (write piece f t).2 ∧
      text' ++ (write piece f t).1.buffer = text ++ f.buffer ++ piece := by
  obtain ⟨text', hfiles, hall, hlarge⟩ := h.room piece
  rw [write_eq, ← hall]
  split
  · rename_i hsize
    refine ⟨text' ++ piece, hfiles.emit piece, ?_⟩
    have hkept : (OpenFile.emit piece (OpenFile.room piece f t).1 (OpenFile.room piece f t).2).1.buffer =
        (OpenFile.room piece f t).1.buffer := rfl
    rw [hkept, hlarge hsize, String.append_empty, String.append_empty]
  · exact ⟨text', ⟨hfiles.resolve, hfiles.hasText, hfiles.offset⟩, (String.append_assoc ..).symm⟩

theorem put (h : Files path text f t) {q : Trail} (hq : f.trail ≠ q) (content : ByteArray) :
    Files path text f (t.put q content) :=
  ⟨FileTree.resolve_put_of_ne h.resolve nofun, h.hasText.put_of_ne hq, h.offset⟩

theorem readText_close (h : Files path text f t) :
    (Report.close f t).readText path = .ok (received f t) := by
  obtain ⟨hflushed, -⟩ := h.flush
  rw [h.received_eq]
  exact hflushed.hasText.readText hflushed.resolve

/-- When the service is flushed and then closed, all that was written is in the file. -/
theorem readText_ended (h : Files path text f t) {telemetry : Telemetry OpenFile}
    (ht : telemetry.report = some f) :
    (((telemetry.flush t).1.close (telemetry.flush t).2.1).1).readText path =
      .ok (text ++ f.buffer) := by
  obtain ⟨hflushed, hempty⟩ := h.flush
  obtain ⟨hagain, hbuffer⟩ := hflushed.flush
  rw [hempty, String.append_empty] at hagain
  have hended : ((telemetry.flush t).1.close (telemetry.flush t).2.1).1 =
      Report.close (OpenFile.flush (OpenFile.flush f t).1 (OpenFile.flush f t).2).1
        (OpenFile.flush (OpenFile.flush f t).1 (OpenFile.flush f t).2).2 := by
    simp only [Telemetry.close, Telemetry.flush, ht]
    rfl
  rw [hended, hagain.readText_close, hagain.received_eq, hbuffer, String.append_empty]

end Files

theorem accepting (path : String) : Accepting (fun f t => ∃ text, Files path text f t) received where
  write piece f t := by
    rintro ⟨text, h⟩
    obtain ⟨text', hwritten, hall⟩ := h.write piece
    refine ⟨(write piece f t).1, (write piece f t).2, rfl, ⟨text', hwritten⟩, ?_⟩
    rw [hwritten.received_eq, h.received_eq, hall]

theorem openReport_eq {telemetry : Telemetry OpenFile} (ht : telemetry.report = none) {p : Trail}
    (h : t.writable path = .ok p) :
    ∃ f, telemetry.openReport path t = (.ok { telemetry with report := some f }, t.put p .empty,
        [⟨.info, s!"Writing frame statistics to '{path}'"⟩]) ∧
      f.buffer = "" ∧ Files path "" f (t.put p .empty) := by
  have hcreate : (Storage.create path t : Except FileFault OpenFile × FileTree) =
      (.ok ⟨p, 0, ""⟩, t.put p .empty) := by
    simp only [Storage.create, h]
  refine ⟨⟨p, 0, ""⟩, ?_, rfl, ?_⟩
  · simp only [Telemetry.openReport, Telemetry.setReport, hcreate, ht]
  · exact ⟨FileTree.resolve_put (FileTree.resolve_of_writable h), FileTree.hasText_put "", rfl⟩

theorem spares {P : FileTree → Prop} (hput : ∀ t p content, P t → P (t.put p content)) :
    Spares OpenFile P := by
  have hflush (f : OpenFile) (t : FileTree) (h : P t) : P (OpenFile.flush f t).2 := by
    unfold OpenFile.flush
    split
    · exact h
    · exact hput _ _ _ h
  have hroom (piece : String) (f : OpenFile) (t : FileTree) (h : P t) : P (room piece f t).2 := by
    unfold room
    split
    · exact hflush f t h
    · exact h
  refine ⟨fun piece f t h => ?_, hflush⟩
  have hwrite : (Report.write piece f t).2 = write piece f t := rfl
  rw [hwrite, write_eq]
  split
  · exact hput _ _ _ (hroom piece f t h)
  · exact hroom piece f t h

end OpenFile
end FrameLoop
