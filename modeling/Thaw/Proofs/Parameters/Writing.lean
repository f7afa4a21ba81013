import Thaw.Parameters.Channel
import Thaw.Proofs.Parameters.Layout
import Thaw.Proofs.Segment.Writers

namespace Thaw
set_option autoImplicit true

namespace Parameters

open Segment (Memory WritePolicy Step)
open Segment.Memory (Writer)

variable {m : Memory} {h object offset : Nat} {policy : WritePolicy} {p : Parameters}
  {piece : Bytes} {pieces : List Bytes}

theorem flatten_pieces (p : Parameters) :
    (p.headerBytes :: p.pieces.map terminate).flatten = p.layout := by
  rw [List.flatten_cons, layout, List.flatMap_def]

theorem pieces_ne_nil (p : Parameters) :
    ∀ piece ∈ p.headerBytes :: p.pieces.map terminate, piece ≠ [] := by
  rw [List.forall_mem_cons, List.forall_mem_map]
  constructor
  · intro hnil
    have hlength := congrArg List.length hnil
    simp [headerBytes] at hlength
  · intro piece _
    simp [terminate]

/-- One write of all pieces leaves the same. None of them may be empty, as a write of nothing does not
fill up to the offset. -/
theorem writePieces_of_complete (w : m.Writer h object offset) (hpolicy : policy.Complete)
    (hpieces : ∀ part ∈ piece :: pieces, part ≠ []) :
    writePieces policy m h (piece :: pieces) =
      (m.store h ⟨object, offset, true⟩ (piece :: pieces).flatten, .ok ()) := by
  induction pieces generalizing m piece offset with
  | nil =>
    rw [writePieces, w.write hpolicy (List.forall_mem_cons.1 hpieces).1]
    simp [writePieces]
  | cons next pieces ih =>
    obtain ⟨hpiece, hothers⟩ := List.forall_mem_cons.1 hpieces
    have hstores : (m.store h ⟨object, offset, true⟩ piece).store h
        ⟨object, offset + piece.length, true⟩ (next :: pieces).flatten =
          m.store h ⟨object, offset, true⟩ (piece ++ (next :: pieces).flatten) :=
      Memory.store_store w.object_lt h _ _
    rw [writePieces, w.write hpolicy hpiece]
    apply (ih (w.store piece) hothers).trans
    rw [hstores]
    rfl

theorem writeTo_of_encodable (hp : p.Encodable) (policy : WritePolicy) (m : Memory) (h : Nat) :
    p.writeTo policy m h = writePieces policy m h (p.headerBytes :: p.pieces.map terminate) := by
  obtain ⟨hfree, hcount, hsize⟩ := (encodable_iff p).1 hp
  have htexts := (checkTexts_eq_ok_iff p).2 hfree
  have hheader := (header_eq_ok_iff p).2 ⟨hcount, hsize, rfl⟩
  simp only [writeTo, htexts, hheader, bind, Except.bind]

/-- Texts and header are checked as they are for encoding, and before anything is written. -/
theorem writeTo_of_encode_error (hp : p.encode = .error e) (policy : WritePolicy) (m : Memory)
    (h : Nat) : p.writeTo policy m h = (m, .error e.toChannel) := by
  unfold encode at hp
  unfold writeTo
  cases htexts : p.checkTexts with
  | error e' =>
    rw [htexts] at hp
    cases hp
    rfl
  | ok =>
    rw [htexts] at hp
    cases hheader : p.header with
    | error e' =>
      rw [hheader] at hp
      cases hp
      rfl
    | ok bytes =>
      rw [hheader] at hp
      cases hp

theorem writeTo_of_encode_ok (w : m.Writer h object offset) (hpolicy : policy.Complete)
    (hp : p.encode = .ok b) :
    p.writeTo policy m h = (m.store h ⟨object, offset, true⟩ b, .ok ()) := by
  obtain ⟨hencodable, rfl⟩ := (encode_eq_ok_iff p).1 hp
  rw [writeTo_of_encodable hencodable, writePieces_of_complete w hpolicy (pieces_ne_nil p),
    flatten_pieces]

theorem writeTo_of_not_writable {handle : Segment.Handle} (hk : m.handle? h = some handle)
    (hw : handle.writable = false) (policy : WritePolicy) (p : Parameters) :
    ∃ e, p.writeTo policy m h = (m, .error e) := by
  cases hp : p.encode with
  | error e => exact ⟨_, writeTo_of_encode_error hp policy m h⟩
  | ok b =>
    have hheader := (List.forall_mem_cons.1 (pieces_ne_nil p)).1
    refine ⟨Memory.writeError .badDescriptor, ?_⟩
    rw [writeTo_of_encodable ((encode_eq_ok_iff p).1 hp).1, writePieces,
      Segment.Memory.write_of_not_writable hk hw policy hheader]

/-- If no write falls short, writing parameters ends as encoding them does. It leaves the encoding at
the offset of the handle, over what was there and behind zeros where the object was too short, or it
leaves everything as it was. Every handle of a creation writes in this way at all later times, and a
handle that came with the removal of the name never does. -/
theorem writeTo_writes_encoding (p : Parameters) :
    (∀ policy : WritePolicy, policy.Complete →
      ∀ (m : Memory) h object offset, m.Writer h object offset →
        let old := m.content object
        let after := (p.writeTo policy m h).1
        (p.writeTo policy m h).2 = (p.encode.map fun _ => ()).mapError EncodeError.toChannel ∧
        (∀ b, p.encode = .ok b →
          after.content object =
            old.take offset ++ List.replicate (offset - old.length) 0 ++ b ++
              old.drop (offset + b.length) ∧
          after.handle? h = some ⟨object, offset + b.length, true⟩ ∧
          after.names = m.names ∧
          (∀ other, other ≠ object → after.content other = m.content other) ∧
          ∀ k, k ≠ h → after.handle? k = m.handle? k) ∧
        ∀ e, p.encode = .error e → after = m) ∧
    (∀ (policy : WritePolicy) (m : Memory) h handle, m.handle? h = some handle →
      handle.writable = false → ∃ e, p.writeTo policy m h = (m, .error e)) ∧
    ∀ start : Memory, start.AtRest → ∀ (before later : List Step) room fate id opened h,
      let m := start.run before
      let now := opened.run later
      (m.create room id = .ok (opened, h) → ∀ handle, now.handle? h = some handle →
        now.Writer h handle.object handle.offset) ∧
      (m.openAndUnlink fate id = .ok (opened, h) → ∀ handle, now.handle? h = some handle →
        handle.writable = false) := by
  refine ⟨?_, fun policy m h handle hk hw => writeTo_of_not_writable hk hw policy p, ?_⟩
  · intro policy hpolicy m h object offset w old after
    cases hp : p.encode with
    | error e =>
      have hwritten := writeTo_of_encode_error hp policy m h
      refine ⟨by rw [hwritten]; rfl, ⟨fun b hb => ?_, fun _ _ => congrArg Prod.fst hwritten⟩⟩
      cases hb
    | ok b =>
      have hwritten := writeTo_of_encode_ok w hpolicy hp
      have hafter : after = m.store h ⟨object, offset, true⟩ b := congrArg Prod.fst hwritten
      refine ⟨by rw [hwritten]; rfl, ⟨fun b' hb => ?_, fun e he => by cases he⟩⟩
      cases hb
      rw [hafter]
      exact ⟨Memory.content_store w.object_lt h b, (w.store b).handled, rfl,
        fun other hne => Memory.content_store_ne hne h b,
        fun k hne => Memory.handle?_store_ne hne _ b⟩
  · intro start hstart before later room fate id opened h m now
    constructor
    · intro hcreate handle hk
      obtain ⟨_, tstart⟩ := hstart.traced
      obtain ⟨_, t⟩ := tstart.run before
      exact t.writer_of_create hcreate later hk
    · intro hopened handle hk
      exact ((Segment.Memory.opened_of_openAndUnlink hopened).run later).access handle hk

def bare : Parameters := ⟨⟨1, 0⟩, [""], [], ""⟩

def movedBeyond : Memory := ⟨[(7, 0)], [[1, 2]], [some ⟨0, 4, true⟩]⟩

theorem writeTo_writes_encoding_beyond :
    let after := (bare.writeTo .unlimited movedBeyond 0).1
    let created := Memory.leftBehind.run [.create 7, .openAndUnlink 7]
    (bare.writeTo .unlimited movedBeyond 0).2 = .ok () ∧
      after.content 0 = [1, 2, 0, 0, 1, 0, 0, 0, 0, 0, 0, 0, 0, 0, 0, 0, 0, 0, 0, 0, 1, 0, 0, 0,
        0, 0, 0, 0, 0, 0] ∧
      after.handle? 0 = some ⟨0, 30, true⟩ ∧
      (∃ e, bare.writeTo .unlimited created 1 = (created, .error e)) ∧
      Memory.leftBehind.AtRest ∧ created.Writer 0 0 0 := by
  obtain ⟨hwrites, hfails, hopened⟩ := writeTo_writes_encoding bare
  obtain ⟨hresult, hwritten, -⟩ := hwrites .unlimited (fun _ length => ⟨length, rfl, Nat.le_refl _⟩)
    movedBeyond 0 0 4 ⟨by decide, rfl⟩
  obtain ⟨hcontent, hhandle, -⟩ := hwritten _ rfl
  obtain ⟨hcreated, -⟩ := hopened _ Memory.atRest_leftBehind [] [.openAndUnlink 7] true .granted
    7 _ 0
  refine ⟨hresult, hcontent.trans (by decide +kernel), hhandle, hfails _ _ 1 _ rfl rfl,
    Memory.atRest_leftBehind, hcreated rfl _ rfl⟩

end Parameters

end Thaw
