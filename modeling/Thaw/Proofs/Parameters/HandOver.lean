import Thaw.Proofs.Parameters.Writing

namespace Thaw
set_option autoImplicit true

theorem mapError_eq_ok_iff {x : Except ε α} {f : ε → δ} : x.mapError f = .ok a ↔ x = .ok a := by
  cases x with
  | error e => simp [Except.mapError]
  | ok b => simp [Except.mapError]

namespace Parameters

open Segment (Memory ReaderFate WritePolicy Step)
open Segment.Memory (Appending)

variable {m : Memory} {id : Int32} {h object : Nat} {written : Bytes} {policy : WritePolicy}
  {p : Parameters}

/-- Pieces that are written one after the other leave a beginning of what they make up together, and
all of it only where no write fails. -/
theorem writePieces_appends (a : m.Appending h object written) (policy : WritePolicy)
    {pieces : List Bytes} (hpieces : ∀ piece ∈ pieces, piece ≠ []) :
    ∃ part, (writePieces policy m h pieces).1.Appending h object (written ++ part) ∧
      (writePieces policy m h pieces).1.names = m.names ∧
      ((writePieces policy m h pieces).2 = .ok () ∧ part = pieces.flatten ∨
        (∃ e, (writePieces policy m h pieces).2 = .error e) ∧
          part <+: pieces.flatten ∧ part ≠ pieces.flatten) := by
  induction pieces generalizing m written with
  | nil => exact ⟨[], by rwa [List.append_nil], rfl, .inl ⟨rfl, rfl⟩⟩
  | cons piece pieces ih =>
    obtain ⟨hpiece, hothers⟩ := List.forall_mem_cons.1 hpieces
    obtain ⟨first, afirst, hnames, hfirst⟩ := a.write policy hpiece
    unfold writePieces
    rcases hw : m.write policy h piece with ⟨m', result⟩
    rw [hw] at afirst hnames hfirst
    rcases hfirst with ⟨hok, rfl⟩ | ⟨⟨e, herror⟩, hpre, hne⟩
    · cases hok
      obtain ⟨rest, arest, hnames', hrest⟩ := ih afirst hothers
      refine ⟨first ++ rest, by rwa [← List.append_assoc], hnames'.trans hnames, ?_⟩
      rcases hrest with ⟨hok, rfl⟩ | ⟨herror, hpre, hne⟩
      · exact .inl ⟨hok, rfl⟩
      · refine .inr ⟨herror, (List.prefix_append_right_inj first).2 hpre, fun he => hne ?_⟩
        exact List.append_cancel_left he
    · cases herror
      refine ⟨first, afirst, hnames, .inr ⟨⟨e, rfl⟩, hpre.trans (List.prefix_append _ _), ?_⟩⟩
      intro he
      have hlength := congrArg List.length he
      rw [List.flatten_cons, List.length_append] at hlength
      exact hne (hpre.eq_of_length_le (by omega))

/-- What a hand-over that stops short leaves in the segment. -/
structure Torn (p : Parameters) (content : Bytes) : Prop where
  of_encoded : ∀ b, p.encode = .ok b → content <+: b ∧ content ≠ b
  of_unencodable : ∀ e, p.encode = .error e → content = []

/-- Writing parameters into an empty segment leaves their encoding there, or fails and leaves less. -/
theorem writeTo_appends (a : m.Appending h object []) (policy : WritePolicy) :
    (p.writeTo policy m h).1.names = m.names ∧
      ((p.writeTo policy m h).2 = .ok () ∧ p.Encodable ∧
        (p.writeTo policy m h).1.content object = p.layout ∨
      (∃ e, (p.writeTo policy m h).2 = .error e) ∧
        p.Torn ((p.writeTo policy m h).1.content object)) := by
  by_cases hp : p.Encodable
  · obtain ⟨part, apart, hnames, hpart⟩ :=
      writePieces_appends a policy (pieces_ne_nil p)
    rw [flatten_pieces] at hpart
    rw [writeTo_of_encodable hp, apart.content, List.nil_append]
    refine ⟨hnames, ?_⟩
    rcases hpart with ⟨hok, rfl⟩ | ⟨herror, hpre, hne⟩
    · exact .inl ⟨hok, hp, rfl⟩
    · refine .inr ⟨herror, fun b hb => ?_, fun e he => ?_⟩
      · obtain ⟨-, rfl⟩ := (encode_eq_ok_iff p).1 hb
        exact ⟨hpre, hne⟩
      · exact absurd hp ((exists_encode_error_iff p).1 ⟨e, he⟩)
  · obtain ⟨e, he⟩ := (exists_encode_error_iff p).2 hp
    rw [writeTo_of_encode_error he]
    refine ⟨rfl, .inr ⟨⟨_, rfl⟩, fun b hb => ?_, fun _ _ => a.content⟩⟩
    exact absurd ((encode_eq_ok_iff p).1 hb).1 hp

theorem Torn.decode (ht : p.Torn content) :
    ∃ reason, (decode content).mapError DecodeError.toChannel = .error (.corrupt reason) := by
  cases hd : Parameters.decode content with
  | error e => exact ⟨e.message, rfl⟩
  | ok q =>
    exfalso
    obtain ⟨hq, hpre⟩ := (decode_eq_ok_iff content q).1 hd
    cases hb : p.encode with
    | ok b =>
      -- The encoding of `q` would stand at the head of a part of the encoding of `p`.
      obtain ⟨hcontent, hne⟩ := ht.of_encoded b hb
      have hq' := (encode_eq_ok_iff q).2 ⟨hq, rfl⟩
      obtain ⟨-, rfl⟩ := eq_of_begins hq' hb (hpre.trans hcontent)
      exact hne (hcontent.eq_of_length_le hpre.length_le)
    | error e =>
      rw [ht.of_unencodable e hb] at hd
      cases hd

theorem readFrom_of_start (hk : m.handle? h = some ⟨object, 0, writable⟩) :
    (readFrom m h).2 = (decode (m.content object)).mapError DecodeError.toChannel := by
  simp [readFrom, Memory.readAll, hk]

theorem names_readFrom (m : Memory) (h : Nat) : (readFrom m h).1.names = m.names := by
  unfold readFrom Memory.readAll
  cases m.handle? h <;> rfl

theorem objects_readFrom (m : Memory) (h : Nat) : (readFrom m h).1.objects = m.objects := by
  unfold readFrom Memory.readAll
  cases m.handle? h <;> rfl

section

variable {fate : ReaderFate}

theorem take_of_not_opened {e : ChannelError} (h : m.openAndUnlink fate id = .error e) :
    take m fate id = (m, .error e) := by
  simp only [take, h]

theorem take_of_opened {opened : Memory} (h : m.openAndUnlink fate id = .ok (opened, k)) :
    (take m fate id).1.names = opened.names ∧ (take m fate id).1.objects = opened.objects ∧
      (take m fate id).2 = match fate.reading with
        | some errno => .error (.readFailed errno.message)
        | none => (readFrom opened k).2 := by
  simp only [take, h]
  cases fate.reading with
  | some errno => exact ⟨rfl, rfl, rfl⟩
  | none => exact ⟨names_readFrom opened k, objects_readFrom opened k, rfl⟩

theorem openAndUnlink_of_unnamed (hopening : fate.opening = none) (hid : m.lookup? id = none) :
    m.openAndUnlink fate id = .error (Memory.openError id "shm_open" .noEntry) := by
  simp only [Memory.openAndUnlink, hopening, hid]

theorem openAndUnlink_of_refused (hopening : fate.opening = some errno) :
    m.openAndUnlink fate id = .error (Memory.openError id "shm_open" errno) := by
  simp only [Memory.openAndUnlink, hopening]

theorem take_of_named (hopening : fate.opening = none) (hreading : fate.reading = none)
    (hid : m.lookup? id = some object) :
    (take m fate id).2 = (decode (m.content object)).mapError DecodeError.toChannel := by
  obtain ⟨-, -, hresult⟩ := take_of_opened
    (Segment.Memory.openAndUnlink_eq_ok_iff.2 ⟨hopening, object, hid, rfl, rfl⟩)
  rw [hresult, hreading]
  cases fate.unlinking.isNone with
  | true => exact readFrom_of_start (Segment.Memory.handle?_addHandle_self _)
  | false => exact readFrom_of_start (Segment.Memory.handle?_addHandle_self _)

/-- Parameters are taken only where the segment can be opened and all of it can be read. -/
theorem take_eq_ok_iff : (take m fate id).2 = .ok p ↔
    fate.opening = none ∧ fate.reading = none ∧
      ∃ object, m.lookup? id = some object ∧ decode (m.content object) = .ok p := by
  cases hopening : fate.opening with
  | some errno => simp [take_of_not_opened (openAndUnlink_of_refused hopening)]
  | none =>
    cases hid : m.lookup? id with
    | none => simp [take_of_not_opened (openAndUnlink_of_unnamed hopening hid)]
    | some object =>
      cases hreading : fate.reading with
      | some errno =>
        obtain ⟨-, -, hresult⟩ := take_of_opened
          (Segment.Memory.openAndUnlink_eq_ok_iff.2 ⟨hopening, object, hid, rfl, rfl⟩)
        rw [hresult, hreading]
        simp
      | none =>
        rw [take_of_named hopening hreading hid, mapError_eq_ok_iff]
        simp

/-- Whether or not its parameters are of use, a segment that is opened loses its name, unless the system
refuses that, and no other one does. -/
theorem lookup?_take (m : Memory) (fate : ReaderFate) (id other : Int32) :
    (take m fate id).1.lookup? other =
      if other = id ∧ fate.opening = none ∧ fate.unlinking = none then none else m.lookup? other := by
  cases hopening : fate.opening with
  | some errno =>
    rw [take_of_not_opened (openAndUnlink_of_refused hopening), if_neg (by simp)]
  | none =>
    cases hid : m.lookup? id with
    | none =>
      rw [take_of_not_opened (openAndUnlink_of_unnamed hopening hid)]
      split
      case isTrue he => rw [he.1, hid]
      case isFalse => rfl
    | some object =>
      obtain ⟨hnames, -, -⟩ := take_of_opened
        (Segment.Memory.openAndUnlink_eq_ok_iff.2 ⟨hopening, object, hid, rfl, rfl⟩)
      rw [Memory.lookup?, hnames]
      cases fate.unlinking with
      | none =>
        simp only [and_true]
        exact Segment.Memory.lookup?_dropName m id other
      | some errno => exact (if_neg (by simp)).symm

theorem objects_take (m : Memory) (fate : ReaderFate) (id : Int32) :
    (take m fate id).1.objects = m.objects := by
  cases hopened : m.openAndUnlink fate id with
  | error e => rw [take_of_not_opened hopened]
  | ok r =>
    obtain ⟨-, object, -, -, hleft⟩ := Segment.Memory.openAndUnlink_eq_ok_iff.1 hopened
    rw [(take_of_opened hopened).2.1, hleft]
    cases fate.unlinking.isNone <;> rfl

end

theorem handOver_of_written {created written : Memory} {room : Bool}
    (hcreate : m.create room id = .ok (created, h))
    (hwrite : p.writeTo policy created h = (written, .ok ())) :
    p.handOver policy m room id = ((written.close h).1, .ok ()) := by
  simp only [handOver, hcreate, hwrite]

theorem handOver_of_failed {created written : Memory} {room : Bool} {e : ChannelError}
    (hcreate : m.create room id = .ok (created, h))
    (hwrite : p.writeTo policy created h = (written, .error e))
    (hid : written.lookup? id = some object) :
    p.handOver policy m room id = (((written.dropName id).close h).1, .error e) := by
  simp only [handOver, hcreate, hwrite, Memory.unlink, hid]

/-- What a hand-over leaves to readers, by its result: the encoding of the parameters under the name
of the segment, or no name and less than an encoding. -/
theorem handOver_leaves {created : Memory} {room : Bool}
    (hcreate : m.create room id = .ok (created, h)) (hid : created.lookup? id = some object)
    (a : created.Appending h object []) (policy : WritePolicy) :
    let after := (p.handOver policy m room id).1
    let result := (p.handOver policy m room id).2
    result = .ok () ∧ p.Encodable ∧ after.lookup? id = some object ∧
        after.content object = p.layout ∨
      (∃ e, result = .error e) ∧ after.lookup? id = none ∧ p.Torn (after.content object) := by
  obtain ⟨hnames, hwritten⟩ := writeTo_appends (p := p) a policy
  rcases hw : p.writeTo policy created h with ⟨written, result⟩
  rw [hw] at hnames hwritten
  have hid' : written.lookup? id = some object := by
    rw [Memory.lookup?, hnames]
    exact hid
  rcases hwritten with ⟨hok, hp, hcontent⟩ | ⟨⟨e, herror⟩, htorn⟩
  · cases hok
    rw [handOver_of_written hcreate hw]
    exact .inl ⟨rfl, hp, hid', hcontent⟩
  · cases herror
    rw [handOver_of_failed hcreate hw hid']
    refine .inr ⟨⟨e, rfl⟩, ?_, htorn⟩
    exact (Segment.Memory.lookup?_dropName written id id).trans (if_pos rfl)

theorem handOver_of_complete {created : Memory} {room : Bool}
    (hcreate : m.create room id = .ok (created, h)) (a : created.Appending h object [])
    (hp : p.Encodable)
    (hpolicy : ∀ offset length, ∃ limit, policy offset length = .wrote limit ∧ length ≤ limit) :
    (p.handOver policy m room id).2 = .ok () := by
  have hencode := (encode_eq_ok_iff p).2 ⟨hp, rfl⟩
  rw [handOver_of_written hcreate (writeTo_of_encode_ok a.writer hpolicy hencode)]

/-- Whatever was done to the memory before, and whatever becomes of each write: a hand-over that ends
well leaves the encoding of the parameters, and the next reader gets them. One that fails leaves no
name and a proper beginning of the encoding, which is corrupt to everyone who reads it from its start.
So nobody ever reads other parameters than those handed over. -/
theorem handOver_delivers_or_fails {start : Memory} (hstart : start.AtRest) (before : List Step)
    (policy : WritePolicy) (room : Bool) (id : Int32) (p : Parameters) :
    let m := start.run before
    let after := (p.handOver policy m room id).1
    let result := (p.handOver policy m room id).2
    (∀ e, m.create room id = .error e → after = m ∧ result = .error e) ∧
    ∀ created h, m.create room id = .ok (created, h) →
      ∃ object, created.lookup? id = some object ∧
        (result = .ok () → ∃ b, p.encode = .ok b ∧ after.lookup? id = some object ∧
          after.content object = b ∧ (take after .granted id).2 = .ok p) ∧
        (∀ e, result = .error e → after.lookup? id = none ∧
          (∀ b, p.encode = .ok b → after.content object <+: b ∧ after.content object ≠ b) ∧
          ((∃ e, p.encode = .error e) → after.content object = []) ∧
          ∃ reason,
            (decode (after.content object)).mapError DecodeError.toChannel =
              .error (.corrupt reason) ∧
            -- Had the name stayed, its reader would have failed as well.
            (take { after with names := created.names } .granted id).2 = .error (.corrupt reason)) ∧
        (∀ fate q, (take after fate id).2 = .ok q → q = p) ∧
        (∀ k writable q, after.handle? k = some ⟨object, 0, writable⟩ →
          (readFrom after k).2 = .ok q → q = p) ∧
        ((∃ b, p.encode = .ok b) →
          (∀ offset length, ∃ limit, policy offset length = .wrote limit ∧ length ≤ limit) →
          result = .ok ()) := by
  intro m after result
  refine ⟨fun e he => ?_, fun created h hcreate => ?_⟩
  · simp only [after, result, handOver, he, and_self]
  obtain ⟨origins, tstart⟩ := hstart.traced
  obtain ⟨origins', t⟩ := tstart.run before
  obtain ⟨object, hid, a⟩ := Segment.Memory.create_appending
    (fun object ho => t.object_lt (t.named id object ho)) hcreate
  have hcomplete : (∃ b, p.encode = .ok b) →
      (∀ offset length, ∃ limit, policy offset length = .wrote limit ∧ length ≤ limit) →
      result = .ok () := by
    rintro ⟨b, hb⟩ hpolicy
    exact handOver_of_complete hcreate a ((encode_eq_ok_iff p).1 hb).1 hpolicy
  refine ⟨object, hid, ?_⟩
  rcases handOver_leaves (p := p) hcreate hid a policy with
    ⟨hok, hp, hnamed, hcontent⟩ | ⟨⟨e, herror⟩, hunnamed, htorn⟩
  · have hdecode : (decode (after.content object)).mapError DecodeError.toChannel = .ok p := by
      rw [hcontent, decode_of_begins ((encode_eq_ok_iff p).2 ⟨hp, rfl⟩) List.prefix_rfl]
      rfl
    have htake : (take after .granted id).2 = .ok p :=
      (take_of_named rfl rfl hnamed).trans hdecode
    refine ⟨fun _ => ⟨p.layout, (encode_eq_ok_iff p).2 ⟨hp, rfl⟩, hnamed, hcontent, htake⟩,
      fun e he => ?_, fun fate q hq => ?_, fun k writable q hk hq => ?_, hcomplete⟩
    · cases hok.symm.trans he
    · obtain ⟨hopening, hreading, -⟩ := take_eq_ok_iff.1 hq
      cases ((take_of_named hopening hreading hnamed).trans hdecode).symm.trans hq
      rfl
    · cases ((readFrom_of_start hk).trans hdecode).symm.trans hq
      rfl
  · obtain ⟨reason, hcorrupt⟩ := htorn.decode
    refine ⟨fun hok => ?_, fun _ _ => ⟨hunnamed, htorn.of_encoded, ?_, reason, hcorrupt, ?_⟩,
      fun fate q hq => ?_, fun k writable q hk hq => ?_, hcomplete⟩
    · cases herror.symm.trans hok
    · rintro ⟨e, he⟩
      exact htorn.of_unencodable e he
    · exact (take_of_named (m := { after with names := created.names }) rfl rfl hid).trans hcorrupt
    · obtain ⟨-, -, object, hnamed, -⟩ := take_eq_ok_iff.1 hq
      cases hunnamed.symm.trans hnamed
    · cases ((readFrom_of_start hk).trans hcorrupt).symm.trans hq

def greeting : Parameters := ⟨⟨1, 2⟩, ["a=1"], [Bytes.ofString "X=1"], "-Dhi=you"⟩

/-- The segment is in use and the system takes no more than 30 bytes of the greeting. -/
theorem handOver_delivers_or_fails_greeting :
    let m := Memory.leftBehind.run [.openAndUnlink 7, .create 7]
    let after := (greeting.handOver (.sizeLimit 30) m true 7).1
    Memory.leftBehind.AtRest ∧
      (greeting.handOver (.sizeLimit 30) m true 7).2 = .error (.truncatedWrite 4 2) ∧
      after.lookup? 7 = none ∧
      ∃ reason, (decode (after.content 1)).mapError DecodeError.toChannel =
        .error (.corrupt reason) := by
  intro m after
  have h := Memory.atRest_leftBehind
  have hresult : (greeting.handOver (.sizeLimit 30) m true 7).2 = .error (.truncatedWrite 4 2) := rfl
  obtain ⟨-, hcreated⟩ := handOver_delivers_or_fails h [.openAndUnlink 7, .create 7]
    (.sizeLimit 30) true 7 greeting
  obtain ⟨object, hid, -, hfailed, -⟩ := hcreated _ _ rfl
  obtain rfl : 1 = object := Option.some.inj hid
  obtain ⟨hunnamed, -, -, reason, hcorrupt, -⟩ := hfailed _ hresult
  exact ⟨h, hresult, hunnamed, reason, hcorrupt⟩

end Parameters

end Thaw
