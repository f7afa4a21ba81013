import Thaw.Proofs.Segment.Runs

namespace Thaw.Segment
set_option autoImplicit true

def WritePolicy.Complete (policy : WritePolicy) : Prop :=
  ∀ offset length, ∃ limit, policy offset length = .wrote limit ∧ length ≤ limit

namespace Memory

variable {m : Memory} {h object offset : Nat} {handle : Handle} {bytes : Bytes} {policy : WritePolicy}
  {room : Bool} {id : Int32}

theorem overwrite_overwrite (old : Bytes) (offset : Nat) (a b : Bytes) :
    overwrite (overwrite old offset a) (offset + a.length) b = overwrite old offset (a ++ b) := by
  have hfront : (old.take offset ++ List.replicate (offset - old.length) 0).length = offset := by
    rw [List.length_append, List.length_take, List.length_replicate]
    omega
  unfold overwrite
  generalize old.take offset ++ List.replicate (offset - old.length) 0 = front at hfront ⊢
  have hfilled : offset + a.length - (front ++ a ++ old.drop (offset + a.length)).length = 0 := by
    rw [List.length_append, List.length_append]
    omega
  have hwritten : (front ++ a).length = offset + a.length := by
    rw [List.length_append, hfront]
  rw [hfilled, ← hwritten, List.take_left, ← List.drop_drop, List.drop_left, List.drop_drop, hwritten]
  simp [Nat.add_assoc]

theorem content_store (ho : handle.object < m.objects.length) (h : Nat) (bytes : Bytes) :
    (m.store h handle bytes).content handle.object =
      overwrite (m.content handle.object) handle.offset bytes := by
  simp [store, content, ho]

theorem content_store_ne (hne : object ≠ handle.object) (h : Nat) (bytes : Bytes) :
    (m.store h handle bytes).content object = m.content object :=
  content_set_ne object handle.object m.objects _ hne

theorem handle?_store (hh : h < m.handles.length) (handle : Handle) (bytes : Bytes) :
    (m.store h handle bytes).handle? h =
      some { handle with offset := handle.offset + bytes.length } :=
  handle?_set_self hh _

theorem handle?_store_ne (hne : k ≠ h) (handle : Handle) (bytes : Bytes) :
    (m.store h handle bytes).handle? k = m.handle? k :=
  handle?_set_ne hne _

theorem store_store (ho : handle.object < m.objects.length) (h : Nat) (a b : Bytes) :
    (m.store h handle a).store h { handle with offset := handle.offset + a.length } b =
      m.store h handle (a ++ b) := by
  have hcontent := content_store ho h a
  unfold store at hcontent ⊢
  rw [Memory.mk.injEq]
  refine ⟨rfl, ?_, ?_⟩
  · rw [hcontent, overwrite_overwrite, List.set_set]
  · rw [List.set_set, List.length_append, Nat.add_assoc]

structure Writer (m : Memory) (h object offset : Nat) : Prop where
  object_lt : object < m.objects.length
  handled : m.handle? h = some ⟨object, offset, true⟩

theorem Writer.store (w : m.Writer h object offset) (bytes : Bytes) :
    (m.store h ⟨object, offset, true⟩ bytes).Writer h object (offset + bytes.length) := by
  refine ⟨?_, handle?_store (handle?_lt w.handled) _ bytes⟩
  simpa [Memory.store] using w.object_lt

theorem Writer.write (w : m.Writer h object offset) (hpolicy : policy.Complete)
    (hbytes : bytes ≠ []) :
    m.write policy h bytes = (m.store h ⟨object, offset, true⟩ bytes, .ok ()) := by
  obtain ⟨limit, hfate, hlimit⟩ := hpolicy offset bytes.length
  have hempty : bytes.isEmpty = false := by simpa using hbytes
  simp [Memory.write, hempty, w.handled, hfate, List.take_of_length_le hlimit]

theorem write_of_not_writable (hk : m.handle? h = some handle) (hw : handle.writable = false)
    (policy : WritePolicy) (hbytes : bytes ≠ []) :
    m.write policy h bytes = (m, .error (writeError .badDescriptor)) := by
  have hempty : bytes.isEmpty = false := by simpa using hbytes
  simp [write, hempty, hk, hw]

/-- A handle that, while it is open, is open for writing or is not. -/
structure Opened (m : Memory) (h : Nat) (writable : Bool) : Prop where
  handle_lt : h < m.handles.length
  access : ∀ handle, m.handle? h = some handle → handle.writable = writable

theorem Opened.step (o : m.Opened h writable) (s : Step) : (m.step s).1.Opened h writable := by
  have e := effect_step m s
  constructor
  · rw [e.length_handles]
    exact Nat.lt_of_lt_of_le o.handle_lt (Nat.le_add_right _ _)
  · intro handle hk
    rcases e.handled hk with ⟨before, offset, hbefore, rfl⟩ | ⟨hlast, -⟩
    · exact o.access before hbefore
    · exact absurd hlast (Nat.ne_of_lt o.handle_lt)

theorem Opened.run (o : m.Opened h writable) (steps : List Step) :
    (m.run steps).Opened h writable := by
  induction steps generalizing m with
  | nil => exact o
  | cons s steps ih => exact ih (o.step s)

theorem opened_addHandle (m : Memory) (handle : Handle) :
    (m.addHandle handle).1.Opened (m.addHandle handle).2 handle.writable := by
  constructor
  · simp [addHandle]
  · intro handle' hk
    cases (handle?_addHandle_self handle).symm.trans hk
    rfl

theorem opened_of_create {created : Memory} (hcreate : m.create room id = .ok (created, h)) :
    created = (m.step (.create id)).1 ∧ created.Opened h true := by
  cases room with
  | false => cases hcreate
  | true =>
    refine ⟨by simp only [step, hcreate], ?_⟩
    unfold create at hcreate
    cases hid : m.lookup? id with
    | some object =>
      rw [hid] at hcreate
      cases hcreate
      exact opened_addHandle _ _
    | none =>
      rw [hid] at hcreate
      cases hcreate
      exact opened_addHandle _ _

theorem opened_of_openAndUnlink {opened : Memory} {fate : ReaderFate}
    (hopened : m.openAndUnlink fate id = .ok (opened, h)) : opened.Opened h false := by
  unfold openAndUnlink at hopened
  split at hopened
  case h_1 => cases hopened
  case h_2 =>
    split at hopened
    case h_1 => cases hopened
    case h_2 object _ =>
      cases hopened
      exact opened_addHandle _ _

/-- Whatever is done after its creation, a handle writes as long as it is open. -/
theorem Traced.writer_of_create {created : Memory} {owners : List Int32} (t : Traced m origins owners)
    (hcreate : m.create room id = .ok (created, h)) (later : List Step)
    (hk : (created.run later).handle? h = some handle) :
    (created.run later).Writer h handle.object handle.offset := by
  obtain ⟨rfl, o⟩ := opened_of_create hcreate
  obtain ⟨_, tcreated⟩ := t.step (.create id)
  obtain ⟨_, tlater⟩ := tcreated.run later
  obtain ⟨_, horigin, -⟩ := tlater.handled h handle hk
  have hwritable := (o.run later).access handle hk
  refine ⟨tlater.object_lt horigin, ?_⟩
  rw [hk, ← hwritable]

section

variable {written : Bytes}

/-- A handle at the end of an object that holds what was written through it. -/
structure Appending (m : Memory) (h object : Nat) (written : Bytes) : Prop where
  object_lt : object < m.objects.length
  handled : m.handle? h = some ⟨object, written.length, true⟩
  content : m.content object = written

theorem exists_create (m : Memory) (id : Int32) :
    ∃ created h, m.create true id = .ok (created, h) := by
  cases hid : m.lookup? id with
  | none =>
    simp only [create, hid]
    exact ⟨_, _, rfl⟩
  | some object =>
    simp only [create, hid]
    exact ⟨_, _, rfl⟩

theorem create_appending {created : Memory} {room : Bool} {id : Int32}
    (hm : ∀ object, m.lookup? id = some object → object < m.objects.length)
    (hcreate : m.create room id = .ok (created, h)) :
    ∃ object, created.lookup? id = some object ∧ created.Appending h object [] := by
  unfold create at hcreate
  split at hcreate
  case isTrue => cases hcreate
  case isFalse =>
    split at hcreate
    case h_1 object hid =>
      cases hcreate
      refine ⟨object, hid, by simpa [addHandle] using hm object hid, ?_, ?_⟩
      · exact handle?_addHandle_self _
      · simp [content, hm object hid]
    case h_2 hid =>
      cases hcreate
      refine ⟨m.objects.length, ?_, by simp, ?_, ?_⟩
      · exact (lookup_cons_eq_ite _ _ _).trans (if_pos rfl)
      · exact handle?_addHandle_self _
      · simp [content]

theorem Appending.writer (a : m.Appending h object written) : m.Writer h object written.length :=
  ⟨a.object_lt, a.handled⟩

theorem Appending.store (a : m.Appending h object written) (part : Bytes) :
    (m.store h ⟨object, written.length, true⟩ part).Appending h object (written ++ part) := by
  have w := a.writer.store part
  rw [← List.length_append] at w
  refine ⟨w.object_lt, w.handled, ?_⟩
  have hcontent : (m.store h ⟨object, written.length, true⟩ part).content object =
      overwrite (m.content object) written.length part := content_store a.object_lt h part
  rw [hcontent, a.content]
  simp [overwrite]

/-- One write appends all of its bytes or, if it fails, only some of them. -/
theorem Appending.write (a : m.Appending h object written) (policy : WritePolicy)
    (hbytes : bytes ≠ []) :
    ∃ part, (m.write policy h bytes).1.Appending h object (written ++ part) ∧
      (m.write policy h bytes).1.names = m.names ∧
      ((m.write policy h bytes).2 = .ok () ∧ part = bytes ∨
        (∃ e, (m.write policy h bytes).2 = .error e) ∧ part <+: bytes ∧ part ≠ bytes) := by
  have hstopped : m.Appending h object (written ++ []) := by rwa [List.append_nil]
  have hempty : bytes.isEmpty = false := by simpa using hbytes
  unfold Memory.write
  simp only [hempty, a.handled]
  cases hfate : policy written.length bytes.length with
  | failed errno =>
    exact ⟨[], hstopped, rfl, .inr ⟨⟨_, rfl⟩, List.nil_prefix, hbytes.symm⟩⟩
  | wrote limit =>
    refine ⟨bytes.take limit, a.store _, rfl, ?_⟩
    by_cases hall : (bytes.take limit).length = bytes.length
    · exact .inl ⟨if_pos hall, (List.take_prefix limit bytes).eq_of_length hall⟩
    · refine .inr ⟨⟨_, if_neg hall⟩, List.take_prefix limit bytes, fun he => ?_⟩
      exact hall (congrArg List.length he)

end

end Memory

end Thaw.Segment
