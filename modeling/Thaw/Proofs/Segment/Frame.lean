import Mathlib
import Thaw.Proofs.Lookup
import Thaw.Segment.Memory

namespace Thaw.Segment
set_option autoImplicit true

theorem nameOf_injective : Function.Injective nameOf := by
  intro id id' h
  have htexts : toString id.toInt = toString id'.toInt := by
    apply String.toList_injective
    simpa [nameOf] using congrArg String.toList h
  rw [Int.toString_eq_repr, Int.toString_eq_repr, Int.repr_inj] at htexts
  exact Int32.toInt_inj.1 htexts

/-- The steps that users of shared memory take. Handles are numbered in the order in which they are
opened. -/
inductive Step where
  | create (id : Int32)
  | openAndUnlink (id : Int32)
  | unlink (id : Int32)
  | write (policy : WritePolicy) (h : Nat) (bytes : Bytes)
  | readAll (h : Nat)
  | close (h : Nat)

def Step.opens? : Step → Option Int32
  | create id | openAndUnlink id => some id
  | _ => none

def Step.Removes (id : Int32) (s : Step) : Prop := s = .openAndUnlink id ∨ s = .unlink id

namespace Memory

def step (m : Memory) : Step → Memory × Bool
  | .create id =>
    match m.create true id with
    | .ok (m, _) => (m, true)
    | .error _ => (m, false)
  | .openAndUnlink id =>
    match m.openAndUnlink .granted id with
    | .ok (m, _) => (m, true)
    | .error _ => (m, false)
  | .unlink id =>
    match m.unlink id with
    | .ok m => (m, true)
    | .error _ => (m, false)
  | .write policy h bytes =>
    let (m, result) := m.write policy h bytes
    (m, result.isOk)
  | .readAll h =>
    let (m, result) := m.readAll h
    (m, result.isOk)
  | .close h => m.close h

inductive Effect (m : Memory) : Step → Bool → Memory → Prop where
  | shared {id : Int32} (hid : m.lookup? id = some object) :
    Effect m (.create id) true
      ({ m with objects := m.objects.set object [] }.addHandle ⟨object, 0, true⟩).1
  | fresh {id : Int32} (hid : m.lookup? id = none) :
    Effect m (.create id) true
      (addHandle { m with
        names := (id, m.objects.length) :: m.names
        objects := m.objects ++ [[]] } ⟨m.objects.length, 0, true⟩).1
  | opened {id : Int32} (hid : m.lookup? id = some object) :
    Effect m (.openAndUnlink id) true ((m.dropName id).addHandle ⟨object, 0, false⟩).1
  | notOpened {id : Int32} (hid : m.lookup? id = none) : Effect m (.openAndUnlink id) false m
  | unlinked {id : Int32} (hid : m.lookup? id = some object) : Effect m (.unlink id) true (m.dropName id)
  | notUnlinked {id : Int32} (hid : m.lookup? id = none) : Effect m (.unlink id) false m
  | stored (hk : m.handle? k = some handle) (part : Bytes) :
    Effect m (.write policy k bytes) succeeded (m.store k handle part)
  | notStored : Effect m (.write policy k bytes) succeeded m
  | moved (hk : m.handle? k = some handle) (offset : Nat) :
    Effect m (.readAll k) true
      { m with handles := m.handles.set k (some { handle with offset := offset }) }
  | notRead : Effect m (.readAll k) false m
  | closed : Effect m (.close k) succeeded { m with handles := m.handles.set k none }

section parts

variable (m : Memory) (handle : Handle) (id id' : Int32) (h k object : Nat)

theorem lookup?_dropName :
    (m.dropName id).lookup? id' = if id' = id then none else m.lookup? id' :=
  lookup_filter_ne m.names id id'

theorem handle?_addHandle :
    (m.addHandle handle).1.handle? k = if k = m.handles.length then some handle else m.handle? k := by
  unfold addHandle handle?
  rcases Nat.lt_trichotomy k m.handles.length with hk | hk | hk
  · simp [List.getElem?_append_left hk, Nat.ne_of_lt hk]
  · simp [hk]
  · have hbeyond : m.handles.length + 1 ≤ k := hk
    simp [Nat.ne_of_gt hk, List.getElem?_eq_none, hbeyond, Nat.le_of_lt hk]

theorem handle?_set (x : Option Handle) :
    ({ m with handles := m.handles.set h x } : Memory).handle? k =
      if k = h ∧ h < m.handles.length then x else m.handle? k := by
  unfold handle?
  rw [List.getElem?_set]
  by_cases hk : k = h
  · by_cases hlt : h < m.handles.length
    · simp [hk, hlt]
    · simp [hk, hlt]
  · simp [hk, Ne.symm hk]

variable {m h k id id'}

theorem lookup?_dropName_self : (m.dropName id).lookup? id = none :=
  (lookup?_dropName m id id).trans (if_pos rfl)

theorem lookup?_dropName_ne (hne : id' ≠ id) : (m.dropName id).lookup? id' = m.lookup? id' :=
  (lookup?_dropName m id id').trans (if_neg hne)

theorem handle?_addHandle_self :
    (m.addHandle handle).1.handle? m.handles.length = some handle :=
  (handle?_addHandle m handle _).trans (if_pos rfl)

theorem handle?_addHandle_ne (hne : k ≠ m.handles.length) :
    (m.addHandle handle).1.handle? k = m.handle? k :=
  (handle?_addHandle m handle k).trans (if_neg hne)

theorem handle?_set_self (hh : h < m.handles.length) (x : Option Handle) :
    ({ m with handles := m.handles.set h x } : Memory).handle? h = x :=
  (handle?_set m h h x).trans (if_pos ⟨rfl, hh⟩)

theorem handle?_set_ne (hne : k ≠ h) (x : Option Handle) :
    ({ m with handles := m.handles.set h x } : Memory).handle? k = m.handle? k :=
  (handle?_set m h k x).trans (if_neg fun hkh => hne hkh.1)

variable (k)

theorem content_set_ne (objects : List Bytes) (bytes : Bytes) (hne : k ≠ object) :
    (objects.set object bytes)[k]?.getD [] = objects[k]?.getD [] := by
  rw [List.getElem?_set_ne (Ne.symm hne)]

end parts

variable {m m' : Memory} {s : Step} {succeeded : Bool} {id : Int32} {h k object : Nat}
  {handle handle' : Handle}

theorem handle?_lt (hk : m.handle? k = some handle) : k < m.handles.length := by
  apply Classical.byContradiction
  intro hge
  simp [handle?, List.getElem?_eq_none (Nat.le_of_not_lt hge)] at hk

theorem of_handle?_addHandle (hk : (m.addHandle handle).1.handle? k = some handle') :
    m.handle? k = some handle' ∨ k = m.handles.length ∧ handle' = handle := by
  rw [handle?_addHandle] at hk
  split at hk
  case isTrue hlast =>
    cases hk
    exact .inr ⟨hlast, rfl⟩
  case isFalse => exact .inl hk

/-- A handle that is moved or closed leaves every handle what it is but for offsets. -/
theorem of_handle?_set {x : Option Handle}
    (hx : ∀ y, x = some y → ∃ handle offset, m.handle? h = some handle ∧
      y = { handle with offset := offset })
    (hk : ({ m with handles := m.handles.set h x } : Memory).handle? k = some handle') :
    ∃ handle offset, m.handle? k = some handle ∧ handle' = { handle with offset := offset } := by
  rw [handle?_set] at hk
  split at hk
  case isTrue hkh =>
    rw [hkh.1]
    exact hx handle' hk
  case isFalse => exact ⟨handle', handle'.offset, hk, rfl⟩

theorem effect_write (policy : WritePolicy) (m : Memory) (h : Nat) (bytes : Bytes) :
    Effect m (.write policy h bytes) (m.write policy h bytes).2.isOk (m.write policy h bytes).1 := by
  unfold write
  split
  · exact .notStored
  · split
    · exact .notStored
    · split
      · exact .notStored
      · split
        · exact .notStored
        · exact .stored ‹_› _

theorem effect_step (m : Memory) (s : Step) : Effect m s (m.step s).2 (m.step s).1 := by
  cases s with
  | create id =>
    cases hid : m.lookup? id with
    | some object =>
      simp only [step, create, hid]
      exact .shared hid
    | none =>
      simp only [step, create, hid]
      exact .fresh hid
  | openAndUnlink id =>
    cases hid : m.lookup? id with
    | some object =>
      simp only [step, openAndUnlink, ReaderFate.granted, hid]
      exact .opened hid
    | none =>
      simp only [step, openAndUnlink, ReaderFate.granted, hid]
      exact .notOpened hid
  | unlink id =>
    cases hid : m.lookup? id with
    | some object =>
      simp only [step, unlink, hid]
      exact .unlinked hid
    | none =>
      simp only [step, unlink, hid]
      exact .notUnlinked hid
  | write policy h bytes => exact effect_write policy m h bytes
  | readAll h =>
    cases hk : m.handle? h with
    | some handle =>
      simp only [step, readAll, hk]
      exact .moved hk _
    | none =>
      simp only [step, readAll, hk]
      exact .notRead
  | close h => exact .closed

namespace Effect

theorem lookup?_of_removes (e : Effect m s succeeded m') (hs : s.Removes id) :
    succeeded = (m.lookup? id).isSome ∧ m'.lookup? id = none := by
  have hdropped : (m.dropName id).lookup? id = none := lookup?_dropName_self
  cases e with
  | opened hid =>
    obtain rfl : _ = id := by simpa [Step.Removes] using hs
    exact ⟨by rw [hid]; rfl, hdropped⟩
  | unlinked hid =>
    obtain rfl : _ = id := by simpa [Step.Removes] using hs
    exact ⟨by rw [hid]; rfl, hdropped⟩
  | notOpened hid | notUnlinked hid =>
    obtain rfl : _ = id := by simpa [Step.Removes] using hs
    exact ⟨by rw [hid]; rfl, hid⟩
  | _ => rcases hs with hs | hs <;> cases hs

theorem lookup?_of_create (e : Effect m s succeeded m') (hs : s = .create id) :
    succeeded = true ∧ m'.lookup? id = some ((m.lookup? id).getD m.objects.length) := by
  cases e with
  | shared hid =>
    cases hs
    exact ⟨rfl, by rw [hid]; exact hid⟩
  | fresh hid =>
    cases hs
    refine ⟨rfl, ?_⟩
    rw [hid]
    exact (lookup_cons_eq_ite _ _ _).trans (if_pos rfl)
  | _ => cases hs

theorem lookup?_of_other (e : Effect m s succeeded m') (hr : ¬ s.Removes id)
    (hc : s ≠ .create id) : m'.lookup? id = m.lookup? id := by
  cases e with
  | fresh hid =>
    refine (lookup_cons_eq_ite _ _ _).trans (if_neg ?_)
    rintro rfl
    exact hc rfl
  | opened hid =>
    apply lookup?_dropName_ne
    rintro rfl
    exact hr (.inl rfl)
  | unlinked hid =>
    apply lookup?_dropName_ne
    rintro rfl
    exact hr (.inr rfl)
  | _ => rfl

theorem named (e : Effect m s succeeded m') (h : m'.lookup? id = some object) :
    m.lookup? id = some object ∨
      s = .create id ∧ m.lookup? id = none ∧ object = m.objects.length := by
  by_cases hr : s.Removes id
  · rw [(e.lookup?_of_removes hr).2] at h
    cases h
  · by_cases hc : s = .create id
    · rw [(e.lookup?_of_create hc).2, Option.some_inj] at h
      cases hid : m.lookup? id with
      | none => exact .inr ⟨hc, rfl, by rw [← h, hid]; rfl⟩
      | some => exact .inl (by rw [← h, hid]; rfl)
    · rw [e.lookup?_of_other hr hc] at h
      exact .inl h

theorem isSome_lookup?_iff (e : Effect m s succeeded m') (id : Int32) :
    (m'.lookup? id).isSome ↔ s = .create id ∧ succeeded = true ∨
      (m.lookup? id).isSome ∧ ¬ (s.Removes id ∧ succeeded = true) := by
  by_cases hr : s.Removes id
  · have hc : s ≠ .create id := by
      rintro rfl
      rcases hr with hr | hr <;> cases hr
    obtain ⟨hs, hid⟩ := e.lookup?_of_removes hr
    rw [hid]
    cases h : m.lookup? id <;> simp [hr, hc, hs, h]
  · by_cases hc : s = .create id
    · obtain ⟨hs, hid⟩ := e.lookup?_of_create hc
      simp [hid, hc, hs]
    · rw [e.lookup?_of_other hr hc]
      simp [hr, hc]

theorem length_objects (e : Effect m s succeeded m') :
    (m'.objects.length = m.objects.length ∧ ∀ id, s = .create id → m.lookup? id ≠ none) ∨
      ∃ id, s = .create id ∧ m'.objects.length = m.objects.length + 1 := by
  cases e with
  | shared hid =>
    refine .inl ⟨by simp [addHandle], fun id hs => ?_⟩
    cases hs
    simp [hid]
  | fresh hid => exact .inr ⟨_, rfl, by simp [addHandle]⟩
  | stored => exact .inl ⟨by simp [store], fun id hs => by cases hs⟩
  | _ => exact .inl ⟨rfl, fun id hs => by cases hs⟩

/-- An object changes only where it is created anew under its name or written through a handle. -/
theorem content_eq (e : Effect m s succeeded m') (ho : object < m.objects.length)
    (hc : ∀ id, s = .create id → m.lookup? id ≠ some object)
    (hw : ∀ policy k bytes handle, s = .write policy k bytes → m.handle? k = some handle →
      handle.object ≠ object) :
    m'.content object = m.content object := by
  cases e with
  | shared hid =>
    refine content_set_ne object _ m.objects [] ?_
    rintro rfl
    exact hc _ rfl hid
  | fresh hid =>
    change ((m.objects ++ [[]])[object]?.getD []) = _
    rw [List.getElem?_append_left ho]
    rfl
  | stored hk part => exact content_set_ne object _ m.objects _ (hw _ _ _ _ rfl hk).symm
  | _ => rfl

/-- A handle that is open after a step was open before, though maybe at another offset, or has been
opened by the step, on the object of its segment. -/
theorem handled (e : Effect m s succeeded m') (h : m'.handle? k = some handle') :
    (∃ handle offset, m.handle? k = some handle ∧ handle' = { handle with offset := offset }) ∨
      k = m.handles.length ∧ succeeded = true ∧ ∃ id, s.opens? = some id ∧
        (m.lookup? id = some handle'.object ∨
          s = .create id ∧ m.lookup? id = none ∧ handle'.object = m.objects.length) := by
  cases e with
  | shared hid =>
    rcases of_handle?_addHandle h with h | ⟨hk, rfl⟩
    · exact .inl ⟨handle', handle'.offset, h, rfl⟩
    · exact .inr ⟨hk, rfl, _, rfl, .inl hid⟩
  | fresh hid =>
    rcases of_handle?_addHandle h with h | ⟨hk, rfl⟩
    · exact .inl ⟨handle', handle'.offset, h, rfl⟩
    · exact .inr ⟨hk, rfl, _, rfl, .inr ⟨rfl, hid, rfl⟩⟩
  | opened hid =>
    rcases of_handle?_addHandle h with h | ⟨hk, rfl⟩
    · exact .inl ⟨handle', handle'.offset, h, rfl⟩
    · exact .inr ⟨hk, rfl, _, rfl, .inl hid⟩
  | stored hk part =>
    refine .inl (of_handle?_set (fun y hy => ⟨_, y.offset, hk, ?_⟩) h)
    cases hy
    rfl
  | moved hk offset =>
    refine .inl (of_handle?_set (fun y hy => ⟨_, y.offset, hk, ?_⟩) h)
    cases hy
    rfl
  | closed => exact .inl (of_handle?_set (fun y hy => by cases hy) h)
  | _ => exact .inl ⟨handle', handle'.offset, h, rfl⟩

theorem length_handles (e : Effect m s succeeded m') : m'.handles.length =
    m.handles.length + (if succeeded then s.opens? else none).toList.length := by
  cases e with
  | shared | fresh | opened => simp [addHandle, dropName, Step.opens?]
  | stored | moved | closed | unlinked => simp [store, dropName, Step.opens?]
  | _ => simp [Step.opens?]

theorem handle?_eq (e : Effect m s succeeded m') (hk : k < m.handles.length)
    (hs : (∃ id, s = .create id) ∨ ∃ policy h bytes, s = .write policy h bytes ∧ k ≠ h) :
    m'.handle? k = m.handle? k := by
  cases e with
  | shared | fresh | opened => exact handle?_addHandle_ne _ (Nat.ne_of_lt hk)
  | stored hstored part =>
    rcases hs with ⟨id, hs⟩ | ⟨policy, h, bytes, hs, hne⟩
    · cases hs
    · cases hs
      exact handle?_set_ne hne _
  | moved | closed =>
    rcases hs with ⟨id, hs⟩ | ⟨policy, h, bytes, hs, hne⟩ <;> cases hs
  | _ => rfl

end Effect

end Memory

end Thaw.Segment
