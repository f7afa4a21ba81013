import Thaw.Proofs.Segment.Frame

namespace Thaw.Segment
set_option autoImplicit true

/-- The segment that a step is on: the one it names, or that of its handle. -/
def Step.segment? (owners : List Int32) : Step → Option Int32
  | .create id | .openAndUnlink id | .unlink id => some id
  | .write _ h _ | .readAll h | .close h => owners[h]?

namespace Memory

def run (m : Memory) (steps : List Step) : Memory := steps.foldl (fun m s => (m.step s).1) m

def history (m : Memory) : List Step → List (Step × Bool)
  | [] => []
  | s :: steps => (s, (m.step s).2) :: (m.step s).1.history steps

/-- The segments of the handles that a run opens, by the numbers of the handles. -/
def owners (m : Memory) (steps : List Step) : List Int32 :=
  (m.history steps).filterMap fun e => if e.2 then e.1.opens? else none

/-- The object to which a step gives its user the only way from then on. -/
def delivery? (m : Memory) : Step → Option Nat
  | .openAndUnlink id =>
    match m.openAndUnlink .granted id with
    | .ok (m, h) => (m.handle? h).map (·.object)
    | .error _ => none
  | _ => none

def deliveries (m : Memory) : List Step → List Nat
  | [] => []
  | s :: steps => (m.delivery? s).toList ++ (m.step s).1.deliveries steps

def Removal (id : Int32) (e : Step × Bool) : Prop := e.1.Removes id ∧ e.2 = true

/-- Some creation has not been followed by a removal, or there was a name from the start on and no
removal at all. -/
def Pending (existed : Prop) (id : Int32) (events : List (Step × Bool)) : Prop :=
  (∃ before after, events = before ++ (.create id, true) :: after ∧ ∀ e ∈ after, ¬ Removal id e) ∨
    existed ∧ ∀ e ∈ events, ¬ Removal id e

/-- A memory before any handle is open: each name has an object of its own. -/
structure AtRest (m : Memory) : Prop where
  named_lt : ∀ id object, m.lookup? id = some object → object < m.objects.length
  named_apart : ∀ id id' object, m.lookup? id = some object → m.lookup? id' = some object → id = id'
  no_handles : m.handles = []

variable {m : Memory} {id : Int32} {h k object : Nat} {handle : Handle}

theorem pending_cons_iff {existed : Prop} {e : Step × Bool} {events : List (Step × Bool)} :
    Pending existed id (e :: events) ↔
      Pending (e = (.create id, true) ∨ existed ∧ ¬ Removal id e) id events := by
  constructor
  · rintro (⟨before, after, hevents, hafter⟩ | ⟨hexisted, hall⟩)
    · cases before with
      | nil =>
        obtain ⟨rfl, rfl⟩ := List.cons.inj hevents
        exact .inr ⟨.inl rfl, hafter⟩
      | cons e' before =>
        obtain ⟨rfl, rfl⟩ := List.cons.inj hevents
        exact .inl ⟨before, after, rfl, hafter⟩
    · obtain ⟨he, hall⟩ := List.forall_mem_cons.1 hall
      exact .inr ⟨.inr ⟨hexisted, he⟩, hall⟩
  · rintro (⟨before, after, rfl, hafter⟩ | ⟨rfl | ⟨hexisted, he⟩, hall⟩)
    · exact .inl ⟨e :: before, after, rfl, hafter⟩
    · exact .inl ⟨[], events, rfl, hall⟩
    · exact .inr ⟨hexisted, List.forall_mem_cons.2 ⟨he, hall⟩⟩

theorem isSome_lookup?_run_iff (m : Memory) (steps : List Step) (id : Int32) :
    ((m.run steps).lookup? id).isSome ↔ Pending (m.lookup? id).isSome id (m.history steps) := by
  induction steps generalizing m with
  | nil => simp [run, history, Pending]
  | cons s steps ih =>
    have hstep : (s, (m.step s).2) = (.create id, true) ∨
        (m.lookup? id).isSome ∧ ¬ Removal id (s, (m.step s).2) ↔
        ((m.step s).1.lookup? id).isSome := by
      rw [(effect_step m s).isSome_lookup?_iff id, Prod.mk.injEq]
      rfl
    rw [history, pending_cons_iff, hstep]
    exact ih _

theorem exists_openAndUnlink_iff (m : Memory) (id : Int32) :
    (∃ r, m.openAndUnlink .granted id = .ok r) ↔ (m.lookup? id).isSome := by
  unfold openAndUnlink
  cases m.lookup? id <;> simp [ReaderFate.granted]

theorem exists_unlink_iff (m : Memory) (id : Int32) :
    (∃ r, m.unlink id = .ok r) ↔ (m.lookup? id).isSome := by
  unfold unlink
  cases m.lookup? id <;> simp

/-- Every object belongs to one segment, that of its name and of all handles on it. -/
structure Traced (m : Memory) (origins owners : List Int32) : Prop where
  objects_length : origins.length = m.objects.length
  handles_length : owners.length = m.handles.length
  named : ∀ id object, m.lookup? id = some object → origins[object]? = some id
  handled : ∀ k handle, m.handle? k = some handle →
    ∃ id, origins[handle.object]? = some id ∧ owners[k]? = some id

variable {s : Step} {steps : List Step} {origins owners : List Int32}

theorem AtRest.traced (hm : m.AtRest) : ∃ origins, Traced m origins [] := by
  classical
  -- Objects without a name get an owner as well; nothing leads to them any more.
  refine ⟨(List.range m.objects.length).map fun object =>
    if h : ∃ id, m.lookup? id = some object then h.choose else 0, ?_, ?_, ?_, ?_⟩
  · simp
  · simp [hm.no_handles]
  · intro id object hid
    have hex : ∃ id, m.lookup? id = some object := ⟨id, hid⟩
    have hlt := hm.named_lt id object hid
    simp [hlt, hex, hm.named_apart _ id object hex.choose_spec hid]
  · intro k handle hk
    have hlt := handle?_lt hk
    simp [hm.no_handles] at hlt

theorem Traced.object_lt (t : Traced m origins owners) (ho : origins[object]? = some id) :
    object < m.objects.length := by
  rw [← t.objects_length]
  exact (List.getElem?_eq_some_iff.1 ho).1

theorem Traced.step (t : Traced m origins owners) (s : Step) : ∃ origins', Traced (m.step s).1 origins'
    (owners ++ (if (m.step s).2 then s.opens? else none).toList) := by
  have e := effect_step m s
  -- The owner of the object that the step makes, if it makes one.
  obtain ⟨extra, hlength, hfresh⟩ : ∃ extra : List Int32,
      (origins ++ extra).length = (m.step s).1.objects.length ∧
      ∀ id, s = .create id → m.lookup? id = none →
        (origins ++ extra)[m.objects.length]? = some id := by
    rcases e.length_objects with ⟨hsame, hnamed⟩ | ⟨id, hs, hgrown⟩
    · refine ⟨[], by rw [List.append_nil, t.objects_length, hsame], fun id hs hid => ?_⟩
      exact absurd hid (hnamed id hs)
    · refine ⟨[id], by rw [List.length_append, t.objects_length, hgrown]; rfl, fun id' hs' _ => ?_⟩
      cases hs.symm.trans hs'
      rw [← t.objects_length]
      simp
  have hold {l extra : List Int32} {i : Nat} {id : Int32} (h : l[i]? = some id) : (l ++ extra)[i]? = some id := by
    rw [List.getElem?_append_left (List.getElem?_eq_some_iff.1 h).1, h]
  have hnamed : ∀ id object, (m.step s).1.lookup? id = some object →
      (origins ++ extra)[object]? = some id := by
    intro id object h
    rcases e.named h with h | ⟨hs, hid, rfl⟩
    · exact hold (t.named id object h)
    · exact hfresh id hs hid
  refine ⟨origins ++ extra, hlength, ?_, hnamed, ?_⟩
  · rw [List.length_append, t.handles_length, e.length_handles]
  · intro k handle h
    rcases e.handled h with ⟨before, offset, hk, rfl⟩ | ⟨hk, hsucceeded, id, hopens, hid⟩
    · obtain ⟨id, ho, howner⟩ := t.handled k before hk
      exact ⟨id, hold ho, hold howner⟩
    · refine ⟨id, ?_, ?_⟩
      · rcases hid with hid | ⟨hs, hid, hobject⟩
        · exact hold (t.named id _ hid)
        · rw [hobject]
          exact hfresh id hs hid
      · rw [hsucceeded, if_pos rfl, hopens, hk, ← t.handles_length]
        simp

theorem owners_cons (m : Memory) (s : Step) (steps : List Step) : m.owners (s :: steps) =
    (if (m.step s).2 then s.opens? else none).toList ++ (m.step s).1.owners steps := by
  unfold owners
  rw [history, List.filterMap_cons]
  cases (if (m.step s).2 then s.opens? else none) <;> rfl

theorem Traced.run (t : Traced m origins owners) (steps : List Step) :
    ∃ origins', Traced (m.run steps) origins' (owners ++ m.owners steps) := by
  induction steps generalizing m origins owners with
  | nil => exact ⟨origins, by simpa [Memory.owners, history, Memory.run] using t⟩
  | cons s steps ih =>
    obtain ⟨origins', t'⟩ := t.step s
    obtain ⟨origins'', t''⟩ := ih t'
    rw [List.append_assoc, ← owners_cons] at t''
    exact ⟨origins'', t''⟩

theorem Traced.content_step (t : Traced m origins owners) (ho : origins[object]? = some id)
    (hs : s.segment? owners ≠ some id) : (m.step s).1.content object = m.content object := by
  apply (effect_step m s).content_eq (t.object_lt ho)
  · rintro id' rfl hid
    apply hs
    rw [← ho, t.named id' object hid]
    rfl
  · rintro policy k bytes handle rfl hk rfl
    obtain ⟨id', ho', howner⟩ := t.handled k handle hk
    apply hs
    rw [← ho, ho', ← howner]
    rfl

theorem lookup?_step (hs : s.segment? owners ≠ some id) :
    (m.step s).1.lookup? id = m.lookup? id := by
  apply (effect_step m s).lookup?_of_other
  · rintro (rfl | rfl) <;> exact hs rfl
  · rintro rfl
    exact hs rfl

theorem openAndUnlink_eq_ok_iff {m' : Memory} {fate : ReaderFate} :
    m.openAndUnlink fate id = .ok (m', h) ↔
      fate.opening = none ∧ ∃ object, m.lookup? id = some object ∧ h = m.handles.length ∧
        m' = ((if fate.unlinking.isNone then m.dropName id else m).addHandle ⟨object, 0, false⟩).1 := by
  have hlength : (if fate.unlinking.isNone then m.dropName id else m).handles = m.handles := by
    split <;> rfl
  unfold openAndUnlink
  cases fate.opening with
  | some errno => simp
  | none =>
    cases hid : m.lookup? id with
    | none => simp
    | some object =>
      constructor
      · intro h
        cases h
        exact ⟨rfl, object, rfl, congrArg List.length hlength, rfl⟩
      · rintro ⟨-, _, hobject, rfl, rfl⟩
        cases hobject
        rw [← congrArg List.length hlength]
        rfl

theorem openAndUnlink_granted_eq_ok_iff {m' : Memory} :
    m.openAndUnlink .granted id = .ok (m', h) ↔
      ∃ object, m.lookup? id = some object ∧ h = m.handles.length ∧
        m' = ((m.dropName id).addHandle ⟨object, 0, false⟩).1 :=
  openAndUnlink_eq_ok_iff.trans (and_iff_right rfl)

theorem delivery?_eq_some (hs : m.delivery? s = some object) : ∃ id, s = .openAndUnlink id ∧
    m.lookup? id = some object ∧ ∃ m' k, m.openAndUnlink .granted id = .ok (m', k) := by
  unfold delivery? at hs
  split at hs
  case h_2 => cases hs
  case h_1 id =>
    split at hs
    case h_2 => cases hs
    case h_1 m' k hopened =>
      obtain ⟨object', hid, rfl, rfl⟩ := openAndUnlink_granted_eq_ok_iff.1 hopened
      rw [handle?_addHandle] at hs
      simp only [dropName, if_true, Option.map_some, Option.some.injEq] at hs
      exact ⟨id, rfl, hs ▸ hid, _, _, hopened⟩

/-- An object without a name, which only the handles up to `h` can reach. -/
structure Withdrawn (m : Memory) (h object : Nat) : Prop where
  object_lt : object < m.objects.length
  handle_lt : h < m.handles.length
  unnamed : ∀ id, m.lookup? id ≠ some object
  own : ∀ handle, m.handle? h = some handle → handle.object = object
  unreached : ∀ k handle, h < k → m.handle? k = some handle → handle.object ≠ object

theorem Traced.withdrawn {m' : Memory} (t : Traced m origins owners)
    (h : m.openAndUnlink .granted id = .ok (m', k)) :
    ∃ object, m.lookup? id = some object ∧ m'.handle? k = some ⟨object, 0, false⟩ ∧
      Withdrawn m' k object := by
  obtain ⟨object, hid, rfl, rfl⟩ := openAndUnlink_granted_eq_ok_iff.1 h
  have ho := t.named id object hid
  have hopened := (handle?_addHandle (m.dropName id) ⟨object, 0, false⟩ m.handles.length).trans
    (if_pos rfl)
  refine ⟨object, hid, hopened, t.object_lt ho, ?_, ?_, ?_, ?_⟩
  · simp [addHandle, dropName]
  · intro id' hid'
    change (m.dropName id).lookup? id' = _ at hid'
    rw [lookup?_dropName] at hid'
    split at hid'
    case isTrue => cases hid'
    case isFalse hne =>
      rw [t.named id' object hid', Option.some_inj] at ho
      exact hne ho
  · intro handle hhandle
    cases hopened.symm.trans hhandle
    rfl
  · intro j handle hj hhandle
    have hlt := handle?_lt hhandle
    simp only [addHandle, dropName, List.length_append, List.length_singleton] at hlt
    omega

theorem Withdrawn.step (w : Withdrawn m h object) (s : Step) : Withdrawn (m.step s).1 h object := by
  have e := effect_step m s
  refine ⟨?_, ?_, ?_, ?_, ?_⟩
  · have hlt := w.object_lt
    rcases e.length_objects with ⟨hsame, -⟩ | ⟨-, -, hgrown⟩ <;> omega
  · rw [e.length_handles]
    exact Nat.lt_of_lt_of_le w.handle_lt (Nat.le_add_right _ _)
  · intro id hid
    rcases e.named hid with hid | ⟨-, -, rfl⟩
    · exact w.unnamed id hid
    · exact Nat.lt_irrefl _ w.object_lt
  · intro handle hhandle
    rcases e.handled hhandle with ⟨before, offset, hbefore, rfl⟩ | ⟨hlast, -⟩
    · exact w.own before hbefore
    · exact absurd hlast (Nat.ne_of_lt w.handle_lt)
  · intro k handle hk hhandle
    rcases e.handled hhandle with ⟨before, offset, hbefore, rfl⟩ | ⟨-, -, id, -, hid⟩
    · exact w.unreached k before hk hbefore
    · rintro rfl
      rcases hid with hid | ⟨-, -, hobject⟩
      · exact w.unnamed id hid
      · exact Nat.ne_of_lt w.object_lt hobject

theorem Withdrawn.run (w : Withdrawn m h object) (steps : List Step) :
    Withdrawn (m.run steps) h object := by
  induction steps generalizing m with
  | nil => exact w
  | cons s steps ih => exact ih (w.step s)

theorem Withdrawn.not_mem_deliveries (w : Withdrawn m h object) (steps : List Step) :
    object ∉ m.deliveries steps := by
  induction steps generalizing m with
  | nil => simp [deliveries]
  | cons s steps ih =>
    rw [deliveries, List.mem_append, Option.mem_toList]
    rintro (hs | hsteps)
    · obtain ⟨id, -, hid, -⟩ := delivery?_eq_some hs
      exact w.unnamed id hid
    · exact ih (w.step s) hsteps

theorem Traced.nodup_deliveries (t : Traced m origins owners) (steps : List Step) :
    (m.deliveries steps).Nodup := by
  induction steps generalizing m origins owners with
  | nil => exact List.nodup_nil
  | cons s steps ih =>
    obtain ⟨origins', t'⟩ := t.step s
    have hrest := ih t'
    rw [deliveries]
    cases hs : m.delivery? s with
    | none => exact hrest
    | some object =>
      obtain ⟨id, rfl, hid, m', k, hopened⟩ := delivery?_eq_some hs
      obtain ⟨object', hid', -, w⟩ := t.withdrawn hopened
      cases hid.symm.trans hid'
      have hstep : (m.step (.openAndUnlink id)).1 = m' := by simp only [Memory.step, hopened]
      rw [hstep] at hrest ⊢
      exact List.nodup_cons.2 ⟨w.not_mem_deliveries steps, hrest⟩

/-- What a withdrawn object holds, and what its handle reads, is safe from creations and from writes
through later handles. -/
theorem Withdrawn.visible_step (w : Withdrawn m h object)
    (hs : (∃ id, s = .create id) ∨ ∃ policy k bytes, s = .write policy k bytes ∧ h < k) :
    (m.step s).1.handle? h = m.handle? h ∧ (m.step s).1.content object = m.content object := by
  have e := effect_step m s
  constructor
  · apply e.handle?_eq w.handle_lt
    rcases hs with hs | ⟨policy, k, bytes, hs, hk⟩
    · exact .inl hs
    · exact .inr ⟨policy, k, bytes, hs, Nat.ne_of_lt hk⟩
  · apply e.content_eq w.object_lt
    · exact fun id _ => w.unnamed id
    · rintro policy k bytes handle rfl hk
      rcases hs with ⟨id, hs⟩ | ⟨policy', k', bytes', hs, hlt⟩
      · cases hs
      · cases hs
        exact w.unreached k handle hlt hk

theorem Withdrawn.readAll_step (w : Withdrawn m h object)
    (hs : (∃ id, s = .create id) ∨ ∃ policy k bytes, s = .write policy k bytes ∧ h < k) :
    ((m.step s).1.readAll h).2 = (m.readAll h).2 := by
  obtain ⟨hhandle, hcontent⟩ := w.visible_step hs
  unfold readAll
  rw [hhandle]
  cases hk : m.handle? h with
  | none => rfl
  | some handle =>
    simp only
    rw [w.own handle hk, hcontent]

/-- Whatever steps are taken on whatever segments, a segment can be opened or unlinked exactly where a
creation waits for it, and each object is delivered once at most. A step on one segment leaves the
names and contents of all others as they are. A reader keeps what it has opened, whoever creates the
segment anew or writes through later handles. -/
theorem run_keeps_segments_apart {start : Memory} (hstart : start.AtRest) (steps : List Step) :
    let m := start.run steps
    let owners := start.owners steps
    (∀ id,
      ((∃ r, m.openAndUnlink .granted id = .ok r) ↔
        Pending (start.lookup? id).isSome id (start.history steps)) ∧
      ((∃ r, m.unlink id = .ok r) ↔
        Pending (start.lookup? id).isSome id (start.history steps))) ∧
    (start.deliveries steps).Nodup ∧ Function.Injective nameOf ∧ owners.length = m.handles.length ∧
    (∀ s id, s.segment? owners ≠ some id →
      (m.step s).1.lookup? id = m.lookup? id ∧
      (∀ object, m.lookup? id = some object → (m.step s).1.content object = m.content object) ∧
      ∀ k handle, owners[k]? = some id → m.handle? k = some handle →
        (m.step s).1.content handle.object = m.content handle.object) ∧
    ∀ id opened h, m.openAndUnlink .granted id = .ok (opened, h) → ∀ later s,
      ((∃ id', s = .create id') ∨ ∃ policy k bytes, s = .write policy k bytes ∧ h < k) →
      let now := opened.run later
      ((now.step s).1.readAll h).2 = (now.readAll h).2 ∧
        ∀ handle, now.handle? h = some handle →
          (now.step s).1.content handle.object = now.content handle.object := by
  intro m owners
  obtain ⟨origins, tstart⟩ := hstart.traced
  obtain ⟨origins', t⟩ := tstart.run steps
  rw [List.nil_append] at t
  refine ⟨fun id => ⟨?_, ?_⟩, tstart.nodup_deliveries steps, nameOf_injective, t.handles_length,
    fun s id hs => ⟨lookup?_step hs, fun object hid => ?_, fun k handle howner hk => ?_⟩, ?_⟩
  · rw [exists_openAndUnlink_iff]
    exact isSome_lookup?_run_iff start steps id
  · rw [exists_unlink_iff]
    exact isSome_lookup?_run_iff start steps id
  · exact t.content_step (t.named id object hid) hs
  · obtain ⟨id', ho, howner'⟩ := t.handled k handle hk
    cases howner.symm.trans howner'
    exact t.content_step ho hs
  · intro id opened h hopened later s hs now
    obtain ⟨object, -, -, w⟩ := t.withdrawn hopened
    have wnow := w.run later
    refine ⟨wnow.readAll_step hs, fun handle hhandle => ?_⟩
    rw [wnow.own handle hhandle]
    exact (wnow.visible_step hs).2

theorem atRest_empty : empty.AtRest := by
  refine ⟨?_, ?_, rfl⟩
  · simp [empty, lookup?]
  · simp [empty, lookup?]

def leftBehind : Memory := ⟨[(7, 0)], [[1, 2]], []⟩

theorem atRest_leftBehind : leftBehind.AtRest := by
  refine ⟨?_, ?_, rfl⟩
  · simp [leftBehind, lookup?, lookup_cons_eq_ite]
  · simp [leftBehind, lookup?, lookup_cons_eq_ite]

def replacement : List Step :=
  [.create 7, .write .unlimited 0 [9], .openAndUnlink 7, .create 7]

theorem run_keeps_segments_apart_replacement :
    let m := leftBehind.run replacement
    leftBehind.AtRest ∧ (leftBehind.deliveries replacement).Nodup ∧
      (∃ r, m.openAndUnlink .granted 7 = .ok r) ∧
      (m.step (.openAndUnlink 8)).1.lookup? 7 = m.lookup? 7 := by
  intro m
  have h := atRest_leftBehind
  obtain ⟨hnames, hdeliveries, -, -, happart, -⟩ := run_keeps_segments_apart h replacement
  refine ⟨h, hdeliveries, (hnames 7).1.2 (.inl ?_), (happart (.openAndUnlink 8) 7 ?_).1⟩
  · exact ⟨[(.create 7, true), (.write .unlimited 0 [9], true), (.openAndUnlink 7, true)], [], rfl,
      by simp⟩
  · simp [Step.segment?]

end Memory

end Thaw.Segment
