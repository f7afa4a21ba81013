import Thaw.Proofs.Segment.Writers

namespace Thaw.Segment
set_option autoImplicit true

/-- A step of others while the handle `h` is in use on the object of segment `id`: it neither touches
the name nor cuts the object, and is through a handle on another object. -/
def Step.Spares (m : Memory) (id : Int32) (object h : Nat) : Step → Prop
  | .create other => other ≠ id ∧ m.lookup? other ≠ some object
  | .openAndUnlink other | .unlink other => other ≠ id
  | .write _ k _ | .readAll k => ∀ handle, m.handle? k = some handle → handle.object ≠ object
  | .close k => k ≠ h

def Step.Fills (h : Nat) (s : Step) : Prop :=
  ∃ policy bytes, WritePolicy.Complete policy ∧ s = .write policy h bytes

def Step.buffer? (h : Nat) : Step → Option Bytes
  | .write _ k bytes => if k = h then some bytes else none
  | _ => none

namespace Memory

/-- A run of own steps, between which others spare the segment. -/
def Amid (own : Step → Prop) (id : Int32) (object h : Nat) : Memory → List Step → Prop
  | _, [] => True
  | m, s :: steps =>
    (own s ∨ s.Spares m id object h) ∧ Amid own id object h (m.step s).1 steps

/-- Apart from segment `id`, its object, and the handles that are `mine`, all is as it was. -/
structure Beside (id : Int32) (object : Nat) (mine : Nat → Prop) (m m' : Memory) : Prop where
  names : ∀ other, other ≠ id → m'.lookup? other = m.lookup? other
  contents : ∀ other, other ≠ object → m'.content other = m.content other
  handles : ∀ k, ¬ mine k → m'.handle? k = m.handle? k

/-- What others leave as it is: an object with its bytes, where the name of the segment leads, and the
handle that is in use on the object. -/
structure Guarded (m : Memory) (id : Int32) (name : Option Nat) (h : Nat) (handle : Handle)
    (bytes : Bytes) : Prop where
  object_lt : handle.object < m.objects.length
  handled : m.handle? h = some handle
  content : m.content handle.object = bytes
  named : m.lookup? id = name

variable {m m' m'' : Memory} {id : Int32} {h r object : Nat} {handle : Handle} {bytes : Bytes}
  {name : Option Nat} {s : Step} {steps : List Step} {policy : WritePolicy} {succeeded : Bool}
  {mine mine' : Nat → Prop} {own : Step → Prop}

theorem Beside.refl (m : Memory) : Beside id object mine m m :=
  ⟨fun _ _ => rfl, fun _ _ => rfl, fun _ _ => rfl⟩

theorem Beside.trans (b : Beside id object mine m m') (b' : Beside id object mine m' m'') :
    Beside id object mine m m'' :=
  ⟨fun other hne => (b'.names other hne).trans (b.names other hne),
    fun other hne => (b'.contents other hne).trans (b.contents other hne),
    fun k hk => (b'.handles k hk).trans (b.handles k hk)⟩

theorem Beside.mono (b : Beside id object mine m m') (h : ∀ k, mine k → mine' k) :
    Beside id object mine' m m' :=
  ⟨b.names, b.contents, fun k hk => b.handles k fun hmine => hk (h k hmine)⟩

theorem beside_store (m : Memory) (id : Int32) (h object offset : Nat) (bytes : Bytes) :
    Beside id object (· = h) m (m.store h ⟨object, offset, true⟩ bytes) :=
  ⟨fun _ _ => rfl, fun _ hne => content_store_ne hne h bytes, fun _ hk => handle?_store_ne hk _ bytes⟩

theorem Effect.handle?_of_spares (e : Effect m s succeeded m') (hs : s.Spares m id handle.object h)
    (hh : m.handle? h = some handle) : m'.handle? h = some handle := by
  have hlt := handle?_lt hh
  cases e with
  | shared | fresh | opened =>
    exact (handle?_addHandle_ne _ (Nat.ne_of_lt hlt)).trans hh
  | stored hk part =>
    refine (handle?_set_ne ?_ _).trans hh
    rintro rfl
    exact hs handle hh rfl
  | moved hk offset =>
    refine (handle?_set_ne ?_ _).trans hh
    rintro rfl
    exact hs handle hh rfl
  | closed => exact (handle?_set_ne (Ne.symm hs) _).trans hh
  | _ => exact hh

theorem Guarded.spared (g : m.Guarded id name h handle bytes)
    (hs : s.Spares m id handle.object h) : (m.step s).1.Guarded id name h handle bytes := by
  have e := effect_step m s
  have hcreate : s ≠ .create id := by
    rintro rfl
    exact hs.1 rfl
  have hremoves : ¬ s.Removes id := by
    rintro (rfl | rfl)
    · exact hs rfl
    · exact hs rfl
  refine ⟨?_, e.handle?_of_spares hs g.handled, ?_, ?_⟩
  · obtain ⟨hsame, -⟩ | ⟨-, -, hgrown⟩ := e.length_objects
    · rw [hsame]
      exact g.object_lt
    · rw [hgrown]
      exact Nat.lt_succ_of_lt g.object_lt
  · rw [← g.content]
    apply e.content_eq g.object_lt
    · rintro other rfl hother
      exact hs.2 hother
    · rintro policy k written other rfl hk
      exact hs other hk
  · rw [e.lookup?_of_other hremoves hcreate, g.named]

theorem Guarded.run_spared (g : m.Guarded id name h handle bytes)
    (hsteps : Amid (fun _ => False) id handle.object h m steps) :
    (m.run steps).Guarded id name h handle bytes := by
  induction steps generalizing m with
  | nil => exact g
  | cons s steps ih =>
    obtain ⟨hfalse | hs, hrest⟩ := hsteps
    · exact hfalse.elim
    · exact ih (g.spared hs) hrest

theorem set_eq_self {α : Type} {l : List α} {x : α} (hx : l[i]? = some x) : l.set i x = l := by
  obtain ⟨hi, rfl⟩ := List.getElem?_eq_some_iff.1 hx
  exact List.set_getElem_self hi

theorem Appending.store_nil (a : m.Appending h object bytes) :
    m.store h ⟨object, bytes.length, true⟩ [] = m := by
  have hobject : m.objects[object]? = some bytes := by
    rw [← a.content, Memory.content, List.getElem?_eq_getElem a.object_lt, Option.getD_some]
  have hhandle : m.handles[h]? = some (some ⟨object, bytes.length, true⟩) :=
    Option.join_eq_some_iff.1 a.handled
  have hsame : overwrite bytes bytes.length [] = bytes := by simp [overwrite]
  rw [Memory.store, a.content, hsame, Memory.mk.injEq]
  exact ⟨rfl, set_eq_self hobject, set_eq_self hhandle⟩

theorem Guarded.appending (g : m.Guarded id name h ⟨object, bytes.length, true⟩ bytes) :
    m.Appending h object bytes :=
  ⟨g.object_lt, g.handled, g.content⟩

theorem Guarded.write (g : m.Guarded id name h ⟨object, bytes.length, true⟩ bytes)
    (hpolicy : policy.Complete) (part : Bytes) :
    m.write policy h part = (m.store h ⟨object, bytes.length, true⟩ part, .ok ()) ∧
      (m.store h ⟨object, bytes.length, true⟩ part).Guarded id name h
        ⟨object, (bytes ++ part).length, true⟩ (bytes ++ part) := by
  have a := g.appending.store part
  refine ⟨?_, a.object_lt, a.handled, a.content, g.named⟩
  cases part with
  | nil => rw [g.appending.store_nil]; rfl
  | cons byte part => exact g.appending.writer.write hpolicy (List.cons_ne_nil byte part)

theorem Guarded.fill (g : m.Guarded id name h ⟨object, bytes.length, true⟩ bytes)
    (hs : s.Fills h) :
    (m.step s).2 = true ∧ Beside id object (· = h) m (m.step s).1 ∧
      ∃ part, s.buffer? h = some part ∧
        (m.step s).1.Guarded id name h ⟨object, (bytes ++ part).length, true⟩ (bytes ++ part) := by
  obtain ⟨policy, part, hpolicy, rfl⟩ := hs
  obtain ⟨hwrite, gwritten⟩ := g.write hpolicy part
  have hstep : m.step (.write policy h part) = (m.store h ⟨object, bytes.length, true⟩ part, true) := by
    rw [step, hwrite]
    rfl
  rw [hstep]
  exact ⟨rfl, beside_store m id h object _ part, part, if_pos rfl, gwritten⟩

theorem Guarded.buffer?_of_spares (g : m.Guarded id name h handle bytes)
    (hs : s.Spares m id handle.object h) : s.buffer? h = none := by
  cases s with
  | write policy k part =>
    apply if_neg
    rintro rfl
    exact hs handle g.handled rfl
  | _ => rfl

/-- Whatever others do between the writes, these come to stand one behind the other. -/
theorem Guarded.run_fill (g : m.Guarded id name h ⟨object, bytes.length, true⟩ bytes)
    (hsteps : Amid (Step.Fills h) id object h m steps) :
    let all := bytes ++ (steps.filterMap (Step.buffer? h)).flatten
    (m.run steps).Guarded id name h ⟨object, all.length, true⟩ all := by
  induction steps generalizing m bytes with
  | nil =>
    rw [List.filterMap_nil, List.flatten_nil, List.append_nil]
    exact g
  | cons s steps ih =>
    obtain ⟨hs | hs, hrest⟩ := hsteps
    · obtain ⟨-, -, part, hpart, gfilled⟩ := g.fill hs
      have gall := ih gfilled hrest
      rw [List.append_assoc] at gall
      rw [List.filterMap_cons, hpart, List.flatten_cons]
      exact gall
    · have gall := ih (g.spared hs) hrest
      rw [List.filterMap_cons, g.buffer?_of_spares hs]
      exact gall

theorem Guarded.openAndUnlink (g : m.Guarded id (some object) h ⟨object, offset, writable⟩ bytes) :
    ∃ opened, m.openAndUnlink .granted id = .ok (opened, m.handles.length) ∧
      Beside id object (· = m.handles.length) m opened ∧
      opened.Guarded id none m.handles.length ⟨object, 0, false⟩ bytes := by
  refine ⟨_, openAndUnlink_granted_eq_ok_iff.2 ⟨object, g.named, rfl, rfl⟩, ⟨?_, fun _ _ => rfl, ?_⟩, ?_⟩
  · intro other hne
    exact lookup?_dropName_ne hne
  · intro k hk
    exact handle?_addHandle_ne _ hk
  · exact ⟨g.object_lt, handle?_addHandle_self _, g.content, lookup?_dropName_self⟩

theorem Guarded.readAll (g : m.Guarded id name r ⟨object, offset, writable⟩ bytes) :
    ∃ read, m.readAll r = (read, .ok (bytes.drop offset)) ∧ Beside id object (· = r) m read ∧
      read.Guarded id name r ⟨object, offset + (bytes.drop offset).length, writable⟩ bytes := by
  have hr := handle?_lt g.handled
  have hcontent : m.content object = bytes := g.content
  let moved : Handle := ⟨object, offset + (bytes.drop offset).length, writable⟩
  have hread : m.readAll r =
      ({ m with handles := m.handles.set r (some moved) }, .ok (bytes.drop offset)) := by
    simp only [Memory.readAll, g.handled, hcontent, moved]
  refine ⟨_, hread, ⟨fun _ _ => rfl, fun _ _ => rfl, ?_⟩, ?_⟩
  · intro k hk
    exact handle?_set_ne hk _
  · exact ⟨g.object_lt, handle?_set_self hr _, hcontent, g.named⟩

theorem content_append_nil (objects : List Bytes) (other : Nat) :
    (objects ++ [[]])[other]?.getD [] = objects[other]?.getD [] := by
  obtain hlt | hge := Nat.lt_or_ge other objects.length
  · rw [List.getElem?_append_left hlt]
  · rw [List.getElem?_append_right hge, List.getElem?_eq_none hge, List.getElem?_singleton]
    split
    · rfl
    · rfl

theorem beside_create {created : Memory} (hcreate : m.create true id = .ok (created, h))
    (hobject : created.lookup? id = some object) : Beside id object (· = h) m created := by
  unfold create at hcreate
  cases hid : m.lookup? id with
  | some shared =>
    rw [hid] at hcreate
    cases hcreate
    cases hid.symm.trans hobject
    refine ⟨fun _ _ => rfl, ?_, ?_⟩
    · intro other hne
      exact content_set_ne other object m.objects [] hne
    · intro k hk
      exact handle?_addHandle_ne _ hk
  | none =>
    rw [hid] at hcreate
    cases hcreate
    refine ⟨?_, ?_, ?_⟩
    · intro other hne
      exact (lookup_cons_eq_ite _ _ _).trans (if_neg hne)
    · intro other _
      exact content_append_nil m.objects other
    · intro k hk
      exact handle?_addHandle_ne _ hk

theorem Amid.of_append {before after : List Step}
    (hsteps : Amid own id object h m (before ++ after)) : Amid own id object h m before := by
  induction before generalizing m with
  | nil => trivial
  | cons s before ih => exact ⟨hsteps.1, ih hsteps.2⟩

theorem Guarded.run_beside (g : m.Guarded id name h ⟨object, bytes.length, true⟩ bytes)
    (hsteps : ∀ s ∈ steps, s.Fills h) : Beside id object (· = h) m (m.run steps) := by
  induction steps generalizing m bytes with
  | nil => exact .refl m
  | cons s steps ih =>
    obtain ⟨hs, hrest⟩ := List.forall_mem_cons.1 hsteps
    obtain ⟨-, hbeside, part, -, gfilled⟩ := g.fill hs
    exact hbeside.trans (ih gfilled hrest)

/-- Whatever was left under the name of a segment, and whatever others do on their own segments, all
writes through the handle of its creation succeed, and whoever opens it then reads what they wrote, one
behind the other, and nothing after that. The name is gone, and none of the steps touched anything else. -/
theorem readAll_returns_what_was_written
    (hid : ∀ object, m.lookup? id = some object → object < m.objects.length) :
    ∃ created h object, m.create true id = .ok (created, h) ∧
      created.lookup? id = some object ∧ Beside id object (· = h) m created ∧
      ∀ steps, Amid (Step.Fills h) id object h created steps →
        (∀ before s after, steps = before ++ s :: after → s.Fills h →
          ((created.run before).step s).2 = true ∧
            Beside id object (· = h) (created.run before) ((created.run before).step s).1) ∧
        ∃ opened r, (created.run steps).openAndUnlink .granted id = .ok (opened, r) ∧
          Beside id object (· = r) (created.run steps) opened ∧
          ∀ first, Amid (fun _ => False) id object r opened first →
            ∃ read, (opened.run first).readAll r =
                (read, .ok (steps.filterMap (Step.buffer? h)).flatten) ∧
              Beside id object (· = r) (opened.run first) read ∧
              ∀ second, Amid (fun _ => False) id object r read second →
                ∃ last, (read.run second).readAll r = (last, .ok []) ∧
                  Beside id object (· = r) (read.run second) last ∧ last.lookup? id = none ∧
                  ((∀ s ∈ steps, s.Fills h) → first = [] → second = [] →
                    Beside id object (fun k => k = h ∨ k = r) m last) := by
  obtain ⟨⟨created, h⟩, hcreate⟩ : ∃ c, m.create true id = .ok c := by
    cases hnamed : m.lookup? id with
    | some object => exact ⟨_, by simp only [create, hnamed]; rfl⟩
    | none => exact ⟨_, by simp only [create, hnamed]; rfl⟩
  obtain ⟨object, hnamed, a⟩ := create_appending hid hcreate
  have g : created.Guarded id (some object) h ⟨object, List.length [], true⟩ [] :=
    ⟨a.object_lt, a.handled, a.content, hnamed⟩
  have hbeside := beside_create hcreate hnamed
  refine ⟨created, h, object, hcreate, hnamed, hbeside, fun steps hsteps => ⟨?_, ?_⟩⟩
  · rintro before s after rfl hs
    obtain ⟨hok, hother, -⟩ := (g.run_fill hsteps.of_append).fill hs
    exact ⟨hok, hother⟩
  · have gall := g.run_fill hsteps
    rw [List.nil_append] at gall
    obtain ⟨opened, hopen, hopened, gopened⟩ := gall.openAndUnlink
    refine ⟨opened, _, hopen, hopened, fun first hfirst => ?_⟩
    obtain ⟨read, hread, hafter, gread⟩ := (gopened.run_spared hfirst).readAll
    refine ⟨read, hread, hafter, fun second hsecond => ?_⟩
    obtain ⟨last, hlast, hend, glast⟩ := (gread.run_spared hsecond).readAll
    refine ⟨last, ?_, hend, glast.named, ?_⟩
    · rw [hlast]
      simp
    · rintro hfills rfl rfl
      have hwritten := hbeside.trans (g.run_beside hfills)
      have hdelivered := (hopened.trans hafter).trans hend
      exact (hwritten.mono fun _ => .inl).trans (hdelivered.mono fun _ => .inr)

/-- A segment that was left behind longer than what is written to it, while another one is filled. -/
theorem readAll_returns_what_was_written_stale :
    ∃ created h, leftBehind.create true 7 = .ok (created, h) ∧
      ∃ opened r, (created.run [.write .unlimited h [], .create 8, .write .unlimited h [5],
          .write .unlimited 1 [9]]).openAndUnlink .granted 7 = .ok (opened, r) ∧
        ∃ read, (opened.run [.close h, .unlink 8]).readAll r = (read, .ok [5]) ∧
          ∃ last, read.readAll r = (last, .ok []) ∧ last.lookup? 7 = none := by
  have hid : ∀ object, leftBehind.lookup? 7 = some object → object < leftBehind.objects.length := by
    intro object hobject
    cases hobject
    decide
  have hcomplete : WritePolicy.unlimited.Complete := fun _ length => ⟨length, rfl, Nat.le_refl _⟩
  obtain ⟨created, h, object, hcreate, hnamed, -, hwhole⟩ := readAll_returns_what_was_written hid
  cases hcreate
  cases hnamed
  refine ⟨_, _, rfl, ?_⟩
  obtain ⟨-, opened, r, hopen, -, hfirst⟩ := hwhole
    [.write .unlimited 0 [], .create 8, .write .unlimited 0 [5], .write .unlimited 1 [9]]
    ⟨.inl ⟨_, _, hcomplete, rfl⟩, .inr ⟨by decide, by decide⟩, .inl ⟨_, _, hcomplete, rfl⟩,
      .inr fun handle hk => by cases hk; decide, trivial⟩
  cases hopen
  refine ⟨_, _, rfl, ?_⟩
  have hclosed : (2 : Nat) ≠ 0 := by decide
  have hunlinked : (8 : Int32) ≠ 7 := by decide
  obtain ⟨read, hread, -, hsecond⟩ :=
    hfirst [.close 0, .unlink 8] ⟨.inr hclosed.symm, .inr hunlinked, trivial⟩
  refine ⟨read, hread, ?_⟩
  obtain ⟨last, hlast, -, hgone, -⟩ := hsecond [] trivial
  exact ⟨last, hlast, hgone⟩

end Memory

end Thaw.Segment
