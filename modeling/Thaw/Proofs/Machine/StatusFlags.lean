import Thaw.Machine.Basic

namespace Thaw
set_option autoImplicit true

/-- A request with this fate changes the flag if it asks for that: it is neither refused nor ignored. -/
def SetFate.changes : SetFate → Bool
  | .refused => false
  | .taken settable => settable &&& StatusFlags.nonBlocking != 0

namespace StatusTable

variable {t : StatusTable} {fate change back : SetFate} {fd other a b : Nat} {f g : StatusFlags}

/-- Calls return at once where they would have waited, and the other way round. -/
def toggled (f : StatusFlags) : StatusFlags := f ^^^ StatusFlags.nonBlocking

theorem getLsbD_nonBlocking (i : Nat) : StatusFlags.nonBlocking.getLsbD i = decide (i = 11) := by
  rw [show StatusFlags.nonBlocking = BitVec.twoPow 32 11 from rfl, BitVec.getLsbD_twoPow]
  simp [eq_comm]

theorem getLsbD_toggled (f : StatusFlags) (i : Nat) :
    (toggled f).getLsbD i = (f.getLsbD i ^^ decide (i = 11)) := by
  rw [toggled, BitVec.getLsbD_xor, getLsbD_nonBlocking]

theorem getLsbD_blend {settable old new : StatusFlags} {i : Nat} (hi : i < 32) :
    (blend settable old new).getLsbD i =
      if settable.getLsbD i then new.getLsbD i else old.getLsbD i := by
  rw [blend, BitVec.getLsbD_or, BitVec.getLsbD_and, BitVec.getLsbD_and, BitVec.getLsbD_not]
  cases settable.getLsbD i <;> simp [hi]

theorem changes_taken (settable : StatusFlags) :
    (SetFate.taken settable).changes = settable.getLsbD 11 := by
  have hmask : settable &&& StatusFlags.nonBlocking = if settable.getLsbD 11 then
      StatusFlags.nonBlocking else 0 := BitVec.and_twoPow settable 11
  rw [SetFate.changes, hmask]
  cases settable.getLsbD 11 <;> rfl

theorem toggled_toggled (f : StatusFlags) : toggled (toggled f) = f := by
  rw [toggled, toggled, BitVec.xor_assoc, BitVec.xor_self, BitVec.xor_zero]

theorem toggled_ne (f : StatusFlags) : toggled f ≠ f := by
  intro h
  have hbit := congrArg (·.getLsbD 11) h
  simp only [getLsbD_toggled] at hbit
  cases f.getLsbD 11 <;> simp at hbit

/-- Where only the flag is to change, a request changes it or nothing. -/
theorem blend_toggled (settable f : StatusFlags) :
    blend settable f (toggled f) = if (SetFate.taken settable).changes then toggled f else f := by
  apply BitVec.eq_of_getLsbD_eq
  intro i hi
  rw [getLsbD_blend hi, changes_taken]
  by_cases he : i = 11
  · subst i
    split <;> rfl
  · have hsame : (toggled f).getLsbD i = f.getLsbD i := by simp [getLsbD_toggled, he]
    rw [hsame, ite_self]
    split
    · exact hsame.symm
    · rfl

def withFlags (t : StatusTable) (file : Nat) (f : StatusFlags) : StatusTable :=
  { t with flags := t.flags.set file f }

theorem withFlags_self (hf : t.flags[a]? = some f) : t.withFlags a f = t := by
  obtain ⟨ha, rfl⟩ := List.getElem?_eq_some_iff.1 hf
  rw [withFlags, List.set_getElem_self]

theorem flags?_eq (hfile : t.openFile? fd = some a) : t.flags? fd = t.flags[a]? := by
  rw [flags?, hfile, Option.bind_some]

theorem flags?_withFlags (hother : t.openFile? other = some b) (ha : a < t.flags.length) :
    (t.withFlags a f).flags? other = if a = b then some f else t.flags[b]? := by
  have hfile : (t.withFlags a f).openFile? other = some b := hother
  rw [flags?_eq hfile, withFlags, List.getElem?_set, if_pos ha]

/-- A request for toggled flags is refused, or the flags are toggled or as before. -/
theorem setFlags?_toggled (hfile : t.openFile? fd = some a) (hf : t.flags[a]? = some f)
    (fate : SetFate) : t.setFlags? fate fd (toggled f) =
      match fate with
      | .refused => none
      | .taken _ => some (if fate.changes then t.withFlags a (toggled f) else t) := by
  cases fate with
  | refused => rfl
  | taken settable =>
    simp only [setFlags?, hfile, List.modify_eq_set, hf, Option.getD_some, blend_toggled]
    split
    · rfl
    · exact congrArg some (withFlags_self hf)

theorem setFlags?_self (hfile : t.openFile? fd = some a) (hf : t.flags[a]? = some f)
    (fate : SetFate) : (t.setFlags? fate fd f).getD t = t := by
  cases fate with
  | refused => rfl
  | taken settable =>
    have hblend : blend settable f f = f := by
      apply BitVec.eq_of_getLsbD_eq
      intro i hi
      rw [getLsbD_blend hi, ite_self]
    simp only [setFlags?, hfile, List.modify_eq_set, hf, Option.getD_some, hblend]
    exact withFlags_self hf

theorem setFlags?_back (hfile : t.openFile? fd = some a) (hf : t.flags[a]? = some f)
    (fate : SetFate) : ((t.withFlags a (toggled f)).setFlags? fate fd f).getD
      (t.withFlags a (toggled f)) = if fate.changes then t else t.withFlags a (toggled f) := by
  have ha : a < t.flags.length := (List.getElem?_eq_some_iff.1 hf).1
  have hchanged : (t.withFlags a (toggled f)).flags[a]? = some (toggled f) := by
    rw [withFlags, List.getElem?_set_self ha]
  have hset := setFlags?_toggled (t := t.withFlags a (toggled f)) hfile hchanged fate
  have hrestored : (t.withFlags a (toggled f)).withFlags a f = t := by
    rw [withFlags, withFlags, List.set_set]
    exact withFlags_self hf
  rw [toggled_toggled, hrestored] at hset
  rw [hset]
  cases fate <;> rfl

theorem sharesByToggle_of_flags (hf : t.flags? fd = some f) (hg : t.flags? other = some g) :
    t.sharesByToggle change back fd other =
      if f ≠ g then (false, t)
      else
        match t.setFlags? change fd (toggled f) with
        | none => (false, t)
        | some changed =>
          (changed.flags? fd == some (toggled f) && changed.flags? other == some (toggled f),
            (changed.setFlags? back fd f).getD changed) := by
  simp only [sharesByToggle, hf, hg]
  rfl

theorem sharesByToggle_eq (hfd : t.openFile? fd = some a) (hother : t.openFile? other = some b)
    (hf : t.flags[a]? = some f) (hg : t.flags[b]? = some g) :
    t.sharesByToggle change back fd other =
      (decide (a = b) && change.changes,
        if f = g ∧ change.changes = true ∧ back.changes = false then t.withFlags a (toggled f)
        else t) := by
  have ha : a < t.flags.length := (List.getElem?_eq_some_iff.1 hf).1
  rw [sharesByToggle_of_flags ((flags?_eq hfd).trans hf) ((flags?_eq hother).trans hg)]
  by_cases hfg : f = g
  · subst g
    rw [if_neg fun hne => hne rfl, setFlags?_toggled hfd hf]
    cases change with
    | refused => simp [SetFate.changes]
    | taken settable =>
      cases (SetFate.taken settable).changes with
      | false =>
        have hseen : (t.flags? fd == some (toggled f)) = false := by
          simpa [flags?_eq hfd, hf] using (toggled_ne f).symm
        simp [hseen, setFlags?_self hfd hf]
      | true =>
        have hseen : ((t.withFlags a (toggled f)).flags? fd == some (toggled f)) = true := by
          simp [flags?_withFlags hfd ha]
        have hshows : ((t.withFlags a (toggled f)).flags? other == some (toggled f)) =
            decide (a = b) := by
          rw [flags?_withFlags hother ha, hg]
          by_cases hab : a = b
          · simp [hab]
          · simpa [hab] using (toggled_ne f).symm
        simp only [if_true, hseen, hshows, setFlags?_back hfd hf]
        cases back.changes <;> simp
  · have hab : a ≠ b := by
      rintro rfl
      exact hfg (Option.some.inj (hf.symm.trans hg))
    simp [hfg, hab]

/-- Asked to toggle the flag, a descriptor shows it toggled. -/
def TakesEffect (t : StatusTable) (fate : SetFate) (fd : Nat) : Prop :=
  ∃ f t', t.flags? fd = some f ∧ t.setFlags? fate fd (toggled f) = some t' ∧
    t'.flags? fd = some (toggled f)

theorem takesEffect_iff (hfd : t.openFile? fd = some a) (hf : t.flags[a]? = some f) :
    t.TakesEffect fate fd ↔ fate.changes = true := by
  have hflags : t.flags? fd = some f := (flags?_eq hfd).trans hf
  have ha : a < t.flags.length := (List.getElem?_eq_some_iff.1 hf).1
  constructor
  · intro h
    obtain ⟨f', t', hf', hset, hseen⟩ := h
    cases hflags.symm.trans hf'
    rw [setFlags?_toggled hfd hf] at hset
    cases fate with
    | refused => cases hset
    | taken settable =>
      cases hchange : (SetFate.taken settable).changes with
      | true => rfl
      | false =>
        simp only [hchange, Bool.false_eq_true, if_false] at hset
        cases hset
        rw [hflags] at hseen
        exact absurd (Option.some.inj hseen).symm (toggled_ne f)
  · intro h
    refine ⟨f, t.withFlags a (toggled f), hflags, ?_, ?_⟩
    · rw [setFlags?_toggled hfd hf, h]
      cases fate with
      | refused => cases h
      | taken settable => rfl
    · rw [flags?_withFlags hfd ha, if_pos rfl]

/-- The test finds exactly the descriptors that share an open file on which the toggle takes effect, so
there it agrees with a comparison of the open files. All open files have the flags that they had, unless
the request to take the toggle back is refused or ignored; even then only the toggle itself remains. -/
theorem sharesByToggle_finds_shared (hfd : t.openFile? fd = some a)
    (hother : t.openFile? other = some b) (hf : t.flags[a]? = some f) (hg : t.flags[b]? = some g)
    (change back : SetFate) :
    let result := t.sharesByToggle change back fd other
    (result.1 = true ↔ t.openFile? fd = t.openFile? other ∧ t.TakesEffect change fd) ∧
    (t.TakesEffect change fd → result.1 = (t.openFile? fd == t.openFile? other)) ∧
    (back.changes = true → result.2 = t) ∧
    (result.2 ≠ t → f = g ∧ t.TakesEffect change fd ∧ result.2 = t.withFlags a (toggled f)) := by
  intro result
  have hresult : result = _ := sharesByToggle_eq hfd hother hf hg
  rw [takesEffect_iff hfd hf, hfd, hother, hresult]
  refine ⟨by simp, fun hchange => ?_, ?_, ?_⟩
  · rw [Bool.eq_iff_iff]
    simp [hchange]
  · intro hback
    simp [hback]
  · intro hleft
    split at hleft
    case isTrue h =>
      exact ⟨h.1, h.2.1, if_pos h⟩
    case isFalse => exact absurd rfl hleft

def logs : StatusTable := ⟨[(3, 0), (5, 0), (7, 1)], [0x8401, 0x8401]⟩

theorem sharesByToggle_finds_shared_logs :
    let change := SetFate.taken 0x2c00
    logs.openFile? 3 = some 0 ∧ logs.openFile? 5 = some 0 ∧ logs.openFile? 7 = some 1 ∧
      logs.flags[0]? = some 0x8401 ∧ logs.flags[1]? = some 0x8401 ∧
      logs.sharesByToggle change change 3 5 = (true, logs) ∧
      logs.sharesByToggle change change 3 7 = (false, logs) ∧
      (logs.sharesByToggle change .refused 3 7).2 = logs.withFlags 0 0x8c01 := by
  intro change
  have h3 : logs.openFile? 3 = some 0 := rfl
  have h5 : logs.openFile? 5 = some 0 := rfl
  have h7 : logs.openFile? 7 = some 1 := rfl
  have heffect : logs.TakesEffect change 3 := (takesEffect_iff h3 rfl).2 rfl
  obtain ⟨-, hcompare, hback, -⟩ := sharesByToggle_finds_shared h3 h5 rfl rfl change change
  obtain ⟨-, hcompare', hback', -⟩ := sharesByToggle_finds_shared h3 h7 rfl rfl change change
  obtain ⟨-, -, -, hleft⟩ := sharesByToggle_finds_shared h3 h7 rfl rfl change .refused
  refine ⟨h3, h5, h7, rfl, rfl, Prod.ext (hcompare heffect) (hback rfl),
    Prod.ext (hcompare' heffect) (hback' rfl), ?_⟩
  exact (hleft (by decide)).2.2

end StatusTable

/-- Where the system does not compare open files, the toggle tells the same, except that an open file
that only names its file is told apart from itself. The flags stay as they are. -/
theorem Machine.sameOpenFile_by_toggle {m : Machine} {fd other : Nat} {file file' : OpenFile}
    (hfd : m.openFile? fd = some file) (hother : m.openFile? other = some file') :
    { m with comparesOpenFiles := false }.sameOpenFile fd other =
        ({ m with comparesOpenFiles := true }.sameOpenFile fd other && !file.isPathOnly) ∧
      (m.statusTable.sharesByToggle (m.setFate fd) (m.setFate fd) fd other).2 = m.statusTable := by
  obtain ⟨a, ha, hfile⟩ := Option.bind_eq_some_iff.1 hfd
  obtain ⟨b, hb, hfile'⟩ := Option.bind_eq_some_iff.1 hother
  have hf : m.statusTable.flags[a]? = some file.flags := by simp [statusTable, hfile]
  have hg : m.statusTable.flags[b]? = some file'.flags := by simp [statusTable, hfile']
  have hfate : (m.setFate fd).changes = !file.isPathOnly := by
    rw [setFate, hfd, Option.any_some]
    cases file.isPathOnly with
    | true => rfl
    | false => decide
  have htest : m.statusTable.sharesByToggle (m.setFate fd) (m.setFate fd) fd other = _ :=
    StatusTable.sharesByToggle_eq ha hb hf hg
  refine ⟨?_, ?_⟩
  · have hfalse : { m with comparesOpenFiles := false }.sameOpenFile fd other =
        (m.statusTable.sharesByToggle (m.setFate fd) (m.setFate fd) fd other).1 := by
      simp only [sameOpenFile, ha, hb]
      rfl
    have htrue : { m with comparesOpenFiles := true }.sameOpenFile fd other = (a == b) := by
      simp only [sameOpenFile, ha, hb]
      rfl
    rw [hfalse, htrue, htest, hfate]
    rfl
  · rw [htest, if_neg fun h => Bool.false_ne_true (h.2.2.symm.trans h.2.1)]

end Thaw
