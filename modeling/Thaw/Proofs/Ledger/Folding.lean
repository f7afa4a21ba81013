import Mathlib.Data.List.Find
import Thaw.Proofs.Ledger.Aliases

namespace Thaw.Ledger
set_option autoImplicit true

variable {same : Nat → Nat → Bool} {l : Ledger} {roots slots : List Slot} {r s s' : Slot} {i j : Nat}

/-- What makes `r` the root of `s`, if it is one. -/
def matching (same : Nat → Nat → Bool) (s r : Slot) : Bool :=
  s.identity? == r.identity? && same s.fd r.fd

def turned (same : Nat → Nat → Bool) (roots : List Slot) (s : Slot) : Slot :=
  if s.isRoot then
    match roots.find? (matching same s) with
    | some r => { s with state := .aliasOf r.fd }
    | none => s
  else s

theorem foldAliases_cons (same : Nat → Nat → Bool) (roots : List Slot) (s : Slot)
    (rest : List Slot) : foldAliases same roots (s :: rest) =
      turned same roots s ::
        foldAliases same (roots ++ [turned same roots s].filter (·.isRoot)) rest := by
  have hmatching : (fun r => s.identity? == r.identity? && same s.fd r.fd) = matching same s := rfl
  rw [foldAliases, turned, hmatching]
  cases hroot : s.isRoot with
  | false => simp [hroot]
  | true =>
    cases roots.find? (matching same s) with
    | none => simp [hroot]
    | some r => simp [Slot.isRoot]

/-- The pass in terms of its own result: a slot meets the roots that are left before it. -/
theorem getElem?_foldAliases (roots slots : List Slot) (i : Nat) :
    (foldAliases same roots slots)[i]? = slots[i]?.map
      (turned same (roots ++ ((foldAliases same roots slots).take i).filter (·.isRoot))) := by
  induction slots generalizing roots i with
  | nil => rfl
  | cons s rest ih =>
    rw [foldAliases_cons]
    cases i with
    | zero => simp
    | succ i =>
      rw [List.getElem?_cons_succ, List.getElem?_cons_succ, ih, List.append_assoc,
        List.take_succ_cons, ← List.filter_append, List.singleton_append]

/-- Slot `j` could be the root of slot `i`. -/
def Fits (same : Nat → Nat → Bool) (l : Ledger) (i j : Nat) : Prop :=
  j < i ∧ ∃ s r, l.slots[i]? = some s ∧ l.slots[j]? = some r ∧ r.state = .root ∧
    s.identity? = r.identity? ∧ same i j = true

theorem matching_iff : matching same s r = true ↔
    s.identity? = r.identity? ∧ same s.fd r.fd = true := by
  rw [matching, Bool.and_eq_true, beq_iff_eq]

theorem Numbered.fits_iff (hn : l.Numbered) (hs : l.slots[i]? = some s) :
    Fits same l i j ↔ ∃ r ∈ (l.slots.take i).filter (·.isRoot), matching same s r = true ∧ r.fd = j := by
  have hfd : s.fd = i := (hn.getElem?_eq_some_iff.1 hs).2
  simp only [List.mem_filter, hn.mem_take_iff, matching_iff, Slot.isRoot_iff, hfd]
  constructor
  · rintro ⟨hlt, t, r, ht, hr, hroot, hid, hsame⟩
    cases hs.symm.trans ht
    have hj : r.fd = j := (hn.getElem?_eq_some_iff.1 hr).2
    subst j
    exact ⟨r, ⟨⟨hlt, hr⟩, hroot⟩, ⟨hid, hsame⟩, rfl⟩
  · rintro ⟨r, ⟨⟨hlt, hr⟩, hroot⟩, ⟨hid, hsame⟩, rfl⟩
    exact ⟨hlt, s, r, hs, hr, hroot, hid, hsame⟩

theorem turned_eq (same : Nat → Nat → Bool) (roots : List Slot) (s : Slot) :
    turned same roots s = { s with state := (turned same roots s).state } := by
  rw [turned]
  split
  · split <;> rfl
  · rfl

/-- What becomes of a slot: it stays unless it is a root that others fit, and then the first of these
is its root. -/
theorem Numbered.cases_detectAliases (hn : l.Numbered) (hs' : (l.detectAliases same).slots[i]? = some s') :
    ∃ s, l.slots[i]? = some s ∧
      ((s.isRoot = false ∧ s' = s) ∨
        (s.isRoot = true ∧ s' = s ∧ ∀ j, ¬ Fits same (l.detectAliases same) i j) ∨
        (s.isRoot = true ∧ ∃ j, s' = { s with state := .aliasOf j } ∧
          Fits same (l.detectAliases same) i j ∧
          ∀ k, Fits same (l.detectAliases same) i k → j ≤ k)) := by
  have hd := hn.detectAliases same
  let earlier := ((l.detectAliases same).slots.take i).filter (·.isRoot)
  have hasc : Ascending earlier := (hd.ascending.sublist (List.take_sublist i _)).filter _
  have hturn : (l.detectAliases same).slots[i]? = l.slots[i]?.map (turned same earlier) :=
    getElem?_foldAliases [] l.slots i
  obtain ⟨s, hs, hs'e⟩ := Option.map_eq_some_iff.1 (hturn.symm.trans hs')
  have hfits (j : Nat) : Fits same (l.detectAliases same) i j ↔
      ∃ r ∈ earlier, matching same s r = true ∧ r.fd = j := by
    rw [hd.fits_iff hs', ← hs'e, turned_eq]
    rfl
  refine ⟨s, hs, ?_⟩
  subst s'
  cases hroot : s.isRoot with
  | false => exact .inl ⟨rfl, by simp [turned, hroot]⟩
  | true =>
    refine .inr ?_
    cases hf : earlier.find? (matching same s) with
    | none =>
      refine .inl ⟨rfl, by simp [turned, hroot, hf], fun j hj => ?_⟩
      obtain ⟨r, hr, hm, -⟩ := (hfits j).1 hj
      exact List.find?_eq_none.1 hf r hr hm
    | some r =>
      obtain ⟨hr, hm, hleast⟩ := hasc.find?_eq_some_iff.1 hf
      refine .inr ⟨rfl, r.fd, by simp [turned, hroot, hf], (hfits r.fd).2 ⟨r, hr, hm, rfl⟩, ?_⟩
      intro k hk
      obtain ⟨t, ht, hmt, rfl⟩ := (hfits k).1 hk
      exact hleast t ht hmt

/-- The turn of slot `i` in a table that changes in place. -/
def visit (same : Nat → Nat → Bool) (slots : List Slot) (i : Nat) : List Slot :=
  match slots[i]? with
  | some s =>
    if s.isRoot then
      match (List.range i).find? fun j => slots[j]?.any fun r =>
          r.isRoot && s.identity? == r.identity? && same i j with
      | some j => slots.set i { s with state := .aliasOf j }
      | none => slots
    else slots
  | none => slots

theorem Numbered.find?_range (hn : l.Numbered) (hi : i ≤ l.size) (p : Nat → Slot → Bool) :
    ((List.range i).find? fun j => l.slots[j]?.any (p j)) =
      ((l.slots.take i).find? fun r => p r.fd r).map (·.fd) := by
  have hfds : (l.slots.take i).map (·.fd) = List.range i := by
    rw [List.map_take, hn, List.take_range, Nat.min_eq_left hi]
  rw [← hfds, List.find?_map]
  congr 1
  apply List.find?_congr
  intro r hr
  have hslot := (hn.mem_take_iff.1 hr).2
  simp [hslot]

/-- A turn in place does what a turn does, if the roots are those that stand before the slot. -/
theorem visit_eq_set (hs : slots[i]? = some s)
    (hfind : ((List.range i).find? fun j => slots[j]?.any fun r =>
      r.isRoot && s.identity? == r.identity? && same i j) =
        (roots.find? (matching same s)).map (·.fd)) :
    visit same slots i = slots.set i (turned same roots s) := by
  have hself : slots.set i s = slots := by
    obtain ⟨hi, rfl⟩ := List.getElem?_eq_some_iff.1 hs
    exact List.set_getElem_self hi
  simp only [visit, hs, hfind, turned]
  split
  case isFalse => exact hself.symm
  case isTrue =>
    cases roots.find? (matching same s) with
    | none => exact hself.symm
    | some r => rfl

theorem Numbered.visit_turn (hn : l.Numbered) (hi : i < l.size) :
    visit same ((l.detectAliases same).slots.take i ++ l.slots.drop i) i =
      (l.detectAliases same).slots.take (i + 1) ++ l.slots.drop (i + 1) := by
  have hd := hn.detectAliases same
  have hi' : i < (l.detectAliases same).size := by rwa [size_detectAliases]
  have hlength : ((l.detectAliases same).slots.take i).length = i :=
    List.length_take_of_le (Nat.le_of_lt hi')
  have hturn : (l.detectAliases same).slots[i] = turned same
      (((l.detectAliases same).slots.take i).filter (·.isRoot)) l.slots[i] := by
    have h : (l.detectAliases same).slots[i]? = _ := getElem?_foldAliases [] l.slots i
    rw [List.getElem?_eq_getElem hi, Option.map_some] at h
    exact (List.getElem?_eq_some_iff.1 h).2
  have hslot : ((l.detectAliases same).slots.take i ++ l.slots.drop i)[i]? = some l.slots[i] := by
    rw [List.getElem?_append_right (Nat.le_of_eq hlength), hlength, Nat.sub_self,
      List.getElem?_drop]
    exact List.getElem?_eq_getElem hi
  rw [visit_eq_set hslot, ← hturn]
  · rw [List.set_append_right _ _ (Nat.le_of_eq hlength), hlength, Nat.sub_self,
      List.drop_eq_getElem_cons hi, List.set_cons_zero, List.take_succ_eq_append_getElem hi',
      List.append_assoc, List.singleton_append]
  · have hbefore : ∀ j ∈ List.range i,
        ((l.detectAliases same).slots.take i ++ l.slots.drop i)[j]? =
          (l.detectAliases same).slots[j]? := by
      intro j hj
      have hj := List.mem_range.1 hj
      rw [List.getElem?_append_left (by rwa [hlength]), List.getElem?_take_of_lt hj]
    rw [List.find?_congr fun j hj => congrArg _ (hbefore j hj), hd.find?_range (Nat.le_of_lt hi'),
      List.find?_filter]
    simp only [matching, hn.fd_getElem hi, Bool.and_assoc, Bool.decide_and, Bool.decide_eq_true]

theorem Numbered.foldl_visit (hn : l.Numbered) (hi : i ≤ l.size) :
    (List.range i).foldl (visit same) l.slots =
      (l.detectAliases same).slots.take i ++ l.slots.drop i := by
  induction i with
  | zero => rfl
  | succ i ih =>
    rw [List.range_succ, List.foldl_append, ih (Nat.le_of_succ_le hi)]
    exact hn.visit_turn hi

theorem Numbered.detectAliases_eq_foldl (hn : l.Numbered) :
    (l.detectAliases same).slots = (List.range l.size).foldl (visit same) l.slots := by
  have hlength : (l.detectAliases same).slots.length ≤ l.size :=
    Nat.le_of_eq (size_detectAliases same l)
  rw [hn.foldl_visit (Nat.le_refl l.size), List.take_of_length_le hlength,
    List.drop_of_length_le (Nat.le_refl l.size), List.append_nil]

/-- Whatever is answered, each root is folded onto the first of the roots before it that fit it, if
there is one, and these are roots afterwards as well; all else in the slots stays as it was. The pass
is the one that visits the slots in turn and changes them in place. -/
theorem detectAliases_folds_onto_first (hn : l.Numbered)
    (hopen : ∀ s ∈ l.slots, s.state = .closed ∨ s.state = .root) (same : Nat → Nat → Bool) :
    let d := l.detectAliases same
    d.slots = (List.range l.size).foldl (visit same) l.slots ∧
    List.Forall₂ (fun s s' => s' = { s with state := s'.state } ∧
      (s'.state = .closed ↔ s.state = .closed)) l.slots d.slots ∧
    (∀ (i j : Nat) (s : Slot), d.slots[i]? = some s → s.state = .aliasOf j →
      Fits same d i j ∧ ∀ k, Fits same d i k → j ≤ k) ∧
    ∀ (i : Nat) (s : Slot), d.slots[i]? = some s → s.state = .root → ∀ j, ¬ Fits same d i j := by
  intro d
  have hsize : l.slots.length = d.slots.length := (size_detectAliases same l).symm
  have hcases {i : Nat} {s' : Slot} (hs' : d.slots[i]? = some s') := hn.cases_detectAliases hs'
  refine ⟨hn.detectAliases_eq_foldl, ?_, ?_, ?_⟩
  · refine List.forall₂_iff_get.2 ⟨hsize, fun i hi hi' => ?_⟩
    obtain ⟨s, hs, hfolded⟩ := hcases (List.getElem?_eq_getElem hi')
    obtain ⟨_, rfl⟩ := List.getElem?_eq_some_iff.1 hs
    simp only [List.get_eq_getElem]
    obtain ⟨-, he⟩ | ⟨-, he, -⟩ | ⟨hroot, j, he, -⟩ := hfolded
    · simp [he]
    · simp [he]
    · simp [he, (Slot.isRoot_iff _).1 hroot]
  · intro i j s' hs' halias
    obtain ⟨s, hs, ⟨-, rfl⟩ | ⟨hroot, rfl, -⟩ | ⟨-, j', rfl, hfits, hleast⟩⟩ := hcases hs'
    · have hstate := hopen s' (List.mem_of_getElem? hs)
      simp [halias] at hstate
    · rw [Slot.isRoot_iff, halias] at hroot
      cases hroot
    · cases halias
      exact ⟨hfits, hleast⟩
  · intro i s' hs' hstate
    obtain ⟨s, -, ⟨hroot, rfl⟩ | ⟨-, -, hnone⟩ | ⟨-, j, rfl, -⟩⟩ := hcases hs'
    · simp [Slot.isRoot, hstate] at hroot
    · exact hnone
    · cases hstate

/-- Five descriptors of one log and a pipe, with answers that are neither symmetric nor transitive: 3 is
said to share with 1, and 1 with 0, but not 3 with 0. -/
def tangled : Ledger :=
  let log : FileStatus := ⟨⟨1, 20⟩, .regular, 1, ⟨0⟩⟩
  let pipe : FileStatus := ⟨⟨2, 7⟩, .fifo, 1, ⟨0⟩⟩
  ⟨[.opened 0 log none, .opened 1 log none, .closed 2, .opened 3 log none, .opened 4 pipe none,
    .opened 5 log none]⟩

def answers (fd other : Nat) : Bool := [(1, 0), (3, 1), (4, 0), (5, 3), (5, 0)].contains (fd, other)

theorem detectAliases_folds_onto_first_tangled :
    let d := tangled.detectAliases answers
    tangled.Numbered ∧ (∀ s ∈ tangled.slots, s.state = .closed ∨ s.state = .root) ∧
      d.slots.map (·.state) = [.root, .aliasOf 0, .closed, .root, .root, .aliasOf 0] ∧
      (∀ k, Fits answers d 5 k → 0 ≤ k) ∧ Fits answers d 5 0 ∧ ∀ j, ¬ Fits answers d 3 j := by
  intro d
  have hn : tangled.Numbered := rfl
  have hopen : ∀ s ∈ tangled.slots, s.state = .closed ∨ s.state = .root := by decide
  obtain ⟨-, -, halias, hroot⟩ := detectAliases_folds_onto_first hn hopen answers
  obtain ⟨hfits, hleast⟩ := halias 5 0 _ rfl rfl
  exact ⟨hn, hopen, by decide, hleast, hfits, hroot 3 _ rfl rfl⟩

end Thaw.Ledger
