import Mathlib.Data.List.Destutter
import Mathlib.Order.Basic
import Thaw.Proofs.Ledger.Marking
import Thaw.Proofs.Text.Split

namespace Thaw.Ledger
set_option autoImplicit true

variable {l : Ledger} {records records' : List Slot} {r s : Slot} {fd : Nat}

def IsFirst (records : List Slot) (r : Slot) : Prop :=
  ∃ before after, records = before ++ r :: after ∧ ∀ t ∈ before, t.fd ≠ r.fd

def first? (records : List Slot) (fd : Nat) : Option Slot := records.find? fun r => r.fd == fd

theorem first?_eq_some_iff : first? records fd = some r ↔ IsFirst records r ∧ r.fd = fd := by
  rw [first?, List.find?_eq_some_iff_append, beq_iff_eq, and_comm]
  apply and_congr_left
  intro hfd
  simp [IsFirst, hfd]

theorem first?_eq_none_iff : first? records fd = none ↔ ∀ r ∈ records, r.fd ≠ fd := by
  simp [first?, List.find?_eq_none]

theorem fd_of_first? (h : first? records fd = some r) : r.fd = fd := (first?_eq_some_iff.1 h).2

theorem mem_of_first? (h : first? records fd = some r) : r ∈ records := List.mem_of_find?_eq_some h

theorem exists_first? (hr : r ∈ records) : ∃ s, first? records r.fd = some s := by
  apply Option.ne_none_iff_exists'.1
  intro h
  exact first?_eq_none_iff.1 h r hr rfl

theorem first?_cons (r : Slot) (records : List Slot) (fd : Nat) :
    first? (r :: records) fd = if r.fd = fd then some r else first? records fd := by
  by_cases h : r.fd = fd <;> simp [first?, h]

theorem first?_append (records records' : List Slot) (fd : Nat) :
    first? (records ++ records') fd = (first? records fd).or (first? records' fd) :=
  List.find?_append

theorem lt_extent_iff_first? : fd < extent records ↔ ∃ n r, first? records n = some r ∧ fd ≤ n := by
  rw [lt_extent_iff]
  constructor
  · intro h
    obtain ⟨r, hr, hle⟩ := h
    obtain ⟨s, hs⟩ := exists_first? hr
    exact ⟨r.fd, s, hs, hle⟩
  · intro h
    obtain ⟨n, r, hr, hle⟩ := h
    exact ⟨r, mem_of_first? hr, by rwa [fd_of_first? hr]⟩

theorem extent_snoc (records : List Slot) (r : Slot) :
    extent (records ++ [r]) = max (extent records) (r.fd + 1) := by
  rw [extent, List.foldl_append]
  rfl

theorem first?_of_extent_le (h : extent records ≤ fd) : first? records fd = none := by
  rw [first?_eq_none_iff]
  intro r hr he
  exact Nat.not_lt.2 h (lt_extent_iff.2 ⟨r, hr, Nat.le_of_eq he.symm⟩)

/-- The slots depend on the first records only. -/
theorem arrange_congr (h : ∀ fd, first? records fd = first? records' fd) :
    arrange records = arrange records' := by
  have hextent : extent records = extent records' := by
    apply eq_of_forall_lt_iff
    intro fd
    simp only [lt_extent_iff_first?, h]
  have hslot (fd : Nat) : (records.find? fun r => r.fd == fd) = records'.find? fun r => r.fd == fd :=
    h fd
  simp only [arrange, hextent, hslot]

def fdLe (r s : Slot) : Bool := r.fd ≤ s.fd

/-- The records by descriptor, those of one descriptor in the order in which they were. -/
def sorted (records : List Slot) : List Slot := records.mergeSort fdLe

def Apart (r s : Slot) : Prop := r.fd ≠ s.fd

instance : DecidableRel Apart := fun r s => inferInstanceAs (Decidable (r.fd ≠ s.fd))

def dropRepeats (records : List Slot) : List Slot := records.destutter Apart

/-- A record behind closed slots up to its descriptor. -/
def push (slots : List Slot) (r : Slot) : List Slot :=
  slots ++ (List.range' slots.length (r.fd - slots.length)).map .closed ++ [r]

def fillGaps (records : List Slot) : List Slot := records.foldl push []

theorem fdLe_iff : fdLe r s = true ↔ r.fd ≤ s.fd := decide_eq_true_iff

theorem fdLe_trans (a b c : Slot) (hab : fdLe a b = true) (hbc : fdLe b c = true) :
    fdLe a c = true :=
  fdLe_iff.2 (Nat.le_trans (fdLe_iff.1 hab) (fdLe_iff.1 hbc))

theorem fdLe_total (a b : Slot) : (fdLe a b || fdLe b a) = true := by
  rw [Bool.or_eq_true, fdLe_iff, fdLe_iff]
  exact Nat.le_total a.fd b.fd

theorem filter_sorted (records : List Slot) (fd : Nat) :
    (sorted records).filter (fun r => r.fd == fd) = records.filter fun r => r.fd == fd := by
  have hordered : (records.filter fun r => r.fd == fd).Pairwise fun r s => fdLe r s = true := by
    apply List.pairwise_of_forall_mem_list
    intro r hr s hs
    have hr := (List.mem_filter.1 hr).2
    have hs := (List.mem_filter.1 hs).2
    rw [beq_iff_eq] at hr hs
    exact fdLe_iff.2 (Nat.le_of_eq (hr.trans hs.symm))
  have hsub : (records.filter fun r => r.fd == fd).Sublist (sorted records) :=
    List.sublist_mergeSort fdLe_trans fdLe_total hordered List.filter_sublist
  have hsub := hsub.filter fun r => r.fd == fd
  simp only [List.filter_filter, Bool.and_self] at hsub
  have hlength := ((List.mergeSort_perm records fdLe).filter fun r => r.fd == fd).length_eq
  exact (hsub.eq_of_length hlength.symm).symm

theorem first?_sorted (records : List Slot) (fd : Nat) :
    first? (sorted records) fd = first? records fd := by
  rw [first?, ← List.head?_filter, filter_sorted, List.head?_filter, first?]

theorem first?_dropRepeats (records : List Slot) (fd : Nat) :
    first? (dropRepeats records) fd = first? records fd := by
  cases records with
  | nil => rfl
  | cons r rest =>
    rw [dropRepeats, List.destutter_cons']
    induction rest generalizing r with
    | nil => rfl
    | cons s rest ih =>
      by_cases h : Apart r s
      · rw [List.destutter'_cons_pos _ h, first?_cons, first?_cons, ih]
      · have he : r.fd = s.fd := not_not.1 h
        rw [List.destutter'_cons_neg _ h, ih, first?_cons, first?_cons, first?_cons, ← he]
        split <;> rfl

theorem ascending_dropRepeats_sorted (records : List Slot) :
    Ascending (dropRepeats (sorted records)) := by
  have hle : (dropRepeats (sorted records)).Pairwise fun r s => fdLe r s = true :=
    (List.pairwise_mergeSort fdLe_trans fdLe_total records).sublist (List.destutter_sublist _ _)
  have hapart : (dropRepeats (sorted records)).IsChain Apart := List.isChain_destutter _ _
  have hlt : (dropRepeats (sorted records)).IsChain fun r s => r.fd < s.fd := by
    rw [List.isChain_iff_getElem] at hapart ⊢
    intro i hi
    have hi' := List.pairwise_iff_getElem.1 hle i (i + 1) (Nat.lt_of_succ_lt hi) hi i.lt_succ_self
    exact Nat.lt_of_le_of_ne (fdLe_iff.1 hi') (hapart i hi)
  have : IsTrans Slot fun r s => r.fd < s.fd := ⟨fun a b c => Nat.lt_trans⟩
  exact List.isChain_iff_pairwise.1 hlt

theorem slots_arrange_snoc (h : extent records ≤ r.fd) :
    (arrange (records ++ [r])).slots = push (arrange records).slots r := by
  let slot (records : List Slot) (fd : Nat) : Slot := (first? records fd).getD (.closed fd)
  have hold : ∀ fd ∈ List.range (extent records), slot (records ++ [r]) fd = slot records fd := by
    intro fd hfd
    have hne : r.fd ≠ fd := Nat.ne_of_gt (Nat.lt_of_lt_of_le (List.mem_range.1 hfd) h)
    simp only [slot, first?_append, first?_cons, if_neg hne]
    exact congrArg (Option.getD · _) (Option.or_none ..)
  have hgap : ∀ fd ∈ List.range' (extent records) (r.fd - extent records),
      slot (records ++ [r]) fd = .closed fd := by
    intro fd hfd
    obtain ⟨hge, hlt⟩ := List.mem_range'_1.1 hfd
    have hne : r.fd ≠ fd := by omega
    simp only [slot, first?_append, first?_cons, if_neg hne, first?_of_extent_le hge]
    rfl
  have hnew : slot (records ++ [r]) r.fd = r := by
    simp [slot, first?_append, first?_of_extent_le h, first?_cons]
  have hrange : List.range (r.fd + 1) = List.range (extent records) ++
      List.range' (extent records) (r.fd - extent records) ++ [r.fd] := by
    have happend : List.range' 0 (extent records) ++
        List.range' (0 + extent records) (r.fd - extent records) = List.range' 0 r.fd := by
      rw [List.range'_append_1, Nat.add_sub_cancel' h]
    rw [Nat.zero_add] at happend
    rw [List.range_succ, List.range_eq_range', List.range_eq_range', happend]
  have hlength : (arrange records).slots.length = extent records := by
    rw [arrange, List.length_map, List.length_range]
  calc (arrange (records ++ [r])).slots
      = (List.range (r.fd + 1)).map (slot (records ++ [r])) := by
        rw [arrange, extent_snoc, max_eq_right (Nat.le_succ_of_le h)]
        rfl
    _ = (List.range (extent records)).map (slot records) ++
          (List.range' (extent records) (r.fd - extent records)).map .closed ++ [r] := by
        rw [hrange, List.map_append, List.map_append, List.map_congr_left hold,
          List.map_congr_left hgap, List.map_singleton, hnew]
    _ = push (arrange records).slots r := by
        rw [push, hlength]
        rfl

theorem fillGaps_of_ascending (h : Ascending records) : fillGaps records = (arrange records).slots := by
  induction records using List.reverseRecOn with
  | nil => rfl
  | append_singleton init r ih =>
    obtain ⟨hinit, -, hlast⟩ := List.pairwise_append.1 h
    have hbefore (s : Slot) (hs : s ∈ init) : s.fd < r.fd := hlast s hs r List.mem_cons_self
    have hle : extent init ≤ r.fd := by
      apply Nat.le_of_not_lt
      intro hlt
      obtain ⟨s, hs, hle⟩ := lt_extent_iff.1 hlt
      exact Nat.not_lt.2 hle (hbefore s hs)
    rw [fillGaps, List.foldl_append, ← fillGaps, ih hinit]
    exact (slots_arrange_snoc hle).symm

theorem arrange_eq_fillGaps (records : List Slot) :
    arrange records = ⟨fillGaps (dropRepeats (sorted records))⟩ := by
  rw [fillGaps_of_ascending (ascending_dropRepeats_sorted records)]
  apply arrange_congr
  intro fd
  rw [first?_dropRepeats, first?_sorted]

def SillyNamed (path : List Char) : Prop :=
  ∃ digits rest, Text.IsLastPiece '/' path (sillyStem ++ (digits ++ rest)) ∧
    digits.length = sillyDigits ∧ ∀ c ∈ digits, ∃ d, Text.Numeral.digit? 16 c = some d

/-- What cannot be made again: an open file that has no name left, by its links or by its target. -/
def Lost (s : Slot) : Prop :=
  s.state = .root ∧ ((∃ status, s.status = some status ∧ status.links = 0) ∨
    ∃ target, s.target = some target ∧
      (deletedMark <:+: target.toList ∨ SillyNamed target.toList))

theorem isSillyName_iff {path : String} : isSillyName path = true ↔ SillyNamed path.toList := by
  have hbase (base : List Char) : baseName path.toList = base ↔ Text.IsLastPiece '/' path.toList base :=
    Text.getLastD_split_eq_iff
  simp only [isSillyName, Bool.and_eq_true, decide_eq_true_eq, List.isPrefixOf_iff_prefix,
    List.all_eq_true, Option.isSome_iff_exists]
  constructor
  · intro h
    obtain ⟨⟨⟨rest, hrest⟩, hlength⟩, hdigits⟩ := h
    rw [← hrest, List.drop_left] at hlength hdigits
    refine ⟨rest.take sillyDigits, rest.drop sillyDigits, ?_, hlength, hdigits⟩
    rw [List.take_append_drop, hrest, ← hbase]
  · intro h
    obtain ⟨digits, rest, hlast, hlength, hdigits⟩ := h
    rw [(hbase _).2 hlast, List.drop_left, List.take_left' hlength]
    exact ⟨⟨⟨digits ++ rest, rfl⟩, hlength⟩, hdigits⟩

theorem isUnrestorable_iff : isUnrestorable s = true ↔ Lost s := by
  have hlinks : (s.status.any fun status => status.links == 0) = true ↔
      ∃ status, s.status = some status ∧ status.links = 0 := by
    simp [Option.any_eq_true]
  have htarget : s.target.any isGone = true ↔ ∃ target, s.target = some target ∧
      (deletedMark <:+: target.toList ∨ SillyNamed target.toList) := by
    simp [Option.any_eq_true, isGone, Text.occurs_iff_infix, isSillyName_iff]
  rw [isUnrestorable, Bool.and_eq_true, Bool.or_eq_true, hlinks, htarget, s.isRoot_iff, Lost]

theorem isUnrestorable_mark (s : Slot) (marks : Marks) :
    isUnrestorable (s.mark marks) = isUnrestorable s := rfl

def settled (r : Slot) : Slot := if isUnrestorable r then r.mark .onlyCannotRestore else r

theorem settled_eq_iff : settled r = s ↔
    (Lost r ∧ s = { r with marks := { r.marks with cannotRestore := true } }) ∨
      (¬ Lost r ∧ s = r) := by
  have hmark : r.mark .onlyCannotRestore =
      { r with marks := { r.marks with cannotRestore := true } } := by
    simp [Slot.mark, Marks.union, Marks.onlyCannotRestore, Marks.none]
  rw [settled, ← isUnrestorable_iff, hmark]
  by_cases h : isUnrestorable r = true <;> simp [h, eq_comm]

theorem settled_closed (fd : Nat) : settled (.closed fd) = .closed fd := rfl

theorem state_settled (r : Slot) : (settled r).state = r.state := by
  rw [settled]
  split <;> rfl

theorem slots_ofRecords (records : List Slot) :
    (ofRecords records).slots = (arrange records).slots.map settled := rfl

theorem size_ofRecords (records : List Slot) : (ofRecords records).size = extent records := by
  rw [size, slots_ofRecords, List.length_map, arrange, List.length_map, List.length_range]

theorem getElem?_ofRecords (records : List Slot) (fd : Nat) : (ofRecords records).slots[fd]? =
    if fd < extent records then some (settled ((first? records fd).getD (.closed fd))) else none := by
  rw [slots_ofRecords, arrange, List.map_map, List.getElem?_map]
  split
  case isTrue h => rw [List.getElem?_range h]; rfl
  case isFalse h => rw [List.getElem?_eq_none (by simpa using h)]; rfl

theorem markUnrestorable_markUnrestorable (l : Ledger) :
    l.markUnrestorable.markUnrestorable = l.markUnrestorable := by
  have h : (l.markWhere isUnrestorable .onlyCannotRestore).markWhere isUnrestorable
      .onlyCannotRestore = _ := markWhere_markWhere fun s => isUnrestorable_mark s _
  simp only [Bool.or_self] at h
  exact h

theorem Numbered.nodup (hn : l.Numbered) : (l.slots.map (·.fd)).Nodup := by
  rw [hn]
  exact List.nodup_range

theorem Numbered.extent_slots (hn : l.Numbered) : extent l.slots = l.size := by
  apply eq_of_forall_lt_iff
  intro fd
  rw [lt_extent_iff]
  constructor
  · intro h
    obtain ⟨s, hs, hle⟩ := h
    obtain ⟨i, hi, rfl⟩ := List.mem_iff_getElem.1 hs
    rw [hn.fd_getElem hi] at hle
    exact Nat.lt_of_le_of_lt hle hi
  · intro h
    exact ⟨l.slots[fd], List.getElem_mem h, Nat.le_of_eq (hn.fd_getElem h).symm⟩

theorem Numbered.arrange_slots (hn : l.Numbered) : arrange l.slots = l := by
  have hslots : (arrange l.slots).slots = l.slots := by
    apply List.ext_getElem
    · rw [arrange, List.length_map, List.length_range, hn.extent_slots, size]
    · intro i hi hi'
      have hfind := find?_eq_of_distinct hn.nodup (List.getElem_mem hi')
      rw [hn.fd_getElem hi'] at hfind
      simp only [arrange, List.getElem_map, List.getElem_range, hfind, Option.getD_some]
  exact congrArg Ledger.mk hslots

theorem ofRecords_slots (records : List Slot) :
    ofRecords (ofRecords records).slots = ofRecords records := by
  rw [ofRecords, (numbered_ofRecords records).arrange_slots, ofRecords,
    markUnrestorable_markUnrestorable]

theorem getElem?_ofRecords_eq_some_iff : (ofRecords records).slots[fd]? = some s ↔
    (∃ r, first? records fd = some r ∧ settled r = s) ∨
      first? records fd = none ∧ (∃ r ∈ records, fd < r.fd) ∧ s = .closed fd := by
  rw [getElem?_ofRecords]
  cases hf : first? records fd with
  | some r =>
    have hlt : fd < extent records := lt_extent_iff_first?.2 ⟨fd, r, hf, Nat.le_refl fd⟩
    simp [if_pos hlt]
  | none =>
    have hlt : fd < extent records ↔ ∃ r ∈ records, fd < r.fd := by
      rw [lt_extent_iff]
      apply exists_congr
      intro r
      apply and_congr_right
      intro hr
      have hne := first?_eq_none_iff.1 hf r hr
      omega
    rw [Option.getD_none, settled_closed, Option.ite_none_right_eq_some, hlt]
    simp [eq_comm]

theorem exists_of_get? {fd : Int} (h : l.get? fd = some s) : ∃ n : Nat, (n : Int) = fd := by
  rw [get?, Option.ite_none_right_eq_some] at h
  exact ⟨fd.toNat, Int.toNat_of_nonneg h.1⟩

theorem get?_ofRecords_eq_some_iff {fd : Int} : (ofRecords records).get? fd = some s ↔
    (∃ r, IsFirst records r ∧ r.fd = fd ∧ settled r = s) ∨
      ∃ n : Nat, (n : Int) = fd ∧ (∀ r ∈ records, r.fd ≠ n) ∧ (∃ r ∈ records, n < r.fd) ∧
        s = .closed n := by
  constructor
  · intro h
    obtain ⟨n, rfl⟩ := exists_of_get? h
    rw [get?_natCast, getElem?_ofRecords_eq_some_iff, first?_eq_none_iff] at h
    cases h with
    | inl h =>
      obtain ⟨r, hr, h⟩ := h
      obtain ⟨hfirst, hfd⟩ := first?_eq_some_iff.1 hr
      exact .inl ⟨r, hfirst, by rw [hfd], h⟩
    | inr h => exact .inr ⟨n, rfl, h⟩
  · intro h
    cases h with
    | inl h =>
      obtain ⟨r, hfirst, rfl, h⟩ := h
      rw [get?_natCast, getElem?_ofRecords_eq_some_iff]
      exact .inl ⟨r, first?_eq_some_iff.2 ⟨hfirst, rfl⟩, h⟩
    | inr h =>
      obtain ⟨n, rfl, hnone, h⟩ := h
      rw [get?_natCast, getElem?_ofRecords_eq_some_iff]
      exact .inr ⟨first?_eq_none_iff.2 hnone, h⟩

theorem state_ofRecords (records : List Slot) (fd : Int) :
    (∃ r, IsFirst records r ∧ r.fd = fd ∧ (ofRecords records).state fd = r.state) ∨
      (∀ r ∈ records, (r.fd : Int) ≠ fd) ∧ (ofRecords records).state fd = .closed := by
  by_cases h : ∃ r ∈ records, (r.fd : Int) = fd
  · obtain ⟨r, hr, rfl⟩ := h
    obtain ⟨s, hs⟩ := exists_first? hr
    obtain ⟨hfirst, hfd⟩ := first?_eq_some_iff.1 hs
    have hget := get?_ofRecords_eq_some_iff.2 (.inl ⟨s, hfirst, congrArg Nat.cast hfd, rfl⟩)
    refine .inl ⟨s, hfirst, congrArg Nat.cast hfd, ?_⟩
    rw [state, hget]
    exact state_settled s
  · have hout : ∀ r ∈ records, (r.fd : Int) ≠ fd := by
      intro r hr he
      exact h ⟨r, hr, he⟩
    refine .inr ⟨hout, ?_⟩
    rw [state]
    split
    case h_1 s hs =>
      cases get?_ofRecords_eq_some_iff.1 hs with
      | inl hs =>
        obtain ⟨r, ⟨before, after, he, -⟩, hfd, -⟩ := hs
        exact absurd hfd (hout r (by simp [he]))
      | inr hs =>
        obtain ⟨n, -, -, -, rfl⟩ := hs
        rfl
    case h_2 => rfl

theorem extent_cases (records : List Slot) : (records = [] ∧ extent records = 0) ∨
    ∃ r ∈ records, extent records = r.fd + 1 ∧ ∀ s ∈ records, s.fd ≤ r.fd := by
  cases h : extent records with
  | zero =>
    have hnil : records = [] := by
      apply List.eq_nil_iff_forall_not_mem.2
      intro r hr
      have hlt := lt_extent_iff.2 ⟨r, hr, Nat.le_refl r.fd⟩
      rw [h] at hlt
      exact Nat.not_lt_zero _ hlt
    exact .inl ⟨hnil, rfl⟩
  | succ n =>
    have hlt : n < extent records := by rw [h]; exact n.lt_succ_self
    obtain ⟨r, hr, hle⟩ := lt_extent_iff.1 hlt
    have hbound (s : Slot) (hs : s ∈ records) : s.fd ≤ n := by
      have hs' := lt_extent_iff.2 ⟨s, hs, Nat.le_refl s.fd⟩
      rw [h] at hs'
      exact Nat.le_of_lt_succ hs'
    have he : r.fd = n := Nat.le_antisymm (hbound r hr) hle
    exact .inr ⟨r, hr, by rw [he], fun s hs => by rw [he]; exact hbound s hs⟩

/-- A ledger of records has a slot for each descriptor up to the largest. The slot is the first
record of the descriptor, marked if the file is lost, or is closed; the descriptor looked up and
asked for its state answers with it. One pass over the sorted records makes the ledger, and a ledger
made of its slots is the same ledger. -/
theorem ofRecords_arranges_first_records (records : List Slot) :
    (ofRecords records).slots.map (·.fd) = List.range (ofRecords records).size ∧
    ((records = [] ∧ (ofRecords records).size = 0) ∨
      ∃ r ∈ records, (ofRecords records).size = r.fd + 1 ∧ ∀ s ∈ records, s.fd ≤ r.fd) ∧
    (∀ (fd : Int) (s : Slot), (ofRecords records).get? fd = some s ↔
      (∃ r, IsFirst records r ∧ r.fd = fd ∧
        ((Lost r ∧ s = { r with marks := { r.marks with cannotRestore := true } }) ∨
          (¬ Lost r ∧ s = r))) ∨
      ∃ n : Nat, (n : Int) = fd ∧ (∀ r ∈ records, r.fd ≠ n) ∧ (∃ r ∈ records, n < r.fd) ∧
        s = { fd := n, state := .closed, marks := .none, status := none, target := none }) ∧
    (∀ fd : Int,
      (∃ r, IsFirst records r ∧ r.fd = fd ∧ (ofRecords records).state fd = r.state) ∨
      (∀ r ∈ records, (r.fd : Int) ≠ fd) ∧ (ofRecords records).state fd = .closed) ∧
    ofRecords records = markUnrestorable ⟨fillGaps (dropRepeats (sorted records))⟩ ∧
    ofRecords (ofRecords records).slots = ofRecords records := by
  have hsize := extent_cases records
  rw [← size_ofRecords] at hsize
  have hget (fd : Int) (s : Slot) : (ofRecords records).get? fd = some s ↔ _ :=
    get?_ofRecords_eq_some_iff
  simp only [settled_eq_iff] at hget
  have hpass := congrArg markUnrestorable (arrange_eq_fillGaps records)
  exact ⟨numbered_ofRecords records, hsize, hget, state_ofRecords records, hpass,
    ofRecords_slots records⟩

end Thaw.Ledger
