import Thaw.Registry

namespace Thaw.Registry
set_option autoImplicit true

variable {entries : List Resource} {reg : Registry}

/-- Strictly ascending descriptors, hence at most one entry for each. -/
def Ascending (entries : List Resource) : Prop := entries.Pairwise fun r s => r.fd < s.fd

theorem Ascending.getElem_lt (h : Ascending entries)
    (hj : j < entries.length) (hij : i < j) : entries[i].fd < entries[j].fd :=
  List.pairwise_iff_getElem.1 h i j _ hj hij

theorem Ascending.eq_of_fd_eq (h : Ascending entries) (hr : r ∈ entries) (hs : s ∈ entries)
    (he : r.fd = s.fd) : r = s := by
  obtain ⟨i, hi, rfl⟩ := List.mem_iff_getElem.1 hr
  obtain ⟨j, hj, rfl⟩ := List.mem_iff_getElem.1 hs
  rcases Nat.lt_trichotomy i j with hij | rfl | hij
  · have := h.getElem_lt hj hij
    omega
  · rfl
  · have := h.getElem_lt hi hij
    omega

/-- What the end of a search tells about the entries. -/
def Position.Marks (entries : List Resource) (fd : Int) : Position → Prop
  | found index => ∃ before r after,
      entries = before ++ r :: after ∧ before.length = index ∧ r.fd = fd
  | missing index => ∃ before after, entries = before ++ after ∧ before.length = index ∧
      (∀ r ∈ before, r.fd < fd) ∧ ∀ r ∈ after, fd < r.fd

theorem marks_found (hi : i < entries.length) (he : entries[i].fd = fd) :
    (Position.found i).Marks entries fd := by
  refine ⟨entries.take i, entries[i], entries.drop (i + 1), ?_, ?_, he⟩
  · rw [← List.drop_eq_getElem_cons hi, List.take_append_drop]
  · rw [List.length_take]
    omega

/-- The search keeps to the window outside of which the descriptor cannot stand. -/
theorem seek_marks (h : Ascending entries) {inside : high ≤ entries.length} (hwindow : low ≤ high)
    (hlow : ∀ r ∈ entries.take low, r.fd < fd)
    (hhigh : ∀ r ∈ entries.drop high, fd < r.fd) :
    (seek entries fd low high inside).Marks entries fd := by
  fun_induction seek entries fd low high inside with
  | case1 low high inside hopen middle hmiddle he => exact marks_found hmiddle he
  | case2 low high inside hopen middle hmiddle hne hlt ih =>
    have hm : middle = low + (high - low) / 2 := rfl
    apply ih (by omega) _ hhigh
    intro r hr
    obtain ⟨i, hi, rfl⟩ := List.mem_take_iff_getElem.1 hr
    rcases Nat.lt_or_eq_of_le (show i ≤ middle by omega) with him | rfl
    · exact Int.lt_trans (h.getElem_lt hmiddle him) hlt
    · exact hlt
  | case3 low high inside hopen middle hmiddle hne hlt ih =>
    have hm : middle = low + (high - low) / 2 := rfl
    apply ih (by omega) hlow
    intro r hr
    obtain ⟨i, hi, rfl⟩ := List.mem_drop_iff_getElem.1 hr
    have hgt : fd < entries[middle].fd := by omega
    rcases Nat.eq_zero_or_pos i with rfl | hpos
    · simpa using hgt
    · have hmi : middle < middle + i := by omega
      exact Int.lt_trans hgt (h.getElem_lt (Nat.add_comm i middle ▸ hi) hmi)
  | case4 low high inside hclosed =>
    have he : high = low := by omega
    subst high
    exact ⟨entries.take low, entries.drop low, (List.take_append_drop _ _).symm,
      List.length_take_of_le inside, hlow, hhigh⟩

theorem position_marks (h : Ascending reg.entries) (fd : Int) :
    (reg.position fd).Marks reg.entries fd :=
  seek_marks h (Nat.zero_le _) (by simp) (by simp)

theorem filter_of_apart {before after : List Resource} (hlow : ∀ s ∈ before, s.fd < fd)
    (hhigh : ∀ s ∈ after, fd < s.fd) :
    (before ++ after).filter (fun s => s.fd ≠ fd) = before ++ after := by
  apply List.filter_eq_self.2
  intro s hs
  apply decide_eq_true
  rcases List.mem_append.1 hs with hs | hs
  · exact Int.ne_of_lt (hlow s hs)
  · exact Int.ne_of_gt (hhigh s hs)

theorem insertIdx_append (before after : List Resource) (r : Resource) :
    (before ++ after).insertIdx before.length r = before ++ r :: after := by
  induction before with
  | nil => rfl
  | cons s before ih => simp only [List.cons_append, List.length_cons, List.insertIdx_succ_cons, ih]

/-- A registration puts its resource between the entries below and above, whether or not it takes
the place of another one. -/
theorem entries_register (h : Ascending reg.entries) (he : reg.isEnabled = true) (hr : 0 ≤ r.fd) :
    ∃ before after, (reg.register r).entries = before ++ r :: after ∧
      before ++ after = reg.entries.filter (fun s => s.fd ≠ r.fd) ∧
      (∀ s ∈ before, s.fd < r.fd) ∧ ∀ s ∈ after, r.fd < s.fd := by
  have hmarks := position_marks h r.fd
  unfold register
  rw [he, decide_eq_true hr, Bool.and_self, if_pos rfl]
  cases hp : reg.position r.fd with
  | found index =>
    rw [hp] at hmarks
    obtain ⟨before, t, after, hentries, rfl, ht⟩ := hmarks
    rw [hentries] at h ⊢
    obtain ⟨hbefore, hafter, hcross⟩ := List.pairwise_append.1 h
    have hlow : ∀ s ∈ before, s.fd < r.fd := fun s hs => ht ▸ hcross s hs t List.mem_cons_self
    have hhigh : ∀ s ∈ after, r.fd < s.fd := fun s hs => ht ▸ List.rel_of_pairwise_cons hafter hs
    refine ⟨before, after, by simp, ?_, hlow, hhigh⟩
    rw [List.filter_append, List.filter_cons_of_neg (by simp [ht]), ← List.filter_append,
      filter_of_apart hlow hhigh]
  | missing index =>
    rw [hp] at hmarks
    obtain ⟨before, after, hentries, rfl, hlow, hhigh⟩ := hmarks
    rw [hentries]
    refine ⟨before, after, ?_, (filter_of_apart hlow hhigh).symm, hlow, hhigh⟩
    exact insertIdx_append before after r

theorem mem_entries_register (h : Ascending reg.entries) (he : reg.isEnabled = true)
    (hr : 0 ≤ r.fd) (s : Resource) :
    s ∈ (reg.register r).entries ↔ s = r ∨ s ∈ reg.entries ∧ s.fd ≠ r.fd := by
  obtain ⟨before, after, hnew, hold, -, -⟩ := entries_register h he hr
  have hs : s ∈ before ++ after ↔ s ∈ reg.entries ∧ s.fd ≠ r.fd := by
    rw [hold, List.mem_filter, decide_eq_true_iff]
  rw [hnew, ← hs, List.mem_append, List.mem_append, List.mem_cons, or_left_comm]

theorem register_of_ignored (h : ¬ (reg.isEnabled = true ∧ 0 ≤ r.fd)) : reg.register r = reg := by
  unfold register
  rw [if_neg (by simpa using h)]

theorem Ascending.register (h : Ascending reg.entries) (r : Resource) :
    Ascending (reg.register r).entries := by
  by_cases hr : reg.isEnabled = true ∧ 0 ≤ r.fd
  · obtain ⟨before, after, hnew, hold, hlow, hhigh⟩ := entries_register h hr.1 hr.2
    have hrest : Ascending (before ++ after) := hold ▸ h.sublist List.filter_sublist
    obtain ⟨hbefore, hafter, hcross⟩ := List.pairwise_append.1 hrest
    rw [hnew]
    refine List.pairwise_append.2 ⟨hbefore, hafter.cons hhigh, fun s hs t ht => ?_⟩
    rcases List.mem_cons.1 ht with rfl | ht
    · exact hlow s hs
    · exact hcross s hs t ht
  · rwa [register_of_ignored hr]

theorem Ascending.deregister (h : Ascending reg.entries) (r : Resource) :
    Ascending (reg.deregister r).entries := by
  unfold Registry.deregister
  split
  · exact h.sublist List.erase_sublist
  · exact h

theorem mem_entries_deregister (h : Ascending reg.entries) (he : reg.isEnabled = true)
    (r s : Resource) : s ∈ (reg.deregister r).entries ↔ s ≠ r ∧ s ∈ reg.entries := by
  have hnodup : reg.entries.Nodup := h.imp fun hlt he => by
    rw [he] at hlt
    exact Int.lt_irrefl _ hlt
  rw [Registry.deregister, if_pos he]
  exact hnodup.mem_erase_iff

theorem get?_eq_some_iff (h : Ascending reg.entries) :
    reg.get? fd = some r ↔ r ∈ reg.entries ∧ r.fd = fd := by
  have hmarks := position_marks h fd
  unfold get?
  cases hp : reg.position fd with
  | found index =>
    rw [hp] at hmarks
    obtain ⟨before, t, after, hentries, rfl, ht⟩ := hmarks
    have hget : reg.entries[before.length]? = some t := by simp [hentries]
    have hmem : t ∈ reg.entries := by simp [hentries]
    simp only [hget, Option.some.injEq]
    constructor
    · rintro rfl
      exact ⟨hmem, ht⟩
    · rintro ⟨hr, he⟩
      exact h.eq_of_fd_eq hmem hr (ht.trans he.symm)
  | missing index =>
    rw [hp] at hmarks
    obtain ⟨before, after, hentries, rfl, hlow, hhigh⟩ := hmarks
    refine iff_of_false (fun hget => by cases hget) ?_
    rintro ⟨hr, rfl⟩
    rw [hentries] at hr
    rcases List.mem_append.1 hr with hr | hr
    · exact Int.lt_irrefl _ (hlow r hr)
    · exact Int.lt_irrefl _ (hhigh r hr)

end Thaw.Registry
