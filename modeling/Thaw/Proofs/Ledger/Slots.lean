import Mathlib.Data.List.Nodup
import Thaw.Ledger.Basic

namespace Thaw
set_option autoImplicit true

theorem Slot.isRoot_iff (s : Slot) : s.isRoot = true ↔ s.state = .root := beq_iff_eq

theorem Slot.isClosed_iff (s : Slot) : s.isClosed = true ↔ s.state = .closed := beq_iff_eq

namespace Ledger

variable {l : Ledger} {records slots : List Slot}

/-- Strictly ascending descriptors, hence at most one slot for each. -/
def Ascending (slots : List Slot) : Prop := slots.Pairwise fun s t => s.fd < t.fd

theorem Ascending.eq_of_fd_eq (h : Ascending slots) (hs : s ∈ slots) (ht : t ∈ slots)
    (he : s.fd = t.fd) : s = t := by
  have hnodup : (slots.map (·.fd)).Nodup := List.pairwise_map.2 (h.imp Nat.ne_of_lt)
  exact List.inj_on_of_nodup_map hnodup hs ht he

/-- In ascending order the first match is the lowest one. -/
theorem Ascending.find?_eq_some_iff (h : Ascending slots) {p : Slot → Bool} :
    slots.find? p = some r ↔ r ∈ slots ∧ p r = true ∧ ∀ t ∈ slots, p t = true → r.fd ≤ t.fd := by
  rw [List.find?_eq_some_iff_append]
  constructor
  · rintro ⟨hr, before, after, rfl, hbefore⟩
    refine ⟨by simp, hr, fun t ht hpt => ?_⟩
    rcases List.mem_append.1 ht with ht | ht
    · simpa [hpt] using hbefore t ht
    · rcases List.mem_cons.1 ht with rfl | ht
      · exact Nat.le_refl _
      · exact Nat.le_of_lt (List.rel_of_pairwise_cons (List.pairwise_append.1 h).2.1 ht)
  · rintro ⟨hmem, hr, hleast⟩
    obtain ⟨before, after, rfl⟩ := List.append_of_mem hmem
    refine ⟨hr, before, after, rfl, fun t ht => ?_⟩
    have hlt : t.fd < r.fd := (List.pairwise_append.1 h).2.2 t ht r List.mem_cons_self
    cases hpt : p t with
    | false => rfl
    | true => exact absurd (hleast t (by simp [ht]) hpt) (Nat.not_le.2 hlt)

/-- Slot `fd` describes the descriptor `fd`. -/
def Numbered (l : Ledger) : Prop := l.slots.map (·.fd) = List.range l.size

theorem Numbered.ascending (h : l.Numbered) : Ascending l.slots := by
  have hrange : (l.slots.map (·.fd)).Pairwise (· < ·) := by
    rw [h]
    exact List.pairwise_lt_range
  exact List.pairwise_map.1 hrange

theorem Numbered.fd_getElem (h : l.Numbered) (hi : i < l.slots.length) : l.slots[i].fd = i := by
  have hmap : (l.slots.map (·.fd))[i]? = (List.range l.size)[i]? := by rw [h]
  rw [List.getElem?_map, List.getElem?_eq_getElem hi, size, List.getElem?_range hi] at hmap
  exact Option.some.inj hmap

theorem Numbered.getElem?_eq_some_iff (h : l.Numbered) :
    l.slots[fd]? = some s ↔ s ∈ l.slots ∧ s.fd = fd := by
  rw [List.getElem?_eq_some_iff]
  constructor
  · rintro ⟨hi, rfl⟩
    exact ⟨List.getElem_mem hi, h.fd_getElem hi⟩
  · rintro ⟨hs, rfl⟩
    obtain ⟨i, hi, rfl⟩ := List.mem_iff_getElem.1 hs
    refine ⟨by rwa [h.fd_getElem hi], ?_⟩
    simp only [h.fd_getElem hi]

theorem get?_natCast (l : Ledger) (fd : Nat) : l.get? (fd : Nat) = l.slots[fd]? := by
  rw [get?, if_pos (Int.natCast_nonneg fd), Int.toNat_natCast]

theorem Numbered.get?_eq_some_iff (h : l.Numbered) :
    l.get? (fd : Nat) = some s ↔ s ∈ l.slots ∧ s.fd = fd := by
  rw [get?_natCast, h.getElem?_eq_some_iff]

theorem Numbered.mem_take_iff (h : l.Numbered) :
    r ∈ l.slots.take i ↔ r.fd < i ∧ l.slots[r.fd]? = some r := by
  rw [List.mem_take_iff_getElem]
  constructor
  · rintro ⟨j, hj, rfl⟩
    rw [Nat.lt_min] at hj
    rw [h.fd_getElem hj.2]
    exact ⟨hj.1, List.getElem?_eq_getElem hj.2⟩
  · rintro ⟨hlt, hr⟩
    obtain ⟨hj, he⟩ := List.getElem?_eq_some_iff.1 hr
    exact ⟨r.fd, Nat.lt_min.2 ⟨hlt, hj⟩, he⟩

theorem lt_foldl_extent {start fd : Nat} :
    fd < records.foldl (fun n r => max n (r.fd + 1)) start ↔
      fd < start ∨ ∃ r ∈ records, fd ≤ r.fd := by
  induction records generalizing start with
  | nil => simp
  | cons r rest ih =>
    have hmax : fd < max start (r.fd + 1) ↔ fd < start ∨ fd ≤ r.fd := by omega
    rw [List.foldl_cons, ih, List.exists_mem_cons_iff, hmax, or_assoc]

theorem lt_extent_iff : fd < extent records ↔ ∃ r ∈ records, fd ≤ r.fd := by
  rw [extent, lt_foldl_extent]
  simp

theorem fd_find?_getD (records : List Slot) (fd : Nat) :
    ((records.find? fun r => r.fd == fd).getD (.closed fd)).fd = fd := by
  cases hf : records.find? fun r => r.fd == fd with
  | none => rfl
  | some r => simpa using List.find?_some hf

theorem numbered_arrange (records : List Slot) : (arrange records).Numbered := by
  unfold Numbered size arrange
  rw [List.map_map, List.length_map, List.length_range]
  apply List.map_id''
  exact fd_find?_getD records

theorem find?_eq_of_distinct (hd : (records.map (·.fd)).Nodup) (hr : r ∈ records) :
    records.find? (fun s => s.fd == r.fd) = some r := by
  cases hf : records.find? fun s => s.fd == r.fd with
  | none => exact absurd (beq_self_eq_true r.fd) (List.find?_eq_none.1 hf r hr)
  | some s =>
    have hs : s.fd = r.fd := by simpa using List.find?_some hf
    rw [List.inj_on_of_nodup_map hd (List.mem_of_find?_eq_some hf) hr hs]

theorem mem_arrange_iff (hd : (records.map (·.fd)).Nodup) :
    s ∈ (arrange records).slots ↔ s ∈ records ∨
      s = .closed s.fd ∧ s.fd < extent records ∧ ∀ r ∈ records, r.fd ≠ s.fd := by
  simp only [arrange, List.mem_map, List.mem_range]
  constructor
  · rintro ⟨fd, hfd, rfl⟩
    cases hf : records.find? fun r => r.fd == fd with
    | none =>
      refine .inr ⟨rfl, hfd, fun r hr he => ?_⟩
      exact List.find?_eq_none.1 hf r hr (beq_iff_eq.2 he)
    | some r => exact .inl (List.mem_of_find?_eq_some hf)
  · rintro (hs | ⟨he, hfd, hout⟩)
    · refine ⟨s.fd, lt_extent_iff.2 ⟨s, hs, Nat.le_refl _⟩, ?_⟩
      rw [find?_eq_of_distinct hd hs, Option.getD_some]
    · refine ⟨s.fd, hfd, ?_⟩
      rw [List.find?_eq_none.2 fun r hr => by simpa using hout r hr, Option.getD_none, ← he]

end Ledger

end Thaw
