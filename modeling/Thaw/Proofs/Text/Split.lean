import Thaw.Text.Split

namespace Thaw.Text
set_option autoImplicit true

theorem cut?_append_cons {p : α → Bool} (hb : ∀ b ∈ before, p b = false) (ha : p a = true) :
    cut? p (before ++ a :: after) = some (before, after) := by
  induction before with
  | nil => simp [cut?, ha]
  | cons b before ih =>
    have h := ih fun c hc => hb c (List.mem_cons_of_mem _ hc)
    simp [cut?, hb b List.mem_cons_self, h]

theorem cut?_eq_some_iff {p : α → Bool} : cut? p as = some (before, after) ↔
    ∃ a, p a = true ∧ as = before ++ a :: after ∧ ∀ b ∈ before, p b = false := by
  constructor
  · intro h
    induction as generalizing before with
    | nil => cases h
    | cons a as ih =>
      simp only [cut?] at h
      split at h
      case isTrue ha =>
        cases h
        exact ⟨a, ha, rfl, by simp⟩
      case isFalse ha =>
        obtain ⟨⟨before', after'⟩, hcut, he⟩ := Option.map_eq_some_iff.1 h
        cases he
        obtain ⟨m, hm, has, hfree⟩ := ih hcut
        refine ⟨m, hm, by rw [has]; rfl, fun b hb => ?_⟩
        rcases List.mem_cons.1 hb with rfl | hb
        · exact Bool.eq_false_iff.2 ha
        · exact hfree b hb
  · rintro ⟨a, ha, rfl, hfree⟩
    exact cut?_append_cons hfree ha

theorem split_cons_mark {p : α → Bool} (ha : p a = true) (as : List α) :
    split p (a :: as) = [] :: split p as := by
  simp [split, ha]

theorem split_cons_other {p : α → Bool} (ha : p a = false) (as : List α) :
    ∃ piece pieces, split p as = piece :: pieces ∧ split p (a :: as) = (a :: piece) :: pieces :=
  ⟨_, _, rfl, by simp [split, ha]⟩

theorem split_append_mark {p : α → Bool} (ha : p a = true) (before after : List α) :
    split p (before ++ a :: after) = split p before ++ split p after := by
  induction before with
  | nil => exact split_cons_mark ha after
  | cons b before ih =>
    by_cases hb : p b = true
    · rw [List.cons_append, split_cons_mark hb, split_cons_mark hb, ih, List.cons_append]
    · have hb := Bool.eq_false_iff.2 hb
      obtain ⟨piece, pieces, hs, hs'⟩ := split_cons_other hb before
      obtain ⟨_, _, ht, ht'⟩ := split_cons_other hb (before ++ a :: after)
      rw [ih, hs] at ht
      cases ht
      rw [List.cons_append, ht', hs']
      rfl

theorem split_of_free {p : α → Bool} (h : ∀ a ∈ as, p a = false) : split p as = [as] := by
  induction as with
  | nil => rfl
  | cons a as ih =>
    have hs := ih fun b hb => h b (List.mem_cons_of_mem _ hb)
    obtain ⟨piece, pieces, hp, hp'⟩ := split_cons_other (h a List.mem_cons_self) as
    cases hp.symm.trans hs
    exact hp'

theorem split_append_cons {p : α → Bool} (hb : ∀ b ∈ before, p b = false) (ha : p a = true)
    (after : List α) : split p (before ++ a :: after) = before :: split p after := by
  rw [split_append_mark ha, split_of_free hb]
  rfl

theorem forall_beq_false_iff [BEq α] [LawfulBEq α] {m : α} {as : List α} :
    (∀ a ∈ as, (a == m) = false) ↔ m ∉ as := by
  simp only [beq_eq_false_iff_ne]
  exact ⟨fun h hm => h m hm rfl, fun h a ha he => h (he ▸ ha)⟩

/-- The pieces of a list that ends in a mark, apart from the empty last one: each of them is
followed by a mark and holds none. -/
theorem split_eq_append_nil_iff [BEq α] [LawfulBEq α] (as : List α) (m : α)
    (pieces : List (List α)) :
    split (· == m) as = pieces ++ [[]] ↔
      as = pieces.flatMap (· ++ [m]) ∧ ∀ piece ∈ pieces, m ∉ piece := by
  have hcut {before after : List α} (h : m ∉ before) :
      split (· == m) (before ++ m :: after) = before :: split (· == m) after :=
    split_append_cons (forall_beq_false_iff.2 h) (beq_self_eq_true m) after
  constructor
  · intro h
    induction pieces generalizing as with
    | nil =>
      by_cases hm : m ∈ as
      · obtain ⟨before, after, rfl, hfree⟩ := List.eq_append_cons_of_mem hm
        rw [hcut hfree] at h
        simp [split] at h
      · rw [split_of_free (forall_beq_false_iff.2 hm)] at h
        exact ⟨by simpa using h, by simp⟩
    | cons piece pieces ih =>
      by_cases hm : m ∈ as
      · obtain ⟨before, after, rfl, hfree⟩ := List.eq_append_cons_of_mem hm
        rw [hcut hfree, List.cons_append] at h
        injection h with hpiece hrest
        obtain ⟨hafter, hpieces⟩ := ih _ hrest
        refine ⟨?_, List.forall_mem_cons.2 ⟨hpiece ▸ hfree, hpieces⟩⟩
        rw [hpiece, hafter]
        simp
      · rw [split_of_free (forall_beq_false_iff.2 hm)] at h
        simp at h
  · rintro ⟨rfl, hfree⟩
    induction pieces with
    | nil => rfl
    | cons piece pieces ih =>
      obtain ⟨hpiece, hpieces⟩ := List.forall_mem_cons.1 hfree
      rw [List.flatMap_cons, List.append_assoc, List.singleton_append, hcut hpiece, ih hpieces]
      rfl

/-- The last piece stands behind the last mark. -/
def IsLastPiece (m : α) (as last : List α) : Prop :=
  m ∉ last ∧ (as = last ∨ ∃ before, as = before ++ m :: last)

theorem getLastD_split [BEq α] [LawfulBEq α] {m : α} {as last : List α}
    (h : IsLastPiece m as last) : (split (· == m) as).getLastD [] = last := by
  obtain ⟨hlast, h⟩ := h
  have hpiece := split_of_free (forall_beq_false_iff.2 hlast)
  cases h with
  | inl h => rw [h, hpiece]; rfl
  | inr h =>
    obtain ⟨before, rfl⟩ := h
    rw [split_append_mark (p := (· == m)) (beq_self_eq_true m), hpiece, List.getLastD_concat]

theorem exists_isLastPiece [DecidableEq α] (m : α) (as : List α) : ∃ last, IsLastPiece m as last := by
  induction as with
  | nil => exact ⟨[], List.not_mem_nil, .inl rfl⟩
  | cons a as ih =>
    obtain ⟨last, hlast, h⟩ := ih
    cases h with
    | inl h =>
      subst h
      by_cases ha : a = m
      · exact ⟨as, hlast, .inr ⟨[], by rw [ha]; rfl⟩⟩
      · exact ⟨a :: as, List.not_mem_cons_of_ne_of_not_mem (Ne.symm ha) hlast, .inl rfl⟩
    | inr h =>
      obtain ⟨before, rfl⟩ := h
      exact ⟨last, hlast, .inr ⟨a :: before, rfl⟩⟩

theorem getLastD_split_eq_iff [DecidableEq α] {m : α} {as last : List α} :
    (split (· == m) as).getLastD [] = last ↔ IsLastPiece m as last := by
  constructor
  · intro h
    obtain ⟨last', hlast⟩ := exists_isLastPiece m as
    rw [getLastD_split hlast] at h
    rwa [← h]
  · exact getLastD_split

theorem occurs_iff_infix [BEq α] [LawfulBEq α] {pattern as : List α} :
    occurs pattern as = true ↔ pattern <:+: as := by
  induction as with
  | nil => rw [occurs, List.isEmpty_iff, List.infix_nil]
  | cons a as ih => rw [occurs, Bool.or_eq_true, ih, List.isPrefixOf_iff_prefix, List.infix_cons_iff]

end Thaw.Text
