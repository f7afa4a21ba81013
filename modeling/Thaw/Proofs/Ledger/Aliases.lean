import Thaw.Proofs.Ledger.Slots

namespace Thaw.Ledger
set_option autoImplicit true

variable {same : Nat → Nat → Bool} {table before after : List Slot} {s t : Slot}

/-- On the descriptors of a table, `same` is an equivalence that tells files apart. -/
structure Sharing (same : Nat → Nat → Bool) (table : List Slot) : Prop where
  refl : ∀ s ∈ table, same s.fd s.fd = true
  symm : ∀ s ∈ table, ∀ t ∈ table, same s.fd t.fd = true → same t.fd s.fd = true
  trans : ∀ s ∈ table, ∀ t ∈ table, ∀ u ∈ table,
    same s.fd t.fd = true → same t.fd u.fd = true → same s.fd u.fd = true
  identity : ∀ s ∈ table, ∀ t ∈ table, same s.fd t.fd = true → s.identity? = t.identity?

theorem Sharing.subset (h : Sharing same table) (hsub : table' ⊆ table) : Sharing same table' where
  refl s hs := h.refl s (hsub hs)
  symm s hs t ht := h.symm s (hsub hs) t (hsub ht)
  trans s hs t ht u hu := h.trans s (hsub hs) t (hsub ht) u (hsub hu)
  identity s hs t ht := h.identity s (hsub hs) t (hsub ht)

def leader (same : Nat → Nat → Bool) (table : List Slot) (s : Slot) : Slot :=
  (table.find? fun t => same s.fd t.fd).getD s

theorem Sharing.leader_spec (h : Sharing same table) (hasc : Ascending table) (hs : s ∈ table) :
    leader same table s ∈ table ∧ same s.fd (leader same table s).fd = true ∧
      ∀ t ∈ table, same s.fd t.fd = true → (leader same table s).fd ≤ t.fd := by
  cases hf : table.find? fun t => same s.fd t.fd with
  | none => exact absurd (h.refl s hs) (List.find?_eq_none.1 hf s hs)
  | some root =>
    rw [leader, hf, Option.getD_some]
    exact hasc.find?_eq_some_iff.1 hf

theorem Sharing.leader_congr (h : Sharing same table) (hasc : Ascending table) (hs : s ∈ table)
    (ht : t ∈ table) (hst : same s.fd t.fd = true) :
    leader same table s = leader same table t := by
  obtain ⟨hms, hss, hles⟩ := h.leader_spec hasc hs
  obtain ⟨hmt, htt, hlet⟩ := h.leader_spec hasc ht
  have hle := hles _ hmt (h.trans s hs t ht _ hmt hst htt)
  have hge := hlet _ hms (h.trans t ht s hs _ hms (h.symm s hs t ht hst) hss)
  exact hasc.eq_of_fd_eq hms hmt (Nat.le_antisymm hle hge)

theorem Sharing.leader_leader (h : Sharing same table) (hasc : Ascending table) (hs : s ∈ table) :
    leader same table (leader same table s) = leader same table s := by
  obtain ⟨hm, hsm, -⟩ := h.leader_spec hasc hs
  exact (h.leader_congr hasc hs hm hsm).symm

theorem Ascending.mem_before (hasc : Ascending (before ++ s :: after))
    (ht : t ∈ before ++ s :: after) (hlt : t.fd < s.fd) : t ∈ before := by
  rcases List.mem_append.1 ht with ht | ht
  · exact ht
  · rcases List.mem_cons.1 ht with rfl | ht
    · exact absurd hlt (Nat.lt_irrefl _)
    · have hgt := List.rel_of_pairwise_cons (List.pairwise_append.1 hasc).2.1 ht
      omega

theorem map_fd_foldAliases (same : Nat → Nat → Bool) (roots slots : List Slot) :
    (foldAliases same roots slots).map (·.fd) = slots.map (·.fd) := by
  fun_induction foldAliases same roots slots with
  | case1 => rfl
  | case2 roots s rest hroot r hr ih => exact congrArg (s.fd :: ·) ih
  | case3 roots s rest hroot hnone ih => exact congrArg (s.fd :: ·) ih
  | case4 roots s rest hother ih => exact congrArg (s.fd :: ·) ih

theorem map_fd_detectAliases (same : Nat → Nat → Bool) (l : Ledger) :
    (l.detectAliases same).slots.map (·.fd) = l.slots.map (·.fd) :=
  map_fd_foldAliases same [] l.slots

theorem size_detectAliases (same : Nat → Nat → Bool) (l : Ledger) :
    (l.detectAliases same).size = l.size := by
  simpa [size] using congrArg List.length (map_fd_detectAliases same l)

theorem Numbered.detectAliases {l : Ledger} (h : l.Numbered) (same : Nat → Nat → Bool) :
    (l.detectAliases same).Numbered := by
  rw [Numbered, map_fd_detectAliases, size_detectAliases]
  exact h

def folded (same : Nat → Nat → Bool) (table : List Slot) (s : Slot) : Slot :=
  if s.isRoot = true ∧ leader same table s ≠ s then
    { s with state := .aliasOf (leader same table s).fd }
  else s

theorem folded_of_leader (h : leader same table s = s) : folded same table s = s :=
  if_neg fun hne => hne.2 h

theorem folded_of_other (hroot : s.isRoot = true) (h : leader same table s ≠ s) :
    folded same table s = { s with state := .aliasOf (leader same table s).fd } :=
  if_pos ⟨hroot, h⟩

theorem folded_of_not_root (hroot : s.isRoot = false) : folded same table s = s :=
  if_neg fun hne => by simp [hroot] at hne

/-- Among the leaders before a slot, the only one that shares its open file is its own. -/
theorem Sharing.find?_leaders (h : Sharing same table) (hasc : Ascending table)
    (htable : table = before ++ s :: after) :
    (before.filter fun t => leader same table t == t).find?
        (fun r => s.identity? == r.identity? && same s.fd r.fd) =
      if leader same table s = s then none else some (leader same table s) := by
  have hs : s ∈ table := by simp [htable]
  obtain ⟨hm, hsm, hle⟩ := h.leader_spec hasc hs
  -- Slots of one open file have one leader, and it is not `s` if it stands before `s`.
  have hleader : ∀ r ∈ before, leader same table r = r → same s.fd r.fd = true →
      leader same table s = r ∧ r.fd < s.fd := by
    intro r hr hlead hsr
    have hrt : r ∈ table := by simp [htable, hr]
    have hcross := (List.pairwise_append.1 (htable ▸ hasc)).2.2
    exact ⟨(h.leader_congr hasc hs hrt hsr).trans hlead, hcross r hr s List.mem_cons_self⟩
  split
  case isTrue hself =>
    rw [List.find?_eq_none]
    intro r hr hfound
    obtain ⟨hr, hlead⟩ := List.mem_filter.1 hr
    obtain ⟨-, hsr⟩ := Bool.and_eq_true_iff.1 hfound
    obtain ⟨he, hlt⟩ := hleader r hr (beq_iff_eq.1 hlead) hsr
    rw [← he, hself] at hlt
    exact Nat.lt_irrefl _ hlt
  case isFalse hother =>
    have hlt : (leader same table s).fd < s.fd := by
      refine Nat.lt_of_le_of_ne (hle s hs (h.refl s hs)) fun he => ?_
      exact hother (hasc.eq_of_fd_eq hm hs he)
    have hbefore : leader same table s ∈ before := by
      subst htable
      exact hasc.mem_before hm hlt
    cases hf : (before.filter fun t => leader same table t == t).find?
        fun r => s.identity? == r.identity? && same s.fd r.fd with
    | none =>
      have hmem : leader same table s ∈ before.filter fun t => leader same table t == t :=
        List.mem_filter.2 ⟨hbefore, beq_iff_eq.2 (h.leader_leader hasc hs)⟩
      refine absurd ?_ (List.find?_eq_none.1 hf _ hmem)
      exact Bool.and_eq_true_iff.2 ⟨beq_iff_eq.2 (h.identity s hs _ hm hsm), hsm⟩
    | some r =>
      obtain ⟨hr, hlead⟩ := List.mem_filter.1 (List.mem_of_find?_eq_some hf)
      have hfound := List.find?_some hf
      obtain ⟨-, hsr⟩ := Bool.and_eq_true_iff.1 hfound
      exact congrArg some (hleader r hr (beq_iff_eq.1 hlead) hsr).1.symm

/-- While the pass runs, the roots that it has kept are the leaders among those that it has seen. -/
theorem Sharing.foldAliases_eq (h : Sharing same table) (hasc : Ascending table) {slots : List Slot}
    (htable : table = before ++ slots.filter (·.isRoot)) :
    foldAliases same (before.filter fun t => leader same table t == t) slots =
      slots.map (folded same table) := by
  induction slots generalizing before with
  | nil => rfl
  | cons s rest ih =>
    rw [foldAliases, List.map_cons]
    cases hroot : s.isRoot with
    | false =>
      rw [List.filter_cons_of_neg (by simp [hroot])] at htable
      rw [if_neg Bool.false_ne_true, ih htable, folded_of_not_root hroot]
    | true =>
      rw [List.filter_cons_of_pos hroot] at htable
      have hrest := @ih (before ++ [s]) (by simp [htable])
      rw [List.filter_append] at hrest
      rw [if_pos rfl, h.find?_leaders hasc htable]
      by_cases hlead : leader same table s = s
      · rw [List.filter_cons_of_pos (by simp [hlead]), List.filter_nil] at hrest
        rw [if_pos hlead, folded_of_leader hlead, ← hrest]
      · rw [List.filter_cons_of_neg (by simp [hlead]), List.filter_nil, List.append_nil] at hrest
        rw [if_neg hlead, folded_of_other hroot hlead, ← hrest]

theorem Sharing.slots_detectAliases {l : Ledger} (h : Sharing same (l.slots.filter (·.isRoot)))
    (hasc : Ascending l.slots) :
    (l.detectAliases same).slots = l.slots.map (folded same (l.slots.filter (·.isRoot))) :=
  h.foldAliases_eq (hasc.filter _) (List.nil_append _).symm

end Thaw.Ledger
