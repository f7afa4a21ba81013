import Thaw.Proofs.Classification.Exemption
import Thaw.Proofs.Ledger.Marking

namespace Thaw
set_option autoImplicit true

variable {p : Policy} {l : Ledger} {s : Slot}

theorem Policy.decide?_eq_some_iff {d : Decision} :
    p.decide? s = some d ↔ ∃ status, s.status = some status ∧
      d = ⟨s.fd, status.kind, p.judge s status,
        p.details (p.judge s status) (s.target.getD "")⟩ := by
  rw [decide?, Option.map_eq_some_iff]
  simp only [eq_comm]

theorem Policy.fd_of_decide? {d : Decision} (h : p.decide? s = some d) : d.fd = s.fd := by
  obtain ⟨_, -, rfl⟩ := decide?_eq_some_iff.1 h
  rfl

theorem mem_decisions_iff {d : Decision} :
    d ∈ (classify p l).decisions ↔ ∃ s ∈ l.slots, s.isClosed = false ∧ p.decide? s = some d := by
  simp only [classify, Ledger.openSlots, List.mem_filterMap, List.mem_filter, and_assoc,
    Bool.not_eq_eq_eq_not, Bool.not_true]

theorem decisions_of_slots (p : Policy) (l : Ledger) :
    (classify p l).decisions.map (fun d => (d.fd, some d.kind)) =
      (l.slots.filter fun s => !s.isClosed && s.status.isSome).map
        fun s => (s.fd, s.status.map (·.kind)) := by
  unfold classify Ledger.openSlots
  induction l.slots with
  | nil => rfl
  | cons s rest ih =>
    cases hclosed : s.isClosed with
    | true => simpa [hclosed] using ih
    | false =>
      cases hstatus : s.status with
      | none => simpa [hclosed, hstatus, Policy.decide?] using ih
      | some status => simpa [hclosed, hstatus, Policy.decide?] using ih

theorem ascending_decisions (p : Policy) (h : l.Numbered) :
    (classify p l).decisions.Pairwise fun d e => d.fd < e.fd := by
  apply List.Pairwise.filterMap p.decide? _ (h.ascending.filter _)
  intro s t hlt d hd e he
  rw [Policy.fd_of_decide? hd, Policy.fd_of_decide? he]
  exact hlt

theorem filter_eq_singleton (key : α → β) {xs : List α}
    (hne : xs.Pairwise fun x y => key x ≠ key y) (ha : a ∈ xs)
    (hq : ∀ x ∈ xs, q x = true ↔ key x = key a) : xs.filter q = [a] := by
  obtain ⟨before, after, rfl⟩ := List.append_of_mem ha
  obtain ⟨-, hafter, hbefore⟩ := List.pairwise_append.1 hne
  have hnone : before.filter q = [] := List.filter_eq_nil_iff.2 fun x hx hqx =>
    hbefore x hx a List.mem_cons_self ((hq x (by simp [hx])).1 hqx)
  have hnone' : after.filter q = [] := List.filter_eq_nil_iff.2 fun x hx hqx =>
    List.rel_of_pairwise_cons hafter hx ((hq x (by simp [hx])).1 hqx).symm
  rw [List.filter_append, hnone, List.filter_cons_of_pos ((hq a ha).2 rfl), hnone', List.nil_append]

theorem verdicts_of_slot (h : l.Numbered) (hs : s ∈ l.slots) (hopen : s.isClosed = false)
    (hstatus : s.status = some status) :
    ((classify p l).decisions.filter fun d => d.fd == s.fd).map (·.verdict) =
      [p.judge s status] := by
  have hd := Policy.decide?_eq_some_iff (p := p).2 ⟨status, hstatus, rfl⟩
  have hmem := mem_decisions_iff.2 ⟨s, hs, hopen, hd⟩
  have hne := (ascending_decisions p h).imp Nat.ne_of_lt
  rw [filter_eq_singleton Decision.fd hne hmem fun e he => beq_iff_eq]
  rfl

theorem Policy.blocker?_of_decide? {d : Decision} (h : p.decide? s = some d) :
    d.blocker? =
      if d.verdict.isOk = true then none else some ⟨d.fd, .ofFile d.kind, d.details⟩ := by
  obtain ⟨status, hstatus, rfl⟩ := decide?_eq_some_iff.1 h
  cases hv : p.judge s status with
  | blocked kind =>
    obtain ⟨-, -, rfl⟩ := judge_eq_blocked_iff.1 hv
    rfl
  | inherited | randomDevice | classPath | persistent | controlSocket | duplicate => rfl

theorem blockers_of_decisions (p : Policy) (l : Ledger) :
    (classify p l).blockers =
      ((classify p l).decisions.filter fun d => !d.verdict.isOk).map
        fun d => (⟨d.fd, .ofFile d.kind, d.details⟩ : Blocker) := by
  change (classify p l).decisions.filterMap (·.blocker?) = _
  rw [← List.filterMap_eq_map, List.filterMap_filter]
  apply List.filterMap_congr
  intro d hd
  obtain ⟨s, -, -, hs⟩ := mem_decisions_iff.1 hd
  rw [Policy.blocker?_of_decide? hs]
  cases d.verdict.isOk <;> rfl

theorem Decision.blocker?_eq_some_iff {d : Decision} :
    d.blocker? = some b ↔ ∃ kind, d.verdict = .blocked kind ∧ b = ⟨d.fd, kind, d.details⟩ := by
  unfold blocker?
  cases d.verdict with
  | blocked kind => simp [eq_comm]
  | inherited | randomDevice | classPath | persistent | controlSocket | duplicate => simp

def Policy.block? (p : Policy) (s : Slot) : Option Blocker :=
  if s.isClosed then none else (p.decide? s).bind (·.blocker?)

theorem blockers_eq_filterMap (p : Policy) (l : Ledger) :
    (classify p l).blockers = l.slots.filterMap p.block? := by
  simp only [classify, Ledger.openSlots, List.filterMap_filterMap, List.filterMap_filter]
  apply List.filterMap_congr
  intro s _
  unfold Policy.block?
  cases s.isClosed <;> rfl

theorem Policy.block?_eq_some_iff : p.block? s = some b ↔
    ∃ status, s.isRoot = true ∧ s.status = some status ∧ ¬ p.Exempts s status ∧
      b = ⟨s.fd, .ofFile status.kind,
        p.details (.blocked (.ofFile status.kind)) (s.target.getD "")⟩ := by
  constructor
  · intro h
    unfold block? at h
    split at h
    case isTrue => cases h
    case isFalse hopen =>
      obtain ⟨d, hd, hb⟩ := Option.bind_eq_some_iff.1 h
      obtain ⟨status, hstatus, rfl⟩ := decide?_eq_some_iff.1 hd
      obtain ⟨kind, hj, rfl⟩ := Decision.blocker?_eq_some_iff.1 hb
      obtain ⟨hunshared, he, rfl⟩ := judge_eq_blocked_iff.1 hj
      refine ⟨status, ?_, hstatus, he, by rw [← hj]⟩
      cases hstate : s.state with
      | closed => exact absurd ((Slot.isClosed_iff s).2 hstate) hopen
      | root => exact (Slot.isRoot_iff s).2 hstate
      | aliasOf root => exact absurd hstate (hunshared root)
  · intro h
    obtain ⟨status, hroot, hstatus, he, rfl⟩ := h
    have hstate := (Slot.isRoot_iff s).1 hroot
    have hj : p.judge s status = .blocked (.ofFile status.kind) :=
      judge_eq_blocked_iff.2 ⟨by simp [hstate], he, rfl⟩
    have hopen : ¬ s.isClosed = true := by simp [Slot.isClosed, hstate]
    rw [block?, if_neg hopen, Option.bind_eq_some_iff]
    refine ⟨_, decide?_eq_some_iff.2 ⟨status, hstatus, rfl⟩, ?_⟩
    exact Decision.blocker?_eq_some_iff.2 ⟨_, hj, by rw [hj]⟩

theorem mem_blockers_iff {b : Blocker} :
    b ∈ (classify p l).blockers ↔ ∃ s ∈ l.slots, ∃ status, s.isRoot = true ∧
      s.status = some status ∧ ¬ p.Exempts s status ∧
      b = ⟨s.fd, .ofFile status.kind,
        p.details (.blocked (.ofFile status.kind)) (s.target.getD "")⟩ := by
  simp only [blockers_eq_filterMap, List.mem_filterMap, Policy.block?_eq_some_iff]

theorem isClean_iff (p : Policy) (l : Ledger) :
    (classify p l).isClean = true ↔ ∀ d ∈ (classify p l).decisions, d.verdict.isOk = true := by
  rw [Report.isClean, blockers_of_decisions, List.isEmpty_iff, List.map_eq_nil_iff,
    List.filter_eq_nil_iff]
  simp

theorem ascending_blockers (p : Policy) (h : l.Numbered) :
    (classify p l).blockers.Pairwise fun b c => b.fd < c.fd := by
  rw [blockers_of_decisions]
  apply List.Pairwise.map _ _ ((ascending_decisions p h).filter _)
  intro d e hlt
  exact Int.ofNat_lt.2 hlt

theorem exists_blocker_iff (h : l.Numbered) (hs : s ∈ l.slots) :
    (∃ b ∈ (classify p l).blockers, b.fd = s.fd) ↔
      s.isRoot = true ∧ ∃ status, s.status = some status ∧ ¬ p.Exempts s status := by
  constructor
  · rintro ⟨b, hb, hfd⟩
    obtain ⟨t, ht, status, hroot, hstatus, he, rfl⟩ := mem_blockers_iff.1 hb
    obtain rfl := h.ascending.eq_of_fd_eq ht hs (Int.ofNat_inj.1 hfd)
    exact ⟨hroot, status, hstatus, he⟩
  · rintro ⟨hroot, status, hstatus, he⟩
    exact ⟨_, mem_blockers_iff.2 ⟨s, hs, status, hroot, hstatus, he, rfl⟩, rfl⟩

theorem filter_blockers_of_exempts (h : l.Numbered) (hs : s ∈ l.slots)
    (hstatus : s.status = some status) (he : p.Exempts s status)
    (hq : ∀ b ∈ (classify p l).blockers, q b = true ↔ b.fd = s.fd) :
    (classify p l).blockers.filter q = [] := by
  rw [List.filter_eq_nil_iff]
  intro b hb hqb
  obtain ⟨-, status', hstatus', hnot⟩ := (exists_blocker_iff h hs).1 ⟨b, hb, (hq b hb).1 hqb⟩
  rw [hstatus, Option.some_inj] at hstatus'
  exact hnot (hstatus' ▸ he)

theorem filter_blockers_of_not_exempts (h : l.Numbered) (hs : s ∈ l.slots) (hroot : s.isRoot = true)
    (hstatus : s.status = some status) (he : ¬ p.Exempts s status)
    (hq : ∀ b ∈ (classify p l).blockers, q b = true ↔ b.fd = s.fd) :
    ((classify p l).blockers.filter q).map (·.fd) = [(s.fd : Int)] := by
  obtain ⟨b, hb, hfd⟩ := (exists_blocker_iff h hs).2 ⟨hroot, status, hstatus, he⟩
  have hne := (ascending_blockers p h).imp Int.ne_of_lt
  rw [filter_eq_singleton Blocker.fd hne hb fun c hc => hfd ▸ hq c hc]
  rw [List.map_singleton, hfd]

/-- However the slots of a ledger are marked, its report decides on each open one of which something
is known, in ascending order; blocking are exactly the roots that nothing exempts; and the blockers
are the unacceptable decisions. -/
theorem classify_marked (records : List Slot) (steps : List Ledger.MarkStep) (p : Policy) :
    let l := (Ledger.ofRecords records).marked steps
    let report := classify p l
    (report.decisions.map (fun d => (d.fd, some d.kind)) =
        (l.slots.filter fun s => !s.isClosed && s.status.isSome).map
          fun s => (s.fd, s.status.map (·.kind))) ∧
      (report.decisions.Pairwise fun d e => d.fd < e.fd) ∧
      (∀ s ∈ l.slots, (∃ b ∈ report.blockers, b.fd = s.fd) ↔
        s.isRoot = true ∧ ∃ status, s.status = some status ∧ ¬ p.Exempts s status) ∧
      (report.blockers = (report.decisions.filter fun d => !d.verdict.isOk).map
        fun d => (⟨d.fd, .ofFile d.kind, d.details⟩ : Blocker)) ∧
      (report.isClean = true ↔ ∀ d ∈ report.decisions, d.verdict.isOk = true) := by
  intro l report
  have h : l.Numbered := (Ledger.numbered_ofRecords records).marked steps
  refine ⟨decisions_of_slots p l, ascending_decisions p h, ?_, blockers_of_decisions p l,
    isClean_iff p l⟩
  intro s hs
  exact exists_blocker_iff h hs

end Thaw
