import Thaw.Proofs.Classification.Report
import Thaw.Proofs.Ledger.Aliases

namespace Thaw
set_option autoImplicit true

open Ledger (MarkStep Sharing leader folded)

/-- Open descriptors, each known and recorded once, and which of them share an open file. -/
structure OpenTable (same : Nat → Nat → Bool) (records : List Slot) : Prop where
  distinct : (records.map (·.fd)).Nodup
  isRoot : ∀ r ∈ records, r.isRoot = true
  isKnown : ∀ r ∈ records, r.status.isSome = true
  sharing : Sharing same records

namespace OpenTable

variable {same : Nat → Nat → Bool} {records : List Slot} {r s : Slot}

def roots (records : List Slot) : List Slot := (Ledger.arrange records).slots.filter (·.isRoot)

abbrev lowest (same : Nat → Nat → Bool) (records : List Slot) (r : Slot) : Slot :=
  leader same (roots records) r

theorem ascending_roots (records : List Slot) : Ledger.Ascending (roots records) :=
  (Ledger.numbered_arrange records).ascending.filter _

theorem mem_roots_iff (h : OpenTable same records) : s ∈ roots records ↔ s ∈ records := by
  rw [roots, List.mem_filter, Ledger.mem_arrange_iff h.distinct]
  constructor
  · rintro ⟨hs | ⟨he, -⟩, hroot⟩
    · exact hs
    · rw [he] at hroot
      cases hroot
  · exact fun hs => ⟨.inl hs, h.isRoot s hs⟩

theorem sharing_roots (h : OpenTable same records) : Sharing same (roots records) :=
  h.sharing.subset fun _ hs => h.mem_roots_iff.1 hs

theorem lowest_spec (h : OpenTable same records) (hr : r ∈ records) :
    lowest same records r ∈ records ∧ same r.fd (lowest same records r).fd = true ∧
      ∀ t ∈ records, same r.fd t.fd = true → (lowest same records r).fd ≤ t.fd := by
  obtain ⟨hm, hrm, hle⟩ :=
    h.sharing_roots.leader_spec (ascending_roots records) (h.mem_roots_iff.2 hr)
  exact ⟨h.mem_roots_iff.1 hm, hrm, fun t ht => hle t (h.mem_roots_iff.2 ht)⟩

theorem lowest_congr (h : OpenTable same records) (hr : r ∈ records) (hs : s ∈ records)
    (hrs : same r.fd s.fd = true) : lowest same records r = lowest same records s :=
  h.sharing_roots.leader_congr (ascending_roots records) (h.mem_roots_iff.2 hr)
    (h.mem_roots_iff.2 hs) hrs

theorem lowest_lowest (h : OpenTable same records) (hr : r ∈ records) :
    lowest same records (lowest same records r) = lowest same records r :=
  h.sharing_roots.leader_leader (ascending_roots records) (h.mem_roots_iff.2 hr)

theorem numbered_build (same : Nat → Nat → Bool) (records : List Slot) (steps : List MarkStep) :
    ((Ledger.build same records).marked steps).Numbered :=
  (Ledger.numbered_build same records).marked steps

theorem bare_build (h : OpenTable same records) (steps : List MarkStep) :
    ((Ledger.build same records).marked steps).bare =
      (Ledger.arrange records).slots.map fun s => (folded same (roots records) s).bare := by
  rw [Ledger.bare_marked, Ledger.build, Ledger.bare_markUnrestorable, Ledger.bare,
    h.sharing_roots.slots_detectAliases (Ledger.numbered_arrange records).ascending, List.map_map]
  rfl

theorem exists_slot (h : OpenTable same records) (steps : List MarkStep) (hr : r ∈ records) :
    ∃ s ∈ ((Ledger.build same records).marked steps).slots,
      s.bare = (folded same (roots records) r).bare := by
  have hmem : (folded same (roots records) r).bare ∈
      ((Ledger.build same records).marked steps).bare := by
    rw [h.bare_build]
    exact List.mem_map_of_mem (f := fun s => (folded same (roots records) s).bare)
      ((Ledger.mem_arrange_iff h.distinct).2 (.inl hr))
  exact List.mem_map.1 hmem

theorem slot_of_lowest (h : OpenTable same records) (steps : List MarkStep) (hr : r ∈ records)
    (hlow : lowest same records r = r) :
    ∃ s ∈ ((Ledger.build same records).marked steps).slots,
      s.fd = r.fd ∧ s.state = .root ∧ ∃ status, s.status = some status := by
  obtain ⟨s, hs, hbare⟩ := h.exists_slot steps hr
  rw [Ledger.folded_of_leader hlow] at hbare
  obtain ⟨hfd, hstate, hstatus, -⟩ := Slot.bare_eq_iff.1 hbare
  rw [(Slot.isRoot_iff r).1 (h.isRoot r hr)] at hstate
  exact ⟨s, hs, hfd, hstate, hstatus ▸ Option.isSome_iff_exists.1 (h.isKnown r hr)⟩

theorem slot_of_other (h : OpenTable same records) (steps : List MarkStep) (hr : r ∈ records)
    (hother : lowest same records r ≠ r) :
    ∃ s ∈ ((Ledger.build same records).marked steps).slots, s.fd = r.fd ∧
      s.state = .aliasOf (lowest same records r).fd ∧ ∃ status, s.status = some status := by
  obtain ⟨s, hs, hbare⟩ := h.exists_slot steps hr
  rw [Ledger.folded_of_other (h.isRoot r hr) hother] at hbare
  obtain ⟨hfd, hstate, hstatus, -⟩ := Slot.bare_eq_iff.1 hbare
  exact ⟨s, hs, hfd, hstate, hstatus ▸ Option.isSome_iff_exists.1 (h.isKnown r hr)⟩

/-- No alias and no gap passes for a root. -/
theorem lowest_of_root {steps : List MarkStep} (h : OpenTable same records)
    (hs : s ∈ ((Ledger.build same records).marked steps).slots) (hroot : s.isRoot = true) :
    ∃ r ∈ records, lowest same records r = r ∧ s.fd = r.fd := by
  have hmem : s.bare ∈ ((Ledger.build same records).marked steps).bare := List.mem_map_of_mem hs
  rw [h.bare_build] at hmem
  obtain ⟨r, hr, he⟩ := List.mem_map.1 hmem
  have hstate : (folded same (roots records) r).state = .root :=
    (Slot.bare_eq_iff.1 he).2.1.trans ((Slot.isRoot_iff s).1 hroot)
  cases hr' : r.isRoot with
  | false =>
    rw [Ledger.folded_of_not_root hr', ← Slot.isRoot_iff, hr'] at hstate
    cases hstate
  | true =>
    by_cases hlow : lowest same records r = r
    · rw [Ledger.folded_of_leader hlow] at he
      have hmem' := h.mem_roots_iff.1 (List.mem_filter.2 ⟨hr, hr'⟩)
      exact ⟨r, hmem', hlow, (Slot.bare_eq_iff.1 he).1.symm⟩
    · rw [Ledger.folded_of_other hr' hlow] at hstate
      cases hstate

variable {p : Policy} {steps : List MarkStep}

theorem lowest_of_blocker (h : OpenTable same records)
    (hb : b ∈ (classify p ((Ledger.build same records).marked steps)).blockers) :
    ∃ r ∈ records, lowest same records r = r ∧ b.fd = r.fd := by
  obtain ⟨s, hs, status, hroot, hstatus, -, rfl⟩ := mem_blockers_iff.1 hb
  obtain ⟨r, hr, hlow, hfd⟩ := h.lowest_of_root hs hroot
  exact ⟨r, hr, hlow, congrArg Int.ofNat hfd⟩

theorem same_blocker_iff (h : OpenTable same records) (hr : r ∈ records)
    (hb : b ∈ (classify p ((Ledger.build same records).marked steps)).blockers) :
    same r.fd b.fd.toNat = true ↔ b.fd = (lowest same records r).fd := by
  obtain ⟨t, ht, hlow, hfd⟩ := h.lowest_of_blocker hb
  rw [hfd, Int.toNat_natCast, Int.ofNat_inj]
  constructor
  · intro hsame
    rw [h.lowest_congr hr ht hsame, hlow]
  · intro he
    rw [he]
    exact (h.lowest_spec hr).2.1

end OpenTable

variable {same : Nat → Nat → Bool} {records : List Slot}

/-- Whatever is marked afterwards, each open file is judged by its lowest descriptor alone: it
blocks the checkpoint once or, if exempt, not at all, and its other descriptors are duplicates. -/
theorem classify_build (h : OpenTable same records) (steps : List MarkStep) (p : Policy) :
    let l := (Ledger.build same records).marked steps
    let report := classify p l
    (∀ b ∈ report.blockers, ∃ r ∈ records, b.fd = r.fd) ∧
      ∀ r ∈ records, ∃ root ∈ records,
        (same r.fd root.fd = true ∧ ∀ t ∈ records, same r.fd t.fd = true → root.fd ≤ t.fd) ∧
        (∃ s status, l.get? root.fd = some s ∧ s.status = some status ∧
          (p.Exempts s status →
            report.blockers.filter (fun b => same r.fd b.fd.toNat) = []) ∧
          (¬ p.Exempts s status →
            (report.blockers.filter fun b => same r.fd b.fd.toNat).map (·.fd) =
              [(root.fd : Int)])) ∧
        (∃ verdict, (report.decisions.filter fun d => d.fd == root.fd).map (·.verdict) =
          [verdict] ∧ ∀ fd, verdict ≠ .duplicate fd) ∧
        ∀ t ∈ records, same r.fd t.fd = true → t.fd ≠ root.fd →
          (report.decisions.filter fun d => d.fd == t.fd).map (·.verdict) =
            [.duplicate root.fd] := by
  intro l report
  have hn : l.Numbered := OpenTable.numbered_build same records steps
  constructor
  · intro b hb
    obtain ⟨r, hr, -, hfd⟩ := h.lowest_of_blocker hb
    exact ⟨r, hr, hfd⟩
  intro r hr
  obtain ⟨hm, hrm, hle⟩ := h.lowest_spec hr
  obtain ⟨s, hs, hfd, hstate, status, hstatus⟩ :=
    h.slot_of_lowest steps hm (h.lowest_lowest hr)
  have hclass : ∀ b ∈ report.blockers, same r.fd b.fd.toNat = true ↔ b.fd = s.fd := by
    intro b hb
    rw [hfd]
    exact h.same_blocker_iff hr hb
  refine ⟨_, hm, ⟨hrm, hle⟩, ⟨s, status, hn.get?_eq_some_iff.2 ⟨hs, hfd⟩, hstatus, ?_, ?_⟩, ?_, ?_⟩
  · exact fun he => filter_blockers_of_exempts hn hs hstatus he hclass
  · intro he
    rw [← hfd]
    exact filter_blockers_of_not_exempts hn hs ((Slot.isRoot_iff s).2 hstate) hstatus he hclass
  · refine ⟨p.judge s status, ?_, fun fd hj => ?_⟩
    · rw [← hfd]
      exact verdicts_of_slot hn hs (by simp [Slot.isClosed, hstate]) hstatus
    · rw [Policy.judge_eq_duplicate_iff, hstate] at hj
      cases hj
  · intro t ht hsame hne
    have hlow := h.lowest_congr hr ht hsame
    have hother : OpenTable.lowest same records t ≠ t := fun he => hne (by rw [hlow, he])
    obtain ⟨u, hu, hufd, hustate, ustatus, hustatus⟩ := h.slot_of_other steps ht hother
    rw [← hufd, verdicts_of_slot hn hu (by simp [Slot.isClosed, hustate]) hustatus,
      Policy.judge_of_alias hustate, hlow]

/-- A log opened as 3 and duplicated as 5, and a pipe. -/
def logAndPipe : List Slot :=
  let log : FileStatus := ⟨⟨1, 20⟩, .regular, 1, ⟨0⟩⟩
  [.opened 5 log (some "/tmp/log"), .opened 3 log (some "/tmp/log"),
    .opened 9 ⟨⟨2, 7⟩, .fifo, 1, ⟨0⟩⟩ (some "pipe:[7]")]

def sharesLog (fd other : Nat) : Bool := fd == other || fd + other == 8

theorem classify_build_logAndPipe :
    let l := (Ledger.build sharesLog logAndPipe).marked [.descriptor 3 .onlyPersistent]
    let report := classify ⟨[0, 1, 2], fun _ => false, [], false⟩ l
    OpenTable sharesLog logAndPipe ∧
      (report.decisions.filter fun d => d.fd == 5).map (·.verdict) = [.duplicate 3] := by
  have h : OpenTable sharesLog logAndPipe :=
    ⟨by decide, by decide, by decide, ⟨by decide, by decide, by decide, by decide⟩⟩
  refine ⟨h, ?_⟩
  have hall := (classify_build h [.descriptor 3 .onlyPersistent]
    ⟨[0, 1, 2], fun _ => false, [], false⟩).2
  obtain ⟨root, hroot, ⟨-, hle⟩, -, -, hdup⟩ := hall _ List.mem_cons_self
  have hlow : root.fd ≤ 3 := hle _ (List.mem_cons_of_mem _ List.mem_cons_self) rfl
  have h3 : root.fd = 3 :=
    (show ∀ r ∈ logAndPipe, r.fd ≤ 3 → r.fd = 3 by decide) root hroot hlow
  rw [h3] at hdup
  exact hdup _ List.mem_cons_self rfl (by decide)

end Thaw
