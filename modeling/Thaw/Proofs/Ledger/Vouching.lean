import Thaw.Proofs.Ledger.Marking
import Thaw.Proofs.Registry.Map

namespace Thaw
set_option autoImplicit true

/-- Whether a resource speaks for a slot: for a root with its descriptor and its identity. -/
def Resource.speaksFor (r : Resource) (s : Slot) : Bool :=
  s.fd == r.fd && s.isRoot && s.identity? == some r.identity

/-- Whether a root is the file for which a registry has its descriptor. -/
def Registry.vouchesFor (reg : Registry) (s : Slot) : Bool :=
  s.isRoot && (reg.get? s.fd).any fun r => s.identity? == some r.identity

namespace Ledger

/-- Every resource held against every slot. -/
def markEach (l : Ledger) (resources : List Resource) : Ledger :=
  resources.foldl (fun l r => l.markWhere r.speaksFor .onlyPersistent) l

variable {l : Ledger} {resources : List Resource}

theorem markEach_eq_markWhere (l : Ledger) (resources : List Resource) :
    l.markEach resources =
      l.markWhere (fun s => resources.any fun r => r.speaksFor s) .onlyPersistent :=
  foldl_markWhere (fun _ _ => rfl) resources l

theorem Numbered.fd_lt (hn : l.Numbered) (hs : s ∈ l.slots) : s.fd < l.size := by
  have hmem := List.mem_map_of_mem (f := Slot.fd) hs
  rw [hn] at hmem
  exact List.mem_range.1 hmem

theorem speaksFor_of_fd_ne {r : Resource} {s : Slot} (h : (s.fd : Int) ≠ r.fd) :
    r.speaksFor s = false := by
  simp [Resource.speaksFor, h]

/-- In whatever order the resources come, those before the first one behind the last slot count. -/
theorem markPersistent_eq_takeWhile (l : Ledger) (resources : List Resource) :
    l.markPersistent resources = l.markEach (resources.takeWhile fun r => r.fd < l.size) := by
  induction resources generalizing l with
  | nil => rfl
  | cons r rest ih =>
    -- A marking keeps the number of slots, at which the search stops.
    have hsize : (l.markWhere r.speaksFor .onlyPersistent).size = l.size := by
      simp [markWhere, size]
    have hstep : l.markEach (r :: rest.takeWhile fun r => r.fd < l.size) =
        (l.markWhere r.speaksFor .onlyPersistent).markPersistent rest := by
      rw [ih, hsize]
      rfl
    rw [markPersistent]
    split
    case isTrue hneg =>
      have hnone : l.markWhere r.speaksFor .onlyPersistent = l :=
        markWhere_of_none fun s _ => speaksFor_of_fd_ne (by omega)
      rw [List.takeWhile_cons_of_pos (by simp; omega), hstep, hnone]
    case isFalse =>
      split
      case isTrue hbehind =>
        rw [List.takeWhile_cons_of_neg (by simpa using hbehind)]
        rfl
      case isFalse hinside =>
        rw [List.takeWhile_cons_of_pos (by simpa using hinside), hstep]
        rfl

theorem mem_takeWhile_of_ascending {n : Int} (h : Registry.Ascending resources) {r : Resource}
    (hr : r ∈ resources) (hlt : r.fd < n) : r ∈ resources.takeWhile fun r => r.fd < n := by
  induction resources with
  | nil => exact hr
  | cons first rest ih =>
    obtain ⟨hfirst, hrest⟩ := List.pairwise_cons.1 h
    have hle : first.fd ≤ r.fd := by
      rcases List.mem_cons.1 hr with rfl | hr
      · exact Int.le_refl _
      · exact Int.le_of_lt (hfirst r hr)
    rw [List.takeWhile_cons_of_pos (by simp; omega)]
    rcases List.mem_cons.1 hr with rfl | hr
    · exact List.mem_cons_self
    · exact List.mem_cons_of_mem _ (ih hrest hr)

theorem markPersistent_eq_markEach (hn : l.Numbered) (h : Registry.Ascending resources) :
    l.markPersistent resources = l.markEach resources := by
  rw [markPersistent_eq_takeWhile, markEach_eq_markWhere, markEach_eq_markWhere]
  apply markWhere_congr
  intro s hs
  rw [Bool.eq_iff_iff, List.any_eq_true, List.any_eq_true]
  constructor
  · intro hany
    obtain ⟨r, hr, hspeaks⟩ := hany
    exact ⟨r, (List.takeWhile_sublist _).subset hr, hspeaks⟩
  · intro hany
    obtain ⟨r, hr, hspeaks⟩ := hany
    have hlt := hn.fd_lt hs
    have hfd : (s.fd : Int) = r.fd := by
      by_contra hne
      rw [speaksFor_of_fd_ne hne] at hspeaks
      cases hspeaks
    exact ⟨r, mem_takeWhile_of_ascending h hr (by omega), hspeaks⟩

/-- Of the entries of a registry only the one of its own descriptor can speak for a slot. -/
theorem any_speaksFor_eq {reg : Registry} (h : Registry.Ascending reg.entries) (s : Slot) :
    (reg.entries.any fun r => r.speaksFor s) = reg.vouchesFor s := by
  rw [Bool.eq_iff_iff, List.any_eq_true, Registry.vouchesFor, Bool.and_eq_true, Option.any_eq_true]
  constructor
  · rintro ⟨r, hr, hspeaks⟩
    simp only [Resource.speaksFor, Bool.and_eq_true, beq_iff_eq] at hspeaks
    obtain ⟨⟨hfd, hroot⟩, hidentity⟩ := hspeaks
    exact ⟨hroot, r, (Registry.get?_eq_some_iff h).2 ⟨hr, hfd.symm⟩, beq_iff_eq.2 hidentity⟩
  · rintro ⟨hroot, r, hget, hidentity⟩
    obtain ⟨hr, hfd⟩ := (Registry.get?_eq_some_iff h).1 hget
    refine ⟨r, hr, ?_⟩
    simp only [Resource.speaksFor, Bool.and_eq_true, beq_iff_eq]
    exact ⟨⟨hfd.symm, hroot⟩, beq_iff_eq.1 hidentity⟩

theorem slots_markWhere_onlyPersistent (p : Slot → Bool) (l : Ledger) :
    (l.markWhere p .onlyPersistent).slots = l.slots.map fun s =>
      if p s then { s with marks := { s.marks with isPersistent := true } } else s := by
  apply List.map_congr_left
  intro s _
  simp [Slot.mark, Marks.union, Marks.onlyPersistent, Marks.none]

/-- Whatever was called on a registry, what it hands out marks in a ledger the roots with the identity
that the registry has for their descriptor just before, and changes nothing else. So the search comes
to the same as every resource held against every slot. Every ledger is numbered as is asked here,
however it was made and marked. -/
theorem markPersistent_take_marks_vouched :
    (∀ (isEnabled : Bool) (calls : List Registry.Call) (l : Ledger), l.Numbered →
      let reg := (Registry.empty isEnabled).run calls
      let after := l.markPersistent reg.take.1
      after = l.markEach reg.take.1 ∧
        after.slots = l.slots.map fun s =>
          if s.isRoot && (reg.get? s.fd).any fun r => s.identity? == some r.identity then
            { s with marks := { s.marks with isPersistent := true } }
          else s) ∧
    (∀ records steps, ((ofRecords records).marked steps).Numbered) ∧
    ∀ same records steps, ((build same records).marked steps).Numbered := by
  refine ⟨fun isEnabled calls l hn => ?_, fun records steps => (numbered_ofRecords records).marked steps,
    fun same records steps => (numbered_build same records).marked steps⟩
  intro reg after
  have hlists : Registry.Lists reg.entries (calls.foldl (Registry.Vouched.step isEnabled) ∅) :=
    Registry.Lists.nil.run calls
  have heach : after = l.markEach reg.take.1 := markPersistent_eq_markEach hn hlists.ascending
  refine ⟨heach, ?_⟩
  have hvouched : after = l.markWhere reg.vouchesFor .onlyPersistent := by
    rw [heach, markEach_eq_markWhere]
    have hany := funext (any_speaksFor_eq hlists.ascending)
    exact congrArg (l.markWhere · .onlyPersistent) hany
  rw [hvouched]
  exact slots_markWhere_onlyPersistent reg.vouchesFor l

def gapped : Ledger :=
  let status (inode : UInt64) : FileStatus := ⟨⟨1, inode⟩, .regular, 1, ⟨0⟩⟩
  ofRecords [.opened 3 (status 10) (some "/a"), .opened 5 (status 12) (some "/b"),
    { Slot.opened 6 (status 12) (some "/b") with state := .aliasOf 5 }]

/-- The owners of 40, of the alias and of the closed 4 vouch in vain; 5 is vouched for as another file
at first. -/
def claimants : List Registry.Call :=
  [.register ⟨40, ⟨1, 10⟩⟩, .register ⟨6, ⟨1, 12⟩⟩, .register ⟨5, ⟨1, 99⟩⟩, .register ⟨-1, ⟨1, 10⟩⟩,
   .register ⟨4, ⟨1, 10⟩⟩, .register ⟨5, ⟨1, 12⟩⟩, .register ⟨3, ⟨2, 10⟩⟩, .deregister ⟨5, ⟨1, 99⟩⟩]

theorem markPersistent_take_marks_vouched_gapped :
    let reg := (Registry.empty true).run claimants
    gapped.Numbered ∧ (gapped.markPersistent reg.take.1).slots.map (·.marks.isPersistent) =
      [false, false, false, false, false, true, false] := by
  intro reg
  have hn : gapped.Numbered := rfl
  obtain ⟨-, hslots⟩ := markPersistent_take_marks_vouched.1 true claimants gapped hn
  refine ⟨hn, ?_⟩
  rw [hslots]
  decide +kernel

end Ledger

end Thaw
