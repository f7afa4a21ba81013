import Thaw.Proofs.Classification.Exemption
import Thaw.Proofs.Ledger.Commuting

namespace Thaw
set_option autoImplicit true

theorem Slot.milder_mark_classPath (s : Slot) : s.marks.Milder (s.mark .onlyClassPath).marks where
  classPath _ := Bool.or_true _
  isPersistent h := (Bool.or_false _).trans h
  cannotRestore h := (Bool.or_false _).symm.trans h

theorem Policy.exempts_mark_classPath_iff {p : Policy} {s : Slot} {status : FileStatus} :
    p.Exempts (s.mark .onlyClassPath) status ↔
      p.Exempts s status ∨ s.marks.cannotRestore = false := by
  constructor
  · intro h
    cases h with
    | inherited h => exact .inl (.inherited h)
    | randomDevice hkind hdevice => exact .inl (.randomDevice hkind hdevice)
    | classPath _ h => exact .inr ((Bool.or_false _).symm.trans h)
    | persistent h => exact .inl (.persistent ((Bool.or_false _).symm.trans h))
    | controlSocket hkind h => exact .inl (.controlSocket hkind h)
  · intro h
    obtain h | h := h
    · exact h.mono ⟨List.Subset.refl _, fun _ => id⟩ rfl s.milder_mark_classPath
    · exact .classPath (Bool.or_true _) ((Bool.or_false _).trans h)

namespace Ledger

def listed (view : FileView) (dirs : String) : List FileIdentity :=
  (pathList dirs).flatMap fun dir => (view.entries? dir).getD []

def IsListed (view : FileView) (dirs : String) (s : Slot) : Prop :=
  s.isRoot = true ∧ ∃ id ∈ listed view dirs, s.identity? = some id

/-- A root that is no entry, but has the number of one on another device. -/
def IsMistaken (view : FileView) (dirs : String) (s : Slot) : Prop :=
  s.isRoot = true ∧ ∃ id, s.identity? = some id ∧ id ∉ listed view dirs ∧
    ∃ entry ∈ listed view dirs, entry.inode = id.inode ∧ entry.device ≠ id.device

variable {view : FileView} {dirs : String} {s : Slot}

theorem IsMistaken.not_isListed (h : IsMistaken view dirs s) : ¬ IsListed view dirs s := by
  intro hlisted
  obtain ⟨-, id, hid, hmem, -⟩ := h
  obtain ⟨-, id', hmem', hid'⟩ := hlisted
  cases hid.symm.trans hid'
  exact hmem hmem'

theorem any_isMember_iff_exists : (pathList dirs).any (fun dir => isMember view dir s) = true ↔
    s.isRoot = true ∧ ∃ id, s.identity? = some id ∧
      ∃ entry ∈ listed view dirs, entry.inode = id.inode := by
  constructor
  · intro h
    obtain ⟨dir, hdir, hmember⟩ := List.any_eq_true.1 h
    obtain ⟨hroot, hmember⟩ := Bool.and_eq_true_iff.1 hmember
    obtain ⟨members, hmembers, hmember⟩ := (Option.any_eq_true _ _).1 hmember
    obtain ⟨id, hid, hmember⟩ := (Option.any_eq_true _ _).1 hmember
    obtain ⟨entry, hentry, hinode⟩ := List.any_eq_true.1 hmember
    refine ⟨hroot, id, hid, entry, List.mem_flatMap.2 ⟨dir, hdir, ?_⟩, eq_of_beq hinode⟩
    rw [hmembers]
    exact hentry
  · intro h
    obtain ⟨hroot, id, hid, entry, hentry, hinode⟩ := h
    obtain ⟨dir, hdir, hentry⟩ := List.mem_flatMap.1 hentry
    apply List.any_eq_true.2
    refine ⟨dir, hdir, ?_⟩
    cases hmembers : view.entries? dir with
    | none =>
      rw [hmembers] at hentry
      cases hentry
    | some members =>
      rw [hmembers] at hentry
      rw [isMember, hroot, hmembers, hid]
      apply List.any_eq_true.2
      exact ⟨entry, hentry, beq_iff_eq.2 hinode⟩

theorem any_isMember_iff : (pathList dirs).any (fun dir => isMember view dir s) = true ↔
    IsListed view dirs s ∨ IsMistaken view dirs s := by
  rw [any_isMember_iff_exists]
  constructor
  · intro h
    obtain ⟨hroot, id, hid, entry, hentry, hinode⟩ := h
    by_cases hmem : id ∈ listed view dirs
    · exact .inl ⟨hroot, id, hmem, hid⟩
    · -- On the same device the entry would be the file itself.
      refine .inr ⟨hroot, id, hid, hmem, entry, hentry, hinode, ?_⟩
      intro hdevice
      apply hmem
      obtain ⟨device, inode⟩ := id
      cases hinode
      cases hdevice
      exact hentry
  · intro h
    obtain ⟨hroot, id, hmem, hid⟩ | ⟨hroot, id, hid, -, entry, hentry, hinode, -⟩ := h
    · exact ⟨hroot, id, hid, id, hmem, rfl⟩
    · exact ⟨hroot, id, hid, entry, hentry, hinode⟩

theorem slots_markExtensionDirs (view : FileView) (l : Ledger) (dirs : String) :
    (l.markExtensionDirs view dirs).slots = l.slots.map fun s =>
      if (pathList dirs).any fun dir => isMember view dir s then s.mark .onlyClassPath else s :=
  congrArg slots (l.markStep_eq (.extensionDirs view dirs))

/-- Beside the entries of the directories, exactly the roots get the mark that share their number with
an entry on another device; no mark but this one changes. Whatever gets it and can be restored is
exempt under every policy. So only entries get it exactly where every such root has it already. -/
theorem markExtensionDirs_goes_by_inode (view : FileView) (l : Ledger) (dirs : String) :
    List.Forall₂
      (fun s s' => s'.bare = s.bare ∧
        s'.marks = { s.marks with classPath := s'.marks.classPath } ∧
        (s'.marks.classPath = true ↔
          s.marks.classPath = true ∨ IsListed view dirs s ∨ IsMistaken view dirs s) ∧
        ∀ (p : Policy) (status : FileStatus), p.Exempts s' status ↔ p.Exempts s status ∨
          (IsListed view dirs s ∨ IsMistaken view dirs s) ∧ s.marks.cannotRestore = false)
      l.slots (l.markExtensionDirs view dirs).slots ∧
    (List.Forall₂
        (fun s s' => s'.marks.classPath = true → s.marks.classPath = true ∨ IsListed view dirs s)
        l.slots (l.markExtensionDirs view dirs).slots ↔
      ∀ s ∈ l.slots, IsMistaken view dirs s → s.marks.classPath = true) := by
  rw [slots_markExtensionDirs, List.forall₂_map_right_iff, List.forall₂_map_right_iff,
    List.forall₂_same, List.forall₂_same]
  have hmarked (s : Slot) : (s.mark .onlyClassPath).marks.classPath = true := Bool.or_true _
  refine ⟨?_, ?_⟩
  · intro s _
    by_cases h : (pathList dirs).any (fun dir => isMember view dir s) = true
    · have hmember := any_isMember_iff.1 h
      rw [if_pos h]
      refine ⟨rfl, ?_, iff_of_true (hmarked s) (.inr hmember), ?_⟩
      · simp [Slot.mark, Marks.union, Marks.onlyClassPath, Marks.none]
      · intro p status
        rw [Policy.exempts_mark_classPath_iff, and_iff_right hmember]
    · have hmember := mt any_isMember_iff.2 h
      rw [if_neg h]
      refine ⟨rfl, rfl, (or_iff_left hmember).symm, ?_⟩
      intro p status
      rw [or_iff_left (fun hkept => hmember hkept.1)]
  · constructor
    · intro h s hs hmistaken
      have hlaw := h s hs
      rw [if_pos (any_isMember_iff.2 (.inr hmistaken))] at hlaw
      exact (hlaw (hmarked s)).resolve_right hmistaken.not_isListed
    · intro h s hs hclass
      by_cases hsel : (pathList dirs).any (fun dir => isMember view dir s) = true
      · obtain hlisted | hmistaken := any_isMember_iff.1 hsel
        · exact .inr hlisted
        · exact .inl (h s hs hmistaken)
      · rw [if_neg hsel] at hclass
        exact .inl hclass

/-- What opens terminals. It lies on a device of its own, where it has the number of a directory of the
system. -/
def terminalOpener : Slot :=
  .opened 0 ⟨⟨25, 2⟩, .character, 1, .make 5 2⟩ (some "/dev/pts/ptmx")

theorem markExtensionDirs_of_terminalOpener :
    let view := FileTree.standard.view FileTree.root .full
    view.identity? "/dev/pts/ptmx" = terminalOpener.identity? ∧
      ¬ IsListed view "/sys:/dev" terminalOpener ∧
      ∃ s', (markExtensionDirs view ⟨[terminalOpener]⟩ "/sys:/dev").slots = [s'] ∧
        s'.marks.classPath = true ∧ ∀ (p : Policy) (status : FileStatus), p.Exempts s' status := by
  intro view
  have hunlisted : ¬ IsListed view "/sys:/dev" terminalOpener := by
    unfold IsListed
    decide +kernel
  have hmarked : (markExtensionDirs view ⟨[terminalOpener]⟩ "/sys:/dev").slots =
      [terminalOpener.mark .onlyClassPath] := by decide +kernel
  refine ⟨by decide +kernel, hunlisted, _, hmarked, rfl, ?_⟩
  intro p status
  exact Policy.exempts_mark_classPath_iff.2 (.inr rfl)

end Ledger

end Thaw
