import Thaw.Ledger.Marking
import Thaw.Proofs.Ledger.Aliases

namespace Thaw
set_option autoImplicit true

def Slot.bare (s : Slot) : Slot := { s with marks := .none }

theorem Slot.bare_eq_iff {s t : Slot} : s.bare = t.bare ↔
    s.fd = t.fd ∧ s.state = t.state ∧ s.status = t.status ∧ s.target = t.target := by
  simp [bare]

theorem Slot.mark_union (s : Slot) (a b : Marks) : (s.mark a).mark b = s.mark (a.union b) := by
  simp [mark, Marks.union, Bool.or_assoc]

theorem Slot.mark_mark (s : Slot) (marks : Marks) : (s.mark marks).mark marks = s.mark marks := by
  simp [mark_union, Marks.union]

namespace Ledger

/-- One marking, with what it sees of the file system at its time. -/
inductive MarkStep where
  | descriptor (fd : Int) (marks : Marks)
  | classPathEntry (view : FileView) (path : String)
  | classPath (view : FileView) (paths : String)
  | members (view : FileView) (dir : String)
  | extensionDirs (view : FileView) (dirs : String)
  | persistent (resources : List Resource)

def markStep (l : Ledger) : MarkStep → Ledger
  | .descriptor fd marks => l.mark fd marks
  | .classPathEntry view path => l.markClassPathEntry view path
  | .classPath view paths => l.markClassPath view paths
  | .members view dir => l.markMembers view dir
  | .extensionDirs view dirs => l.markExtensionDirs view dirs
  | .persistent resources => l.markPersistent resources

def marked (l : Ledger) (steps : List MarkStep) : Ledger := steps.foldl markStep l

variable {l l' : Ledger} {p q : Slot → Bool} {marks : Marks}

def bare (l : Ledger) : List Slot := l.slots.map Slot.bare

theorem bare_markWhere (p : Slot → Bool) (marks : Marks) (l : Ledger) :
    (l.markWhere p marks).bare = l.bare := by
  unfold bare markWhere
  rw [List.map_map]
  apply List.map_congr_left
  intro s hs
  rw [Function.comp_apply]
  split <;> rfl

theorem bare_markUnrestorable (l : Ledger) : l.markUnrestorable.bare = l.bare :=
  bare_markWhere isUnrestorable _ l

theorem bare_foldl {step : Ledger → α → Ledger} (h : ∀ l a, (step l a).bare = l.bare)
    (as : List α) : (as.foldl step l).bare = l.bare := by
  induction as generalizing l with
  | nil => rfl
  | cons a as ih => rw [List.foldl_cons, ih, h]

theorem bare_markClassPathEntry (view : FileView) (l : Ledger) (path : String) :
    (l.markClassPathEntry view path).bare = l.bare := by
  unfold markClassPathEntry
  split
  · rfl
  · exact bare_markWhere _ _ l

theorem bare_markMembers (view : FileView) (l : Ledger) (dir : String) :
    (l.markMembers view dir).bare = l.bare := by
  unfold markMembers
  split
  · rfl
  · exact bare_markWhere _ _ l

theorem bare_markPersistent (l : Ledger) (resources : List Resource) :
    (l.markPersistent resources).bare = l.bare := by
  induction resources generalizing l with
  | nil => rfl
  | cons r rest ih =>
    unfold markPersistent
    split
    · exact ih l
    · split
      · rfl
      · rw [ih, bare_markWhere]

theorem bare_markStep (l : Ledger) (step : MarkStep) : (l.markStep step).bare = l.bare := by
  cases step with
  | descriptor fd marks => exact bare_markWhere _ _ l
  | classPathEntry view path => exact bare_markClassPathEntry view l path
  | classPath view paths => exact bare_foldl (bare_markClassPathEntry view) _
  | members view dir => exact bare_markMembers view l dir
  | extensionDirs view dirs => exact bare_foldl (bare_markMembers view) _
  | persistent resources => exact bare_markPersistent l resources

theorem bare_marked (l : Ledger) (steps : List MarkStep) : (l.marked steps).bare = l.bare :=
  bare_foldl bare_markStep steps

theorem map_fd_bare (l : Ledger) : l.bare.map (·.fd) = l.slots.map (·.fd) := by
  rw [bare, List.map_map]
  rfl

theorem Numbered.of_bare_eq (hn : l.Numbered) (h : l'.bare = l.bare) : l'.Numbered := by
  have hsize : l'.size = l.size := by simpa [bare, size] using congrArg List.length h
  rw [Numbered, ← map_fd_bare, h, map_fd_bare, hsize]
  exact hn

theorem numbered_ofRecords (records : List Slot) : (ofRecords records).Numbered :=
  (numbered_arrange records).of_bare_eq (bare_markUnrestorable _)

theorem numbered_build (same : Nat → Nat → Bool) (records : List Slot) :
    (build same records).Numbered :=
  ((numbered_arrange records).detectAliases same).of_bare_eq (bare_markUnrestorable _)

theorem Numbered.marked (hn : l.Numbered) (steps : List MarkStep) : (l.marked steps).Numbered :=
  hn.of_bare_eq (bare_marked l steps)

theorem markWhere_of_none (h : ∀ s ∈ l.slots, p s = false) : l.markWhere p marks = l := by
  have hslots : (l.slots.map fun s => if p s then s.mark marks else s) = l.slots.map id := by
    apply List.map_congr_left
    intro s hs
    rw [h s hs]
    rfl
  rw [markWhere, hslots, List.map_id]

theorem markWhere_congr (h : ∀ s ∈ l.slots, p s = q s) :
    l.markWhere p marks = l.markWhere q marks := by
  unfold markWhere
  congr 1
  apply List.map_congr_left
  intro s hs
  rw [h s hs]

/-- What is selected apart from the marks can be marked in one go. -/
theorem markWhere_markWhere (h : ∀ s, q (s.mark marks) = q s) :
    (l.markWhere p marks).markWhere q marks = l.markWhere (fun s => p s || q s) marks := by
  simp only [markWhere, List.map_map, Ledger.mk.injEq]
  apply List.map_congr_left
  intro s _
  rw [Function.comp_apply]
  by_cases hp : p s = true
  · simp [hp, h, Slot.mark_mark]
  · simp [hp]

theorem foldl_markWhere {selects : α → Slot → Bool}
    (h : ∀ a s, selects a (s.mark marks) = selects a s) (as : List α) (l : Ledger) :
    as.foldl (fun l a => l.markWhere (selects a) marks) l =
      l.markWhere (fun s => as.any fun a => selects a s) marks := by
  induction as generalizing l with
  | nil => exact (markWhere_of_none fun _ _ => rfl).symm
  | cons a as ih =>
    rw [List.foldl_cons, ih]
    apply markWhere_markWhere
    intro s
    simp only [h]

end Ledger

end Thaw
