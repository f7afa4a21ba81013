import Thaw.Proofs.Ledger.Vouching
import Thaw.Session

namespace Thaw
set_option autoImplicit true

namespace Marks

def join (all : List Marks) : Marks :=
  ⟨all.any (·.zipCache), all.any (·.cannotRestore), all.any (·.classPath), all.any (·.isPersistent)⟩

theorem join_cons (m : Marks) (rest : List Marks) : join (m :: rest) = m.union (join rest) := rfl

theorem join_congr {all others : List Marks} (h : ∀ m, m ∈ all ↔ m ∈ others) :
    join all = join others := by
  have hany (p : Marks → Bool) : all.any p = others.any p := by
    rw [Bool.eq_iff_iff, List.any_eq_true, List.any_eq_true]
    simp only [h]
  simp only [join, hany]

theorem union_none (m : Marks) : m.union .none = m := by
  simp [union, none]

theorem includes_union (a b : Marks) : (a.union b).includes a = true := by
  simp [includes, union, ← Bool.or_assoc]

end Marks

theorem Slot.mark_none (s : Slot) : s.mark .none = s := by
  rw [mark, Marks.union_none]

namespace Ledger

def isEntry (view : FileView) (path : String) (s : Slot) : Bool :=
  s.isRoot && (view.identity? path).any fun identity => s.identity? == some identity

def isMember (view : FileView) (dir : String) (s : Slot) : Bool :=
  s.isRoot && (view.entries? dir).any fun members =>
    s.identity?.any fun id => members.any fun m => m.inode == id.inode

namespace MarkStep

/-- The marks that a step gives. -/
def marks : MarkStep → Marks
  | descriptor _ marks => marks
  | persistent _ => .onlyPersistent
  | classPathEntry _ _ | classPath _ _ | members _ _ | extensionDirs _ _ => .onlyClassPath

/-- Whether a step gives its marks to a slot of a ledger with `size` slots. -/
def selects (size : Nat) : MarkStep → Slot → Bool
  | descriptor fd _, s => s.fd == fd && !s.isClosed
  | classPathEntry view path, s => isEntry view path s
  | classPath view paths, s => (pathList paths).any fun path => isEntry view path s
  | members view dir, s => isMember view dir s
  | extensionDirs view dirs, s => (pathList dirs).any fun dir => isMember view dir s
  | persistent resources, s =>
    (resources.takeWhile fun r => r.fd < (size : Int)).any fun r => r.speaksFor s

/-- What a step may mark: the descriptor that it names, if open, or else roots alone. -/
def Reaches : MarkStep → Slot → Prop
  | descriptor fd _, s => (s.fd : Int) = fd ∧ s.isClosed = false
  | _, s => s.isRoot = true

theorem selects_mark (size : Nat) (step : MarkStep) (s : Slot) (m : Marks) :
    step.selects size (s.mark m) = step.selects size s := by
  cases step <;> rfl

theorem reaches_of_selects {size : Nat} {step : MarkStep} {s : Slot}
    (h : step.selects size s = true) : step.Reaches s := by
  cases step with
  | descriptor fd marks => simpa [selects, Reaches] using h
  | classPathEntry view path => exact (Bool.and_eq_true_iff.1 h).1
  | members view dir => exact (Bool.and_eq_true_iff.1 h).1
  | classPath view paths =>
    obtain ⟨path, -, hpath⟩ := List.any_eq_true.1 h
    exact (Bool.and_eq_true_iff.1 hpath).1
  | extensionDirs view dirs =>
    obtain ⟨dir, -, hdir⟩ := List.any_eq_true.1 h
    exact (Bool.and_eq_true_iff.1 hdir).1
  | persistent resources =>
    obtain ⟨r, -, hspeaks⟩ := List.any_eq_true.1 h
    exact (Bool.and_eq_true_iff.1 (Bool.and_eq_true_iff.1 hspeaks).1).2

theorem Reaches.isClosed_eq_false {step : MarkStep} {s : Slot} (h : step.Reaches s) :
    s.isClosed = false := by
  have hroot (h : s.isRoot = true) : s.isClosed = false := by
    rw [Slot.isClosed, (Slot.isRoot_iff s).1 h]
    rfl
  cases step with
  | descriptor fd marks => exact h.2
  | classPathEntry | classPath | members | extensionDirs | persistent => exact hroot h

end MarkStep

variable {l : Ledger} {step : MarkStep} {steps steps' : List MarkStep} {s : Slot}

theorem markClassPathEntry_eq (view : FileView) : markClassPathEntry view =
    fun l path => l.markWhere (isEntry view path) .onlyClassPath := by
  funext l path
  unfold markClassPathEntry isEntry
  cases view.identity? path with
  | none => exact (markWhere_of_none fun s _ => by simp).symm
  | some identity => rfl

theorem markMembers_eq (view : FileView) : markMembers view =
    fun l dir => l.markWhere (isMember view dir) .onlyClassPath := by
  funext l dir
  unfold markMembers isMember
  cases view.entries? dir with
  | none => exact (markWhere_of_none fun s _ => by simp).symm
  | some members => rfl

/-- Every step marks the slots that it selects, all in the same way. -/
theorem markStep_eq (l : Ledger) (step : MarkStep) :
    l.markStep step = l.markWhere (step.selects l.size) step.marks := by
  cases step with
  | descriptor fd marks => rfl
  | classPathEntry view path => exact congrFun (congrFun (markClassPathEntry_eq view) l) path
  | classPath view paths =>
    rw [markStep, markClassPath, markClassPathEntry_eq]
    exact foldl_markWhere (fun _ _ => rfl) _ l
  | members view dir => exact congrFun (congrFun (markMembers_eq view) l) dir
  | extensionDirs view dirs =>
    rw [markStep, markExtensionDirs, markMembers_eq]
    exact foldl_markWhere (fun _ _ => rfl) _ l
  | persistent resources =>
    rw [markStep, markPersistent_eq_takeWhile, markEach_eq_markWhere]
    rfl

def given (size : Nat) (steps : List MarkStep) (s : Slot) : Marks :=
  .join ((steps.filter fun step => step.selects size s).map (·.marks))

theorem given_cons (size : Nat) (step : MarkStep) (steps : List MarkStep) (s : Slot) :
    given size (step :: steps) s =
      if step.selects size s then step.marks.union (given size steps s)
      else given size steps s := by
  unfold given
  rw [List.filter_cons]
  split
  · rw [List.map_cons, Marks.join_cons]
  · rfl

theorem given_mark (size : Nat) (steps : List MarkStep) (s : Slot) (m : Marks) :
    given size steps (s.mark m) = given size steps s := by
  simp only [given, MarkStep.selects_mark]

theorem given_congr (size : Nat) (h : ∀ step, step ∈ steps ↔ step ∈ steps') :
    given size steps = given size steps' := by
  funext s
  apply Marks.join_congr
  intro m
  simp only [List.mem_map, List.mem_filter, h]

theorem given_of_closed (size : Nat) (steps : List MarkStep) (h : s.isClosed = true) :
    given size steps s = .none := by
  have hnone : steps.filter (fun step => step.selects size s) = [] := by
    apply List.filter_eq_nil_iff.2
    intro step _ hselects
    rw [(MarkStep.reaches_of_selects hselects).isClosed_eq_false] at h
    cases h
  rw [given, hnone]
  rfl

theorem slots_marked (l : Ledger) (steps : List MarkStep) :
    (l.marked steps).slots = l.slots.map fun s => s.mark (given l.size steps s) := by
  induction steps generalizing l with
  | nil => exact (List.map_id'' Slot.mark_none _).symm
  | cons step steps ih =>
    have hstep : l.marked (step :: steps) = (l.markStep step).marked steps := rfl
    have hsize : (l.markWhere (step.selects l.size) step.marks).size = l.size := by
      simp [markWhere, size]
    rw [hstep, ih, markStep_eq, hsize, markWhere, List.map_map]
    apply List.map_congr_left
    intro s _
    rw [Function.comp_apply, given_cons]
    split
    · rw [given_mark, Slot.mark_union]
    · rfl

theorem marked_congr (l : Ledger) (h : ∀ step, step ∈ steps ↔ step ∈ steps') :
    l.marked steps = l.marked steps' := by
  have hslots : (l.marked steps).slots = (l.marked steps').slots := by
    rw [slots_marked, slots_marked, given_congr l.size h]
  exact congrArg Ledger.mk hslots

end Ledger

open Ledger (MarkStep)

def Session.markings (s : Session) : List MarkStep :=
  let view := s.machine.view
  let settings := s.application.settings
  [.classPath view settings.bootClassPath, .classPath view settings.classPath,
    .extensionDirs view settings.extensionDirs, .persistent s.registry.entries]

theorem Session.markedLedger_eq (s : Session) : s.markedLedger = s.ledger.marked s.markings := rfl

/-- Steps only add marks: to the open descriptor that they name, or to roots. Descriptors, states, files
and links stay, and so does all of a closed slot. The ledger is the same whatever the order of the steps
and however often each is taken; so the order in which an attempt makes its markings does not change
how it judges. -/
theorem marked_regardless_of_order (l : Ledger) (steps : List MarkStep) :
    List.Forall₂
      (fun s s' => s'.bare = s.bare ∧ (s.isClosed = true → s' = s) ∧
        s'.marks.includes s.marks = true ∧
        ∃ given : List MarkStep, given ⊆ steps ∧ (∀ step ∈ given, step.Reaches s) ∧
          s'.marks = s.marks.union (.join (given.map (·.marks))))
      l.slots (l.marked steps).slots ∧
    (∀ steps', (∀ step, step ∈ steps' ↔ step ∈ steps) → l.marked steps' = l.marked steps) ∧
    ∀ (session : Session) (steps' : List MarkStep),
      (∀ step, step ∈ steps' ↔ step ∈ session.markings) → ∀ p,
        classify p (session.ledger.marked steps') = classify p session.markedLedger := by
  refine ⟨?_, fun steps' h => l.marked_congr h, ?_⟩
  · rw [Ledger.slots_marked, List.forall₂_map_right_iff, List.forall₂_same]
    intro s _
    refine ⟨rfl, ?_, Marks.includes_union _ _, _, List.filter_subset_self _, ?_, rfl⟩
    · intro hclosed
      rw [Ledger.given_of_closed l.size steps hclosed, Slot.mark_none]
    · intro step hstep
      exact MarkStep.reaches_of_selects (List.mem_filter.1 hstep).2
  · intro session steps' h p
    rw [session.markedLedger_eq, session.ledger.marked_congr h]

/-- The owners of 5 and 3 vouch for them, but in between stands a descriptor behind the last one. -/
def interrupted : MarkStep := .persistent [⟨5, ⟨1, 12⟩⟩, ⟨40, ⟨1, 10⟩⟩, ⟨3, ⟨1, 10⟩⟩]

theorem marked_regardless_of_order_gapped :
    let steps := [.descriptor 6 .onlyZipCache, interrupted]
    let steps' := [interrupted, .descriptor 6 .onlyZipCache, interrupted]
    (∀ step, step ∈ steps' ↔ step ∈ steps) ∧
      Ledger.gapped.marked steps' = Ledger.gapped.marked steps ∧
      (Ledger.gapped.marked steps).slots.map (·.marks) =
        [.none, .none, .none, .none, .none, .onlyPersistent, .onlyZipCache] := by
  intro steps steps'
  have hsame (step : MarkStep) : step ∈ steps' ↔ step ∈ steps := by
    simp only [steps, steps', List.mem_cons, List.not_mem_nil]
    tauto
  obtain ⟨-, hregardless, -⟩ := marked_regardless_of_order Ledger.gapped steps
  exact ⟨hsame, hregardless steps' hsame, by decide +kernel⟩

end Thaw
