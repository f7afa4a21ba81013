import Mathlib.Data.List.Forall2
import Thaw.Proofs.Classification.Report

namespace Thaw
set_option autoImplicit true

structure Slot.Milder (s t : Slot) : Prop where
  bare : t.bare = s.bare
  marks : s.marks.Milder t.marks

variable {p q : Policy} {l m : Ledger} {s t : Slot}

/-- A slot that blocks in spite of more exemptions blocks without them, and in the same words. -/
theorem Policy.block?_of_milder (hp : p.Milder q) (hsockets : q.sockets = p.sockets)
    (h : s.Milder t) (hb : q.block? t = some b) : p.block? s = some b := by
  obtain ⟨status, hroot, hstatus, he, rfl⟩ := block?_eq_some_iff.1 hb
  obtain ⟨hfd, hstate, hknown, htarget⟩ := Slot.bare_eq_iff.1 h.bare
  have hexempt : ¬ p.Exempts s status := by
    intro hs
    exact he (hs.mono hp hfd h.marks)
  have hdetails (verdict : Verdict) (target : String) :
      q.details verdict target = p.details verdict target := by
    unfold details
    rw [hsockets]
  rw [Slot.isRoot_iff, hstate, ← Slot.isRoot_iff] at hroot
  rw [hknown] at hstatus
  apply block?_eq_some_iff.2
  exact ⟨status, hroot, hstatus, hexempt, by rw [hfd, htarget, hdetails]⟩

theorem filterMap_sublist {f : α → Option γ} {g : β → Option γ} {as : List α} {bs : List β}
    (h : List.Forall₂ R as bs) (hfg : ∀ a b, R a b → ∀ c, g b = some c → f a = some c) :
    (bs.filterMap g).Sublist (as.filterMap f) := by
  induction h with
  | nil => exact .slnil
  | @cons a b as bs hab _ ih =>
    cases hb : g b with
    | some c =>
      rw [List.filterMap_cons_some hb, List.filterMap_cons_some (hfg a b hab c hb)]
      exact ih.cons_cons c
    | none =>
      rw [List.filterMap_cons_none hb]
      exact ih.trans ((List.sublist_cons_self a as).filterMap f)

/-- With more marks that exempt and fewer that forbid it, under a policy that exempts more, every blocker
is one from before, with its descriptor, kind and message, and their order is kept. -/
theorem blockers_sublist_of_milder (hslots : List.Forall₂ Slot.Milder l.slots m.slots)
    (hp : p.Milder q) (hsockets : q.sockets = p.sockets) :
    (classify q m).blockers.Sublist (classify p l).blockers := by
  rw [blockers_eq_filterMap, blockers_eq_filterMap]
  apply filterMap_sublist hslots
  intro s t hst b hb
  exact Policy.block?_of_milder hp hsockets hst hb

def removedLibraryAndPipe (library : Marks) : Ledger :=
  let file (inode : UInt64) : FileStatus := ⟨⟨1, inode⟩, .regular, 1, ⟨0⟩⟩
  ⟨[⟨0, .root, .onlyCannotRestore, file 10, some "/tmp/a (deleted)"⟩,
    ⟨1, .root, library, file 11, some "/lib/b.jar"⟩,
    ⟨2, .root, .none, some ⟨⟨2, 7⟩, .fifo, 1, ⟨0⟩⟩, some "pipe:[7]"⟩]⟩

/-- The library gets onto the class path, and the pipe counts as inherited. -/
theorem blockers_sublist_of_milder_library :
    let before := removedLibraryAndPipe .onlyCannotRestore
    let after := removedLibraryAndPipe (.union .onlyClassPath .onlyZipCache)
    let p : Policy := ⟨[], fun _ => false, [], false⟩
    let q : Policy := { p with inherited := [2], printResources := true }
    List.Forall₂ Slot.Milder before.slots after.slots ∧ p.Milder q ∧
      (classify p before).blockers.map (·.fd) = [0, 1, 2] ∧
      (classify q after).blockers.map (·.fd) = [0] ∧
      (classify q after).blockers.Sublist (classify p before).blockers := by
  intro before after p q
  have hlibrary : Marks.Milder .onlyCannotRestore (.union .onlyClassPath .onlyZipCache) :=
    ⟨by decide, by decide, by decide⟩
  have hslots : List.Forall₂ Slot.Milder before.slots after.slots :=
    .cons ⟨rfl, .refl _⟩ (.cons ⟨rfl, hlibrary⟩ (.cons ⟨rfl, .refl _⟩ .nil))
  have hp : p.Milder q := ⟨List.nil_subset _, fun _ h => h⟩
  exact ⟨hslots, hp, by decide, by decide, blockers_sublist_of_milder hslots hp rfl⟩

end Thaw
