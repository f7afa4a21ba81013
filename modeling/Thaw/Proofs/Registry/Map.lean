import Mathlib.Data.Finmap
import Thaw.Proofs.Registry.Order

namespace Thaw.Registry
set_option autoImplicit true

inductive Call where
  | register (r : Resource)
  | deregister (r : Resource)
  | get (fd : Int)
  | take
  | size
  | entries

inductive Answer where
  | done
  | resource (r? : Option Resource)
  | resources (rs : List Resource)
  | count (n : Nat)

def call (reg : Registry) : Call → Answer × Registry
  | .register r => (.done, reg.register r)
  | .deregister r => (.done, reg.deregister r)
  | .get fd => (.resource (reg.get? fd), reg)
  | .take => (.resources reg.take.1, reg.take.2)
  | .size => (.count reg.size, reg)
  | .entries => (.resources reg.entries, reg)

def run (reg : Registry) (calls : List Call) : Registry :=
  calls.foldl (fun reg c => (reg.call c).2) reg

/-- What is known of each descriptor that someone vouches for. -/
abbrev Vouched := Finmap fun _ : Int => FileIdentity

/-- Only registrations of descriptors, exact deregistrations and the removal of everything count. -/
def Vouched.step (isEnabled : Bool) (m : Vouched) : Call → Vouched
  | .register r => if isEnabled = true ∧ 0 ≤ r.fd then m.insert r.fd r.identity else m
  | .deregister r =>
    if isEnabled = true ∧ m.lookup r.fd = some r.identity then m.erase r.fd else m
  | .take => ∅
  | .get _ | .size | .entries => m

def Vouched.run (isEnabled : Bool) (calls : List Call) : Vouched :=
  calls.foldl (Vouched.step isEnabled) ∅

structure Lists (entries : List Resource) (m : Vouched) : Prop where
  ascending : Ascending entries
  nonneg : ∀ r ∈ entries, 0 ≤ r.fd
  mem_iff : ∀ r, r ∈ entries ↔ m.lookup r.fd = some r.identity

def Call.Answers (m : Vouched) : Call → Answer → Prop
  | .register _, .done | .deregister _, .done => True
  | .get fd, .resource r? => r? = (m.lookup fd).map fun identity => ⟨fd, identity⟩
  | .take, .resources rs | .entries, .resources rs => Lists rs m
  | .size, .count n => n = m.keys.card
  | _, _ => False

variable {reg : Registry} {entries : List Resource} {m : Vouched}

theorem Lists.nil : Lists [] ∅ where
  ascending := .nil
  nonneg := by simp
  mem_iff := by simp

theorem Lists.register (h : Lists reg.entries m) (r : Resource) :
    Lists (reg.register r).entries (m.step reg.isEnabled (.register r)) := by
  by_cases hr : reg.isEnabled = true ∧ 0 ≤ r.fd
  · have hmem := mem_entries_register h.ascending hr.1 hr.2
    rw [Vouched.step, if_pos hr]
    refine ⟨h.ascending.register r, fun s hs => ?_, fun s => ?_⟩
    · rcases (hmem s).1 hs with rfl | hs
      · exact hr.2
      · exact h.nonneg s hs.1
    · rw [hmem, h.mem_iff]
      by_cases hfd : s.fd = r.fd
      · have hs : s = r ↔ r.identity = s.identity :=
          ⟨fun he => he ▸ rfl, fun hi => by cases s; cases r; cases hfd; cases hi; rfl⟩
        rw [hfd, Finmap.lookup_insert, Option.some_inj, ← hs]
        simp
      · rw [Finmap.lookup_insert_of_ne _ hfd]
        have hne : s ≠ r := fun he => hfd (he ▸ rfl)
        simp [hfd, hne]
  · rw [Vouched.step, if_neg hr, register_of_ignored hr]
    exact h

theorem Lists.deregister (h : Lists reg.entries m) (r : Resource) :
    Lists (reg.deregister r).entries (m.step reg.isEnabled (.deregister r)) := by
  by_cases hr : reg.isEnabled = true ∧ m.lookup r.fd = some r.identity
  · have hmem := mem_entries_deregister h.ascending hr.1 r
    have hin := (h.mem_iff r).2 hr.2
    rw [Vouched.step, if_pos hr]
    refine ⟨h.ascending.deregister r, fun s hs => h.nonneg s (hmem s |>.1 hs).2, fun s => ?_⟩
    rw [hmem]
    by_cases hfd : s.fd = r.fd
    · rw [hfd, Finmap.lookup_erase]
      refine iff_of_false (fun hs => ?_) (by simp)
      exact hs.1 (h.ascending.eq_of_fd_eq hs.2 hin hfd)
    · rw [Finmap.lookup_erase_ne hfd, h.mem_iff]
      have hne : s ≠ r := fun he => hfd (he ▸ rfl)
      simp [hne]
  · rw [Vouched.step, if_neg hr]
    unfold Registry.deregister
    split
    case isTrue he =>
      have hout : r ∉ reg.entries := fun hin => hr ⟨he, (h.mem_iff r).1 hin⟩
      rw [List.erase_of_not_mem hout]
      exact h
    case isFalse => exact h

theorem Lists.get? (h : Lists reg.entries m) (fd : Int) :
    reg.get? fd = (m.lookup fd).map fun identity => ⟨fd, identity⟩ := by
  apply Option.ext
  intro r
  rw [get?_eq_some_iff h.ascending, h.mem_iff, Option.map_eq_some_iff]
  constructor
  · rintro ⟨hr, rfl⟩
    exact ⟨r.identity, hr, rfl⟩
  · rintro ⟨identity, hi, rfl⟩
    exact ⟨hi, rfl⟩

theorem Lists.length (h : Lists entries m) : entries.length = m.keys.card := by
  have hkeys : m.keys = (entries.map (·.fd)).toFinset := by
    ext fd
    rw [Finmap.mem_keys, Finmap.mem_iff, List.mem_toFinset, List.mem_map]
    constructor
    · rintro ⟨identity, hi⟩
      exact ⟨⟨fd, identity⟩, (h.mem_iff _).2 hi, rfl⟩
    · rintro ⟨r, hr, rfl⟩
      exact ⟨r.identity, (h.mem_iff r).1 hr⟩
  have hnodup : (entries.map (·.fd)).Nodup :=
    List.pairwise_map.2 (h.ascending.imp fun hlt => Int.ne_of_lt hlt)
  rw [hkeys, List.toFinset_card_of_nodup hnodup, List.length_map]

theorem isEnabled_call (reg : Registry) (c : Call) : (reg.call c).2.isEnabled = reg.isEnabled := by
  cases c with
  | register r =>
    simp only [call, Registry.register]
    split
    · split <;> rfl
    · rfl
  | deregister r =>
    simp only [call, Registry.deregister]
    split <;> rfl
  | get | take | size | entries => rfl

theorem Lists.call (h : Lists reg.entries m) (c : Call) :
    Lists (reg.call c).2.entries (m.step reg.isEnabled c) := by
  cases c with
  | register r => exact h.register r
  | deregister r => exact h.deregister r
  | take => exact .nil
  | get | size | entries => exact h

theorem Lists.answers (h : Lists reg.entries m) (c : Call) : c.Answers m (reg.call c).1 := by
  cases c with
  | register | deregister => trivial
  | get fd => exact h.get? fd
  | take | entries => exact h
  | size => exact h.length

theorem Lists.run (h : Lists reg.entries m) (calls : List Call) :
    Lists (reg.run calls).entries (calls.foldl (Vouched.step reg.isEnabled) m) := by
  induction calls generalizing reg m with
  | nil => exact h
  | cons c calls ih =>
    have hrest := ih (h.call c)
    rwa [isEnabled_call] at hrest

theorem run_of_disabled (calls : List Call) : (empty false).run calls = empty false := by
  induction calls with
  | nil => rfl
  | cons c calls ih =>
    have hc : ((empty false).call c).2 = empty false := by cases c <;> rfl
    rw [run, List.foldl_cons, hc]
    exact ih

/-- After any calls a registry holds exactly the pairs of the map that the calls make, in ascending
order and without negative numbers, and answers every further call as the map does. One that is not
enabled stays empty. -/
theorem run_refines_map (isEnabled : Bool) (calls : List Call) :
    let reg := (empty isEnabled).run calls
    let m := Vouched.run isEnabled calls
    reg.entries.Pairwise (fun r s => r.fd < s.fd) ∧ (∀ r ∈ reg.entries, 0 ≤ r.fd) ∧
      (∀ r, r ∈ reg.entries ↔ m.lookup r.fd = some r.identity) ∧
      (∀ c : Call, c.Answers m (reg.call c).1) ∧ (empty false).run calls = empty false := by
  have h : Lists ((empty isEnabled).run calls).entries (Vouched.run isEnabled calls) :=
    Lists.nil.run calls
  exact ⟨h.ascending, h.nonneg, h.mem_iff, h.answers, run_of_disabled calls⟩

end Thaw.Registry
