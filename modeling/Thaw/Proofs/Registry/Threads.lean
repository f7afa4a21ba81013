import Thaw.Proofs.Registry.Map

namespace Thaw.Registry
set_option autoImplicit true

/-- The orders in which the calls of threads can take turns. -/
inductive Interleaving : List (List α) → List α → Prop where
  | done (h : ∀ thread ∈ threads, thread = []) : Interleaving threads []
  | turn {c : α} {threads : List (List α)} {thread run : List α} (i : Nat)
    (hi : threads[i]? = some (c :: thread)) (hrest : Interleaving (threads.set i thread) run) :
    Interleaving threads (c :: run)

namespace Interleaving

variable {threads : List (List α)} {thread run : List α} {c : α}

theorem cons_nil (h : Interleaving threads run) : Interleaving ([] :: threads) run := by
  induction h with
  | done h => exact .done (List.forall_mem_cons.2 ⟨rfl, h⟩)
  | turn i hi _ ih => exact .turn (i + 1) hi ih

theorem cons_append (h : Interleaving threads run) (thread : List α) :
    Interleaving (thread :: threads) (thread ++ run) := by
  induction thread with
  | nil => exact h.cons_nil
  | cons c thread ih => exact .turn 0 rfl ih

theorem flatten (threads : List (List α)) : Interleaving threads threads.flatten := by
  induction threads with
  | nil => exact .done (by simp)
  | cons thread threads ih => exact ih.cons_append thread

theorem exists_mem (h : Interleaving threads run) (hc : c ∈ run) :
    ∃ thread ∈ threads, c ∈ thread := by
  induction h with
  | done => cases hc
  | @turn d threads thread run i hi _ ih =>
    have hmem := List.mem_of_getElem? hi
    obtain rfl | hc := List.mem_cons.1 hc
    · exact ⟨_, hmem, List.mem_cons_self⟩
    · obtain ⟨other, hother, hcother⟩ := ih hc
      obtain hother | rfl := List.mem_or_eq_of_mem_set hother
      · exact ⟨other, hother, hcother⟩
      · exact ⟨_, hmem, List.mem_cons_of_mem d hcother⟩

theorem of_getElem?_set {k j : Nat} {other : List α} (h : (threads.set k thread)[j]? = some other) :
    threads[j]? = some other ∨ j = k ∧ other = thread := by
  rw [List.getElem?_set] at h
  split at h
  case isTrue he =>
    split at h
    case isTrue => exact .inr ⟨he.symm, (Option.some.inj h).symm⟩
    case isFalse => cases h
  case isFalse => exact .inl h

/-- What only one thread does is done in the order of that thread. -/
theorem filter_eq {p : α → Bool} {i : Nat} (h : Interleaving threads run)
    (hi : threads[i]? = some thread)
    (halone : ∀ j other, j ≠ i → threads[j]? = some other → ∀ c ∈ other, p c = false) :
    run.filter p = thread.filter p := by
  induction h generalizing thread with
  | done hdone => rw [hdone thread (List.mem_of_getElem? hi)]
  | @turn d threads rest run k hk _ ih =>
    -- A turn only shortens a thread, so the others still do nothing of the kind.
    have halone' : ∀ j other, j ≠ i → (threads.set k rest)[j]? = some other →
        ∀ c ∈ other, p c = false := by
      intro j other hne hj c hc
      obtain hj | ⟨rfl, rfl⟩ := of_getElem?_set hj
      · exact halone j other hne hj c hc
      · exact halone j _ hne hk c (List.mem_cons_of_mem d hc)
    by_cases hki : k = i
    · subst hki
      cases hk.symm.trans hi
      have hown : (threads.set k rest)[k]? = some rest :=
        List.getElem?_set_self (List.getElem?_eq_some_iff.1 hk).1
      rw [List.filter_cons, List.filter_cons, ih hown halone']
    · have hown : (threads.set k rest)[i]? = some thread := by rw [List.getElem?_set_ne hki, hi]
      rw [List.filter_cons_of_neg, ih hown halone']
      rw [halone k _ hki hk d List.mem_cons_self]
      exact Bool.false_ne_true

end Interleaving

/-- What threads ask of a registry. -/
inductive Change where
  | register (r : Resource)
  | deregister (r : Resource)
  deriving DecidableEq

namespace Change

def call : Change → Call
  | register r => .register r
  | deregister r => .deregister r

def fd : Change → Int
  | register r => r.fd
  | deregister r => r.fd

/-- What is known of the descriptor once a change of it is made. -/
def settle (known : Option FileIdentity) : Change → Option FileIdentity
  | register r => if 0 ≤ r.fd then some r.identity else known
  | deregister r => if known = some r.identity then none else known

end Change

def changed (reg : Registry) (changes : List Change) : Registry := reg.run (changes.map Change.call)

variable {reg : Registry} {m : Vouched} {threads : List (List Change)}
  {thread run run' : List Change} {fd : Int}

theorem lookup_step_self (m : Vouched) (c : Change) :
    (m.step true c.call).lookup c.fd = c.settle (m.lookup c.fd) := by
  cases c with
  | register r =>
    by_cases hr : 0 ≤ r.fd
    · simp [Vouched.step, Change.call, Change.fd, Change.settle, hr]
    · simp [Vouched.step, Change.call, Change.fd, Change.settle, hr]
  | deregister r =>
    by_cases hr : m.lookup r.fd = some r.identity
    · simp [Vouched.step, Change.call, Change.fd, Change.settle, hr]
    · simp [Vouched.step, Change.call, Change.fd, Change.settle, hr]

theorem lookup_step_of_ne (m : Vouched) {c : Change} {fd : Int} (hne : fd ≠ c.fd) :
    (m.step true c.call).lookup fd = m.lookup fd := by
  cases c with
  | register r =>
    simp only [Change.call, Vouched.step]
    split
    case isTrue => exact Finmap.lookup_insert_of_ne m hne
    case isFalse => rfl
  | deregister r =>
    simp only [Change.call, Vouched.step]
    split
    case isTrue => exact Finmap.lookup_erase_ne hne
    case isFalse => rfl

/-- The changes of other descriptors do not matter to a descriptor. -/
theorem lookup_foldl_step (m : Vouched) (changes : List Change) (fd : Int) :
    ((changes.map Change.call).foldl (Vouched.step true) m).lookup fd =
      (changes.filter fun c => c.fd = fd).foldl Change.settle (m.lookup fd) := by
  induction changes generalizing m with
  | nil => rfl
  | cons c changes ih =>
    rw [List.map_cons, List.foldl_cons, ih]
    by_cases hfd : c.fd = fd
    · subst hfd
      rw [lookup_step_self, List.filter_cons_of_pos (by simp), List.foldl_cons]
    · rw [lookup_step_of_ne m (Ne.symm hfd), List.filter_cons_of_neg (by simpa using hfd)]

theorem settled_of_last {before later : List Change} {r : Resource} (known : Option FileIdentity)
    (hr : 0 ≤ r.fd) (hlater : ∀ c ∈ later, c.fd ≠ r.fd) :
    ((before ++ .register r :: later).filter fun c => c.fd = r.fd).foldl Change.settle known =
      some r.identity := by
  have hlast : later.filter (fun c => c.fd = r.fd) = [] := by
    apply List.filter_eq_nil_iff.2
    intro c hc
    simpa using hlater c hc
  have hself : (Change.register r).fd = r.fd := rfl
  rw [List.filter_append, List.filter_cons, hself, if_pos (decide_eq_true rfl), hlast,
    List.foldl_concat]
  exact if_pos hr

theorem isEnabled_run (reg : Registry) (calls : List Call) :
    (reg.run calls).isEnabled = reg.isEnabled := by
  induction calls generalizing reg with
  | nil => rfl
  | cons c calls ih => exact (ih _).trans (isEnabled_call reg c)

theorem get?_changed (h : Lists reg.entries m) (he : reg.isEnabled = true) (changes : List Change)
    (fd : Int) : (reg.changed changes).get? fd =
      ((changes.filter fun c => c.fd = fd).foldl Change.settle (m.lookup fd)).map
        fun identity => ⟨fd, identity⟩ := by
  have hchanged := h.run (changes.map Change.call)
  rw [he] at hchanged
  rw [changed, hchanged.get?, lookup_foldl_step]

theorem mem_entries_iff (h : Ascending reg.entries) (r : Resource) :
    r ∈ reg.entries ↔ reg.get? r.fd = some r := by
  rw [get?_eq_some_iff h, and_iff_left rfl]

theorem entries_eq_of_get? {reg reg' : Registry} (h : Ascending reg.entries)
    (h' : Ascending reg'.entries) (hget : ∀ fd, reg.get? fd = reg'.get? fd) :
    reg.entries = reg'.entries := by
  have hmem (r : Resource) : r ∈ reg.entries ↔ r ∈ reg'.entries := by
    rw [mem_entries_iff h, mem_entries_iff h', hget]
  have hperm := (List.perm_ext_iff_of_nodup h.nodup h'.nodup).2 hmem
  apply List.Perm.eq_of_pairwise ?_ h h' hperm
  intro r s _ _ hrs hsr
  exact absurd (Int.lt_trans hrs hsr) (Int.lt_irrefl _)

def Apart (threads : List (List Change)) : Prop :=
  threads.Pairwise fun thread other => ∀ c ∈ thread, ∀ d ∈ other, c.fd ≠ d.fd

theorem Apart.filter_eq (ha : Apart threads) (h : Interleaving threads run)
    (hthread : thread ∈ threads) {c : Change} (hc : c ∈ thread) :
    run.filter (fun d => d.fd = c.fd) = thread.filter fun d => d.fd = c.fd := by
  obtain ⟨i, hi⟩ := List.mem_iff_getElem?.1 hthread
  apply h.filter_eq hi
  intro j other hne hj d hd
  obtain ⟨hilt, rfl⟩ := List.getElem?_eq_some_iff.1 hi
  obtain ⟨hjlt, rfl⟩ := List.getElem?_eq_some_iff.1 hj
  apply decide_eq_false
  obtain hlt | hlt := Nat.lt_or_gt_of_ne hne
  · exact List.pairwise_iff_getElem.1 ha j i hjlt hilt hlt d hd c hc
  · exact Ne.symm (List.pairwise_iff_getElem.1 ha i j hilt hjlt hlt c hc d hd)

theorem filter_eq_nil_of_untouched (h : Interleaving threads run)
    (hfd : ∀ thread ∈ threads, ∀ c ∈ thread, c.fd ≠ fd) :
    run.filter (fun c => c.fd = fd) = [] := by
  apply List.filter_eq_nil_iff.2
  intro c hc
  obtain ⟨thread, hthread, hc⟩ := h.exists_mem hc
  simpa using hfd thread hthread c hc

theorem Apart.filter_congr (ha : Apart threads) (h : Interleaving threads run)
    (h' : Interleaving threads run') (fd : Int) :
    run.filter (fun c => c.fd = fd) = run'.filter fun c => c.fd = fd := by
  by_cases hfd : ∃ thread ∈ threads, ∃ c ∈ thread, c.fd = fd
  · obtain ⟨thread, hthread, c, hc, rfl⟩ := hfd
    rw [ha.filter_eq h hthread hc, ha.filter_eq h' hthread hc]
  · push Not at hfd
    rw [filter_eq_nil_of_untouched h hfd, filter_eq_nil_of_untouched h' hfd]

/-- Whatever a registry holds and however threads that share no descriptor take turns on it, it ends
with the entries that it has if they come one after the other. What it tells of a descriptor is what it
would tell if its own thread were alone, and the last registration of each is there. -/
theorem changed_of_interleaving (earlier : List Call) (ha : Apart threads)
    (h : Interleaving threads run) :
    let reg := (empty true).run earlier
    let after := reg.changed run
    after.entries = (reg.changed threads.flatten).entries ∧
    (∀ thread ∈ threads, ∀ c ∈ thread, after.get? c.fd = (reg.changed thread).get? c.fd) ∧
    (∀ fd, (∀ thread ∈ threads, ∀ c ∈ thread, c.fd ≠ fd) → after.get? fd = reg.get? fd) ∧
    (after.entries.Pairwise fun r s => r.fd < s.fd) ∧
    (∀ r, r ∈ after.entries ↔ after.get? r.fd = some r) ∧
    ∀ before r later, before ++ .register r :: later ∈ threads → 0 ≤ r.fd →
      (∀ c ∈ later, c.fd ≠ r.fd) → r ∈ after.entries := by
  intro reg after
  have hlists : Lists reg.entries (Vouched.run true earlier) := Lists.nil.run earlier
  have henabled : reg.isEnabled = true := isEnabled_run (empty true) earlier
  have hget := get?_changed hlists henabled
  have hascending (changes : List Change) : Ascending (reg.changed changes).entries :=
    (hlists.run (changes.map Change.call)).ascending
  have hmem := mem_entries_iff (hascending run)
  refine ⟨?_, ?_, ?_, hascending run, hmem, ?_⟩
  · apply entries_eq_of_get? (hascending run) (hascending threads.flatten)
    intro fd
    rw [hget, hget, ha.filter_congr h (.flatten threads)]
  · intro thread hthread c hc
    rw [hget, hget, ha.filter_eq h hthread hc]
  · intro fd hfd
    rw [hget, filter_eq_nil_of_untouched h hfd]
    exact (hlists.get? fd).symm
  · intro before r later hthread hr hlater
    have hc : Change.register r ∈ before ++ .register r :: later := by simp
    have hfilter := ha.filter_eq h hthread hc
    change run.filter (fun c => c.fd = r.fd) = List.filter (fun c => c.fd = r.fd) _ at hfilter
    rw [hmem, hget, hfilter, settled_of_last _ hr hlater, Option.map_some]

def entwined : List (List Change) :=
  [[.register ⟨5, ⟨1, 50⟩⟩, .deregister ⟨5, ⟨1, 50⟩⟩, .register ⟨5, ⟨1, 51⟩⟩],
   [.register ⟨3, ⟨1, 30⟩⟩, .register ⟨9, ⟨1, 90⟩⟩, .deregister ⟨3, ⟨1, 30⟩⟩]]

theorem changed_of_interleaving_entwined :
    Apart entwined ∧ ∃ run, Interleaving entwined run ∧
      ⟨5, ⟨1, 51⟩⟩ ∈ ((empty true).changed run).entries ∧
      ⟨9, ⟨1, 90⟩⟩ ∈ ((empty true).changed run).entries := by
  have hapart : Apart entwined := by
    unfold Apart
    decide
  have hrun : Interleaving entwined
      [.register ⟨5, ⟨1, 50⟩⟩, .register ⟨3, ⟨1, 30⟩⟩, .deregister ⟨5, ⟨1, 50⟩⟩,
        .register ⟨9, ⟨1, 90⟩⟩, .deregister ⟨3, ⟨1, 30⟩⟩, .register ⟨5, ⟨1, 51⟩⟩] :=
    .turn 0 rfl <| .turn 1 rfl <| .turn 0 rfl <| .turn 1 rfl <| .turn 1 rfl <| .turn 0 rfl <|
      .done (by decide)
  obtain ⟨-, -, -, -, -, hlast⟩ := changed_of_interleaving [] hapart hrun
  refine ⟨hapart, _, hrun, ?_, ?_⟩
  · exact hlast [.register ⟨5, ⟨1, 50⟩⟩, .deregister ⟨5, ⟨1, 50⟩⟩] ⟨5, ⟨1, 51⟩⟩ [] (by decide)
      (by decide) (by decide)
  · exact hlast [.register ⟨3, ⟨1, 30⟩⟩] ⟨9, ⟨1, 90⟩⟩ [.deregister ⟨3, ⟨1, 30⟩⟩] (by decide)
      (by decide) (by decide)

end Thaw.Registry
