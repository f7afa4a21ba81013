import Mathlib.Data.List.Infix
import Thaw.Phase
import Thaw.Text.Split

namespace Thaw
set_option autoImplicit true

namespace Phase

/-- The ways in which an attempt can go from its first phase back to idleness. -/
def paths : List (List Phase) :=
  [[preparingPause, classifyingDescriptors, reportingFailure, idle],
   [preparingPause, classifyingDescriptors, invokingEngine, reportingFailure, idle],
   [preparingPause, classifyingDescriptors, invokingEngine, resumed, parametersApplied, idle],
   [preparingPause, classifyingDescriptors, invokingEngine, resumed, timestampsReset, idle],
   [preparingPause, classifyingDescriptors, invokingEngine, awaitingRestore, reportingFailure, idle],
   [preparingPause, classifyingDescriptors, invokingEngine, awaitingRestore, resumed,
    parametersApplied, idle],
   [preparingPause, classifyingDescriptors, invokingEngine, awaitingRestore, resumed,
    timestampsReset, idle]]

/-- What the order of the phases in an attempt, finished or not, promises. -/
structure Orderly (attempt : List Phase) : Prop where
  not_both : reportingFailure ∈ attempt → resumed ∉ attempt
  awaited_late : awaitingRestore ∈ attempt →
    attempt.takeWhile (· ≠ awaitingRestore) = [preparingPause, classifyingDescriptors, invokingEngine]
  settled_once : resumed ∈ attempt → idle ∈ attempt →
    attempt.dropWhile (· ≠ resumed) = [resumed, parametersApplied, idle] ∨
      attempt.dropWhile (· ≠ resumed) = [resumed, timestampsReset, idle]

theorem orderly_of_prefix (hpath : path ∈ paths) (ha : attempt <+: path) : Orderly attempt := by
  have hinits : attempt ∈ path.inits := (List.mem_inits attempt path).2 ha
  have hboth : ∀ path ∈ paths, ∀ a ∈ path.inits, reportingFailure ∈ a → resumed ∉ a := by decide
  have hlate : ∀ path ∈ paths, ∀ a ∈ path.inits, awaitingRestore ∈ a →
      a.takeWhile (· ≠ awaitingRestore) =
        [preparingPause, classifyingDescriptors, invokingEngine] := by decide
  have honce : ∀ path ∈ paths, ∀ a ∈ path.inits, resumed ∈ a → idle ∈ a →
      a.dropWhile (· ≠ resumed) = [resumed, parametersApplied, idle] ∨
        a.dropWhile (· ≠ resumed) = [resumed, timestampsReset, idle] := by decide
  exact ⟨hboth path hpath attempt hinits, hlate path hpath attempt hinits,
    honce path hpath attempt hinits⟩

/-- What may still follow a phase up to the end of an attempt; in idleness that is a whole attempt. -/
def remainders (p : Phase) : List (List Phase) :=
  if p = idle then paths
  else paths.filterMap fun path => (Text.cut? (· == p) path).map (·.2)

/-- What is left of an attempt once it has come to a phase: in idleness nothing. -/
def leftovers (p : Phase) : List (List Phase) := if p = idle then [[]] else p.remainders

theorem exists_remainder (p : Phase) : ∃ rest, rest ∈ p.remainders := by
  cases p <;> exact ⟨_, List.mem_cons_self⟩

/-- A remainder takes one allowed step and goes on with what is left there. -/
theorem remainder_step (h : rest ∈ remainders p) :
    ∃ q v, rest = q :: v ∧ p.mayStep q = true ∧ v ∈ q.leftovers := by
  have hstep : ∀ rest ∈ p.remainders, ∃ q ∈ all, q :: rest.tail = rest ∧ p.mayStep q = true ∧
      rest.tail ∈ q.leftovers := by
    cases p <;> decide
  obtain ⟨q, -, hrest, hq, hv⟩ := hstep rest h
  exact ⟨q, rest.tail, hrest.symm, hq, hv⟩

theorem cons_mem_remainders (hq : mayStep p q = true) (hv : v ∈ q.leftovers) :
    q :: v ∈ p.remainders := by
  have hstep : ∀ q ∈ p.successors, ∀ v ∈ q.leftovers, q :: v ∈ p.remainders := by
    cases p <;> decide
  exact hstep q (List.contains_iff_mem.1 hq) v hv

/-- Phases that can be visited one after the other from `p` on: the rest of an attempt, then whole
attempts, broken off anywhere. -/
def Continues (p : Phase) (targets : List Phase) : Prop :=
  ∃ rest ∈ p.remainders, ∃ attempts : List (List Phase), (∀ a ∈ attempts, a ∈ paths) ∧
    targets <+: rest ++ attempts.flatten

theorem continues_nil (p : Phase) : p.Continues [] := by
  obtain ⟨rest, hrest⟩ := p.exists_remainder
  exact ⟨rest, hrest, [], by simp, List.nil_prefix⟩

theorem continues_idle_iff (targets : List Phase) : idle.Continues targets ↔
    ∃ attempts : List (List Phase), (∀ a ∈ attempts, a ∈ paths) ∧ targets <+: attempts.flatten := by
  constructor
  · rintro ⟨path, hpath, attempts, hall, hpre⟩
    exact ⟨path :: attempts, List.forall_mem_cons.2 ⟨hpath, hall⟩, hpre⟩
  · rintro ⟨attempts, hall, hpre⟩
    cases attempts with
    | nil =>
      cases List.prefix_nil.1 hpre
      exact continues_nil idle
    | cons path attempts =>
      obtain ⟨hpath, hall⟩ := List.forall_mem_cons.1 hall
      exact ⟨path, hpath, attempts, hall, hpre⟩

/-- What is left at `q`, then whole attempts, is what continues from `q`. -/
theorem continues_iff_leftovers (q : Phase) (targets : List Phase) : q.Continues targets ↔
    ∃ v ∈ q.leftovers, ∃ attempts : List (List Phase), (∀ a ∈ attempts, a ∈ paths) ∧
      targets <+: v ++ attempts.flatten := by
  by_cases hq : q = idle
  · subst q
    rw [continues_idle_iff]
    simp [leftovers]
  · simp [leftovers, hq, Continues]

theorem continues_cons_iff :
    Continues p (target :: targets) ↔ p.mayStep target = true ∧ target.Continues targets := by
  constructor
  · rintro ⟨rest, hrest, attempts, hall, hpre⟩
    obtain ⟨q, v, rfl, hq, hv⟩ := remainder_step hrest
    rw [List.cons_append, List.cons_prefix_cons] at hpre
    obtain ⟨rfl, hpre⟩ := hpre
    exact ⟨hq, (continues_iff_leftovers target targets).2 ⟨v, hv, attempts, hall, hpre⟩⟩
  · rintro ⟨hstep, hcont⟩
    obtain ⟨v, hv, attempts, hall, hpre⟩ := (continues_iff_leftovers target targets).1 hcont
    exact ⟨target :: v, cons_mem_remainders hstep hv, attempts, hall,
      List.cons_prefix_cons.2 ⟨rfl, hpre⟩⟩

/-- Whole attempts broken off anywhere are whole attempts and the beginning of one more. -/
theorem exists_attempts_of_prefix {attempts : List (List Phase)}
    (hall : ∀ a ∈ attempts, a ∈ paths) (h : targets <+: attempts.flatten) :
    ∃ whole last, targets = List.flatten whole ++ last ∧ (∀ a ∈ whole, a ∈ paths) ∧
      ∃ path ∈ paths, last <+: path := by
  induction attempts generalizing targets with
  | nil =>
    cases List.prefix_nil.1 h
    exact ⟨[], [], rfl, by simp, _, List.mem_cons_self, List.nil_prefix⟩
  | cons path attempts ih =>
    obtain ⟨hpath, hall⟩ := List.forall_mem_cons.1 hall
    rw [List.flatten_cons] at h
    rcases List.prefix_or_prefix_of_prefix h (List.prefix_append path attempts.flatten) with
      hpre | ⟨tail, rfl⟩
    · exact ⟨[], targets, rfl, by simp, path, hpath, hpre⟩
    · obtain ⟨whole, last, rfl, hwhole, hlast⟩ := ih hall ((List.prefix_append_right_inj path).1 h)
      refine ⟨path :: whole, last, by simp, List.forall_mem_cons.2 ⟨hpath, hwhole⟩, hlast⟩

end Phase

namespace Progress

/-- Requests made one after the other, whether they are granted or not. -/
def requestAll (p : Progress) (targets : List Phase) : Progress := targets.foldl request p

def granted (p : Progress) : List Phase → List Phase
  | [] => []
  | target :: targets =>
    match p.advance target with
    | .ok next => target :: next.granted targets
    | .error _ => p.granted targets

variable {p q : Progress} {target : Phase}

theorem advance_eq_ok_iff : p.advance target = .ok q ↔
    p.current.mayStep target = true ∧ q = ⟨target, p.history ++ [target]⟩ := by
  rw [advance]
  split
  case isTrue h => simp [h, eq_comm]
  case isFalse h => simp [h]

theorem request_of_error (h : p.advance target = .error e) : p.request target = p := by
  rw [request, h]

theorem history_requestAll (p : Progress) (targets : List Phase) :
    (p.requestAll targets).history = p.history ++ p.granted targets := by
  induction targets generalizing p with
  | nil => simp [requestAll, granted]
  | cons target targets ih =>
    rw [requestAll, List.foldl_cons]
    change ((p.request target).requestAll targets).history = _
    rw [ih, request, granted]
    cases h : p.advance target with
    | error e => rfl
    | ok next =>
      obtain ⟨-, rfl⟩ := advance_eq_ok_iff.1 h
      simp

theorem getLast?_history_request (h : p.history.getLast? = some p.current) (target : Phase) :
    (p.request target).history.getLast? = some (p.request target).current := by
  rw [request]
  cases hadv : p.advance target with
  | error e => exact h
  | ok next =>
    obtain ⟨-, rfl⟩ := advance_eq_ok_iff.1 hadv
    simp

theorem getLast?_history_requestAll (h : p.history.getLast? = some p.current)
    (targets : List Phase) :
    (p.requestAll targets).history.getLast? = some (p.requestAll targets).current := by
  induction targets generalizing p with
  | nil => exact h
  | cons target targets ih => exact ih (getLast?_history_request h target)

/-- Whether all requests are granted depends on the phases alone. -/
theorem foldlM_advance_ok_iff (p : Progress) (targets : List Phase) :
    (∃ q, targets.foldlM advance p = .ok q) ↔ p.current.Continues targets := by
  induction targets generalizing p with
  | nil => exact iff_of_true ⟨p, rfl⟩ (Phase.continues_nil _)
  | cons target targets ih =>
    rw [Phase.continues_cons_iff, List.foldlM_cons]
    cases h : p.advance target with
    | error e =>
      refine iff_of_false ?_ ?_
      · rintro ⟨q, hq⟩
        cases hq
      · rintro ⟨hstep, -⟩
        cases h.symm.trans (advance_eq_ok_iff.2 ⟨hstep, rfl⟩)
    | ok next =>
      obtain ⟨hstep, rfl⟩ := advance_eq_ok_iff.1 h
      rw [and_iff_right hstep]
      exact ih _

theorem continues_granted (p : Progress) (targets : List Phase) :
    p.current.Continues (p.granted targets) := by
  induction targets generalizing p with
  | nil => exact Phase.continues_nil _
  | cons target targets ih =>
    rw [granted]
    cases h : p.advance target with
    | error e => exact ih p
    | ok next =>
      obtain ⟨hstep, rfl⟩ := advance_eq_ok_iff.1 h
      have hrest := ih ⟨target, p.history ++ [target]⟩
      exact Phase.continues_cons_iff.2 ⟨hstep, hrest⟩

/-- Whatever is requested, a rejected request changes nothing, and the history is idleness and then
what was granted, up to the current phase. Requests are all granted exactly where they begin a series
of attempts of the seven paths. So what is granted falls into attempts that report a failure or go on
but not both, wait only behind the judgement and the engine, and settle once before they end. -/
theorem requestAll_start_follows_paths (targets : List Phase) :
    let p := start.requestAll targets
    (∀ target e, p.advance target = .error e → p.request target = p) ∧
      p.history = .idle :: start.granted targets ∧ p.history.getLast? = some p.current ∧
      ((∃ q, targets.foldlM advance start = .ok q) ↔
        ∃ attempts : List (List Phase), (∀ a ∈ attempts, a ∈ Phase.paths) ∧
          targets <+: attempts.flatten) ∧
      ∃ whole last, start.granted targets = List.flatten whole ++ last ∧
        (∀ a ∈ whole, a ∈ Phase.paths ∧ Phase.Orderly a) ∧
        (∃ path ∈ Phase.paths, last <+: path) ∧ Phase.Orderly last := by
  intro p
  refine ⟨fun target e => request_of_error, history_requestAll start targets,
    getLast?_history_requestAll rfl targets, ?_, ?_⟩
  · rw [foldlM_advance_ok_iff]
    exact Phase.continues_idle_iff targets
  · obtain ⟨attempts, hall, hpre⟩ :=
      (Phase.continues_idle_iff _).1 (continues_granted start targets)
    obtain ⟨whole, last, hgranted, hwhole, path, hpath, hlast⟩ :=
      Phase.exists_attempts_of_prefix hall hpre
    refine ⟨whole, last, hgranted, fun a ha => ⟨hwhole a ha, ?_⟩, ⟨path, hpath, hlast⟩,
      Phase.orderly_of_prefix hpath hlast⟩
    exact Phase.orderly_of_prefix (hwhole a ha) List.prefix_rfl

end Progress

end Thaw
