import Mathlib.Data.List.Nodup
import Thaw.Proofs.Attempt.Course

namespace Thaw.Attempt

set_option autoImplicit true

/-- All that an attempt can do, in the only order in which it does it. -/
def Event.order : List Event :=
  [.collected, .classified, .heapDumped, .failuresIgnored, .engineResolved, .engineRun, .awaited,
   .startupTraced, .parametersIgnored]

/-- The rules of an attempt. `resolves` and `exitsWithZero` are what is known of the engine; `before`
and `after` are the clock and the environment of the process. -/
structure Regular (settings : CheckpointSettings) (dryRun : Bool) (report : Report)
    (resolves exitsWithZero : Prop) (outcome : Except CheckpointError Outcome) (events : List Event)
    (before after : RestoreClock × Environment) : Prop where
  judged_first : [.collected, .classified] <+: events
  ordered : events.Sublist Event.order
  once : events.Nodup
  engineRun_iff : .engineRun ∈ events ↔ dryRun = false ∧ settings.skipEngine = false ∧ resolves ∧
    (report.isClean = true ∨ settings.ignoreFailures = true)
  awaited_iff : .awaited ∈ events ↔ .engineRun ∈ events ∧ exitsWithZero
  heapDumped_iff : .heapDumped ∈ events ↔
    dryRun = false ∧ report.isClean = false ∧ settings.heapDumpOnFailure = true
  unchanged : (∀ state, outcome ≠ .ok (.restored state)) → after = before
  dry : dryRun = true → outcome = .ok (.failed report.blockers)

section

variable {settings : CheckpointSettings} {dryRun : Bool} {r : Report} {w : Surroundings} {s : State}

theorem warnings_sublist : (warnings settings dryRun r).Sublist [.heapDumped, .failuresIgnored] := by
  unfold warnings
  cases dryRun || r.isClean <;> cases settings.heapDumpOnFailure <;>
    cases settings.ignoreFailures <;> decide

theorem heapDumped_mem_warnings_iff : .heapDumped ∈ warnings settings dryRun r ↔
    dryRun = false ∧ r.isClean = false ∧ settings.heapDumpOnFailure = true := by
  unfold warnings
  cases dryRun <;> cases r.isClean <;> cases settings.heapDumpOnFailure <;>
    cases settings.ignoreFailures <;> decide

theorem Course.events_sublist (c : Course) :
    (c.events settings).Sublist [.engineResolved, .engineRun, .awaited, .startupTraced] := by
  cases c with
  | skipped => exact List.nil_sublist _
  | unresolved => exact List.nil_sublist _
  | failed => exact .cons_cons _ (.cons_cons _ (List.nil_sublist _))
  | unannounced => exact .cons_cons _ (.cons_cons _ (.cons_cons _ (List.nil_sublist _)))
  | resumed =>
    refine .cons_cons _ (.cons_cons _ (.cons_cons _ ?_))
    cases settings.traceStartupTime <;> decide

theorem engine_mem_events_iff (settings : CheckpointSettings) (w : Surroundings) :
    (.engineRun ∈ (Course.of settings w).events settings ↔
      settings.skipEngine = false ∧ ∃ engine, w.engine = .ok engine) ∧
    (.awaited ∈ (Course.of settings w).events settings ↔
      .engineRun ∈ (Course.of settings w).events settings ∧ w.execution = .ok ()) := by
  unfold Course.of
  cases settings.skipEngine with
  | true => simp [Course.events]
  | false =>
    cases w.engine with
    | error e => simp [Course.events]
    | ok engine =>
      cases w.execution with
      | error e => simp [Course.events]
      | ok u => cases w.notice <;> simp [Course.events]

theorem Find.events_sublist (reader : Segment.ReaderFate) (memory : Segment.Memory) (token : ResumeToken) :
    (Find.of reader memory token).events.Sublist [.parametersIgnored] := by
  unfold Find.of
  split
  case h_1 => exact List.nil_sublist _
  case h_2 =>
    split
    · exact List.nil_sublist _
    · exact List.Sublist.refl _

def engineEvents (settings : CheckpointSettings) (dryRun : Bool) (w : Surroundings) : List Event :=
  if proceeds settings dryRun w.report then (Course.of settings w).events settings else []

theorem mem_engineEvents_iff : e ∈ engineEvents settings dryRun w ↔
    proceeds settings dryRun w.report = true ∧ e ∈ (Course.of settings w).events settings := by
  rw [engineEvents]
  split
  case isTrue h => exact (and_iff_right h).symm
  case isFalse h => exact iff_of_false List.not_mem_nil fun hmem => h hmem.1

theorem engineEvents_sublist :
    (engineEvents settings dryRun w).Sublist [.engineResolved, .engineRun, .awaited, .startupTraced] := by
  rw [engineEvents]
  split
  · exact Course.events_sublist _
  · exact List.nil_sublist _

theorem exists_events_run (settings : CheckpointSettings) (dryRun : Bool) (w : Surroundings)
    (clock : RestoreClock) (environment : Environment) (memory : Segment.Memory) :
    ∃ ignored, ignored.Sublist [.parametersIgnored] ∧
      (run settings dryRun w (.initial clock environment memory)).2.events =
        [.collected, .classified] ++
          (warnings settings dryRun w.report ++ (engineEvents settings dryRun w ++ ignored)) := by
  have hidle : (State.initial clock environment memory).progress.current = .idle := rfl
  rw [engineEvents]
  cases h : proceeds settings dryRun w.report with
  | false => exact ⟨[], List.nil_sublist _, by rw [run_of_not_proceeds h hidle]; simp [State.initial]⟩
  | true =>
    cases htoken : (Course.of settings w).token with
    | error e =>
      exact ⟨[], List.nil_sublist _, by rw [run_of_error h htoken hidle]; simp [State.initial]⟩
    | ok token =>
      exact ⟨_, Find.events_sublist w.reader memory token, by rw [run_of_ok h htoken hidle]; simp [State.initial]⟩

/-- The parts have no event in common, so that each event is to be sought in one of them alone. -/
theorem mem_events_run_iff {e : Event} (hjudged : e ∉ [.collected, .classified])
    (hwarnings : e ∉ [.heapDumped, .failuresIgnored]) (hignored : e ∉ [.parametersIgnored])
    (clock : RestoreClock) (environment : Environment) (memory : Segment.Memory) :
    e ∈ (run settings dryRun w (.initial clock environment memory)).2.events ↔
      proceeds settings dryRun w.report = true ∧ e ∈ (Course.of settings w).events settings := by
  obtain ⟨ignored, hsub, hevents⟩ := exists_events_run settings dryRun w clock environment memory
  rw [hevents, List.mem_append, List.mem_append, List.mem_append, or_iff_right hjudged,
    or_iff_right (mt (warnings_sublist.subset ·) hwarnings),
    or_iff_left (mt (hsub.subset ·) hignored), mem_engineEvents_iff]

theorem heapDumped_mem_events_run_iff (clock : RestoreClock) (environment : Environment)
    (memory : Segment.Memory) :
    .heapDumped ∈ (run settings dryRun w (.initial clock environment memory)).2.events ↔
      dryRun = false ∧ w.report.isClean = false ∧ settings.heapDumpOnFailure = true := by
  obtain ⟨ignored, hsub, hevents⟩ := exists_events_run settings dryRun w clock environment memory
  have hrest : .heapDumped ∉ engineEvents settings dryRun w ++ ignored :=
    mt ((engineEvents_sublist.append hsub).subset ·) (by decide)
  rw [hevents, List.mem_append, List.mem_append, or_iff_right (by decide), or_iff_left hrest,
    heapDumped_mem_warnings_iff]

theorem run_unchanged (settings : CheckpointSettings) (dryRun : Bool) (w : Surroundings)
    (hs : s.progress.current = .idle)
    (hfail : ∀ state, (run settings dryRun w s).1 ≠ .ok (.restored state)) :
    (run settings dryRun w s).2.clock = s.clock ∧
      (run settings dryRun w s).2.environment = s.environment := by
  cases h : proceeds settings dryRun w.report with
  | false =>
    rw [run_of_not_proceeds h hs]
    exact ⟨rfl, rfl⟩
  | true =>
    cases htoken : (Course.of settings w).token with
    | error e =>
      rw [run_of_error h htoken hs]
      exact ⟨rfl, rfl⟩
    | ok token =>
      rw [run_of_ok h htoken hs] at hfail
      exact absurd rfl (hfail _)

theorem run_of_not_awaited (clock : RestoreClock) (environment : Environment)
    (memory : Segment.Memory)
    (h : .awaited ∉ (run settings dryRun w (.initial clock environment memory)).2.events) :
    (run settings dryRun w (.initial clock environment memory)).2.environment = environment ∧
      (run settings dryRun w (.initial clock environment memory)).2.memory = memory := by
  have hidle : (State.initial clock environment memory).progress.current = .idle := rfl
  rw [mem_events_run_iff (by decide) (by decide) (by decide)] at h
  cases hgoes : proceeds settings dryRun w.report with
  | false =>
    rw [run_of_not_proceeds hgoes hidle]
    exact ⟨rfl, rfl⟩
  | true =>
    cases htoken : (Course.of settings w).token with
    | error e =>
      rw [run_of_error hgoes htoken hidle]
      exact ⟨rfl, rfl⟩
    | ok token =>
      rw [run_of_ok hgoes htoken hidle]
      cases hcourse : Course.of settings w with
      | skipped =>
        rw [hcourse] at htoken
        cases htoken
        exact ⟨rfl, rfl⟩
      | resumed => exact absurd ⟨hgoes, by simp [hcourse, Course.events]⟩ h
      | unresolved => cases hcourse ▸ htoken
      | failed => cases hcourse ▸ htoken
      | unannounced => cases hcourse ▸ htoken

theorem regular_run (settings : CheckpointSettings) (dryRun : Bool) (w : Surroundings)
    (clock : RestoreClock) (environment : Environment) (memory : Segment.Memory) :
    let r := run settings dryRun w (.initial clock environment memory)
    Regular settings dryRun w.report (∃ engine, w.engine = .ok engine) (w.execution = .ok ()) r.1
      r.2.events (clock, environment) (r.2.clock, r.2.environment) := by
  intro r
  have hidle : (State.initial clock environment memory).progress.current = .idle := rfl
  obtain ⟨ignored, hignored, hevents⟩ :=
    exists_events_run settings dryRun w clock environment memory
  have hordered : r.2.events.Sublist Event.order := by
    rw [hevents]
    exact .append (.refl [_, _]) (.append warnings_sublist (.append engineEvents_sublist hignored))
  obtain ⟨hrun, hawaited⟩ := engine_mem_events_iff settings w
  exact {
    judged_first := hevents ▸ List.prefix_append _ _
    ordered := hordered
    once := hordered.nodup (by decide)
    engineRun_iff := by
      rw [mem_events_run_iff (by decide) (by decide) (by decide), hrun, proceeds, Bool.and_eq_true,
        Bool.or_eq_true, Bool.not_eq_true']
      constructor
      · rintro ⟨⟨hdry, hreport⟩, hskip, hresolved⟩
        exact ⟨hdry, hskip, hresolved, hreport⟩
      · rintro ⟨hdry, hskip, hresolved, hreport⟩
        exact ⟨⟨hdry, hreport⟩, hskip, hresolved⟩
    awaited_iff := by
      rw [mem_events_run_iff (by decide) (by decide) (by decide),
        mem_events_run_iff (by decide) (by decide) (by decide), hawaited, and_assoc]
    heapDumped_iff := heapDumped_mem_events_run_iff clock environment memory
    unchanged := fun hfail =>
      Prod.ext_iff.2 (run_unchanged settings dryRun w hidle hfail)
    dry := by
      rintro rfl
      exact congrArg Prod.fst (run_of_not_proceeds rfl hidle) }

end

end Thaw.Attempt
