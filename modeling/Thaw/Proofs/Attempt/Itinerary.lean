import Thaw.Proofs.Attempt.Recovery

namespace Thaw.Attempt

set_option autoImplicit true

/-- What follows a judgement that lets an attempt go on. -/
inductive Onward (settings : CheckpointSettings) (w : Surroundings) (memory : Segment.Memory) :
    List Phase → Prop where
  | skipped (hskip : settings.skipEngine = true) :
    Onward settings w memory [.invokingEngine, .resumed, .timestampsReset, .idle]
  | unresolved (hskip : settings.skipEngine = false) (hengine : w.engine = .error e) :
    Onward settings w memory [.invokingEngine, .reportingFailure, .idle]
  | failed (hskip : settings.skipEngine = false) (hengine : w.engine = .ok engine)
      (hexecution : w.execution = .error e) :
    Onward settings w memory [.invokingEngine, .reportingFailure, .idle]
  | unannounced (hskip : settings.skipEngine = false) (hengine : w.engine = .ok engine)
      (hexecution : w.execution = .ok ()) (hnotice : w.notice = .error e) :
    Onward settings w memory [.invokingEngine, .awaitingRestore, .reportingFailure, .idle]
  | applied (hskip : settings.skipEngine = false) (hengine : w.engine = .ok engine)
      (hexecution : w.execution = .ok ()) (hnotice : w.notice = .ok token)
      (hhanded : Handed w.reader memory token p) :
    Onward settings w memory
      [.invokingEngine, .awaitingRestore, .resumed, .parametersApplied, .idle]
  | reset (hskip : settings.skipEngine = false) (hengine : w.engine = .ok engine)
      (hexecution : w.execution = .ok ()) (hnotice : w.notice = .ok token)
      (hnone : ∀ p, ¬ Handed w.reader memory token p) :
    Onward settings w memory
      [.invokingEngine, .awaitingRestore, .resumed, .timestampsReset, .idle]

/-- What an attempt is to visit between one idleness and the next. -/
inductive Due (settings : CheckpointSettings) (dryRun : Bool) (w : Surroundings)
    (memory : Segment.Memory) : List Phase → Prop where
  | reported (h : dryRun = true ∨ w.report.isClean = false ∧ settings.ignoreFailures = false) :
    Due settings dryRun w memory [.preparingPause, .classifyingDescriptors, .reportingFailure, .idle]
  | onward (hdry : dryRun = false)
      (hreport : w.report.isClean = true ∨ settings.ignoreFailures = true)
      (h : Onward settings w memory path) :
    Due settings dryRun w memory (.preparingPause :: .classifyingDescriptors :: path)

def Course.ending (reader : Segment.ReaderFate) (memory : Segment.Memory) (c : Course) : List Phase :=
  match c.token with
  | .ok token => (Find.of reader memory token).path
  | .error _ => []

def itinerary (settings : CheckpointSettings) (dryRun : Bool) (w : Surroundings)
    (memory : Segment.Memory) : List Phase :=
  [.preparingPause, .classifyingDescriptors] ++
    if proceeds settings dryRun w.report then
      (Course.of settings w).path ++ (Course.of settings w).ending w.reader memory
    else [.reportingFailure, .idle]

variable {settings : CheckpointSettings} {dryRun : Bool} {w : Surroundings}
  {reader : Segment.ReaderFate} {memory : Segment.Memory} {path : List Phase} {token : ResumeToken} {p : Parameters} {s : State}

theorem Find.path_of_handed (h : Handed reader memory token p) :
    (Find.of reader memory token).path = [.parametersApplied, .idle] := by
  rw [path, parameters_of_eq_some_iff.2 h]

theorem Find.path_of_not_handed (h : ∀ p, ¬ Handed reader memory token p) :
    (Find.of reader memory token).path = [.timestampsReset, .idle] := by
  rw [path, parameters_of_eq_none_iff.2 h]

theorem Course.ending_of_ok {c : Course} (h : c.token = .ok token) :
    c.ending reader memory = (Find.of reader memory token).path := by
  rw [ending, h]

theorem Course.ending_of_error {c : Course} (h : c.token = .error e) : c.ending reader memory = [] := by
  rw [ending, h]

theorem Onward.eq_course (h : Onward settings w memory path) :
    path = (Course.of settings w).path ++ (Course.of settings w).ending w.reader memory := by
  cases h with
  | skipped hskip =>
    have hcourse : Course.of settings w = .skipped := by rw [Course.of, hskip]; rfl
    rw [hcourse]
    rfl
  | @unresolved e hskip hengine =>
    have hcourse : Course.of settings w = .unresolved e := by rw [Course.of, hskip, hengine]; rfl
    rw [hcourse]
    rfl
  | @failed engine e hskip hengine hexecution =>
    have hcourse : Course.of settings w = .failed e := by
      rw [Course.of, hskip, hengine, hexecution]
      rfl
    rw [hcourse]
    rfl
  | @unannounced engine e hskip hengine hexecution hnotice =>
    have hcourse : Course.of settings w = .unannounced e := by
      rw [Course.of, hskip, hengine, hexecution, hnotice]
      rfl
    rw [hcourse]
    rfl
  | @applied engine token p hskip hengine hexecution hnotice hhanded =>
    have hcourse : Course.of settings w = .resumed token := by
      rw [Course.of, hskip, hengine, hexecution, hnotice]
      rfl
    rw [hcourse, Course.ending_of_ok rfl, Find.path_of_handed hhanded]
    rfl
  | @reset engine token hskip hengine hexecution hnotice hnone =>
    have hcourse : Course.of settings w = .resumed token := by
      rw [Course.of, hskip, hengine, hexecution, hnotice]
      rfl
    rw [hcourse, Course.ending_of_ok rfl, Find.path_of_not_handed hnone]
    rfl

theorem onward_course (settings : CheckpointSettings) (w : Surroundings) (memory : Segment.Memory) :
    Onward settings w memory
      ((Course.of settings w).path ++ (Course.of settings w).ending w.reader memory) := by
  unfold Course.of
  split
  case isTrue hskip => exact .skipped hskip
  case isFalse hskip =>
    have hskip : settings.skipEngine = false := Bool.eq_false_iff.2 hskip
    cases hengine : w.engine with
    | error e => exact .unresolved hskip hengine
    | ok engine =>
      cases hexecution : w.execution with
      | error e => exact .failed hskip hengine hexecution
      | ok u =>
        cases hnotice : w.notice with
        | error e => exact .unannounced hskip hengine hexecution hnotice
        | ok token =>
          change Onward settings w memory
            ((Course.resumed token).path ++ (Find.of w.reader memory token).path)
          cases hfound : (Find.of w.reader memory token).parameters with
          | some p =>
            have hhanded := Find.parameters_of_eq_some_iff.1 hfound
            rw [Find.path_of_handed hhanded]
            exact .applied hskip hengine hexecution hnotice hhanded
          | none =>
            have hnone := Find.parameters_of_eq_none_iff.1 hfound
            rw [Find.path_of_not_handed hnone]
            exact .reset hskip hengine hexecution hnotice hnone

theorem due_iff : Due settings dryRun w memory path ↔ path = itinerary settings dryRun w memory := by
  have hproceeds : proceeds settings dryRun w.report = true ↔
      dryRun = false ∧ (w.report.isClean = true ∨ settings.ignoreFailures = true) := by
    simp [proceeds]
  constructor
  · intro h
    cases h with
    | reported h =>
      have hstays : ¬ proceeds settings dryRun w.report = true := by
        rw [hproceeds]
        rcases h with rfl | ⟨hclean, hignore⟩
        · simp
        · simp [hclean, hignore]
      rw [itinerary, if_neg hstays]
      rfl
    | onward hdry hreport h =>
      rw [itinerary, if_pos (hproceeds.2 ⟨hdry, hreport⟩), h.eq_course]
      rfl
  · rintro rfl
    rw [itinerary]
    split
    case isTrue hgoes =>
      obtain ⟨hdry, hreport⟩ := hproceeds.1 hgoes
      exact .onward hdry hreport (onward_course settings w memory)
    case isFalse hstays =>
      refine .reported ?_
      rw [hproceeds] at hstays
      cases dryRun with
      | true => exact .inl rfl
      | false => simpa using hstays

theorem Course.getLast?_path_of_error {c : Course} (h : c.token = .error e) :
    c.path.getLast? = some .idle := by
  cases c with
  | skipped => cases h
  | resumed => cases h
  | unresolved => rfl
  | failed => rfl
  | unannounced => rfl

theorem Course.token_ne_forbiddenStep (c : Course) (e : ForbiddenStep) :
    c.token ≠ .error (.forbiddenStep e) := by
  intro h
  cases c <;> cases h

theorem Find.getLast?_path (found : Find) : found.path.getLast? = some .idle := by
  rw [path]
  split
  · rfl
  · rfl

theorem Find.progress_install (found : Find) (now : Reading) (s : State) :
    (found.install now s).progress = s.progress := by
  rw [install]
  split
  · rfl
  · rfl

theorem State.progress_after {done : List Event} (h : path.getLast? = some q) :
    (s.after path done).progress = ⟨q, s.progress.history ++ path⟩ := by
  simp [after, List.getLastD_eq_getLast?, h]

theorem progress_run (settings : CheckpointSettings) (dryRun : Bool) (w : Surroundings)
    (clock : RestoreClock) (environment : Environment) (memory : Segment.Memory) :
    (run settings dryRun w (.initial clock environment memory)).2.progress =
      ⟨.idle, .idle :: itinerary settings dryRun w memory⟩ := by
  have hidle : (State.initial clock environment memory).progress.current = .idle := rfl
  rw [itinerary]
  cases hgoes : proceeds settings dryRun w.report with
  | false =>
    rw [run_of_not_proceeds hgoes hidle]
    rfl
  | true =>
    cases htoken : (Course.of settings w).token with
    | error e =>
      have hlast : ([Phase.preparingPause, .classifyingDescriptors] ++
          (Course.of settings w).path).getLast? = some .idle := by
        rw [List.getLast?_append, Course.getLast?_path_of_error htoken]
        rfl
      rw [run_of_error hgoes htoken hidle, State.progress_after hlast, if_pos rfl,
        Course.ending_of_error htoken, List.append_nil]
      rfl
    | ok token =>
      rw [run_of_ok hgoes htoken hidle, State.progress_after (Find.getLast?_path _),
        Find.progress_install, if_pos rfl, Course.ending_of_ok htoken]
      rfl

theorem run_ne_forbiddenStep (settings : CheckpointSettings) (dryRun : Bool) (w : Surroundings)
    (hs : s.progress.current = .idle) (e : ForbiddenStep) :
    (run settings dryRun w s).1 ≠ .error (.forbiddenStep e) := by
  intro h
  cases hgoes : proceeds settings dryRun w.report with
  | false =>
    rw [run_of_not_proceeds hgoes hs] at h
    cases h
  | true =>
    cases htoken : (Course.of settings w).token with
    | error cause =>
      rw [run_of_error hgoes htoken hs] at h
      cases h
      exact Course.token_ne_forbiddenStep _ e htoken
    | ok token =>
      rw [run_of_ok hgoes htoken hs] at h
      cases h

end Thaw.Attempt
