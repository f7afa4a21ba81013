import Thaw.Proofs.Session.Attempts

namespace Thaw

set_option autoImplicit true

namespace Uptime

theorem ofInt_ne_unknown (nanos : Int) : ofInt nanos ≠ .unknown := by
  unfold ofInt
  split
  · exact nofun
  · exact nofun

theorem ofInt_eq_known_iff : ofInt nanos = .known u ↔ u.toInt = nanos := by
  unfold ofInt
  split
  case isTrue hfits =>
    have hofInt : (Int64.ofInt nanos).toInt = nanos := Int64.toInt_ofInt_of_le hfits.1
      (Int.lt_add_one_of_le hfits.2)
    constructor
    · intro h
      cases h
      exact hofInt
    · intro h
      exact congrArg known (Int64.toInt_inj.1 (hofInt.trans h.symm))
  case isFalse hover =>
    refine iff_of_false nofun ?_
    rintro rfl
    exact hover ⟨u.minValue_le_toInt, u.toInt_le⟩

theorem ofInt_eq_overflow_iff : ofInt nanos = .overflow ↔
    ¬ (Int64.minValue.toInt ≤ nanos ∧ nanos ≤ Int64.maxValue.toInt) := by
  unfold ofInt
  split
  case isTrue hfits => exact iff_of_false nofun (not_not_intro hfits)
  case isFalse hover => exact iff_of_true rfl hover

end Uptime

namespace RestoreClock

inductive Step where
  | set (r : Reading)
  | resetToNow (now : Reading)

def Step.reading : Step → Reading
  | set r => r
  | resetToNow now => now

/-- A step that a resume at `now` can take: it sets the clock to readings that were handed over. -/
def Step.Arises (now : Reading) (reader : Segment.ReaderFate) (memory : Segment.Memory) : Step → Prop
  | set r => ∃ token p, Attempt.Handed reader memory token p ∧ p.reading = r
  | resetToNow reading => reading = now

def run (c : RestoreClock) (steps : List Step) : RestoreClock :=
  steps.foldl (fun _ s => .anchored s.reading) c

variable {now : Int64} {steps : List Step}

theorem run_append (c : RestoreClock) (steps later : List Step) :
    c.run (steps ++ later) = (c.run steps).run later :=
  List.foldl_append

theorem run_eq (c : RestoreClock) (steps : List Step) :
    c.run steps = (steps.getLast?.map fun s => anchored s.reading).getD c := by
  induction steps using List.reverseRecOn with
  | nil => rfl
  | append_singleton steps s _ =>
    rw [run_append, List.getLast?_concat]
    rfl

theorem restoreTime?_anchored (r : Reading) :
    (anchored r).restoreTime? = if r.millis = 0 then none else some r.millis :=
  rfl

theorem restoreTime?_run_eq_none_iff :
    (unset.run steps).restoreTime? = none ↔ ∀ s ∈ steps.getLast?, s.reading.millis = 0 := by
  rw [run_eq]
  cases steps.getLast? with
  | none => simp [restoreTime?, unset]
  | some s => simp [restoreTime?_anchored]

theorem restoreTime?_run_eq_some_iff :
    (unset.run steps).restoreTime? = some t ↔
      ∃ s ∈ steps.getLast?, s.reading.millis ≠ 0 ∧ s.reading.millis = t := by
  rw [run_eq]
  cases steps.getLast? with
  | none => simp [restoreTime?, unset]
  | some s => simp [restoreTime?_anchored]

theorem uptime_eq_unknown_iff {c : RestoreClock} : c.uptime now = .unknown ↔ c.startCounter = 0 := by
  unfold uptime
  split
  case isTrue h => exact iff_of_true rfl h
  case isFalse h => exact iff_of_false (Uptime.ofInt_ne_unknown _) h

theorem uptime_eq_known_iff {c : RestoreClock} :
    c.uptime now = .known u ↔ c.startCounter ≠ 0 ∧ u.toInt = elapsed c.startCounter now := by
  unfold uptime
  split
  case isTrue h => exact iff_of_false nofun fun hne => hne.1 h
  case isFalse h => exact Uptime.ofInt_eq_known_iff.trans (and_iff_right h).symm

theorem uptime_eq_overflow_iff {c : RestoreClock} :
    c.uptime now = .overflow ↔ c.startCounter ≠ 0 ∧
      ¬ (Int64.minValue.toInt ≤ elapsed c.startCounter now ∧
        elapsed c.startCounter now ≤ Int64.maxValue.toInt) := by
  unfold uptime
  split
  case isTrue h => exact iff_of_false nofun fun hne => hne.1 h
  case isFalse h => exact Uptime.ofInt_eq_overflow_iff.trans (and_iff_right h).symm

theorem startCounter_run_eq (steps : List Step) :
    (unset.run steps).startCounter = (steps.getLast?.map fun s => s.reading.nanos).getD 0 := by
  rw [run_eq]
  cases steps.getLast? with
  | none => rfl
  | some s => rfl

theorem uptime_run_eq_unknown_iff :
    (unset.run steps).uptime now = .unknown ↔ ∀ s ∈ steps.getLast?, s.reading.nanos = 0 := by
  rw [uptime_eq_unknown_iff, startCounter_run_eq]
  cases steps.getLast? with
  | none => simp
  | some s => simp

theorem uptime_run_eq_known_iff :
    (unset.run steps).uptime now = .known u ↔
      ∃ s ∈ steps.getLast?, s.reading.nanos ≠ 0 ∧ u.toInt = elapsed s.reading.nanos now := by
  rw [uptime_eq_known_iff, startCounter_run_eq]
  cases steps.getLast? with
  | none => simp
  | some s => simp

theorem uptime_run_eq_overflow_iff :
    (unset.run steps).uptime now = .overflow ↔
      ∃ s ∈ steps.getLast?, s.reading.nanos ≠ 0 ∧
        ¬ (Int64.minValue.toInt ≤ elapsed s.reading.nanos now ∧
          elapsed s.reading.nanos now ≤ Int64.maxValue.toInt) := by
  rw [uptime_eq_overflow_iff, startCounter_run_eq]
  cases steps.getLast? with
  | none => simp
  | some s => simp

theorem minValue_le_elapsed (anchor : Int64) (hnow : 0 ≤ now) :
    Int64.minValue.toInt ≤ elapsed anchor now := by
  have hnonneg : 0 ≤ now.toInt := Int64.le_iff_toInt_le.1 hnow
  have hanchor := anchor.toInt_lt
  rw [Int64.toInt_minValue, elapsed]
  omega

/-- At a counter reading that is not below zero, uptimes overflow only upwards. -/
theorem uptime_eq_overflow_iff_of_nonneg {c : RestoreClock} (hnow : 0 ≤ now) :
    c.uptime now = .overflow ↔ Int64.maxValue.toInt < elapsed c.startCounter now := by
  have hlower := minValue_le_elapsed c.startCounter hnow
  rw [uptime_eq_overflow_iff, and_iff_right hlower, Int.not_le]
  refine and_iff_right_of_imp fun hover hzero => ?_
  have hnow := now.toInt_le
  rw [hzero, elapsed, Int64.toInt_zero] at hover
  omega

/-- A counter that was zero or more when it was read stays within reach of all later readings. -/
theorem forall_uptime_ne_overflow_iff (c : RestoreClock) :
    (∀ now, 0 ≤ now → c.uptime now ≠ .overflow) ↔ 0 ≤ c.startCounter := by
  rw [Int64.le_iff_toInt_le, Int64.toInt_zero]
  constructor
  · intro hall
    have hlast := mt (uptime_eq_overflow_iff_of_nonneg (by decide)).2 (hall Int64.maxValue (by decide))
    rw [elapsed] at hlast
    omega
  · intro hanchor now hnow hover
    have hover := (uptime_eq_overflow_iff_of_nonneg hnow).1 hover
    have hnow := now.toInt_le
    rw [elapsed] at hover
    omega

theorem exists_decode_reading (r : Reading) :
    ∃ bytes p, Parameters.decode bytes = .ok p ∧ p.reading = r := by
  let p : Parameters := ⟨r, [], [], ""⟩
  have hp : p.Encodable := by
    rw [Parameters.encodable_iff, Parameters.free_pieces_iff]
    simp [p, Parameters.environmentSize]
  exact ⟨_, p, Parameters.decode_layout_append hp [], rfl⟩

end RestoreClock

def Attempt.restores (outcome : Except CheckpointError Outcome) : Bool :=
  outcome.toOption.any Outcome.isRestored

/-- An attempt sets the clock once if it restores the process, and not at all otherwise. -/
theorem Attempt.clock_run (settings : CheckpointSettings) (dryRun : Bool) (w : Surroundings)
    (clock : RestoreClock) (environment : Environment) (memory : Segment.Memory) :
    let r := run settings dryRun w (.initial clock environment memory)
    ∃ steps, r.2.clock = clock.run steps ∧ steps.length = [r.1].countP restores ∧
      ∀ step ∈ steps, step.Arises w.now w.reader memory := by
  intro r
  have hidle : (State.initial clock environment memory).progress.current = .idle := rfl
  cases hgoes : proceeds settings dryRun w.report with
  | false =>
    simp only [r, run_of_not_proceeds hgoes hidle]
    exact ⟨[], rfl, rfl, nofun⟩
  | true =>
    cases htoken : (Course.of settings w).token with
    | error e =>
      simp only [r, run_of_error hgoes htoken hidle]
      exact ⟨[], rfl, rfl, nofun⟩
    | ok token =>
      have hsettled : Settled token w.now w.reader r.1 r.2.clock environment r.2.environment memory
          r.2.memory := by
        simp only [r, run_of_ok hgoes htoken hidle]
        exact settled_install w.reader memory token w.now _
      obtain ⟨state, hstate, -⟩ := hsettled.restored
      rw [hstate]
      by_cases hhanded : ∃ p, Handed w.reader memory token p
      · obtain ⟨p, hp⟩ := hhanded
        exact ⟨[.set p.reading], (hsettled.installed p hp).2.1, rfl,
          List.forall_mem_singleton.2 ⟨token, p, hp, rfl⟩⟩
      · exact ⟨[.resetToNow w.now], (hsettled.untouched (not_exists.1 hhanded)).2.1, rfl,
          List.forall_mem_singleton.2 rfl⟩

namespace Session

theorem clock_checkpoint (s : Session) (host : Host) (dryRun : Bool) (isControlSocket : Nat → Bool)
    (waiting : Waiting) :
    let (account, after) := s.checkpoint host dryRun isControlSocket waiting
    ∃ steps, after.clock = s.clock.run steps ∧
      steps.length = [account.outcome].countP Attempt.restores ∧
      ∀ step ∈ steps, ∃ dir ready, s.ensureDirectory = .ok (dir, ready) ∧
        let found := ready.found host dir waiting
        step.Arises found.now host.reader found.memory := by
  unfold checkpoint
  cases hready : s.ensureDirectory with
  | error e => exact ⟨[], rfl, rfl, nofun⟩
  | ok made =>
    obtain ⟨dir, ready⟩ := made
    obtain ⟨tree, rfl⟩ := ensureDirectory_tree hready
    let ready : Session := { s with machine := { s.machine with tree := tree } }
    obtain ⟨steps, hclock, hlength, harises⟩ := Attempt.clock_run s.settings dryRun
      (ready.surroundings host dir isControlSocket waiting) s.clock s.machine.environment
      (ready.found host dir waiting).memory
    exact ⟨steps, hclock, hlength, fun step hstep => ⟨dir, ready, rfl, harises step hstep⟩⟩

/-- What a process asks for an attempt with. Its machine may have changed since the last one. -/
structure Request where
  machine : Machine
  host : Host
  dryRun : Bool
  isControlSocket : Nat → Bool
  waiting : Waiting

def request (s : Session) (r : Request) : Account × Session :=
  { s with machine := r.machine }.checkpoint r.host r.dryRun r.isControlSocket r.waiting

def requests (s : Session) : List Request → List Account × Session
  | [] => ([], s)
  | r :: rs =>
    let (account, after) := s.request r
    let (accounts, last) := after.requests rs
    (account :: accounts, last)

theorem clock_requests (s : Session) (rs : List Request) :
    let (accounts, after) := s.requests rs
    ∃ steps, after.clock = s.clock.run steps ∧
      steps.length = (accounts.map Account.outcome).countP Attempt.restores := by
  induction rs generalizing s with
  | nil => exact ⟨[], rfl, rfl⟩
  | cons r rs ih =>
    obtain ⟨steps, hclock, hlength, -⟩ := clock_checkpoint { s with machine := r.machine } r.host
      r.dryRun r.isControlSocket r.waiting
    obtain ⟨later, hlater, hlengths⟩ := ih (s.request r).2
    refine ⟨steps ++ later, ?_, ?_⟩
    · rw [RestoreClock.run_append, ← hclock]
      exact hlater
    · rw [List.length_append, hlength, hlengths, ← List.countP_append]
      rfl

end Session

namespace RestoreClock

/-- After any steps each query tells of the last one, unless its own anchor there is zero; so the two
agree on whether there was one exactly if both anchors of the last step are zero or neither is, and
both tell of it exactly if neither is. Any reading can come with parameters. An attempt takes a step
exactly if it restores the process, from what is there after the wait. -/
theorem queries_tell_last_step (steps : List Step) (now : Int64) :
    let c := unset.run steps
    (c.restoreTime? = none ↔ ∀ s ∈ steps.getLast?, s.reading.millis = 0) ∧
    (∀ t, c.restoreTime? = some t ↔
      ∃ s ∈ steps.getLast?, s.reading.millis ≠ 0 ∧ s.reading.millis = t) ∧
    (c.uptime now = .unknown ↔ ∀ s ∈ steps.getLast?, s.reading.nanos = 0) ∧
    (∀ u, c.uptime now = .known u ↔
      ∃ s ∈ steps.getLast?, s.reading.nanos ≠ 0 ∧ u.toInt = elapsed s.reading.nanos now) ∧
    (c.uptime now = .overflow ↔
      ∃ s ∈ steps.getLast?, s.reading.nanos ≠ 0 ∧
        ¬ (Int64.minValue.toInt ≤ elapsed s.reading.nanos now ∧
          elapsed s.reading.nanos now ≤ Int64.maxValue.toInt)) ∧
    ((c.restoreTime? = none ↔ c.uptime now = .unknown) ↔
      ∀ s ∈ steps.getLast?, (s.reading.millis = 0 ↔ s.reading.nanos = 0)) ∧
    (c.restoreTime? = steps.getLast?.map (fun s => s.reading.millis) ∧
        (c.uptime now = .unknown ↔ steps = []) ↔
      ∀ s ∈ steps.getLast?, s.reading.millis ≠ 0 ∧ s.reading.nanos ≠ 0) ∧
    (∀ r, ∃ bytes p, Parameters.decode bytes = .ok p ∧ p.reading = r) ∧
    (∀ (s : Session) host dryRun isControlSocket waiting,
      let (account, after) := s.checkpoint host dryRun isControlSocket waiting
      ∃ steps, after.clock = s.clock.run steps ∧
        steps.length = [account.outcome].countP Attempt.restores ∧
        ∀ step ∈ steps, ∃ dir ready, s.ensureDirectory = .ok (dir, ready) ∧
          let found := ready.found host dir waiting
          step.Arises found.now host.reader found.memory) ∧
    ∀ (s : Session) requests,
      let (accounts, after) := s.requests requests
      ∃ steps, after.clock = s.clock.run steps ∧
        steps.length = (accounts.map Session.Account.outcome).countP Attempt.restores := by
  refine ⟨restoreTime?_run_eq_none_iff, fun t => restoreTime?_run_eq_some_iff,
    uptime_run_eq_unknown_iff, fun u => uptime_run_eq_known_iff, uptime_run_eq_overflow_iff, ?_, ?_,
    exists_decode_reading, Session.clock_checkpoint, Session.clock_requests⟩
  · rw [restoreTime?_run_eq_none_iff, uptime_run_eq_unknown_iff]
    cases steps.getLast? with
    | none => simp
    | some s => simp
  · rw [uptime_run_eq_unknown_iff, ← List.getLast?_eq_none_iff, run_eq]
    cases steps.getLast? with
    | none => simp [restoreTime?, unset]
    | some s => simp [restoreTime?_anchored]

theorem queries_disagree :
    let c := unset.run [.set ⟨0, 5⟩]
    c.restoreTime? = none ∧ c.uptime 9 = .known 4 := by
  decide

/-- The uptime since the counter that came with parameters: it is unknown if the counter is zero, and
overflows if it is beyond the greatest 64-bit integer. That happens at some time just if the counter
itself is below zero, and nothing keeps it from being so. -/
theorem uptime_of_decoded {bytes : Bytes} {p : Parameters} (c : RestoreClock)
    (hdecode : Parameters.decode bytes = .ok p) (hnow : 0 ≤ now) :
    let counter := Bytes.toInt64 ((bytes.drop 8).take 8)
    let after := c.run [.set p.reading]
    (after.uptime now = .unknown ↔ counter = 0) ∧
    (∀ u, after.uptime now = .known u ↔ counter ≠ 0 ∧ u.toInt = elapsed counter now) ∧
    (after.uptime now = .overflow ↔ Int64.maxValue.toInt < elapsed counter now) ∧
    ((∀ later, 0 ≤ later → after.uptime later ≠ .overflow) ↔ 0 ≤ counter) := by
  intro counter after
  obtain ⟨-, hreading, -⟩ := Parameters.decode_eq_ok_iff_steps.1 hdecode
  have hcounter : after.startCounter = counter := congrArg Reading.nanos hreading
  rw [← hcounter]
  exact ⟨uptime_eq_unknown_iff, fun u => uptime_eq_known_iff, uptime_eq_overflow_iff_of_nonneg hnow,
    forall_uptime_ne_overflow_iff after⟩

/-- Parameters whose counter, in the bytes from 8 to 15, is the least 64-bit integer. -/
def remote : Bytes :=
  [1, 0, 0, 0, 0, 0, 0, 0] ++ [0, 0, 0, 0, 0, 0, 0, 0x80] ++ [0, 0, 0, 0] ++ [0, 0, 0, 0] ++ [0]

theorem decode_remote : Parameters.decode remote = .ok ⟨⟨1, Int64.minValue⟩, [], [], ""⟩ := rfl

theorem uptime_of_decoded_remote :
    Parameters.decode remote = .ok ⟨⟨1, Int64.minValue⟩, [], [], ""⟩ ∧ (0 : Int64) ≤ 3 ∧
      (unset.run [.set ⟨1, Int64.minValue⟩]).uptime 3 = .overflow := by
  have hnow : (0 : Int64) ≤ 3 := by decide
  obtain ⟨-, -, hoverflow, -⟩ := uptime_of_decoded unset decode_remote hnow
  exact ⟨decode_remote, hnow, hoverflow.2 (by decide)⟩

theorem exists_uptime_overflows :
    ∃ p now, Parameters.decode remote = .ok p ∧ 0 ≤ now ∧
      Int64.maxValue.toInt < elapsed p.reading.nanos now ∧
      (unset.run [.set p.reading]).uptime now = .overflow :=
  ⟨_, 0, decode_remote, by decide, by decide, by decide⟩

end RestoreClock

end Thaw
