import Thaw.Proofs.Attempt.Course
import Thaw.Proofs.Parameters.HandOver

namespace Thaw.Attempt

set_option autoImplicit true

/-- The parameters to which a token leads: it names a segment, the segment is there and can be opened,
and what it holds can all be read and decoded. -/
def Handed (reader : Segment.ReaderFate) (memory : Segment.Memory) (token : ResumeToken)
    (p : Parameters) : Prop :=
  ∃ id object, token.segment = some id ∧ memory.lookup? id.value = some object ∧
    reader.opening = none ∧ reader.reading = none ∧
    Parameters.decode (memory.content object) = .ok p

/-- What a resume comes to: the parameters take effect as a whole or not at all, and the segment that
was announced is used up either way if it can be opened and its name can be removed. Environment and
memory are told before and after. -/
structure Settled (token : ResumeToken) (now : Reading) (reader : Segment.ReaderFate)
    (outcome : Except CheckpointError Outcome) (clock' : RestoreClock)
    (environment environment' : Environment) (memory memory' : Segment.Memory) : Prop where
  restored : ∃ state, outcome = .ok (.restored state) ∧
    (state.newArguments.isSome ↔ ∃ p, Handed reader memory token p)
  installed : ∀ p, Handed reader memory token p →
    outcome = .ok (.restored ⟨some p.arguments, p.properties⟩) ∧ clock' = .anchored p.reading ∧
      environment' = environment.applyAll p.environment
  untouched : (∀ p, ¬ Handed reader memory token p) →
    outcome = .ok (.restored ⟨none, []⟩) ∧ clock' = .anchored now ∧ environment' = environment
  taken : ∀ id, token.segment = some id → reader.opening = none → reader.unlinking = none →
    memory'.lookup? id.value = none
  spared : ∀ other, (∀ id, token.segment = some id →
      other ≠ id.value ∨ reader.opening ≠ none ∨ reader.unlinking ≠ none) →
    memory'.lookup? other = memory.lookup? other
  contents : memory'.objects = memory.objects

variable {settings : CheckpointSettings} {dryRun : Bool} {w : Surroundings} {s : State}
  {reader : Segment.ReaderFate} {memory : Segment.Memory} {token : ResumeToken} {p : Parameters}

theorem Find.parameters_of_segment {id : Segment.Id} (h : token.segment = some id) :
    (Find.of reader memory token).parameters = some p ↔
      (Parameters.take memory reader id.value).2 = .ok p := by
  rw [Find.of, h]
  dsimp only
  rcases Parameters.take memory reader id.value with ⟨_, _ | q⟩
  · simp
  · simp

theorem Find.parameters_of_eq_some_iff :
    (Find.of reader memory token).parameters = some p ↔ Handed reader memory token p := by
  cases hsegment : token.segment with
  | none => simp [Find.of, Handed, hsegment]
  | some id =>
    rw [Find.parameters_of_segment hsegment, Parameters.take_eq_ok_iff]
    constructor
    · rintro ⟨hopening, hreading, object, hobject, hdecode⟩
      exact ⟨id, object, hsegment, hobject, hopening, hreading, hdecode⟩
    · rintro ⟨other, object, hother, hobject, hopening, hreading, hdecode⟩
      cases hsegment.symm.trans hother
      exact ⟨hopening, hreading, object, hobject, hdecode⟩

theorem Find.parameters_of_eq_none_iff :
    (Find.of reader memory token).parameters = none ↔ ∀ p, ¬ Handed reader memory token p := by
  simp only [← Find.parameters_of_eq_some_iff]
  exact Option.eq_none_iff_forall_ne_some

theorem Find.memory_of (reader : Segment.ReaderFate) (memory : Segment.Memory) (token : ResumeToken) :
    (Find.of reader memory token).memory =
      match token.segment with
      | none => memory
      | some id => (Parameters.take memory reader id.value).1 := by
  unfold Find.of
  cases token.segment with
  | none => rfl
  | some id =>
    dsimp only
    rcases Parameters.take memory reader id.value with ⟨_, _ | q⟩
    · rfl
    · rfl

theorem Find.memory_install (found : Find) (now : Reading) (s : State) :
    (found.install now s).memory = found.memory := by
  rw [install]
  split
  · rfl
  · rfl

theorem settled_install (reader : Segment.ReaderFate) (memory : Segment.Memory) (token : ResumeToken)
    (now : Reading) (s : State) :
    let found := Find.of reader memory token
    let after := found.install now s
    Settled token now reader (.ok (.restored found.restored)) after.clock s.environment
      after.environment memory after.memory := by
  intro found after
  have hmemory : after.memory = _ :=
    (Find.memory_install found now s).trans (Find.memory_of reader memory token)
  refine
    { restored := ⟨_, rfl, ?_⟩, installed := fun p hp => ?_, untouched := fun hnone => ?_,
      taken := fun id hid hopening hunlinking => ?_, spared := fun other hother => ?_,
      contents := ?_ }
  · simp only [← Find.parameters_of_eq_some_iff]
    change found.restored.newArguments.isSome ↔ ∃ p, found.parameters = some p
    rw [Find.restored]
    cases found.parameters with
    | none => simp
    | some q => simp
  · have hfound : found.parameters = some p := Find.parameters_of_eq_some_iff.2 hp
    simp only [after, Find.restored, Find.install, hfound, and_self]
  · have hfound : found.parameters = none := Find.parameters_of_eq_none_iff.2 hnone
    simp only [after, Find.restored, Find.install, hfound, and_self]
  · rw [hmemory, hid, Parameters.lookup?_take, if_pos ⟨rfl, hopening, hunlinking⟩]
  · cases hsegment : token.segment with
    | none => rw [hmemory, hsegment]
    | some id =>
      rw [hmemory, hsegment, Parameters.lookup?_take, if_neg]
      rintro ⟨he, hopening, hunlinking⟩
      obtain hne | hrefused | hrefused := hother id hsegment
      · exact hne he
      · exact hrefused hopening
      · exact hrefused hunlinking
  · rw [hmemory]
    cases token.segment with
    | none => rfl
    | some id => exact Parameters.objects_take memory reader id.value

end Thaw.Attempt
