import Thaw.Proofs.Text.Numeral
import Thaw.Proofs.Text.Words
import Thaw.Resume

namespace Thaw
set_option autoImplicit true

open Text

theorem resumePayload?_eq_some_iff : resumePayload? announced = some payload ↔
    (announced = none ∧ payload = 0) ∨
      ∃ text, announced = some text ∧ Numeral.Integer 10 (trim text.toList) payload.toInt := by
  cases announced with
  | none => simp [resumePayload?, eq_comm]
  | some text => simp [resumePayload?, Numeral.int32?_eq_some_iff]

theorem resumePayload?_toString (value : Int32) :
    resumePayload? (some (toString value.toInt)) = some value := by
  have hnumeral := Numeral.integer_toString value.toInt
  rw [resumePayload?_eq_some_iff]
  refine .inr ⟨_, rfl, ?_⟩
  rw [trim_of_free hnumeral.isBlank_eq_false]
  exact hnumeral

theorem resumePayload?_text (id : Segment.Id) : resumePayload? (some id.text) = some id.value :=
  resumePayload?_toString id.value

namespace Delivery

variable {payload : Int32}

theorem token_queued (payload : Int32) : (queued payload).token =
    if payload.toInt < 0 then .error (.invalidPayload payload.toInt)
    else .ok ⟨Segment.Id.ofInt32? payload⟩ :=
  if_neg fun h => h rfl

theorem token_queued_of_neg (h : payload.toInt < 0) :
    (queued payload).token = .error (.invalidPayload payload.toInt) :=
  (token_queued payload).trans (if_pos h)

theorem token_queued_of_nonneg (h : 0 ≤ payload.toInt) :
    (queued payload).token = .ok ⟨Segment.Id.ofInt32? payload⟩ :=
  (token_queued payload).trans (if_neg (Int.not_lt.2 h))

theorem exists_token_queued_iff : (∃ t, (queued payload).token = .ok t) ↔ 0 ≤ payload.toInt := by
  constructor
  · intro h
    obtain ⟨t, ht⟩ := h
    by_contra hneg
    rw [token_queued_of_neg (Int.not_le.1 hneg)] at ht
    cases ht
  · intro h
    exact ⟨_, token_queued_of_nonneg h⟩

theorem token_queued_id (id : Segment.Id) : (queued id.value).token = .ok ⟨some id⟩ := by
  rw [token_queued_of_nonneg (Int.le_of_lt id.positive), Segment.Id.ofInt32?, dif_pos id.positive]

theorem token_queued_eq_ok_iff : (queued payload).token = .ok t ↔
    (payload = 0 ∧ t.segment = none) ∨ ∃ id, payload = id.value ∧ t.segment = some id := by
  constructor
  · intro h
    have hnonneg : 0 ≤ payload.toInt := exists_token_queued_iff.1 ⟨t, h⟩
    rw [token_queued_of_nonneg hnonneg] at h
    cases h
    by_cases hpos : 0 < payload.toInt
    · exact .inr ⟨⟨payload, hpos⟩, rfl, dif_pos hpos⟩
    · have hzero : payload.toInt = 0 := Int.le_antisymm (Int.not_lt.1 hpos) hnonneg
      exact .inl ⟨Int32.toInt_inj.1 hzero, dif_neg hpos⟩
  · intro h
    obtain ⟨segment⟩ := t
    cases h with
    | inl h =>
      obtain ⟨rfl, h⟩ := h
      cases h
      rfl
    | inr h =>
      obtain ⟨id, rfl, h⟩ := h
      cases h
      exact token_queued_id id

theorem token_queued_eq_error_iff : (queued payload).token = .error e ↔
    payload.toInt < 0 ∧ e = .invalidPayload payload.toInt := by
  by_cases h : payload.toInt < 0
  · rw [token_queued_of_neg h, Except.error.injEq, eq_comm]
    exact (and_iff_right h).symm
  · rw [token_queued_of_nonneg (Int.not_lt.1 h)]
    constructor
    · intro he
      cases he
    · intro he
      exact absurd he.1 h

/-- The hook sends the number that is exported, and zero where nothing is. What it sends is accepted
unless it is below zero: zero arrives as a restore without a segment, a number above it as the segment
that it identifies. The identifier of a segment thus arrives as it was exported. -/
theorem token_queued_of_resumePayload? (announced : Option String) :
    (∀ payload, resumePayload? announced = some payload ↔
      (announced = none ∧ payload = 0) ∨
        ∃ text, announced = some text ∧ Numeral.Integer 10 (trim text.toList) payload.toInt) ∧
    (∀ payload, resumePayload? announced = some payload →
      ((∃ t, (queued payload).token = .ok t) ↔ 0 ≤ payload.toInt) ∧
      (∀ t, (queued payload).token = .ok t ↔
        (payload = 0 ∧ t.segment = none) ∨ ∃ id, payload = id.value ∧ t.segment = some id) ∧
      ∀ e, (queued payload).token = .error e ↔
        payload.toInt < 0 ∧ e = .invalidPayload payload.toInt) ∧
    ∀ id : Segment.Id, announced = some id.text → resumePayload? announced = some id.value ∧
      (queued id.value).token = .ok ⟨some id⟩ := by
  refine ⟨fun payload => resumePayload?_eq_some_iff, ?_, ?_⟩
  · intro payload _
    exact ⟨exists_token_queued_iff, fun t => token_queued_eq_ok_iff,
      fun e => token_queued_eq_error_iff⟩
  · intro id h
    subst h
    exact ⟨resumePayload?_text id, token_queued_id id⟩

theorem token_queued_of_resumePayload?_padded :
    resumePayload? (some " +77\n") = some 77 ∧
      ∃ t, (queued 77).token = .ok t ∧ t.segment.map (·.value) = some 77 := by
  have h : resumePayload? (some " +77\n") = some 77 := by decide +kernel
  obtain ⟨-, htoken, -⟩ := (token_queued_of_resumePayload? (some " +77\n")).2.1 _ h
  let id : Segment.Id := ⟨77, by decide⟩
  exact ⟨h, ⟨some id⟩, (htoken _).2 (.inr ⟨id, rfl, rfl⟩), rfl⟩

/-- An export below zero is sent, and refused. -/
theorem token_queued_neg_three : resumePayload? (some "-3") = some (-3) ∧
    (queued (-3)).token = .error (.invalidPayload (-3)) :=
  ⟨by decide +kernel, by decide +kernel⟩

end Delivery

end Thaw
