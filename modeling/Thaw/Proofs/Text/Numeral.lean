import Mathlib.Data.Nat.Digits.Defs
import Mathlib.Tactic.IntervalCases
import Mathlib.Tactic.Ring
import Thaw.Text.Blank
import Thaw.Text.Numeral

namespace Thaw.Text.Numeral
set_option autoImplicit true

variable {base n : Nat} {cs : List Char}

/-- One or more digits and their value. -/
def Digits (base : Nat) (cs : List Char) (n : Nat) : Prop :=
  cs ≠ [] ∧ ∃ ds : List Nat, cs.map (digit? base) = ds.map some ∧ n = Nat.ofDigits base ds.reverse

/-- A plus sign may stand before the digits. -/
def Natural (base : Nat) (cs : List Char) (n : Nat) : Prop :=
  Digits base cs n ∨ ∃ digits, cs = '+' :: digits ∧ Digits base digits n

/-- So may a minus sign. -/
def Integer (base : Nat) (cs : List Char) (i : Int) : Prop :=
  (∃ n, Natural base cs n ∧ i = (n : Nat)) ∨
    ∃ digits n, cs = '-' :: digits ∧ Digits base digits n ∧ i = -(n : Nat)

theorem digit?_plus (base : Nat) : digit? base '+' = none := by simp [digit?]

theorem digit?_minus (base : Nat) : digit? base '-' = none := by simp [digit?]

theorem digit?_digitChar (hd : d < base) (hb : base ≤ 16) :
    digit? base (Nat.digitChar d) = some d := by
  have h16 : d < 16 := Nat.lt_of_lt_of_le hd hb
  interval_cases d <;> simp [digit?, Nat.digitChar, hd]

theorem not_digits_cons (hc : digit? base c = none) : ¬ Digits base (c :: cs) n := by
  intro h
  obtain ⟨-, ds, hds, -⟩ := h
  rw [List.map_cons, hc] at hds
  cases ds with
  | nil => cases hds
  | cons d ds => cases hds

theorem digits_singleton (hc : digit? base c = some d) : Digits base [c] d :=
  ⟨List.cons_ne_nil c [], [d], by simp [hc], by simp⟩

theorem Digits.snoc (h : Digits base cs n) (hc : digit? base c = some d) :
    Digits base (cs ++ [c]) (base * n + d) := by
  obtain ⟨-, ds, hds, rfl⟩ := h
  refine ⟨by simp, ds ++ [d], by simp [hds, hc], ?_⟩
  rw [List.reverse_concat, Nat.ofDigits_cons]
  exact Nat.add_comm _ _

theorem foldlM_digit?_eq_some_iff {start : Nat} :
    cs.foldlM (fun n c => (digit? base c).map (n * base + ·)) start = some n ↔
      ∃ ds : List Nat, cs.map (digit? base) = ds.map some ∧
        n = start * base ^ ds.length + Nat.ofDigits base ds.reverse := by
  induction cs generalizing start with
  | nil =>
    constructor
    · intro h
      cases h
      exact ⟨[], rfl, by simp⟩
    · intro h
      obtain ⟨ds, hds, rfl⟩ := h
      cases List.map_eq_nil_iff.1 hds.symm
      simp
  | cons c cs ih =>
    have hvalue (d : Nat) (ds : List Nat) :
        (start * base + d) * base ^ ds.length + Nat.ofDigits base ds.reverse =
          start * base ^ (d :: ds).length + Nat.ofDigits base (d :: ds).reverse := by
      rw [Nat.ofDigits_reverse_cons, List.length_cons]
      ring
    rw [List.foldlM_cons, Option.bind_eq_bind, Option.bind_eq_some_iff]
    constructor
    · intro h
      obtain ⟨m, hm, h⟩ := h
      obtain ⟨d, hd, rfl⟩ := Option.map_eq_some_iff.1 hm
      obtain ⟨ds, hds, rfl⟩ := ih.1 h
      exact ⟨d :: ds, by simp [hd, hds], hvalue d ds⟩
    · intro h
      obtain ⟨ds, hds, rfl⟩ := h
      cases ds with
      | nil => cases hds
      | cons d ds =>
        obtain ⟨hd, hds⟩ := List.cons.inj hds
        refine ⟨start * base + d, by rw [hd]; rfl, ih.2 ⟨ds, hds, (hvalue d ds).symm⟩⟩

theorem digits?_eq_some_iff : digits? base cs = some n ↔ Digits base cs n := by
  cases cs with
  | nil =>
    constructor
    · intro h
      cases h
    · intro h
      exact absurd rfl h.1
  | cons c cs =>
    have hread : digits? base (c :: cs) = some n ↔ _ := foldlM_digit?_eq_some_iff
    simp only [Nat.zero_mul, Nat.zero_add] at hread
    rw [Digits, and_iff_right (List.cons_ne_nil c cs), hread]

theorem digits_toDigits (hb : 1 < base) (h16 : base ≤ 16) (n : Nat) :
    Digits base (Nat.toDigits base n) n := by
  induction n using Nat.strongRecOn with
  | ind n ih =>
    by_cases hn : n < base
    · rw [Nat.toDigits_of_lt_base hn]
      exact digits_singleton (digit?_digitChar hn h16)
    · have hle : base ≤ n := Nat.not_lt.1 hn
      have hlow : n % base < base := Nat.mod_lt n (by omega)
      have hhigh := ih (n / base) (Nat.div_lt_self (by omega) hb)
      have h := hhigh.snoc (digit?_digitChar hlow h16)
      rw [Nat.div_add_mod] at h
      rwa [Nat.toDigits_of_base_le hb hle]

theorem natural?_eq_some_iff : natural? base cs = some n ↔ Natural base cs n := by
  unfold natural?
  split
  case h_1 digits =>
    rw [digits?_eq_some_iff]
    constructor
    · intro h
      exact .inr ⟨digits, rfl, h⟩
    · intro h
      cases h with
      | inl h => exact absurd h (not_digits_cons (digit?_plus base))
      | inr h =>
        obtain ⟨_, he, h⟩ := h
        cases he
        exact h
  case h_2 hplus =>
    rw [digits?_eq_some_iff]
    constructor
    · exact .inl
    · intro h
      cases h with
      | inl h => exact h
      | inr h =>
        obtain ⟨digits, he, -⟩ := h
        exact absurd he (hplus digits)

theorem not_natural_minus : ¬ Natural base ('-' :: cs) n := by
  intro h
  cases h with
  | inl h => exact not_digits_cons (digit?_minus base) h
  | inr h =>
    obtain ⟨_, he, -⟩ := h
    cases he

theorem integer?_eq_some_iff {i : Int} : integer? base cs = some i ↔ Integer base cs i := by
  unfold integer?
  split
  case h_1 digits =>
    rw [Option.map_eq_some_iff]
    constructor
    · intro h
      obtain ⟨_, hread, rfl⟩ := h
      obtain ⟨n, hn, he⟩ := Option.bind_eq_some_iff.1 hread
      cases he
      exact .inr ⟨digits, n, rfl, digits?_eq_some_iff.1 hn, rfl⟩
    · intro h
      cases h with
      | inl h =>
        obtain ⟨n, hn, -⟩ := h
        exact absurd hn not_natural_minus
      | inr h =>
        obtain ⟨_, n, he, hn, rfl⟩ := h
        cases he
        exact ⟨n, Option.bind_eq_some_iff.2 ⟨n, digits?_eq_some_iff.2 hn, rfl⟩, rfl⟩
  case h_2 hminus =>
    rw [Option.map_eq_some_iff]
    constructor
    · intro h
      obtain ⟨n, hn, rfl⟩ := h
      exact .inl ⟨n, natural?_eq_some_iff.1 hn, rfl⟩
    · intro h
      cases h with
      | inl h =>
        obtain ⟨n, hn, rfl⟩ := h
        exact ⟨n, natural?_eq_some_iff.2 hn, rfl⟩
      | inr h =>
        obtain ⟨digits, _, he, -⟩ := h
        exact absurd he (hminus digits)

theorem word_eq_some_iff {bound : Nat} {ofNat : Nat → W} {toNat : W → Nat}
    (hlt : ∀ w, toNat w < bound) (hto : ∀ n < bound, toNat (ofNat n) = n)
    (hof : ∀ w, ofNat (toNat w) = w) :
    ((natural? base cs).bind fun n => if n < bound then some (ofNat n) else none) = some w ↔
      Natural base cs (toNat w) := by
  rw [Option.bind_eq_some_iff]
  constructor
  · intro h
    obtain ⟨n, hn, h⟩ := h
    split at h
    case isTrue hbound =>
      cases h
      rw [hto n hbound]
      exact natural?_eq_some_iff.1 hn
    case isFalse => cases h
  · intro h
    exact ⟨toNat w, natural?_eq_some_iff.2 h, by rw [if_pos (hlt w), hof]⟩

theorem uint16?_eq_some_iff {w : UInt16} : uint16? base cs = some w ↔ Natural base cs w.toNat :=
  word_eq_some_iff UInt16.toNat_lt (fun _ h => UInt16.toNat_ofNat_of_lt' h) fun _ =>
    UInt16.ofNat_toNat

theorem uint32?_eq_some_iff {w : UInt32} : uint32? base cs = some w ↔ Natural base cs w.toNat :=
  word_eq_some_iff UInt32.toNat_lt (fun _ h => UInt32.toNat_ofNat_of_lt' h) fun _ =>
    UInt32.ofNat_toNat

theorem uint64?_eq_some_iff {w : UInt64} : uint64? base cs = some w ↔ Natural base cs w.toNat :=
  word_eq_some_iff UInt64.toNat_lt (fun _ h => UInt64.toNat_ofNat_of_lt' h) fun _ =>
    UInt64.ofNat_toNat

theorem int32?_eq_some_iff {i : Int32} : int32? base cs = some i ↔ Integer base cs i.toInt := by
  rw [int32?, Option.bind_eq_bind, Option.bind_eq_some_iff]
  constructor
  · intro h
    obtain ⟨j, hj, h⟩ := h
    split at h
    case isTrue hbound =>
      cases h
      rw [Int32.toInt_ofInt_of_le hbound.1 hbound.2]
      exact integer?_eq_some_iff.1 hj
    case isFalse => cases h
  · intro h
    have hbound : -0x80000000 ≤ i.toInt ∧ i.toInt < 0x80000000 := ⟨i.le_toInt, i.toInt_lt⟩
    exact ⟨i.toInt, integer?_eq_some_iff.2 h, by rw [if_pos hbound, Int32.ofInt_toInt]⟩

theorem digits_toString (n : Nat) : Digits 10 (toString n).toList n := by
  rw [Nat.toString_eq_repr, Nat.toList_repr]
  exact digits_toDigits (by decide) (by decide) n

theorem integer_toString (i : Int) : Integer 10 (toString i).toList i := by
  cases i with
  | ofNat n => exact .inl ⟨n, .inl (digits_toString n), rfl⟩
  | negSucc n =>
    refine .inr ⟨_, n + 1, ?_, digits_toString (n + 1), rfl⟩
    rw [Nat.toString_eq_repr]
    exact String.toList_append

theorem Digits.exists_digit? (h : Digits base cs n) (hc : c ∈ cs) : ∃ d, digit? base c = some d := by
  obtain ⟨-, ds, hds, -⟩ := h
  have hmem : digit? base c ∈ ds.map some := hds ▸ List.mem_map_of_mem hc
  obtain ⟨d, -, hd⟩ := List.mem_map.1 hmem
  exact ⟨d, hd.symm⟩

theorem Natural.forall_mem {P : Char → Prop} (h : Natural base cs n) (hplus : P '+')
    (hdigit : ∀ c d, digit? base c = some d → P c) : ∀ c ∈ cs, P c := by
  have hdigits (cs : List Char) (h : Digits base cs n) : ∀ c ∈ cs, P c := by
    intro c hc
    obtain ⟨d, hd⟩ := h.exists_digit? hc
    exact hdigit c d hd
  cases h with
  | inl h => exact hdigits cs h
  | inr h =>
    obtain ⟨digits, rfl, h⟩ := h
    exact List.forall_mem_cons.2 ⟨hplus, hdigits digits h⟩

theorem ranges_of_digit? (h : digit? base c = some d) : 48 ≤ c.toNat ∧ c.toNat ≤ 57 ∨
    97 ≤ c.toNat ∧ c.toNat ≤ 102 ∨ 65 ≤ c.toNat ∧ c.toNat ≤ 70 := by
  by_cases hdecimal : '0' ≤ c ∧ c ≤ '9'
  · exact .inl hdecimal
  · by_cases hlower : 'a' ≤ c ∧ c ≤ 'f'
    · exact .inr (.inl hlower)
    · by_cases hupper : 'A' ≤ c ∧ c ≤ 'F'
      · exact .inr (.inr hupper)
      · simp [digit?, hdecimal, hlower, hupper] at h

theorem isBlank_of_digit? (h : digit? base c = some d) : isBlank c = false := by
  have hranges := ranges_of_digit? h
  simp [isBlank, blankRanges]
  omega

theorem Natural.isBlank_eq_false (h : Natural base cs n) : ∀ c ∈ cs, isBlank c = false :=
  h.forall_mem (by decide) fun _ _ => isBlank_of_digit?

theorem Integer.isBlank_eq_false (h : Integer base cs i) : ∀ c ∈ cs, isBlank c = false := by
  cases h with
  | inl h =>
    obtain ⟨n, h, -⟩ := h
    exact h.isBlank_eq_false
  | inr h =>
    obtain ⟨digits, n, rfl, h, -⟩ := h
    exact List.forall_mem_cons.2 ⟨by decide, Natural.isBlank_eq_false (.inl h)⟩

end Thaw.Text.Numeral
