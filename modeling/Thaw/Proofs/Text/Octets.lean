import Mathlib.Algebra.Order.Ring.Nat
import Thaw.Text.Octets

namespace Thaw
set_option autoImplicit true

namespace Bytes

@[simp] theorem length_ofNat (count n : Nat) : (ofNat count n).length = count := by
  induction count generalizing n with
  | zero => rfl
  | succ count ih => simp [ofNat, ih]

@[simp] theorem length_ofInt64 (i : Int64) : (ofInt64 i).length = 8 := length_ofNat _ _

theorem toNat_ofNat (h : n < 256 ^ count) : (ofNat count n).toNat = n := by
  induction count generalizing n with
  | zero =>
    have hn : n = 0 := by simpa using h
    subst n
    rfl
  | succ count ih =>
    have hhigh : n / 256 < 256 ^ count := by
      rw [Nat.div_lt_iff_lt_mul (by decide)]
      exact h
    simp only [ofNat, toNat, ih hhigh, UInt8.toNat_ofNat']
    exact Nat.mod_add_div n 256

theorem ofNat_toNat (bs : Bytes) : ofNat bs.length bs.toNat = bs := by
  induction bs with
  | nil => rfl
  | cons b bs ih =>
    have hb := b.toNat_lt
    have hdigit : UInt8.ofNat (b.toNat + 256 * toNat bs) = b := by
      apply UInt8.toNat_inj.1
      rw [UInt8.toNat_ofNat']
      omega
    have hhigh : (b.toNat + 256 * toNat bs) / 256 = toNat bs := by omega
    simp only [List.length_cons, ofNat, toNat, hdigit, hhigh, ih]

theorem toNat_lt (bs : Bytes) : bs.toNat < 256 ^ bs.length := by
  induction bs with
  | nil => decide
  | cons b bs ih =>
    have hb := b.toNat_lt
    rw [List.length_cons, Nat.pow_succ, toNat]
    omega

theorem eq_ofNat_iff (hl : bs.length = count) (hn : n < 256 ^ count) :
    bs = ofNat count n ↔ bs.toNat = n := by
  constructor
  · rintro rfl
    exact toNat_ofNat hn
  · intro h
    rw [← h, ← hl, ofNat_toNat]

theorem toInt64_ofInt64 (i : Int64) : (ofInt64 i).toInt64 = i := by
  have h : (ofInt64 i).toNat = i.toUInt64.toNat := toNat_ofNat i.toUInt64.toNat_lt
  rw [toInt64, h, UInt64.ofNat_toNat, Int64.toInt64_toUInt64]

theorem ofInt64_toInt64 {bs : Bytes} (hl : bs.length = 8) : ofInt64 bs.toInt64 = bs := by
  have hlt : bs.toNat < 256 ^ 8 := hl ▸ bs.toNat_lt
  have h : bs.toInt64.toUInt64.toNat = bs.toNat := by
    rw [toInt64, UInt64.toUInt64_toInt64, UInt64.toNat_ofNat']
    exact Nat.mod_eq_of_lt hlt
  rw [ofInt64, h, ← hl, ofNat_toNat]

/-- The upper half of the words of four bytes are the negative numbers. -/
theorem toInt_toInt32 {bs : Bytes} (hl : bs.length = 4) :
    bs.toInt32.toInt = if bs.toNat < 2 ^ 31 then (bs.toNat : Int) else bs.toNat - 2 ^ 32 := by
  have hlt : bs.toNat < 256 ^ 4 := hl ▸ bs.toNat_lt
  have h : (UInt32.ofNat bs.toNat).toBitVec.toNat = bs.toNat := by
    rw [UInt32.toNat_toBitVec, UInt32.toNat_ofNat']
    exact Nat.mod_eq_of_lt hlt
  rw [toInt32, ← Int32.toInt_toBitVec, UInt32.toBitVec_toInt32, BitVec.toInt_eq_toNat_cond, h]
  split <;> split <;> omega

theorem ofString_eq_flatMap (s : String) : ofString s = s.toList.flatMap String.utf8EncodeChar := by
  rw [ofString, String.toUTF8_eq_toByteArray, ← String.utf8Encode_toList, List.utf8Encode,
    List.toList_data_toByteArray]

/-- A character below 128 is its own byte, and all bytes of other characters have their highest bit. -/
theorem utf8EncodeChar_cases (c : Char) :
    (c.toNat < 128 ∧ String.utf8EncodeChar c = [UInt8.ofNat c.toNat]) ∨
      (128 ≤ c.toNat ∧ ∀ b ∈ String.utf8EncodeChar c, 128 ≤ b.toNat) := by
  have hhigh {n : Nat} (hlow : 128 ≤ n) (hhigh : n < 256) : 128 ≤ (UInt8.ofNat n).toNat := by
    rw [UInt8.toNat_ofNat', Nat.mod_eq_of_lt hhigh]
    exact hlow
  by_cases hc : c.toNat < 128
  · refine .inl ⟨hc, ?_⟩
    rw [String.utf8EncodeChar]
    exact if_pos (Nat.le_of_lt_succ hc)
  · have hge := Nat.not_lt.1 hc
    have hnot : ¬ c.val.toNat ≤ 127 := Nat.not_le.2 hge
    refine .inr ⟨hge, fun b hb => ?_⟩
    simp only [String.utf8EncodeChar, if_neg hnot] at hb
    split at hb
    · simp only [List.mem_cons, List.not_mem_nil, or_false] at hb
      rcases hb with rfl | rfl <;> exact hhigh (by omega) (by omega)
    · split at hb
      · simp only [List.mem_cons, List.not_mem_nil, or_false] at hb
        rcases hb with rfl | rfl | rfl <;> exact hhigh (by omega) (by omega)
      · simp only [List.mem_cons, List.not_mem_nil, or_false] at hb
        rcases hb with rfl | rfl | rfl | rfl <;> exact hhigh (by omega) (by omega)

theorem zero_mem_utf8EncodeChar_iff (c : Char) : 0 ∈ String.utf8EncodeChar c ↔ c = '\x00' := by
  obtain ⟨hc, he⟩ | ⟨hc, hhigh⟩ := utf8EncodeChar_cases c
  · have hzero : 0 = UInt8.ofNat c.toNat ↔ c.toNat = '\x00'.toNat := by
      rw [← UInt8.toNat_inj, UInt8.toNat_ofNat', Nat.mod_eq_of_lt (by omega)]
      exact eq_comm
    rw [he, List.mem_singleton, hzero, Char.toNat_inj]
  · refine iff_of_false (fun h => ?_) ?_
    · exact absurd (hhigh 0 h) (by decide)
    · rintro rfl
      exact absurd hc (by decide)

theorem zero_mem_ofString_iff (s : String) : 0 ∈ ofString s ↔ '\x00' ∈ s.toList := by
  rw [ofString_eq_flatMap, List.mem_flatMap]
  constructor
  · rintro ⟨c, hc, h⟩
    exact (zero_mem_utf8EncodeChar_iff c).1 h ▸ hc
  · intro h
    exact ⟨_, h, (zero_mem_utf8EncodeChar_iff _).2 rfl⟩

end Bytes

namespace Text.Utf8

/-- The bytes of a text are the only ones that decode to it. -/
theorem decode_eq_ok_iff (bs : Bytes) (s : String) : decode bs = .ok s ↔ bs = Bytes.ofString s := by
  have htext : String.fromUTF8? ⟨bs.toArray⟩ = some s ↔ bs = Bytes.ofString s := by
    unfold String.fromUTF8?
    constructor
    · intro h
      split at h
      case isTrue hv =>
        cases h
        rfl
      case isFalse => cases h
    · rintro rfl
      have hv : ByteArray.IsValidUTF8 ⟨(Bytes.ofString s).toArray⟩ := s.isValidUTF8
      rw [dif_pos hv]
      rfl
  rw [← htext]
  cases h : String.fromUTF8? ⟨bs.toArray⟩ with
  | none => simp only [decode, h, reduceCtorEq]
  | some text => simp only [decode, h, Except.ok.injEq, Option.some.injEq]

end Text.Utf8

end Thaw
