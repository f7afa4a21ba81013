import Thaw.Proofs.Ledger.Arrangement
import Thaw.Proofs.Text.Numeral
import Thaw.Proofs.Text.Octets

namespace Thaw.Ledger
set_option autoImplicit true

variable {c : Char} {n : Nat}

def IsHexDigit (c : Char) : Prop :=
  ('0' ≤ c ∧ c ≤ '9') ∨ ('a' ≤ c ∧ c ≤ 'f') ∨ ('A' ≤ c ∧ c ≤ 'F')

theorem isHexDigit_iff : IsHexDigit c ↔ 48 ≤ c.toNat ∧ c.toNat ≤ 57 ∨
    97 ≤ c.toNat ∧ c.toNat ≤ 102 ∨ 65 ≤ c.toNat ∧ c.toNat ≤ 70 := Iff.rfl

theorem IsHexDigit.lt (h : IsHexDigit c) : c.toNat < 128 := by
  rw [isHexDigit_iff] at h
  omega

theorem IsHexDigit.ne_slash (h : IsHexDigit c) : c ≠ '/' := by
  rintro rfl
  rw [isHexDigit_iff] at h
  revert h
  decide

theorem exists_digit?_iff : (∃ d, Text.Numeral.digit? 16 c = some d) ↔ IsHexDigit c := by
  constructor
  · intro h
    obtain ⟨d, hd⟩ := h
    exact Text.Numeral.ranges_of_digit? hd
  · intro h
    by_cases hdecimal : '0' ≤ c ∧ c ≤ '9'
    · have hle : c.toNat ≤ 57 := hdecimal.2
      exact ⟨c.toNat - 48, by simp [Text.Numeral.digit?, hdecimal]; omega⟩
    · by_cases hlower : 'a' ≤ c ∧ c ≤ 'f'
      · have hle : c.toNat ≤ 102 := hlower.2
        exact ⟨c.toNat - 87, by simp [Text.Numeral.digit?, hdecimal, hlower]; omega⟩
      · have hupper : 'A' ≤ c ∧ c ≤ 'F' := (h.resolve_left hdecimal).resolve_left hlower
        have hle : c.toNat ≤ 70 := hupper.2
        exact ⟨c.toNat - 55, by simp [Text.Numeral.digit?, hdecimal, hlower, hupper]; omega⟩

/-- A path to a name that begins with the stem and as many digits as belong there. -/
def IsSilly (path : String) : Prop :=
  ∃ dir digits rest : String, path = dir ++ ".nfs" ++ digits ++ rest ∧
    (dir = "" ∨ ∃ above, dir = above ++ "/") ∧
    (digits.length = 24 ∧ ∀ c ∈ digits.toList, IsHexDigit c) ∧ '/' ∉ rest.toList

theorem sillyNamed_iff {path : String} : SillyNamed path.toList ↔ IsSilly path := by
  constructor
  · intro h
    obtain ⟨digits, rest, ⟨hfree, hpath⟩, hlength, hdigits⟩ := h
    simp only [List.mem_append, not_or] at hfree
    have hform : (String.ofList digits).length = 24 ∧
        ∀ c ∈ (String.ofList digits).toList, IsHexDigit c := by
      rw [String.length_ofList, String.toList_ofList]
      exact ⟨hlength, fun c hc => exists_digit?_iff.1 (hdigits c hc)⟩
    have hrest : '/' ∉ (String.ofList rest).toList := by
      rw [String.toList_ofList]
      exact hfree.2.2
    cases hpath with
    | inl hpath =>
      refine ⟨"", .ofList digits, .ofList rest, ?_, .inl rfl, hform, hrest⟩
      apply String.toList_inj.1
      simp [hpath, sillyStem]
    | inr hpath =>
      obtain ⟨above, hpath⟩ := hpath
      refine ⟨.ofList above ++ "/", .ofList digits, .ofList rest, ?_, .inr ⟨_, rfl⟩, hform, hrest⟩
      apply String.toList_inj.1
      simp [hpath, sillyStem]
  · intro h
    obtain ⟨dir, digits, rest, rfl, hdir, ⟨hlength, hdigits⟩, hrest⟩ := h
    have hfree : '/' ∉ sillyStem ++ (digits.toList ++ rest.toList) := by
      simp only [List.mem_append, not_or]
      refine ⟨by decide, fun hslash => ?_, hrest⟩
      exact (hdigits '/' hslash).ne_slash rfl
    refine ⟨digits.toList, rest.toList, ⟨hfree, ?_⟩, hlength, fun c hc =>
      exists_digit?_iff.2 (hdigits c hc)⟩
    obtain rfl | ⟨above, rfl⟩ := hdir
    · exact .inl (by simp [String.toList_append, sillyStem])
    · exact .inr ⟨above.toList, by simp [String.toList_append, sillyStem]⟩

/-- The first `n` bytes; fewer have no such slice. -/
def slice? (n : Nat) (bs : Bytes) : Option Bytes := if n ≤ bs.length then some (bs.take n) else none

def isHexByte (b : UInt8) : Bool :=
  (48 ≤ b && b ≤ 57) || (97 ≤ b && b ≤ 102) || (65 ≤ b && b ≤ 70)

/-- The test on the bytes behind the stem, without an answer where a slice goes beyond their end. -/
def isSillyInBytes? (path : String) : Option Bool :=
  let base := baseName path.toList
  if sillyStem.isPrefixOf base then
    let bytes := (base.drop sillyStem.length).flatMap String.utf8EncodeChar
    if sillyDigits ≤ bytes.length then (slice? sillyDigits bytes).map (·.all isHexByte)
    else some false
  else some false

def Begins (p : α → Prop) (n : Nat) (as : List α) : Prop := n ≤ as.length ∧ ∀ a ∈ as.take n, p a

theorem begins_zero (p : α → Prop) (as : List α) : Begins p 0 as := by simp [Begins]

theorem begins_cons {p : α → Prop} {a : α} {as : List α} :
    Begins p (n + 1) (a :: as) ↔ p a ∧ Begins p n as := by
  simp [Begins, and_left_comm]

theorem isHexByte_iff {b : UInt8} : isHexByte b = true ↔ 48 ≤ b.toNat ∧ b.toNat ≤ 57 ∨
    97 ≤ b.toNat ∧ b.toNat ≤ 102 ∨ 65 ≤ b.toNat ∧ b.toNat ≤ 70 := by
  simp [isHexByte, UInt8.le_iff_toNat_le, or_assoc]

/-- Whether the digits are all there can be seen from the bytes: no byte of another character passes
for a digit. -/
theorem begins_bytes_iff (cs : List Char) (n : Nat) :
    Begins (isHexByte · = true) n (cs.flatMap String.utf8EncodeChar) ↔ Begins IsHexDigit n cs := by
  induction cs generalizing n with
  | nil => cases n <;> simp [Begins]
  | cons c cs ih =>
    cases n with
    | zero => simp only [begins_zero]
    | succ n =>
      rw [List.flatMap_cons, begins_cons]
      obtain ⟨hc, he⟩ | ⟨hc, hhigh⟩ := Bytes.utf8EncodeChar_cases c
      · have hdigit : isHexByte (UInt8.ofNat c.toNat) = true ↔ IsHexDigit c := by
          rw [isHexByte_iff, isHexDigit_iff, UInt8.toNat_ofNat', Nat.mod_eq_of_lt (by omega)]
        rw [he, List.singleton_append, begins_cons, ih, hdigit]
      · have hnone : ¬ IsHexDigit c := fun h => Nat.not_lt.2 hc h.lt
        cases hbytes : String.utf8EncodeChar c with
        | nil => simp [String.utf8EncodeChar_ne_nil] at hbytes
        | cons b bs =>
          have hb := hhigh b (by simp [hbytes])
          have hnot : ¬ isHexByte b = true := by
            rw [isHexByte_iff]
            omega
          rw [List.cons_append, begins_cons]
          exact iff_of_false (fun h => hnot h.1) fun h => hnone h.1

/-- The bytes are counted before they are cut. -/
theorem all_slice?_of_guard (n : Nat) (bs : Bytes) (p : UInt8 → Bool) :
    (if n ≤ bs.length then (slice? n bs).map (·.all p) else some false) =
      some (decide (n ≤ bs.length) && (bs.take n).all p) := by
  by_cases h : n ≤ bs.length <;> simp [slice?, h]

theorem isSillyInBytes?_eq (path : String) : isSillyInBytes? path = some (isSillyName path) := by
  simp only [isSillyInBytes?, isSillyName, all_slice?_of_guard]
  cases sillyStem.isPrefixOf (baseName path.toList) with
  | false => rfl
  | true =>
    rw [if_pos rfl, Bool.true_and, Option.some_inj, Bool.eq_iff_iff]
    have hbegins := begins_bytes_iff ((baseName path.toList).drop sillyStem.length) sillyDigits
    simpa [Begins, Option.isSome_iff_exists, exists_digit?_iff] using hbegins

theorem infix_toList_iff (pattern text : String) : pattern.toList <:+: text.toList ↔
    ∃ before after : String, text = before ++ pattern ++ after := by
  constructor
  · intro h
    obtain ⟨before, after, h⟩ := h
    refine ⟨.ofList before, .ofList after, String.toList_inj.1 ?_⟩
    simp [← h]
  · intro h
    obtain ⟨before, after, rfl⟩ := h
    exact ⟨before.toList, after.toList, by simp⟩

theorem lost_iff_of_links {s : Slot} {status : FileStatus} (hroot : s.state = .root)
    (hstatus : s.status = some status) (hlinks : 0 < status.links) :
    Lost s ↔ ∃ target, s.target = some target ∧
      (IsSilly target ∨ ∃ before after : String, target = before ++ "(deleted)" ++ after) := by
  have hlinked : ¬ ∃ status, s.status = some status ∧ status.links = 0 := by
    rintro ⟨status', hstatus', hnone⟩
    cases hstatus.symm.trans hstatus'
    exact Nat.ne_of_gt hlinks hnone
  rw [Lost, and_iff_right hroot, or_iff_right hlinked]
  apply exists_congr
  intro target
  rw [sillyNamed_iff, or_comm]
  exact and_congr_right' (or_congr_right (infix_toList_iff "(deleted)" target))

/-- A path names a removed file exactly if behind its last slash stand the stem and enough digits; the
bytes tell the same, and no slice of them goes beyond their end. A root that has links is marked
exactly if its target is such a path or says that the file was deleted. -/
theorem markUnrestorable_goes_by_target :
    (∀ path : String, isSillyName path = true ↔ IsSilly path) ∧
    (∀ path : String, isSillyInBytes? path = some (isSillyName path)) ∧
    ∀ (l : Ledger) (i : Nat) (s : Slot) (status : FileStatus), l.slots[i]? = some s →
      s.state = .root → s.status = some status → 0 < status.links →
      ∃ s', l.markUnrestorable.slots[i]? = some s' ∧
        s' = { s with marks := { s.marks with cannotRestore := s'.marks.cannotRestore } } ∧
        (s'.marks.cannotRestore = true ↔ s.marks.cannotRestore = true ∨
          ∃ target, s.target = some target ∧
            (IsSilly target ∨ ∃ before after : String, target = before ++ "(deleted)" ++ after)) := by
  refine ⟨fun path => isSillyName_iff.trans sillyNamed_iff, isSillyInBytes?_eq, ?_⟩
  intro l i s status hs hroot hstatus hlinks
  refine ⟨settled s, by simp [markUnrestorable, settled, hs], ?_⟩
  rw [← lost_iff_of_links hroot hstatus hlinks]
  obtain ⟨hlost, he⟩ | ⟨hkept, he⟩ := settled_eq_iff.1 (rfl : settled s = settled s)
  · rw [he]
    exact ⟨rfl, iff_of_true rfl (.inr hlost)⟩
  · rw [he]
    exact ⟨rfl, (or_iff_left hkept).symm⟩

def renamed : Slot :=
  .opened 0 ⟨⟨1, 12⟩, .regular, 1, ⟨0⟩⟩ (some "/mnt/é/.nfs000000000012ABcd00000001é")

theorem markUnrestorable_goes_by_target_renamed :
    (⟨[renamed]⟩ : Ledger).slots[0]? = some renamed ∧ renamed.state = .root ∧
      renamed.status = some ⟨⟨1, 12⟩, .regular, 1, ⟨0⟩⟩ ∧ 0 < 1 ∧
      isSillyInBytes? "/mnt/é/.nfs000000000012ABcd00000001é" = some true ∧
      ∃ s', (markUnrestorable ⟨[renamed]⟩).slots[0]? = some s' ∧ s'.marks.cannotRestore = true := by
  obtain ⟨hsilly, hbytes, hmark⟩ := markUnrestorable_goes_by_target
  have hname : isSillyName "/mnt/é/.nfs000000000012ABcd00000001é" = true := by decide +kernel
  obtain ⟨s', hs', -, hmarked⟩ := hmark ⟨[renamed]⟩ 0 renamed _ rfl rfl rfl Nat.one_pos
  refine ⟨rfl, rfl, rfl, Nat.one_pos, by rw [hbytes, hname], s', hs', ?_⟩
  exact hmarked.2 (.inr ⟨_, rfl, .inl ((hsilly _).1 hname)⟩)

end Thaw.Ledger
