import Mathlib.Data.List.OfFn
import Thaw.Proofs.Text.Octets
import Thaw.Proofs.Text.Slice
import Thaw.Socket.Table

namespace Thaw.Socket
set_option autoImplicit true

open Text

theorem exists_ofFn_of_length {as : List α} (h : as.length = n) :
    ∃ a : Fin n → α, List.ofFn a = as := by
  subst h
  exact ⟨as.get, List.ofFn_get as⟩

def Family.words : Family → Nat
  | .v4 => 1
  | .v6 => 4

namespace Address

def family : Address → Family
  | .v4 .. => .v4
  | .v6 _ => .v6

def bytes : Address → Bytes
  | .v4 a b c d => [a, b, c, d]
  | .v6 groups => groups.toList.flatMap octets

def ofGroups (a b c d e f g h : UInt16) : Address := .v6 #v[a, b, c, d, e, f, g, h]

def ofBytes? : Bytes → Option Address
  | [a, b, c, d] => some (.v4 a b c d)
  | [a, b, c, d, e, f, g, h, i, j, k, l, m, n, o, p] =>
    some (ofGroups (group a b) (group c d) (group e f) (group g h) (group i j) (group k l)
      (group m n) (group o p))
  | _ => none

variable {address address' : Address} {bs : Bytes} {own : Family}

theorem toNat_group (high low : UInt8) :
    (group high low).toNat = 256 * high.toNat + low.toNat := by
  have hhigh := high.toNat_lt
  have hadd := Nat.shiftLeft_add_eq_or_of_lt low.toNat_lt high.toNat
  have hshift : high.toNat <<< 8 % 2 ^ 16 = 256 * high.toNat := by
    rw [Nat.shiftLeft_eq]
    omega
  rw [Nat.shiftLeft_eq, Nat.mul_comm] at hadd
  simp only [group, UInt16.toNat_or, UInt16.toNat_shiftLeft, UInt8.toNat_toUInt16]
  exact (congrArg (· ||| low.toNat) hshift).trans hadd.symm

theorem octets_eq_iff : octets g = [high, low] ↔ g = group high low := by
  have hg := g.toNat_lt
  have hhigh := high.toNat_lt
  have hlow := low.toNat_lt
  have hgroup := toNat_group high low
  rw [octets, List.cons.injEq, List.cons.injEq, ← UInt8.toNat_inj, ← UInt8.toNat_inj,
    ← UInt16.toNat_inj, hgroup, UInt16.toNat_toUInt8, UInt16.toNat_toUInt8,
    UInt16.toNat_shiftRight]
  simp [Nat.shiftRight_eq_div_pow]
  omega

theorem octets_group (high low : UInt8) : octets (group high low) = [high, low] :=
  octets_eq_iff.2 rfl

theorem flatMap_octets_injective {gs hs : List UInt16}
    (h : gs.flatMap octets = hs.flatMap octets) : gs = hs := by
  induction gs generalizing hs with
  | nil =>
    cases hs with
    | nil => rfl
    | cons => cases h
  | cons g gs ih =>
    cases hs with
    | nil => cases h
    | cons g' hs =>
      obtain ⟨hg, hgs⟩ := List.append_inj h rfl
      have he : g = g' := (octets_eq_iff.1 hg).trans (octets_eq_iff.1 rfl).symm
      rw [he, ih hgs]

theorem length_bytes (address : Address) : address.bytes.length = 4 * address.family.words := by
  cases address with
  | v4 a b c d => rfl
  | v6 groups =>
    have htwo : ∀ g ∈ groups.toList, (octets g).length = 2 := fun _ _ => rfl
    rw [bytes, length_flatMap_of_forall htwo, Vector.length_toList]
    rfl

theorem family_of_length_bytes (h : address.bytes.length = 4 * own.words) :
    address.family = own := by
  rw [length_bytes] at h
  generalize address.family = other at h
  cases own <;> cases other <;> first | rfl | cases h

theorem bytes_injective (h : address.bytes = address'.bytes) : address = address' := by
  have hfamily : address.family = address'.family := by
    apply family_of_length_bytes
    rw [h, length_bytes]
  cases address with
  | v4 a b c d =>
    cases address' with
    | v4 a' b' c' d' =>
      cases h
      rfl
    | v6 groups' => cases hfamily
  | v6 groups =>
    cases address' with
    | v4 a' b' c' d' => cases hfamily
    | v6 groups' => rw [Vector.toList_inj.1 (flatMap_octets_injective h)]

theorem bytes_of_ofBytes? (h : ofBytes? bs = some address) : address.bytes = bs := by
  unfold ofBytes? at h
  split at h
  · cases h
    rfl
  · cases h
    simp [bytes, ofGroups, octets_group]
  · cases h

theorem exists_ofBytes? (h : bs.length = 4 * own.words) : ∃ address, ofBytes? bs = some address := by
  obtain ⟨byte, rfl⟩ := exists_ofFn_of_length h
  cases own with
  | v4 => exact ⟨_, rfl⟩
  | v6 => exact ⟨_, rfl⟩

theorem ofBytes?_eq_some_iff : ofBytes? bs = some address ↔ address.bytes = bs := by
  constructor
  · exact bytes_of_ofBytes?
  · intro h
    obtain ⟨address', ha⟩ := exists_ofBytes? (h ▸ address.length_bytes)
    rwa [bytes_injective (h.trans (bytes_of_ofBytes? ha).symm)]

end Address

structure Part where
  digits : List Char
  word : UInt32

namespace Part

def Reads (part : Part) : Prop :=
  width part.digits = 8 ∧ Numeral.Natural 16 part.digits part.word.toNat

def bytes (part : Part) : Bytes := Bytes.ofNat 4 part.word.toNat

theorem Reads.length_digits {part : Part} (h : part.Reads) : part.digits.length = 8 := by
  rw [← width_of_ascii h.2.ascii]
  exact h.1

end Part

/-- The host part of a field that gives the address: each of its words by eight digits. -/
def Spells (family : Family) (host : List Char) (address : Address) : Prop :=
  ∃ parts : List Part, parts.length = family.words ∧ (∀ part ∈ parts, part.Reads) ∧
    host = parts.flatMap Part.digits ∧ address.bytes = parts.flatMap Part.bytes

variable {family : Family} {address : Address} {host cs : List Char} {bs : Bytes} {count : Nat}

theorem wordBytes?_eq_some_iff : wordBytes? cs = some bs ↔
    ∃ part : Part, part.Reads ∧ part.digits = cs ∧ part.bytes = bs := by
  have hread : wordBytes? cs = some bs ↔ cs.length = 8 ∧
      ∃ w, Numeral.uint32? 16 cs = some w ∧ Bytes.ofNat 4 w.toNat = bs := by
    by_cases hl : cs.length = 8 <;> simp [wordBytes?, guard, hl, Option.bind_eq_some_iff]
  rw [hread]
  constructor
  · intro h
    obtain ⟨hl, w, hw, hbs⟩ := h
    have hnumeral := Numeral.uint32?_eq_some_iff.1 hw
    have hwidth : width cs = 8 := (width_of_ascii hnumeral.ascii).trans hl
    exact ⟨⟨cs, w⟩, ⟨hwidth, hnumeral⟩, rfl, hbs⟩
  · intro h
    obtain ⟨part, hpart, rfl, rfl⟩ := h
    exact ⟨hpart.length_digits, part.word, Numeral.uint32?_eq_some_iff.2 hpart.2, rfl⟩

theorem length_flatMap_digits {parts : List Part} (h : ∀ part ∈ parts, part.Reads) :
    (parts.flatMap Part.digits).length = 8 * parts.length :=
  length_flatMap_of_forall fun part hpart => (h part hpart).length_digits

theorem length_flatMap_bytes (parts : List Part) :
    (parts.flatMap Part.bytes).length = 4 * parts.length :=
  length_flatMap_of_forall fun part _ => Bytes.length_ofNat 4 part.word.toNat

theorem mapM_wordBytes?_eq_some_iff {words : List Bytes} (hl : cs.length = 8 * count) :
    (eights count cs).mapM wordBytes? = some words ↔
      ∃ parts : List Part, parts.length = count ∧ (∀ part ∈ parts, part.Reads) ∧
        cs = parts.flatMap Part.digits ∧ words = parts.map Part.bytes := by
  induction count generalizing cs words with
  | zero =>
    cases List.length_eq_zero_iff.1 hl
    constructor
    · intro h
      cases h
      exact ⟨[], rfl, by simp, rfl, rfl⟩
    · intro h
      obtain ⟨parts, hcount, -, -, rfl⟩ := h
      cases List.length_eq_zero_iff.1 hcount
      rfl
  | succ count ih =>
    have hrest : (cs.drop 8).length = 8 * count := by
      rw [List.length_drop]
      omega
    simp only [eights, List.mapM_cons, Option.bind_eq_bind, Option.bind_eq_some_iff,
      wordBytes?_eq_some_iff, ih hrest]
    constructor
    · intro h
      obtain ⟨_, ⟨part, hpart, hdigits, rfl⟩, _, ⟨parts, hcount, hparts, hcs, rfl⟩, he⟩ := h
      cases he
      refine ⟨part :: parts, congrArg (· + 1) hcount, List.forall_mem_cons.2 ⟨hpart, hparts⟩, ?_, rfl⟩
      rw [List.flatMap_cons, hdigits, ← hcs, List.take_append_drop]
    · intro h
      obtain ⟨parts, hcount, hparts, rfl, rfl⟩ := h
      cases parts with
      | nil => cases hcount
      | cons part parts =>
        obtain ⟨hpart, hparts⟩ := List.forall_mem_cons.1 hparts
        refine ⟨part.bytes, ⟨part, hpart, ?_, rfl⟩, parts.map Part.bytes,
          ⟨parts, Nat.succ.inj hcount, hparts, ?_, rfl⟩, rfl⟩
        · exact (List.take_left' hpart.length_digits).symm
        · exact List.drop_left' hpart.length_digits

/-- The bytes of as many words, if the digits are that long. -/
def hostBytes? (count : Nat) (cs : List Char) : Option Bytes :=
  if cs.length = 8 * count then ((eights count cs).mapM wordBytes?).map List.flatten else none

theorem hostBytes?_eq_some_iff : hostBytes? count cs = some bs ↔
    ∃ parts : List Part, parts.length = count ∧ (∀ part ∈ parts, part.Reads) ∧
      cs = parts.flatMap Part.digits ∧ bs = parts.flatMap Part.bytes := by
  rw [hostBytes?]
  constructor
  · intro h
    obtain ⟨hl, h⟩ := Option.ite_none_right_eq_some.1 h
    obtain ⟨_, hwords, rfl⟩ := Option.map_eq_some_iff.1 h
    obtain ⟨parts, hcount, hparts, hcs, rfl⟩ := (mapM_wordBytes?_eq_some_iff hl).1 hwords
    exact ⟨parts, hcount, hparts, hcs, rfl⟩
  · intro h
    obtain ⟨parts, hcount, hparts, hcs, rfl⟩ := h
    have hl : cs.length = 8 * count := by rw [hcs, length_flatMap_digits hparts, hcount]
    rw [if_pos hl, (mapM_wordBytes?_eq_some_iff hl).2 ⟨parts, hcount, hparts, hcs, rfl⟩]
    rfl

theorem length_of_hostBytes? (h : hostBytes? count cs = some bs) : bs.length = 4 * count := by
  obtain ⟨parts, rfl, -, -, rfl⟩ := hostBytes?_eq_some_iff.1 h
  exact length_flatMap_bytes parts

theorem hostBytes?_one (cs : List Char) : hostBytes? 1 cs = wordBytes? cs := by
  apply Option.ext
  intro bs
  rw [hostBytes?_eq_some_iff, wordBytes?_eq_some_iff]
  constructor
  · intro h
    obtain ⟨parts, hcount, hparts, rfl, rfl⟩ := h
    obtain ⟨part, rfl⟩ := List.length_eq_one_iff.1 hcount
    exact ⟨part, hparts part List.mem_cons_self, by simp, by simp⟩
  · intro h
    obtain ⟨part, hpart, rfl, rfl⟩ := h
    exact ⟨[part], rfl, by simpa using hpart, by simp, by simp⟩

theorem address?_eq (family : Family) (cs : List Char) :
    address? family cs = (hostBytes? family.words cs).bind Address.ofBytes? := by
  cases family with
  | v4 =>
    rw [address?, ← hostBytes?_one, Family.words]
    cases h : hostBytes? 1 cs with
    | none => rfl
    | some bs =>
      obtain ⟨byte, rfl⟩ := exists_ofFn_of_length (length_of_hostBytes? h)
      rfl
  | v6 =>
    rw [Family.words]
    cases h : hostBytes? 4 cs with
    | none =>
      by_cases hl : cs.length = 32
      · rw [hostBytes?, if_pos hl, Option.map_eq_none_iff] at h
        rw [address?, guard, if_pos hl, h]
        rfl
      · rw [address?, guard, if_neg hl]
        rfl
    | some bs =>
      obtain ⟨byte, rfl⟩ := exists_ofFn_of_length (length_of_hostBytes? h)
      obtain ⟨hl, h⟩ := Option.ite_none_right_eq_some.1 h
      obtain ⟨words, hwords, hflat⟩ := Option.map_eq_some_iff.1 h
      rw [address?, guard, if_pos hl, hwords, pure_bind, Option.bind_eq_bind, Option.bind_some, hflat]
      rfl

theorem address?_eq_some_iff : address? family host = some address ↔ Spells family host address := by
  simp only [address?_eq, Option.bind_eq_some_iff, hostBytes?_eq_some_iff,
    Address.ofBytes?_eq_some_iff]
  constructor
  · intro h
    obtain ⟨_, ⟨parts, hcount, hparts, hhost, rfl⟩, hbytes⟩ := h
    exact ⟨parts, hcount, hparts, hhost, hbytes⟩
  · intro h
    obtain ⟨parts, hcount, hparts, hhost, hbytes⟩ := h
    exact ⟨_, ⟨parts, hcount, hparts, hhost, rfl⟩, hbytes⟩

theorem Spells.ascii (h : Spells family host address) : Ascii host := by
  obtain ⟨parts, -, hparts, rfl, -⟩ := h
  intro c hc
  obtain ⟨part, hpart, hc⟩ := List.mem_flatMap.1 hc
  exact (hparts part hpart).2.ascii c hc

theorem Spells.length (h : Spells family host address) : host.length = 8 * family.words := by
  obtain ⟨parts, hcount, hparts, rfl, -⟩ := h
  rw [length_flatMap_digits hparts, hcount]

theorem Spells.colon_not_mem (h : Spells family host address) : ':' ∉ host := by
  obtain ⟨parts, -, hparts, rfl, -⟩ := h
  intro hc
  obtain ⟨part, hpart, hc⟩ := List.mem_flatMap.1 hc
  have hdigit (c : Char) (d : Nat) (hd : Numeral.digit? 16 c = some d) : c ≠ ':' := by
    intro he
    cases he
    cases hd
  have hne : ∀ c ∈ part.digits, c ≠ ':' := (hparts part hpart).2.forall_mem (by decide) hdigit
  exact hne ':' hc rfl

def upperDigit (d : Nat) : Char := d.digitChar.toUpper

/-- The last `count` digits, in upper case and with leading zeros. -/
def upperDigits : (count : Nat) → Nat → List Char
  | 0, _ => []
  | count + 1, n => upperDigits count (n / 16) ++ [upperDigit (n % 16)]

theorem digit?_upperDigit (hd : d < 16) : Numeral.digit? 16 (upperDigit d) = some d := by
  interval_cases d <;> rfl

theorem length_upperDigits (count n : Nat) : (upperDigits count n).length = count := by
  induction count generalizing n with
  | zero => rfl
  | succ count ih => rw [upperDigits, List.length_append, ih, List.length_singleton]

theorem digits_upperDigits (hn : n < 16 ^ (count + 1)) :
    Numeral.Digits 16 (upperDigits (count + 1) n) n := by
  induction count generalizing n with
  | zero =>
    have hn : n < 16 := hn
    rw [upperDigits, Nat.mod_eq_of_lt hn]
    exact Numeral.digits_singleton (digit?_upperDigit hn)
  | succ count ih =>
    have hhigh : n / 16 < 16 ^ (count + 1) := Nat.div_lt_of_lt_mul (Nat.pow_succ' ▸ hn)
    have hlow : n % 16 < 16 := Nat.mod_lt n (by decide)
    have h := (ih hhigh).snoc (digit?_upperDigit hlow)
    rwa [Nat.div_add_mod] at h

def Part.ofBytes (bs : Bytes) : Part := ⟨upperDigits 8 bs.toNat, .ofNat bs.toNat⟩

def partsOf : (count : Nat) → Bytes → List Part
  | 0, _ => []
  | count + 1, bs => .ofBytes (bs.take 4) :: partsOf count (bs.drop 4)

def Address.hostText (address : Address) : List Char :=
  (partsOf address.family.words address.bytes).flatMap Part.digits

theorem Part.reads_ofBytes (hl : bs.length = 4) :
    (Part.ofBytes bs).Reads ∧ (Part.ofBytes bs).bytes = bs := by
  have hlt : bs.toNat < 256 ^ 4 := hl ▸ bs.toNat_lt
  have hword : (UInt32.ofNat bs.toNat).toNat = bs.toNat := UInt32.toNat_ofNat_of_lt' hlt
  have hdigits : Numeral.Natural 16 (upperDigits 8 bs.toNat) bs.toNat :=
    .inl (digits_upperDigits hlt)
  constructor
  · constructor
    · exact (width_of_ascii hdigits.ascii).trans (length_upperDigits 8 bs.toNat)
    · rw [ofBytes, hword]
      exact hdigits
  · rw [bytes, ofBytes, hword, ← hl]
    exact bs.ofNat_toNat

theorem partsOf_spec (hl : bs.length = 4 * count) : (partsOf count bs).length = count ∧
    (∀ part ∈ partsOf count bs, part.Reads) ∧ (partsOf count bs).flatMap Part.bytes = bs := by
  induction count generalizing bs with
  | zero =>
    cases List.length_eq_zero_iff.1 hl
    exact ⟨rfl, by simp [partsOf], rfl⟩
  | succ count ih =>
    have hfirst : (bs.take 4).length = 4 := by
      rw [List.length_take]
      omega
    have hrest : (bs.drop 4).length = 4 * count := by
      rw [List.length_drop]
      omega
    obtain ⟨hreads, hbytes⟩ := Part.reads_ofBytes hfirst
    obtain ⟨hcount, hparts, hall⟩ := ih hrest
    refine ⟨congrArg (· + 1) hcount, List.forall_mem_cons.2 ⟨hreads, hparts⟩, ?_⟩
    rw [partsOf, List.flatMap_cons, hbytes, hall, List.take_append_drop]

theorem spells_hostText (address : Address) : Spells address.family address.hostText address := by
  obtain ⟨hcount, hparts, hbytes⟩ := partsOf_spec address.length_bytes
  exact ⟨_, hcount, hparts, rfl, hbytes.symm⟩

end Thaw.Socket
