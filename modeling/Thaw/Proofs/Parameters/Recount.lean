import Thaw.Proofs.Parameters.Layout

namespace Thaw
set_option autoImplicit true

namespace Bytes

def overwrite (offset : Nat) (i : Int32) (bytes : Bytes) : Bytes :=
  bytes.take offset ++ ofInt32 i ++ bytes.drop (offset + 4)

@[simp] theorem length_ofInt32 (i : Int32) : (ofInt32 i).length = 4 := length_ofNat _ _

theorem ofInt32_eq_ofNat_iff {i : Int32} (hn : n < 2 ^ 31) :
    ofInt32 i = ofNat 4 n ↔ i.toInt = (n : Nat) := by
  have hlt := i.toUInt32.toNat_lt
  have hword : ofInt32 i = ofNat 4 n ↔ i.toUInt32.toNat = n := by
    have hcount : n < 256 ^ 4 := by omega
    rw [eq_ofNat_iff (length_ofInt32 i) hcount, ofInt32, toNat_ofNat hlt]
  have hsign := BitVec.toInt_eq_toNat_cond i.toBitVec
  have he : i.toBitVec.toNat = i.toUInt32.toNat := rfl
  rw [Int32.toInt_toBitVec, he] at hsign
  rw [hword]
  split at hsign <;> omega

theorem ofInt64_injective (h : ofInt64 i = ofInt64 j) : i = j := by
  have hread := congrArg toInt64 h
  rwa [toInt64_ofInt64, toInt64_ofInt64] at hread

end Bytes

namespace Parameters

variable {p q : Parameters} {bytes b : Bytes} {i n m : Int32}

theorem length_le_length_flatMap (texts : List Bytes) :
    texts.length ≤ (texts.flatMap terminate).length := by
  induction texts with
  | nil => exact Nat.le_refl 0
  | cons text texts ih =>
    simp only [List.flatMap_cons, List.length_append, List.length_cons, terminate, List.length_nil]
    omega

theorem terminate_append_cancel (ha : 0 ∉ a) (hb : 0 ∉ b)
    (h : terminate a ++ as = terminate b ++ bs) : a = b ∧ as = bs := by
  have hcut : cutTerminated? (terminate a ++ as) = some (a, as) :=
    cutTerminated?_eq_some_iff.2 ⟨rfl, ha⟩
  have hcut' : cutTerminated? (terminate b ++ bs) = some (b, bs) :=
    cutTerminated?_eq_some_iff.2 ⟨rfl, hb⟩
  rw [h, hcut'] at hcut
  cases hcut
  exact ⟨rfl, rfl⟩

/-- Texts without zeros are told apart by their terminators. -/
theorem flatMap_terminate_prefix_iff {as bs : List Bytes} (ha : ∀ a ∈ as, 0 ∉ a)
    (hb : ∀ b ∈ bs, 0 ∉ b) : as.flatMap terminate <+: bs.flatMap terminate ↔ as <+: bs := by
  constructor
  · intro h
    induction as generalizing bs with
    | nil => exact List.nil_prefix
    | cons a as ih =>
      obtain ⟨ha, has⟩ := List.forall_mem_cons.1 ha
      cases bs with
      | nil =>
        have hempty := List.prefix_nil.1 h
        simp [terminate] at hempty
      | cons b bs =>
        obtain ⟨hb, hbs⟩ := List.forall_mem_cons.1 hb
        obtain ⟨rest, hrest⟩ := h
        rw [List.flatMap_cons, List.flatMap_cons, List.append_assoc] at hrest
        obtain ⟨he, htail⟩ := terminate_append_cancel ha hb hrest
        rw [he, List.cons_prefix_cons]
        exact ⟨rfl, ih has hbs ⟨rest, htail⟩⟩
  · intro h
    obtain ⟨rest, hrest⟩ := h
    rw [← hrest, List.flatMap_append]
    exact List.prefix_append _ _

/-- A header with other counts than those of `p`. -/
def headerWith (p : Parameters) (n m : Int32) : Bytes :=
  Bytes.ofInt64 p.reading.millis ++ Bytes.ofInt64 p.reading.nanos ++ Bytes.ofInt32 n ++
    Bytes.ofInt32 m

/-- `q` has the first texts of `p`, of which `n` are properties and `m` bytes the environment. -/
structure Recut (p : Parameters) (n m : Int32) (q : Parameters) : Prop where
  reading : q.reading = p.reading
  count : n.toInt = q.properties.length
  size : m.toInt = q.environmentSize
  pieces : q.pieces <+: p.pieces

theorem Recut.encodable (h : Recut p n m q) (hp : p.Encodable) : q.Encodable := by
  rw [encodable_iff]
  have hn := n.toInt_lt
  have hm := m.toInt_lt
  rw [h.count] at hn
  rw [h.size] at hm
  refine ⟨?_, ?_, ?_⟩
  · intro piece hpiece
    exact ((encodable_iff p).1 hp).1 piece (h.pieces.subset hpiece)
  · simp only [maxCount]
    omega
  · simp only [maxCount]
    omega

theorem append_prefix_append_iff {a b as bs : List α} (hl : a.length = b.length) :
    a ++ as <+: b ++ bs ↔ a = b ∧ as <+: bs := by
  constructor
  · intro h
    obtain ⟨rest, hrest⟩ := h
    rw [List.append_assoc] at hrest
    obtain ⟨he, htail⟩ := List.append_inj hrest hl
    exact ⟨he, rest, htail⟩
  · intro h
    obtain ⟨rfl, h⟩ := h
    exact (List.prefix_append_right_inj a).2 h

theorem headerBytes_eq_headerWith_iff (hq : q.Encodable) : headerBytes q = headerWith p n m ↔
    q.reading = p.reading ∧ n.toInt = q.properties.length ∧ m.toInt = q.environmentSize := by
  have hcount := hq.propertyCount_le
  have hsize := hq.environmentSize_le
  rw [maxCount] at hcount hsize
  have hn := Bytes.ofInt32_eq_ofNat_iff (i := n) (Nat.lt_of_le_of_lt hcount (by decide))
  have hm := Bytes.ofInt32_eq_ofNat_iff (i := m) (Nat.lt_of_le_of_lt hsize (by decide))
  rw [← hn, ← hm, headerBytes, headerWith]
  constructor
  · intro h
    obtain ⟨h, hm⟩ := List.append_inj' h (by simp)
    obtain ⟨h, hn⟩ := List.append_inj' h (by simp)
    obtain ⟨hmillis, hnanos⟩ := List.append_inj' h (by simp)
    have hreading : Reading.mk q.reading.millis q.reading.nanos = p.reading := by
      rw [Bytes.ofInt64_injective hmillis, Bytes.ofInt64_injective hnanos]
    exact ⟨hreading, hn.symm, hm.symm⟩
  · intro h
    obtain ⟨hreading, hn, hm⟩ := h
    rw [hreading, hn, hm]

theorem decode_headerWith_iff (hp : p.Encodable) :
    decode (headerWith p n m ++ p.pieces.flatMap terminate) = .ok q ↔ Recut p n m q := by
  have hfree := ((encodable_iff p).1 hp).1
  have hlength (q : Parameters) : q.headerBytes.length = (headerWith p n m).length := by
    simp [headerBytes, headerWith]
  rw [decode_eq_ok_iff, layout, append_prefix_append_iff (hlength q)]
  constructor
  · intro h
    obtain ⟨hq, hheader, hpieces⟩ := h
    obtain ⟨hreading, hn, hm⟩ := (headerBytes_eq_headerWith_iff hq).1 hheader
    have hqfree := ((encodable_iff q).1 hq).1
    exact ⟨hreading, hn, hm, (flatMap_terminate_prefix_iff hqfree hfree).1 hpieces⟩
  · intro h
    have hq := h.encodable hp
    have hqfree := ((encodable_iff q).1 hq).1
    refine ⟨hq, ?_, (flatMap_terminate_prefix_iff hqfree hfree).2 h.pieces⟩
    exact (headerBytes_eq_headerWith_iff hq).2 ⟨h.reading, h.count, h.size⟩

/-- Where no fewer properties are read, the texts that are left over stood in the environment. -/
theorem exists_environment (h : q.pieces <+: p.pieces)
    (hle : p.properties.length ≤ q.properties.length) : ∃ first last,
      first.length = q.properties.length - p.properties.length ∧
        p.environment = first ++ q.environment ++ last := by
  obtain ⟨rest, hrest⟩ := h
  have hdrop := congrArg (List.drop p.properties.length) hrest
  let first := (q.properties.map Bytes.ofString).drop p.properties.length
  have htexts : first ++ q.environment ++ (Bytes.ofString q.arguments :: rest) =
      p.environment ++ [Bytes.ofString p.arguments] := by
    simpa [pieces, List.drop_append, hle, first] using hdrop
  have hlast := congrArg List.dropLast htexts
  rw [List.dropLast_append_of_ne_nil (List.cons_ne_nil _ _), List.dropLast_concat] at hlast
  refine ⟨first, _, ?_, hlast.symm⟩
  simp [first]

theorem environmentSize_add_le (h : q.pieces <+: p.pieces)
    (hle : p.properties.length ≤ q.properties.length) :
    q.environmentSize + (q.properties.length - p.properties.length) ≤ p.environmentSize := by
  obtain ⟨first, last, hfirst, he⟩ := exists_environment h hle
  have hlength := length_le_length_flatMap first
  simp only [environmentSize, he, List.flatMap_append, List.length_append]
  omega

theorem overwrite_layout (hp : p.Encodable) (i : Int32) : ∃ n m : Int32,
    n.toInt = p.properties.length ∧ m.toInt = p.environmentSize ∧
      p.layout.overwrite 16 i = headerWith p i m ++ p.pieces.flatMap terminate ∧
      p.layout.overwrite 20 i = headerWith p n i ++ p.pieces.flatMap terminate := by
  have hcount : p.properties.length < 2 ^ 31 := Nat.lt_succ_of_le hp.propertyCount_le
  have hsize : p.environmentSize < 2 ^ 31 := Nat.lt_succ_of_le hp.environmentSize_le
  have hn := Int32.toInt_ofNat_of_lt hcount
  have hm := Int32.toInt_ofNat_of_lt hsize
  refine ⟨_, _, hn, hm, ?_, ?_⟩
  · have hword := (Bytes.ofInt32_eq_ofNat_iff hsize).2 hm
    simp [Bytes.overwrite, layout, headerBytes, headerWith, hword, List.take_append,
      List.drop_append, List.drop_of_length_le, List.take_of_length_le]
  · have hword := (Bytes.ofInt32_eq_ofNat_iff hcount).2 hn
    simp [Bytes.overwrite, layout, headerBytes, headerWith, hword, List.take_append,
      List.drop_append, List.drop_of_length_le, List.take_of_length_le]

/-- `q` has the first texts of `p`, among them as many properties as the count says. -/
def FitsCount (p : Parameters) (i : Int32) (q : Parameters) : Prop :=
  q.reading = p.reading ∧ i.toInt = q.properties.length ∧
    q.environmentSize = p.environmentSize ∧ q.pieces <+: p.pieces

/-- `q` has the first texts of `p`, among them an environment as long as the size says. -/
def FitsSize (p : Parameters) (i : Int32) (q : Parameters) : Prop :=
  q.reading = p.reading ∧ q.properties.length = p.properties.length ∧
    i.toInt = q.environmentSize ∧ q.pieces <+: p.pieces

theorem decode_overwrite_count_iff (hp : p.Encodable) :
    decode (p.layout.overwrite 16 i) = .ok q ↔ p.FitsCount i q := by
  obtain ⟨n, m, hn, hm, hcount, hsize⟩ := overwrite_layout hp i
  rw [hcount, decode_headerWith_iff hp]
  constructor
  · intro h
    have he := h.size
    rw [hm] at he
    exact ⟨h.reading, h.count, by omega, h.pieces⟩
  · intro h
    obtain ⟨hreading, hi, he, hpieces⟩ := h
    exact ⟨hreading, hi, by omega, hpieces⟩

theorem decode_overwrite_size_iff (hp : p.Encodable) :
    decode (p.layout.overwrite 20 i) = .ok q ↔ p.FitsSize i q := by
  obtain ⟨n, m, hn, hm, hcount, hsize⟩ := overwrite_layout hp i
  rw [hsize, decode_headerWith_iff hp]
  constructor
  · intro h
    have he := h.count
    rw [hn] at he
    exact ⟨h.reading, by omega, h.size, h.pieces⟩
  · intro h
    obtain ⟨hreading, he, hi, hpieces⟩ := h
    exact ⟨hreading, by omega, hi, hpieces⟩

def IsCorrupt (bytes : Bytes) : Prop :=
  ∃ reason, (decode bytes).mapError DecodeError.toChannel = .error (.corrupt reason)

theorem isCorrupt_iff : IsCorrupt bytes ↔ ∀ q, decode bytes ≠ .ok q := by
  rw [IsCorrupt]
  cases decode bytes with
  | error e => exact iff_of_true ⟨e.message, rfl⟩ fun q he => by cases he
  | ok q =>
    constructor
    · intro h
      obtain ⟨reason, he⟩ := h
      cases he
    · intro h
      exact absurd rfl (h q)

theorem not_fitsCount (hi : i.toInt < 0 ∨ p.properties.length < i.toInt) : ¬ p.FitsCount i q := by
  intro h
  obtain ⟨-, hcount, hsize, hpieces⟩ := h
  have hle := environmentSize_add_le hpieces (by omega)
  omega

theorem not_fitsSize (hi : i.toInt < 0 ∨ p.environmentSize < i.toInt) : ¬ p.FitsSize i q := by
  intro h
  obtain ⟨-, hcount, hsize, hpieces⟩ := h
  have hle := environmentSize_add_le hpieces (by omega)
  omega

/-- Under another count or another size, what is read are exactly the parameters that have the first
texts of the encoded ones and fit the new number, and where there are none the bytes are corrupt.
None fit a number that is negative or was raised. -/
theorem decode_recounted_iff (h : p.encode = .ok b) (i : Int32) :
    (∀ q, decode (b.overwrite 16 i) = .ok q ↔ p.FitsCount i q) ∧
    (IsCorrupt (b.overwrite 16 i) ↔ ¬ ∃ q, p.FitsCount i q) ∧
    (i.toInt < 0 ∨ p.properties.length < i.toInt → IsCorrupt (b.overwrite 16 i)) ∧
    (∀ q, decode (b.overwrite 20 i) = .ok q ↔ p.FitsSize i q) ∧
    (IsCorrupt (b.overwrite 20 i) ↔ ¬ ∃ q, p.FitsSize i q) ∧
    (i.toInt < 0 ∨ p.environmentSize < i.toInt → IsCorrupt (b.overwrite 20 i)) := by
  obtain ⟨hp, rfl⟩ := (encode_eq_ok_iff p).1 h
  have hcount : IsCorrupt (p.layout.overwrite 16 i) ↔ ¬ ∃ q, p.FitsCount i q := by
    simp only [isCorrupt_iff, ne_eq, decode_overwrite_count_iff hp, not_exists]
  have hsize : IsCorrupt (p.layout.overwrite 20 i) ↔ ¬ ∃ q, p.FitsSize i q := by
    simp only [isCorrupt_iff, ne_eq, decode_overwrite_size_iff hp, not_exists]
  refine ⟨fun q => decode_overwrite_count_iff hp, hcount, ?_, fun q => decode_overwrite_size_iff hp,
    hsize, ?_⟩
  · intro hi
    rw [hcount]
    exact not_exists.2 fun q => not_fitsCount hi
  · intro hi
    rw [hsize]
    exact not_exists.2 fun q => not_fitsSize hi

def paired : Parameters := ⟨⟨1, 2⟩, ["a=1", "b=2"], [[88, 61, 49], [89, 61, 50]], "-x"⟩

theorem decode_recounted_iff_paired :
    ∃ b, paired.encode = .ok b ∧ IsCorrupt (b.overwrite 16 3) := by
  have hp : paired.Encodable := by
    rw [encodable_iff]
    decide +kernel
  have h := (encode_eq_ok_iff paired).2 ⟨hp, rfl⟩
  obtain ⟨-, -, hraised, -⟩ := decode_recounted_iff h 3
  exact ⟨_, h, hraised (.inr (by decide))⟩

/-- A lowered number of properties makes the next property the command line, and a lowered size of the
environment the next variable. -/
theorem exists_decode_lowered :
    (let p : Parameters := ⟨⟨1, 2⟩, ["a=1", "b=2"], [], "x"⟩
      ∃ b, p.encode = .ok b ∧ decode (b.overwrite 16 1) = .ok ⟨⟨1, 2⟩, ["a=1"], [], "b=2"⟩) ∧
    (let p : Parameters := ⟨⟨1, 2⟩, [], [[88, 61, 49], [89, 61, 50]], "x"⟩
      ∃ b, p.encode = .ok b ∧
        decode (b.overwrite 20 4) = .ok ⟨⟨1, 2⟩, [], [[88, 61, 49]], "Y=2"⟩) := by
  constructor
  · intro p
    have hp : p.Encodable := by
      rw [encodable_iff]
      decide +kernel
    refine ⟨p.layout, (encode_eq_ok_iff p).2 ⟨hp, rfl⟩, ?_⟩
    exact (decode_overwrite_count_iff hp).2 ⟨rfl, rfl, rfl, by decide +kernel⟩
  · intro p
    have hp : p.Encodable := by
      rw [encodable_iff]
      decide +kernel
    refine ⟨p.layout, (encode_eq_ok_iff p).2 ⟨hp, rfl⟩, ?_⟩
    exact (decode_overwrite_size_iff hp).2 ⟨rfl, rfl, rfl, by decide +kernel⟩

end Parameters

end Thaw
