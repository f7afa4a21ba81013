import Thaw.Parameters
import Thaw.Proofs.Text.Octets
import Thaw.Proofs.Text.Split

namespace Thaw.Parameters
set_option autoImplicit true

theorem cutTerminated?_eq_some_iff :
    cutTerminated? bytes = some (piece, rest) ↔ bytes = terminate piece ++ rest ∧ 0 ∉ piece := by
  rw [cutTerminated?, Text.cut?_eq_some_iff]
  constructor
  · rintro ⟨a, ha, rfl, hfree⟩
    cases eq_of_beq ha
    exact ⟨by simp [terminate], Text.forall_beq_false_iff.1 hfree⟩
  · rintro ⟨rfl, hfree⟩
    exact ⟨0, rfl, by simp [terminate], Text.forall_beq_false_iff.2 hfree⟩

theorem decodeProperties_eq_ok_iff {texts : List String} :
    decodeProperties index count bytes = .ok (texts, rest) ↔
      texts.length = count ∧ bytes = (texts.map Bytes.ofString).flatMap terminate ++ rest ∧
        ∀ text ∈ texts, '\x00' ∉ text.toList := by
  induction count generalizing index bytes texts with
  | zero =>
    simp only [decodeProperties, Except.ok.injEq, Prod.mk.injEq]
    constructor
    · rintro ⟨rfl, rfl⟩
      simp
    · rintro ⟨hl, rfl, -⟩
      cases List.length_eq_zero_iff.1 hl
      exact ⟨rfl, rfl⟩
  | succ count ih =>
    constructor
    · intro h
      simp only [decodeProperties] at h
      split at h
      case h_1 => cases h
      case h_2 piece tail hcut =>
        obtain ⟨rfl, hfree⟩ := cutTerminated?_eq_some_iff.1 hcut
        split at h
        case h_1 => cases h
        case h_2 text htext =>
          cases (Text.Utf8.decode_eq_ok_iff _ _).1 htext
          split at h
          case h_1 => cases h
          case h_2 others rest' hothers =>
            cases h
            obtain ⟨hl, rfl, hall⟩ := ih.1 hothers
            refine ⟨by rw [List.length_cons, hl], by simp, List.forall_mem_cons.2 ⟨?_, hall⟩⟩
            rwa [← Bytes.zero_mem_ofString_iff]
    · rintro ⟨hl, rfl, hall⟩
      cases texts with
      | nil => cases hl
      | cons text others =>
        obtain ⟨hfree, hall⟩ := List.forall_mem_cons.1 hall
        have hcut : cutTerminated?
            (((text :: others).map Bytes.ofString).flatMap terminate ++ rest) =
            some (Bytes.ofString text, (others.map Bytes.ofString).flatMap terminate ++ rest) :=
          cutTerminated?_eq_some_iff.2 ⟨by simp, by rwa [Bytes.zero_mem_ofString_iff]⟩
        have htext := (Text.Utf8.decode_eq_ok_iff _ text).2 rfl
        have hothers := (@ih (index + 1) _ others).2 ⟨Nat.succ.inj hl, rfl, hall⟩
        simp only [decodeProperties, hcut, htext, hothers]

theorem decodeEnvironment_eq_ok_iff :
    decodeEnvironment block = .ok entries ↔
      block = entries.flatMap terminate ∧ ∀ entry ∈ entries, 0 ∉ entry := by
  have hsplit := Text.split_eq_append_nil_iff block 0 entries
  simp only [decodeEnvironment]
  rw [show entries.flatMap terminate = entries.flatMap (· ++ [0]) from rfl, ← hsplit]
  split
  case h_1 reversed hreversed =>
    have h := List.reverse_eq_iff.1 hreversed
    rw [List.reverse_cons] at h
    rw [h, List.append_cancel_right_eq, Except.ok.injEq]
  case h_2 pieces hpieces =>
    refine iff_of_false (fun h => by cases h) (fun h => ?_)
    apply hpieces entries.reverse
    rw [h, List.reverse_append]
    rfl

/-- A count that the header holds is read as it was written, and no other word is read as it. -/
theorem count?_eq_some_iff {word : Bytes} (hl : word.length = 4) :
    count? word.toInt32 = some n ↔ n ≤ maxCount ∧ word = Bytes.ofNat 4 n := by
  have hlt : word.toNat < 256 ^ 4 := hl ▸ word.toNat_lt
  have hread : count? word.toInt32 = some n ↔ n ≤ maxCount ∧ word.toNat = n := by
    rw [count?, Bytes.toInt_toInt32 hl, maxCount]
    split <;> split <;> simp <;> omega
  rw [hread, and_congr_right_iff]
  intro hn
  exact (Bytes.eq_ofNat_iff hl (Nat.lt_of_le_of_lt hn (by decide))).symm

/-- What the header can count and the terminators can delimit. -/
structure Encodable (p : Parameters) : Prop where
  properties_free : ∀ property ∈ p.properties, '\x00' ∉ property.toList
  environment_free : ∀ entry ∈ p.environment, 0 ∉ entry
  arguments_free : '\x00' ∉ p.arguments.toList
  propertyCount_le : p.properties.length ≤ maxCount
  environmentSize_le : p.environmentSize ≤ maxCount

def headerBytes (p : Parameters) : Bytes :=
  Bytes.ofInt64 p.reading.millis ++ Bytes.ofInt64 p.reading.nanos ++
    Bytes.ofNat 4 p.properties.length ++ Bytes.ofNat 4 p.environmentSize

def layout (p : Parameters) : Bytes := p.headerBytes ++ p.pieces.flatMap terminate

theorem flatMap_pieces (p : Parameters) : p.pieces.flatMap terminate =
    (p.properties.map Bytes.ofString).flatMap terminate ++
      (p.environment.flatMap terminate ++ terminate (Bytes.ofString p.arguments)) := by
  simp [pieces]

theorem environmentSize_eq_sum (p : Parameters) :
    p.environmentSize = (p.environment.map fun entry => entry.length + 1).sum := by
  rw [environmentSize, List.length_flatMap]
  simp [terminate]

theorem free_pieces_iff (p : Parameters) : (∀ piece ∈ p.pieces, 0 ∉ piece) ↔
    (∀ property ∈ p.properties, '\x00' ∉ property.toList) ∧
      (∀ entry ∈ p.environment, 0 ∉ entry) ∧ '\x00' ∉ p.arguments.toList := by
  simp only [pieces, List.forall_mem_append, List.forall_mem_map, List.forall_mem_singleton,
    Bytes.zero_mem_ofString_iff, and_assoc]

theorem checkTexts_eq_ok_iff (p : Parameters) :
    p.checkTexts = .ok () ↔ ∀ piece ∈ p.pieces, 0 ∉ piece := by
  simp [checkTexts]

theorem header_eq_ok_iff (p : Parameters) : p.header = .ok b ↔
    p.properties.length ≤ maxCount ∧ p.environmentSize ≤ maxCount ∧ b = p.headerBytes := by
  rw [header]
  split
  case isTrue h => simp [Nat.not_le.2 h]
  case isFalse hcount =>
    split
    case isTrue h => simp [Nat.not_le.2 h]
    case isFalse hsize =>
      simp [Nat.not_lt.1 hcount, Nat.not_lt.1 hsize, headerBytes, eq_comm]

theorem encodable_iff (p : Parameters) : p.Encodable ↔
    (∀ piece ∈ p.pieces, 0 ∉ piece) ∧
      p.properties.length ≤ maxCount ∧ p.environmentSize ≤ maxCount := by
  rw [free_pieces_iff]
  constructor
  · intro h
    exact ⟨⟨h.properties_free, h.environment_free, h.arguments_free⟩, h.propertyCount_le,
      h.environmentSize_le⟩
  · rintro ⟨⟨hp, he, ha⟩, hc, hs⟩
    exact ⟨hp, he, ha, hc, hs⟩

theorem encode_eq_ok_iff (p : Parameters) : p.encode = .ok b ↔ p.Encodable ∧ b = p.layout := by
  rw [encodable_iff, ← checkTexts_eq_ok_iff]
  unfold encode
  cases hc : p.checkTexts with
  | error e => simp [bind, Except.bind]
  | ok =>
    cases hh : p.header with
    | error e =>
      refine iff_of_false (fun h => by cases h) fun h => ?_
      have hh' := (header_eq_ok_iff p).2 ⟨h.1.2.1, h.1.2.2, rfl⟩
      cases hh.symm.trans hh'
    | ok bytes =>
      obtain ⟨hcount, hsize, rfl⟩ := (header_eq_ok_iff p).1 hh
      simp [bind, Except.bind, pure, Except.pure, hcount, hsize, layout, flatMap_pieces, eq_comm]

theorem exists_encode_error_iff (p : Parameters) : (∃ e, p.encode = .error e) ↔ ¬ p.Encodable := by
  cases h : p.encode with
  | error e =>
    refine iff_of_true ⟨e, rfl⟩ fun henc => ?_
    cases h.symm.trans ((encode_eq_ok_iff p).2 ⟨henc, rfl⟩)
  | ok b => simp [((encode_eq_ok_iff p).1 h).1]

/-- What decoding sees of bytes that begin with a layout. -/
theorem sections_layout (p : Parameters) (rest : Bytes) :
    let bytes := p.layout ++ rest
    bytes.take 8 = Bytes.ofInt64 p.reading.millis ∧
      (bytes.drop 8).take 8 = Bytes.ofInt64 p.reading.nanos ∧
      (bytes.drop 16).take 4 = Bytes.ofNat 4 p.properties.length ∧
      (bytes.drop 20).take 4 = Bytes.ofNat 4 p.environmentSize ∧
      bytes.drop 24 = p.pieces.flatMap terminate ++ rest := by
  simp [layout, headerBytes, List.drop_append, List.drop_of_length_le]

theorem sections_append (bytes : Bytes) :
    bytes.take 8 ++ (bytes.drop 8).take 8 ++ (bytes.drop 16).take 4 ++ (bytes.drop 20).take 4 ++
      bytes.drop 24 = bytes := by
  have h (offset length : Nat) :
      (bytes.drop offset).take length ++ bytes.drop (offset + length) = bytes.drop offset := by
    rw [← List.drop_drop, List.take_append_drop]
  have hsize := h 20 4
  have hcount := h 16 4
  have hnanos := h 8 8
  have hmillis := h 0 8
  simp only [Nat.zero_add, Nat.reduceAdd, List.drop_zero] at hsize hcount hnanos hmillis
  rw [List.append_assoc, hsize, List.append_assoc, hcount, List.append_assoc, hnanos, hmillis]

theorem decode_eq_ok_iff_steps : decode bytes = .ok p ↔ headerSize ≤ bytes.length ∧
    p.reading = ⟨Bytes.toInt64 (bytes.take 8), Bytes.toInt64 ((bytes.drop 8).take 8)⟩ ∧
    ∃ count size rest last tail,
      count? (Bytes.toInt32 ((bytes.drop 16).take 4)) = some count ∧
      count? (Bytes.toInt32 ((bytes.drop 20).take 4)) = some size ∧
      decodeProperties 0 count (bytes.drop 24) = .ok (p.properties, rest) ∧
      size ≤ rest.length ∧ decodeEnvironment (rest.take size) = .ok p.environment ∧
      cutTerminated? (rest.drop size) = some (last, tail) ∧
      Text.Utf8.decode last = .ok p.arguments := by
  constructor
  · intro h
    simp only [decode, bind, Except.bind, pure, Except.pure, throw, throwThe,
      MonadExceptOf.throw] at h
    split at h
    case isTrue => cases h
    rename_i hlength
    split at h
    case h_2 => cases h
    rename_i count hcount
    split at h
    case h_2 => cases h
    rename_i size hsize
    split at h
    case h_1 => cases h
    rename_i body hproperties
    split at h
    case isTrue => cases h
    rename_i hleft
    split at h
    case h_1 => cases h
    rename_i entries hentries
    split at h
    case h_2 => cases h
    rename_i last tail hlast
    split at h
    case h_1 => cases h
    rename_i arguments htext
    cases h
    exact ⟨Nat.not_lt.1 hlength, rfl, count, size, body.2, last, tail, hcount, hsize, hproperties,
      Nat.not_lt.1 hleft, hentries, hlast, htext⟩
  · rintro ⟨hlength, hreading, count, size, rest, last, tail, hcount, hsize, hproperties, hleft,
      hentries, hlast, htext⟩
    obtain ⟨reading, properties, environment, arguments⟩ := p
    cases hreading
    have hlength' : ¬ bytes.length < 24 := Nat.not_lt.2 hlength
    have hleft' : ¬ rest.length < size := Nat.not_lt.2 hleft
    simp only [decode, bind, Except.bind, pure, Except.pure, headerSize, hlength', hleft',
      ↓reduceIte, List.drop_zero, hcount, hsize, hproperties, hentries, hlast, htext]

theorem decode_layout_append (h : p.Encodable) (rest : Bytes) :
    decode (p.layout ++ rest) = .ok p := by
  obtain ⟨hmillis, hnanos, hcount, hsize, hbody⟩ := sections_layout p rest
  refine decode_eq_ok_iff_steps.2 ⟨?_, ?_, p.properties.length, p.environmentSize,
    p.environment.flatMap terminate ++ (terminate (Bytes.ofString p.arguments) ++ rest),
    Bytes.ofString p.arguments, rest, ?_, ?_, ?_, ?_, ?_, ?_, ?_⟩
  · simp [layout, headerBytes, headerSize]
    omega
  · rw [hmillis, hnanos, Bytes.toInt64_ofInt64, Bytes.toInt64_ofInt64]
  · rw [hcount]
    exact (count?_eq_some_iff (Bytes.length_ofNat 4 _)).2 ⟨h.propertyCount_le, rfl⟩
  · rw [hsize]
    exact (count?_eq_some_iff (Bytes.length_ofNat 4 _)).2 ⟨h.environmentSize_le, rfl⟩
  · rw [hbody, flatMap_pieces, List.append_assoc, List.append_assoc]
    exact decodeProperties_eq_ok_iff.2 ⟨rfl, rfl, h.properties_free⟩
  · rw [List.length_append, environmentSize]
    omega
  · rw [environmentSize, List.take_left]
    exact decodeEnvironment_eq_ok_iff.2 ⟨rfl, h.environment_free⟩
  · rw [environmentSize, List.drop_left]
    refine cutTerminated?_eq_some_iff.2 ⟨rfl, ?_⟩
    rw [Bytes.zero_mem_ofString_iff]
    exact h.arguments_free
  · exact (Text.Utf8.decode_eq_ok_iff _ p.arguments).2 rfl

theorem exists_layout_of_decode (h : decode bytes = .ok p) :
    p.Encodable ∧ ∃ rest, bytes = p.layout ++ rest := by
  obtain ⟨hlength, hreading, count, size, rest, last, tail, hcount, hsize, hproperties, hleft,
    hentries, hlast, htext⟩ := decode_eq_ok_iff_steps.1 h
  have hword (offset length : Nat) (hfits : offset + length ≤ headerSize) :
      ((bytes.drop offset).take length).length = length := by
    rw [List.length_take, List.length_drop]
    omega
  obtain ⟨hcount, hcountWord⟩ := (count?_eq_some_iff (hword 16 4 (by decide))).1 hcount
  obtain ⟨hsize, hsizeWord⟩ := (count?_eq_some_iff (hword 20 4 (by decide))).1 hsize
  obtain ⟨hcountEq, hbody, hpropertiesFree⟩ := decodeProperties_eq_ok_iff.1 hproperties
  obtain ⟨hblock, hentriesFree⟩ := decodeEnvironment_eq_ok_iff.1 hentries
  obtain ⟨htail, hlastFree⟩ := cutTerminated?_eq_some_iff.1 hlast
  obtain rfl := (Text.Utf8.decode_eq_ok_iff _ _).1 htext
  have hsizeEq : p.environmentSize = size := by
    rw [environmentSize, ← hblock, List.length_take]
    omega
  refine ⟨⟨hpropertiesFree, hentriesFree, ?_, hcountEq ▸ hcount, hsizeEq ▸ hsize⟩, tail, ?_⟩
  · rwa [← Bytes.zero_mem_ofString_iff]
  · have htexts : bytes.drop 24 = p.pieces.flatMap terminate ++ tail := by
      rw [hbody, flatMap_pieces, ← hblock, List.append_assoc, List.append_assoc, ← htail,
        List.take_append_drop]
    have hheader : p.headerBytes = bytes.take 8 ++ (bytes.drop 8).take 8 ++
        (bytes.drop 16).take 4 ++ (bytes.drop 20).take 4 := by
      have hmillis : (bytes.take 8).length = 8 := hword 0 8 (by decide)
      have hnanos := hword 8 8 (by decide)
      rw [headerBytes, hreading, hcountEq, hsizeEq, ← hcountWord, ← hsizeWord]
      rw [Bytes.ofInt64_toInt64 hmillis, Bytes.ofInt64_toInt64 hnanos]
    rw [layout, hheader, List.append_assoc _ _ tail, ← htexts, sections_append]

theorem decode_eq_ok_iff (bytes : Bytes) (p : Parameters) :
    decode bytes = .ok p ↔ p.Encodable ∧ p.layout <+: bytes := by
  constructor
  · intro h
    obtain ⟨henc, rest, hrest⟩ := exists_layout_of_decode h
    exact ⟨henc, rest, hrest.symm⟩
  · rintro ⟨henc, rest, rfl⟩
    exact decode_layout_append henc rest

theorem decode_of_begins (h : p.encode = .ok b) (hb : b <+: bytes) : decode bytes = .ok p := by
  obtain ⟨henc, rfl⟩ := (encode_eq_ok_iff p).1 h
  exact (decode_eq_ok_iff bytes p).2 ⟨henc, hb⟩

theorem eq_of_begins {p q : Parameters} (hp : p.encode = .ok b) (hq : q.encode = .ok b')
    (hb : b <+: b') : p = q ∧ b = b' := by
  have h := (decode_of_begins hp hb).symm.trans (decode_of_begins hq List.prefix_rfl)
  cases h
  cases hp.symm.trans hq
  exact ⟨rfl, rfl⟩

theorem not_encodable_iff (p : Parameters) : ¬ p.Encodable ↔
    (∃ property ∈ p.properties, '\x00' ∈ property.toList) ∨ (∃ entry ∈ p.environment, 0 ∈ entry) ∨
      '\x00' ∈ p.arguments.toList ∨ maxCount < p.properties.length ∨
      maxCount < (p.environment.map fun entry => entry.length + 1).sum := by
  rw [encodable_iff, free_pieces_iff, environmentSize_eq_sum]
  simp only [Classical.not_and_iff_not_or_not, Classical.not_forall, Classical.not_not, Nat.not_le,
    exists_prop, or_assoc]

/-- Parameters are read from exactly the bytes that begin with their encoding. Decoding thus undoes
encoding, and no encoding is the beginning of a different one. Only a NUL or a count beyond the
header stands against an encoding. -/
theorem decode_eq_ok_iff_begins_with_encoding (bytes : Bytes) (p : Parameters) :
    (decode bytes = .ok p ↔ ∃ b, p.encode = .ok b ∧ b <+: bytes) ∧
    (∀ (b : Bytes) (q : Parameters) (b' : Bytes),
      p.encode = .ok b → q.encode = .ok b' → b <+: b' → p = q ∧ b = b') ∧
    ((∃ e, p.encode = .error e) ↔
      (∃ property ∈ p.properties, '\x00' ∈ property.toList) ∨ (∃ entry ∈ p.environment, 0 ∈ entry) ∨
        '\x00' ∈ p.arguments.toList ∨ maxCount < p.properties.length ∨
        maxCount < (p.environment.map fun entry => entry.length + 1).sum) := by
  refine ⟨⟨fun h => ?_, fun ⟨b, h, hb⟩ => decode_of_begins h hb⟩,
    fun b q b' => eq_of_begins, ?_⟩
  · obtain ⟨henc, hb⟩ := (decode_eq_ok_iff bytes p).1 h
    exact ⟨p.layout, (encode_eq_ok_iff p).2 ⟨henc, rfl⟩, hb⟩
  · rw [exists_encode_error_iff, not_encodable_iff]

end Thaw.Parameters
