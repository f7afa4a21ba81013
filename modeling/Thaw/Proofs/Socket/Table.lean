import Thaw.Proofs.Socket.Offsets

namespace Thaw.Socket
set_option autoImplicit true

open Text

/-- A field that gives an address and a port, with a colon between them. -/
def IsEndpoint (family : Family) (field : List Char) (address : Address) (port : UInt16) : Prop :=
  ∃ host digits, field = host ++ ':' :: digits ∧ ':' ∉ host ∧ Spells family host address ∧
    Numeral.Natural 16 digits port.toNat

/-- A line whose second and third fields are the two ends and whose tenth is the inode. -/
def IsRow (protocol : String) (family : Family) (line : List Char) (e : Entry) : Prop :=
  ∃ label localEnd remoteEnd middle inode rest,
    Spaced line (label :: localEnd :: remoteEnd :: (middle ++ inode :: rest)) ∧
    middle.length = 6 ∧
    IsEndpoint family localEnd e.localAddress e.localPort ∧
    IsEndpoint family remoteEnd e.remoteAddress e.remotePort ∧
    Numeral.Natural 10 inode e.inode.toNat ∧ e.protocol = protocol

/-- The entries of the lines: one for each row, none for another line. -/
inductive Rows (protocol : String) (family : Family) : List (List Char) → List Entry → Prop where
  | nil : Rows protocol family [] []
  | row (h : IsRow protocol family line e) (hrest : Rows protocol family rows es) :
      Rows protocol family (line :: rows) (e :: es)
  | skip (h : ∀ e, ¬ IsRow protocol family line e) (hrest : Rows protocol family rows es) :
      Rows protocol family (line :: rows) es

variable {protocol : String} {family : Family} {address : Address} {port : UInt16} {e : Entry}
  {field line : List Char} {es : List Entry} {rows : List (List Char)}

theorem endpoint?_eq_some_iff : endpoint? family field = some (address, port) ↔
    IsEndpoint family field address port := by
  simp only [endpoint?, Option.bind_eq_bind, Option.bind_eq_some_iff, Numeral.uint16?_eq_some_iff,
    address?_eq_some_iff]
  constructor
  · intro h
    obtain ⟨⟨host, digits⟩, hcut, _, hport, _, hhost, he⟩ := h
    cases he
    obtain ⟨c, hc, rfl, hfree⟩ := cut?_eq_some_iff.1 hcut
    rw [beq_iff_eq] at hc
    cases hc
    exact ⟨host, digits, rfl, forall_beq_false_iff.1 hfree, hhost, hport⟩
  · intro h
    obtain ⟨host, digits, rfl, hfree, hhost, hport⟩ := h
    have hcut : cut? (· == ':') (host ++ ':' :: digits) = some (host, digits) :=
      cut?_append_cons (forall_beq_false_iff.2 hfree) (beq_self_eq_true ':')
    exact ⟨(host, digits), hcut, port, hport, address, hhost, rfl⟩

theorem row?_eq_some_iff : row? protocol family line = some e ↔ IsRow protocol family line e := by
  constructor
  · intro h
    unfold row? at h
    split at h
    case h_1 label localEnd remoteEnd a b c d f g inode rest hwords =>
      simp only [Option.bind_eq_bind, Option.bind_eq_some_iff, Prod.exists, endpoint?_eq_some_iff,
        Numeral.uint64?_eq_some_iff] at h
      obtain ⟨_, _, hlocal, _, _, hremote, _, hinode, he⟩ := h
      cases he
      exact ⟨label, localEnd, remoteEnd, [a, b, c, d, f, g], inode, rest, words_eq_iff.1 hwords, rfl,
        hlocal, hremote, hinode, rfl⟩
    case h_2 => cases h
  · intro h
    obtain ⟨label, localEnd, remoteEnd, middle, inode, rest, hspaced, hmiddle, hlocal, hremote,
      hinode, rfl⟩ := h
    obtain ⟨field, rfl⟩ := exists_ofFn_of_length hmiddle
    have hsix : List.ofFn field = [field 0, field 1, field 2, field 3, field 4, field 5] := rfl
    have hwords := hspaced.words_eq
    rw [hsix] at hwords
    have hlocal := endpoint?_eq_some_iff.2 hlocal
    have hremote := endpoint?_eq_some_iff.2 hremote
    have hinode := Numeral.uint64?_eq_some_iff.2 hinode
    simp [row?, hwords, hlocal, hremote, hinode]

theorem rows_iff : rows.filterMap (row? protocol family) = es ↔ Rows protocol family rows es := by
  constructor
  · intro h
    induction rows generalizing es with
    | nil =>
      cases h
      exact .nil
    | cons line rows ih =>
      cases hrow : row? protocol family line with
      | none =>
        rw [List.filterMap_cons_none hrow] at h
        have hnot (e : Entry) : ¬ IsRow protocol family line e := by
          intro he
          rw [row?_eq_some_iff.2 he] at hrow
          cases hrow
        exact .skip hnot (ih h)
      | some e =>
        rw [List.filterMap_cons_some hrow] at h
        cases h
        exact .row (row?_eq_some_iff.1 hrow) (ih rfl)
  · intro h
    induction h with
    | nil => rfl
    | row h _ ih => rw [List.filterMap_cons_some (row?_eq_some_iff.2 h), ih]
    | @skip line _ _ h _ ih =>
      have hrow : row? protocol family line = none := by
        apply Option.eq_none_iff_forall_ne_some.2
        intro e he
        exact h e (row?_eq_some_iff.1 he)
      rw [List.filterMap_cons_none hrow, ih]

theorem parseTable_eq_iff {content : String} : parseTable protocol family content = es ↔
    Rows protocol family ((lines content.toList).drop 1) es := by
  rw [parseTable_eq_lines, rows_iff]

def endpointText (address : Address) (port : UInt16) : List Char :=
  address.hostText ++ ':' :: upperDigits 4 port.toNat

/-- A line of the table on which the system prints an entry, among other fields. -/
def Prints (protocol : String) (family : Family) (e : Entry) (line : List Char) : Prop :=
  (e.protocol = protocol ∧ e.localAddress.family = family ∧ e.remoteAddress.family = family) ∧
  ∃ label middle rest,
    Spaced line (label :: endpointText e.localAddress e.localPort ::
      endpointText e.remoteAddress e.remotePort ::
      (middle ++ (toString e.inode.toNat).toList :: rest)) ∧
    middle.length = 6 ∧ '\n' ∉ line

theorem isEndpoint_endpointText (h : address.family = family) (port : UInt16) :
    IsEndpoint family (endpointText address port) address port := by
  have hhost := spells_hostText address
  rw [h] at hhost
  exact ⟨address.hostText, upperDigits 4 port.toNat, rfl, hhost.colon_not_mem, hhost,
    .inl (digits_upperDigits port.toNat_lt)⟩

theorem Prints.isRow (h : Prints protocol family e line) : IsRow protocol family line e := by
  obtain ⟨⟨hprotocol, hlocal, hremote⟩, label, middle, rest, hspaced, hmiddle, -⟩ := h
  exact ⟨label, _, _, middle, _, rest, hspaced, hmiddle, isEndpoint_endpointText hlocal e.localPort,
    isEndpoint_endpointText hremote e.remotePort, .inl (Numeral.digits_toString _), hprotocol⟩

def text (rows : List (List Char)) : String := String.ofList (rows.flatMap (· ++ ['\n']))

theorem rows_of_prints (h : List.Forall₂ (Prints protocol family) es rows) :
    Rows protocol family rows es ∧ ∀ line ∈ rows, '\n' ∉ line := by
  induction h with
  | nil => exact ⟨.nil, by simp⟩
  | cons hline _ ih =>
    have hfree := hline.2
    obtain ⟨_, _, _, -, -, hfree⟩ := hfree
    exact ⟨.row hline.isRow ih.1, List.forall_mem_cons.2 ⟨hfree, ih.2⟩⟩

theorem parseTable_text {heading : List Char} (hheading : '\n' ∉ heading)
    (h : List.Forall₂ (Prints protocol family) es rows) :
    parseTable protocol family (text (heading :: rows)) = es := by
  obtain ⟨hrows, hfree⟩ := rows_of_prints h
  have hsplit : split (· == '\n') (text (heading :: rows)).toList = (heading :: rows) ++ [[]] := by
    rw [split_eq_append_nil_iff, text, String.toList_ofList]
    exact ⟨rfl, List.forall_mem_cons.2 ⟨hheading, hfree⟩⟩
  have hempty : row? protocol family [] = none := rfl
  rw [parseTable, hsplit, List.cons_append, List.drop_one, List.tail_cons, List.filterMap_append,
    rows_iff.2 hrows, List.filterMap_cons_none hempty, List.filterMap_nil, List.append_nil]

/-- The entries of a text are those of the rows behind its first line; to read them by offsets asks
for nothing that is not there; and entries that the system prints are read as they were. -/
theorem parseTable_reads_rows (protocol : String) (family : Family) :
    (∀ content es, parseTable protocol family content = es ↔
      Rows protocol family ((lines content.toList).drop 1) es) ∧
    (∀ content, tableAt protocol family content = some (parseTable protocol family content)) ∧
    ∀ heading es rows, '\n' ∉ heading → List.Forall₂ (Prints protocol family) es rows →
      parseTable protocol family (text (heading :: rows)) = es :=
  ⟨fun _ _ => parseTable_eq_iff, tableAt_eq protocol family, fun _ _ _ => parseTable_text⟩

def listening : Entry := ⟨"tcp", .v4 127 0 0 1, 8080, .v4 0 0 0 0, 0, 2988639⟩

def listeningLine : List Char :=
  "   0: 0100007F:1F90 00000000:0000 0A 00:00 00:00 00  1000  0 2988639 1".toList

theorem parseTable_reads_rows_listening :
    List.Forall₂ (Prints "tcp" .v4) [listening] [listeningLine] ∧
      parseTable "tcp" .v4 (text ["  sl  local_address".toList, listeningLine]) = [listening] := by
  have hline : Prints "tcp" .v4 listening listeningLine :=
    ⟨by decide, "0:".toList, ["0A", "00:00", "00:00", "00", "1000", "0"].map String.toList,
      ["1".toList], words_eq_iff.1 (by decide +kernel), by decide, by decide +kernel⟩
  have hall : List.Forall₂ (Prints "tcp" .v4) [listening] [listeningLine] := .cons hline .nil
  exact ⟨hall, (parseTable_reads_rows "tcp" .v4).2.2 _ _ _ (by decide +kernel) hall⟩

end Thaw.Socket
