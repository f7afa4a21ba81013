import Thaw.Proofs.Socket.Host
import Thaw.Proofs.Text.Words

namespace Thaw.Socket
set_option autoImplicit true

open Text

/-- Nothing at all where something is asked for that is not there; otherwise what was read, if
anything. -/
abbrev Lookup := OptionT Option

namespace Lookup

def answer (found : Option α) : Lookup α := OptionT.mk (some found)

def ask (there : Option α) : Lookup α := OptionT.lift there

end Lookup

open Lookup

/-- The word of eight digits, and of thirty-two each at its offset. -/
def addressAt : Family → List Char → Lookup Address
  | .v4, host => do
    guard (width host = 8)
    let word ← answer (Numeral.uint32? 16 host)
    answer (Address.ofBytes? (Bytes.ofNat 4 word.toNat))
  | .v6, host => do
    guard (width host = 32 ∧ Ascii host)
    let words ← (List.range 4).mapM fun i => do
      let digits ← ask (slice? (i * 8) (i * 8 + 8) host)
      answer (Numeral.uint32? 16 digits)
    answer (Address.ofBytes? (words.flatMap fun word => Bytes.ofNat 4 word.toNat))

def endpointAt (family : Family) (field : List Char) : Lookup (Address × UInt16) := do
  let (host, port) ← answer (cut? (· == ':') field)
  let port ← answer (Numeral.uint16? 16 port)
  let address ← addressAt family host
  return (address, port)

/-- The fields by their positions, behind a test of their number. -/
def rowAt (protocol : String) (family : Family) (line : List Char) : Lookup Entry := do
  let fields := words line
  guard (10 ≤ fields.length)
  let (localAddress, localPort) ← endpointAt family (← ask fields[1]?)
  let (remoteAddress, remotePort) ← endpointAt family (← ask fields[2]?)
  let inode ← answer (Numeral.uint64? 10 (← ask fields[9]?))
  return ⟨protocol, localAddress, localPort, remoteAddress, remotePort, inode⟩

/-- A table of which one line cannot be read cannot be read. -/
def tableAt (protocol : String) (family : Family) (content : String) : Option (List Entry) :=
  (((lines content.toList).drop 1).mapM fun line => (rowAt protocol family line).run).map
    (List.filterMap id)

variable {protocol : String} {family : Family} {host cs line : List Char} {count : Nat}

theorem answer_bind (x : Option α) (f : α → Option β) :
    (answer x >>= fun a => answer (f a)) = answer (x.bind f) := by
  cases x <;> rfl

theorem answer_some_bind (a : α) (next : α → Lookup β) : (answer (some a) >>= next) = next a := rfl

theorem ask_some_bind (a : α) (next : α → Lookup β) : (ask (some a) >>= next) = next a := rfl

theorem mapM_answer {g : α → Lookup β} {f : α → Option β} {as : List α}
    (h : ∀ a ∈ as, g a = answer (f a)) : as.mapM g = answer (as.mapM f) := by
  induction as with
  | nil => rfl
  | cons a as ih =>
    obtain ⟨ha, has⟩ := List.forall_mem_cons.1 h
    rw [List.mapM_cons, ha, ih has, List.mapM_cons]
    cases f a with
    | none => rfl
    | some b => cases as.mapM f <;> rfl

theorem guard_bind_of_true {p : Prop} [Decidable p] (hp : p) (next : Unit → Lookup α) :
    ((guard p : Lookup Unit) >>= next) = next () := by
  rw [guard, if_pos hp]
  rfl

theorem guard_bind_of_false {p : Prop} [Decidable p] (hp : ¬ p) (next : Unit → Lookup α) :
    ((guard p : Lookup Unit) >>= next) = answer none := by
  rw [guard, if_neg hp]
  rfl

theorem mapM_eq_map_mapM {h : α → Option γ} {f : α → Option β} {g : β → γ} {as : List α}
    (hmap : ∀ a ∈ as, h a = (f a).map g) : as.mapM h = (as.mapM f).map (List.map g) := by
  induction as with
  | nil => rfl
  | cons a as ih =>
    obtain ⟨ha, has⟩ := List.forall_mem_cons.1 hmap
    rw [List.mapM_cons, ha, ih has, List.mapM_cons]
    cases f a with
    | none => rfl
    | some b => cases as.mapM f <;> rfl

theorem wordBytes?_eq (hw : width cs = 8) :
    wordBytes? cs = (Numeral.uint32? 16 cs).map fun word => Bytes.ofNat 4 word.toNat := by
  apply Option.ext
  intro bs
  rw [wordBytes?_eq_some_iff, Option.map_eq_some_iff]
  constructor
  · intro h
    obtain ⟨part, hpart, rfl, rfl⟩ := h
    exact ⟨part.word, Numeral.uint32?_eq_some_iff.2 hpart.2, rfl⟩
  · intro h
    obtain ⟨word, hword, rfl⟩ := h
    exact ⟨⟨cs, word⟩, ⟨hw, Numeral.uint32?_eq_some_iff.1 hword⟩, rfl, rfl⟩

theorem eights_eq_map_range (cs : List Char) :
    eights 4 cs = (List.range 4).map fun i => (cs.drop (i * 8)).take 8 := by
  simp [eights, List.range_succ]

theorem address?_of_width_ne (h : ¬ (width host = 8 * family.words ∧ Ascii host)) :
    address? family host = none := by
  apply Option.eq_none_iff_forall_ne_some.2
  intro address ha
  have hspells := address?_eq_some_iff.1 ha
  exact h ⟨(width_of_ascii hspells.ascii).trans hspells.length, hspells.ascii⟩

/-- Thirty-two characters of one byte each have a word at every offset. -/
theorem mapM_words (hl : host.length = 32) (hascii : Ascii host) :
    ((List.range 4).mapM fun i => do
      let digits ← ask (slice? (i * 8) (i * 8 + 8) host)
      answer (Numeral.uint32? 16 digits)) =
    answer ((List.range 4).mapM fun i => Numeral.uint32? 16 ((host.drop (i * 8)).take 8)) := by
  apply mapM_answer
  intro i hi
  have hi := List.mem_range.1 hi
  rw [slice?_of_ascii hascii (by omega)]
  rfl

theorem hostBytes?_four (hl : host.length = 32) (hascii : Ascii host) : hostBytes? 4 host =
    ((List.range 4).mapM fun i => Numeral.uint32? 16 ((host.drop (i * 8)).take 8)).map
      (List.flatMap fun word => Bytes.ofNat 4 word.toNat) := by
  have hword : ∀ i ∈ List.range 4, wordBytes? ((host.drop (i * 8)).take 8) =
      (Numeral.uint32? 16 ((host.drop (i * 8)).take 8)).map fun word =>
        Bytes.ofNat 4 word.toNat := by
    intro i hi
    have hi := List.mem_range.1 hi
    have hpart : Ascii ((host.drop (i * 8)).take 8) := fun c hc =>
      hascii c (List.mem_of_mem_drop (List.mem_of_mem_take hc))
    apply wordBytes?_eq
    rw [width_of_ascii hpart, List.length_take, List.length_drop]
    omega
  have hwords := congrArg (Option.map List.flatten) (mapM_eq_map_mapM hword)
  rw [Option.map_map] at hwords
  rw [hostBytes?, if_pos hl, eights_eq_map_range, List.mapM_map]
  exact hwords

theorem addressAt_eq (family : Family) (host : List Char) :
    addressAt family host = answer (address? family host) := by
  cases family with
  | v4 =>
    by_cases hw : width host = 8
    · rw [addressAt, guard_bind_of_true hw, answer_bind, address?_eq, Family.words, hostBytes?_one,
        wordBytes?_eq hw, Option.bind_map]
      rfl
    · rw [addressAt, guard_bind_of_false hw, address?_of_width_ne fun h => hw h.1]
  | v6 =>
    by_cases h : width host = 32 ∧ Ascii host
    · have hl : host.length = 32 := (width_of_ascii h.2).symm.trans h.1
      rw [addressAt, guard_bind_of_true h, mapM_words hl h.2, answer_bind, address?_eq, Family.words,
        hostBytes?_four hl h.2, Option.bind_map]
      rfl
    · rw [addressAt, guard_bind_of_false h, address?_of_width_ne h]

theorem endpointAt_eq (family : Family) (field : List Char) :
    endpointAt family field = answer (endpoint? family field) := by
  simp only [endpointAt, endpoint?, addressAt_eq]
  cases cut? (· == ':') field with
  | none => rfl
  | some parts =>
    obtain ⟨host, digits⟩ := parts
    simp only [answer_some_bind, Option.bind_eq_bind, Option.bind_some]
    cases Numeral.uint16? 16 digits with
    | none => rfl
    | some port =>
      cases address? family host <;> rfl

theorem rowAt_eq (protocol : String) (family : Family) (line : List Char) :
    rowAt protocol family line = answer (row? protocol family line) := by
  simp only [rowAt, row?, endpointAt_eq]
  split
  case h_1 label localEnd remoteEnd a b c d f g inode rest hwords =>
    have hlength : 10 ≤ (words line).length := by
      rw [hwords]
      exact Nat.le_add_left 10 rest.length
    rw [guard_bind_of_true hlength, hwords]
    simp only [List.getElem?_cons_succ, List.getElem?_cons_zero, ask_some_bind]
    cases endpoint? family localEnd with
    | none => rfl
    | some localEnd =>
      cases endpoint? family remoteEnd with
      | none => rfl
      | some remoteEnd => cases Numeral.uint64? 10 inode <;> rfl
  case h_2 hnot =>
    have hlength : ¬ 10 ≤ (words line).length := by
      intro hle
      have hten : ((words line).take 10).length = 10 := by
        rw [List.length_take]
        omega
      obtain ⟨field, hfield⟩ := exists_ofFn_of_length hten
      have hwords := List.take_append_drop 10 (words line)
      rw [← hfield] at hwords
      exact hnot _ _ _ _ _ _ _ _ _ _ _ hwords.symm
    rw [guard_bind_of_false hlength]

theorem row?_stripReturn (line : List Char) :
    row? protocol family (stripReturn line) = row? protocol family line := by
  rw [row?, words_stripReturn, row?]

/-- It does not matter whether a line ends in a carriage return, nor whether the last line ends. -/
theorem parseTable_eq_lines (protocol : String) (family : Family) (content : String) :
    parseTable protocol family content =
      ((lines content.toList).drop 1).filterMap (row? protocol family) :=
  (filterMap_drop_lines rfl row?_stripReturn content.toList).symm

/-- No table makes the reading ask for what is not there, and it reads the same entries. -/
theorem tableAt_eq (protocol : String) (family : Family) (content : String) :
    tableAt protocol family content = some (parseTable protocol family content) := by
  have hrow (line : List Char) : (rowAt protocol family line).run = pure (row? protocol family line) :=
    congrArg OptionT.run (rowAt_eq protocol family line)
  rw [parseTable_eq_lines]
  simp only [tableAt, hrow, List.mapM_pure]
  exact congrArg some List.filterMap_map

end Thaw.Socket
