import Thaw.Proofs.Classification.Report
import Thaw.Proofs.Text.Numeral

namespace Thaw
set_option autoImplicit true

open Text

namespace Socket

/-- The link of a socket, with a numeral of its inode in brackets. -/
def IsLink (target : String) (inode : UInt64) : Prop :=
  ∃ numeral, target = "socket:[" ++ numeral ++ "]" ∧ Numeral.Natural 10 numeral.toList inode.toNat

def IsFirst (tables : Tables) (inode : UInt64) (e : Entry) : Prop :=
  e.inode = inode ∧
    ∃ before after, tables = before ++ e :: after ∧ ∀ e' ∈ before, e'.inode ≠ inode

/-- What tables tell of a link. -/
inductive Tells (tables : Tables) (target : String) : String → Prop where
  | row (hlink : IsLink target inode) (hfirst : IsFirst tables inode e) :
    Tells tables target e.describe
  | link (hmissing : ∀ inode, IsLink target inode → ∀ e ∈ tables, e.inode ≠ inode) :
    Tells tables target target

def Lists (tables : Tables) (target : String) : Prop :=
  ∃ inode, IsLink target inode ∧ ∃ e ∈ tables, e.inode = inode

/-- The same rows have the inode of a link, in the same order. -/
def Agree (target : String) (tables tables' : Tables) : Prop :=
  ∀ inode, IsLink target inode →
    tables'.filter (fun e => e.inode == inode) = tables.filter fun e => e.inode == inode

variable {tables tables' : Tables} {target : String} {inode : UInt64} {e : Entry}

theorem toList_brackets (numeral : String) :
    ("socket:[" ++ numeral ++ "]").toList = "socket:[".toList ++ (numeral.toList ++ [']']) := by
  rw [String.toList_append, String.toList_append, List.append_assoc]
  rfl

theorem inode?_brackets (numeral : String) :
    inode? ("socket:[" ++ numeral ++ "]") = Numeral.uint64? 10 numeral.toList := by
  have hlast : ("socket:[".toList ++ (numeral.toList ++ [']'])).getLast? = some ']' := by
    rw [← List.append_assoc]
    exact List.getLast?_concat
  simp only [inode?, toList_brackets, hlast]
  rw [List.drop_left, List.dropLast_concat]
  simp

theorem exists_brackets (h : inode? target = some inode) :
    ∃ numeral, target = "socket:[" ++ numeral ++ "]" := by
  simp only [inode?] at h
  split at h
  case isFalse => cases h
  case isTrue hbrackets =>
    rw [Bool.and_eq_true, List.isPrefixOf_iff_prefix, beq_iff_eq] at hbrackets
    obtain ⟨⟨rest, hrest⟩, hlast⟩ := hbrackets
    rw [← hrest, List.getLast?_append] at hlast
    cases hr : rest.getLast? with
    | none =>
      -- The stem does not end in the bracket that closes a link.
      rw [hr] at hlast
      cases hlast
    | some c =>
      rw [hr] at hlast
      cases hlast
      obtain ⟨numeral, rfl⟩ := List.getLast?_eq_some_iff.1 hr
      refine ⟨String.ofList numeral, ?_⟩
      apply String.toList_injective
      rw [toList_brackets, ← hrest, String.toList_ofList (l := numeral)]

theorem inode?_eq_some_iff : inode? target = some inode ↔ IsLink target inode := by
  constructor
  · intro h
    obtain ⟨numeral, rfl⟩ := exists_brackets h
    rw [inode?_brackets, Numeral.uint64?_eq_some_iff] at h
    exact ⟨numeral, rfl, h⟩
  · intro h
    obtain ⟨numeral, rfl, h⟩ := h
    rwa [inode?_brackets, Numeral.uint64?_eq_some_iff]

theorem inode?_toString (inode : UInt64) : inode? s!"socket:[{inode}]" = some inode := by
  apply inode?_eq_some_iff.2
  exact ⟨toString inode, rfl, .inl (Numeral.digits_toString _)⟩

theorem find?_eq_some_iff : tables.find? inode = some e ↔ IsFirst tables inode e := by
  rw [Tables.find?, List.find?_eq_some_iff_append]
  simp [IsFirst]

theorem find?_eq_none_iff : tables.find? inode = none ↔ ∀ e ∈ tables, e.inode ≠ inode := by
  rw [Tables.find?, List.find?_eq_none]
  simp

theorem tells_details (tables : Tables) (target : String) :
    Tells tables target (tables.details target) := by
  unfold Tables.details
  cases hlink : inode? target with
  | none =>
    apply Tells.link
    intro inode h
    rw [inode?_eq_some_iff.2 h] at hlink
    cases hlink
  | some inode =>
    rw [Option.bind_some]
    cases hrow : tables.find? inode with
    | some e => exact .row (inode?_eq_some_iff.1 hlink) (find?_eq_some_iff.1 hrow)
    | none =>
      apply Tells.link
      intro inode' h
      rw [inode?_eq_some_iff.2 h] at hlink
      cases hlink
      exact find?_eq_none_iff.1 hrow

/-- All that matters of tables is which row of the inode of a link comes first. -/
theorem details_congr
    (h : ∀ inode, IsLink target inode → tables'.find? inode = tables.find? inode) :
    tables'.details target = tables.details target := by
  unfold Tables.details
  cases hlink : inode? target with
  | none => rfl
  | some inode => rw [Option.bind_some, Option.bind_some, h inode (inode?_eq_some_iff.1 hlink)]

theorem details_append (h : Lists tables target) (more : Tables) :
    Tables.details (tables ++ more) target = tables.details target := by
  obtain ⟨inode, hlink, e, he, hinode⟩ := h
  apply details_congr
  intro inode' hlink'
  rw [← inode?_eq_some_iff] at hlink hlink'
  cases hlink.symm.trans hlink'
  cases hrow : tables.find? inode with
  | none => exact absurd hinode (find?_eq_none_iff.1 hrow e he)
  | some first =>
    obtain ⟨hfirst, before, after, rfl, hbefore⟩ := find?_eq_some_iff.1 hrow
    apply find?_eq_some_iff.2
    exact ⟨hfirst, before, after ++ more, by simp, hbefore⟩

theorem details_of_agree (h : Agree target tables tables') :
    tables'.details target = tables.details target := by
  apply details_congr
  intro inode hlink
  rw [Tables.find?, Tables.find?, ← List.head?_filter, ← List.head?_filter, h inode hlink]

end Socket

open Socket

variable {p : Policy} {l : Ledger} {s : Slot}

theorem Policy.details_of_ne {verdict : Verdict} (h : verdict ≠ .blocked .socket)
    (target : String) : p.details verdict target = target := by
  unfold details
  split
  case h_1 => exact absurd rfl h
  case h_2 => rfl

theorem BlockerKind.kind_of_ofFile {kind : FileKind} (h : ofFile kind = socket) :
    kind = .socket := by
  cases kind with
  | socket => rfl
  | symlink | regular | block | directory | character | fifo | unknown => cases h

/-- With other tables a socket blocks all the same, and only its description changes. -/
theorem Policy.block?_withTables (hb : p.block? s = some b) (hsocket : b.kind = .socket)
    (tables : Tables) : Policy.block? { p with sockets := tables } s =
      some { b with message := tables.details (s.target.getD "") } := by
  obtain ⟨status, hroot, hstatus, he, rfl⟩ := block?_eq_some_iff.1 hb
  have hmilder : Policy.Milder { p with sockets := tables } p := ⟨List.Subset.refl _, fun _ h => h⟩
  apply block?_eq_some_iff.2
  refine ⟨status, hroot, hstatus, ?_, ?_⟩
  · intro h
    exact he (h.mono hmilder rfl (.refl _))
  · have hkind : BlockerKind.ofFile status.kind = .socket := hsocket
    rw [hkind]
    rfl

theorem mem_blockers_withTables {tables : Tables} (hs : s ∈ l.slots) (hb : p.block? s = some b)
    (hsocket : b.kind = .socket) (hmessage : tables.details (s.target.getD "") = b.message) :
    b ∈ (classify { p with sockets := tables } l).blockers := by
  have hblock := Policy.block?_withTables hb hsocket tables
  rw [hmessage] at hblock
  rw [blockers_eq_filterMap]
  exact List.mem_filterMap.2 ⟨s, hs, hblock⟩

/-- Whatever is read into the tables, a blocking socket is described by the first row with the inode
in its link or, if there is none, by the link. Rows that are added behind do not change how a socket is
described whose inode has a row already, and rows of other inodes never matter. All other descriptors
go by their link. -/
theorem classify_describes_sockets (p : Policy) (l : Ledger) :
    let report := classify p l
    (∀ b ∈ report.blockers, b.kind = .socket →
      ∃ s ∈ l.slots, b.fd = s.fd ∧ (l.Numbered → l.get? b.fd = some s) ∧
        (s.isRoot = true ∧ ∃ status, s.status = some status ∧ status.kind = .socket) ∧
        let target := s.target.getD ""
        Tells p.sockets target b.message ∧
        (Lists p.sockets target → ∀ more,
          b ∈ (classify { p with sockets := p.sockets ++ more } l).blockers) ∧
        ∀ tables, Agree target p.sockets tables →
          b ∈ (classify { p with sockets := tables } l).blockers) ∧
    (∀ d ∈ report.decisions, d.verdict ≠ .blocked .socket →
      ∃ s ∈ l.slots, d.fd = s.fd ∧ (l.Numbered → l.get? d.fd = some s) ∧
        d.details = s.target.getD "") ∧
    ∀ inode : UInt64, inode? s!"socket:[{inode}]" = some inode := by
  intro report
  refine ⟨?_, ?_, inode?_toString⟩
  · intro b hb hsocket
    rw [blockers_eq_filterMap] at hb
    obtain ⟨s, hs, hblock⟩ := List.mem_filterMap.1 hb
    obtain ⟨status, hroot, hstatus, -, hfields⟩ := Policy.block?_eq_some_iff.1 hblock
    have hfd : b.fd = s.fd := congrArg Blocker.fd hfields
    have hkind : BlockerKind.ofFile status.kind = .socket :=
      (congrArg Blocker.kind hfields).symm.trans hsocket
    have hmessage : b.message = p.sockets.details (s.target.getD "") := by
      have hsame := hblock.symm.trans (Policy.block?_withTables hblock hsocket p.sockets)
      exact congrArg Blocker.message (Option.some.inj hsame)
    refine ⟨s, hs, hfd, ?_, ⟨hroot, status, hstatus, BlockerKind.kind_of_ofFile hkind⟩, ?_, ?_, ?_⟩
    · intro hn
      rw [hfd]
      exact hn.get?_eq_some_iff.2 ⟨hs, rfl⟩
    · rw [hmessage]
      exact tells_details _ _
    · intro hlisted more
      apply mem_blockers_withTables hs hblock hsocket
      rw [details_append hlisted, hmessage]
    · intro tables hagree
      apply mem_blockers_withTables hs hblock hsocket
      rw [details_of_agree hagree, hmessage]
  · intro d hd hother
    obtain ⟨s, hs, -, hdecide⟩ := mem_decisions_iff.1 hd
    obtain ⟨status, -, rfl⟩ := Policy.decide?_eq_some_iff.1 hdecide
    exact ⟨s, hs, rfl, fun hn => hn.get?_eq_some_iff.2 ⟨hs, rfl⟩, Policy.details_of_ne hother _⟩

def servers : Tables :=
  let row (port : UInt16) (inode : UInt64) : Entry :=
    ⟨"tcp", .v4 127 0 0 1, port, .v4 0 0 0 0, 0, inode⟩
  [row 22 7, row 8080 2988639, row 8081 2988639]

def serverSocket : Slot :=
  .opened 0 ⟨⟨8, 2988639⟩, .socket, 1, ⟨0⟩⟩ (some "socket:[+02988639]")

theorem classify_describes_sockets_server :
    let p : Policy := ⟨[], fun _ => false, servers, false⟩
    let b : Blocker :=
      ⟨0, .socket, "tcp localAddr 127.0.0.1 localPort 8080 remoteAddr 0.0.0.0 remotePort 0"⟩
    b ∈ (classify p ⟨[serverSocket]⟩).blockers ∧ b.kind = .socket ∧
      Tells servers "socket:[+02988639]" b.message ∧
      ∀ more, b ∈ (classify { p with sockets := servers ++ more } ⟨[serverSocket]⟩).blockers := by
  intro p b
  have hb : b ∈ (classify p ⟨[serverSocket]⟩).blockers := by decide +kernel
  obtain ⟨hblockers, -, -⟩ := classify_describes_sockets p ⟨[serverSocket]⟩
  obtain ⟨s, hs, -, -, -, htells, hmore, -⟩ := hblockers b hb rfl
  cases List.mem_singleton.1 hs
  have hlink : IsLink "socket:[+02988639]" 2988639 := inode?_eq_some_iff.1 (by decide +kernel)
  have hlists : Lists servers "socket:[+02988639]" := ⟨2988639, hlink, by decide +kernel⟩
  exact ⟨hb, rfl, htells, hmore hlists⟩

end Thaw
