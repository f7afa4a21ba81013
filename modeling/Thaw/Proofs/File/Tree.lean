import Mathlib.Data.List.Find
import Thaw.File.Change

namespace Thaw.FileTree
set_option autoImplicit true

def Passable (t : FileTree) (access : Access) (e : Nat) : Prop :=
  t.isDirectory e = true ∧ access.maySearch e = true

/-- How names lead from a directory to where the way along them stops. -/
inductive Leads (t : FileTree) (access : Access) (follow : Bool) :
    Nat → List String → Stretch → Prop
  | here : Leads t access follow here [] (.done (.entry here))
  | stay (hpass : t.Passable access here) (hrest : Leads t access follow here rest stretch) :
    Leads t access follow here ("." :: rest) stretch
  | up (hpass : t.Passable access here) (hrest : Leads t access follow (t.parent here) rest stretch) :
    Leads t access follow here (".." :: rest) stretch
  | absent (hpass : t.Passable access here) (hdot : name ≠ ".") (hdots : name ≠ "..")
    (hchild : t.child? here name = none) :
    Leads t access follow here [name] (.done (.absent here name))
  | down (hpass : t.Passable access here) (hdot : name ≠ ".") (hdots : name ≠ "..")
    (hchild : t.child? here name = some e) (hlink : t.symlink? e = none)
    (hrest : Leads t access follow e rest stretch) :
    Leads t access follow here (name :: rest) stretch
  | named (hpass : t.Passable access here) (hdot : name ≠ ".") (hdots : name ≠ "..")
    (hchild : t.child? here name = some e) (hlink : t.symlink? e = some target)
    (hfollow : follow = false) : Leads t access follow here [name] (.done (.entry e))
  | link (hpass : t.Passable access here) (hdot : name ≠ ".") (hdots : name ≠ "..")
    (hchild : t.child? here name = some e) (hlink : t.symlink? e = some target)
    (hfollow : rest = [] → follow = true) :
    Leads t access follow here (name :: rest) (.link here target rest)

/-- How names lead to a place over at most so many symbolic links. -/
inductive Reaches (t : FileTree) (access : Access) (follow : Bool) :
    Nat → Nat → List String → Place → Prop
  | done (hway : Leads t access follow here way (.done place)) :
    Reaches t access follow bound here way place
  | link (hway : Leads t access follow here way (.link dir target rest))
    (hon : Reaches t access follow bound (origin dir target) (strictNames target ++ rest) place) :
    Reaches t access follow (bound + 1) here way place

variable {t : FileTree} {access : Access} {e here dir : Nat} {name : String} {content c : FileContent}
  {permissions : Nat} {entry : FileEntry}

theorem entry?_add (t : FileTree) (dir : Nat) (name : String) (content : FileContent)
    (permissions e : Nat) : FileTree.entry? (t.add dir name content permissions) e =
      if e = t.entries.length then some ⟨dir, name, t.nodes.length, true⟩ else t.entry? e := by
  simp only [add, addEntry, entry?]
  rcases Nat.lt_trichotomy e t.entries.length with he | he | he
  · rw [List.getElem?_append_left he, if_neg (Nat.ne_of_lt he)]
  · rw [he, List.getElem?_concat_length, if_pos rfl]
  · rw [if_neg (Nat.ne_of_gt he), List.getElem?_eq_none (Nat.le_of_lt he), List.getElem?_eq_none]
    rw [List.length_append, List.length_singleton]
    exact he

theorem lt_of_entry (h : t.entry? e = some entry) : e < t.entries.length :=
  (List.getElem?_eq_some_iff.1 h).1

theorem entry?_add_of_some (h : t.entry? e = some entry) :
    FileTree.entry? (t.add dir name content permissions) e = some entry := by
  rw [entry?_add, if_neg (Nat.ne_of_lt (lt_of_entry h)), h]

theorem exists_of_content? (h : t.content? e = some c) :
    ∃ entry node, t.entry? e = some entry ∧ t.nodes[entry.node]? = some node ∧ node.content = c := by
  obtain ⟨node, hnode, hc⟩ := Option.map_eq_some_iff.1 h
  obtain ⟨entry, hentry, hplace⟩ := Option.bind_eq_some_iff.1 hnode
  exact ⟨entry, node, hentry, hplace, hc⟩

theorem content?_add_of_some (h : t.content? e = some c) :
    (t.add dir name content permissions).content? e = some c := by
  obtain ⟨entry, node, hentry, hnode, rfl⟩ := exists_of_content? h
  have hplace : (t.add dir name content permissions).nodes[entry.node]? = some node := by
    simp only [add, addEntry]
    rw [List.getElem?_append_left (List.getElem?_eq_some_iff.1 hnode).1, hnode]
  rw [content?, node?, entry?_add_of_some hentry, Option.bind_some, hplace, Option.map_some]

theorem content?_add_last (t : FileTree) (dir : Nat) (name : String) (content : FileContent)
    (permissions : Nat) :
    (t.add dir name content permissions).content? t.entries.length = some content := by
  rw [content?, node?, entry?_add, if_pos rfl, Option.bind_some]
  simp [add, addEntry]

theorem isDirectory_iff : t.isDirectory e = true ↔ t.content? e = some .directory := by
  rw [isDirectory, beq_iff_eq]

theorem symlink?_eq_some_iff {target : String} :
    t.symlink? e = some target ↔ t.content? e = some (.symlink target) := by
  rw [symlink?]
  split
  case h_1 h => simp [h]
  case h_2 h => simpa using h target

theorem symlink?_add {target : String} (h : t.symlink? e = some target) :
    (t.add dir name content permissions).symlink? e = some target :=
  symlink?_eq_some_iff.2 (content?_add_of_some (symlink?_eq_some_iff.1 h))

theorem isDirectory_add (h : t.isDirectory e = true) :
    (t.add dir name content permissions).isDirectory e = true :=
  isDirectory_iff.2 (content?_add_of_some (isDirectory_iff.1 h))

theorem symlink?_of_isDirectory (h : t.isDirectory e = true) : t.symlink? e = none := by
  rw [symlink?, isDirectory_iff.1 h]

theorem parent_add (h : t.isDirectory e = true) :
    (t.add dir name content permissions).parent e = t.parent e := by
  obtain ⟨entry, node, hentry, -⟩ := exists_of_content? (isDirectory_iff.1 h)
  rw [parent, parent, hentry, entry?_add_of_some hentry]

theorem entries_ne_of_isDirectory (h : t.isDirectory e = true) : t.entries.length ≠ root := by
  obtain ⟨entry, node, hentry, -⟩ := exists_of_content? (isDirectory_iff.1 h)
  exact Nat.ne_of_gt (Nat.zero_lt_of_lt (lt_of_entry hentry))

theorem children_add (hroot : t.entries.length ≠ root) (d : Nat) :
    (t.add dir name content permissions).children d =
      t.children d ++ if d = dir then [t.entries.length] else [] := by
  have hlength : (t.add dir name content permissions).entries.length = t.entries.length + 1 := by
    simp [add, addEntry]
  rw [children, hlength, List.range_succ, List.filter_append, children]
  congr 1
  · apply List.filter_congr
    intro e he
    rw [entry?_add, if_neg (Nat.ne_of_lt (List.mem_range.1 he))]
  · rw [List.filter_cons, List.filter_nil, entry?_add, if_pos rfl]
    have hlast : (t.entries.length != root) = true := by rwa [bne_iff_ne]
    by_cases hd : d = dir
    · simp [hlast, hd]
    · have hdir : (dir == d) = false := beq_false_of_ne (Ne.symm hd)
      simp [hlast, hd, hdir]

theorem find?_children_add (n : String) : (t.children d).find? (fun e =>
    ( FileTree.entry? (t.add dir name content permissions) e).any fun entry => entry.name == n) =
      t.child? d n := by
  apply List.find?_congr
  intro e he
  have hlt := List.mem_range.1 (List.mem_filter.1 he).1
  rw [entry?_add, if_neg (Nat.ne_of_lt hlt)]

theorem child?_add_of_some (hroot : t.entries.length ≠ root) (h : t.child? d n = some e) :
    (t.add dir name content permissions).child? d n = some e := by
  rw [child?, children_add hroot, List.find?_append, find?_children_add, h, Option.some_or]

theorem child?_add_of_none (hroot : t.entries.length ≠ root) (h : t.child? dir name = none) :
    (t.add dir name content permissions).child? dir name = some t.entries.length := by
  rw [child?, children_add hroot, List.find?_append, find?_children_add, h, Option.none_or,
    if_pos rfl, List.find?_singleton, entry?_add, if_pos rfl]
  simp

theorem descend_cons (hpass : t.Passable access here) (follow : Bool) (name : String)
    (rest : List String) : t.descend access follow here (name :: rest) =
      if name = "." then t.descend access follow here rest
      else if name = ".." then t.descend access follow (t.parent here) rest
      else match t.child? here name with
        | none => if rest.isEmpty then .ok (.done (.absent here name)) else .error .noEntry
        | some e =>
          match t.symlink? e with
          | none => t.descend access follow e rest
          | some target =>
            if rest.isEmpty && !follow then .ok (.done (.entry e))
            else .ok (.link here target rest) := by
  rw [descend, hpass.1, hpass.2]
  rfl

theorem passable_of_descend (h : t.descend access follow here (name :: rest) = .ok stretch) :
    t.Passable access here := by
  rw [descend] at h
  cases hdir : t.isDirectory here with
  | false => simp [hdir] at h
  | true =>
    cases hmay : access.maySearch here with
    | false => simp [hdir, hmay] at h
    | true => exact ⟨hdir, hmay⟩

theorem leads_of_descend (h : t.descend access follow here way = .ok stretch) :
    t.Leads access follow here way stretch := by
  induction way generalizing here with
  | nil =>
    cases h
    exact .here
  | cons name rest ih =>
    have hpass := passable_of_descend h
    rw [descend_cons hpass] at h
    by_cases hdot : name = "."
    · rw [if_pos hdot] at h
      rw [hdot]
      exact .stay hpass (ih h)
    by_cases hdots : name = ".."
    · rw [if_neg hdot, if_pos hdots] at h
      rw [hdots]
      exact .up hpass (ih h)
    rw [if_neg hdot, if_neg hdots] at h
    cases hchild : t.child? here name with
    | none =>
      rw [hchild] at h
      cases rest with
      | nil =>
        cases h
        exact .absent hpass hdot hdots hchild
      | cons next rest => cases h
    | some e =>
      cases hlink : t.symlink? e with
      | none =>
        simp only [hchild, hlink] at h
        exact .down hpass hdot hdots hchild hlink (ih h)
      | some target =>
        simp only [hchild, hlink] at h
        cases rest with
        | cons next rest =>
          cases h
          exact .link hpass hdot hdots hchild hlink (fun hnil => by cases hnil)
        | nil =>
          cases follow with
          | false =>
            cases h
            exact .named hpass hdot hdots hchild hlink rfl
          | true =>
            cases h
            exact .link hpass hdot hdots hchild hlink (fun _ => rfl)

theorem Leads.descend_eq (h : t.Leads access follow here way stretch) :
    t.descend access follow here way = .ok stretch := by
  induction h with
  | here => rfl
  | stay hpass _ ih => rw [descend_cons hpass, if_pos rfl, ih]
  | up hpass _ ih => rw [descend_cons hpass, if_neg (by decide), if_pos rfl, ih]
  | absent hpass hdot hdots hchild =>
    rw [descend_cons hpass, if_neg hdot, if_neg hdots, hchild]
    rfl
  | down hpass hdot hdots hchild hlink _ ih =>
    rw [descend_cons hpass, if_neg hdot, if_neg hdots, hchild]
    simp only [hlink, ih]
  | named hpass hdot hdots hchild hlink hfollow =>
    rw [descend_cons hpass, if_neg hdot, if_neg hdots, hchild]
    simp [hlink, hfollow]
  | @link _ _ _ _ rest hpass hdot hdots hchild hlink hfollow =>
    rw [descend_cons hpass, if_neg hdot, if_neg hdots, hchild]
    cases rest with
    | nil => simp [hlink, hfollow rfl]
    | cons next rest => simp [hlink]

theorem Leads.full (h : t.Leads access follow here way stretch) :
    t.Leads .full follow here way stretch := by
  induction h with
  | here => exact .here
  | stay hpass _ ih => exact .stay ⟨hpass.1, rfl⟩ ih
  | up hpass _ ih => exact .up ⟨hpass.1, rfl⟩ ih
  | absent hpass hdot hdots hchild => exact .absent ⟨hpass.1, rfl⟩ hdot hdots hchild
  | down hpass hdot hdots hchild hlink _ ih => exact .down ⟨hpass.1, rfl⟩ hdot hdots hchild hlink ih
  | named hpass hdot hdots hchild hlink hfollow =>
    exact .named ⟨hpass.1, rfl⟩ hdot hdots hchild hlink hfollow
  | link hpass hdot hdots hchild hlink hfollow =>
    exact .link ⟨hpass.1, rfl⟩ hdot hdots hchild hlink hfollow

theorem Leads.isDirectory (h : t.Leads access follow here way stretch)
    (hne : stretch ≠ .done (.entry here)) : t.isDirectory here = true := by
  cases h with
  | here => exact absurd rfl hne
  | stay hpass _ => exact hpass.1
  | up hpass _ => exact hpass.1
  | absent hpass _ _ _ => exact hpass.1
  | down hpass _ _ _ _ _ => exact hpass.1
  | named hpass _ _ _ _ _ => exact hpass.1
  | link hpass _ _ _ _ _ => exact hpass.1

theorem Reaches.walk_eq (h : t.Reaches access follow bound here way place) :
    t.walk access follow bound here way = .ok place := by
  induction h with
  | done hway => rw [walk, hway.descend_eq]
  | link hway _ ih =>
    rw [walk, hway.descend_eq]
    exact ih

theorem reaches_of_walk (h : t.walk access follow bound here way = .ok place) :
    t.Reaches access follow bound here way place := by
  fun_induction walk t access follow bound here way with
  | case1 => cases h
  | case2 _ _ _ _ hway =>
    cases h
    exact .done (leads_of_descend hway)
  | case3 => cases h
  | case4 _ _ _ _ _ hway _ ih => exact .link (leads_of_descend hway) (ih h)

theorem Reaches.full (h : t.Reaches access follow bound here way place) :
    t.Reaches .full follow bound here way place := by
  induction h with
  | done hway => exact .done hway.full
  | link hway _ ih => exact .link hway.full ih

/-- Where a way stops once the name that it lacked leads to the entry `new`, with names behind it. -/
def Stretch.onward (new : Nat) (tail : List String) : Stretch → Stretch
  | .done _ => .done (.entry new)
  | .link dir target rest => .link dir target (rest ++ tail)

theorem isDirectory_add_last (t : FileTree) (dir : Nat) (name : String) (permissions : Nat) :
    (t.add dir name .directory permissions).isDirectory t.entries.length = true :=
  isDirectory_iff.2 (content?_add_last t dir name .directory permissions)

theorem Leads.add (h : t.Leads access false here way stretch)
    (hentry : ∀ e, stretch ≠ .done (.entry e))
    (habsent : ∀ d n, stretch = .done (.absent d n) → d = dir ∧ n = name)
    (htail : (t.add dir name .directory permissions).Leads .full true t.entries.length tail
      (.done (.entry t.entries.length))) :
    (t.add dir name .directory permissions).Leads .full true here (way ++ tail)
      (stretch.onward t.entries.length tail) := by
  have hroot := entries_ne_of_isDirectory (h.isDirectory (hentry _))
  induction h with
  | here => exact absurd rfl (hentry _)
  | stay hpass _ ih => exact .stay ⟨isDirectory_add hpass.1, rfl⟩ (ih hentry habsent)
  | up hpass _ ih =>
    rw [← parent_add hpass.1] at ih
    exact .up ⟨isDirectory_add hpass.1, rfl⟩ (ih hentry habsent)
  | absent hpass hdot hdots hchild =>
    obtain ⟨rfl, rfl⟩ := habsent _ _ rfl
    exact .down ⟨isDirectory_add hpass.1, rfl⟩ hdot hdots (child?_add_of_none hroot hchild)
      (symlink?_of_isDirectory (isDirectory_add_last t _ _ permissions)) htail
  | down hpass hdot hdots hchild hlink hrest ih =>
    exact .down ⟨isDirectory_add hpass.1, rfl⟩ hdot hdots (child?_add_of_some hroot hchild)
      (symlink?_of_isDirectory (isDirectory_add (hrest.isDirectory (hentry _)))) (ih hentry habsent)
  | named => exact absurd rfl (hentry _)
  | link hpass hdot hdots hchild hlink _ =>
    exact .link ⟨isDirectory_add hpass.1, rfl⟩ hdot hdots (child?_add_of_some hroot hchild)
      (symlink?_add hlink) (fun _ => rfl)

theorem Reaches.add (h : t.Reaches access false bound here way (.absent dir name))
    (htail : (t.add dir name .directory permissions).Leads .full true t.entries.length tail
      (.done (.entry t.entries.length))) :
    (t.add dir name .directory permissions).Reaches .full true bound here (way ++ tail)
      (.entry t.entries.length) := by
  generalize hplace : Place.absent dir name = place at h
  induction h with
  | done hway =>
    cases hplace
    exact .done (hway.add (fun _ he => by cases he) (fun _ _ he => by cases he; exact ⟨rfl, rfl⟩) htail)
  | link hway _ ih =>
    have hrest := ih hplace
    rw [List.append_assoc] at hrest
    exact .link (hway.add (fun _ he => by cases he) (fun _ _ he => by cases he) htail) hrest

theorem strictNames_eq (path : String) :
    ∃ tail, strictNames path = names path ++ tail ∧ (tail = [] ∨ tail = ["."]) := by
  rw [strictNames]
  split
  case isTrue => exact ⟨["."], rfl, .inr rfl⟩
  case isFalse => exact ⟨[], (List.append_nil _).symm, .inl rfl⟩

/-- A directory stays where it is reached, by the path itself or behind a slash. -/
theorem leads_tail (hdir : t.isDirectory e = true) (htail : tail = [] ∨ tail = ["."]) :
    t.Leads .full true e tail (.done (.entry e)) := by
  obtain rfl | rfl := htail
  · exact .here
  · exact .stay ⟨hdir, rfl⟩ .here

theorem locate_eq_ok_iff {list : String → List String} {path : String} :
    t.locate here follow list path access = .ok place ↔
      path.toList.contains '\x00' = false ∧ path.isEmpty = false ∧
        t.Reaches access follow maxLinks (origin here path) (list path) place := by
  rw [locate]
  cases path.toList.contains '\x00' with
  | true => simp
  | false =>
    cases path.isEmpty with
    | true => simp
    | false =>
      simp only [Bool.false_eq_true, if_false, true_and]
      constructor
      · intro h
        cases hwalk : t.walk access follow maxLinks (origin here path) (list path) with
        | error e =>
          rw [hwalk] at h
          cases h
        | ok reached =>
          rw [hwalk] at h
          cases h
          exact reaches_of_walk hwalk
      · intro h
        rw [h.walk_eq]
        rfl

theorem leadsToDirectory_iff {path : String} : t.leadsToDirectory here path access = true ↔
    ∃ e, t.locate here true strictNames path access = .ok (.entry e) ∧ t.isDirectory e = true := by
  rw [leadsToDirectory, find]
  cases t.locate here true strictNames path access with
  | error => simp [bind, Except.bind]
  | ok place =>
    cases place with
    | entry e => simp [bind, Except.bind, pure, Except.pure]
    | absent => simp [bind, Except.bind, throw, throwThe, MonadExceptOf.throw]

theorem leadsToDirectory_full {path : String} (h : t.leadsToDirectory here path access = true) :
    t.leadsToDirectory here path = true := by
  obtain ⟨e, hplace, hdir⟩ := leadsToDirectory_iff.1 h
  obtain ⟨hnul, hempty, hreach⟩ := locate_eq_ok_iff.1 hplace
  exact leadsToDirectory_iff.2 ⟨e, locate_eq_ok_iff.2 ⟨hnul, hempty, hreach.full⟩, hdir⟩

theorem leadsToDirectory_add {path : String}
    (h : t.locate here false names path access = .ok (.absent dir name)) (permissions : Nat) :
    (t.add dir name .directory permissions).leadsToDirectory here path = true := by
  obtain ⟨hnul, hempty, hreach⟩ := locate_eq_ok_iff.1 h
  obtain ⟨tail, hnames, htail⟩ := strictNames_eq path
  have hdir := isDirectory_add_last t dir name permissions
  have hadd := hreach.add (leads_tail hdir htail)
  rw [← hnames] at hadd
  exact leadsToDirectory_iff.2 ⟨_, locate_eq_ok_iff.2 ⟨hnul, hempty, hadd⟩, hdir⟩

theorem descend_ne_alreadyExists (t : FileTree) (access : Access) (follow : Bool) (here : Nat)
    (way : List String) : t.descend access follow here way ≠ .error .alreadyExists := by
  fun_induction descend t access follow here way with
  | _ => simp_all

theorem walk_ne_alreadyExists (t : FileTree) (access : Access) (follow : Bool) (bound here : Nat)
    (way : List String) : t.walk access follow bound here way ≠ .error .alreadyExists := by
  fun_induction walk t access follow bound here way with
  | case1 _ _ _ e hway =>
    rintro ⟨⟩
    exact descend_ne_alreadyExists t access follow _ _ hway
  | case2 => simp
  | case3 => simp
  | case4 _ _ _ _ _ _ _ ih => exact ih

/-- That something has the name already is never found out on the way to it. -/
theorem locate_ne_alreadyExists (t : FileTree) (here : Nat) (follow : Bool)
    (list : String → List String) (path : String) (access : Access) :
    t.locate here follow list path access ≠ .error (.system .alreadyExists) := by
  rw [locate]
  split
  case isTrue => simp
  case isFalse =>
    split
    case isTrue => simp
    case isFalse =>
      cases hwalk : t.walk access follow maxLinks (origin here path) (list path) with
      | error e =>
        simp only [Except.mapError, ne_eq, Except.error.injEq, Refusal.system.injEq]
        rintro rfl
        exact walk_ne_alreadyExists t access follow _ _ _ hwalk
      | ok => simp [Except.mapError]

theorem makeDirectory_of_entry {path : String}
    (h : t.locate here false names path access = .ok (.entry e)) (permissions : Nat) :
    t.makeDirectory here path permissions access = .error (.system .alreadyExists) := by
  rw [makeDirectory, make, h]
  rfl

theorem makeDirectory_of_absent {path : String}
    (h : t.locate here false names path access = .ok (.absent dir name)) (permissions : Nat) :
    t.makeDirectory here path permissions access =
      if access.mayChange dir then .ok (t.add dir name .directory permissions)
      else .error (.system .permissionDenied) := by
  rw [makeDirectory, make, h]
  cases hmay : access.mayChange dir with
  | true => simp [bind, Except.bind, hmay, pure, Except.pure]
  | false => simp [bind, Except.bind, hmay, throw, throwThe, MonadExceptOf.throw]

theorem makeDirectory_of_error {path : String} {cause : Refusal}
    (h : t.locate here false names path access = .error cause) (permissions : Nat) :
    t.makeDirectory here path permissions access = .error cause := by
  rw [makeDirectory, make, h]
  rfl

end Thaw.FileTree
