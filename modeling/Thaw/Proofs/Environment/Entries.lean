import Thaw.Proofs.Lookup
import Thaw.Proofs.Parameters.Layout

namespace Thaw.Environment
set_option autoImplicit true

theorem get?_erase (env : Environment) (name other : Bytes) :
    (env.erase name).get? other = if other = name then none else env.get? other :=
  lookup_filter_ne env.bindings name other

theorem get?_set (env : Environment) (name value other : Bytes) :
    (env.set name value).get? other = if other = name then some value else env.get? other := by
  unfold set get?
  split
  case isTrue hany =>
    obtain ⟨v, hv, he⟩ := List.any_eq_true.1 hany
    have hsome : (env.bindings.lookup name).isSome := by
      apply List.lookup_isSome_iff.2
      exact ⟨v, hv, by rw [eq_of_beq he, beq_self_eq_true]⟩
    obtain ⟨old, hold⟩ := Option.isSome_iff_exists.1 hsome
    rw [lookup_map_replace]
    by_cases hname : other = name
    · rw [if_pos hname, if_pos hname, hname, hold]
      rfl
    · rw [if_neg hname, if_neg hname]
  case isFalse hany =>
    have hnone : env.bindings.lookup name = none := by
      apply List.lookup_eq_none_iff.2
      intro v hv
      rw [bne_iff_ne]
      intro he
      exact hany (List.any_eq_true.2 ⟨v, hv, by rw [he, beq_self_eq_true]⟩)
    rw [List.lookup_append, lookup_cons_eq_ite, List.lookup_nil]
    by_cases hname : other = name
    · rw [if_pos hname, if_pos hname, hname, hnone]
      rfl
    · rw [if_neg hname, if_neg hname, Option.or_none]

inductive Call where
  | set (name value : Bytes)
  | remove (name : Bytes)
  deriving DecidableEq

namespace Call

def name : Call → Bytes
  | set name _ => name
  | remove name => name

def value? : Call → Option Bytes
  | set _ value => some value
  | remove _ => none

def make (env : Environment) : Call → Environment
  | set name value => env.set name value
  | remove name => env.erase name

/-- All other calls would stop the process. -/
structure IsAllowed (c : Call) : Prop where
  name_ne_nil : c.name ≠ []
  equals_not_mem : equals ∉ c.name
  name_free : 0 ∉ c.name
  value_free : ∀ value, c.value? = some value → 0 ∉ value

theorem get?_make (env : Environment) (c : Call) (name : Bytes) :
    (c.make env).get? name = if name = c.name then c.value? else env.get? name := by
  cases c with
  | set given value => exact get?_set env given value name
  | remove gone => exact get?_erase env gone name

end Call

/-- The calls that entries ask for: one with a sign `=` in it to set the variable before the first
sign, one without to remove the variable that it names. -/
inductive Asks : Bytes → Call → Prop where
  | set (hname : name ≠ []) (hfree : equals ∉ name) :
    Asks (name ++ equals :: value) (.set name value)
  | remove (hname : name ≠ []) (hfree : equals ∉ name) : Asks name (.remove name)

/-- Entries that name no variable. -/
def IsIdle (entry : Bytes) : Prop := entry = [] ∨ entry.head? = some equals

inductive Makes : List Bytes → List Call → Prop where
  | nil : Makes [] []
  | idle (hidle : IsIdle entry) (hrest : Makes rest calls) : Makes (entry :: rest) calls
  | call (hc : Asks entry c) (hrest : Makes rest calls) : Makes (entry :: rest) (c :: calls)

def Mentions (entry name : Bytes) : Prop := ∃ c, Asks entry c ∧ c.name = name

variable {entry name : Bytes} {entries : List Bytes} {c : Call} {calls : List Call}

theorem cut?_equals_of_free (h : equals ∉ entry) : Text.cut? (· == equals) entry = none := by
  cases hcut : Text.cut? (· == equals) entry with
  | none => rfl
  | some parts =>
    obtain ⟨a, ha, rfl, -⟩ := Text.cut?_eq_some_iff.1 hcut
    exact absurd (by simp [eq_of_beq ha]) h

theorem apply_of_asks (h : Asks entry c) (env : Environment) : env.apply entry = c.make env := by
  cases h with
  | @set name value hname hfree =>
    have hcut : Text.cut? (· == equals) (name ++ equals :: value) = some (name, value) :=
      Text.cut?_append_cons (Text.forall_beq_false_iff.2 hfree) (beq_self_eq_true equals)
    cases name with
    | nil => exact absurd rfl hname
    | cons b name => simp only [apply, hcut, Call.make]
  | remove hname hfree =>
    have hempty : entry.isEmpty = false := by simpa using hname
    simp only [apply, cut?_equals_of_free hfree, hempty, Call.make]
    rfl

theorem apply_of_isIdle (h : IsIdle entry) (env : Environment) : env.apply entry = env := by
  cases entry with
  | nil => rfl
  | cons b rest =>
    obtain he | he := h
    · cases he
    · cases he
      rfl

theorem isIdle_or_asks (entry : Bytes) : IsIdle entry ∨ ∃ c, Asks entry c := by
  by_cases hmem : equals ∈ entry
  · obtain ⟨name, value, rfl, hfree⟩ := List.eq_append_cons_of_mem hmem
    cases name with
    | nil => exact .inl (.inr rfl)
    | cons b name => exact .inr ⟨_, .set (List.cons_ne_nil b name) hfree⟩
  · cases entry with
    | nil => exact .inl (.inl rfl)
    | cons b rest => exact .inr ⟨_, .remove (List.cons_ne_nil b rest) hmem⟩

theorem Asks.not_isIdle (h : Asks entry c) : ¬ IsIdle entry := by
  intro hidle
  cases h with
  | @set name value hname hfree =>
    cases name with
    | nil => exact hname rfl
    | cons b name =>
      obtain he | he := hidle
      · cases he
      · cases he
        exact hfree List.mem_cons_self
  | remove hname hfree =>
    obtain he | he := hidle
    · exact hname he
    · exact hfree (List.mem_of_head? he)

theorem get?_apply_of_asks (h : Asks entry c) (env : Environment) (name : Bytes) :
    (env.apply entry).get? name = if name = c.name then c.value? else env.get? name := by
  rw [apply_of_asks h]
  exact c.get?_make env name

theorem get?_apply_of_not_mentions (h : ¬ Mentions entry name) (env : Environment) :
    (env.apply entry).get? name = env.get? name := by
  obtain hidle | ⟨c, hc⟩ := isIdle_or_asks entry
  · rw [apply_of_isIdle hidle]
  · rw [get?_apply_of_asks hc, if_neg]
    intro he
    exact h ⟨c, hc, he.symm⟩

theorem get?_applyAll_of_not_mentions (h : ∀ entry ∈ entries, ¬ Mentions entry name)
    (env : Environment) : (env.applyAll entries).get? name = env.get? name := by
  induction entries generalizing env with
  | nil => rfl
  | cons entry rest ih =>
    obtain ⟨hentry, hrest⟩ := List.forall_mem_cons.1 h
    exact (ih hrest (env.apply entry)).trans (get?_apply_of_not_mentions hentry env)

theorem get?_applyAll_of_last (h : Asks entry c) (hlast : ∀ later ∈ rest, ¬ Mentions later c.name)
    (env : Environment) (before : List Bytes) :
    (env.applyAll (before ++ entry :: rest)).get? c.name = c.value? := by
  rw [applyAll, List.foldl_append]
  apply (get?_applyAll_of_not_mentions hlast _).trans
  rw [get?_apply_of_asks h, if_pos rfl]

/-- Entries decide a variable by themselves, or else they leave it alone. -/
theorem exists_get?_applyAll_or (entries : List Bytes) (name : Bytes) :
    (∃ value?, ∀ env : Environment, (env.applyAll entries).get? name = value?) ∨
      ∀ env : Environment, (env.applyAll entries).get? name = env.get? name := by
  induction entries with
  | nil => exact .inr fun _ => rfl
  | cons entry rest ih =>
    obtain ⟨value?, hdecided⟩ | hkept := ih
    · exact .inl ⟨value?, fun env => hdecided (env.apply entry)⟩
    · by_cases hm : Mentions entry name
      · obtain ⟨c, hc, rfl⟩ := hm
        refine .inl ⟨c.value?, fun env => (hkept (env.apply entry)).trans ?_⟩
        rw [get?_apply_of_asks hc, if_pos rfl]
      · refine .inr fun env => (hkept (env.apply entry)).trans ?_
        exact get?_apply_of_not_mentions hm env

theorem get?_applyAll_applyAll (env : Environment) (entries : List Bytes) (name : Bytes) :
    ((env.applyAll entries).applyAll entries).get? name = (env.applyAll entries).get? name := by
  obtain ⟨value?, hdecided⟩ | hkept := exists_get?_applyAll_or entries name
  · rw [hdecided, hdecided]
  · exact hkept (env.applyAll entries)

theorem exists_makes (entries : List Bytes) : ∃ calls, Makes entries calls := by
  induction entries with
  | nil => exact ⟨[], .nil⟩
  | cons entry rest ih =>
    obtain ⟨calls, hcalls⟩ := ih
    obtain hidle | ⟨c, hc⟩ := isIdle_or_asks entry
    · exact ⟨calls, .idle hidle hcalls⟩
    · exact ⟨c :: calls, .call hc hcalls⟩

theorem Makes.applyAll_eq (h : Makes entries calls) (env : Environment) :
    env.applyAll entries = calls.foldl Call.make env := by
  induction h generalizing env with
  | nil => rfl
  | idle hidle _ ih =>
    rw [applyAll, List.foldl_cons, apply_of_isIdle hidle]
    exact ih env
  | call hc _ ih =>
    rw [applyAll, List.foldl_cons, apply_of_asks hc]
    exact ih _

theorem Asks.isAllowed (h : Asks entry c) (hnul : 0 ∉ entry) : c.IsAllowed := by
  cases h with
  | set hname hfree =>
    rw [List.mem_append, List.mem_cons, not_or, not_or] at hnul
    obtain ⟨hnulName, -, hnulValue⟩ := hnul
    refine ⟨hname, hfree, hnulName, ?_⟩
    intro value he
    cases he
    exact hnulValue
  | remove hname hfree =>
    refine ⟨hname, hfree, hnul, ?_⟩
    intro value he
    cases he

theorem Makes.isAllowed (h : Makes entries calls) (hnul : ∀ entry ∈ entries, 0 ∉ entry) :
    ∀ c ∈ calls, c.IsAllowed := by
  induction h with
  | nil => simp
  | idle _ _ ih => exact ih (List.forall_mem_cons.1 hnul).2
  | call hc _ ih =>
    obtain ⟨hentry, hrest⟩ := List.forall_mem_cons.1 hnul
    exact List.forall_mem_cons.2 ⟨hc.isAllowed hentry, ih hrest⟩

/-- Where the entries of accepted parameters are applied, a variable comes to hold what the last entry
that mentions it says, and keeps what it held if there is none. Entries without a name do nothing, and
to apply all of them once more changes nothing. No call that is made for them stops the process. -/
theorem last_mention_decides (env : Environment) (h : Parameters.decode bytes = .ok p) :
    let after := env.applyAll p.environment
    (∀ before entry rest c, p.environment = before ++ entry :: rest → Asks entry c →
      (∀ later ∈ rest, ¬ Mentions later c.name) → after.get? c.name = c.value?) ∧
    (∀ name, (∀ entry ∈ p.environment, ¬ Mentions entry name) → after.get? name = env.get? name) ∧
    (∀ entry, (IsIdle entry ↔ ∀ name, ¬ Mentions entry name) ∧
      (IsIdle entry → env.apply entry = env)) ∧
    (∀ name, (after.applyAll p.environment).get? name = after.get? name) ∧
    ∃ calls, Makes p.environment calls ∧ after = calls.foldl Call.make env ∧
      ∀ c ∈ calls, c.IsAllowed := by
  intro after
  obtain ⟨hencodable, -⟩ := (Parameters.decode_eq_ok_iff bytes p).1 h
  obtain ⟨calls, hcalls⟩ := exists_makes p.environment
  refine ⟨?_, ?_, ?_, ?_, calls, hcalls, hcalls.applyAll_eq env, ?_⟩
  · intro before entry rest c he hc hlast
    simp only [after, he]
    exact get?_applyAll_of_last hc hlast env before
  · intro name hunmentioned
    exact get?_applyAll_of_not_mentions hunmentioned env
  · intro entry
    refine ⟨⟨?_, ?_⟩, fun hidle => apply_of_isIdle hidle env⟩
    · intro hidle name hm
      obtain ⟨c, hc, -⟩ := hm
      exact hc.not_isIdle hidle
    · intro hunmentioned
      obtain hidle | ⟨c, hc⟩ := isIdle_or_asks entry
      · exact hidle
      · exact absurd ⟨c, hc, rfl⟩ (hunmentioned c.name)
  · exact get?_applyAll_applyAll env p.environment
  · exact hcalls.isAllowed hencodable.environment_free

def revised : Parameters :=
  ⟨⟨1, 2⟩, [], ["X=1", "X", "X=a=b", "=X=2", ""].map Bytes.ofString, ""⟩

theorem last_mention_decides_revised :
    let env : Environment := ⟨[(Bytes.ofString "P", [113]), (Bytes.ofString "X", [48])]⟩
    Parameters.decode revised.layout = .ok revised ∧
      (env.applyAll revised.environment).getText? "X" = some (Bytes.ofString "a=b") := by
  intro env
  have hencode : revised.encode = .ok revised.layout := rfl
  have hdecode := Parameters.decode_of_begins hencode List.prefix_rfl
  obtain ⟨hlast, -, hidle, -⟩ := last_mention_decides env hdecode
  have hasks : Asks (Bytes.ofString "X" ++ equals :: Bytes.ofString "a=b")
      (.set (Bytes.ofString "X") (Bytes.ofString "a=b")) := .set (by decide) (by decide)
  refine ⟨hdecode, hlast (["X=1", "X"].map Bytes.ofString) _
    (["=X=2", ""].map Bytes.ofString) _ rfl hasks ?_⟩
  simp only [List.map_cons, List.map_nil, List.forall_mem_cons]
  exact ⟨(hidle _).1.1 (.inr rfl) _, (hidle _).1.1 (.inl rfl) _, by simp⟩

end Thaw.Environment
