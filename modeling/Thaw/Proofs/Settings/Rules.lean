import Mathlib.Data.Prod.Lex
import Thaw.Proofs.Settings.Properties

namespace Thaw.Settings
set_option autoImplicit true

open Yaml

/-- The number of a rule and, where it is about one of the properties, the key. -/
abbrev Place := Nat ×ₗ String

structure Rule where
  place : Place
  Holds : Prop
  error : SettingsError

/-- A text with a backslash and a zero between the parts that NUL divides. -/
def nulShown (text : String) : String :=
  String.ofList (['\\', '0'].intercalate (Text.split (· == '\x00') text.toList))

def directoryRule (n : Nat) (field : String) (dir : Option String) : Rule where
  place := toLex (n, "")
  Holds := dir ≠ some ""
  error := .invalidValue field "" "Directory cannot be empty"

def engineRule (engine : String) : Rule where
  place := toLex (2, "")
  Holds := engine ≠ ""
  error := .missingField "engine" "checkpoint section"

def engineTextRule (engine : String) : Rule where
  place := toLex (3, "")
  Holds := '\x00' ∉ engine.toList
  error := .invalidValue "engine" (nulShown engine) "Engine path cannot contain NUL"

def engineDirRule (dir : String) : Rule where
  place := toLex (4, "")
  Holds := ∃ rest, dir = "/" ++ rest
  error := .invalidValue "engine_dir" dir "Engine directory must be an absolute path"

def keyRule (p : Property) : Rule where
  place := toLex (5, p.key)
  Holds := p.key ≠ "" ∧ '=' ∉ p.key.toList ∧ '\x00' ∉ p.key.toList
  error := .invalidValue "properties" p.key
    "Property names must be non-empty and contain no '=' or NUL"

def valueRule (p : Property) : Rule where
  place := toLex (6, p.key)
  Holds := '\x00' ∉ p.value.toList
  error := .invalidValue "properties" (nulShown p.value) "Property values cannot contain NUL"

def checkpointRules (c : CheckpointSettings) : List Rule :=
  [directoryRule 0 "checkpoint_to" c.checkpointTo, directoryRule 1 "restore_from" c.restoreFrom,
    engineRule c.engine, engineTextRule c.engine] ++ c.engineDir.toList.map engineDirRule

def runtimeRules (r : RuntimeSettings) : List Rule :=
  r.properties.map keyRule ++ r.properties.map valueRule

def rules (s : Settings) : List Rule := checkpointRules s.checkpoint ++ runtimeRules s.runtime

theorem number_le_of_mem_checkpointRules (h : rule ∈ checkpointRules c) :
    (ofLex rule.place).1 ≤ 4 := by
  obtain h | h := List.mem_append.1 h
  · simp only [List.mem_cons, List.not_mem_nil, or_false] at h
    obtain rfl | rfl | rfl | rfl := h <;> simp [directoryRule, engineRule, engineTextRule]
  · obtain ⟨dir, -, rfl⟩ := List.mem_map.1 h
    exact le_rfl

theorem le_number_of_mem_runtimeRules (h : rule ∈ runtimeRules r) :
    5 ≤ (ofLex rule.place).1 := by
  obtain h | h := List.mem_append.1 h
  · obtain ⟨p, -, rfl⟩ := List.mem_map.1 h
    exact le_rfl
  · obtain ⟨p, -, rfl⟩ := List.mem_map.1 h
    exact Nat.le_succ 5

theorem ascending_checkpointRules (c : CheckpointSettings) :
    (checkpointRules c).Pairwise (·.place < ·.place) := by
  obtain ⟨_, _, _, engineDir, _, _, _, _, _⟩ := c
  cases engineDir <;>
    simp [checkpointRules, directoryRule, engineRule, engineTextRule, engineDirRule,
      Prod.Lex.toLex_lt_toLex]

theorem ascending_runtimeRules (h : Property.Ascending r.properties) :
    (runtimeRules r).Pairwise (·.place < ·.place) := by
  rw [runtimeRules, List.pairwise_append, List.pairwise_map, List.pairwise_map]
  refine ⟨h.imp fun hlt => ?_, h.imp fun hlt => ?_, ?_⟩
  · exact Prod.Lex.toLex_lt_toLex.2 (.inr ⟨rfl, hlt⟩)
  · exact Prod.Lex.toLex_lt_toLex.2 (.inr ⟨rfl, hlt⟩)
  · simp [keyRule, valueRule, Prod.Lex.toLex_lt_toLex]

theorem ascending_rules {s : Settings} (h : Property.Ascending s.runtime.properties) :
    (rules s).Pairwise (·.place < ·.place) := by
  refine List.pairwise_append.2
    ⟨ascending_checkpointRules s.checkpoint, ascending_runtimeRules h, fun rule hrule other hother => ?_⟩
  exact Prod.Lex.lt_iff.2 (.inl (Nat.lt_of_le_of_lt (number_le_of_mem_checkpointRules hrule)
    (le_number_of_mem_runtimeRules hother)))

/-- A rule that is broken, and no rule before it is. -/
structure FirstBroken (all : List Rule) (rule : Rule) : Prop where
  mem : rule ∈ all
  broken : ¬ rule.Holds
  first : ∀ other ∈ all, ¬ other.Holds → rule.place ≤ other.place

theorem firstBroken_cons_of_broken (hasc : (rule :: rest).Pairwise (·.place < ·.place))
    (h : ¬ rule.Holds) : FirstBroken (rule :: rest) other ↔ other = rule := by
  obtain ⟨hfirst, -⟩ := List.pairwise_cons.1 hasc
  constructor
  · intro hother
    obtain he | hrest := List.mem_cons.1 hother.mem
    · exact he
    · exact absurd (hother.first rule List.mem_cons_self h) (not_le_of_gt (hfirst other hrest))
  · rintro rfl
    refine ⟨List.mem_cons_self, h, fun later hlater _ => ?_⟩
    obtain rfl | hrest := List.mem_cons.1 hlater
    · exact le_rfl
    · exact (hfirst later hrest).le

theorem firstBroken_cons_of_kept (h : rule.Holds) :
    FirstBroken (rule :: rest) other ↔ FirstBroken rest other := by
  constructor
  · intro hother
    refine ⟨?_, hother.broken, fun later hlater => hother.first later (List.mem_cons_of_mem _ hlater)⟩
    obtain rfl | hrest := List.mem_cons.1 hother.mem
    · exact absurd h hother.broken
    · exact hrest
  · intro hother
    refine ⟨List.mem_cons_of_mem _ hother.mem, hother.broken, fun later hlater hbroken => ?_⟩
    obtain rfl | hrest := List.mem_cons.1 hlater
    · exact absurd h hbroken
    · exact hother.first later hrest hbroken

/-- What comes of checking rules one after the other. -/
inductive Settles : List Rule → Except SettingsError Unit → Prop
  | done : Settles [] (.ok ())
  | broken (h : ¬ rule.Holds) : Settles (rule :: rest) (.error rule.error)
  | kept (h : rule.Holds) (hrest : Settles rest x) : Settles (rule :: rest) x

theorem settles_singleton (hok : rule.Holds → x = .ok ())
    (herror : ¬ rule.Holds → x = .error rule.error) : Settles [rule] x := by
  by_cases h : rule.Holds
  · rw [hok h]
    exact .kept h .done
  · rw [herror h]
    exact .broken h

theorem Settles.append (hx : Settles as x) (hy : Settles bs y) :
    Settles (as ++ bs) (x >>= fun _ => y) := by
  induction hx with
  | done => exact hy
  | broken h => exact .broken h
  | kept h _ ih => exact .kept h ih

theorem settles_forM {rule : α → Rule} {check : α → Except SettingsError Unit}
    (h : ∀ a, Settles [rule a] (check a)) (as : List α) :
    Settles (as.map rule) (as.forM check) := by
  induction as with
  | nil => exact .done
  | cons a as ih => exact (h a).append ih

theorem Settles.eq_ok_iff (h : Settles as x) : x = .ok () ↔ ∀ rule ∈ as, rule.Holds := by
  induction h with
  | done => simp
  | broken h => simp [h]
  | kept h _ ih => simp [h, ih]

theorem Settles.eq_error_iff (h : Settles as x) (hasc : as.Pairwise (·.place < ·.place)) :
    x = .error e ↔ ∃ rule, FirstBroken as rule ∧ rule.error = e := by
  induction h with
  | done => exact ⟨nofun, fun ⟨_, hrule, _⟩ => absurd hrule.mem List.not_mem_nil⟩
  | broken h => simp [firstBroken_cons_of_broken hasc h]
  | kept h _ ih => simp [firstBroken_cons_of_kept h, ih (List.pairwise_cons.1 hasc).2]

theorem settles_checkDirectory (n : Nat) (field : String) (dir : Option String) :
    Settles [directoryRule n field dir] (checkDirectory field dir) := by
  apply settles_singleton
  · intro h
    unfold checkDirectory
    split
    · exact absurd rfl h
    · rfl
  · intro h
    rw [not_not.1 h]
    rfl

theorem intercalate_split_nul (cs : List Char) :
    ['\\', '0'].intercalate (Text.split (· == '\x00') cs) =
      cs.flatMap fun c => if c = '\x00' then ['\\', '0'] else [c] := by
  induction cs with
  | nil => rfl
  | cons c cs ih =>
    rw [List.flatMap_cons, ← ih]
    by_cases hc : c = '\x00'
    · rw [Text.split_cons_mark (by simpa using hc), if_pos hc]
      rfl
    · obtain ⟨piece, pieces, hs, hs'⟩ := Text.split_cons_other (p := (· == '\x00'))
        (beq_eq_false_iff_ne.2 hc) cs
      rw [hs, hs', if_neg hc]
      cases pieces <;> simp [List.intercalate]

theorem showNul_eq (text : String) : showNul text = nulShown text := by
  rw [showNul, nulShown, intercalate_split_nul]

theorem settles_checkEngine (engine : String) :
    Settles [engineRule engine, engineTextRule engine] (checkEngine engine) := by
  rw [checkEngine, showNul_eq]
  by_cases hempty : engine = ""
  · rw [if_pos (String.isEmpty_iff.2 hempty)]
    exact .broken fun h => h hempty
  · rw [if_neg (mt String.isEmpty_iff.1 hempty)]
    refine .kept hempty (settles_singleton ?_ ?_)
    · exact fun h => if_neg (mt hasNul_iff.1 h)
    · exact fun h => if_pos (hasNul_iff.2 (not_not.1 h))

theorem isAbsolute_iff {path : String} : isAbsolute path = true ↔ ∃ rest, path = "/" ++ rest := by
  rw [isAbsolute, beq_iff_eq, List.head?_eq_some_iff]
  constructor
  · rintro ⟨rest, h⟩
    exact ⟨String.ofList rest, String.toList_inj.1 (by simpa using h)⟩
  · rintro ⟨rest, rfl⟩
    exact ⟨rest.toList, by simp⟩

theorem settles_checkEngineDir (dir : Option String) :
    Settles (dir.toList.map engineDirRule) (checkEngineDir dir) := by
  cases dir with
  | none => exact .done
  | some dir =>
    exact settles_singleton (fun h => if_pos (isAbsolute_iff.2 h)) fun h =>
      if_neg (mt isAbsolute_iff.1 h)

theorem settles_checkPropertyName (p : Property) : Settles [keyRule p] (checkPropertyName p) :=
  settles_singleton (fun h => if_pos (isPropertyName_iff.2 h)) fun h =>
    if_neg (mt isPropertyName_iff.1 h)

theorem settles_checkPropertyValue (p : Property) :
    Settles [valueRule p] (checkPropertyValue p) := by
  rw [checkPropertyValue, showNul_eq]
  apply settles_singleton
  · exact fun h => if_neg (mt hasNul_iff.1 h)
  · exact fun h => if_pos (hasNul_iff.2 (not_not.1 h))

theorem settles_checkCheckpoint (c : CheckpointSettings) :
    Settles (checkpointRules c) (checkCheckpoint c) :=
  (settles_checkDirectory 0 "checkpoint_to" c.checkpointTo).append
    ((settles_checkDirectory 1 "restore_from" c.restoreFrom).append
      ((settles_checkEngine c.engine).append (settles_checkEngineDir c.engineDir)))

theorem settles_checkRuntime (r : RuntimeSettings) : Settles (runtimeRules r) (checkRuntime r) :=
  (settles_forM settles_checkPropertyName r.properties).append
    (settles_forM settles_checkPropertyValue r.properties)

structure Sound (s : Settings) : Prop where
  checkpointTo : s.checkpoint.checkpointTo ≠ some ""
  restoreFrom : s.checkpoint.restoreFrom ≠ some ""
  engine : s.checkpoint.engine ≠ "" ∧ '\x00' ∉ s.checkpoint.engine.toList
  engineDir : ∀ dir ∈ s.checkpoint.engineDir, ∃ rest, dir = "/" ++ rest
  keys : ∀ p ∈ s.runtime.properties, p.key ≠ "" ∧ '=' ∉ p.key.toList ∧ '\x00' ∉ p.key.toList
  values : ∀ p ∈ s.runtime.properties, '\x00' ∉ p.value.toList

theorem sound_iff {s : Settings} : Sound s ↔ ∀ rule ∈ rules s, rule.Holds := by
  simp only [rules, checkpointRules, runtimeRules, List.forall_mem_append, List.forall_mem_cons,
    List.forall_mem_map, Option.mem_toList]
  constructor
  · intro h
    exact ⟨⟨⟨h.checkpointTo, h.restoreFrom, h.engine.1, h.engine.2, by simp⟩, h.engineDir⟩,
      h.keys, h.values⟩
  · rintro ⟨⟨⟨hto, hfrom, hengine, htext, -⟩, hdir⟩, hkeys, hvalues⟩
    exact ⟨hto, hfrom, ⟨hengine, htext⟩, hdir, hkeys, hvalues⟩

/-- The settings that a draft stands for, whether or not they are accepted. -/
def Draft.settings (draft : Draft) : Settings :=
  ⟨draft.checkpoint.getD .disabled, draft.runtime.getD .empty⟩

theorem settles_check (s : Settings) :
    Settles (rules s) (checkCheckpoint s.checkpoint >>= fun _ => checkRuntime s.runtime) :=
  (settles_checkCheckpoint s.checkpoint).append (settles_checkRuntime s.runtime)

theorem ofDraft_eq (draft : Draft) : ofDraft draft =
    (checkCheckpoint draft.settings.checkpoint >>= fun _ => checkRuntime draft.settings.runtime).map
      fun _ => draft.settings := by
  rw [ofDraft, Draft.settings]
  cases checkCheckpoint (draft.checkpoint.getD .disabled) with
  | error => rfl
  | ok => cases checkRuntime (draft.runtime.getD .empty) <;> rfl

theorem ofDraft_eq_ok_iff :
    ofDraft draft = .ok settings ↔ Sound draft.settings ∧ settings = draft.settings := by
  rw [sound_iff, ← (settles_check draft.settings).eq_ok_iff, ofDraft_eq]
  cases checkCheckpoint draft.settings.checkpoint >>= fun _ => checkRuntime draft.settings.runtime <;>
    simp [Except.map, eq_comm]

theorem ofDraft_eq_error_iff (hasc : Property.Ascending draft.settings.runtime.properties) :
    ofDraft draft = .error e ↔ ∃ rule, FirstBroken (rules draft.settings) rule ∧ rule.error = e := by
  rw [← (settles_check draft.settings).eq_error_iff (ascending_rules hasc), ofDraft_eq]
  cases checkCheckpoint draft.settings.checkpoint >>= fun _ => checkRuntime draft.settings.runtime <;>
    simp [Except.map]

def WithoutFields (known : List String) (d : Document) (n : Node) : Prop :=
  ∃ pairs, readPairs d n = .ok pairs ∧ ∀ pair ∈ pairs, pair.1 ∉ known

theorem WithoutFields.readFields (h : WithoutFields known d n) : readFields known d n = .ok [] := by
  obtain ⟨pairs, hread, hknown⟩ := h
  have hnone : (pairs.filter fun pair => known.contains pair.1) = [] := by
    simpa using hknown
  simp only [Settings.readFields, hread, bind, Except.bind, hnone]
  rfl

theorem readCheckpoint_withoutFields (h : WithoutFields checkpointFields d n) :
    readCheckpoint d n = .ok .disabled := by
  rw [readCheckpoint, h.readFields]
  rfl

theorem readRuntime_withoutFields (h : WithoutFields runtimeFields d n) :
    readRuntime d n = .ok .empty := by
  rw [readRuntime, h.readFields]
  rfl

/-- Settings are accepted just when they break no rule, and then as they are written down; those that
break one are refused for the first rule that they break. A section without fields counts as none. The
properties of a draft that was read are ascending (`ascending_of_parseDraft`). -/
theorem ofDraft_reports_first_broken_rule (draft : Draft)
    (hasc : ∀ r ∈ draft.runtime, Property.Ascending r.properties) :
    (∀ settings, ofDraft draft = .ok settings ↔ Sound draft.settings ∧ settings = draft.settings) ∧
      (∀ e, ofDraft draft = .error e ↔
        ∃ rule, FirstBroken (rules draft.settings) rule ∧ rule.error = e) ∧
      (∀ d n, WithoutFields checkpointFields d n → ∃ c, readCheckpoint d n = .ok c ∧
        ofDraft { draft with checkpoint := some c } = ofDraft { draft with checkpoint := none }) ∧
      ∀ d n, WithoutFields runtimeFields d n → ∃ r, readRuntime d n = .ok r ∧
        ofDraft { draft with runtime := some r } = ofDraft { draft with runtime := none } := by
  refine ⟨fun settings => ofDraft_eq_ok_iff, fun e => ofDraft_eq_error_iff (ascending_getD hasc),
    ?_, ?_⟩
  · exact fun d n h => ⟨.disabled, readCheckpoint_withoutFields h, rfl⟩
  · exact fun d n h => ⟨.empty, readRuntime_withoutFields h, rfl⟩

theorem ofDraft_reports_first_broken_rule_keys :
    let runtime : RuntimeSettings := ⟨"", "", "", [⟨"a", "\x00"⟩, ⟨"b=c", ""⟩]⟩
    Property.Ascending runtime.properties ∧
      ∃ rule, FirstBroken (rules (Draft.settings ⟨none, some runtime⟩)) rule ∧
        rule.error = .invalidValue "properties" "b=c"
          "Property names must be non-empty and contain no '=' or NUL" := by
  intro runtime
  have hasc : Property.Ascending runtime.properties := by decide +kernel
  refine ⟨hasc, ?_⟩
  obtain ⟨-, herror, -⟩ := ofDraft_reports_first_broken_rule ⟨none, some runtime⟩ (by simpa using hasc)
  exact (herror _).1 (by decide +kernel)

end Thaw.Settings
