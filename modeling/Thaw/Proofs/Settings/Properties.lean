import Mathlib.Data.String.Basic
import Thaw.Application
import Thaw.Proofs.Text.Split
import Thaw.Settings.Document

namespace Thaw

set_option autoImplicit true

namespace Property

def Ascending (ps : List Property) : Prop := ps.Pairwise (·.key < ·.key)

instance (ps : List Property) : Decidable (Ascending ps) :=
  inferInstanceAs (Decidable (ps.Pairwise (·.key < ·.key)))

theorem mem_insert (h : r ∈ insert p ps) : r = p ∨ r ∈ ps := by
  induction ps with
  | nil => exact .inl (List.mem_singleton.1 h)
  | cons q qs ih =>
    rw [insert] at h
    split at h
    case isTrue => exact List.mem_cons.1 h
    case isFalse =>
      split at h
      case isTrue => exact (List.mem_cons.1 h).imp_right (List.mem_cons_of_mem q)
      case isFalse =>
        rcases List.mem_cons.1 h with rfl | h
        · exact .inr List.mem_cons_self
        · exact (ih h).imp_right (List.mem_cons_of_mem q)

theorem ascending_insert (p : Property) (h : Ascending ps) : Ascending (insert p ps) := by
  induction ps with
  | nil => exact List.pairwise_singleton _ p
  | cons q qs ih =>
    obtain ⟨hq, hqs⟩ := List.pairwise_cons.1 h
    rw [insert]
    split
    case isTrue hlt =>
      refine List.pairwise_cons.2 ⟨fun r hr => ?_, h⟩
      rcases List.mem_cons.1 hr with rfl | hr
      · exact hlt
      · exact hlt.trans (hq r hr)
    case isFalse hge =>
      split
      case isTrue he => exact List.pairwise_cons.2 ⟨fun r hr => he ▸ hq r hr, hqs⟩
      case isFalse hne =>
        refine List.pairwise_cons.2 ⟨fun r hr => ?_, ih hqs⟩
        rcases mem_insert hr with rfl | hr
        · exact lt_of_le_of_ne (not_lt.1 hge) (Ne.symm hne)
        · exact hq r hr

theorem ascending_collect (ps : List Property) : Ascending (collect ps) :=
  List.foldlRecOn ps _ List.Pairwise.nil fun _ h p _ => ascending_insert p h

/-- The property that a text spells; its name ends at the first `=`. -/
def ofText? (text : String) : Option Property :=
  (Text.cut? (· == '=') text.toList).map fun (key, value) =>
    ⟨String.ofList key, String.ofList value⟩

theorem toList_text (p : Property) : p.text.toList = p.key.toList ++ '=' :: p.value.toList := by
  change (p.key ++ "=" ++ p.value).toList = _
  simp

theorem ofText?_eq_some_iff {line : String} :
    ofText? line = some p ↔ line = p.text ∧ '=' ∉ p.key.toList := by
  rw [ofText?, Option.map_eq_some_iff, ← String.toList_inj, toList_text]
  constructor
  · rintro ⟨⟨key, value⟩, hcut, rfl⟩
    obtain ⟨mark, hmark, hline, hfree⟩ := Text.cut?_eq_some_iff.1 hcut
    obtain rfl := eq_of_beq hmark
    simpa using ⟨hline, Text.forall_beq_false_iff.1 hfree⟩
  · rintro ⟨hline, hfree⟩
    refine ⟨(p.key.toList, p.value.toList), ?_, by simp⟩
    rw [hline]
    exact Text.cut?_append_cons (Text.forall_beq_false_iff.2 hfree) (beq_self_eq_true '=')

theorem mapM_ofText?_texts {ps : List Property} (h : ∀ p ∈ ps, '=' ∉ p.key.toList) :
    (ps.map (·.text)).mapM ofText? = some ps := by
  induction ps with
  | nil => rfl
  | cons p ps ih =>
    obtain ⟨hp, hps⟩ := List.forall_mem_cons.1 h
    rw [List.map_cons, List.mapM_cons, ofText?_eq_some_iff.2 ⟨rfl, hp⟩, ih hps]
    rfl

theorem nul_mem_text_iff (p : Property) :
    '\x00' ∈ p.text.toList ↔ '\x00' ∈ p.key.toList ∨ '\x00' ∈ p.value.toList := by
  simp [toList_text]

end Property

namespace Settings

open Yaml

theorem bind_eq_ok_iff {x : Except ε α} {f : α → Except ε β} :
    x >>= f = .ok b ↔ ∃ a, x = .ok a ∧ f a = .ok b := by
  cases x with
  | error e => simp [bind, Except.bind]
  | ok a => simp [bind, Except.bind]

theorem then_eq_ok_iff {x : Except ε Unit} {y : Except ε β} :
    (x >>= fun _ => y) = .ok b ↔ x = .ok () ∧ y = .ok b := by
  rw [bind_eq_ok_iff, Unique.exists_iff]

variable {d : Document} {n : Node} {read : Document → Node → Except Fault α}

theorem of_field {P : α → Prop} {default : α} (hread : ∀ n a, read d n = .ok a → P a) (hdefault : P default)
    (h : field d fields name read default = .ok a) : P a := by
  rw [field] at h
  split at h
  · exact hread _ _ h
  · cases h
    exact hdefault

theorem of_readOption {P : α → Prop} (hread : ∀ n a, read d n = .ok a → P a)
    (h : readOption read d n = .ok option) : ∀ a ∈ option, P a := by
  obtain ⟨isAbsent, -, h⟩ := bind_eq_ok_iff.1 h
  split at h
  case isTrue =>
    cases h
    simp
  case isFalse =>
    obtain ⟨a, hread', h⟩ := bind_eq_ok_iff.1 h
    cases h
    simpa using hread n a hread'

theorem ascending_of_readProperties (h : readProperties d n = .ok ps) : Property.Ascending ps := by
  obtain ⟨pairs, -, h⟩ := bind_eq_ok_iff.1 h
  obtain ⟨written, -, h⟩ := bind_eq_ok_iff.1 h
  cases h
  exact Property.ascending_collect written

theorem ascending_of_readRuntime (h : readRuntime d n = .ok r) : Property.Ascending r.properties := by
  obtain ⟨fields, -, h⟩ := bind_eq_ok_iff.1 h
  obtain ⟨classPath, -, h⟩ := bind_eq_ok_iff.1 h
  obtain ⟨bootClassPath, -, h⟩ := bind_eq_ok_iff.1 h
  obtain ⟨extensionDirs, -, h⟩ := bind_eq_ok_iff.1 h
  obtain ⟨ps, hps, h⟩ := bind_eq_ok_iff.1 h
  cases h
  exact of_field (fun _ _ => ascending_of_readProperties) List.Pairwise.nil hps

theorem ascending_of_readDraft (h : readDraft d = .ok draft) :
    ∀ r ∈ draft.runtime, Property.Ascending r.properties := by
  obtain ⟨fields, -, h⟩ := bind_eq_ok_iff.1 h
  obtain ⟨checkpoint, -, h⟩ := bind_eq_ok_iff.1 h
  obtain ⟨runtime, hruntime, h⟩ := bind_eq_ok_iff.1 h
  cases h
  exact of_field (P := fun runtime => ∀ r ∈ runtime, Property.Ascending r.properties)
    (fun _ _ => of_readOption fun _ _ => ascending_of_readRuntime) (by simp) hruntime

theorem ascending_of_parseDraft (h : parseDraft text = .ok draft) :
    ∀ r ∈ draft.runtime, Property.Ascending r.properties := by
  obtain ⟨document, -, h⟩ := bind_eq_ok_iff.1 h
  cases document with
  | none =>
    cases h
    simp
  | some d => exact ascending_of_readDraft h

theorem ascending_getD {runtime : Option RuntimeSettings}
    (h : ∀ r ∈ runtime, Property.Ascending r.properties) :
    Property.Ascending (runtime.getD .empty).properties := by
  cases runtime with
  | none => exact List.Pairwise.nil
  | some r => exact h r rfl

theorem forM_eq_ok_iff {check : α → Except ε Unit} {as : List α} :
    as.forM check = .ok () ↔ ∀ a ∈ as, check a = .ok () := by
  induction as with
  | nil => simp [pure, Except.pure]
  | cons a as ih =>
    rw [List.forM_eq_forM, List.forM_cons, then_eq_ok_iff, List.forall_mem_cons, ← ih]
    rfl

theorem hasNul_iff {text : String} : hasNul text = true ↔ '\x00' ∈ text.toList :=
  List.contains_iff_mem

theorem isPropertyName_iff {key : String} : isPropertyName key = true ↔
    key ≠ "" ∧ '=' ∉ key.toList ∧ '\x00' ∉ key.toList := by
  simp [isPropertyName, hasNul, and_assoc]

theorem checkPropertyName_eq_ok_iff : checkPropertyName p = .ok () ↔
    p.key ≠ "" ∧ '=' ∉ p.key.toList ∧ '\x00' ∉ p.key.toList := by
  simp [checkPropertyName, isPropertyName_iff]

theorem checkPropertyValue_eq_ok_iff :
    checkPropertyValue p = .ok () ↔ '\x00' ∉ p.value.toList := by
  simp [checkPropertyValue, hasNul_iff]

theorem checkRuntime_eq_ok_iff {r : RuntimeSettings} : checkRuntime r = .ok () ↔
    (∀ p ∈ r.properties, p.key ≠ "" ∧ '=' ∉ p.key.toList ∧ '\x00' ∉ p.key.toList) ∧
      ∀ p ∈ r.properties, '\x00' ∉ p.value.toList := by
  simp only [checkRuntime, then_eq_ok_iff, forM_eq_ok_iff, checkPropertyName_eq_ok_iff,
    checkPropertyValue_eq_ok_iff]

theorem of_ofDraft (h : ofDraft draft = .ok settings) :
    settings.runtime = draft.runtime.getD .empty ∧ checkRuntime settings.runtime = .ok () := by
  obtain ⟨-, h⟩ := then_eq_ok_iff.1 h
  obtain ⟨hchecked, h⟩ := then_eq_ok_iff.1 h
  cases h
  exact ⟨rfl, hchecked⟩

theorem of_parse (h : parse text = .ok settings) :
    ∃ draft, parseDraft text = .ok draft ∧ ofDraft draft = .ok settings := by
  rw [parse] at h
  split at h
  case h_1 => cases h
  case h_2 draft hdraft =>
    refine ⟨draft, hdraft, ?_⟩
    cases hsettings : ofDraft draft with
    | error e =>
      rw [hsettings] at h
      cases h
    | ok accepted =>
      rw [hsettings] at h
      cases h
      rfl

/-- What holds of the runtime in all settings that are accepted. -/
structure Accepted (r : RuntimeSettings) : Prop where
  ascending : Property.Ascending r.properties
  checked : checkRuntime r = .ok ()

theorem accepted_of_parse (h : parse text = .ok settings) : Accepted settings.runtime := by
  obtain ⟨draft, hdraft, hsettings⟩ := of_parse h
  obtain ⟨hruntime, hchecked⟩ := of_ofDraft hsettings
  refine ⟨?_, hchecked⟩
  rw [hruntime]
  exact ascending_getD (ascending_of_parseDraft hdraft)

end Settings

end Thaw
