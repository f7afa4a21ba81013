import Mathlib.Logic.Basic

namespace Thaw
set_option autoImplicit true

section

variable [BEq α] [LawfulBEq α] [DecidableEq α]

theorem lookup_cons_eq_ite (key : α) (n : α × β) (entries : List (α × β)) :
    (n :: entries).lookup key = if key = n.1 then some n.2 else entries.lookup key := by
  rw [List.lookup_cons]
  by_cases hkey : key = n.1
  · simp [hkey]
  · rw [beq_false_of_ne hkey, if_neg hkey]

theorem lookup_filter_ne (entries : List (α × β)) (gone key : α) :
    (entries.filter fun n => n.1 != gone).lookup key =
      if key = gone then none else entries.lookup key := by
  induction entries with
  | nil => simp
  | cons n entries ih =>
    rw [List.filter_cons, lookup_cons_eq_ite]
    by_cases hgone : n.1 = gone
    · rw [if_neg (by simp [hgone]), ih, hgone]
      by_cases hkey : key = gone <;> simp [hkey]
    · rw [if_pos (by simp [hgone]), lookup_cons_eq_ite, ih]
      by_cases hkey : key = n.1
      · simp [hkey, hgone]
      · simp [hkey]

theorem lookup_map_replace (entries : List (α × β)) (given key : α) (value : β) :
    (entries.map fun n => if n.1 == given then (given, value) else n).lookup key =
      if key = given then (entries.lookup key).map fun _ => value else entries.lookup key := by
  induction entries with
  | nil => simp
  | cons n entries ih =>
    rw [List.map_cons, lookup_cons_eq_ite, lookup_cons_eq_ite, ih]
    by_cases hgiven : n.1 = given
    · by_cases hkey : key = given <;> simp [hgiven, hkey]
    · by_cases hkey : key = given
      · simp [hgiven, hkey, Ne.symm hgiven]
      · simp [hgiven, hkey]

end

end Thaw
