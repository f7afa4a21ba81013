import Thaw.Proofs.Text.Numeral

namespace Thaw.Text
set_option autoImplicit true

def width (cs : List Char) : Nat := (cs.flatMap String.utf8EncodeChar).length

def Ascii (cs : List Char) : Prop := ∀ c ∈ cs, c.utf8Size = 1

instance (cs : List Char) : Decidable (Ascii cs) :=
  List.decidableBAll (fun c : Char => c.utf8Size = 1) cs

/-- What stands behind the first `n` bytes, if there are as many and they end with a character. -/
def dropBytes? : Nat → List Char → Option (List Char)
  | 0, cs => some cs
  | _ + 1, [] => none
  | n + 1, c :: cs => if c.utf8Size ≤ n + 1 then dropBytes? (n + 1 - c.utf8Size) cs else none

/-- The first `n` bytes, if there are as many and they end with a character. -/
def takeBytes? : Nat → List Char → Option (List Char)
  | 0, _ => some []
  | _ + 1, [] => none
  | n + 1, c :: cs =>
    if c.utf8Size ≤ n + 1 then (takeBytes? (n + 1 - c.utf8Size) cs).map (c :: ·) else none

/-- The bytes from the offset `start` up to the offset `stop`. -/
def slice? (start stop : Nat) (cs : List Char) : Option (List Char) :=
  if start ≤ stop then (dropBytes? start cs).bind (takeBytes? (stop - start)) else none

variable {base n : Nat} {c : Char} {cs : List Char}

theorem length_flatMap_of_forall {f : α → List β} {as : List α}
    (h : ∀ a ∈ as, (f a).length = n) : (as.flatMap f).length = n * as.length := by
  have hconst : as.map (fun a => (f a).length) = as.map fun _ => n := List.map_congr_left h
  rw [List.length_flatMap, hconst, List.map_const', List.sum_replicate_nat, Nat.mul_comm]

theorem width_of_ascii (h : Ascii cs) : width cs = cs.length := by
  have hone : ∀ c ∈ cs, (String.utf8EncodeChar c).length = 1 := by
    intro c hc
    rw [String.length_utf8EncodeChar, h c hc]
  rw [width, length_flatMap_of_forall hone, Nat.one_mul]

theorem dropBytes?_of_ascii (h : Ascii cs) (hn : n ≤ cs.length) :
    dropBytes? n cs = some (cs.drop n) := by
  induction cs generalizing n with
  | nil =>
    cases Nat.le_zero.1 hn
    rfl
  | cons c cs ih =>
    cases n with
    | zero => rfl
    | succ n =>
      obtain ⟨hc, hcs⟩ := List.forall_mem_cons.1 h
      rw [dropBytes?, hc, if_pos (Nat.le_add_left 1 n), Nat.add_sub_cancel]
      exact ih hcs (Nat.le_of_succ_le_succ hn)

theorem takeBytes?_of_ascii (h : Ascii cs) (hn : n ≤ cs.length) :
    takeBytes? n cs = some (cs.take n) := by
  induction cs generalizing n with
  | nil =>
    cases Nat.le_zero.1 hn
    rfl
  | cons c cs ih =>
    cases n with
    | zero => rfl
    | succ n =>
      obtain ⟨hc, hcs⟩ := List.forall_mem_cons.1 h
      rw [takeBytes?, hc, if_pos (Nat.le_add_left 1 n), Nat.add_sub_cancel,
        ih hcs (Nat.le_of_succ_le_succ hn)]
      rfl

theorem slice?_of_ascii (h : Ascii cs) (hn : start + n ≤ cs.length) :
    slice? start (start + n) cs = some ((cs.drop start).take n) := by
  have hstart : start ≤ cs.length := Nat.le_of_add_right_le hn
  have hrest : Ascii (cs.drop start) := fun c hc => h c (List.mem_of_mem_drop hc)
  have hlength : n ≤ (cs.drop start).length := by
    rw [List.length_drop]
    omega
  rw [slice?, if_pos (Nat.le_add_right start n), dropBytes?_of_ascii h hstart, Option.bind_some,
    Nat.add_sub_cancel_left, takeBytes?_of_ascii hrest hlength]

theorem utf8Size_of_digit? (h : Numeral.digit? base c = some d) : c.utf8Size = 1 := by
  have hranges := Numeral.ranges_of_digit? h
  have hval : c.val.toNat ≤ 127 := by
    rw [← Char.toNat]
    omega
  exact Char.utf8Size_eq_one_iff.2 (UInt32.le_iff_toNat_le.2 hval)

theorem Numeral.Natural.ascii (h : Natural base cs n) : Ascii cs :=
  h.forall_mem (by decide) fun _ _ => utf8Size_of_digit?

end Thaw.Text
