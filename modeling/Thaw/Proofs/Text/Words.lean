import Thaw.Proofs.Text.Split
import Thaw.Text.Blank

namespace Thaw.Text
set_option autoImplicit true

def Blank (cs : List Char) : Prop := ∀ c ∈ cs, isBlank c = true

instance (cs : List Char) : Decidable (Blank cs) :=
  List.decidableBAll (fun c => isBlank c = true) cs

/-- The text consists of the words, with blanks between them and perhaps at its ends. -/
inductive Spaced : List Char → List (List Char) → Prop where
  | blank (hgap : Blank gap) : Spaced gap []
  | word (hgap : Blank gap) (hne : word ≠ []) (hword : ∀ c ∈ word, isBlank c = false)
      (hend : ∀ c ∈ rest.head?, isBlank c = true) (hrest : Spaced rest ws) :
      Spaced (gap ++ (word ++ rest)) (word :: ws)

variable {cs gap word rest : List Char} {ws : List (List Char)} {c : Char}

theorem words_cons_blank (hc : isBlank c = true) (cs : List Char) : words (c :: cs) = words cs := by
  rw [words, split_cons_mark hc, List.filter_cons]
  rfl

theorem words_blank_append (hgap : Blank gap) (cs : List Char) : words (gap ++ cs) = words cs := by
  induction gap with
  | nil => rfl
  | cons c gap ih =>
    obtain ⟨hc, hgap⟩ := List.forall_mem_cons.1 hgap
    rw [List.cons_append, words_cons_blank hc, ih hgap]

theorem words_of_blank (hgap : Blank gap) : words gap = [] := by
  have h := words_blank_append hgap []
  rwa [List.append_nil] at h

theorem words_word_append (hne : word ≠ []) (hword : ∀ c ∈ word, isBlank c = false)
    (hend : ∀ c ∈ rest.head?, isBlank c = true) : words (word ++ rest) = word :: words rest := by
  have hkeep : (!word.isEmpty) = true := by simpa using hne
  cases rest with
  | nil => rw [List.append_nil, words, split_of_free hword, List.filter_cons, if_pos hkeep]; rfl
  | cons c rest =>
    have hc : isBlank c = true := hend c rfl
    rw [words_cons_blank hc, words, split_append_cons hword hc, List.filter_cons, if_pos hkeep]
    rfl

theorem Spaced.words_eq (h : Spaced cs ws) : words cs = ws := by
  induction h with
  | blank hgap => exact words_of_blank hgap
  | word hgap hne hword hend _ ih =>
    rw [words_blank_append hgap, words_word_append hne hword hend, ih]

/-- Another character widens the first gap, lengthens the first word or is a word by itself. -/
theorem Spaced.exists_cons (h : Spaced cs ws) (c : Char) : ∃ ws, Spaced (c :: cs) ws := by
  by_cases hc : isBlank c = true
  · cases h with
    | blank hgap => exact ⟨[], .blank (List.forall_mem_cons.2 ⟨hc, hgap⟩)⟩
    | word hgap hne hword hend hrest =>
      exact ⟨_, .word (List.forall_mem_cons.2 ⟨hc, hgap⟩) hne hword hend hrest⟩
  · have hc : isBlank c = false := Bool.eq_false_iff.2 hc
    have hnil : Blank [] := by simp [Blank]
    have hnew (hend : ∀ d ∈ cs.head?, isBlank d = true) : ∃ ws, Spaced (c :: cs) ws :=
      ⟨[c] :: ws, .word hnil (List.cons_ne_nil c []) (by simpa using hc) hend h⟩
    cases h with
    | blank hgap => exact hnew fun d hd => hgap d (List.mem_of_mem_head? hd)
    | @word gap word _ _ hgap hne hword hend hrest =>
      cases gap with
      | nil => exact ⟨_, .word hnil (List.cons_ne_nil c word) (List.forall_mem_cons.2 ⟨hc, hword⟩)
          hend hrest⟩
      | cons d gap =>
        apply hnew
        intro e he
        cases he
        exact hgap d List.mem_cons_self

theorem exists_spaced (cs : List Char) : ∃ ws, Spaced cs ws := by
  induction cs with
  | nil => exact ⟨[], .blank (by simp [Blank])⟩
  | cons c cs ih =>
    obtain ⟨ws, h⟩ := ih
    exact h.exists_cons c

theorem words_eq_iff : words cs = ws ↔ Spaced cs ws := by
  constructor
  · intro h
    obtain ⟨ws', hspaced⟩ := exists_spaced cs
    rw [hspaced.words_eq] at h
    rwa [← h]
  · exact Spaced.words_eq

theorem Spaced.append_blank (h : Spaced cs ws) (hgap : Blank gap) : Spaced (cs ++ gap) ws := by
  induction h with
  | blank hgap' => exact .blank (List.forall_mem_append.2 ⟨hgap', hgap⟩)
  | @word _ _ rest _ hgap' hne hword hend _ ih =>
    have hend' : ∀ c ∈ (rest ++ gap).head?, isBlank c = true := by
      cases rest with
      | nil => exact fun c hc => hgap c (List.mem_of_mem_head? hc)
      | cons c rest => exact hend
    rw [List.append_assoc, List.append_assoc]
    exact .word hgap' hne hword hend' ih

theorem words_append_blank (hgap : Blank gap) (cs : List Char) : words (cs ++ gap) = words cs := by
  obtain ⟨ws, h⟩ := exists_spaced cs
  rw [h.words_eq, (h.append_blank hgap).words_eq]

theorem trim_of_free (h : ∀ c ∈ cs, isBlank c = false) : trim cs = cs := by
  have hkeep {l : List Char} (hl : ∀ c ∈ l, isBlank c = false) : l.dropWhile isBlank = l := by
    cases l with
    | nil => rfl
    | cons c l => rw [List.dropWhile_cons, hl c List.mem_cons_self, if_neg Bool.false_ne_true]
  have hreverse : ∀ c ∈ cs.reverse, isBlank c = false := by
    intro c hc
    exact h c (List.mem_reverse.1 hc)
  rw [trim, hkeep h, hkeep hreverse, List.reverse_reverse]

def stripReturn (line : List Char) : List Char :=
  if line.getLast? = some '\r' then line.dropLast else line

/-- The lines of pieces between newlines. Behind the last newline stands a line without an end, or
none. -/
def endLines : List (List Char) → List (List Char)
  | [] => []
  | [last] => if last.isEmpty then [] else [last]
  | piece :: next :: rest => stripReturn piece :: endLines (next :: rest)

def lines (cs : List Char) : List (List Char) := endLines (split (· == '\n') cs)

theorem words_stripReturn (line : List Char) : words (stripReturn line) = words line := by
  rw [stripReturn]
  split
  case isTrue h =>
    obtain ⟨_, rfl⟩ := List.getLast?_eq_some_iff.1 h
    have hreturn : Blank ['\r'] := by decide
    rw [List.dropLast_concat, words_append_blank hreturn]
  case isFalse => rfl

/-- What reads the words of a line cannot tell lines from the pieces between newlines. -/
theorem filterMap_endLines {f : List Char → Option α} (hnil : f [] = none)
    (hreturn : ∀ line, f (stripReturn line) = f line) (pieces : List (List Char)) :
    (endLines pieces).filterMap f = pieces.filterMap f := by
  fun_induction endLines pieces with
  | case1 => rfl
  | case2 last hlast =>
    rw [List.isEmpty_iff.1 hlast]
    simp [hnil]
  | case3 => rfl
  | case4 piece next rest ih => rw [List.filterMap_cons, List.filterMap_cons, hreturn, ih]

theorem filterMap_drop_lines {f : List Char → Option α} (hnil : f [] = none)
    (hreturn : ∀ line, f (stripReturn line) = f line) (cs : List Char) :
    ((lines cs).drop 1).filterMap f = ((split (· == '\n') cs).drop 1).filterMap f := by
  rw [lines]
  generalize split (· == '\n') cs = pieces
  cases pieces with
  | nil => rfl
  | cons piece pieces =>
    cases pieces with
    | nil =>
      rw [endLines]
      split <;> rfl
    | cons next rest => exact filterMap_endLines hnil hreturn (next :: rest)

end Thaw.Text
