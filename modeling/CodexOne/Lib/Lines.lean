import Mathlib.Data.List.DropRight

/-!
Reading a text line by line, and cutting texts at their right end.
-/

namespace CodexOne.Lines

/-- What successive calls of `ReadBytes('\n')` return: the lines, each with its end, and what is
left when the text ends. -/
def readLines : List Char → List (List Char) × List Char
  | [] => ([], [])
  | c :: t =>
    if c = '\n' then (['\n'] :: (readLines t).1, (readLines t).2)
    else match readLines t with
      | ([], rest) => ([], c :: rest)
      | (line :: lines, rest) => ((c :: line) :: lines, rest)

lemma readLines_line {line : List Char} (h : '\n' ∉ line) (t : List Char) :
    readLines (line ++ '\n' :: t) = ((line ++ ['\n']) :: (readLines t).1, (readLines t).2) := by
  induction line with
  | nil => rfl
  | cons c line ih =>
    rw [List.mem_cons, not_or] at h
    rw [List.cons_append, readLines, if_neg (Ne.symm h.1), ih h.2]
    rfl

lemma readLines_rest {t : List Char} (h : '\n' ∉ t) : readLines t = ([], t) := by
  induction t with
  | nil => rfl
  | cons c t ih =>
    rw [List.mem_cons, not_or] at h
    rw [readLines, if_neg (Ne.symm h.1), ih h.2]

/-- Nothing is lost. -/
theorem readLines_flatten (t : List Char) : (readLines t).1.flatten ++ (readLines t).2 = t := by
  induction t with
  | nil => rfl
  | cons c t ih =>
    rw [readLines]
    split
    · rename_i hc
      rw [List.flatten_cons, List.append_assoc, ih, hc]
      rfl
    · split
      · rename_i rest heq
        rw [heq] at ih
        simpa using ih
      · rename_i line lines rest heq
        rw [heq] at ih
        simpa using ih

/-- A line with its end, and nothing else. -/
def IsLine (l : List Char) : Prop := ∃ t, '\n' ∉ t ∧ l = t ++ ['\n']

variable {rest : List Char} {lines : List (List Char)}

lemma readLines_lines (hl : ∀ l ∈ lines, IsLine l) (hr : '\n' ∉ rest) :
    readLines (lines.flatten ++ rest) = (lines, rest) := by
  induction lines with
  | nil => exact readLines_rest hr
  | cons l lines ih =>
    obtain ⟨s, hs, rfl⟩ := hl l List.mem_cons_self
    rw [List.flatten_cons, List.append_assoc, List.append_assoc, List.singleton_append,
      readLines_line hs, ih fun l hl' => hl l (List.mem_cons_of_mem _ hl')]

lemma readLines_isLine (t : List Char) :
    (∀ l ∈ (readLines t).1, IsLine l) ∧ '\n' ∉ (readLines t).2 := by
  induction t with
  | nil => exact ⟨fun _ h => (by cases h), fun h => (by cases h)⟩
  | cons c t ih =>
    rw [readLines]
    split_ifs with hc
    · refine ⟨fun l hl => ?_, ih.2⟩
      rcases List.mem_cons.mp hl with rfl | hl
      · exact ⟨[], by simp, rfl⟩
      · exact ih.1 l hl
    · -- the character joins the first line, or the rest when there is none
      rcases h : readLines t with ⟨_ | ⟨line, lines⟩, rest⟩ <;> rw [h] at ih <;> dsimp only
      · exact ⟨ih.1, by simpa [Ne.symm hc] using ih.2⟩
      · refine ⟨fun l hl => ?_, ih.2⟩
        rcases List.mem_cons.mp hl with rfl | hl
        · obtain ⟨s, hs, rfl⟩ := ih.1 line List.mem_cons_self
          exact ⟨c :: s, by simpa [Ne.symm hc] using hs, rfl⟩
        · exact ih.1 l (List.mem_cons_of_mem _ hl)

variable {α : Type} {p q : α → Bool}

lemma rdropWhile_append (p : α → Bool) (a b : List α) :
    (a ++ b).rdropWhile p = if b.all p then a.rdropWhile p else a ++ b.rdropWhile p := by
  rw [List.rdropWhile, List.reverse_append, List.dropWhile_append]
  by_cases hb : b.all p = true
  · have hnil : b.reverse.dropWhile p = [] := by
      rw [List.dropWhile_eq_nil_iff]
      intro x hx
      exact List.all_eq_true.mp hb x (List.mem_reverse.mp hx)
    rw [if_pos hb, hnil, List.isEmpty_nil, if_pos rfl, List.rdropWhile]
  · have hne : (b.reverse.dropWhile p).isEmpty = false := by
      rw [Bool.eq_false_iff, ne_eq, List.isEmpty_iff, List.dropWhile_eq_nil_iff]
      intro h
      exact hb (List.all_eq_true.mpr fun x hx => h x (List.mem_reverse.mpr hx))
    rw [if_neg hb, hne, if_neg (by simp), List.reverse_append, List.reverse_reverse,
      List.rdropWhile]

lemma rdropWhile_append_keep {a b : List α} (ha : ∀ x ∈ a.getLast?, p x = false) :
    (a ++ b).rdropWhile p = a ++ b.rdropWhile p := by
  rw [rdropWhile_append]
  split
  · rename_i hb
    have hself : a.rdropWhile p = a := by
      rw [List.rdropWhile_eq_self_iff]
      intro hne
      rw [ha _ (List.getLast?_eq_some_getLast hne)]
      simp
    have hnil : b.rdropWhile p = [] := by
      rw [List.rdropWhile_eq_nil_iff]
      exact List.all_eq_true.mp hb
    rw [hself, hnil, List.append_nil]
  · rfl

section FlatMap

variable {α β : Type} {f g : α → List β}

lemma length_flatMap_le {l : List α} (h : ∀ a ∈ l, (g a).length ≤ (f a).length) :
    (l.flatMap g).length ≤ (l.flatMap f).length := by
  induction l with
  | nil => rfl
  | cons a l ih =>
    rw [List.flatMap_cons, List.flatMap_cons, List.length_append, List.length_append]
    exact Nat.add_le_add (h a (List.mem_cons_self ..))
      (ih fun b hb => h b (List.mem_cons_of_mem _ hb))

/-- When no piece of the one list is longer than the piece of the other, the lists are equal only
if all their pieces are. -/
lemma flatMap_eq_iff {l : List α} (h : ∀ a ∈ l, (g a).length ≤ (f a).length) :
    l.flatMap f = l.flatMap g ↔ ∀ a ∈ l, f a = g a := by
  refine ⟨fun heq => ?_, fun heq => ?_⟩
  · induction l with
    | nil => exact fun a ha => absurd ha List.not_mem_nil
    | cons a l ih =>
      have ha := h a (List.mem_cons_self ..)
      have hl : ∀ b ∈ l, (g b).length ≤ (f b).length := fun b hb => h b (List.mem_cons_of_mem _ hb)
      rw [List.flatMap_cons, List.flatMap_cons] at heq
      -- a longer head could not be made up for by the tail
      have hlen : (f a).length = (g a).length := by
        have htotal := congrArg List.length heq
        rw [List.length_append, List.length_append] at htotal
        have := length_flatMap_le hl
        omega
      obtain ⟨hhead, htail⟩ := List.append_inj heq hlen
      intro b hb
      rcases List.mem_cons.mp hb with rfl | hb
      · exact hhead
      · exact ih hl htail b hb
  · rw [List.flatMap_def, List.flatMap_def, List.map_congr_left heq]

end FlatMap

end CodexOne.Lines
