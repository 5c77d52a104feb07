import Mathlib.Data.List.Basic
import Mathlib.Data.List.TakeWhile

/-!
# Words and lines

A list is cut at separators.  Its words are the pieces that are not empty.  `Spells` says the same
without cutting: the words in order, with separators around them and at least one between two of
them (`spells_words`, `Spells.words_eq`).

A line ends with a newline, or a carriage return and a newline.  What follows the last newline is
a line if it is not empty.
-/

namespace Words

variable {α : Type*} (sep : α → Bool)

/-- What is between the separators, where there is something. -/
def words (l : List α) : List (List α) := (l.splitOnP sep).filter fun w => !w.isEmpty

/-- A list without the separators around it. -/
def trim (l : List α) : List α := ((l.dropWhile sep).reverse.dropWhile sep).reverse

/-- A list that spells some words. -/
inductive Spells : List (List α) → List α → Prop where
  | blank {gap : List α} (hgap : ∀ x ∈ gap, sep x = true) : Spells [] gap
  | word {gap w rest : List α} {ws : List (List α)} (hgap : ∀ x ∈ gap, sep x = true)
      (hne : w ≠ []) (hw : ∀ x ∈ w, sep x = false) (hrest : ∀ x ∈ rest.head?, sep x = true)
      (h : Spells ws rest) : Spells (w :: ws) (gap ++ (w ++ rest))

variable {sep}

theorem words_append_cons (l : List α) {x : α} (hx : sep x = true) (rest : List α) :
    words sep (l ++ x :: rest) = words sep l ++ words sep rest := by
  rw [words, List.splitOnP_append_cons l rest hx, List.filter_append]
  rfl

@[simp] theorem words_nil : words sep [] = [] := rfl

theorem words_cons {x : α} (hx : sep x = true) (rest : List α) :
    words sep (x :: rest) = words sep rest :=
  words_append_cons [] hx rest

theorem words_of_forall_not {w : List α} (hne : w ≠ []) (hw : ∀ x ∈ w, sep x = false) :
    words sep w = [w] := by
  rw [words, List.splitOnP_eq_singleton hw]
  cases w with
  | nil => exact absurd rfl hne
  | cons x w => rfl

theorem words_gap_append {gap : List α} (hgap : ∀ x ∈ gap, sep x = true) (l : List α) :
    words sep (gap ++ l) = words sep l := by
  induction gap with
  | nil => rfl
  | cons x gap ih =>
      obtain ⟨hx, hgap⟩ := List.forall_mem_cons.mp hgap
      rw [List.cons_append, words_cons hx, ih hgap]

theorem words_append_gap {gap : List α} (hgap : ∀ x ∈ gap, sep x = true) (l : List α) :
    words sep (l ++ gap) = words sep l := by
  cases gap with
  | nil => rw [List.append_nil]
  | cons x gap =>
      obtain ⟨hx, hgap⟩ := List.forall_mem_cons.mp hgap
      have hnone := words_gap_append hgap []
      rw [List.append_nil] at hnone
      rw [words_append_cons l hx, hnone, words_nil, List.append_nil]

theorem words_dropWhile (l : List α) : words sep (l.dropWhile sep) = words sep l := by
  have hgap : ∀ x ∈ l.takeWhile sep, sep x = true := fun _ hx => List.mem_takeWhile_imp hx
  have hwords := words_gap_append hgap (l.dropWhile sep)
  rw [List.takeWhile_append_dropWhile] at hwords
  exact hwords.symm

theorem words_trim (l : List α) : words sep (trim sep l) = words sep l := by
  set rest := (l.dropWhile sep).reverse
  have hgap : ∀ x ∈ (rest.takeWhile sep).reverse, sep x = true := fun _ hx =>
    List.mem_takeWhile_imp (List.mem_reverse.mp hx)
  have hwords := words_append_gap hgap (rest.dropWhile sep).reverse
  rw [← List.reverse_append, List.takeWhile_append_dropWhile, List.reverse_reverse] at hwords
  exact hwords.symm.trans (words_dropWhile l)

theorem Spells.words_eq {ws : List (List α)} {l : List α} (h : Spells sep ws l) :
    words sep l = ws := by
  induction h with
  | blank hgap =>
      have hwords := words_gap_append hgap []
      rwa [List.append_nil] at hwords
  | @word gap w rest ws hgap hne hw hrest h ih =>
      rw [words_gap_append hgap]
      cases rest with
      | nil =>
          rw [List.append_nil, words_of_forall_not hne hw, ← ih]
          rfl
      | cons x rest =>
          have hx := hrest x rfl
          rw [words_append_cons w hx, words_of_forall_not hne hw, ← ih, words_cons hx]
          rfl

/-- Every list spells its words. -/
theorem spells_words (l : List α) : Spells sep (words sep l) l := by
  induction hn : l.length using Nat.strongRecOn generalizing l with
  | ind n ih =>
      obtain ⟨gap, l', rfl, hgap, hl'⟩ : ∃ gap l', l = gap ++ l' ∧ (∀ x ∈ gap, sep x = true) ∧
          ∀ x ∈ l'.head?, sep x = false := by
        refine ⟨l.takeWhile sep, l.dropWhile sep, List.takeWhile_append_dropWhile.symm,
          fun x hx => List.mem_takeWhile_imp hx, fun x hx => ?_⟩
        have hhead := List.head?_dropWhile_not sep l
        rw [Option.mem_def.mp hx] at hhead
        exact hhead
      rw [words_gap_append hgap]
      cases l' with
      | nil =>
          rw [List.append_nil]
          exact .blank hgap
      | cons x l' =>
          have hx := hl' x rfl
          obtain ⟨w, rest, hsplit, hw, hrest⟩ : ∃ w rest, l' = w ++ rest ∧
              (∀ y ∈ w, sep y = false) ∧ ∀ y ∈ rest.head?, sep y = true := by
            refine ⟨l'.takeWhile (!sep ·), l'.dropWhile (!sep ·),
              List.takeWhile_append_dropWhile.symm, fun y hy => ?_, fun y hy => ?_⟩
            · simpa using List.mem_takeWhile_imp hy
            · have hhead := List.head?_dropWhile_not (!sep ·) l'
              rw [Option.mem_def.mp hy] at hhead
              simpa using hhead
          subst hsplit
          have hword : ∀ y ∈ x :: w, sep y = false := List.forall_mem_cons.mpr ⟨hx, hw⟩
          have hlen : rest.length < n := by
            simp only [List.length_append, List.length_cons] at hn
            omega
          have hspells := Spells.word hgap (List.cons_ne_nil x w) hword hrest (ih _ hlen rest rfl)
          have hwords := (@Spells.word α sep [] (x :: w) rest _ nofun (List.cons_ne_nil x w) hword
            hrest (ih _ hlen rest rfl)).words_eq
          rw [List.nil_append, List.cons_append] at hwords
          rwa [← hwords] at hspells

/-! ## Lines -/

section

variable [DecidableEq α] (newline carriageReturn : α)

/-- A line without the carriage return at its end. -/
def stripReturn (line : List α) : List α :=
  if line.getLast? = some carriageReturn then line.dropLast else line

/-- The pieces between newlines, without what follows the last one if that is empty. -/
def lines (l : List α) : List (List α) :=
  let pieces := l.splitOnP (· = newline)
  pieces.dropLast.map (stripReturn carriageReturn) ++ (pieces.getLast?.filter (· ≠ [])).toList

variable {newline carriageReturn}

@[simp] theorem lines_nil : lines newline carriageReturn [] = [] := rfl

/-- The first line and the lines after it. -/
theorem lines_append_cons {line : List α} (hline : newline ∉ line) (rest : List α) :
    lines newline carriageReturn (line ++ newline :: rest) =
      stripReturn carriageReturn line :: lines newline carriageReturn rest := by
  have hone : line.splitOnP (· = newline) = [line] :=
    List.splitOnP_eq_singleton fun x hx => decide_eq_false fun heq => hline (heq ▸ hx)
  have hpieces : (line ++ newline :: rest).splitOnP (· = newline) =
      line :: rest.splitOnP (· = newline) := by
    rw [List.splitOnP_append_cons line rest (decide_eq_true rfl), hone]
    rfl
  obtain ⟨piece, pieces, hrest⟩ :=
    List.exists_cons_of_ne_nil (List.splitOnP_ne_nil (· = newline) rest)
  rw [lines, lines, hpieces, hrest]
  rfl

/-- A text whose lines all end. -/
theorem lines_flatMap : ∀ {ls : List (List α × Bool)}, (∀ l ∈ ls, newline ∉ l.1) →
    (∀ l ∈ ls, l.1.getLast? ≠ some carriageReturn) → newline ≠ carriageReturn →
      lines newline carriageReturn
        (ls.flatMap fun l => l.1 ++ (if l.2 then [carriageReturn] else []) ++ [newline]) =
          ls.map Prod.fst
  | [], _, _, _ => rfl
  | (line, withReturn) :: ls, hlines, hends, hne => by
      obtain ⟨hline, hlines⟩ := List.forall_mem_cons.mp hlines
      obtain ⟨hend, hends⟩ := List.forall_mem_cons.mp hends
      have hrest := lines_flatMap hlines hends hne
      rw [List.flatMap_cons, List.append_assoc, List.singleton_append]
      cases withReturn with
      | true =>
          have hline' : newline ∉ line ++ [carriageReturn] := fun hmem =>
            (List.mem_append.mp hmem).elim hline fun h => hne (List.mem_singleton.mp h)
          rw [if_pos rfl, lines_append_cons hline', stripReturn, if_pos List.getLast?_concat,
            List.dropLast_concat, hrest]
          rfl
      | false =>
          rw [if_neg Bool.false_ne_true, List.append_nil, lines_append_cons hline, stripReturn,
            if_neg hend, hrest]
          rfl

end

end Words
