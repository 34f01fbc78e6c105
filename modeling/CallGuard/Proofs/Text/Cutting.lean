import CallGuard.Text.Blank
import Mathlib.Data.List.Basic

set_option autoImplicit false

namespace CallGuard

namespace Text

variable {α : Type} [DecidableEq α] {sep : α}

theorem pieces_eq_splitOn (sep : α) (xs : List α) : pieces sep xs = xs.splitOn sep := by
  induction xs with
  | nil => rfl
  | cons x xs ih =>
    obtain ⟨piece, rest, found⟩ := List.exists_cons_of_ne_nil (List.splitOnP_ne_nil (· == sep) xs)
    have cut : pieces sep xs = piece :: rest := ih.trans found
    rw [List.splitOn, List.splitOnP_cons_eq_if_modifyHead, found]
    by_cases here : x = sep <;> simp [pieces, here, cut]

theorem pieces_append (xs ys : List α) :
    pieces sep (xs ++ sep :: ys) = pieces sep xs ++ pieces sep ys := by
  simp only [pieces_eq_splitOn, List.splitOn_append_cons_self]

theorem pieces_of_not_mem {xs : List α} (absent : sep ∉ xs) : pieces sep xs = [xs] := by
  have each : ∀ l ∈ [xs], sep ∉ l := by simpa using absent
  have whole := List.splitOn_intercalate sep each (by simp)
  rwa [List.intercalate_singleton, ← pieces_eq_splitOn] at whole

theorem intercalate_pieces (sep : α) (xs : List α) : [sep].intercalate (pieces sep xs) = xs := by
  rw [pieces_eq_splitOn, List.intercalate_splitOn]

theorem pieces_ne_nil (sep : α) (xs : List α) : pieces sep xs ≠ [] := by
  rw [pieces_eq_splitOn]
  exact List.splitOn_ne_nil sep xs

theorem not_mem_of_mem_pieces {xs piece : List α} (member : piece ∈ pieces sep xs) :
    sep ∉ piece := by
  induction xs generalizing piece with
  | nil => simp_all [pieces]
  | cons x xs ih =>
    obtain ⟨first, rest, cut⟩ := List.exists_cons_of_ne_nil (pieces_ne_nil sep xs)
    rw [cut] at ih
    by_cases here : x = sep
    · rw [pieces, if_pos here, cut, List.mem_cons] at member
      rcases member with rfl | member
      · exact List.not_mem_nil
      · exact ih member
    · simp only [pieces, if_neg here, cut, List.mem_cons] at member
      rcases member with rfl | member
      · simp [ih List.mem_cons_self, Ne.symm here]
      · exact ih (List.mem_cons_of_mem _ member)

theorem pieces_intercalate {values : List (List α)} (present : values ≠ []) :
    pieces sep ([sep].intercalate values) = values.flatMap (pieces sep) := by
  induction values with
  | nil => cases present rfl
  | cons value rest ih =>
    cases rest with
    | nil => simp
    | cons next rest =>
      have later := ih (List.cons_ne_nil next rest)
      rw [List.intercalate_cons_cons, List.flatMap_cons, ← later, List.append_assoc]
      exact pieces_append value _

end Text

structure Stripped {α : Type} (p : α → Bool) (xs inner : List α) : Prop where
  cut : ∃ before after, xs = before ++ inner ++ after ∧ before.all p = true ∧ after.all p = true
  starts : ∀ a ∈ inner.head?, p a = false
  ends : ∀ a ∈ inner.getLast?, p a = false

theorem dropWhile_starts {α : Type} (p : α → Bool) (xs : List α) :
    ∀ a ∈ (xs.dropWhile p).head?, p a = false := by
  intro a first
  have stops := List.head?_dropWhile_not p xs
  rw [Option.mem_def.1 first] at stops
  exact stops

theorem stripped_stripBy {α : Type} (p : α → Bool) (xs : List α) :
    Stripped p xs (Text.stripBy p xs) := by
  have front : xs.takeWhile p ++ xs.dropWhile p = xs := List.takeWhile_append_dropWhile
  generalize rest : xs.dropWhile p = ys at front
  have back : ys.reverse.takeWhile p ++ ys.reverse.dropWhile p = ys.reverse :=
    List.takeWhile_append_dropWhile
  have whole : Text.stripBy p xs ++ (ys.reverse.takeWhile p).reverse = ys := by
    rw [Text.stripBy, rest, ← List.reverse_append, back, List.reverse_reverse]
  refine ⟨⟨xs.takeWhile p, (ys.reverse.takeWhile p).reverse, ?_, List.all_takeWhile, ?_⟩, ?_, ?_⟩
  · rw [List.append_assoc, whole, front]
  · rw [List.all_reverse]
    exact List.all_takeWhile
  · intro a first
    apply dropWhile_starts p xs
    rw [rest, ← whole, Option.mem_def, List.head?_append, Option.mem_def.1 first, Option.some_or]
  · intro a last
    rw [Text.stripBy, List.getLast?_reverse] at last
    exact dropWhile_starts p _ a last

theorem dropWhile_boundary {α : Type} {p : α → Bool} {taken rest : List α}
    (front : taken.all p = true) (starts : ∀ a ∈ rest.head?, p a = false) :
    (taken ++ rest).dropWhile p = rest := by
  rw [List.dropWhile_append_of_pos (List.all_eq_true.1 front)]
  cases rest with
  | nil => rfl
  | cons a as => exact List.dropWhile_cons_of_neg (by simp [starts a rfl])

theorem Stripped.eq_stripBy {α : Type} {p : α → Bool} {xs inner : List α}
    (stripped : Stripped p xs inner) : Text.stripBy p xs = inner := by
  obtain ⟨⟨before, after, rfl, front, back⟩, starts, ends⟩ := stripped
  cases inner with
  | nil =>
    have taken : (before ++ after).all p = true := by
      rw [List.all_append, front, back, Bool.and_self]
    have nothing : (before ++ after ++ []).dropWhile p = [] := dropWhile_boundary taken (by simp)
    rw [List.append_nil] at nothing
    simp [Text.stripBy, nothing]
  | cons c cs =>
    have forwards : (before ++ (c :: cs ++ after)).dropWhile p = c :: cs ++ after :=
      dropWhile_boundary front starts
    have reversed : after.reverse.all p = true := by rwa [List.all_reverse]
    have backwards : (after.reverse ++ (c :: cs).reverse).dropWhile p = (c :: cs).reverse := by
      apply dropWhile_boundary reversed
      rwa [← List.getLast?_eq_head?_reverse]
    rw [Text.stripBy, List.append_assoc, forwards, List.reverse_append, backwards,
      List.reverse_reverse]

end CallGuard
