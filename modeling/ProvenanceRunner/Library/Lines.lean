import Mathlib.Data.List.Basic
import Mathlib.Tactic.Common

/-! # Lists cut into lines

A predicate says which items end a line. `lines` cuts a list after each of them; what follows the
last one is a line of its own, if there is anything. `lines_induction` is induction over the lines
of a list, which is how a stage that restarts at every line is reasoned about. -/

namespace ProvenanceRunner.Lines

universe u

variable {α : Type u}

/-- The lines of a list, each with the item that ends it. -/
def lines (ends : α → Bool) : List α → List (List α)
  | [] => []
  | item :: rest =>
    if ends item then [item] :: lines ends rest
    else match lines ends rest with
      | [] => [[item]]
      | next :: others => (item :: next) :: others

variable (ends : α → Bool) (items : List α)

theorem lines_flatten : (lines ends items).flatten = items := by
  induction items with
  | nil => rfl
  | cons item rest ih =>
    simp only [lines]
    split
    · simp [ih]
    · cases cut : lines ends rest with
      | nil | cons => simpa [cut] using ih

/-- Items that end nothing are one line. -/
theorem lines_open (nonempty : items ≠ []) (quiet : ∀ item ∈ items, ends item = false) :
    lines ends items = [items] := by
  induction items with
  | nil => exact absurd rfl nonempty
  | cons item rest ih =>
    have silent : ends item = false := quiet item (by simp)
    cases rest with
    | nil => simp [lines, silent]
    | cons =>
      have later := ih (by simp) (fun item inside => quiet item (List.mem_cons_of_mem _ inside))
      simp only [lines, silent, Bool.false_eq_true, if_false]
      simp only [lines] at later
      rw [later]

/-- The first line ends at the first item that ends one. -/
theorem lines_append_end (front : List α) (last : α) (rest : List α)
    (quiet : ∀ item ∈ front, ends item = false) (final : ends last = true) :
    lines ends (front ++ last :: rest) = (front ++ [last]) :: lines ends rest := by
  induction front with
  | nil => simp [lines, final]
  | cons item others ih =>
    have silent : ends item = false := quiet item (by simp)
    have later := ih (fun item inside => quiet item (List.mem_cons_of_mem _ inside))
    simp only [List.cons_append, lines, silent, Bool.false_eq_true, if_false, later]

/-- Every list is empty, one unfinished line, or a finished line and a list. -/
theorem lines_cases :
    (∀ item ∈ items, ends item = false) ∨
      ∃ front last rest, items = front ++ last :: rest ∧ (∀ item ∈ front, ends item = false) ∧
        ends last = true := by
  cases found : items.find? ends with
  | none => exact .inl (by simpa using List.find?_eq_none.1 found)
  | some last =>
    obtain ⟨final, front, rest, rfl, quiet⟩ := List.find?_eq_some_iff_append.1 found
    exact .inr ⟨front, last, rest, rfl, by simpa using quiet, final⟩

/-- Induction over the lines of a list. -/
theorem lines_induction {motive : List α → Prop}
    (unfinished : ∀ items, (∀ item ∈ items, ends item = false) → motive items)
    (line : ∀ front last rest, (∀ item ∈ front, ends item = false) → ends last = true →
      motive rest → motive (front ++ last :: rest))
    (items : List α) : motive items := by
  induction length : items.length using Nat.strongRecOn generalizing items with
  | ind count ih =>
    rcases lines_cases ends items with quiet | ⟨front, last, rest, rfl, quiet, final⟩
    · exact unfinished items quiet
    · refine line front last rest quiet final (ih rest.length ?_ rest rfl)
      simp only [List.length_append, List.length_cons] at length
      omega

/-- A line is a nonempty list of items that end nothing, or such a list and the item that ends
it. -/
theorem line_shape (items line : List α) (isLine : line ∈ lines ends items) :
    ∃ body, (∀ item ∈ body, ends item = false) ∧
      ((line = body ∧ body ≠ []) ∨ ∃ last, ends last = true ∧ line = body ++ [last]) := by
  induction items using lines_induction ends with
  | unfinished items quiet =>
    cases items with
    | nil => simp [lines] at isLine
    | cons =>
      rw [lines_open ends _ (by simp) quiet] at isLine
      exact ⟨_, quiet, .inl ⟨List.mem_singleton.1 isLine, by simp⟩⟩
  | line front last rest quiet final ih =>
    rw [lines_append_end ends front last rest quiet final] at isLine
    rcases List.mem_cons.mp isLine with rfl | later
    · exact ⟨front, quiet, .inr ⟨last, final, rfl⟩⟩
    · exact ih later

end ProvenanceRunner.Lines
