import Mathlib.Algebra.GroupWithZero.Nat
import Mathlib.Data.List.Infix
import Mathlib.Data.List.Nodup
import Mathlib.Data.List.Perm.Subperm
import Mathlib.Tactic.Common

/-! # Longest suffixes and occurrences

The mathematics behind matching several patterns at once. A matcher remembers the longest suffix
of what it has read that can still become a pattern. If the words it may remember are closed under
taking fronts, reading one more item needs only the remembered word and, while that word cannot be
extended, its own longest proper suffix among them.

`IsLongest` is the length of the longest pattern that ends a text, and `Covered` says that a
position lies inside an occurrence of a pattern. Reading a text item by item, the longest pattern
that ends at each item decides which positions are covered. -/

namespace ProvenanceRunner.Suffixes

universe u

variable {α : Type u}

/-- The longest suffix with a property, and the empty list where no other has it. -/
def longestSuffix (member : List α → Bool) : List α → List α
  | [] => []
  | item :: rest => if member (item :: rest) then item :: rest else longestSuffix member rest

variable (member : List α → Bool) (patterns : List (List α)) (text : List α)

theorem longestSuffix_suffix :
    longestSuffix member text <:+ text := by
  induction text with
  | nil => exact List.suffix_rfl
  | cons item rest ih =>
    simp only [longestSuffix]
    split
    · exact List.suffix_rfl
    · exact ih.trans (List.suffix_cons item rest)

theorem longestSuffix_member (root : member [] = true) (text : List α) :
    member (longestSuffix member text) = true := by
  induction text with
  | nil => exact root
  | cons item rest ih =>
    simp only [longestSuffix]
    split
    · assumption
    · exact ih

/-- Every suffix with the property is a suffix of the longest one. -/
theorem suffix_longestSuffix (text part : List α) (ends : part <:+ text)
    (isMember : member part = true) : part <:+ longestSuffix member text := by
  induction text with
  | nil => exact ends
  | cons item rest ih =>
    simp only [longestSuffix]
    split
    · exact ends
    rename_i other
    rcases List.suffix_cons_iff.mp ends with rfl | later
    · exact absurd isMember other
    · exact ih later

theorem longestSuffix_of_member (isMember : member text = true) :
    longestSuffix member text = text := by
  cases text with
  | nil => rfl
  | cons => simp [longestSuffix, isMember]

/-- The longest suffix is the one no other exceeds. -/
theorem longestSuffix_unique (root : member [] = true) (text part : List α) (ends : part <:+ text)
    (isMember : member part = true)
    (longest : ∀ other, other <:+ text → member other = true → other <:+ part) :
    longestSuffix member text = part := by
  have above := suffix_longestSuffix member text part ends isMember
  have below := longest _ (longestSuffix_suffix member text) (longestSuffix_member member root text)
  exact below.eq_of_length (Nat.le_antisymm below.length_le above.length_le)

/-- Reading one more item needs only the remembered suffix. -/
theorem longestSuffix_snoc (root : member [] = true)
    (closed : ∀ word item, member (word ++ [item]) = true → member word = true) (text : List α)
    (item : α) :
    longestSuffix member (text ++ [item]) =
      longestSuffix member (longestSuffix member text ++ [item]) := by
  apply longestSuffix_unique member root
  · have inner := longestSuffix_suffix member (longestSuffix member text ++ [item])
    obtain ⟨front, split⟩ := longestSuffix_suffix member text
    refine inner.trans ⟨front, ?_⟩
    rw [← List.append_assoc, split]
  · exact longestSuffix_member member root _
  intro other ends isMember
  apply suffix_longestSuffix _ _ _ _ isMember
  rcases List.eq_nil_or_concat other with rfl | ⟨front, last, rfl⟩
  · exact List.nil_suffix
  rw [List.concat_eq_append] at ends isMember ⊢
  obtain ⟨rest, split⟩ := ends
  rw [← List.append_assoc] at split
  obtain ⟨same, rfl⟩ := List.append_singleton_inj.mp split
  have inside : front <:+ text := ⟨rest, same⟩
  obtain ⟨between, whole⟩ :=
    suffix_longestSuffix member text front inside (closed front last isMember)
  exact ⟨between, by rw [← List.append_assoc, whole]⟩

/-- Where the remembered word cannot be extended, its longest proper suffix takes its place. -/
theorem longestSuffix_fallBack (root : member [] = true)
    (closed : ∀ word item, member (word ++ [item]) = true → member word = true) (word : List α)
    (item : α) (nonempty : word ≠ []) (stuck : member (word ++ [item]) = false) :
    longestSuffix member (word ++ [item]) =
      longestSuffix member (longestSuffix member word.tail ++ [item]) := by
  rw [← longestSuffix_snoc member root closed]
  cases word with
  | nil => exact absurd rfl nonempty
  | cons =>
    rw [List.cons_append] at stuck ⊢
    simp [longestSuffix, stuck]

/-- The length of the longest pattern that ends a text, zero where none does. -/
structure IsLongest (patterns : List (List α)) (text : List α) (length : Nat) : Prop where
  bound : ∀ pattern ∈ patterns, pattern <:+ text → pattern.length ≤ length
  reached : length = 0 ∨ ∃ pattern ∈ patterns, pattern <:+ text ∧ pattern.length = length

theorem IsLongest.congr {patterns : List (List α)} {text other : List α} {length : Nat}
    (same : ∀ pattern ∈ patterns, (pattern <:+ text ↔ pattern <:+ other))
    (longest : IsLongest patterns text length) : IsLongest patterns other length where
  bound pattern isPattern ends :=
    longest.bound pattern isPattern ((same pattern isPattern).mpr ends)
  reached := longest.reached.imp id fun ⟨pattern, isPattern, ends, length⟩ =>
    ⟨pattern, isPattern, (same pattern isPattern).mp ends, length⟩

/-- Patterns that end a text end the remembered suffix. -/
theorem isLongest_longestSuffix (members : ∀ pattern ∈ patterns, member pattern = true)
    (text : List α) (length : Nat) :
    IsLongest patterns (longestSuffix member text) length ↔ IsLongest patterns text length := by
  have same : ∀ pattern ∈ patterns,
      (pattern <:+ longestSuffix member text ↔ pattern <:+ text) := by
    intro pattern isPattern
    constructor
    · intro ends
      exact ends.trans (longestSuffix_suffix member text)
    · intro ends
      exact suffix_longestSuffix member text pattern ends (members pattern isPattern)
  exact ⟨.congr same, .congr fun pattern isPattern => (same pattern isPattern).symm⟩

/-- A word's longest pattern is the word itself or the longest pattern of its longest proper
suffix. -/
theorem isLongest_step [DecidableEq α] (member : List α → Bool) (patterns : List (List α))
    (members : ∀ pattern ∈ patterns, member pattern = true) (word : List α) (nonempty : word ≠ [])
    (own inherited : Nat) (isOwn : own = if word ∈ patterns then word.length else 0)
    (isInherited : IsLongest patterns (longestSuffix member word.tail) inherited) :
    IsLongest patterns word (max own inherited) := by
  rw [isLongest_longestSuffix member patterns members] at isInherited
  cases word with
  | nil => exact absurd rfl nonempty
  | cons head tail =>
    rw [List.tail_cons] at isInherited
    constructor
    · intro pattern isPattern ends
      rcases List.suffix_cons_iff.mp ends with rfl | later
      · rw [isOwn, if_pos isPattern]
        exact Nat.le_max_left _ _
      · exact (isInherited.bound pattern isPattern later).trans (Nat.le_max_right _ _)
    · rcases Nat.le_total own inherited with below | above
      · rw [Nat.max_eq_right below]
        exact isInherited.reached.imp id fun ⟨pattern, isPattern, ends, length⟩ =>
          ⟨pattern, isPattern, ends.trans (List.suffix_cons head tail), length⟩
      · rw [Nat.max_eq_left above]
        by_cases isPattern : head :: tail ∈ patterns
        · right
          exact ⟨head :: tail, isPattern, List.suffix_rfl, by rw [isOwn, if_pos isPattern]⟩
        · left
          rw [isOwn, if_neg isPattern]

/-- The position lies inside an occurrence of a pattern in the text. -/
def Covered (patterns : List (List α)) (text : List α) (position : Nat) : Prop :=
  ∃ pattern ∈ patterns, ∃ before after, text = before ++ pattern ++ after ∧
    before.length ≤ position ∧ position < before.length + pattern.length

theorem not_covered_nil (position : Nat) : ¬ Covered [] text position := by
  rintro ⟨_, isPattern, _⟩
  cases isPattern

theorem Covered.append {patterns : List (List α)} {text : List α} {position : Nat}
    (covered : Covered patterns text position) (more : List α) :
    Covered patterns (text ++ more) position := by
  obtain ⟨pattern, isPattern, before, after, rfl, starts, stops⟩ := covered
  exact ⟨pattern, isPattern, before, after ++ more, by simp only [List.append_assoc], starts, stops⟩

/-- One more item covers what the longest pattern that ends there covers. -/
theorem covered_snoc (item : α) (length : Nat)
    (longest : IsLongest patterns (text ++ [item]) length) (position : Nat) :
    Covered patterns (text ++ [item]) position ↔
      Covered patterns text position ∨
        text.length + 1 - length ≤ position ∧ position < text.length + 1 := by
  constructor
  · rintro ⟨pattern, isPattern, before, after, whole, starts, stops⟩
    rcases List.eq_nil_or_concat after with rfl | ⟨rest, last, rfl⟩
    · right
      rw [List.append_nil] at whole
      have bound := longest.bound pattern isPattern ⟨before, whole.symm⟩
      have total := congrArg List.length whole
      simp only [List.length_append, List.length_singleton] at total
      omega
    · left
      rw [List.concat_eq_append, ← List.append_assoc] at whole
      obtain ⟨same, _⟩ := List.append_singleton_inj.mp whole
      exact ⟨pattern, isPattern, before, rest, same, starts, stops⟩
  · rintro (covered | ⟨starts, stops⟩)
    · exact covered.append [item]
    rcases longest.reached with zero | ⟨pattern, isPattern, ⟨before, whole⟩, reached⟩
    · omega
    · have total := congrArg List.length whole
      simp only [List.length_append, List.length_singleton] at total
      exact ⟨pattern, isPattern, before, [], by rw [whole, List.append_nil], by omega, by omega⟩

/-- Occurrences over a position end within the length of the longest pattern behind it. -/
theorem covered_append_iff (maximum : Nat) (bound : ∀ pattern ∈ patterns, pattern.length ≤ maximum)
    (text more : List α) (position : Nat) (decided : position + maximum ≤ text.length) :
    Covered patterns (text ++ more) position ↔ Covered patterns text position := by
  constructor
  · rintro ⟨pattern, isPattern, before, after, whole, starts, stops⟩
    have short := bound pattern isPattern
    have inside : before ++ pattern <+: text := by
      apply List.prefix_of_prefix_length_le (List.prefix_append (before ++ pattern) after)
      · rw [← whole]
        exact List.prefix_append text more
      · rw [List.length_append]
        omega
    obtain ⟨rest, rfl⟩ := inside
    exact ⟨pattern, isPattern, before, rest, rfl, starts, stops⟩
  · exact fun covered => covered.append more

section Extensions

variable [DecidableEq α]

/-- How many of the words start with a front. -/
def extensions (words : List (List α)) (front : List α) : Nat :=
  words.countP (fun word => decide (front <+: word))

theorem extensions_pos (words : List (List α)) (front : List α) (isWord : front ∈ words) :
    0 < extensions words front := by
  unfold extensions
  rw [List.countP_pos_iff]
  exact ⟨front, isWord, by simp⟩

/-- A word continues a front with at most one item. -/
theorem countP_continuesle (items : List α) (distinct : items.Nodup) (front word : List α) :
    items.countP (fun item => decide (front ++ [item] <+: word)) +
        (if word = front then 1 else 0) ≤ if front <+: word then 1 else 0 := by
  by_cases starts : front <+: word
  · obtain ⟨rest, rfl⟩ := starts
    cases rest with
    | nil =>
      have none : items.countP (fun item => decide (front ++ [item] <+: front ++ [])) = 0 := by
        rw [List.countP_eq_zero]
        intro item _ longer
        have length := (of_decide_eq_true longer).length_le
        simp only [List.append_nil, List.length_append, List.length_singleton] at length
        omega
      rw [none, if_pos (List.append_nil front), if_pos (List.prefix_append _ _)]
    | cons next rest =>
      have longer : front ++ next :: rest ≠ front := by simp
      have bound : items.countP (fun item => decide (front ++ [item] <+: front ++ next :: rest)) ≤
          items.count next := by
        rw [List.count_eq_countP]
        apply List.countP_mono_left
        intro item _ continues
        have same : [item] <+: next :: rest :=
          (List.prefix_append_right_inj front).mp (of_decide_eq_true continues)
        simpa using (List.cons_prefix_cons.mp same).1
      have once := List.nodup_iff_count_le_one.mp distinct next
      rw [if_neg longer, if_pos (List.prefix_append _ _)]
      omega
  · have none : items.countP (fun item => decide (front ++ [item] <+: word)) = 0 := by
      rw [List.countP_eq_zero]
      intro item _ longer
      exact starts ((List.prefix_append front [item]).trans (of_decide_eq_true longer))
    have other : word ≠ front := by
      rintro rfl
      exact starts List.prefix_rfl
    rw [none, if_neg other, if_neg starts]

/-- The one-item continuations of a word share out its extensions, without the word itself. -/
theorem extensions_children (words : List (List α)) (items : List α) (distinct : items.Nodup)
    (front : List α) :
    (items.map (fun item => extensions words (front ++ [item]))).sum + words.count front ≤
      extensions words front := by
  induction words with
  | nil =>
    have none : (items.map (fun item => extensions [] (front ++ [item]))).sum = 0 := by
      simp [extensions]
    simp [none]
  | cons word rest ih =>
    have shared : (items.map (fun item => extensions (word :: rest) (front ++ [item]))).sum =
        (items.map (fun item => extensions rest (front ++ [item]))).sum +
          items.countP (fun item => decide (front ++ [item] <+: word)) := by
      clear ih distinct
      induction items with
      | nil => simp
      | cons item items inner =>
        simp only [List.map_cons, List.sum_cons, List.countP_cons, inner]
        simp only [extensions, List.countP_cons]
        omega
    have single := countP_continuesle items distinct front word
    simp only [extensions, List.countP_cons, decide_eq_true_eq] at ih shared ⊢
    rw [shared, List.count_cons]
    simp only [beq_iff_eq]
    omega

end Extensions

end ProvenanceRunner.Suffixes
