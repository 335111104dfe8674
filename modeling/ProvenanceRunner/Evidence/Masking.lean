import Mathlib.Data.List.Fold
import Mathlib.Data.List.MinMax
import ProvenanceRunner.Evidence.Automaton
import ProvenanceRunner.Evidence.Redactor

/-! # What the redactor masks

The redactor masks a byte exactly when the byte lies inside an occurrence of a pattern. `Holding`
is its invariant while it reads: the ring holds the bytes not released yet, and the queued
intervals mark, from the next byte to release on, the positions covered so far. A byte leaves when
as many bytes as the longest pattern has follow it, and by then no further occurrence can reach
back to it. -/

namespace ProvenanceRunner.Evidence

open Utf8 Suffixes

variable {text : Bytes} {redactor : SecretRedactor} {cells : List Cell}

/-- The position lies inside one of the intervals. -/
def Marked (intervals : List MatchInterval) (position : Nat) : Prop :=
  ∃ interval ∈ intervals, interval.start ≤ position ∧ position < interval.stop

/-- Intervals in order, none empty and no two that touch. -/
def Apart (intervals : List MatchInterval) : Prop :=
  intervals.Pairwise (fun interval later => interval.stop < later.start) ∧
    ∀ interval ∈ intervals, interval.start < interval.stop

theorem apart_reverse {intervals : List MatchInterval} : Apart intervals.reverse ↔
    intervals.Pairwise (fun interval earlier => earlier.stop < interval.start) ∧
      ∀ interval ∈ intervals, interval.start < interval.stop := by
  simp only [Apart, List.pairwise_reverse, List.mem_reverse]

/-- Merging an interval that ends last into a queue written last first. -/
theorem mergeInterval_spec (interval : MatchInterval) (queue : List MatchInterval)
    (apart : Apart queue.reverse) (ends : ∀ earlier ∈ queue, earlier.stop ≤ interval.stop)
    (nonempty : interval.start < interval.stop) :
    Apart (mergeInterval interval queue).reverse ∧
      (∀ merged ∈ mergeInterval interval queue, merged.stop ≤ interval.stop) ∧
      ∀ position, Marked (mergeInterval interval queue) position ↔
        Marked queue position ∨ interval.start ≤ position ∧ position < interval.stop := by
  rw [apart_reverse] at apart ⊢
  induction queue generalizing interval with
  | nil =>
    refine ⟨⟨List.pairwise_singleton _ _, List.forall_mem_singleton.mpr nonempty⟩,
      List.forall_mem_singleton.mpr (Nat.le_refl _), ?_⟩
    intro position
    simp [mergeInterval, Marked]
  | cons last earlier ih =>
    obtain ⟨ordered, proper⟩ := apart
    obtain ⟨behind, earlierOrdered⟩ := List.pairwise_cons.mp ordered
    obtain ⟨lastProper, earlierProper⟩ := List.forall_mem_cons.mp proper
    obtain ⟨lastEnds, earlierEnds⟩ := List.forall_mem_cons.mp ends
    simp only [mergeInterval]
    split
    · rename_i touches
      obtain ⟨apart, bounds, marks⟩ := ih ⟨min interval.start last.start, interval.stop⟩
        ⟨earlierOrdered, earlierProper⟩ earlierEnds
        (Nat.lt_of_le_of_lt (Nat.min_le_left _ _) nonempty)
      refine ⟨apart, bounds, ?_⟩
      intro position
      rw [marks]
      simp only [Marked, List.mem_cons, exists_eq_or_imp]
      constructor
      · rintro (marked | inside)
        · exact Or.inl (Or.inr marked)
        by_cases before : position < last.stop
        · by_cases after : last.start ≤ position
          · exact Or.inl (Or.inl ⟨after, before⟩)
          · right
            omega
        · right
          omega
      · rintro ((inside | marked) | inside)
        · right
          omega
        · exact Or.inl marked
        · right
          omega
    · rename_i gap
      refine ⟨⟨List.pairwise_cons.mpr ⟨?_, ordered⟩, List.forall_mem_cons.mpr ⟨nonempty, proper⟩⟩,
        List.forall_mem_cons.mpr ⟨Nat.le_refl _, ends⟩, ?_⟩
      · refine List.forall_mem_cons.mpr ⟨by omega, fun before isBefore => ?_⟩
        have far := behind before isBefore
        omega
      · intro position
        simp only [Marked, List.mem_cons, exists_eq_or_imp]
        exact or_comm

theorem marked_reverse (intervals : List MatchInterval) (position : Nat) :
    Marked intervals.reverse position ↔ Marked intervals position := by
  simp only [Marked, List.mem_reverse]

/-- Recording a match of some length that ends where reading stands; one of length zero is none. -/
theorem recorded_spec (intervals : List MatchInterval) (apart : Apart intervals) (read length : Nat)
    (ends : ∀ interval ∈ intervals, interval.stop ≤ read) (within : length ≤ read) :
    let recorded := if length ≠ 0 then
      (mergeInterval ⟨read - length, read⟩ intervals.reverse).reverse else intervals
    Apart recorded ∧ (∀ interval ∈ recorded, interval.stop ≤ read) ∧
      ∀ position, Marked recorded position ↔
        Marked intervals position ∨ read - length ≤ position ∧ position < read := by
  by_cases nothing : length = 0
  · rw [if_neg (not_not.mpr nothing)]
    refine ⟨apart, ends, fun position => ?_⟩
    constructor
    · exact Or.inl
    · rintro (marked | inside)
      · exact marked
      · omega
  · rw [if_pos nothing]
    obtain ⟨apart, bounds, marks⟩ := mergeInterval_spec ⟨read - length, read⟩ intervals.reverse
      (by rw [List.reverse_reverse]; exact apart)
      (fun earlier isEarlier => ends earlier (List.mem_reverse.mp isEarlier))
      (by simp only; omega)
    refine ⟨apart, fun interval isInterval => bounds interval (List.mem_reverse.mp isInterval), ?_⟩
    intro position
    rw [marked_reverse, marks, marked_reverse]

/-- Dropping the intervals that ended loses no mark from there on, and the first one left tells
whether the next position is marked. -/
theorem dropWhile_spec (intervals : List MatchInterval) (apart : Apart intervals) (next : Nat) :
    let left := intervals.dropWhile (fun interval => interval.stop ≤ next)
    Apart left ∧ (∀ position, next ≤ position →
      (Marked left position ↔ Marked intervals position)) ∧
      ((match left with
        | [] => false
        | interval :: _ => decide (interval.start ≤ next)) = true ↔ Marked intervals next) := by
  induction intervals with
  | nil =>
    refine ⟨apart, fun _ _ => Iff.rfl, ?_⟩
    simp [Marked]
  | cons first rest ih =>
    obtain ⟨ordered, proper⟩ := apart
    have firstProper := proper first List.mem_cons_self
    by_cases ended : first.stop ≤ next
    · have restApart : Apart rest :=
        ⟨List.Pairwise.of_cons ordered, fun interval isLater =>
          proper interval (List.mem_cons_of_mem _ isLater)⟩
      obtain ⟨apart, marks, masked⟩ := ih restApart
      have skip : ∀ position, next ≤ position →
          (Marked (first :: rest) position ↔ Marked rest position) := by
        intro position behind
        simp only [Marked, List.mem_cons, exists_eq_or_imp]
        constructor
        · rintro (inside | marked)
          · omega
          · exact marked
        · exact Or.inr
      intro left
      have same : left = rest.dropWhile (fun interval => interval.stop ≤ next) := by
        simp only [left, List.dropWhile_cons, decide_eq_true_eq, if_pos ended]
      rw [same]
      refine ⟨apart, ?_, ?_⟩
      · intro position behind
        rw [marks position behind, skip position behind]
      · rw [skip next (Nat.le_refl _)]
        exact masked
    · intro left
      have same : left = first :: rest := by
        simp only [left, List.dropWhile_cons, decide_eq_true_eq, if_neg ended]
      rw [same]
      refine ⟨⟨ordered, proper⟩, fun _ _ => Iff.rfl, ?_⟩
      rw [decide_eq_true_eq]
      constructor
      · intro starts
        exact ⟨first, List.mem_cons_self, starts, by omega⟩
      rintro ⟨interval, isInterval, starts, _⟩
      rcases List.mem_cons.mp isInterval with rfl | later
      · exact starts
      · have far := List.rel_of_pairwise_cons ordered later
        omega

namespace SecretRedactor

/-- The redactor has read the text and released the first of its bytes. -/
structure Holding (keys : List Bytes) (text : Bytes) (redactor : SecretRedactor) : Prop where
  state : redactor.state = text.foldl redactor.patterns.advance 0
  size : redactor.pending.length = redactor.patterns.maximum
  positive : 0 < redactor.patterns.maximum
  read : redactor.read = text.length
  written : redactor.written ≤ text.length
  room : text.length ≤ redactor.written + redactor.patterns.maximum
  ring : ∀ position value, redactor.written ≤ position → text[position]? = some value →
    redactor.pending[position % redactor.patterns.maximum]? = some value
  apart : Apart redactor.intervals
  ended : ∀ interval ∈ redactor.intervals, interval.stop ≤ text.length
  marks : ∀ position, redactor.written ≤ position →
    (Marked redactor.intervals position ↔ Covered keys text position)

/-- Releasing a byte: it is the next one of the text and masked exactly when it is covered. -/
theorem Holding.emitNext {keys : List Bytes}
    (holding : Holding keys text redactor) (some : redactor.written < text.length) :
    Holding keys text redactor.emitNext.1 ∧
      redactor.emitNext.1.patterns = redactor.patterns ∧
      redactor.emitNext.1.written = redactor.written + 1 ∧
      ∃ cell, redactor.emitNext.2 = [cell] ∧ text[redactor.written]? = Option.some cell.value ∧
        (cell.masked = true ↔ Covered keys text redactor.written) := by
  obtain ⟨apart, marks, masked⟩ := dropWhile_spec redactor.intervals holding.apart redactor.written
  refine ⟨?_, rfl, rfl, _, rfl, ?_, ?_⟩
  · constructor
    · exact holding.state
    · exact holding.size
    · exact holding.positive
    · exact holding.read
    · exact some
    · have room := holding.room
      simp only [SecretRedactor.emitNext]
      omega
    · intro position value behind found
      simp only [SecretRedactor.emitNext] at behind ⊢
      exact holding.ring position value (by omega) found
    · exact apart
    · intro interval isLeft
      exact holding.ended interval ((List.dropWhile_sublist _).subset isLeft)
    · intro position behind
      simp only [SecretRedactor.emitNext] at behind ⊢
      rw [marks position (by omega), holding.marks position (by omega)]
  · have found : text[redactor.written]? = Option.some text[redactor.written] :=
      List.getElem?_eq_getElem some
    have held := holding.ring redactor.written _ (Nat.le_refl _) found
    rw [found, holding.size, List.getD_eq_getElem?_getD, held, Option.getD_some]
  · rw [← holding.marks redactor.written (Nat.le_refl _)]
    exact masked

/-- Reading a byte, with room for it in the ring. -/
theorem Holding.accept {keys words : List Bytes}
    (automaton : redactor.patterns.Automaton words keys) (holding : Holding keys text redactor)
    (room : text.length < redactor.written + redactor.patterns.maximum) (value : UInt8) :
    Holding keys (text ++ [value]) (redactor.accept value) := by
  have state : (redactor.accept value).state =
      (text ++ [value]).foldl redactor.patterns.advance 0 := by
    rw [List.foldl_append, ← holding.state]
    rfl
  have longest := automaton.longest (text ++ [value])
  rw [← state] at longest
  have covers := covered_snoc keys text value _ longest
  have length : (redactor.patterns.node (redactor.accept value).state).longest ≤
      text.length + 1 := by
    rcases longest.reached with zero | ⟨key, _, ends, reached⟩
    · omega
    · have bound := ends.length_le
      rw [List.length_append, List.length_singleton] at bound
      omega
  have merged := recorded_spec redactor.intervals holding.apart (text.length + 1) _
    (fun interval isInterval => Nat.le_succ_of_le (holding.ended interval isInterval)) length
  rw [← holding.read] at merged
  constructor
  · exact state
  · simp only [SecretRedactor.accept, List.length_set]
    exact holding.size
  · exact holding.positive
  · simp only [SecretRedactor.accept, holding.read, List.length_append, List.length_singleton]
  · rw [List.length_append]
    exact Nat.le_add_right_of_le holding.written
  · rw [List.length_append, List.length_singleton]
    exact room
  · intro position other behind found
    have written : redactor.written ≤ position := behind
    simp only [SecretRedactor.accept, holding.read, holding.size]
    rcases Threads.getElem?_snoc.mp found with before | ⟨rfl, rfl⟩
    · have inside := (List.getElem?_eq_some_iff.mp before).1
      have distinct : ¬ text.length % redactor.patterns.maximum =
          position % redactor.patterns.maximum := by
        intro same
        have divides := Nat.dvd_of_mod_eq_zero (Nat.sub_mod_eq_zero_of_mod_eq same)
        have far := Nat.le_of_dvd (by omega) divides
        omega
      rw [List.getElem?_set_ne distinct]
      exact holding.ring position other written before
    · have inside : text.length % redactor.patterns.maximum < redactor.pending.length := by
        rw [holding.size]
        exact Nat.mod_lt _ holding.positive
      rw [List.getElem?_set_self inside]
  · exact merged.1
  · intro interval isInterval
    rw [List.length_append, List.length_singleton, ← holding.read]
    exact merged.2.1 interval isInterval
  · intro position behind
    have written : redactor.written ≤ position := behind
    rw [covers, ← holding.marks position written, ← holding.read]
    exact merged.2.2 position

end SecretRedactor

/-- Cells for the first bytes of a text, masked exactly where the text is covered. -/
structure Released (keys : List Bytes) (text : Bytes) (cells : List Cell) : Prop where
  values : cells.map Cell.value = text.take cells.length
  masks : ∀ position cell, cells[position]? = some cell →
    (cell.masked = true ↔ Covered keys text position)

theorem Released.snoc {keys : List Bytes}
    (released : Released keys text cells) (cell : Cell)
    (value : text[cells.length]? = some cell.value)
    (mask : cell.masked = true ↔ Covered keys text cells.length) :
    Released keys text (cells ++ [cell]) := by
  constructor
  · rw [List.map_append, released.values, List.length_append, List.length_singleton,
      List.take_add_one, value]
    rfl
  · intro position other found
    rcases Threads.getElem?_snoc.mp found with before | ⟨rfl, rfl⟩
    · exact released.masks position other before
    · exact mask

/-- Reading on leaves the cells right for which every occurrence was seen. -/
theorem Released.append {keys : List Bytes}
    (released : Released keys text cells) (maximum : Nat)
    (bound : ∀ key ∈ keys, key.length ≤ maximum)
    (decided : ∀ position, position < cells.length → position + maximum ≤ text.length)
    (more : Bytes) : Released keys (text ++ more) cells := by
  constructor
  · rw [released.values]
    rcases Nat.eq_zero_or_pos cells.length with none | some
    · rw [none, List.take_zero, List.take_zero]
    have last := decided (cells.length - 1) (by omega)
    rw [List.take_append_of_le_length]
    have counted := congrArg List.length released.values
    rw [List.length_map, List.length_take] at counted
    omega
  · intro position cell found
    have inside := (List.getElem?_eq_some_iff.mp found).1
    rw [released.masks position cell found,
      covered_append_iff keys maximum bound text more position (decided position inside)]

namespace SecretRedactor

/-- The redactor between two bytes, with the cells it released. -/
structure Reading (patterns : SecretPatterns) (keys : List Bytes) (text : Bytes)
    (redactor : SecretRedactor) (cells : List Cell) : Prop where
  same : redactor.patterns = patterns
  holding : Holding keys text redactor
  room : text.length < redactor.written + patterns.maximum
  count : cells.length = redactor.written
  decided : ∀ position, position < redactor.written → position + patterns.maximum ≤ text.length
  released : Released keys text cells

section

variable {patterns : SecretPatterns} {words keys : List Bytes}
  (automaton : patterns.Automaton words keys) (bound : ∀ key ∈ keys, key.length ≤ patterns.maximum)
include automaton bound

theorem Reading.step
    (reading : Reading patterns keys text redactor cells) (value : UInt8) :
    Reading patterns keys (text ++ [value]) (redactor.step value).1
      (cells ++ (redactor.step value).2) := by
  obtain ⟨rfl, holding, room, count, decided, released⟩ := reading
  have positive := holding.positive
  have size := holding.size
  have accepted := holding.accept automaton room value
  have kept := released.append redactor.patterns.maximum bound
    (fun position inside => decided position (by omega)) [value]
  have decidedLater : ∀ position, position < redactor.written →
      position + redactor.patterns.maximum ≤ (text ++ [value]).length := by
    intro position inside
    rw [List.length_append]
    exact Nat.le_add_right_of_le (decided position inside)
  unfold SecretRedactor.step
  rw [if_neg (by omega)]
  simp only
  have gap : (redactor.accept value).read - (redactor.accept value).written ≥
      (redactor.accept value).pending.length ↔
        redactor.written + redactor.patterns.maximum ≤ (text ++ [value]).length := by
    rw [accepted.read, accepted.size]
    change _ - redactor.written ≥ redactor.patterns.maximum ↔ _
    omega
  by_cases full : redactor.written + redactor.patterns.maximum ≤ (text ++ [value]).length
  · rw [if_pos (gap.mpr full)]
    have some : (redactor.accept value).written < (text ++ [value]).length := by
      change redactor.written < _
      omega
    obtain ⟨next, samePatterns, written, cell, emitted, isValue, isMask⟩ := accepted.emitNext some
    have written : (redactor.accept value).emitNext.1.written = redactor.written + 1 := written
    have snoc := kept.snoc cell (by rw [count]; exact isValue) (by rw [count]; exact isMask)
    rw [emitted]
    refine ⟨samePatterns, next, ?_, ?_, ?_, snoc⟩
    · rw [written, List.length_append, List.length_singleton]
      omega
    · rw [written, List.length_append, List.length_singleton, count]
    · intro position inside
      rw [written] at inside
      omega
  · rw [if_neg (mt gap.mp full), List.append_nil]
    refine ⟨rfl, accepted, ?_, count, decidedLater, kept⟩
    change _ < redactor.written + redactor.patterns.maximum
    omega

/-- The redactor after any text. -/
theorem reading_write (positive : 0 < patterns.maximum) (text : Bytes) :
    Reading patterns keys text ((SecretRedactor.new patterns).write text).1
      ((SecretRedactor.new patterns).write text).2 := by
  unfold SecretRedactor.write
  induction text using List.reverseRecOn with
  | nil =>
    refine ⟨rfl, ⟨rfl, List.length_replicate, positive, rfl, Nat.le_refl _, Nat.zero_le _, ?_, ?_,
      ?_, ?_⟩, Nat.lt_add_left _ positive, rfl, ?_, ⟨rfl, ?_⟩⟩
    · intro position value _ found
      cases found
    · exact ⟨List.Pairwise.nil, fun interval isInterval => absurd isInterval List.not_mem_nil⟩
    · intro interval isInterval
      cases isInterval
    · intro position _
      constructor
      · rintro ⟨interval, isInterval, _⟩
        cases isInterval
      rintro ⟨key, isKey, before, after, whole, _, stops⟩
      have total := congrArg List.length whole
      simp only [List.length_nil, List.length_append] at total
      omega
    · intro position inside
      exact absurd inside (Nat.not_lt_zero position)
    · intro position cell found
      cases found
  | append_singleton text value ih =>
    rw [Transducer.run_append, Transducer.run_singleton]
    exact ih.step automaton bound value

end

/-- At the end of the text the bytes held back are released. -/
theorem drain_released {keys : List Bytes} (count : Nat) (redactor : SecretRedactor)
    (cells : List Cell) (holding : Holding keys text redactor)
    (counted : cells.length = redactor.written) (released : Released keys text cells)
    (rest : redactor.written + count = text.length) :
    Released keys text (cells ++ (drain count redactor).2) ∧
      (cells ++ (drain count redactor).2).length = text.length := by
  induction count generalizing redactor cells with
  | zero =>
    simp only [drain, List.append_nil]
    exact ⟨released, by omega⟩
  | succ count ih =>
    obtain ⟨next, _, written, cell, emitted, isValue, isMask⟩ := holding.emitNext (by omega)
    have snoc := released.snoc cell (by rw [counted]; exact isValue) (by rw [counted]; exact isMask)
    have later := ih redactor.emitNext.1 (cells ++ [cell]) next
      (by rw [written, List.length_append, List.length_singleton, counted]) snoc
      (by rw [written]; omega)
    simp only [drain, emitted]
    rw [← List.append_assoc]
    exact later

end SecretRedactor

namespace SecretPatterns

theorem extend_maximum (patterns : SecretPatterns) (state : Nat) (value : UInt8) :
    (patterns.extend state value).maximum = patterns.maximum := rfl

theorem insertFrom_maximum (key : Bytes) (patterns : SecretPatterns) (state : Nat) :
    (patterns.insertFrom state key).1.maximum = patterns.maximum := by
  induction key generalizing patterns state with
  | nil => rfl
  | cons value rest ih =>
    simp only [insertFrom]
    split
    · rw [ih, extend_maximum]
    · rw [ih]

theorem foldl_maximum {α : Type} (step : SecretPatterns → α → SecretPatterns)
    (same : ∀ patterns item, (step patterns item).maximum = patterns.maximum) (items : List α)
    (patterns : SecretPatterns) : (items.foldl step patterns).maximum = patterns.maximum := by
  induction items generalizing patterns with
  | nil => rfl
  | cons item rest ih => rw [List.foldl_cons, ih, same]

theorem linkAll_maximum (fuel : Nat) (patterns : SecretPatterns) (queue : List Nat) :
    (linkAll fuel patterns queue).maximum = patterns.maximum := by
  induction fuel generalizing patterns queue with
  | zero => rfl
  | succ fuel ih =>
    cases queue with
    | nil => rfl
    | cons state =>
      simp only [linkAll]
      rw [ih, foldl_maximum (link state) fun _ _ => rfl]

/-- The automaton knows the length of its longest key. -/
theorem ofKeys_maximum (keys : List Bytes) :
    (ofKeys keys).maximum = (keys.map List.length).foldl max 0 := by
  unfold ofKeys
  rw [linkAll_maximum,
    foldl_maximum insertKey fun patterns key => insertFrom_maximum key patterns 0]

theorem length_le_maximum (keys : List Bytes) (key : Bytes) (isKey : key ∈ keys) :
    key.length ≤ (ofKeys keys).maximum := by
  rw [ofKeys_maximum, List.foldl_eq_foldr]
  exact List.le_max_of_le' 0 (List.mem_map_of_mem isKey) (Nat.le_refl _)

end SecretPatterns

/-- The redactor masks exactly the bytes inside occurrences of the keys. -/
theorem redactCells_released (keys : List Bytes) (nonempty : ∀ key ∈ keys, key ≠ [])
    (text : Bytes) :
    (redactCells (SecretPatterns.ofKeys keys) text).map Cell.value = text ∧
      ∀ position cell, (redactCells (SecretPatterns.ofKeys keys) text)[position]? = some cell →
        (cell.masked = true ↔ Covered keys text position) := by
  rcases Nat.eq_zero_or_pos (SecretPatterns.ofKeys keys).maximum with none | positive
  · have noKeys : keys = [] := by
      apply List.eq_nil_iff_forall_not_mem.mpr
      intro key isKey
      have bound := SecretPatterns.length_le_maximum keys key isKey
      have some := List.length_pos_iff.mpr (nonempty key isKey)
      omega
    rw [redactCells_unpatterned _ text none]
    constructor
    · rw [List.map_map]
      exact List.map_id text
    intro position cell found
    obtain ⟨_, _, rfl⟩ := List.mem_map.mp (List.mem_of_getElem? found)
    rw [noKeys]
    exact iff_of_false Bool.false_ne_true (not_covered_nil text position)
  · obtain ⟨_, automaton⟩ := SecretPatterns.ofKeys_automaton keys nonempty
    have reading := SecretRedactor.reading_write automaton
      (SecretPatterns.length_le_maximum keys) positive text
    have written := reading.holding.written
    have read := reading.holding.read
    obtain ⟨released, length⟩ := SecretRedactor.drain_released
      (((SecretRedactor.new (SecretPatterns.ofKeys keys)).write text).1.read -
        ((SecretRedactor.new (SecretPatterns.ofKeys keys)).write text).1.written)
      _ _ reading.holding reading.count reading.released (by omega)
    refine ⟨?_, released.masks⟩
    have values := released.values
    rw [length, List.take_length] at values
    exact values

end ProvenanceRunner.Evidence
