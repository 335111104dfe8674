import Mathlib.Data.List.GetD
import Mathlib.Data.List.Induction
import Mathlib.Data.List.Range
import ProvenanceRunner.Library.Suffixes
import ProvenanceRunner.Library.Threads
import ProvenanceRunner.Evidence.Patterns

/-! # The trie of the patterns

Inserting keys builds a trie. `Spells` gives every node the word that leads to it from the root:
the words are distinct, closed under taking fronts, and the edges of a node are exactly the
one-byte extensions of its word. `Inserted` adds what the nodes say about the keys put in so far,
and `ofKeys` reaches it before any failure link is set. -/

namespace ProvenanceRunner.Evidence

open Utf8

namespace SecretPatterns

/-- Every edge leads to an earlier one. -/
def Backward (edges : List MatchEdge) : Prop :=
  ∀ (index : Nat) (edge : MatchEdge), edges[index]? = some edge →
    ∀ later, edge.next = some later → later < index

/-- Every edge list ends: it starts at an edge that exists and leads backward. -/
structure Linked (patterns : SecretPatterns) : Prop where
  heads : ∀ state index, (patterns.node state).edge = some index → index < patterns.edges.length
  nexts : Backward patterns.edges

/-- Enough fuel walks the whole list, however much more there is, and sees no edge that came
later. -/
theorem edgesFrom_append (edges more : List MatchEdge) (nexts : Backward edges)
    (fuel other : Nat) (cursor : Option Nat)
    (enough : ∀ index, cursor = some index →
      index < edges.length ∧ index < fuel ∧ index < other) :
    edgesFrom (edges ++ more) fuel cursor = edgesFrom edges other cursor := by
  induction fuel generalizing other cursor with
  | zero =>
    cases cursor with
    | none => cases other <;> simp only [edgesFrom]
    | some index => exact absurd (enough index rfl).2.1 (Nat.not_lt_zero index)
  | succ fuel ih =>
    cases cursor with
    | none => cases other <;> simp only [edgesFrom]
    | some index =>
      have bounds := enough index rfl
      cases other with
      | zero => exact absurd bounds.2.2 (Nat.not_lt_zero index)
      | succ other =>
        simp only [edgesFrom, List.getElem?_append_left bounds.1]
        cases found : edges[index]? with
        | none => simp only
        | some edge =>
          have rest := ih other edge.next (by
            intro later isNext
            have before := nexts index edge found later isNext
            omega)
          simp only [rest]

theorem node_absent (patterns : SecretPatterns) {state : Nat}
    (absent : patterns.nodes.length ≤ state) : patterns.node state = ⟨none, 0, 0⟩ := by
  rw [node, List.getD_eq_getElem?_getD, List.getElem?_eq_none absent, Option.getD_none]

/-- Changing one node of the table. -/
theorem getD_modify (nodes : List MatchNode) (change : MatchNode → MatchNode)
    (fallback : MatchNode) (state other : Nat) (inside : state < nodes.length) :
    (nodes.modify state change).getD other fallback =
      if other = state then change (nodes.getD state fallback) else nodes.getD other fallback := by
  simp only [List.getD_eq_getElem?_getD, List.getElem?_modify, Option.map_eq_map]
  by_cases same : state = other
  · subst same
    rw [List.getElem?_eq_getElem inside]
    simp only [Option.map_some, Option.getD_some, if_true]
  · simp only [if_neg same, if_neg (Ne.symm same), Option.map_id']

/-- Extending a node touches only its edge list. -/
theorem node_extend (patterns : SecretPatterns) (state other : Nat) (value : UInt8)
    (inside : state < patterns.nodes.length) :
    (patterns.extend state value).node other =
      if other = state then
        { patterns.node state with edge := some patterns.edges.length }
      else patterns.node other := by
  have grown : ∀ state, (patterns.nodes ++ [({} : MatchNode)]).getD state ⟨none, 0, 0⟩ =
      patterns.node state := by
    intro state
    rcases Nat.lt_or_ge state patterns.nodes.length with before | absent
    · rw [node, List.getD_append _ _ _ _ before]
    · rw [node_absent patterns absent, List.getD_append_right _ _ _ _ absent]
      cases state - patterns.nodes.length <;> rfl
  unfold extend
  rw [node, getD_modify _ _ _ _ _ (by simp only [List.length_append]; omega), grown, grown]

theorem extend_linked (patterns : SecretPatterns) (linked : patterns.Linked) (state : Nat)
    (value : UInt8) (inside : state < patterns.nodes.length) :
    (patterns.extend state value).Linked := by
  constructor
  · intro other index head
    rw [node_extend patterns state other value inside] at head
    simp only [extend, List.length_append, List.length_singleton]
    by_cases same : other = state
    · rw [if_pos same, Option.some.injEq] at head
      omega
    · rw [if_neg same] at head
      have bound := linked.heads other index head
      omega
  · intro index edge found later isNext
    simp only [extend] at found
    rcases Threads.getElem?_snoc.mp found with before | ⟨rfl, rfl⟩
    · exact linked.nexts index edge before later isNext
    · exact linked.heads state later isNext

/-- The edges of a node after a child was added. -/
theorem edgesOf_extend (patterns : SecretPatterns) (linked : patterns.Linked)
    (state other : Nat) (value : UInt8) (inside : state < patterns.nodes.length) :
    (patterns.extend state value).edgesOf other =
      if other = state then
        ⟨value, patterns.nodes.length, (patterns.node state).edge⟩ :: patterns.edgesOf state
      else patterns.edgesOf other := by
  have walk : ∀ cursor : Option Nat,
      (∀ index, cursor = some index → index < patterns.edges.length) → ∀ fuel,
      (∀ index, cursor = some index → index < fuel) →
      edgesFrom (patterns.extend state value).edges fuel cursor =
        edgesFrom patterns.edges patterns.edges.length cursor := by
    intro cursor bound fuel enough
    exact edgesFrom_append _ _ linked.nexts _ _ cursor fun index isCursor =>
      ⟨bound index isCursor, enough index isCursor, bound index isCursor⟩
  have grown : (patterns.extend state value).edges.length = patterns.edges.length + 1 := by
    simp only [extend, List.length_append, List.length_singleton]
  unfold edgesOf
  rw [node_extend patterns state other value inside, grown]
  by_cases same : other = state
  · rw [if_pos same, if_pos same]
    have newest : (patterns.extend state value).edges[patterns.edges.length]? =
        some ⟨value, patterns.nodes.length, (patterns.node state).edge⟩ := by
      simp only [extend, List.getElem?_concat_length]
    simp only [edgesFrom, newest]
    rw [walk _ (linked.heads state) _ (linked.heads state)]
  · rw [if_neg same, if_neg same]
    exact walk _ (linked.heads other) _ fun index head =>
      Nat.lt_succ_of_lt (linked.heads other index head)

/-- The word of every node: distinct words, closed under taking fronts, whose one-byte extensions
are the edges. -/
structure Spells (patterns : SecretPatterns) (words : List Bytes) : Prop where
  linked : patterns.Linked
  length : words.length = patterns.nodes.length
  root : words[0]? = some []
  distinct : words.Nodup
  closed : ∀ word value, word ++ [value] ∈ words → word ∈ words
  labels : ∀ state, ((patterns.edgesOf state).map MatchEdge.value).Nodup
  targets : ∀ state word, words[state]? = some word → ∀ edge ∈ patterns.edgesOf state,
    words[edge.target]? = some (word ++ [edge.value])
  edges : ∀ state word target value, words[state]? = some word →
    words[target]? = some (word ++ [value]) →
      ∃ edge ∈ patterns.edgesOf state, edge.value = value ∧ edge.target = target

namespace Spells

variable {patterns : SecretPatterns} {words : List Bytes}

section

variable (spells : patterns.Spells words) {state : Nat} {word : Bytes}
  (spelled : words[state]? = some word)
include spells spelled

theorem inside : state < patterns.nodes.length := by
  rw [← spells.length]
  exact (List.getElem?_eq_some_iff.mp spelled).1

theorem unique {other : Nat} (otherSpelled : words[other]? = some word) : state = other :=
  (List.getElem?_inj (List.getElem?_eq_some_iff.mp spelled).1 spells.distinct).mp
    (spelled.trans otherSpelled.symm)

/-- Only the root spells the empty word. -/
theorem root_iff : state = 0 ↔ word = [] := by
  constructor
  · rintro rfl
    exact Option.some.inj (spelled.symm.trans spells.root)
  · rintro rfl
    exact spells.unique spelled spells.root

end

/-- Fronts of words are words. -/
theorem front_mem (spells : patterns.Spells words) (front rest : Bytes)
    (isWord : front ++ rest ∈ words) : front ∈ words := by
  induction rest using List.reverseRecOn with
  | nil => rwa [List.append_nil] at isWord
  | append_singleton rest value ih =>
    rw [← List.append_assoc] at isWord
    exact ih (spells.closed _ value isWord)

section

variable (spells : patterns.Spells words) {state : Nat} {word : Bytes}
  (spelled : words[state]? = some word)
include spells spelled

/-- A transition reads the byte where the longer word exists. -/
theorem transition_mem {value : UInt8} (longer : word ++ [value] ∈ words) :
    words[patterns.transition state value]? = some (word ++ [value]) := by
  obtain ⟨target, reached⟩ := List.mem_iff_getElem?.mp longer
  obtain ⟨edge, isEdge, sameValue, _⟩ := spells.edges state word target value spelled reached
  unfold transition
  cases found : (patterns.edgesOf state).find? (fun edge => edge.value == value) with
  | none =>
    have differs := List.find?_eq_none.mp found edge isEdge
    exact absurd (by simpa using sameValue) differs
  | some first =>
    have isFirst := List.mem_of_find?_eq_some found
    have label : first.value = value := by simpa using List.find?_some found
    simpa only [label] using spells.targets state word spelled first isFirst

/-- Without the longer word a transition leads to the root. -/
theorem transition_not_mem {value : UInt8} (shorter : word ++ [value] ∉ words) :
    patterns.transition state value = 0 := by
  unfold transition
  cases found : (patterns.edgesOf state).find? (fun edge => edge.value == value) with
  | none => simp only
  | some first =>
    have isFirst := List.mem_of_find?_eq_some found
    have label : first.value = value := by simpa using List.find?_some found
    have reached := spells.targets state word spelled first isFirst
    rw [label] at reached
    exact absurd (List.mem_of_getElem? reached) shorter

theorem transition_eq_zero_iff (value : UInt8) :
    patterns.transition state value = 0 ↔ word ++ [value] ∉ words := by
  constructor
  · intro toRoot longer
    have reached := spells.transition_mem spelled longer
    rw [toRoot, spells.root] at reached
    simp at reached
  · exact spells.transition_not_mem spelled

/-- Words are shorter than there are nodes, because all their fronts are words. -/
theorem word_length : word.length < patterns.nodes.length := by
  have fronts : (List.range (word.length + 1)).map word.take ⊆ words := by
    intro front isFront
    obtain ⟨length, _, rfl⟩ := List.mem_map.mp isFront
    apply spells.front_mem _ (word.drop length)
    rw [List.take_append_drop]
    exact List.mem_of_getElem? spelled
  have distinct : ((List.range (word.length + 1)).map word.take).Nodup := by
    apply List.Nodup.map_on _ List.nodup_range
    intro left isLeft right isRight same
    have lengths := congrArg List.length same
    rw [List.length_take, List.length_take] at lengths
    rw [List.mem_range] at isLeft isRight
    omega
  have bound := (List.subperm_of_subset distinct fronts).length_le
  rw [List.length_map, List.length_range, spells.length] at bound
  exact bound

end

/-- What the trie says depends on the edges of the nodes alone. -/
theorem congr (spells : patterns.Spells words) (other : SecretPatterns)
    (edges : other.edges = patterns.edges) (length : other.nodes.length = patterns.nodes.length)
    (heads : ∀ state, (other.node state).edge = (patterns.node state).edge) :
    other.Spells words := by
  have same : ∀ state, other.edgesOf state = patterns.edgesOf state := by
    intro state
    rw [edgesOf, edgesOf, edges, heads]
  constructor
  · constructor
    · intro state index head
      rw [heads] at head
      rw [edges]
      exact spells.linked.heads state index head
    · rw [edges]
      exact spells.linked.nexts
  · rw [length]
    exact spells.length
  · exact spells.root
  · exact spells.distinct
  · exact spells.closed
  · intro state
    rw [same]
    exact spells.labels state
  · intro state word spelled
    rw [same]
    exact spells.targets state word spelled
  · intro state word target value spelled reached
    rw [same]
    exact spells.edges state word target value spelled reached

/-- A new child spells a new word. -/
theorem extend (spells : patterns.Spells words) {state : Nat} {word : Bytes}
    (spelled : words[state]? = some word) {value : UInt8} (new : word ++ [value] ∉ words) :
    (patterns.extend state value).Spells (words ++ [word ++ [value]]) := by
  have inside := spells.inside spelled
  have newest : (words ++ [word ++ [value]])[words.length]? = some (word ++ [value]) := by
    simp
  have leaf : patterns.edgesOf words.length = [] := by
    rw [edgesOf, node_absent patterns (Nat.le_of_eq spells.length.symm)]
    cases patterns.edges.length <;> simp only [edgesFrom]
  constructor
  · exact extend_linked patterns spells.linked state value inside
  · simp only [SecretPatterns.extend, List.length_modify, List.length_append,
      List.length_singleton, spells.length]
  · exact Threads.getElem?_snoc.mpr (.inl spells.root)
  · rw [List.nodup_append]
    refine ⟨spells.distinct, List.nodup_singleton _, ?_⟩
    intro left isLeft right isRight same
    rw [List.mem_singleton] at isRight
    exact new (isRight ▸ same ▸ isLeft)
  · intro front last longer
    rw [List.mem_append, List.mem_singleton] at longer ⊢
    left
    rcases longer with before | same
    · exact spells.closed front last before
    · rw [(List.append_singleton_inj.mp same).1]
      exact List.mem_of_getElem? spelled
  · intro other
    rw [edgesOf_extend patterns spells.linked state other value inside]
    split
    · rw [List.map_cons, List.nodup_cons]
      refine ⟨?_, spells.labels state⟩
      intro member
      obtain ⟨edge, isEdge, label⟩ := List.mem_map.mp member
      have reached := spells.targets state word spelled edge isEdge
      rw [label] at reached
      exact new (List.mem_of_getElem? reached)
    · exact spells.labels other
  · intro other spelling found edge isEdge
    rw [edgesOf_extend patterns spells.linked state other value inside] at isEdge
    rcases Threads.getElem?_snoc.mp found with before | ⟨rfl, rfl⟩
    · have lift : ∀ edge ∈ patterns.edgesOf other,
          (words ++ [word ++ [value]])[edge.target]? = some (spelling ++ [edge.value]) :=
        fun edge isEdge =>
          Threads.getElem?_snoc.mpr (.inl (spells.targets other spelling before edge isEdge))
      split at isEdge
      · rename_i same
        subst same
        rcases List.mem_cons.mp isEdge with rfl | earlier
        · rw [before] at spelled
          cases spelled
          simpa only [spells.length] using newest
        · exact lift edge earlier
      · exact lift edge isEdge
    · have apart : words.length ≠ state := by
        rw [spells.length]
        omega
      rw [if_neg apart, leaf] at isEdge
      cases isEdge
  · intro other spelling target last found reached
    rw [edgesOf_extend patterns spells.linked state other value inside]
    rcases Threads.getElem?_snoc.mp reached with targetBefore | ⟨rfl, longer⟩
    · rcases Threads.getElem?_snoc.mp found with before | ⟨rfl, rfl⟩
      · obtain ⟨edge, isEdge, label, same⟩ :=
          spells.edges other spelling target last before targetBefore
        split
        · rename_i isState
          subst isState
          exact ⟨edge, List.mem_cons_of_mem _ isEdge, label, same⟩
        · exact ⟨edge, isEdge, label, same⟩
      · exact absurd (spells.closed _ last (List.mem_of_getElem? targetBefore)) new
    · obtain ⟨rfl, rfl⟩ := List.append_singleton_inj.mp longer
      rcases Threads.getElem?_snoc.mp found with before | ⟨_, longer⟩
      · rw [if_pos (spells.unique before spelled)]
        exact ⟨_, List.mem_cons_self, rfl, spells.length.symm⟩
      · simp at longer

end Spells

/-- Nodes that differ in their edge lists alone. -/
def SameMarks (patterns other : SecretPatterns) : Prop :=
  ∀ state, (other.node state).failure = (patterns.node state).failure ∧
    (other.node state).longest = (patterns.node state).longest

/-- Walking a key from a node adds the fronts of the key that were missing. -/
theorem insertFrom_spells (patterns : SecretPatterns) (words : List Bytes)
    (spells : patterns.Spells words) (state : Nat) (word rest : Bytes)
    (spelled : words[state]? = some word) :
    ∃ added, (patterns.insertFrom state rest).1.Spells (words ++ added) ∧
      (words ++ added)[(patterns.insertFrom state rest).2]? = some (word ++ rest) ∧
      (∀ new ∈ added, ∃ front, front <+: rest ∧ new = word ++ front) ∧
      patterns.SameMarks (patterns.insertFrom state rest).1 := by
  induction rest generalizing patterns words state word with
  | nil =>
    refine ⟨[], ?_, ?_, ?_, ?_⟩
    · simpa only [List.append_nil, insertFrom] using spells
    · simpa only [List.append_nil, insertFrom] using spelled
    · intro new isNew
      cases isNew
    · exact fun state => ⟨rfl, rfl⟩
  | cons value rest ih =>
    have lengthen : ∀ new, (∃ front, front <+: rest ∧ new = (word ++ [value]) ++ front) →
        ∃ front, front <+: value :: rest ∧ new = word ++ front := by
      rintro new ⟨front, isFront, rfl⟩
      exact ⟨value :: front, (List.prefix_cons_inj value).mpr isFront, by simp⟩
    simp only [insertFrom]
    by_cases missing : patterns.transition state value = 0
    · rw [if_pos missing]
      have new := (spells.transition_eq_zero_iff spelled value).mp missing
      have newest : (words ++ [word ++ [value]])[patterns.nodes.length]? =
          some (word ++ [value]) := by
        rw [← spells.length]
        simp
      obtain ⟨added, extended, reached, fronts, marks⟩ :=
        ih (patterns.extend state value) _ (spells.extend spelled new) _ _ newest
      refine ⟨(word ++ [value]) :: added, ?_, ?_, ?_, ?_⟩
      · simpa only [List.append_assoc, List.singleton_append] using extended
      · simpa only [List.append_assoc, List.singleton_append] using reached
      · intro added isAdded
        rcases List.mem_cons.mp isAdded with rfl | later
        · exact ⟨[value], ⟨rest, rfl⟩, rfl⟩
        · exact lengthen added (fronts added later)
      · intro other
        have unchanged := node_extend patterns state other value (spells.inside spelled)
        rw [(marks other).1, (marks other).2, unchanged]
        split
        · rename_i same
          rw [same]
          exact ⟨rfl, rfl⟩
        · exact ⟨rfl, rfl⟩
    · rw [if_neg missing]
      have longer : word ++ [value] ∈ words := by
        by_contra shorter
        exact missing (spells.transition_not_mem spelled shorter)
      obtain ⟨added, extended, reached, fronts, marks⟩ :=
        ih patterns words spells _ _ (spells.transition_mem spelled longer)
      refine ⟨added, extended, ?_, ?_, marks⟩
      · simpa only [List.append_assoc, List.singleton_append] using reached
      · exact fun new isNew => lengthen new (fronts new isNew)

/-- The trie of a list of keys, before any failure link is set: its words are the fronts of the
keys, and a node carries the length of its word where that is a key. -/
structure Inserted (patterns : SecretPatterns) (words keys : List Bytes) : Prop where
  spells : patterns.Spells words
  fronts : ∀ word, word ∈ words ↔ word = [] ∨ ∃ key ∈ keys, word <+: key
  longest : ∀ state word, words[state]? = some word →
    (patterns.node state).longest = if word ∈ keys then word.length else 0
  failure : ∀ state, (patterns.node state).failure = 0

theorem insertKey_inserted (patterns : SecretPatterns) (words keys : List Bytes) (key : Bytes)
    (inserted : patterns.Inserted words keys) :
    ∃ added, (patterns.insertKey key).Inserted (words ++ added) (keys ++ [key]) := by
  obtain ⟨added, spells, reached, fronts, marks⟩ :=
    insertFrom_spells patterns words inserted.spells 0 [] key inserted.spells.root
  rw [List.nil_append] at reached
  have bound := spells.inside reached
  have marked : ∀ state, (patterns.insertKey key).node state =
      if state = (patterns.insertFrom 0 key).2 then
        { (patterns.insertFrom 0 key).1.node state with longest := key.length }
      else (patterns.insertFrom 0 key).1.node state := by
    intro state
    unfold insertKey
    rw [node, getD_modify _ _ _ _ _ bound]
    split
    · rename_i same
      rw [same]
      rfl
    · rfl
  refine ⟨added, ?_, ?_, ?_, ?_⟩
  · apply spells.congr
    · rfl
    · simp only [insertKey, List.length_modify]
    · intro state
      rw [marked]
      split <;> rfl
  · intro word
    rw [List.mem_append, inserted.fronts]
    constructor
    · rintro ((empty | ⟨other, isKey, front⟩) | isAdded)
      · exact Or.inl empty
      · exact Or.inr ⟨other, List.mem_append_left _ isKey, front⟩
      · obtain ⟨front, isFront, rfl⟩ := fronts word isAdded
        exact Or.inr ⟨key, by simp, isFront⟩
    · rintro (empty | ⟨other, isKey, front⟩)
      · exact Or.inl (Or.inl empty)
      rcases List.mem_append.mp isKey with before | isLast
      · exact Or.inl (Or.inr ⟨other, before, front⟩)
      obtain ⟨rest, whole⟩ := front
      rw [List.mem_singleton.mp isLast] at whole
      have isWord := spells.front_mem word rest (by
        rw [whole]
        exact List.mem_of_getElem? reached)
      rw [List.mem_append, inserted.fronts] at isWord
      exact isWord
  · intro state word spelled
    rw [marked]
    by_cases same : state = (patterns.insertFrom 0 key).2
    · subst same
      rw [reached] at spelled
      cases spelled
      rw [if_pos rfl, if_pos (by simp)]
    · have other : word ≠ key := by
        rintro rfl
        exact same (spells.unique spelled reached)
      have unchanged : word ∈ keys ++ [key] ↔ word ∈ keys := by
        simp [other]
      rw [if_neg same, (marks state).2]
      simp only [unchanged]
      rcases Nat.lt_or_ge state words.length with before | after
      · rw [List.getElem?_append_left before] at spelled
        exact inserted.longest state word spelled
      have notKey : word ∉ keys := by
        intro isKey
        have isWord : word ∈ words :=
          (inserted.fronts word).mpr (Or.inr ⟨word, isKey, List.prefix_rfl⟩)
        obtain ⟨earlier, found⟩ := List.mem_iff_getElem?.mp isWord
        have inside := (List.getElem?_eq_some_iff.mp found).1
        have twice : (words ++ added)[earlier]? = some word := by
          rw [List.getElem?_append_left inside]
          exact found
        have same := spells.unique spelled twice
        omega
      rw [node_absent patterns (inserted.spells.length ▸ after), if_neg notKey]
  · intro state
    have kept := ((marks state).1).trans (inserted.failure state)
    rw [marked]
    split
    · exact kept
    · exact kept

/-- The empty trie. -/
theorem inserted_nil (count size maximum : Nat) :
    Inserted { count := count, size := size, maximum := maximum } [[]] [] := by
  have single : ∀ state, node { count := count, size := size, maximum := maximum } state =
      ⟨none, 0, 0⟩ := by
    intro state
    cases state <;> rfl
  have leaf : ∀ state, edgesOf { count := count, size := size, maximum := maximum } state = [] :=
    fun state => rfl
  refine ⟨⟨⟨?_, ?_⟩, rfl, rfl, List.nodup_singleton _, ?_, ?_, ?_, ?_⟩, ?_, ?_, ?_⟩
  · intro state index head
    rw [single] at head
    cases head
  · intro index edge found
    cases found
  · intro word value isWord
    simp at isWord
  · intro state
    rw [leaf]
    exact List.nodup_nil
  · intro state word spelled edge isEdge
    rw [leaf] at isEdge
    cases isEdge
  · intro state word target value spelled reached
    have isWord := List.mem_of_getElem? reached
    simp at isWord
  · simp
  · intro state word spelled
    rw [single]
    rfl
  · intro state
    rw [single]

/-- Inserting a list of keys one after another. -/
theorem insertKeys_inserted (patterns : SecretPatterns) (words keys more : List Bytes)
    (inserted : patterns.Inserted words keys) :
    ∃ added, (more.foldl insertKey patterns).Inserted (words ++ added) (keys ++ more) := by
  induction more generalizing patterns words keys with
  | nil => exact ⟨[], by simpa only [List.append_nil, List.foldl_nil] using inserted⟩
  | cons key rest ih =>
    obtain ⟨first, one⟩ := insertKey_inserted patterns words keys key inserted
    obtain ⟨added, all⟩ := ih _ _ _ one
    refine ⟨first ++ added, ?_⟩
    simpa only [List.append_assoc, List.singleton_append, List.foldl_cons] using all

end SecretPatterns

end ProvenanceRunner.Evidence
