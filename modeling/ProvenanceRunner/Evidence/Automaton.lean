import ProvenanceRunner.Evidence.Trie

/-! # The matching automaton

The failure link of a node leads to the longest proper suffix of its word that is a word of the
trie again. Links are set breadth first: when a node is taken from the queue, every word at most as
long as its own has its link, and that is all that following links from it needs. With the links
set, the state after any text is the longest suffix of the text that is the front of a key, and the
node carries the length of the longest key that ends there. -/

namespace ProvenanceRunner.Evidence

open Utf8 Suffixes

variable {state : Nat} {word : Bytes}

namespace SecretPatterns

/-- Membership in the words of the trie, as `longestSuffix` takes it. -/
def isWord (words : List Bytes) (word : Bytes) : Bool := decide (word ∈ words)

/-- The failure link and the length of a node are those of its word. -/
structure Settled (patterns : SecretPatterns) (words keys : List Bytes) (state : Nat)
    (word : Bytes) : Prop where
  failure : words[(patterns.node state).failure]? =
    some (longestSuffix (isWord words) word.tail)
  longest : IsLongest keys word (patterns.node state).longest

theorem Settled.congr {patterns other : SecretPatterns} {words keys : List Bytes}
    (settled : patterns.Settled words keys state word)
    (same : other.node state = patterns.node state) : other.Settled words keys state word := by
  constructor
  · rw [same]
    exact settled.failure
  · rw [same]
    exact settled.longest

/-- All words up to a length are settled. -/
def SettledTo (patterns : SecretPatterns) (words keys : List Bytes) (bound : Nat) : Prop :=
  ∀ state word, words[state]? = some word → word.length ≤ bound →
    patterns.Settled words keys state word

namespace Spells

variable {patterns : SecretPatterns} {words keys : List Bytes}

section

variable (spells : patterns.Spells words)
include spells

theorem isWord_nil : isWord words [] = true :=
  decide_eq_true (List.mem_of_getElem? spells.root)

theorem isWord_closed (word : Bytes) (value : UInt8)
    (longer : isWord words (word ++ [value]) = true) : isWord words word = true :=
  decide_eq_true (spells.closed word value (of_decide_eq_true longer))

/-- A transition from the root, or one that reads the byte, needs no link. -/
theorem transition_longest (spelled : words[state]? = some word)
    (value : UInt8) (free : state = 0 ∨ patterns.transition state value ≠ 0) :
    words[patterns.transition state value]? =
      some (longestSuffix (isWord words) (word ++ [value])) := by
  by_cases longer : word ++ [value] ∈ words
  · rw [spells.transition_mem spelled longer, longestSuffix_of_member _ _ (decide_eq_true longer)]
  have toRoot := spells.transition_not_mem spelled longer
  have atRoot := free.resolve_right (not_not_intro toRoot)
  obtain rfl := (spells.root_iff spelled).mp atRoot
  rw [toRoot, spells.root]
  simp only [List.nil_append] at longer ⊢
  simp [longestSuffix, isWord, longer]

/-- Following links until the byte can be read ends at the longest suffix that can be extended.
Each link shortens the word, so its length bounds the number of links. -/
theorem transition_fallBack (value : UInt8) (fuel state : Nat) (word : Bytes)
    (spelled : words[state]? = some word) (enough : word.length ≤ fuel)
    (settled : patterns.SettledTo words keys word.length) :
    words[patterns.transition (patterns.fallBack value fuel state) value]? =
      some (longestSuffix (isWord words) (word ++ [value])) := by
  induction fuel generalizing state word with
  | zero =>
    have empty : word = [] := List.length_eq_zero_iff.mp (Nat.le_zero.mp enough)
    exact spells.transition_longest spelled value (.inl ((spells.root_iff spelled).mpr empty))
  | succ fuel ih =>
    simp only [fallBack]
    by_cases stuck : state ≠ 0 ∧ patterns.transition state value = 0
    · rw [if_pos stuck]
      have nonempty : word ≠ [] := fun empty => stuck.1 ((spells.root_iff spelled).mpr empty)
      have shorter := (spells.transition_eq_zero_iff spelled value).mp stuck.2
      have shrinks := (longestSuffix_suffix (isWord words) word.tail).length_le
      have positive := List.length_pos_iff.mpr nonempty
      rw [List.length_tail] at shrinks
      rw [ih _ _ (settled state word spelled (Nat.le_refl _)).failure (by omega)
        fun other spelling isSpelled bound => settled other spelling isSpelled (by omega)]
      exact congrArg some (longestSuffix_fallBack _ spells.isWord_nil spells.isWord_closed word
        value nonempty (decide_eq_false shorter)).symm
    · rw [if_neg stuck]
      exact spells.transition_longest spelled value (not_and_or.mp stuck |>.imp not_not.mp id)

theorem advance (value : UInt8) (state : Nat) (word : Bytes) (spelled : words[state]? = some word)
    (settled : patterns.SettledTo words keys word.length) :
    words[patterns.advance state value]? =
      some (longestSuffix (isWord words) (word ++ [value])) :=
  spells.transition_fallBack value _ state word spelled (Nat.le_of_lt (spells.word_length spelled))
    settled

end

end Spells

/-- The length a node carries before its link is set. -/
def ownLength (keys : List Bytes) (word : Bytes) : Nat := if word ∈ keys then word.length else 0

section Linking

variable {patterns : SecretPatterns} {words keys : List Bytes}

theorem node_link (state : Nat) (edge : MatchEdge)
    (inside : edge.target < patterns.nodes.length) (other : Nat) :
    (link state patterns edge).node other =
      if other = edge.target then
        { patterns.node edge.target with
          failure := patterns.advance (patterns.node state).failure edge.value
          longest := max (patterns.node edge.target).longest
            (patterns.node (patterns.advance (patterns.node state).failure edge.value)).longest }
      else patterns.node other := by
  unfold link
  rw [node, getD_modify _ _ _ _ _ inside]
  rfl

theorem Spells.link (spells : patterns.Spells words) (state : Nat) (edge : MatchEdge)
    (inside : edge.target < patterns.nodes.length) :
    (link state patterns edge).Spells words := by
  apply spells.congr
  · rfl
  · simp only [SecretPatterns.link, List.length_modify]
  intro other
  rw [node_link state edge inside]
  split
  · rename_i same
    rw [same]
  · rfl

/-- Setting the link of a child, where every word at most as long as the parent's is settled. -/
theorem link_settled (spells : patterns.Spells words) (keysWords : ∀ key ∈ keys, key ∈ words)
    (state : Nat) (word : Bytes) (spelled : words[state]? = some word) (nonempty : word ≠ [])
    (settled : patterns.SettledTo words keys word.length) (edge : MatchEdge)
    (child : words[edge.target]? = some (word ++ [edge.value]))
    (before : (patterns.node edge.target).longest = ownLength keys (word ++ [edge.value]) ∨
      patterns.Settled words keys edge.target (word ++ [edge.value])) :
    (link state patterns edge).Settled words keys edge.target (word ++ [edge.value]) := by
  have inside := spells.inside child
  have shrinks := (longestSuffix_suffix (isWord words) word.tail).length_le
  have positive := List.length_pos_iff.mpr nonempty
  rw [List.length_tail] at shrinks
  have advanced :=
    spells.advance edge.value _ _ (settled state word spelled (Nat.le_refl _)).failure
    fun other spelling isSpelled bound => settled other spelling isSpelled (by omega)
  rw [← longestSuffix_snoc _ spells.isWord_nil spells.isWord_closed] at advanced
  have tail : (word ++ [edge.value]).tail = word.tail ++ [edge.value] :=
    List.tail_append_of_ne_nil nonempty
  rw [← tail] at advanced
  have shorter := (longestSuffix_suffix (isWord words) (word ++ [edge.value]).tail).length_le
  rw [tail, List.length_append, List.length_tail, List.length_singleton, ← tail] at shorter
  have inherited := (settled _ _ advanced (by omega)).longest
  constructor
  · rw [node_link state edge inside, if_pos rfl]
    exact advanced
  rw [node_link state edge inside, if_pos rfl]
  have members : ∀ key ∈ keys, isWord words key = true :=
    fun key isKey => decide_eq_true (keysWords key isKey)
  have longer : word ++ [edge.value] ≠ [] := by simp
  rcases before with own | already
  · exact isLongest_step _ keys members _ longer _ _ own inherited
  -- A link set again changes nothing: the inherited length is already counted.
  have counted : (patterns.node (patterns.advance (patterns.node state).failure
      edge.value)).longest ≤ (patterns.node edge.target).longest := by
    rcases inherited.reached with zero | ⟨key, isKey, ends, length⟩
    · omega
    · rw [← length]
      apply already.longest.bound key isKey
      exact (ends.trans (longestSuffix_suffix _ _)).trans (List.tail_suffix _)
  rw [Nat.max_eq_left counted]
  exact already.longest

/-- Setting the links of several children of one node. -/
theorem links_settled (keysWords : ∀ key ∈ keys, key ∈ words) (state : Nat) (word : Bytes)
    (spelled : words[state]? = some word) (nonempty : word ≠ []) (edges : List MatchEdge)
    (patterns : SecretPatterns) (spells : patterns.Spells words)
    (settled : patterns.SettledTo words keys word.length)
    (children : ∀ edge ∈ edges, words[edge.target]? = some (word ++ [edge.value]))
    (before : ∀ edge ∈ edges,
      (patterns.node edge.target).longest = ownLength keys (word ++ [edge.value]) ∨
        patterns.Settled words keys edge.target (word ++ [edge.value])) :
    (edges.foldl (link state) patterns).Spells words ∧
      (∀ other, (∀ edge ∈ edges, edge.target ≠ other) →
        (edges.foldl (link state) patterns).node other = patterns.node other) ∧
      ∀ edge ∈ edges, (edges.foldl (link state) patterns).Settled words keys edge.target
        (word ++ [edge.value]) := by
  induction edges generalizing patterns with
  | nil => exact ⟨spells, fun _ _ => rfl, fun edge isEdge => absurd isEdge List.not_mem_nil⟩
  | cons edge rest ih =>
    have child := children edge List.mem_cons_self
    have inside := spells.inside child
    have first := link_settled spells keysWords state word spelled nonempty settled edge child
      (before edge List.mem_cons_self)
    have unchanged : ∀ other, other ≠ edge.target →
        (link state patterns edge).node other = patterns.node other := by
      intro other apart
      rw [node_link state edge inside, if_neg apart]
    have shallow : (link state patterns edge).SettledTo words keys word.length := by
      intro other spelling isSpelled bound
      refine (settled other spelling isSpelled bound).congr (unchanged other ?_)
      rintro rfl
      rw [child] at isSpelled
      cases isSpelled
      rw [List.length_append, List.length_singleton] at bound
      omega
    have pending : ∀ later ∈ rest,
        ((link state patterns edge).node later.target).longest =
            ownLength keys (word ++ [later.value]) ∨
          (link state patterns edge).Settled words keys later.target (word ++ [later.value]) := by
      intro later isLater
      have laterChild := children later (List.mem_cons_of_mem _ isLater)
      by_cases same : later.target = edge.target
      · right
        have sameWord : word ++ [later.value] = word ++ [edge.value] := by
          rw [same, child] at laterChild
          exact (Option.some.inj laterChild).symm
        rw [same, sameWord]
        exact first
      · refine (before later (List.mem_cons_of_mem _ isLater)).imp ?_ ?_
        · intro own
          rw [unchanged _ same]
          exact own
        · intro already
          exact already.congr (unchanged _ same)
    obtain ⟨resultSpells, resultSame, resultSettled⟩ := ih (link state patterns edge)
      (spells.link state edge inside) shallow
      (fun later isLater => children later (List.mem_cons_of_mem _ isLater)) pending
    rw [List.foldl_cons]
    refine ⟨resultSpells, ?_, ?_⟩
    · intro other apart
      rw [resultSame other fun later isLater => apart later (List.mem_cons_of_mem _ isLater)]
      exact unchanged other (Ne.symm (apart edge List.mem_cons_self))
    · intro some isSome
      rcases List.mem_cons.mp isSome with rfl | isLater
      · by_cases again : ∃ later ∈ rest, later.target = some.target
        · obtain ⟨later, isLater, same⟩ := again
          have laterChild := children later (List.mem_cons_of_mem _ isLater)
          rw [same, child] at laterChild
          have sameWord := Option.some.inj laterChild
          rw [← same, sameWord]
          exact resultSettled later isLater
        · refine first.congr (resultSame _ fun later isLater same => again ⟨later, isLater, same⟩)
      · exact resultSettled some isLater

/-- The length of the word of a node. -/
def depth (words : List Bytes) (state : Nat) : Nat := (words.getD state []).length

theorem depth_eq (spelled : words[state]? = some word) :
    depth words state = word.length := by
  rw [depth, List.getD_eq_getElem?_getD, spelled, Option.getD_some]

/-- The invariant of the breadth-first pass. Queued nodes are settled, in order of depth and at
most one level apart; a node that is not settled yet lies strictly below a queued one. -/
structure Pass (patterns : SecretPatterns) (words keys : List Bytes) (queue : List Nat) :
    Prop where
  spells : patterns.Spells words
  queued : ∀ state ∈ queue, ∃ word, words[state]? = some word ∧ word ≠ [] ∧
    patterns.Settled words keys state word
  ordered : queue.Pairwise (fun state later => depth words state ≤ depth words later)
  level : ∀ state ∈ queue, ∀ later ∈ queue, depth words later ≤ depth words state + 1
  below : ∀ state word, words[state]? = some word →
    patterns.Settled words keys state word ∨
      (patterns.node state).longest = ownLength keys word ∧
        ∃ above ∈ queue, ∃ front, words[above]? = some front ∧ front <+: word ∧ front ≠ word

/-- When a node is taken from the queue, words at most as long as its own are settled. -/
theorem Pass.shallow {queue : List Nat}
    (pass : patterns.Pass words keys (state :: queue)) (word : Bytes)
    (spelled : words[state]? = some word) : patterns.SettledTo words keys word.length := by
  intro other spelling isSpelled bound
  rcases pass.below other spelling isSpelled with settled | ⟨_, above, isAbove, front, found,
    starts, apart⟩
  · exact settled
  exfalso
  have shorter : front.length < spelling.length := by
    rcases Nat.lt_or_ge front.length spelling.length with less | more
    · exact less
    · exact absurd (starts.eq_of_length_le more) apart
  have least : depth words state ≤ depth words above := by
    rcases List.mem_cons.mp isAbove with rfl | later
    · exact Nat.le_refl _
    · exact List.rel_of_pairwise_cons pass.ordered later
  rw [depth_eq spelled, depth_eq found] at least
  omega

/-- One node of the pass: its children are settled and join the queue. -/
theorem Pass.step {queue : List Nat} (keysWords : ∀ key ∈ keys, key ∈ words)
    (pass : patterns.Pass words keys (state :: queue)) :
    ((patterns.edgesOf state).foldl (link state) patterns).Pass words keys
      (queue ++ (patterns.edgesOf state).map MatchEdge.target) := by
  obtain ⟨word, spelled, nonempty, _⟩ := pass.queued state List.mem_cons_self
  have children := pass.spells.targets state word spelled
  obtain ⟨spells, same, settled⟩ := links_settled keysWords state word spelled nonempty
    (patterns.edgesOf state) patterns pass.spells (pass.shallow word spelled) children (by
      intro edge isEdge
      exact ((pass.below edge.target _ (children edge isEdge)).imp id And.left).symm)
  -- Settled nodes stay settled: a child is settled anew and no other node changes.
  have kept : ∀ other spelling, words[other]? = some spelling →
      patterns.Settled words keys other spelling →
      ((patterns.edgesOf state).foldl (link state) patterns).Settled words keys other spelling := by
    intro other spelling isSpelled before
    by_cases isChild : ∃ edge ∈ patterns.edgesOf state, edge.target = other
    · obtain ⟨edge, isEdge, rfl⟩ := isChild
      rw [children edge isEdge] at isSpelled
      cases isSpelled
      exact settled edge isEdge
    · exact before.congr (same other fun edge isEdge isTarget => isChild ⟨edge, isEdge, isTarget⟩)
  have queueDepth : ∀ other ∈ queue, word.length ≤ depth words other ∧
      depth words other ≤ word.length + 1 := by
    intro other isOther
    rw [← depth_eq spelled]
    exact ⟨List.rel_of_pairwise_cons pass.ordered isOther,
      pass.level state List.mem_cons_self other (List.mem_cons_of_mem _ isOther)⟩
  have childDepth : ∀ other ∈ (patterns.edgesOf state).map MatchEdge.target,
      depth words other = word.length + 1 := by
    intro other isOther
    obtain ⟨edge, isEdge, rfl⟩ := List.mem_map.mp isOther
    rw [depth_eq (children edge isEdge), List.length_append, List.length_singleton]
  have bounds : ∀ other ∈ queue ++ (patterns.edgesOf state).map MatchEdge.target,
      word.length ≤ depth words other ∧ depth words other ≤ word.length + 1 := by
    intro other isOther
    rcases List.mem_append.mp isOther with before | isChild
    · exact queueDepth other before
    · have exactly := childDepth other isChild
      omega
  constructor
  · exact spells
  · intro other isOther
    rcases List.mem_append.mp isOther with before | isChild
    · obtain ⟨spelling, isSpelled, hasItem, isSettled⟩ :=
        pass.queued other (List.mem_cons_of_mem _ before)
      exact ⟨spelling, isSpelled, hasItem, kept other spelling isSpelled isSettled⟩
    · obtain ⟨edge, isEdge, rfl⟩ := List.mem_map.mp isChild
      exact ⟨_, children edge isEdge, by simp, settled edge isEdge⟩
  · rw [List.pairwise_append]
    refine ⟨List.Pairwise.of_cons pass.ordered, ?_, ?_⟩
    · apply List.pairwise_of_forall_mem_list
      intro left isLeft right isRight
      rw [childDepth left isLeft, childDepth right isRight]
    · intro left isLeft right isRight
      rw [childDepth right isRight]
      exact (queueDepth left isLeft).2
  · intro left isLeft right isRight
    have first := bounds left isLeft
    have second := bounds right isRight
    omega
  · intro other spelling isSpelled
    by_cases isChild : ∃ edge ∈ patterns.edgesOf state, edge.target = other
    · left
      obtain ⟨edge, isEdge, rfl⟩ := isChild
      rw [children edge isEdge] at isSpelled
      cases isSpelled
      exact settled edge isEdge
    · have unchanged := same other fun edge isEdge isTarget => isChild ⟨edge, isEdge, isTarget⟩
      rcases pass.below other spelling isSpelled with
        before | ⟨own, above, isAbove, front, found, starts, apart⟩
      · exact Or.inl (before.congr unchanged)
      right
      refine ⟨by rw [unchanged]; exact own, ?_⟩
      rcases List.mem_cons.mp isAbove with rfl | later
      · -- Below the node just taken: the child on the way takes its place.
        rw [spelled] at found
        cases found
        obtain ⟨rest, rfl⟩ := starts
        cases rest with
        | nil => exact absurd (List.append_nil word).symm apart
        | cons value rest =>
          have between : word ++ [value] ∈ words :=
            pass.spells.front_mem _ rest (by
              rw [List.append_assoc, List.singleton_append]
              exact List.mem_of_getElem? isSpelled)
          obtain ⟨target, reached⟩ := List.mem_iff_getElem?.mp between
          obtain ⟨edge, isEdge, rfl, rfl⟩ :=
            pass.spells.edges above word target value spelled reached
          refine ⟨edge.target, List.mem_append_right _ (List.mem_map_of_mem isEdge), _, reached,
            ⟨rest, by simp⟩, ?_⟩
          intro whole
          rw [← whole] at isSpelled
          exact isChild ⟨edge, isEdge, pass.spells.unique reached isSpelled⟩
      · exact ⟨above, List.mem_append_left _ later, front, found, starts, apart⟩

/-- The nodes still to be visited from a queue. -/
def remaining (words : List Bytes) (queue : List Nat) : Nat :=
  (queue.map (fun state => extensions words (words.getD state []))).sum

theorem Spells.remaining_children (spells : patterns.Spells words) (state : Nat) (word : Bytes)
    (spelled : words[state]? = some word) :
    remaining words ((patterns.edgesOf state).map MatchEdge.target) + 1 ≤
      extensions words word := by
  have shared := extensions_children words ((patterns.edgesOf state).map MatchEdge.value)
    (spells.labels state) word
  have itself : 0 < words.count word := List.count_pos_iff.mpr (List.mem_of_getElem? spelled)
  have same : remaining words ((patterns.edgesOf state).map MatchEdge.target) =
      (((patterns.edgesOf state).map MatchEdge.value).map
        (fun value => extensions words (word ++ [value]))).sum := by
    unfold remaining
    rw [List.map_map, List.map_map]
    apply congrArg
    apply List.map_congr_left
    intro edge isEdge
    have reached := spells.targets state word spelled edge isEdge
    simp only [Function.comp_apply, List.getD_eq_getElem?_getD, reached, Option.getD_some]
  rw [same]
  omega

/-- With fuel for every node still to be visited, the pass settles all nodes. -/
theorem linkAll_settled (keysWords : ∀ key ∈ keys, key ∈ words) (fuel : Nat) (queue : List Nat)
    (patterns : SecretPatterns) (pass : patterns.Pass words keys queue)
    (enough : remaining words queue ≤ fuel) :
    (linkAll fuel patterns queue).Spells words ∧
      ∀ state word, words[state]? = some word →
        (linkAll fuel patterns queue).Settled words keys state word := by
  have finished : ∀ patterns : SecretPatterns, patterns.Pass words keys [] →
      patterns.Spells words ∧
        ∀ state word, words[state]? = some word → patterns.Settled words keys state word := by
    intro patterns pass
    refine ⟨pass.spells, fun state word spelled => ?_⟩
    rcases pass.below state word spelled with settled | ⟨_, _, isAbove, _⟩
    · exact settled
    · cases isAbove
  induction fuel generalizing patterns queue with
  | zero =>
    cases queue with
    | nil => exact finished patterns pass
    | cons state =>
      obtain ⟨word, spelled, _, _⟩ := pass.queued state List.mem_cons_self
      have positive := extensions_pos words word (List.mem_of_getElem? spelled)
      simp only [remaining, List.map_cons, List.sum_cons, List.getD_eq_getElem?_getD, spelled,
        Option.getD_some] at enough
      omega
  | succ fuel ih =>
    cases queue with
    | nil => exact finished patterns pass
    | cons state =>
      obtain ⟨word, spelled, _, _⟩ := pass.queued state List.mem_cons_self
      have children := pass.spells.remaining_children state word spelled
      apply ih _ _ (pass.step keysWords)
      simp only [remaining, List.map_cons, List.sum_cons, List.getD_eq_getElem?_getD, spelled,
        Option.getD_some, List.map_append, List.sum_append] at enough children ⊢
      omega

/-- The pass starts at the children of the root. -/
theorem Inserted.pass (inserted : patterns.Inserted words keys)
    (nonempty : ∀ key ∈ keys, key ≠ []) :
    patterns.Pass words keys ((patterns.edgesOf 0).map MatchEdge.target) := by
  have spells := inserted.spells
  have children := spells.targets 0 [] spells.root
  have nothing : IsLongest keys ([] : Bytes) 0 := by
    constructor
    · intro key isKey ends
      exact absurd (List.suffix_nil.mp ends) (nonempty key isKey)
    · exact Or.inl rfl
  have keysWords : ∀ key ∈ keys, isWord words key = true := fun key isKey =>
    decide_eq_true ((inserted.fronts key).mpr (Or.inr ⟨key, isKey, List.prefix_rfl⟩))
  have shallow : patterns.SettledTo words keys 1 := by
    intro state word spelled short
    have tail : word.tail = [] := by
      apply List.length_eq_zero_iff.mp
      rw [List.length_tail]
      omega
    constructor
    · rw [inserted.failure, tail, spells.root]
      rfl
    rw [inserted.longest state word spelled]
    cases word with
    | nil =>
      rw [if_neg fun isKey => nonempty [] isKey rfl]
      exact nothing
    | cons value rest =>
      have step := isLongest_step _ keys keysWords (value :: rest) (by simp) _ 0 rfl (by
        rw [tail]
        exact nothing)
      rw [Nat.max_zero] at step
      exact step
  have childDepth : ∀ state ∈ (patterns.edgesOf 0).map MatchEdge.target,
      depth words state = 1 := by
    intro state isState
    obtain ⟨edge, isEdge, rfl⟩ := List.mem_map.mp isState
    rw [depth_eq (children edge isEdge)]
    rfl
  constructor
  · exact spells
  · intro state isState
    obtain ⟨edge, isEdge, rfl⟩ := List.mem_map.mp isState
    have child := children edge isEdge
    exact ⟨_, child, by simp, shallow _ _ child (by simp)⟩
  · apply List.pairwise_of_forall_mem_list
    intro left isLeft right isRight
    rw [childDepth left isLeft, childDepth right isRight]
  · intro left isLeft right isRight
    rw [childDepth left isLeft, childDepth right isRight]
    omega
  · intro state word spelled
    rcases Nat.lt_or_ge 1 word.length with deep | short
    · right
      refine ⟨inserted.longest state word spelled, ?_⟩
      cases word with
      | nil => exact absurd deep (by simp)
      | cons value rest =>
        have child : [] ++ [value] ∈ words :=
          spells.front_mem _ rest (List.mem_of_getElem? spelled)
        obtain ⟨target, reached⟩ := List.mem_iff_getElem?.mp child
        obtain ⟨edge, isEdge, _, rfl⟩ := spells.edges 0 [] target value spells.root reached
        refine ⟨edge.target, List.mem_map_of_mem isEdge, _, reached, ⟨rest, rfl⟩, ?_⟩
        intro whole
        rw [← whole] at deep
        simp at deep
    · exact Or.inl (shallow state word spelled short)

end Linking

/-- A finished automaton for a list of keys. -/
structure Automaton (patterns : SecretPatterns) (words keys : List Bytes) : Prop where
  spells : patterns.Spells words
  keysWords : ∀ key ∈ keys, key ∈ words
  settled : ∀ state word, words[state]? = some word → patterns.Settled words keys state word

theorem ofKeys_automaton (keys : List Bytes) (nonempty : ∀ key ∈ keys, key ≠ []) :
    ∃ words, (ofKeys keys).Automaton words keys := by
  obtain ⟨added, inserted⟩ := insertKeys_inserted _ _ _ keys
    (inserted_nil keys.length (keys.map List.length).sum ((keys.map List.length).foldl max 0))
  rw [List.nil_append] at inserted
  have keysWords : ∀ key ∈ keys, key ∈ [[]] ++ added := fun key isKey =>
    (inserted.fronts key).mpr (Or.inr ⟨key, isKey, List.prefix_rfl⟩)
  have children := inserted.spells.remaining_children 0 [] inserted.spells.root
  have bound : extensions ([[]] ++ added) [] ≤ ([[]] ++ added).length := List.countP_le_length
  rw [inserted.spells.length] at bound
  obtain ⟨spells, settled⟩ := linkAll_settled keysWords _ _ _ (inserted.pass nonempty)
    (Nat.le_trans (Nat.le_of_succ_le children) bound)
  exact ⟨_, spells, keysWords, settled⟩

/-- The state after a text spells the longest suffix of the text that is a word. -/
theorem Automaton.reach {patterns : SecretPatterns} {words keys : List Bytes}
    (automaton : patterns.Automaton words keys) (text : Bytes) :
    words[text.foldl patterns.advance 0]? = some (longestSuffix (isWord words) text) := by
  induction text using List.reverseRecOn with
  | nil => exact automaton.spells.root
  | append_singleton text value ih =>
    rw [List.foldl_append, List.foldl_cons, List.foldl_nil,
      automaton.spells.advance value _ _ ih
        fun other spelling spelled _ => automaton.settled other spelling spelled]
    exact congrArg some (longestSuffix_snoc _ automaton.spells.isWord_nil
      automaton.spells.isWord_closed text value).symm

/-- The node reached carries the length of the longest key that ends the text. -/
theorem Automaton.longest {patterns : SecretPatterns} {words keys : List Bytes}
    (automaton : patterns.Automaton words keys) (text : Bytes) :
    IsLongest keys text (patterns.node (text.foldl patterns.advance 0)).longest := by
  have settled := (automaton.settled _ _ (automaton.reach text)).longest
  exact (isLongest_longestSuffix (isWord words) keys
    (fun key isKey => decide_eq_true (automaton.keysWords key isKey)) text _).mp settled

end SecretPatterns

end ProvenanceRunner.Evidence
