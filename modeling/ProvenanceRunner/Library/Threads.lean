import Mathlib.Data.List.Basic

/-! # Threads in a list

Threads that share a state are kept in a list and named by their positions; a step replaces one of
them. The lemmas here follow counts of threads and facts about each of them through such a step. -/

namespace ProvenanceRunner.Threads

variable {Thread : Type}

variable (place : Thread → Bool) {threads : List Thread}

/-- How many threads are at a place changes by the one that moves. -/
theorem countP_set {index : Nat} {old : Thread} (found : threads[index]? = some old)
    (new : Thread) :
    (threads.set index new).countP place + (if place old = true then 1 else 0) =
      threads.countP place + (if place new = true then 1 else 0) := by
  obtain ⟨inside, rfl⟩ := List.getElem?_eq_some_iff.1 found
  rw [List.countP_set inside]
  by_cases here : place threads[index] = true
  · have positive : 0 < threads.countP place :=
      List.countP_pos_iff.2 ⟨threads[index], List.getElem_mem inside, here⟩
    rw [if_pos here]
    omega
  · rw [if_neg here]
    omega

/-- A thread that does not change its place. -/
theorem countP_set_same {index : Nat} {old : Thread} (found : threads[index]? = some old)
    (new : Thread) (same : place new = place old) :
    (threads.set index new).countP place = threads.countP place := by
  have moved := countP_set place found new
  rw [same] at moved
  omega

theorem countP_pos {index : Nat} {thread : Thread} (found : threads[index]? = some thread)
    (here : place thread = true) :
    0 < threads.countP place :=
  List.countP_pos_iff.2 ⟨thread, List.mem_of_getElem? found, here⟩

/-- The threads after one has been added. -/
theorem getElem?_snoc {index : Nat} {new thread : Thread} :
    (threads ++ [new])[index]? = some thread ↔
      threads[index]? = some thread ∨ index = threads.length ∧ thread = new := by
  rcases Nat.lt_trichotomy index threads.length with before | rfl | after
  · rw [List.getElem?_append_left before]
    simp [Nat.ne_of_lt before]
  · simp [eq_comm]
  · rw [List.getElem?_eq_none (by rw [List.length_append]; exact after),
      List.getElem?_eq_none (Nat.le_of_lt after)]
    simp [Nat.ne_of_gt after]

/-- The threads after a step: the one that moved and the others as they were. -/
theorem getElem?_set_cases {index other : Nat} {new thread : Thread}
    (found : (threads.set index new)[other]? = some thread) :
    (other = index ∧ thread = new) ∨ (other ≠ index ∧ threads[other]? = some thread) := by
  rw [List.getElem?_set] at found
  by_cases same : index = other
  · rw [if_pos same] at found
    split at found
    · exact .inl ⟨same.symm, (Option.some.inj found).symm⟩
    · cases found
  · rw [if_neg same] at found
    exact .inr ⟨Ne.symm same, found⟩

/-- A fact about each thread, after a step. -/
theorem forall_mem_set {held : Thread → Prop} {index : Nat} {new : Thread}
    (others : ∀ thread ∈ threads, held thread) (moved : held new) :
    ∀ thread ∈ threads.set index new, held thread := by
  intro thread inside
  rcases List.mem_or_eq_of_mem_set inside with old | rfl
  · exact others thread old
  · exact moved

/-- A fact about one thread, after a step that keeps it. -/
theorem exists_getElem?_set (held : Thread → Prop) {index other : Nat}
    {old thread : Thread} (found : threads[index]? = some old) (new : Thread)
    (kept : held old → held new) (isThread : threads[other]? = some thread) (known : held thread) :
    ∃ after, (threads.set index new)[other]? = some after ∧ held after := by
  rw [List.getElem?_set]
  by_cases same : index = other
  · subst same
    obtain rfl := Option.some.inj (found.symm.trans isThread)
    exact ⟨new, by rw [if_pos rfl, if_pos (List.getElem?_eq_some_iff.1 found).1], kept known⟩
  · exact ⟨thread, by rw [if_neg same, isThread], known⟩

/-- Two threads at a place that has room for one are the same. -/
theorem eq_of_countP_le_one (single : threads.countP place ≤ 1) {first second : Nat}
    {one other : Thread} (foundOne : threads[first]? = some one)
    (foundOther : threads[second]? = some other) (here : place one = true)
    (there : place other = true) : first = second := by
  have apart {first second : Nat} {one other : Thread} (foundOne : threads[first]? = some one)
      (foundOther : threads[second]? = some other) (here : place one = true)
      (there : place other = true) : second ≤ first := by
    by_contra before
    have front : 0 < (threads.take second).countP place :=
      countP_pos place ((List.getElem?_take_of_lt (by omega)).trans foundOne) here
    have back : 0 < (threads.drop second).countP place :=
      countP_pos place ((List.getElem?_drop (j := 0)).trans foundOther) there
    rw [← List.take_append_drop second threads, List.countP_append] at single
    omega
  exact Nat.le_antisymm (apart foundOther foundOne there here)
    (apart foundOne foundOther here there)

end ProvenanceRunner.Threads
