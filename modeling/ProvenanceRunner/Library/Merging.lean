import Mathlib.Order.Std
import Mathlib.Data.List.TakeWhile

/-! # Inclusion of increasing lists by one walk

A cursor goes through one increasing list while another one is read; it never goes back. The walk
decides whether every item of the second list has an equal in the first one. -/

namespace ProvenanceRunner.Merging

open Std

variable {α : Type*} (cmp : α → α → Ordering)

/-- `above` is what the cursor has not passed. It stays at the item that was found. -/
def covers (above : List α) : List α → Bool
  | [] => true
  | item :: rest =>
    match above.dropWhile (cmp · item == .lt) with
    | [] => false
    | found :: later => cmp found item == .eq && covers (found :: later) rest

variable {cmp} [TransCmp cmp]

/-- Nothing that the cursor passes for an item equals that item or a later one. -/
theorem mem_dropWhile {above : List α} {item next found : α} (order : (cmp item next).isLE)
    (member : found ∈ above) (same : cmp found next = .eq) :
    found ∈ above.dropWhile (cmp · item == .lt) := by
  rw [← @List.takeWhile_append_dropWhile _ (cmp · item == .lt) above, List.mem_append] at member
  rcases member with passed | ahead
  · have before : cmp found item = .lt := by simpa using List.mem_takeWhile_imp passed
    have earlier : cmp found next = .lt := TransCmp.lt_of_lt_of_isLE before order
    simp [same] at earlier
  · exact ahead

theorem covers_iff {above below : List α} (ordered : above.Pairwise (cmp · · = .lt))
    (increasing : below.Pairwise (cmp · · = .lt)) :
    covers cmp above below = true ↔ ∀ item ∈ below, ∃ found ∈ above, cmp found item = .eq := by
  induction below generalizing above with
  | nil => simp [covers]
  | cons item rest ih =>
    obtain ⟨first, increasing⟩ := List.pairwise_cons.mp increasing
    have self : (cmp item item).isLE := by simp [ReflCmp.compare_self]
    have sublist : (above.dropWhile (cmp · item == .lt)).Sublist above := List.dropWhile_sublist _
    have ahead {next found : α} := @mem_dropWhile α cmp _ above item next found
    have reached := List.head?_dropWhile_not (cmp · item == .lt) above
    rw [covers]
    generalize above.dropWhile (cmp · item == .lt) = remaining at sublist ahead reached
    cases remaining with
    | nil =>
      simp only [Bool.false_eq_true, false_iff, not_forall]
      refine ⟨item, List.mem_cons_self, fun ⟨found, member, same⟩ => ?_⟩
      exact List.not_mem_nil (ahead self member same)
    | cons found =>
      have further := ordered.sublist sublist
      simp only [Bool.and_eq_true, beq_iff_eq, ih further increasing, List.forall_mem_cons]
      constructor
      · rintro ⟨same, others⟩
        refine ⟨⟨found, sublist.mem List.mem_cons_self, same⟩, fun next member => ?_⟩
        obtain ⟨equal, among, same⟩ := others next member
        exact ⟨equal, sublist.mem among, same⟩
      · rintro ⟨⟨equal, among, same⟩, others⟩
        constructor
        · rcases List.mem_cons.mp (ahead self among same) with rfl | behind
          · exact same
          · -- The cursor would have passed what stands before the equal of the item.
            have earlier :=
              TransCmp.lt_of_lt_of_eq ((List.pairwise_cons.mp further).1 _ behind) same
            simp [earlier] at reached
        · intro next member
          obtain ⟨equal, among, same⟩ := others next member
          exact ⟨equal, ahead (by simp [first next member]) among same, same⟩

end ProvenanceRunner.Merging
