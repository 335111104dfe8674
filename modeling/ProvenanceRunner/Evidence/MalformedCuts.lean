import Mathlib.Data.List.Induction
import ProvenanceRunner.Evidence.Normalizer

/-! # Cuts inside malformed sequences

The normaliser can tell how its input was cut into writes. A malformed sequence is dropped with
the continuation bytes its first byte still claims, but only as far as they have arrived; one that
arrives with the next write is malformed on its own and becomes a replacement of its own.

`SplitsMalformed` says that a cut falls there. Cutting elsewhere is invisible, and each cut that
falls there adds to the normalised text. -/

namespace ProvenanceRunner.Evidence

open Utf8

/-- A malformed sequence that still claims a byte: a lead, a continuation byte outside the lead's
range for its second byte, and further continuation bytes, all together fewer than the lead
announces. -/
def OpenMalformed (lead second : UInt8) (more : Bytes) : Prop :=
  ∃ size low high, first lead = .lead size low high ∧ (second < low ∨ high < second) ∧
    isContinuation second = true ∧ more.all isContinuation = true ∧ more.length + 2 < size

/-- The cut between the two parts falls inside a malformed sequence: the first part ends with an
open one and the second part starts with a continuation byte. -/
def SplitsMalformed (before after : Bytes) : Prop :=
  ∃ front lead second more next rest,
    before = front ++ lead :: second :: more ∧ after = next :: rest ∧
    OpenMalformed lead second more ∧ isContinuation next = true

/-- The claimed size is that of the table of first bytes. -/
theorem expectedSize_eq (byte : UInt8) :
    expectedSize byte = match first byte with
      | .lead size _ _ => size
      | _ => 1 := by
  revert byte
  exact forall_byte (by decide +kernel)

variable (lead : UInt8)

/-- A lead is no continuation byte. -/
theorem not_continuation_of_lead (byte : UInt8) (size : Nat) (low high : UInt8)
    (announced : first byte = .lead size low high) : isContinuation byte = false := by
  cases continues : isContinuation byte with
  | false => rfl
  | true =>
    rw [first_continuation byte continues] at announced
    cases announced

/-- A sequence in front of the data matters for a cut behind the data only if it is itself the one
that is cut. -/
theorem splitsMalformed_cons_iff (tail rest after : Bytes)
    (continues : tail.all isContinuation = true)
    (closed : ∀ second more next others, tail ++ rest = second :: more → after = next :: others →
      isContinuation next = true → ¬ OpenMalformed lead second more) :
    SplitsMalformed (lead :: tail ++ rest) after ↔ SplitsMalformed rest after := by
  constructor
  · rintro ⟨front, other, second, more, next, others, whole, following, isOpen, nextContinues⟩
    cases front with
    | nil =>
      simp only [List.cons_append, List.nil_append, List.cons.injEq] at whole
      obtain ⟨rfl, whole⟩ := whole
      exact absurd isOpen (closed second more next others whole following nextContinues)
    | cons head =>
      simp only [List.cons_append, List.cons.injEq] at whole
      obtain ⟨-, whole⟩ := whole
      rcases List.append_eq_append_iff.mp whole with ⟨between, rfl, split⟩ | ⟨between, rfl, split⟩
      · exact ⟨between, other, second, more, next, others, split, following, isOpen, nextContinues⟩
      cases between with
      | nil =>
        exact ⟨[], other, second, more, next, others, split.symm, following, isOpen,
          nextContinues⟩
      | cons =>
        simp only [List.cons_append, List.cons.injEq] at split
        obtain ⟨rfl, -⟩ := split
        obtain ⟨size, low, high, announced, -⟩ := isOpen
        have notContinuation := not_continuation_of_lead other size low high announced
        rw [List.all_append, List.all_cons, notContinuation] at continues
        simp at continues
  · rintro ⟨front, other, second, more, next, others, rfl, following, isOpen, nextContinues⟩
    exact ⟨lead :: tail ++ front, other, second, more, next, others,
      by simp, following, isOpen, nextContinues⟩

theorem not_splitsMalformed_of_nil (after : Bytes) : ¬ SplitsMalformed [] after := by
  rintro ⟨_, _, _, _, _, _, whole, -⟩
  simp at whole

/-- A second byte that the lead admits does not make a malformed sequence. -/
theorem not_openMalformed {lead second : UInt8} {size : Nat} {low high : UInt8} {more : Bytes}
    (announced : first lead = .lead size low high) (atLeast : low ≤ second)
    (atMost : second ≤ high) : ¬ OpenMalformed lead second more := by
  rintro ⟨_, _, _, announced', outside, -⟩
  rw [announced] at announced'
  cases announced'
  rcases outside with below | above
  · exact UInt8.not_lt.mpr atLeast below
  · exact UInt8.not_lt.mpr atMost above

/-- An undecided front can still become a rune, so a cut behind it is harmless. -/
theorem not_splitsMalformed_incomplete (before after : Bytes)
    (undecided : fullRune before = false) :
    ¬ SplitsMalformed before after := by
  cases before with
  | nil => exact not_splitsMalformed_of_nil after
  | cons lead tail =>
    have shape := (incomplete_iff lead tail).mp undecided
    rw [← List.append_nil (lead :: tail),
      splitsMalformed_cons_iff lead tail [] after shape.continues]
    · exact not_splitsMalformed_of_nil after
    intro second more next others whole _ _
    rw [List.append_nil] at whole
    cases shape with
    | alone => cases whole
    | second size low high _ _ announced atLeast atMost =>
      cases whole
      exact not_openMalformed announced atLeast atMost

/-- A complete rune in front of the data is never the sequence that is cut. -/
theorem splitsMalformed_rune_iff (rune rest after : Bytes) (isRune : IsRune rune) :
    SplitsMalformed (rune ++ rest) after ↔ SplitsMalformed rest after := by
  cases rune with
  | nil => exact isRune.elim
  | cons lead tail =>
    refine splitsMalformed_cons_iff lead tail rest after isRune.tail_continues ?_
    intro second more next others whole _ _
    cases isRune with
    | ascii small =>
      rintro ⟨size, low, high, announced, -⟩
      rw [small] at announced
      cases announced
    | multibyte size low high _ _ announced atLeast atMost =>
      cases whole
      exact not_openMalformed announced atLeast atMost

/-- A decided sequence whose claimed bytes have not all arrived is an open malformed one. -/
theorem openMalformed_of_run (run : Bytes) (decided : fullRune (lead :: run) = true)
    (continues : run.all isContinuation = true) (claims : run.length < expectedSize lead - 1) :
    ∃ second more, run = second :: more ∧ OpenMalformed lead second more := by
  have complete : ¬ PartialShape lead run := by
    rw [← incomplete_iff, decided]
    exact nofun
  rw [expectedSize_eq] at claims
  cases announced : first lead with
  | ascii | invalid => simp [announced] at claims
  | lead size low high =>
    simp only [announced] at claims
    cases run with
    | nil => exact absurd (.alone lead size low high announced) complete
    | cons second more =>
      rw [List.all_cons, Bool.and_eq_true] at continues
      rw [List.length_cons] at claims
      refine ⟨second, more, rfl, size, low, high, announced, ?_, continues.1, continues.2, by omega⟩
      by_contra inside
      rw [not_or, UInt8.not_lt, UInt8.not_lt] at inside
      exact complete (.second lead size low high second more announced inside.1 inside.2 (by omega)
        continues.2)

/-- An open malformed sequence has not reached its claimed size. -/
theorem run_of_openMalformed (lead second : UInt8) (more : Bytes)
    (isOpen : OpenMalformed lead second more) :
    (second :: more).all isContinuation = true ∧
      (second :: more).length < expectedSize lead - 1 := by
  obtain ⟨size, low, high, announced, -, continues, rest, short⟩ := isOpen
  constructor
  · rw [List.all_cons, continues, rest, Bool.and_self]
  · rw [expectedSize_eq, announced, List.length_cons]
    dsimp only
    omega

/-- A continuation byte where a sequence should start is malformed on its own. -/
theorem normalize_continuation (byte : UInt8) (rest : Bytes)
    (continues : isContinuation byte = true) :
    normalize (byte :: rest) = ((normalize rest).1, replacement ++ (normalize rest).2) := by
  have starts := first_continuation byte continues
  have alone : expectedSize byte = 1 := by rw [expectedSize_eq, starts]
  exact @normalize_malformed byte [] rest (by simp [fullRune, starts]) (by simp [runeSize, starts])
    ⟨rfl, Nat.zero_le _, fun shorter => by simp [alone] at shorter⟩

/-- Continuation bytes at the front cost a replacement each. -/
theorem normalize_run (run rest : Bytes) (continues : run.all isContinuation = true) :
    (normalize (run ++ rest)).1 = (normalize rest).1 ∧
      (normalize (run ++ rest)).2.length = 3 * run.length + (normalize rest).2.length := by
  induction run with
  | nil => simp
  | cons byte run ih =>
    rw [List.all_cons, Bool.and_eq_true] at continues
    obtain ⟨samePending, counted⟩ := ih continues.2
    rw [List.cons_append, normalize_continuation byte _ continues.1]
    refine ⟨samePending, ?_⟩
    have three : replacement.length = 3 := rfl
    simp only [List.length_append, List.length_cons, counted]
    omega

/-- The sequence at the front of the first part, cut before it is complete: the whole text drops
more bytes with it, the two parts give each of those bytes a replacement of its own. -/
theorem normalize_cut_inside (run others : Bytes) (next : UInt8)
    (decided : fullRune (lead :: run) = true) (refused : runeSize (lead :: run) = none)
    (continues : run.all isContinuation = true) (claims : run.length < expectedSize lead - 1)
    (nextContinues : isContinuation next = true) :
    (normalize (lead :: run ++ next :: others)).1 = (normalize (next :: others)).1 ∧
      (normalize (lead :: run ++ next :: others)).2.length <
        3 + (normalize (next :: others)).2.length := by
  obtain ⟨more, rest, split, taken⟩ :=
    exists_taken (expectedSize lead - 1 - run.length) (next :: others)
  obtain ⟨samePending, counted⟩ := normalize_run more rest taken.continues
  have positive : 0 < more.length := by
    by_contra empty
    obtain rfl := List.length_eq_zero_iff.mp (Nat.eq_zero_of_not_pos empty)
    rw [taken.stops (by rw [List.length_nil]; omega) next others split.symm] at nextContinues
    cases nextContinues
  have both : Taken (expectedSize lead - 1) (run ++ more) rest := by
    obtain ⟨moreContinues, within, stops⟩ := taken
    refine ⟨?_, ?_, fun shorter => stops ?_⟩
    · rw [List.all_append, continues, moreContinues, Bool.and_self]
    · rw [List.length_append]
      omega
    · rw [List.length_append] at shorter
      omega
  have whole : lead :: run ++ (more ++ rest) = lead :: (run ++ more) ++ rest := by simp
  have decidedWhole := fullRune_append _ (more ++ rest) decided
  have refusedWhole := runeSize_append_of_fullRune _ (more ++ rest) decided
  rw [whole] at decidedWhole refusedWhole
  rw [split, whole, normalize_malformed decidedWhole (refusedWhole.trans refused) both]
  refine ⟨samePending.symm, ?_⟩
  have three : replacement.length = 3 := rfl
  rw [List.length_append]
  omega

/-- A cut that does not change what is dropped with the sequence at the front is a cut of the rest
of the data. -/
theorem splitsMalformed_malformed_iff (run rest after : Bytes)
    (taken : Taken (expectedSize lead - 1) run (rest ++ after)) :
    SplitsMalformed (lead :: run ++ rest) after ↔ SplitsMalformed rest after := by
  refine splitsMalformed_cons_iff lead run rest after taken.continues ?_
  rintro second more next others whole rfl nextContinues isOpen
  obtain ⟨continues, claims⟩ := run_of_openMalformed lead second more isOpen
  rw [← whole, List.length_append] at claims
  have stops := taken.stops (by omega)
  cases rest with
  | nil =>
    rw [stops next others rfl] at nextContinues
    cases nextContinues
  | cons head tail =>
    rw [← whole, List.all_append, List.all_cons, stops head (tail ++ next :: others) rfl]
      at continues
    simp at continues

/-- The bytes taken from the data are those taken from more of it, unless the data ends with them
and more of them follow. -/
theorem Taken.append_cases {limit : Nat} {run rest : Bytes} (taken : Taken limit run rest)
    (after : Bytes) : Taken limit run (rest ++ after) ∨
      (rest = [] ∧ run.length < limit ∧
        ∃ next others, after = next :: others ∧ isContinuation next = true) := by
  obtain ⟨continues, within, stops⟩ := taken
  by_cases shorter : run.length < limit
  swap
  · exact .inl ⟨continues, within, fun below => absurd below shorter⟩
  cases rest with
  | cons head tail =>
    left
    refine ⟨continues, within, fun _ next others same => stops shorter next tail ?_⟩
    cases same
    rfl
  | nil =>
    cases after with
    | nil => exact .inl ⟨continues, within, stops⟩
    | cons next others =>
      by_cases more : isContinuation next = true
      · exact .inr ⟨rfl, shorter, next, others, rfl, more⟩
      left
      refine ⟨continues, within, fun _ head tail same => ?_⟩
      cases same
      simpa using more

/-- What two writes do and what one write of both parts does: they always keep the same undecided
rest, pass on the same text when the cut spares every malformed sequence, and otherwise two writes
pass on more. -/
theorem normalize_append (before after : Bytes) :
    (normalize (before ++ after)).1 = (normalize ((normalize before).1 ++ after)).1 ∧
      (¬ SplitsMalformed before after →
        (normalize (before ++ after)).2 =
          (normalize before).2 ++ (normalize ((normalize before).1 ++ after)).2) ∧
      (SplitsMalformed before after →
        (normalize (before ++ after)).2.length <
          (normalize before).2.length + (normalize ((normalize before).1 ++ after)).2.length) := by
  induction before using normalize_induction with
  | incomplete data undecided =>
    rw [normalize_incomplete data undecided]
    refine ⟨rfl, fun _ => rfl, fun splits => ?_⟩
    exact absurd splits (not_splitsMalformed_incomplete data after undecided)
  | rune rune rest isRune ih =>
    obtain ⟨samePending, sameText, longer⟩ := ih
    rw [splitsMalformed_rune_iff rune rest after isRune, List.append_assoc,
      normalize_rune rune (rest ++ after) isRune, normalize_rune rune rest isRune]
    refine ⟨samePending, fun spared => ?_, fun splits => ?_⟩
    · rw [sameText spared, List.append_assoc]
    · have counted := longer splits
      simp only [List.length_append]
      omega
  | malformed lead run rest decided refused taken ih =>
    rcases taken.append_cases after with kept | ⟨rfl, claims, next, others, rfl, continues⟩
    · obtain ⟨samePending, sameText, longer⟩ := ih
      have decidedWhole := fullRune_append _ after decided
      have refusedWhole := runeSize_append_of_fullRune _ after decided
      rw [List.append_assoc] at decidedWhole refusedWhole
      rw [splitsMalformed_malformed_iff lead run rest after kept, List.append_assoc,
        normalize_malformed decidedWhole (refusedWhole.trans refused) kept,
        normalize_malformed decided refused taken]
      refine ⟨samePending, fun spared => ?_, fun splits => ?_⟩
      · rw [sameText spared, List.append_assoc]
      · have counted := longer splits
        simp only [List.length_append]
        omega
    · -- More of the sequence follows behind the cut.
      rw [normalize_malformed decided refused taken]
      rw [List.append_nil] at decided refused ⊢
      obtain ⟨samePending, longer⟩ := normalize_cut_inside lead run others next decided refused
        taken.continues claims continues
      obtain ⟨second, more, rfl, isOpen⟩ :=
        openMalformed_of_run lead run decided taken.continues claims
      have splits : SplitsMalformed (lead :: second :: more) (next :: others) :=
        ⟨[], lead, second, more, next, others, rfl, rfl, isOpen, continues⟩
      exact ⟨samePending, fun spared => absurd splits spared, fun _ => longer⟩

/-- No cut between the chunks falls inside a malformed sequence, counting the bytes the normaliser
has kept from before. -/
def SparesMalformed (pending : Bytes) (chunks : List Bytes) : Prop :=
  ∀ left right, chunks = left ++ right →
    ¬ SplitsMalformed (pending ++ left.flatten) right.flatten

theorem not_splitsMalformed_nil (before : Bytes) : ¬ SplitsMalformed before [] := by
  rintro ⟨_, _, _, _, _, _, -, following, -⟩
  cases following

/-- Only the first byte behind a cut matters. -/
theorem splitsMalformed_append_iff (before after rest : Bytes) (nonempty : after ≠ []) :
    SplitsMalformed before (after ++ rest) ↔ SplitsMalformed before after := by
  cases after with
  | nil => exact absurd rfl nonempty
  | cons head others =>
    constructor
    · rintro ⟨front, lead, second, more, _, _, whole, following, isOpen, continues⟩
      cases following
      exact ⟨front, lead, second, more, head, others, whole, rfl, isOpen, continues⟩
    · rintro ⟨front, lead, second, more, _, _, whole, following, isOpen, continues⟩
      cases following
      exact ⟨front, lead, second, more, head, others ++ rest, whole, rfl, isOpen, continues⟩

/-- A further chunk adds one cut. -/
theorem sparesMalformed_snoc_iff (pending : Bytes) (chunks : List Bytes) (chunk : Bytes) :
    SparesMalformed pending (chunks ++ [chunk]) ↔
      SparesMalformed pending chunks ∧ ¬ SplitsMalformed (pending ++ chunks.flatten) chunk := by
  constructor
  · intro spares
    have last : ¬ SplitsMalformed (pending ++ chunks.flatten) chunk := by
      simpa using spares chunks [chunk] rfl
    refine ⟨?_, last⟩
    rintro left right rfl splits
    by_cases empty : right.flatten = []
    · rw [empty] at splits
      exact not_splitsMalformed_nil _ splits
    · refine spares left (right ++ [chunk]) (by simp) ?_
      rw [List.flatten_append]
      exact (splitsMalformed_append_iff _ _ _ empty).mpr splits
  · rintro ⟨spares, last⟩ left right whole splits
    rcases List.eq_nil_or_concat right with rfl | ⟨others, _, rfl⟩
    · exact not_splitsMalformed_nil _ splits
    rw [List.concat_eq_append, ← List.append_assoc] at whole
    obtain ⟨rfl, rfl⟩ := List.append_singleton_inj.mp whole
    rw [List.concat_eq_append, List.flatten_append, List.flatten_singleton] at splits
    by_cases empty : others.flatten = []
    · rw [empty, List.nil_append] at splits
      rw [List.flatten_append, empty, List.append_nil] at last
      exact last splits
    · exact spares left others rfl ((splitsMalformed_append_iff _ _ _ empty).mp splits)

theorem Utf8Normalizer.writes_snoc (normalizer : Utf8Normalizer) (chunks : List Bytes)
    (chunk : Bytes) :
    normalizer.writes (chunks ++ [chunk]) =
      (((normalizer.writes chunks).1.write chunk).1,
        (normalizer.writes chunks).2 ++ ((normalizer.writes chunks).1.write chunk).2) := by
  induction chunks generalizing normalizer with
  | nil => simp [writes]
  | cons content rest ih => simp [writes, ih]

/-- Writing chunk by chunk keeps the undecided rest of the whole text, and passes on the normalised
whole text exactly when every cut spares the malformed sequences; otherwise it passes on more.
Induct over the chunks from the last one; each new chunk adds one cut. -/
theorem Utf8Normalizer.writes_spec (pending : Bytes) (undecided : fullRune pending = false)
    (chunks : List Bytes) :
    ((⟨pending⟩ : Utf8Normalizer).writes chunks).1.pending =
        (normalize (pending ++ chunks.flatten)).1 ∧
      (SparesMalformed pending chunks →
        ((⟨pending⟩ : Utf8Normalizer).writes chunks).2 =
          (normalize (pending ++ chunks.flatten)).2) ∧
      (¬ SparesMalformed pending chunks →
        (normalize (pending ++ chunks.flatten)).2.length <
          ((⟨pending⟩ : Utf8Normalizer).writes chunks).2.length) := by
  induction chunks using List.reverseRecOn with
  | nil =>
    simp only [writes, List.flatten_nil, List.append_nil, normalize_incomplete pending undecided]
    refine ⟨trivial, fun _ => trivial, fun splits => absurd ?_ splits⟩
    intro left right whole
    obtain ⟨rfl, rfl⟩ := List.append_eq_nil_iff.mp whole.symm
    exact not_splitsMalformed_nil _
  | append_singleton chunks chunk ih =>
    obtain ⟨samePending, sameText, longer⟩ := ih
    obtain ⟨cutPending, cutText, cutLonger⟩ := normalize_append (pending ++ chunks.flatten) chunk
    rw [writes_snoc, sparesMalformed_snoc_iff, List.flatten_append, List.flatten_singleton,
      ← List.append_assoc]
    simp only [write, samePending]
    refine ⟨cutPending.symm, ?_, ?_⟩
    · rintro ⟨spares, last⟩
      rw [cutText last, sameText spares]
    intro splits
    simp only [List.length_append]
    by_cases spares : SparesMalformed pending chunks
    · have last : SplitsMalformed (pending ++ chunks.flatten) chunk := by
        by_contra spared
        exact splits ⟨spares, spared⟩
      have counted := cutLonger last
      rw [sameText spares]
      omega
    · have before := longer spares
      by_cases last : SplitsMalformed (pending ++ chunks.flatten) chunk
      · have counted := cutLonger last
        omega
      · have counted := congrArg List.length (cutText last)
        rw [List.length_append] at counted
        omega

end ProvenanceRunner.Evidence
