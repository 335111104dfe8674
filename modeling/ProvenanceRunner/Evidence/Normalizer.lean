import ProvenanceRunner.Library.Utf8

/-! # The UTF-8 normaliser

The first stage of the evidence pipeline replaces malformed byte sequences of a stream by U+FFFD.
Between two writes it keeps an undecided front of at most three bytes. A malformed sequence is
dropped as a whole: its first byte and the continuation bytes that byte still claims, as far as
they have arrived. -/

namespace ProvenanceRunner.Evidence

open Utf8

/-- The encoding of U+FFFD. -/
def replacement : Bytes := [0xEF, 0xBF, 0xBD]

/-- The number of continuation bytes at the front of the data, up to a limit. -/
def continuationRun : Nat → Bytes → Nat
  | 0, _ => 0
  | _ + 1, [] => 0
  | limit + 1, byte :: rest => if isContinuation byte then continuationRun limit rest + 1 else 0

/-- The number of bytes a first byte claims for its sequence. -/
def expectedSize (byte : UInt8) : Nat :=
  if 0xC2 ≤ byte ∧ byte ≤ 0xDF then 2
  else if 0xE0 ≤ byte ∧ byte ≤ 0xEF then 3
  else if 0xF0 ≤ byte ∧ byte ≤ 0xF4 then 4
  else 1

/-- The number of bytes dropped for the malformed sequence at the front of the data. -/
def invalidSequenceSize : Bytes → Nat
  | [] => 1
  | lead :: rest => 1 + continuationRun (expectedSize lead - 1) rest

/-- The loop of one write: the undecided rest and the bytes passed on. Every round takes a byte, so
the length of the data bounds the number of rounds. -/
def normalizeWithin : Nat → Bytes → Bytes × Bytes
  | _, [] => ([], [])
  | 0, data => (data, [])
  | fuel + 1, data =>
    if fullRune data then
      match runeSize data with
      | none =>
        let later := normalizeWithin fuel (data.drop (invalidSequenceSize data))
        (later.1, replacement ++ later.2)
      | some size =>
        let later := normalizeWithin fuel (data.drop size)
        (later.1, data.take size ++ later.2)
    else (data, [])

/-- The loop with as many rounds as it can need. -/
def normalize (data : Bytes) : Bytes × Bytes := normalizeWithin data.length data

structure Utf8Normalizer where
  pending : Bytes := []
deriving DecidableEq, Repr

/-- One write passes on what is decided and keeps the rest. -/
def Utf8Normalizer.write (normalizer : Utf8Normalizer) (content : Bytes) :
    Utf8Normalizer × Bytes :=
  let processed := normalize (normalizer.pending ++ content)
  (⟨processed.1⟩, processed.2)

/-- At the end of the stream an undecided rest is malformed. -/
def Utf8Normalizer.finish (normalizer : Utf8Normalizer) : Utf8Normalizer × Bytes :=
  if normalizer.pending.length > 0 then (⟨[]⟩, replacement) else (normalizer, [])

/-- A sequence of writes, one after another. -/
def Utf8Normalizer.writes (normalizer : Utf8Normalizer) : List Bytes → Utf8Normalizer × Bytes
  | [] => (normalizer, [])
  | content :: rest =>
    let now := normalizer.write content
    let later := now.1.writes rest
    (later.1, now.2 ++ later.2)

/-- The continuation bytes that a limit takes from the front of the data. -/
structure Taken (limit : Nat) (run rest : Bytes) : Prop where
  continues : run.all isContinuation = true
  within : run.length ≤ limit
  stops : run.length < limit → ∀ next others, rest = next :: others → isContinuation next = false

theorem Taken.cons {limit : Nat} {run rest : Bytes} {byte : UInt8} (taken : Taken limit run rest)
    (continues : isContinuation byte = true) : Taken (limit + 1) (byte :: run) rest where
  continues := by rw [List.all_cons, continues, taken.continues, Bool.and_self]
  within := Nat.succ_le_succ taken.within
  stops shorter := taken.stops (Nat.lt_of_succ_lt_succ shorter)

theorem continuationRun_of_taken {limit : Nat} {run rest : Bytes} (taken : Taken limit run rest) :
    continuationRun limit (run ++ rest) = run.length := by
  induction run generalizing limit with
  | nil =>
    cases limit with
    | zero => rfl
    | succ limit =>
      cases rest with
      | nil => rfl
      | cons next others =>
        simp [continuationRun, taken.stops (Nat.succ_pos limit) next others rfl]
  | cons byte run ih =>
    obtain ⟨continues, within, stops⟩ := taken
    rw [List.all_cons, Bool.and_eq_true] at continues
    rw [List.length_cons] at within stops
    cases limit with
    | zero => simp at within
    | succ =>
      simp only [List.cons_append, continuationRun, continues.1, if_true, List.length_cons]
      rw [ih ⟨continues.2, by omega, fun shorter => stops (by omega)⟩]

theorem exists_taken (limit : Nat) (data : Bytes) :
    ∃ run rest, data = run ++ rest ∧ Taken limit run rest := by
  induction limit generalizing data with
  | zero => exact ⟨[], data, rfl, rfl, Nat.le_refl _, fun shorter => absurd shorter (by simp)⟩
  | succ limit ih =>
    cases data with
    | nil => exact ⟨[], [], rfl, rfl, Nat.zero_le _, nofun⟩
    | cons byte others =>
      by_cases continues : isContinuation byte = true
      · obtain ⟨run, rest, rfl, taken⟩ := ih others
        exact ⟨byte :: run, rest, rfl, taken.cons continues⟩
      refine ⟨[], byte :: others, rfl, rfl, Nat.zero_le _, ?_⟩
      rintro _ next rest same
      cases same
      simpa using continues

/-- Rounds beyond the length of the data change nothing. -/
theorem normalizeWithin_eq (fuel other : Nat) (data : Bytes) (enough : data.length ≤ fuel)
    (also : data.length ≤ other) : normalizeWithin fuel data = normalizeWithin other data := by
  induction fuel generalizing other data with
  | zero =>
    obtain rfl := List.length_eq_zero_iff.mp (Nat.le_zero.mp enough)
    cases other <;> rfl
  | succ fuel ih =>
    cases data with
    | nil => cases other <;> rfl
    | cons lead tail =>
      cases other with
      | zero => simp at also
      | succ other =>
        have both : ∀ count, 0 < count → normalizeWithin fuel ((lead :: tail).drop count) =
            normalizeWithin other ((lead :: tail).drop count) := by
          intro count positive
          simp only [List.length_cons] at enough also
          refine ih other _ ?_ ?_ <;> simp only [List.length_drop, List.length_cons] <;> omega
        simp only [normalizeWithin]
        cases decoded : runeSize (lead :: tail) with
        | none =>
          have positive : 0 < invalidSequenceSize (lead :: tail) := Nat.add_pos_left Nat.one_pos _
          simp only [both _ positive]
        | some => simp only [both _ (runeSize_bounds _ _ decoded).1]

variable (data : Bytes)

/-- An undecided front waits for more bytes. -/
theorem normalize_incomplete (undecided : fullRune data = false) :
    normalize data = (data, []) := by
  cases data with
  | nil => rfl
  | cons => simp [normalize, normalizeWithin, undecided]

/-- A rune in front is passed on unchanged. -/
theorem normalize_rune (rune rest : Bytes) (isRune : IsRune rune) :
    normalize (rune ++ rest) = ((normalize rest).1, rune ++ (normalize rest).2) := by
  have decoded := runeSize_append_of_isRune rune rest isRune
  have decided := fullRune_of_runeSize _ _ decoded
  cases rune with
  | nil => exact isRune.elim
  | cons lead tail =>
    rw [List.cons_append] at decoded decided
    have later : normalizeWithin (tail ++ rest).length rest = normalize rest :=
      normalizeWithin_eq _ _ rest (by simp) (Nat.le_refl _)
    have dropped : (lead :: (tail ++ rest)).drop (lead :: tail).length = rest := by
      simp
    have taken : (lead :: (tail ++ rest)).take (lead :: tail).length = lead :: tail := by
      simp
    have counted : (lead :: (tail ++ rest)).length = (tail ++ rest).length + 1 := rfl
    conv => lhs; unfold normalize
    simp only [List.cons_append, counted, normalizeWithin, decided, if_true, decoded, dropped,
      taken, later]

/-- A malformed sequence in front becomes one U+FFFD. -/
theorem normalize_malformed {lead : UInt8} {run rest : Bytes}
    (decided : fullRune (lead :: run ++ rest) = true)
    (refused : runeSize (lead :: run ++ rest) = none)
    (taken : Taken (expectedSize lead - 1) run rest) :
    normalize (lead :: run ++ rest) = ((normalize rest).1, replacement ++ (normalize rest).2) := by
  have dropped : (lead :: run ++ rest).drop (invalidSequenceSize (lead :: run ++ rest)) = rest := by
    rw [List.cons_append, invalidSequenceSize, continuationRun_of_taken taken, Nat.add_comm,
      List.drop_succ_cons, List.drop_left]
  have later : normalizeWithin (run ++ rest).length rest = normalize rest :=
    normalizeWithin_eq _ _ rest (by simp) (Nat.le_refl _)
  rw [List.cons_append] at decided refused dropped ⊢
  conv => lhs; unfold normalize
  simp only [List.length_cons, normalizeWithin, decided, if_true, refused, dropped, later]

/-- The three things the loop can find at the front of its data; every property of the loop is
proved by going through them. -/
theorem normalize_induction {motive : Bytes → Prop}
    (incomplete : ∀ data, fullRune data = false → motive data)
    (rune : ∀ rune rest, IsRune rune → motive rest → motive (rune ++ rest))
    (malformed : ∀ lead run rest, fullRune (lead :: run ++ rest) = true →
      runeSize (lead :: run ++ rest) = none → Taken (expectedSize lead - 1) run rest →
      motive rest → motive (lead :: run ++ rest))
    (data : Bytes) : motive data := by
  induction length : data.length using Nat.strongRecOn generalizing data with
  | ind count ih =>
    cases decided : fullRune data with
    | false => exact incomplete data decided
    | true =>
      cases decoded : runeSize data with
      | none =>
        cases data with
        | nil => simp [fullRune] at decided
        | cons lead tail =>
          obtain ⟨run, rest, rfl, taken⟩ := exists_taken (expectedSize lead - 1) tail
          refine malformed lead run rest decided decoded taken (ih _ ?_ _ rfl)
          rw [List.length_cons, List.length_append] at length
          omega
      | some =>
        obtain ⟨front, rest, rfl, isRune, -⟩ := runeSize_cases _ _ decoded
        refine rune front rest isRune (ih _ ?_ _ rfl)
        have positive := isRune.length_pos
        rw [List.length_append] at length
        omega

theorem replacement_isRune : IsRune replacement := by
  rw [isRune_iff]
  decide

/-- The normaliser passes on valid UTF-8 only. -/
theorem normalize_output_valid : valid (normalize data).2 = true := by
  induction data using normalize_induction with
  | incomplete data undecided => rw [normalize_incomplete data undecided, valid_nil]
  | rune rune rest isRune ih =>
    rw [normalize_rune rune rest isRune, valid_rune_append rune _ isRune, ih]
  | malformed lead run rest decided refused taken ih =>
    rw [normalize_malformed decided refused taken, valid_rune_append _ _ replacement_isRune, ih]

/-- The normalised text of a finished stream. -/
def normalizedText (chunks : List Bytes) : Bytes :=
  let normalized := Utf8Normalizer.writes {} chunks
  normalized.2 ++ normalized.1.finish.2

theorem normalizedText_valid (chunks : List Bytes) : valid (normalizedText chunks) = true := by
  have writes : ∀ normalizer : Utf8Normalizer, valid (normalizer.writes chunks).2 = true := by
    induction chunks with
    | nil => intro normalizer; rfl
    | cons content rest ih =>
      intro normalizer
      have front : valid (normalizer.write content).2 = true := normalize_output_valid _
      simp only [Utf8Normalizer.writes]
      rw [valid_append _ _ front, ih]
  unfold normalizedText
  rw [valid_append _ _ (writes {})]
  unfold Utf8Normalizer.finish
  split
  · exact replacement_isRune.valid
  · rfl

end ProvenanceRunner.Evidence
