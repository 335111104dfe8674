import ProvenanceRunner.Gateway.Client

/-! # Live log entries

What a worker writes is cut into entries of a bounded size. An entry ends between two characters
where the text allows it, and at the bound where it does not. -/

namespace ProvenanceRunner.Gateway

open Utf8

def maximumLiveLogEntryBytes : Nat := 16 * 2 ^ 10

def liveLogChunkSize (data : Bytes) : Nat :=
  let count := min data.length maximumLiveLogEntryBytes
  if count = data.length || valid (data.take count) then count
  else match (trimInvalid (data.take count)).length with
    | 0 => min data.length maximumLiveLogEntryBytes
    | cut + 1 => cut + 1

inductive LiveStream where
  | stdout | stderr | other
deriving DecidableEq, Repr

structure LiveLogEntry where
  stream : LiveStream
  data : Bytes
  isPartial : Bool
  redacted : Bool

def maximumLogSequence : Nat := 2 ^ 63 - 1

structure LiveExecutionObserver where
  lease : Option LeaseIdentity
  attempt : Option AttemptIdentity
  logSequence : Nat
  dropped : Nat
  bounded : logSequence ≤ maximumLogSequence

/-- What the outside answers to one chunk: the clock, the session, and whether the channel has
room. -/
structure ChunkAnswer where
  now : Int
  generation : Nat
  room : Bool

/-- A chunk and the event made of it. There is none once the sequence numbers are used up. -/
structure FormedChunk where
  data : Bytes
  event : Option WorkerEvidence

def saturatingIncrement (value : Nat) : Nat := if value = 2 ^ 64 - 1 then value else value + 1

section

variable (entry : LiveLogEntry) (stderr : Bool)

/-- One round of the loop. `more` says that data is left behind the chunk. -/
def LiveExecutionObserver.observeChunk (observer : LiveExecutionObserver) (answer : ChunkAnswer)
    (chunk : Bytes) (more : Bool) : LiveExecutionObserver × FormedChunk :=
  if full : observer.logSequence = maximumLogSequence then
    ({ observer with dropped := saturatingIncrement observer.dropped }, ⟨chunk, none⟩)
  else
    let logEntry : LogEntry :=
      { sequence := observer.logSequence + 1
        observedAt := Timestamp.ofTime answer.now
        stderr := stderr
        data := chunk
        isPartial := more || entry.isPartial
        redacted := entry.redacted }
    let batch : LogBatch := ⟨observer.lease, observer.attempt, [logEntry], observer.dropped⟩
    ({ observer with
        logSequence := observer.logSequence + 1
        dropped := if answer.room then 0 else saturatingIncrement observer.dropped
        bounded := Nat.lt_of_le_of_ne observer.bounded full },
      ⟨chunk, some ⟨answer.generation, batch.lease, batch.attempt, some batch, none, false⟩⟩)

/-- The loop over the data; `none` when the rounds do not suffice. -/
def observeChunks : Nat → (Nat → ChunkAnswer) → LiveExecutionObserver → Bytes →
    Option (LiveExecutionObserver × List FormedChunk)
  | 0, _, observer, data => if data = [] then some (observer, []) else none
  | rounds + 1, outside, observer, data =>
    if data = [] then some (observer, [])
    else
      let count := liveLogChunkSize data
      let rest := data.drop count
      let formed := observer.observeChunk entry stderr (outside 0) (data.take count) (!rest.isEmpty)
      (observeChunks rounds (fun round => outside (round + 1)) formed.1 rest).map fun later =>
        (later.1, formed.2 :: later.2)

end

/-- Every chunk takes a byte, so that the length of the data bounds the rounds. -/
def LiveExecutionObserver.observeLog (observer : LiveExecutionObserver)
    (outside : Nat → ChunkAnswer) (entry : LiveLogEntry) :
    Option (LiveExecutionObserver × List FormedChunk) :=
  match entry.stream with
  | .stdout => observeChunks entry false entry.data.length outside observer entry.data
  | .stderr => observeChunks entry true entry.data.length outside observer entry.data
  | .other => some (observer, [])

/-! ## One chunk -/

/-- Trimming leaves a text as long as any text in front. -/
theorem trimWithin_longest (fuel : Nat) (data front : Bytes) (start : front <+: data)
    (accepted : valid front = true) : front.length ≤ (trimWithin fuel data).length := by
  induction fuel generalizing data with
  | zero => exact start.length_le
  | succ fuel induction =>
    rw [trimWithin]
    split
    · exact start.length_le
    next refused =>
    refine induction data.dropLast
      (List.prefix_of_prefix_length_le start (List.dropLast_prefix _) ?_)
    have shorter : front.length ≠ data.length := by
      intro same
      rw [← start.eq_of_length same] at refused
      exact refused accepted
    have within := start.length_le
    rw [List.length_dropLast]
    omega

theorem liveLogChunkSize_bounds (data : Bytes) (nonempty : data ≠ []) :
    liveLogChunkSize data ≠ 0 ∧ liveLogChunkSize data ≤ data.length ∧
      liveLogChunkSize data ≤ maximumLiveLogEntryBytes := by
  have length := List.length_pos_iff.2 nonempty
  have bound : maximumLiveLogEntryBytes = 16384 := rfl
  have trimmed := (trimInvalid_front
    (data.take (min data.length maximumLiveLogEntryBytes))).length_le
  rw [List.length_take] at trimmed
  unfold liveLogChunkSize
  dsimp only
  split
  · omega
  split
  · omega
  · omega

/-- A character has at most four bytes. -/
theorem IsRune.length_le_four {rune : Bytes} (isRune : IsRune rune) : rune.length ≤ 4 := by
  cases rune with
  | nil => simp
  | cons lead tail =>
    cases isRune with
    | ascii => simp
    | multibyte size low high second more announced _ _ length =>
      have sizes := first_lead_bounds lead size low high announced
      simp only [List.length_cons]
      omega

/-- A text is cut between two characters. -/
theorem liveLogChunkSize_valid (data : Bytes) (nonempty : data ≠ [])
    (accepted : valid data = true) : valid (data.take (liveLogChunkSize data)) = true := by
  unfold liveLogChunkSize
  dsimp only
  split
  case isTrue whole =>
    simp only [Bool.or_eq_true, decide_eq_true_eq] at whole
    rcases whole with whole | whole
    · rw [whole, List.take_length]
      exact accepted
    · exact whole
  split
  case h_1 none =>
    obtain ⟨rune, rest, rfl, isRune, _⟩ := valid_starts data accepted nonempty
    have inside : rune.length ≤ min (rune ++ rest).length maximumLiveLogEntryBytes :=
      Nat.le_min.2 ⟨by simp, Nat.le_trans (IsRune.length_le_four isRune) (by decide)⟩
    have start := List.prefix_take_iff.2 ⟨List.prefix_append rune rest, inside⟩
    have longest : rune.length ≤ (trimInvalid _).length :=
      trimWithin_longest _ _ rune start isRune.valid
    rw [none] at longest
    exact absurd isRune.length_pos (Nat.not_lt.2 longest)
  case h_2 cut found =>
    have front := (trimInvalid_front
      (data.take (min data.length maximumLiveLogEntryBytes))).trans (List.take_prefix _ data)
    show valid (data.take cut.succ) = true
    rw [← found, ← List.prefix_iff_eq_take.1 front]
    exact trimInvalid_valid _

/-! ## All chunks -/

def FormedChunk.entries (chunk : FormedChunk) : List LogEntry :=
  ((chunk.event.bind (·.logBatch)).map (·.entries)).getD []

/-- The chunk carries the one entry with the given number. -/
def FormedChunk.Carries (chunk : FormedChunk) (sequence : Nat) (isPartial : Bool) : Prop :=
  ∃ logEntry, chunk.entries = [logEntry] ∧ logEntry.data = chunk.data ∧
    logEntry.sequence = sequence ∧ logEntry.isPartial = isPartial

/-- The chunks make up the data, have the admitted sizes, are texts when the data is one, and below
the limit carry entries with consecutive numbers that are partial up to the last. -/
structure Tiles (observer : LiveExecutionObserver) (entry : LiveLogEntry) (data : Bytes)
    (formed : List FormedChunk) : Prop where
  whole : (formed.map (·.data)).flatten = data
  sized : ∀ chunk ∈ formed, chunk.data ≠ [] ∧ chunk.data.length ≤ maximumLiveLogEntryBytes
  texts : valid data = true → ∀ chunk ∈ formed, valid chunk.data = true
  entries : ∀ (index : Nat) (chunk : FormedChunk), formed[index]? = some chunk →
    observer.logSequence + index < maximumLogSequence →
    chunk.Carries (observer.logSequence + index + 1)
      (decide (index + 1 < formed.length) || entry.isPartial)

variable (entry : LiveLogEntry)

theorem Tiles.nil (observer : LiveExecutionObserver) : Tiles observer entry [] [] :=
  ⟨rfl, by simp, by simp, by simp⟩

theorem observeChunk_data (observer : LiveExecutionObserver) (stderr : Bool) (answer : ChunkAnswer)
    (chunk : Bytes) (more : Bool) :
    (observer.observeChunk entry stderr answer chunk more).2.data = chunk := by
  unfold LiveExecutionObserver.observeChunk
  split <;> rfl

/-- Below the limit a chunk takes the next number. -/
theorem observeChunk_carries (observer : LiveExecutionObserver) (stderr : Bool)
    (answer : ChunkAnswer) (chunk : Bytes) (more : Bool)
    (below : observer.logSequence < maximumLogSequence) :
    let formed := observer.observeChunk entry stderr answer chunk more
    formed.1.logSequence = observer.logSequence + 1 ∧
      formed.2.Carries (observer.logSequence + 1) (more || entry.isPartial) := by
  unfold LiveExecutionObserver.observeChunk
  rw [dif_neg (Nat.ne_of_lt below)]
  exact ⟨rfl, _, rfl, rfl, rfl, rfl⟩

/-- The loop ends, and the chunks tile the data. -/
theorem observeChunks_tiles (stderr : Bool) (rounds : Nat) (outside : Nat → ChunkAnswer)
    (observer : LiveExecutionObserver) (data : Bytes) (enough : data.length ≤ rounds) :
    ∃ final formed, observeChunks entry stderr rounds outside observer data =
      some (final, formed) ∧ Tiles observer entry data formed := by
  induction rounds generalizing outside observer data with
  | zero =>
    obtain rfl := List.length_eq_zero_iff.1 (Nat.le_zero.1 enough)
    exact ⟨observer, [], rfl, .nil entry observer⟩
  | succ rounds induction =>
    by_cases empty : data = []
    · subst empty
      exact ⟨observer, [], rfl, .nil entry observer⟩
    obtain ⟨positive, inside, bound⟩ := liveLogChunkSize_bounds data empty
    unfold observeChunks
    rw [if_neg empty]
    dsimp only
    generalize made : liveLogChunkSize data = count at positive inside bound ⊢
    have length : (data.take count).length = count := List.length_take_of_le inside
    let step := observer.observeChunk entry stderr (outside 0) (data.take count)
      (!(data.drop count).isEmpty)
    have chunk : step.2.data = data.take count := observeChunk_data _ _ _ _ _ _
    obtain ⟨final, formed, run, tiles⟩ := induction (fun round => outside (round + 1)) step.1
      (data.drop count) (by rw [List.length_drop]; omega)
    have more : (!(data.drop count).isEmpty) = decide (1 < (step.2 :: formed).length) := by
      rw [← tiles.whole]
      cases formed with
      | nil => rfl
      | cons first others =>
        have filled := (tiles.sized first List.mem_cons_self).1
        simp [filled]
    refine ⟨final, step.2 :: formed, by simp only [run, Option.map_some, step], ?_, ?_, ?_, ?_⟩
    · rw [List.map_cons, List.flatten_cons, tiles.whole, chunk, List.take_append_drop]
    · intro other member
      rcases List.mem_cons.1 member with rfl | later
      · rw [chunk, length]
        exact ⟨fun none => positive (by rw [← length, none]; rfl), bound⟩
      · exact tiles.sized other later
    · intro accepted other member
      have cut := liveLogChunkSize_valid data empty accepted
      rw [made] at cut
      rcases List.mem_cons.1 member with rfl | later
      · rw [chunk]
        exact cut
      · refine tiles.texts ?_ other later
        rwa [← valid_append _ _ cut, List.take_append_drop]
    · intro index other found below
      have first := observeChunk_carries entry observer stderr (outside 0) (data.take count)
        (!(data.drop count).isEmpty) (Nat.lt_of_le_of_lt (Nat.le_add_right _ _) below)
      cases index with
      | zero =>
        obtain rfl := Option.some.inj found
        rw [← more]
        exact first.2
      | succ index =>
        have next : step.1.logSequence + index = observer.logSequence + (index + 1) := by
          rw [first.1]
          omega
        have carries := tiles.entries index other (by simpa using found) (next ▸ below)
        rw [next] at carries
        simpa using carries

/-- Whatever is written on one of the two streams is cut into chunks that tile it, in finitely many
rounds and whether or not it is a text.

Proof: `observeChunks_tiles`, an induction over the chunks. -/
theorem observeLog_tiles (observer : LiveExecutionObserver) (outside : Nat → ChunkAnswer)
    (entry : LiveLogEntry) :
    ∃ final formed, observer.observeLog outside entry = some (final, formed) ∧
      Tiles observer entry (if entry.stream = .other then [] else entry.data) formed := by
  unfold LiveExecutionObserver.observeLog
  split
  case h_3 other =>
    rw [if_pos other]
    exact ⟨observer, [], rfl, .nil entry observer⟩
  all_goals
    rename_i known
    rw [if_neg (by simp [known])]
    exact observeChunks_tiles entry _ _ outside observer entry.data (Nat.le_refl _)

end ProvenanceRunner.Gateway
