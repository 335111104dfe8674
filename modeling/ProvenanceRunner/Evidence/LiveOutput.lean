import ProvenanceRunner.Evidence.StreamRun

/-! # What the live output keeps

Lines are appended to the live output until one does not fit. Room is then made for the marker:
bytes leave the end of the output, the latest line first, and a cut inside a character takes the
whole character. The room that is left over is filled with the start of the line.

The output finds the bytes to remove through the origins of its last bytes, of which it tracks as
many as the marker is long. `Held` says what an output that was never cut has tracked of its lines,
and `removeTailWithin_spec` that removing bytes keeps the lines as `keepWithin` does, which reads
the lines alone. The lines that fit are assumed to be valid UTF-8, as the line limiter hands them
over: a cut in a stream goes back to its first invalid byte, however far that is. -/

namespace ProvenanceRunner.Evidence

open Utf8

variable (log : List (Stream × Bytes)) (stream : Stream) (content : Bytes)

/-- All lines of one stream. -/
def joined : Bytes := (chunksOf stream log).flatten

/-- The first line that exceeds the room left by the lines before it, with those lines. -/
def firstOverflow : Nat → List (Stream × Bytes) → Option (List (Stream × Bytes) × Stream × Bytes)
  | _, [] => none
  | room, line :: rest =>
    if line.2.length > room then some ([], line)
    else (firstOverflow (room - line.2.length) rest).map fun found => (line :: found.1, found.2)

/-- The bytes of some lines. -/
def size : Nat := (log.flatMap Prod.snd).length

/-- Lines cut to a number of bytes: the first that does not fit keeps the start that fits, up to a
whole character, and those behind it are dropped. -/
def keepWithin : Nat → List (Stream × Bytes) → List (Stream × Bytes)
  | _, [] => []
  | room, line :: rest =>
    if line.2.length > room then [(line.1, trimInvalid (line.2.take room))]
    else line :: keepWithin (room - line.2.length) rest

/-- The origins of all bytes of some lines. -/
def segments : List RawTail :=
  log.filterMap fun line => if line.2 = [] then none else some ⟨line.1, line.2.length⟩

@[simp] theorem size_nil : size [] = 0 := rfl

@[simp] theorem size_cons : size ((stream, content) :: log) = content.length + size log := by
  simp [size]

@[simp] theorem size_append (more : List (Stream × Bytes)) :
    size (log ++ more) = size log + size more := by
  simp [size]


theorem joined_append (more : List (Stream × Bytes)) :
    joined (log ++ more) stream = joined log stream ++ joined more stream := by
  unfold joined
  rw [chunksOf_append, List.flatten_append]

theorem joined_cons (other : Stream) :
    joined ((stream, content) :: log) other =
      (if other = stream then content else []) ++ joined log other := by
  unfold joined chunksOf
  by_cases same : other = stream
  · simp [same]
  · simp [same, Ne.symm same]

theorem joined_snoc (other : Stream) :
    joined (log ++ [(stream, content)]) other =
      joined log other ++ if other = stream then content else [] := by
  rw [joined_append, joined_cons]
  exact congrArg _ (List.append_nil _)

theorem trimmed_take_start (count : Nat) : trimInvalid (content.take count) <+: content :=
  (trimInvalid_front _).trans (List.take_prefix count content)

/-! ## Cutting lines -/

theorem keepWithin_all (room : Nat) (fits : size log ≤ room) : keepWithin room log = log := by
  induction log generalizing room with
  | nil => rfl
  | cons line rest ih =>
    rw [size_cons] at fits
    rw [keepWithin, if_neg (by omega), ih _ (by omega)]

/-- Lines behind the cut do not matter. -/
theorem keepWithin_inside (more : List (Stream × Bytes)) (room : Nat) (short : room < size log) :
    keepWithin room (log ++ more) = keepWithin room log := by
  induction log generalizing room with
  | nil => simp at short
  | cons line rest ih =>
    rw [size_cons] at short
    simp only [List.cons_append, keepWithin]
    split
    · rfl
    · rw [ih _ (by omega)]

/-- A cut in the line behind some others. -/
theorem keepWithin_cut (room : Nat) (short : room < content.length)
    (more : List (Stream × Bytes)) :
    keepWithin (size log + room) (log ++ (stream, content) :: more) =
      log ++ [(stream, trimInvalid (content.take room))] := by
  induction log with
  | nil => simp [keepWithin, short]
  | cons line rest ih =>
    have left : size (line :: rest) + room - line.2.length = size rest + room := by
      rw [size_cons]
      omega
    rw [List.cons_append, keepWithin, left, ih, if_neg (by rw [size_cons]; omega), List.cons_append]

/-- Lines are cut in the first that does not fit. -/
theorem firstOverflow_cases (room : Nat) :
    match firstOverflow room log with
    | none => size log ≤ room
    | some (before, other, line) => size before ≤ room ∧ room - size before < line.length ∧
        ∃ rest, log = before ++ (other, line) :: rest := by
  induction log generalizing room with
  | nil => exact Nat.zero_le _
  | cons line rest ih =>
    by_cases long : line.2.length > room
    · simp only [firstOverflow, long, if_true]
      exact ⟨Nat.zero_le _, long, rest, rfl⟩
    have later := ih (room - line.2.length)
    simp only [firstOverflow, long, if_false]
    cases found : firstOverflow (room - line.2.length) rest with
    | none =>
      rw [found] at later
      rw [Option.map_none, size_cons]
      omega
    | some split =>
      rw [found] at later
      obtain ⟨within, short, behind, same⟩ := later
      rw [Option.map_some]
      refine ⟨?_, ?_, behind, congrArg _ same⟩
      · rw [size_cons]
        omega
      · rw [size_cons]
        omega

theorem size_keepWithin_le (room : Nat) : size (keepWithin room log) ≤ room := by
  induction log generalizing room with
  | nil => exact Nat.zero_le _
  | cons line rest ih =>
    rw [keepWithin]
    split
    · have kept := (trimInvalid_front (line.2.take room)).length_le
      rw [List.length_take] at kept
      simp only [size_cons, size_nil]
      omega
    · have later := ih (room - line.2.length)
      rw [size_cons]
      omega

/-- Of each stream the start is kept. -/
theorem keepWithin_start (room : Nat) :
    joined (keepWithin room log) stream <+: joined log stream := by
  induction log generalizing room with
  | nil => exact List.prefix_rfl
  | cons line rest ih =>
    obtain ⟨other, text⟩ := line
    rw [keepWithin]
    split
    · simp only [joined_cons]
      split
      · rw [show joined [] stream = [] from rfl, List.append_nil]
        exact (trimmed_take_start text room).trans (List.prefix_append _ _)
      · exact List.nil_prefix
    · simp only [joined_cons]
      exact (List.prefix_append_right_inj _).2 (ih _)

theorem joined_valid (accepted : ∀ line ∈ log, valid line.2 = true) :
    valid (joined log stream) = true := by
  induction log with
  | nil => rfl
  | cons line rest ih =>
    rw [List.forall_mem_cons] at accepted
    have later := ih accepted.2
    rw [joined_cons]
    split
    · rw [valid_append _ _ accepted.1, later]
    · exact later

namespace BoundedOutput

variable (output : BoundedOutput)

/-- Appending lines one after another. -/
def appendAll : BoundedOutput :=
  log.foldl (fun output line => output.append line.1 line.2) output

theorem appendAll_cons :
    output.appendAll ((stream, content) :: log) = (output.append stream content).appendAll log :=
      rfl

/-! ## Tracked origins -/

theorem dropTails_zero (tails : List RawTail) : dropTails 0 tails = tails := by
  cases tails <;> rfl

theorem dropTails_dropTails (tails : List RawTail) (first second : Nat) :
    dropTails second (dropTails first tails) = dropTails (first + second) tails := by
  induction tails generalizing first with
  | nil => rfl
  | cons oldest later ih =>
    by_cases none : first = 0
    · rw [none, dropTails_zero, Nat.zero_add]
    by_cases more : second = 0
    · rw [more, dropTails_zero, Nat.add_zero]
    have both : first + second ≠ 0 := by omega
    by_cases whole : oldest.bytes ≤ first
    · have dropped : oldest.bytes ≤ first + second := by omega
      have left : first - oldest.bytes + second = first + second - oldest.bytes := by omega
      rw [dropTails, if_neg none, if_pos whole, ih, left, dropTails, if_neg both, if_pos dropped]
    · have reached : oldest.bytes - first ≤ second ↔ oldest.bytes ≤ first + second := by omega
      have left : second - (oldest.bytes - first) = first + second - oldest.bytes := by omega
      simp only [dropTails, none, more, both, whole, reached, left, if_false, Nat.sub_sub]

/-- What is dropped beyond the origins of some lines is dropped of those behind them. -/
theorem dropTails_append (more : List RawTail) (excess : Nat) :
    dropTails excess (segments log ++ more) =
      dropTails excess (segments log) ++ dropTails (excess - size log) more := by
  induction log generalizing excess with
  | nil => rfl
  | cons line rest ih =>
    obtain ⟨stream, content⟩ := line
    rw [size_cons]
    by_cases empty : content = []
    · simpa [segments, empty] using ih excess
    have origin : segments ((stream, content) :: rest) =
        ⟨stream, content.length⟩ :: segments rest := by
      simp [segments, empty]
    rw [origin, List.cons_append, dropTails, dropTails]
    dsimp only
    split_ifs with none whole
    · rw [none, Nat.zero_sub, dropTails_zero, List.cons_append]
    · rw [ih, Nat.sub_sub]
    · have nothing : excess - (content.length + size rest) = 0 := by omega
      rw [nothing, dropTails_zero, List.cons_append]

/-- What an output that was never cut holds of its lines. -/
structure Held (lines : List (Stream × Bytes)) : Prop where
  text : ∀ other, output.text.get other = joined lines other
  captured : output.captured = size lines
  tail : output.tail = dropTails (size lines - totalTruncationMarker.length) (segments lines)
  tailBytes : output.tailBytes = min (size lines) totalTruncationMarker.length
  within : output.captured ≤ output.maximum

theorem held_nil (maximum : Nat) : Held { maximum } [] :=
  ⟨fun other => by cases other <;> rfl, rfl, rfl, rfl, Nat.zero_le _⟩

variable {output}

theorem append_fits {lines : List (Stream × Bytes)} (held : output.Held lines)
    (untruncated : output.truncated = false)
    (fits : ¬ content.length > output.maximum - output.captured) :
    (output.append stream content).Held (lines ++ [(stream, content)]) ∧
      (output.append stream content).truncated = false ∧
      (output.append stream content).maximum = output.maximum ∧
      (output.append stream content).panicked = output.panicked := by
  unfold append
  simp only [untruncated, Bool.false_eq_true, fits, if_false]
  by_cases empty : content = []
  · have origins : segments (lines ++ [(stream, [])]) = segments lines := by
      simp [segments]
    subst empty
    simp only [List.length_nil, if_true]
    refine ⟨⟨fun other => ?_, ?_, ?_, ?_, held.within⟩, untruncated, trivial, trivial⟩
    · rw [held.text, joined_snoc, ite_self, List.append_nil]
    · simp [held.captured]
    · simp [held.tail, origins]
    · simp [held.tailBytes]
  have bytes : content.length ≠ 0 := List.length_eq_zero_iff.not.mpr empty
  have origins : segments (lines ++ [(stream, content)]) =
      segments lines ++ [⟨stream, content.length⟩] := by
    simp [segments, empty]
  simp only [bytes, if_false, trackTail, and_true]
  have within := held.within
  refine ⟨fun other => ?_, ?_, ?_, ?_, by dsimp only; omega⟩
  · rw [PerStream.get_append, held.text, joined_snoc]
  · simp [held.captured]
  · have behind := dropTails_append lines [⟨stream, content.length⟩]
      (size lines - totalTruncationMarker.length)
    have nothing : size lines - totalTruncationMarker.length - size lines = 0 := by omega
    rw [nothing, dropTails_zero] at behind
    simp only [held.tail, held.tailBytes, origins, size_append, size_cons, size_nil]
    rw [← behind, dropTails_dropTails]
    congr 1
    omega
  · simp only [held.tailBytes, size_append, size_cons, size_nil]
    omega

/-! ## Making room -/

/-- What is kept of a line that does not fit behind some others. -/
def refill (maximum : Nat) (lines : List (Stream × Bytes)) (content : Bytes) : Bytes :=
  let room := maximum - totalTruncationMarker.length
  trimInvalid (content.take (room - size (keepWithin room lines)))

variable (output)

theorem removeTailWithin_zero (fuel : Nat) : removeTailWithin fuel output 0 = output := by
  cases fuel <;> rfl

theorem consumeTails_zero (tails : List RawTail) : consumeTails 0 tails = tails := by
  cases tails <;> rfl

/-- One round of the removal cuts the end of one stream, inside its last line. -/
theorem removeTailWithin_round (fuel count bytes : Nat) (older : Bytes)
    (accepted : valid older = true) (earlier : List RawTail)
    (text : output.text.get stream = older ++ content)
    (tail : output.tail = earlier ++ [⟨stream, bytes⟩]) (wanted : 0 < min count bytes)
    (inside : min count bytes ≤ content.length) :
    ∃ next kept, kept = trimInvalid (content.take (content.length - min count bytes)) ∧
      removeTailWithin (fuel + 1) output count =
        removeTailWithin fuel next (count - (content.length - kept.length)) ∧
      (∀ other, next.text.get other =
        if other = stream then older ++ kept else output.text.get other) ∧
      next.captured = output.captured - (content.length - kept.length) ∧
      next.tail = (consumeTails (content.length - kept.length)
        (⟨stream, bytes⟩ :: earlier.reverse)).reverse := by
  have length : (older ++ content).length - min count bytes =
      older.length + (content.length - min count bytes) := by
    rw [List.length_append]
    omega
  obtain ⟨kept, cut⟩ :
      ∃ kept, kept = trimInvalid (content.take (content.length - min count bytes)) := ⟨_, rfl⟩
  have shorter := (trimInvalid_front (content.take (content.length - min count bytes))).length_le
  rw [List.length_take, ← cut] at shorter
  have truncated : output.truncateStream stream (min count bytes) =
      ({ output with text := PerStream.set output.text stream (older ++ kept) },
        content.length - kept.length) := by
    dsimp only [truncateStream]
    rw [text, length, List.take_length_add_append, trimInvalid_append _ _ accepted, ← cut,
      List.length_append, List.length_append, Nat.add_sub_add_left]
  refine ⟨BoundedOutput.consumeTailMetadata { output with
      text := PerStream.set output.text stream (older ++ kept)
      captured := output.captured - (content.length - kept.length) } (content.length - kept.length),
    kept, cut, ?_, fun other => PerStream.get_set _ stream other _, rfl, ?_⟩
  · simp only [removeTailWithin, tail, List.getLast?_append, List.getLast?_singleton,
      Option.some_or, truncated]
    rw [if_neg (by omega), if_neg (by omega)]
  · simp only [consumeTailMetadata, tail, List.reverse_append]
    rfl

/-- Removing bytes cuts the lines, as long as the removed bytes are tracked. The induction is on the
lines from the last one on: a line that goes as a whole takes one round, and the line in which the
removal ends takes the last. -/
theorem removeTailWithin_spec (lines : List (Stream × Bytes))
    (accepted : ∀ line ∈ lines, valid line.2 = true) (fuel count excess : Nat)
    (enough : count < fuel) (tracked : count + excess ≤ size lines)
    (text : ∀ other, output.text.get other = joined lines other)
    (captured : output.captured = size lines)
    (tail : output.tail = dropTails excess (segments lines)) :
    (∀ other, (removeTailWithin fuel output count).text.get other =
        joined (keepWithin (size lines - count) lines) other) ∧
      (removeTailWithin fuel output count).captured =
        size (keepWithin (size lines - count) lines) := by
  induction lines using List.reverseRecOn generalizing output fuel count with
  | nil =>
    obtain rfl : count = 0 := by simp at tracked; omega
    rw [removeTailWithin_zero]
    exact ⟨text, captured⟩
  | append_singleton older line ih =>
    by_cases done : count = 0
    · rw [done, removeTailWithin_zero, Nat.sub_zero, keepWithin_all _ _ (Nat.le_refl _)]
      exact ⟨text, captured⟩
    obtain ⟨stream, content⟩ := line
    have acceptedOlder : ∀ line ∈ older, valid line.2 = true := fun line listed =>
      accepted line (List.mem_append_left _ listed)
    simp only [size_append, size_cons, size_nil, Nat.add_zero] at tracked captured ⊢
    simp only [joined_snoc] at text
    by_cases empty : content = []
    · -- An empty line has left no origin.
      subst empty
      simp only [ite_self, List.append_nil, List.length_nil, Nat.add_zero]
        at text tracked captured ⊢
      rw [keepWithin_inside _ _ _ (by omega)]
      refine ih output acceptedOlder fuel count enough tracked text captured ?_
      rw [tail]
      simp [segments]
    obtain ⟨fuel, rfl⟩ : ∃ less, fuel = less + 1 := ⟨fuel - 1, by omega⟩
    have origins : segments (older ++ [(stream, content)]) =
        segments older ++ [⟨stream, content.length⟩] := by
      simp [segments, empty]
    have own := text stream
    rw [if_pos rfl] at own
    have fine := joined_valid older stream acceptedOlder
    rw [origins, dropTails_append] at tail
    by_cases whole : content.length < count
    · -- The line goes as a whole.
      have nothing : excess - size older = 0 := by omega
      have least : min count content.length = content.length := by omega
      have bytes : 0 < content.length := List.length_pos_iff.mpr empty
      rw [nothing, dropTails_zero] at tail
      obtain ⟨next, kept, none, round, texts, left, tails⟩ := removeTailWithin_round stream content
        output fuel count content.length _ fine _ own tail (by omega) (by omega)
      obtain rfl : kept = [] := by
        rw [none, least, Nat.sub_self, List.take_zero]
        rfl
      simp only [List.length_nil, Nat.sub_zero, List.append_nil] at round texts left tails
      have room : size older + content.length - count = size older - (count - content.length) := by
        omega
      rw [round, room, keepWithin_inside _ _ _ (by omega)]
      refine ih next acceptedOlder fuel (count - content.length) (by omega) (by omega)
        (fun other => ?_) (by omega) ?_
      · rw [texts, text]
        split
        · rw [‹other = stream›]
        · exact List.append_nil _
      · rw [tails, consumeTails, if_neg (by omega), if_pos (Nat.le_refl _), Nat.sub_self]
        rw [consumeTails_zero, List.reverse_reverse]
    · -- The removal ends inside the line.
      have rest : dropTails (excess - size older) [⟨stream, content.length⟩] =
          [⟨stream, content.length - (excess - size older)⟩] := by
        simp only [dropTails]
        split_ifs with none
        · rw [none, Nat.sub_zero]
        · omega
        · rfl
      rw [rest] at tail
      have least : min count (content.length - (excess - size older)) = count := by omega
      obtain ⟨next, kept, cut, round, texts, left, -⟩ := removeTailWithin_round stream content
        output fuel count _ _ fine _ own tail (by omega) (by omega)
      rw [least] at cut
      have shorter : kept.length ≤ content.length - count := by
        have shorter := (trimInvalid_front (content.take (content.length - count))).length_le
        rw [List.length_take, ← cut] at shorter
        omega
      have done : count - (content.length - kept.length) = 0 := by omega
      have room : size older + content.length - count = size older + (content.length - count) := by
        omega
      rw [round, done, removeTailWithin_zero, room, keepWithin_cut _ _ _ _ (by omega), ← cut]
      refine ⟨fun other => ?_, ?_⟩
      · rw [texts, text, joined_snoc]
        split
        · rw [‹other = stream›]
        · rfl
      · simp only [size_append, size_cons, size_nil]
        omega

/-- Making room for the marker cuts the lines to what the marker leaves. -/
theorem truncateTotal_held {lines : List (Stream × Bytes)} (held : output.Held lines)
    (accepted : ∀ line ∈ lines, valid line.2 = true) :
    let kept := keepWithin (output.maximum - totalTruncationMarker.length) lines
    (∀ other, (output.truncateTotal content).1.text.get other = joined kept other) ∧
      (output.truncateTotal content).1.captured = size kept ∧
      (output.truncateTotal content).1.panicked = false ∧
      (output.truncateTotal content).2 =
        refill output.maximum lines content ++ totalTruncationMarker.take output.maximum := by
  have target : output.maximum - (totalTruncationMarker.take output.maximum).length =
      output.maximum - totalTruncationMarker.length := by
    rw [List.length_take]
    omega
  have within := held.within
  have captured := held.captured
  have cut : ∃ shortened : BoundedOutput, shortened =
        (if output.captured > output.maximum - totalTruncationMarker.length then
          output.removeTail (output.captured - (output.maximum - totalTruncationMarker.length))
        else output) ∧
      (∀ other, shortened.text.get other =
        joined (keepWithin (output.maximum - totalTruncationMarker.length) lines) other) ∧
      shortened.captured =
        size (keepWithin (output.maximum - totalTruncationMarker.length) lines) := by
    refine ⟨_, rfl, ?_⟩
    split
    · have left : size lines - (output.captured - (output.maximum - totalTruncationMarker.length)) =
          output.maximum - totalTruncationMarker.length := by
        omega
      have removed := removeTailWithin_spec output lines accepted _
        (output.captured - (output.maximum - totalTruncationMarker.length)) _ (Nat.lt_succ_self _)
        (by omega) held.text captured held.tail
      rwa [left] at removed
    · rw [keepWithin_all _ _ (by omega)]
      exact ⟨held.text, captured⟩
  obtain ⟨shortened, same, text, left⟩ := cut
  have least := size_keepWithin_le lines (output.maximum - totalTruncationMarker.length)
  dsimp only [truncateTotal]
  rw [target, ← same, left, decide_eq_false (by omega)]
  exact ⟨text, rfl, rfl, rfl⟩

/-- A line that does not fit follows what is left of the lines before it, cut and marked. -/
theorem append_overflow {lines : List (Stream × Bytes)} (held : output.Held lines)
    (accepted : ∀ line ∈ lines, valid line.2 = true) (untruncated : output.truncated = false)
    (long : content.length > output.maximum - output.captured) :
    (output.append stream content).panicked = false ∧
      (output.append stream content).captured =
        size (keepWithin (output.maximum - totalTruncationMarker.length) lines) +
          (refill output.maximum lines content ++
            totalTruncationMarker.take output.maximum).length ∧
      ∀ other, (output.append stream content).text.get other =
        joined (keepWithin (output.maximum - totalTruncationMarker.length) lines) other ++
          if other = stream then
            refill output.maximum lines content ++ totalTruncationMarker.take output.maximum
          else [] := by
  obtain ⟨text, captured, panicked, marked⟩ := truncateTotal_held content output held accepted
  rw [← marked, ← captured]
  simp only [← text]
  unfold append
  simp only [untruncated, Bool.false_eq_true, long, if_true, if_false]
  generalize output.truncateTotal content = cut at panicked ⊢
  by_cases empty : cut.2.length = 0
  · simp [List.length_eq_zero_iff.mp empty, panicked]
  · simp only [empty, if_false, trackTail]
    exact ⟨panicked, trivial, fun other => PerStream.get_append _ stream other _⟩

theorem append_long_truncated (long : content.length > output.maximum - output.captured) :
    (output.append stream content).truncated = true := by
  unfold append
  split
  · assumption
  · dsimp only [trackTail]
    split_ifs <;> rfl

theorem appendAll_truncated (truncated : output.truncated = true) :
    output.appendAll log = output := by
  induction log with
  | nil => rfl
  | cons line rest ih =>
    have same : output.append line.1 line.2 = output := if_pos truncated
    rw [appendAll_cons, same, ih]

/-- Lines are appended as they are up to the first that does not fit. -/
theorem appendAll_cases {lines : List (Stream × Bytes)} (held : output.Held lines)
    (untruncated : output.truncated = false) :
    match firstOverflow (output.maximum - output.captured) log with
    | none => (output.appendAll log).Held (lines ++ log) ∧
        (output.appendAll log).panicked = output.panicked ∧
        (output.appendAll log).maximum = output.maximum ∧
        (output.appendAll log).truncated = false
    | some (fit, stream, content) =>
      ∃ full : BoundedOutput, full.Held (lines ++ fit) ∧ full.truncated = false ∧
        full.maximum = output.maximum ∧ content.length > full.maximum - full.captured ∧
        output.appendAll log = full.append stream content := by
  induction log generalizing output lines with
  | nil => exact ⟨(List.append_nil lines).symm ▸ held, rfl, rfl, untruncated⟩
  | cons line rest ih =>
    obtain ⟨stream, content⟩ := line
    by_cases long : content.length > output.maximum - output.captured
    · simp only [firstOverflow, long, if_true]
      exact ⟨output, (List.append_nil lines).symm ▸ held, untruncated, rfl, long,
        appendAll_truncated rest _ (append_long_truncated stream content output long)⟩
    obtain ⟨next, still, limit, calm⟩ := append_fits stream content held untruncated long
    have appended := ih _ next still
    have captured : (output.append stream content).captured =
        output.captured + content.length := by
      rw [next.captured, held.captured, size_append, size_cons, size_nil, Nat.add_zero]
    rw [limit, captured, ← Nat.sub_sub] at appended
    simp only [firstOverflow, long, if_false, appendAll_cons]
    simp only [List.append_assoc, List.singleton_append] at appended
    cases found : firstOverflow (output.maximum - output.captured - content.length) rest with
    | none =>
      rw [found] at appended
      exact ⟨appended.1, appended.2.1.trans calm, appended.2.2⟩
    | some =>
      rw [found] at appended
      exact appended

/-- An output from its start: it holds all lines, or it is what `append_overflow` says of the first
line that does not fit. -/
theorem appendAll_spec (maximum : Nat) (accepted : ∀ fit overflow,
      firstOverflow maximum log = some (fit, overflow) → ∀ line ∈ fit, valid line.2 = true) :
    (appendAll log { maximum }).panicked = false ∧
    match firstOverflow maximum log with
    | none => (appendAll log { maximum }).Held log ∧
        (appendAll log { maximum }).maximum = maximum ∧
        (appendAll log { maximum }).truncated = false
    | some (fit, last, content) => (appendAll log { maximum }).truncated = true ∧
        (appendAll log { maximum }).captured =
          size (keepWithin (maximum - totalTruncationMarker.length) fit) +
            (refill maximum fit content ++ totalTruncationMarker.take maximum).length ∧
        (∀ other, (appendAll log { maximum }).text.get other =
          joined (keepWithin (maximum - totalTruncationMarker.length) fit) other ++
            if other = last then refill maximum fit content ++ totalTruncationMarker.take maximum
            else []) ∧
        ∃ rest, log = fit ++ (last, content) :: rest := by
  have appended := appendAll_cases log _ (held_nil maximum) rfl
  have split := firstOverflow_cases log maximum
  rw [Nat.sub_zero] at appended
  cases found : firstOverflow maximum log with
  | none =>
    rw [found] at appended
    exact ⟨appended.2.1, appended.1, appended.2.2⟩
  | some overflow =>
    obtain ⟨fit, last, content⟩ := overflow
    rw [found] at appended split
    obtain ⟨full, held, untruncated, limit, long, ends⟩ := appended
    obtain ⟨panicked, text⟩ :=
      append_overflow last content full held (accepted fit _ found) untruncated long
    have stays := append_long_truncated last content full long
    replace limit : full.maximum = maximum := limit
    rw [limit] at text
    rw [ends]
    exact ⟨panicked, stays, text.1, text.2, split.2.2⟩

end BoundedOutput

/-! ## Gaps -/

variable (maximum : Nat)

/-- The marker at the end of a stream. -/
def markerOn : Bytes :=
  match firstOverflow maximum log with
  | none => []
  | some (_, last, _) => if stream = last then totalTruncationMarker.take maximum else []

/-- The length of the longest start of a text, within a limit, that ends between two characters. -/
def IsFloor (text : Bytes) (limit length : Nat) : Prop :=
  length ≤ min limit text.length ∧ valid (text.take length) = true ∧
    ∀ longer ≤ min limit text.length, valid (text.take longer) = true → longer ≤ length

/-- Where the lines that fit leave no room for the marker, one of them is cut: `kept` of its bytes
stay, and `refilled` bytes of the line that did not fit take the room that the cut character left.
They are no gap if they repeat the bytes that were cut, or if there are none of them. -/
def Gapless : Prop :=
  match firstOverflow maximum log with
  | none => True
  | some (fit, stream, content) =>
    match firstOverflow (maximum - totalTruncationMarker.length) fit with
    | none => True
    | some (before, other, line) =>
      let room := maximum - totalTruncationMarker.length - size before
      ∃ kept refilled, IsFloor line room kept ∧ IsFloor content (room - kept) refilled ∧
        content.take refilled <+: (joined fit stream).drop
          (joined (before ++ [(other, line.take kept)]) stream).length ++ content

theorem isFloor_iff (text : Bytes) (limit length : Nat) :
    IsFloor text limit length ↔ length = (trimInvalid (text.take limit)).length := by
  have start := trimInvalid_front (text.take limit)
  have least := start.length_le
  have whole : text.take (trimInvalid (text.take limit)).length = trimInvalid (text.take limit) :=
    (List.prefix_iff_eq_take.mp (start.trans (List.take_prefix _ _))).symm
  have longest : ∀ longer ≤ min limit text.length, valid (text.take longer) = true →
      longer ≤ (trimInvalid (text.take limit)).length := by
    intro longer within accepted
    have front := trimInvalid_longest (text.take limit)
      (List.take_prefix_take_left (by omega)) accepted
    have length := front.length_le
    rw [List.length_take] at length
    omega
  rw [List.length_take] at least
  constructor
  · rintro ⟨within, accepted, greatest⟩
    refine Nat.le_antisymm (longest _ within accepted) (greatest _ least ?_)
    rw [whole]
    exact trimInvalid_valid _
  · rintro rfl
    refine ⟨least, ?_, longest⟩
    rw [whole]
    exact trimInvalid_valid _

/-- The condition in terms of the cut. -/
theorem gapless_iff {fit : List (Stream × Bytes)}
    (found : firstOverflow maximum log = some (fit, stream, content)) :
    Gapless log maximum ↔ BoundedOutput.refill maximum fit content <+: (joined fit stream).drop
      (joined (keepWithin (maximum - totalTruncationMarker.length) fit) stream).length ++
        content := by
  have cut := firstOverflow_cases fit (maximum - totalTruncationMarker.length)
  simp only [Gapless, found, BoundedOutput.refill]
  cases inner : firstOverflow (maximum - totalTruncationMarker.length) fit with
  | none =>
    rw [inner] at cut
    rw [keepWithin_all _ _ cut, List.drop_length, List.nil_append]
    exact iff_of_true trivial (trimmed_take_start content _)
  | some split =>
    obtain ⟨before, other, line⟩ := split
    rw [inner] at cut
    obtain ⟨within, short, rest, rfl⟩ := cut
    generalize maximum - totalTruncationMarker.length = target at within short
    obtain ⟨room, rfl⟩ := Nat.exists_eq_add_of_le within
    rw [Nat.add_sub_cancel_left] at short
    have start (text : Bytes) (limit : Nat) :
        text.take (trimInvalid (text.take limit)).length = trimInvalid (text.take limit) :=
      (List.prefix_iff_eq_take.mp (trimmed_take_start text limit)).symm
    simp only [isFloor_iff, keepWithin_cut _ _ _ _ short, exists_eq_left, Nat.add_sub_cancel_left,
      start, size_append, size_cons, size_nil, Nat.add_zero, Nat.add_sub_add_left,
      exists_and_left]

/-- The kept text of each stream is the start of its lines unless the freed room is filled from
behind a gap.

Proof: `appendAll_spec` gives the text after the first line that does not fit. -/
theorem live_output_prefix_iff (accepted : ∀ fit overflow,
      firstOverflow maximum log = some (fit, overflow) → ∀ line ∈ fit, valid line.2 = true) :
    (BoundedOutput.appendAll log { maximum }).panicked = false ∧
      ((∀ stream, ∃ kept, (BoundedOutput.appendAll log { maximum }).text.get stream =
          kept ++ markerOn log stream maximum ∧ kept <+: joined log stream) ↔
        Gapless log maximum) := by
  obtain ⟨panicked, appended⟩ := BoundedOutput.appendAll_spec log maximum accepted
  refine ⟨panicked, ?_⟩
  cases found : firstOverflow maximum log with
  | none =>
    rw [found] at appended
    simp only [markerOn, Gapless, found, iff_true]
    refine fun stream => ⟨joined log stream, ?_, List.prefix_rfl⟩
    rw [appended.1.text, List.append_nil]
  | some overflow =>
    obtain ⟨fit, last, content⟩ := overflow
    rw [found] at appended
    obtain ⟨-, -, text, rest, behind⟩ := appended
    rw [gapless_iff log last content maximum found]
    have shortened := fun stream =>
      keepWithin_start fit stream (maximum - totalTruncationMarker.length)
    obtain ⟨gone, cut⟩ := shortened last
    have later : joined log last = joined fit last ++ (content ++ joined rest last) := by
      rw [behind, joined_append, joined_cons, if_pos rfl]
    rw [← cut, List.drop_left]
    rw [← cut, List.append_assoc] at later
    simp only [markerOn, found, text]
    constructor
    · intro starts
      obtain ⟨_, same, start⟩ := starts last
      rw [if_pos rfl, if_pos rfl, ← List.append_assoc] at same
      rw [← List.append_cancel_right same, later, List.prefix_append_right_inj,
        ← List.append_assoc] at start
      refine List.prefix_of_prefix_length_le start (List.prefix_append _ _) ?_
      rw [List.length_append]
      exact Nat.le_add_left_of_le (trimmed_take_start content _).length_le
    · intro gapless stream
      refine ⟨joined (keepWithin (maximum - totalTruncationMarker.length) fit) stream ++
        if stream = last then BoundedOutput.refill maximum fit content else [], ?_, ?_⟩
      · rw [List.append_assoc]
        split <;> rfl
      split
      · rename_i same
        rw [same, later, List.prefix_append_right_inj, ← List.append_assoc]
        exact gapless.trans (List.prefix_append _ _)
      · rw [behind, joined_append, List.append_nil]
        exact (shortened stream).trans (List.prefix_append _ _)

/-- A cut between two characters leaves room for nothing else. -/
theorem live_output_prefix_iff_kept :
    let log : List (Stream × Bytes) := [(.stderr, [0xC3, 0xA9]),
      (.stdout, [0x61, 0x62, 0x63]), (.stdout, List.replicate 30 0x78)]
    ∀ stream, ∃ kept, (BoundedOutput.appendAll log { maximum := 30 }).text.get stream =
      kept ++ markerOn log stream 30 ∧ kept <+: joined log stream := by
  refine (live_output_prefix_iff _ _ (fun fit overflow found => ?_)).2.mpr ⟨2, 0, ?_⟩
  · obtain ⟨rfl, -⟩ := Prod.mk.inj (Option.some.inj found)
    decide +kernel
  · simp only [isFloor_iff]
    decide +kernel

/-- A cut inside a character frees more room than it was asked for. The room is filled with the
start of the next line, and no marker stands at the gap. -/
theorem live_output_gap :
    (BoundedOutput.appendAll [(.stdout, [0x61, 0x62, 0x63, 0xC3, 0xA9]),
        (.stdout, List.replicate 30 0x78)] { maximum := 30 }).text.stdout =
      [0x61, 0x62, 0x63, 0x78] ++ totalTruncationMarker ∧
    ¬ [0x61, 0x62, 0x63, 0x78] <+: joined [(.stdout, [0x61, 0x62, 0x63, 0xC3, 0xA9]),
      (.stdout, List.replicate 30 0x78)] .stdout := by
  decide +kernel

end ProvenanceRunner.Evidence
