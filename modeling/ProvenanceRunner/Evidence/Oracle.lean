import ProvenanceRunner.Evidence.Masking
import ProvenanceRunner.Evidence.ChunkIndependence

/-! # Redaction and routing against whole texts

The redactor and the router work byte by byte with a bounded memory. Here both are compared with
definitions over the whole stream: a byte is masked when it lies in an occurrence of a pattern, a
run of masked bytes is one marker, and a line is structured when it starts with the configured
text. -/

namespace ProvenanceRunner.Evidence

open Utf8 Suffixes

/-! ## Redaction -/

/-- The cells of a stream that is written in chunks. -/
def redactChunks (patterns : SecretPatterns) (chunks : List Bytes) : List Cell :=
  let written := Transducer.run SecretRedactor.write (SecretRedactor.new patterns) chunks
  written.2 ++ written.1.finish.2

theorem redactChunks_eq (patterns : SecretPatterns) (chunks : List Bytes) :
    redactChunks patterns chunks = redactCells patterns chunks.flatten := by
  have joined (redactor : SecretRedactor) :
      Transducer.run SecretRedactor.write redactor chunks = redactor.write chunks.flatten := by
    induction chunks generalizing redactor with
    | nil => rfl
    | cons chunk rest ih =>
      rw [Transducer.run_cons, ih, List.flatten_cons]
      exact (Transducer.run_append _ _ _ _).symm
  rw [redactChunks, redactCells, joined]

/-- What a byte of a text is shown as when the given positions are masked: the first of a run of
masked bytes is the marker, the others are nothing. -/
noncomputable def shownByte (masked : Nat → Prop) (value : UInt8) (position : Nat) : Bytes :=
  open Classical in
  if ¬ masked position then [value]
  else if position ≠ 0 ∧ masked (position - 1) then [] else redactionMarker

theorem markRun_shown (masked : Nat → Prop) (cells : List Cell) (offset : Nat) (flag : Bool)
    (before : flag = true ↔ offset ≠ 0 ∧ masked (offset - 1))
    (masks : ∀ index cell, cells[index]? = some cell →
      (cell.masked = true ↔ masked (offset + index))) :
    (Transducer.run markRun flag cells).2 =
      ((cells.map Cell.value).zipIdx offset).flatMap fun entry =>
        shownByte masked entry.1 entry.2 := by
  induction cells generalizing offset flag with
  | nil => rfl
  | cons cell rest ih =>
    have here : cell.masked = true ↔ masked offset := masks 0 cell rfl
    have later := ih (offset + 1) cell.masked (by simpa using here) fun index other found => by
      rw [masks (index + 1) other found, Nat.add_right_comm, Nat.add_assoc]
    rw [Transducer.run_cons, List.map_cons, List.zipIdx_cons, List.flatMap_cons, ← later]
    simp only [markRun, shownByte, ← here, ← before]
    cases cell.masked <;> cases flag <;> rfl

namespace SecretRedactor

/-- The slot that is released next has not been written again since it received its byte. -/
def Intact (redactor : SecretRedactor) : Prop :=
  redactor.written < redactor.read ∧
    ∀ position, redactor.written < position → position < redactor.read →
      position % redactor.pending.length ≠ redactor.written % redactor.pending.length

theorem Holding.intact {keys : List Bytes} {text : Bytes} {redactor : SecretRedactor}
    (holding : Holding keys text redactor) (some : redactor.written < text.length) :
    redactor.Intact := by
  obtain ⟨_, size, positive, read, _, room, _, _, _, _⟩ := holding
  refine ⟨read ▸ some, fun position after before same => ?_⟩
  rw [size] at same
  have far := Nat.le_of_dvd (by omega) (Nat.dvd_of_mod_eq_zero (Nat.sub_mod_eq_zero_of_mod_eq same))
  omega

theorem Holding.drain {keys : List Bytes} {text : Bytes} {redactor : SecretRedactor} (count : Nat)
    (holding : Holding keys text redactor) (some : redactor.written + count ≤ text.length) :
    Holding keys text (drain count redactor).1 ∧
      (SecretRedactor.drain count redactor).1.written = redactor.written + count := by
  induction count generalizing redactor with
  | zero => exact ⟨holding, rfl⟩
  | succ count ih =>
    obtain ⟨next, _, written, _⟩ := holding.emitNext (by omega)
    obtain ⟨later, total⟩ := ih next (by omega)
    exact ⟨later, total.trans (by omega)⟩

end SecretRedactor

/-- The redactor is the exhaustive search: for every cut of the stream into chunks it masks exactly
the bytes inside an occurrence of a pattern, keeps the others in order, and shows each run of masked
bytes as one marker. Every slot of the ring that it reads, while it takes another byte or at the end
of any text, still holds the byte that was put there for the position.

Proof: the automaton masks what is covered (`redactCells_released`); what it may still mask is in
the ring. -/
theorem redaction_exhaustive (secrets : List Bytes) (patterns : SecretPatterns)
    (compiled : compileSecrets secrets = .ok patterns) (chunks : List Bytes) :
    let text := chunks.flatten
    let cells := redactChunks patterns chunks
    let masked := Covered (secretKeys secrets) text
    cells.map Cell.value = text ∧
      (∀ position cell, cells[position]? = some cell → (cell.masked = true ↔ masked position)) ∧
      (Transducer.run markRun false cells).2 =
        text.zipIdx.flatMap (fun entry => shownByte masked entry.1 entry.2) ∧
      (patterns.maximum ≠ 0 → ∀ front : Bytes,
        let redactor := ((SecretRedactor.new patterns).write front).1
        (∀ value, (redactor.accept value).Intact) ∧
          ∀ count, count < redactor.read - redactor.written →
            (SecretRedactor.drain count redactor).1.Intact) := by
  obtain rfl := compileSecrets_ok compiled
  obtain ⟨values, masks⟩ := redactCells_released (secretKeys secrets)
    (secretKeys_nonempty secrets) chunks.flatten
  dsimp only
  rw [redactChunks_eq]
  refine ⟨values, masks, ?_, fun positive front => ?_⟩
  · have shown := markRun_shown (Covered (secretKeys secrets) chunks.flatten) _ 0 false (by simp)
      fun index cell found => by rw [masks index cell found, Nat.zero_add]
    rw [shown, values]
  · obtain ⟨_, automaton⟩ := SecretPatterns.ofKeys_automaton (secretKeys secrets)
      (secretKeys_nonempty secrets)
    have reading := SecretRedactor.reading_write automaton
      (SecretPatterns.length_le_maximum (secretKeys secrets)) (Nat.pos_of_ne_zero positive) front
    obtain ⟨same, holding, room, _⟩ := reading
    have written := holding.written
    constructor
    · intro value
      refine (holding.accept (same ▸ automaton) (by rw [same]; exact room) value).intact ?_
      rw [List.length_append]
      exact Nat.lt_succ_of_le written
    · intro count inside
      rw [holding.read] at inside
      obtain ⟨kept, total⟩ := holding.drain count (by omega)
      exact kept.intact (by omega)

theorem redaction_exhaustive_overlapping :
    compileSecrets [[0x61, 0x62]] = .ok (SecretPatterns.ofKeys (secretKeys [[0x61, 0x62]])) ∧
      (redactChunks (SecretPatterns.ofKeys (secretKeys [[0x61, 0x62]]))
        [[0x63, 0x61], [0x62, 0x61, 0x62]]).map Cell.value = [0x63, 0x61, 0x62, 0x61, 0x62] :=
  ⟨rfl, (redaction_exhaustive [[0x61, 0x62]] _ rfl _).1⟩

/-! ## Routing -/

/-- The text of raw lines, cell by cell. Each cell comes with whether its line is raw; the first
list has the cells before, the last one first. A masked cell is the marker unless its run of masked
bytes has shown one. -/
def shownRaw : List (Cell × Bool) → List (Cell × Bool) → Bytes
  | _, [] => []
  | past, (cell, isRaw) :: rest =>
    (if !isRaw then []
      else if !cell.masked then [cell.value]
      else if (past.takeWhile (·.1.masked)).any Prod.snd then [] else redactionMarker) ++
      shownRaw ((cell, isRaw) :: past) rest

theorem shownRaw_structured (past rest : List (Cell × Bool)) (line : List Cell) :
    ∃ earlier, shownRaw past (line.map (·, false) ++ rest) = shownRaw earlier rest ∧
      (earlier.takeWhile (·.1.masked)).any Prod.snd =
        ((past.takeWhile (·.1.masked)).any Prod.snd && line.all Cell.masked) := by
  induction line generalizing past with
  | nil => exact ⟨past, rfl, (Bool.and_true _).symm⟩
  | cons cell line ih =>
    obtain ⟨earlier, same, flag⟩ := ih ((cell, false) :: past)
    refine ⟨earlier, same, flag.trans ?_⟩
    rw [List.takeWhile_cons, List.all_cons]
    cases cell.masked <;> simp

theorem shownRaw_raw (past rest : List (Cell × Bool)) (line : List Cell) :
    let marked := Transducer.run markRun ((past.takeWhile (·.1.masked)).any Prod.snd) line
    ∃ earlier, shownRaw past (line.map (·, true) ++ rest) = marked.2 ++ shownRaw earlier rest ∧
      (earlier.takeWhile (·.1.masked)).any Prod.snd = marked.1 := by
  induction line generalizing past with
  | nil => exact ⟨past, rfl, rfl⟩
  | cons cell line ih =>
    have next : (((cell, true) :: past).takeWhile (·.1.masked)).any Prod.snd = cell.masked := by
      rw [List.takeWhile_cons]
      cases cell.masked <;> simp
    obtain ⟨earlier, same, flag⟩ := ih ((cell, true) :: past)
    rw [next] at same flag
    refine ⟨earlier, ?_, flag⟩
    rw [List.map_cons, List.cons_append, shownRaw, same, Transducer.run_cons, List.append_assoc]
    simp only [markRun]
    cases cell.masked <;> rfl

/-- The router's account of raw text, line by line, is the account over the whole stream. -/
theorem rawText_shown (linePrefix : Bytes) (past : List (Cell × Bool)) (lines : List (List Cell)) :
    rawText linePrefix ((past.takeWhile (·.1.masked)).any Prod.snd) lines =
      shownRaw past (lines.flatMap fun line =>
        line.map (·, !isStructuredLine linePrefix line)) := by
  induction lines generalizing past with
  | nil => rfl
  | cons line rest ih =>
    rw [List.flatMap_cons, rawText]
    cases structured : isStructuredLine linePrefix line with
    | true =>
      obtain ⟨_, same, flag⟩ := shownRaw_structured past (rest.flatMap fun line =>
        line.map (·, !isStructuredLine linePrefix line)) line
      rw [if_pos rfl, ← flag, ih, ← same]
      rfl
    | false =>
      obtain ⟨_, same, flag⟩ := shownRaw_raw past (rest.flatMap fun line =>
        line.map (·, !isStructuredLine linePrefix line)) line
      rw [if_neg Bool.false_ne_true]
      dsimp only
      rw [← flag, ih, ← same]
      rfl

/-- The position in the JSON text of a line before one of its bytes. -/
def cursorAt (linePrefix : Bytes) (line : List Cell) (index : Nat) : JsonCursor :=
  (((line.take index).drop linePrefix.length).map Cell.value).foldl JsonCursor.advance {}

/-- A masked byte stands in the configured start of the line or outside of the string bodies of its
JSON text. -/
def Exposed (linePrefix : Bytes) (cells : List Cell) : Prop :=
  ∃ index cell, cells[index]? = some cell ∧ cell.masked = true ∧
    (index < linePrefix.length ∨ (cursorAt linePrefix cells index).inBody cell.value = false)

theorem unsafeStep_iff (cells : List Cell) (flag : Bool) (cursor : JsonCursor) :
    (cells.foldl unsafeStep (flag, cursor)).1 = true ↔ flag = true ∨
      ∃ index cell, cells[index]? = some cell ∧ cell.masked = true ∧
        (((cells.take index).map Cell.value).foldl JsonCursor.advance cursor).inBody
          cell.value = false := by
  induction cells generalizing flag cursor with
  | nil => simp
  | cons first rest ih =>
    rw [List.foldl_cons, unsafeStep, ih, Bool.or_eq_true, Bool.and_eq_true, Bool.not_eq_true',
      or_assoc]
    refine or_congr_right ⟨?_, ?_⟩
    · rintro (found | ⟨index, cell, found⟩)
      · exact ⟨0, first, rfl, found⟩
      · exact ⟨index + 1, cell, found⟩
    · rintro ⟨index, cell, found⟩
      cases index with
      | zero =>
        obtain rfl := Option.some.inj found.1
        exact Or.inl found.2
      | succ index => exact Or.inr ⟨index, cell, found⟩

theorem verdict_iff (linePrefix : Bytes) (line : List Cell) :
    (verdict linePrefix line).1 = true ↔ Exposed linePrefix line := by
  rw [verdict, unsafeStep_iff, List.any_eq_true]
  constructor
  · rintro (⟨cell, member, masked⟩ | ⟨index, cell, found, masked, outside⟩)
    · obtain ⟨index, inside, rfl⟩ := List.mem_take_iff_getElem.1 member
      exact ⟨index, _, List.getElem?_eq_getElem (by omega), masked, Or.inl (by omega)⟩
    rw [List.getElem?_drop] at found
    refine ⟨_, cell, found, masked, Or.inr ?_⟩
    rw [cursorAt, List.drop_take, Nat.add_sub_cancel_left]
    exact outside
  · rintro ⟨index, cell, found, masked, place⟩
    by_cases inside : index < linePrefix.length
    · obtain ⟨bound, rfl⟩ := List.getElem?_eq_some_iff.1 found
      exact Or.inl ⟨_, List.mem_take_iff_getElem.2 ⟨index, by omega, rfl⟩, masked⟩
    have outside := place.resolve_left inside
    rw [cursorAt, List.drop_take] at outside
    refine Or.inr ⟨index - linePrefix.length, cell, ?_, masked, outside⟩
    rw [List.getElem?_drop, Nat.add_sub_cancel' (by omega)]
    exact found

/-- What a structured line is handed over as. -/
def structuredLine (settings : Settings) (line : List Cell) : Emission :=
  let shown := limitLine (settings.lineLimit .stdout) (line.map Cell.value)
  structuredEmission (verdict settings.structuredLinePrefix line).1
    ⟨shown.1, shown.2.1, shown.2.2, false⟩

theorem Router.run_structured (router : Router) (settings : Settings) (lines : List (List Cell))
    (configured : router.linePrefix = settings.structuredLinePrefix)
    (limit : router.structured.line.maximum = settings.lineLimit .stdout) :
    (Transducer.run routeLine router lines).2.filter (!·.isRaw) =
      (lines.filter (isStructuredLine settings.structuredLinePrefix)).map
        (structuredLine settings) := by
  induction lines generalizing router with
  | nil => rfl
  | cons line rest ih =>
    rw [Transducer.run_cons, List.filter_append]
    have kept : (router.routeLine line).1.structured.line.maximum = settings.lineLimit .stdout := by
      unfold routeLine
      split <;> exact limit
    rw [ih _ ((routeLine_linePrefix router line).trans configured) kept, List.filter_cons]
    rw [routeLine, configured]
    cases isStructuredLine settings.structuredLinePrefix line with
    | true =>
      have apart (refused : Bool) (line : Line) :
          (structuredEmission refused line).isRaw = false := by
        cases refused <;> rfl
      simp [limit, structuredLine, apart]
    | false =>
      rw [if_neg Bool.false_ne_true, if_neg Bool.false_ne_true]
      simp [emitMatchedRaw, Emission.isRaw]

/-- Routing of standard output: exactly the lines of the stripped text that start with the
configured text go to the structured channel, in order. The raw limiter is fed exactly with the
other lines, an unfinished one included, with one marker for each run of masked bytes. A structured
line with a masked byte in its configured start or outside of JSON string bodies is handed over as
unsafe, and then no event is recorded.

Proof: the router works line by line, on the cells of `redactCells_released`. -/
theorem structured_routing (config : Config) (settings : Settings)
    (accepted : config.withDefaults = .ok settings) (chunks : List Bytes) :
    let cells := redactCells settings.patterns (streamText chunks)
    let lines := Lines.lines isLineEnd cells
    let linePrefix := config.structuredLinePrefix
    let emissions := (RawProcessor.new .stdout settings).emissions chunks
    let limiter : LineLimiter := { maximum := settings.lineLimit .stdout }
    let raw := Transducer.run LineLimiter.step limiter (shownRaw [] (lines.flatMap fun line =>
      line.map (·, !isStructuredLine linePrefix line)))
    lines.flatten.map Cell.value = streamText chunks ∧
      (∀ position cell, cells[position]? = some cell →
        (cell.masked = true ↔ Covered (secretKeys config.secrets) (streamText chunks) position)) ∧
      emissions.filter (!·.isRaw) =
        (lines.filter (isStructuredLine linePrefix)).map (structuredLine settings) ∧
      emissions.filterMap Emission.rawShown = (raw.2 ++ raw.1.finish.2).map Line.shown ∧
      ∀ line ∈ lines, isStructuredLine linePrefix line = true → Exposed linePrefix line →
        structuredLine settings line = .unsafeStructured ∧
        ∀ collector : Collector,
          (collector.emit .stdout (structuredLine settings line)).events = collector.events := by
  have sound := config.withDefaults_sound settings accepted
  obtain ⟨compiled, configured⟩ := config.withDefaults_compiled settings accepted
  obtain ⟨values, masks⟩ := redactCells_released (secretKeys config.secrets)
    (secretKeys_nonempty config.secrets) (streamText chunks)
  dsimp only
  rw [Lines.lines_flatten, RawProcessor.new_emissions settings sound, ← configured,
    ← rawText_shown _ []]
  refine ⟨compiled ▸ values, compiled ▸ masks, ?_, ?_, fun line _ _ exposed => ?_⟩
  · rw [Router.routeLines, List.filter_append]
    have trailing (handed : List Line) :
        (handed.map Emission.raw).filter (!·.isRaw) = [] := by
      simp [Emission.isRaw]
    rw [trailing, List.append_nil]
    exact Router.run_structured _ settings _ rfl rfl
  · exact Router.routeLines_rawShown _ _ _ ⟨rfl, rfl, rfl⟩
  have refused : structuredLine settings line = .unsafeStructured := by
    rw [structuredLine, (verdict_iff _ line).2 exposed]
    rfl
  refine ⟨refused, fun collector => ?_⟩
  rw [refused, Collector.emit, Collector.setStructuredEventError]
  split <;> rfl

/-- With a start of one byte, a line that has it and one that does not. -/
theorem structured_routing_marked :
    let settings := { defaultSettings with
      structuredLinePrefix := [0x45], structuredLineKind := [0x6B] }
    Config.withDefaults { structuredLinePrefix := [0x45], structuredLineKind := [0x6B] } =
        .ok settings ∧
      ((RawProcessor.new .stdout settings).emissions [[0x45], [0x31, 0x0A, 0x61]]).filter
          (!·.isRaw) = [.structured ⟨[0x45, 0x31, 0x0A], false, false, false⟩] :=
  ⟨rfl,
    (structured_routing { structuredLinePrefix := [0x45], structuredLineKind := [0x6B] } _
      rfl _).2.2.1.trans rfl⟩

end ProvenanceRunner.Evidence
