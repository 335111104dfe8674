import ProvenanceRunner.Evidence.LineLoss
import ProvenanceRunner.Evidence.MalformedCuts

/-! # Independence of the cuts between writes

The stripper, the redactor and the router remember everything in their state, so they cannot tell
how their input was cut; the normaliser can only where a cut falls inside a malformed sequence. So
the whole pipeline is independent of all other cuts. Conversely a cut inside a malformed sequence
shows in the evidence wherever no later stage hides it. -/

namespace ProvenanceRunner.Evidence

open Utf8

/-- Through the later stages, chunks that spare every malformed sequence are one write. -/
theorem RawProcessor.writes_eq_write (processor : RawProcessor) (chunks : List Bytes)
    (undecided : fullRune processor.normalizer.pending = false)
    (spares : SparesMalformed processor.normalizer.pending chunks) :
    processor.writes chunks = processor.write chunks.flatten := by
  obtain ⟨samePending, sameText, -⟩ :=
    Utf8Normalizer.writes_spec processor.normalizer.pending undecided chunks
  have same : processor.normalizer.writes chunks = processor.normalizer.write chunks.flatten := by
    refine Prod.ext ?_ (sameText spares)
    exact congrArg Utf8Normalizer.mk samePending
  rw [writes_pass, same]
  rfl

theorem PerStream.set_set {α : Type} (pair : PerStream α) (stream : Stream) (first second : α) :
    (pair.set stream first).set stream second = pair.set stream second := by
  cases stream <;> rfl

theorem PerStream.set_get {α : Type} (pair : PerStream α) (stream : Stream) :
    pair.set stream (pair.get stream) = pair := by
  cases stream <;> rfl

namespace Collector

variable (collector : Collector) (stream : Stream)

theorem write_apply (content : Bytes)
    (unfinished : (collector.processors.get stream).finished = false) :
    collector.write stream content =
      (collector.apply
          (((collector.processors.get stream).write content).2.map (Prod.mk stream))).withInput
        (collector.processors.set stream ((collector.processors.get stream).write content).1)
        (collector.rawObserved + content.length) collector.closed := by
  rw [write, if_neg (by rw [unfinished]; decide), advance_apply]
  change ((collector.withInput collector.processors (collector.rawObserved + content.length)
    collector.closed).apply _).withInput _ _ _ = _
  rw [apply_withInput]
  rfl

/-- Successive writes on one stream. -/
theorem run_stream (chunks : List Bytes)
    (unfinished : (collector.processors.get stream).finished = false) :
    collector.run (chunks.map (Prod.mk stream)) =
      (collector.apply
          (((collector.processors.get stream).writes chunks).2.map (Prod.mk stream))).withInput
        (collector.processors.set stream ((collector.processors.get stream).writes chunks).1)
        (collector.rawObserved + chunks.flatten.length) collector.closed := by
  induction chunks using List.reverseRecOn with
  | nil =>
    change collector = collector.withInput (collector.processors.set stream
      (collector.processors.get stream)) collector.rawObserved collector.closed
    rw [PerStream.set_get, withInput_self]
  | append_singleton chunks chunk ih =>
    have step : collector.run ((chunks ++ [chunk]).map (Prod.mk stream)) =
        (collector.run (chunks.map (Prod.mk stream))).write stream chunk := by
      rw [run, List.map_append, List.foldl_append]
      rfl
    have current : ((collector.run (chunks.map (Prod.mk stream))).processors.get stream) =
        ((collector.processors.get stream).writes chunks).1 := by
      rw [ih]
      change (collector.processors.set stream _).get stream = _
      rw [PerStream.get_set, if_pos rfl]
    have stillOpen : ((collector.run (chunks.map (Prod.mk stream))).processors.get
        stream).finished = false := by
      rw [current, RawProcessor.writes_finished, unfinished]
    rw [step, write_apply _ stream chunk stillOpen, current, RawProcessor.writes_snoc, ih,
      apply_withInput, withInput_withInput, List.map_append, apply_append, List.flatten_append,
      List.flatten_singleton, List.length_append, ← Nat.add_assoc]
    change (collector.apply _ |>.apply _).withInput ((collector.processors.set stream _).set
      stream _) _ _ = _
    rw [PerStream.set_set]
    rfl

/-- Writing chunk by chunk on a stream is one write of everything, when every cut spares the
malformed sequences. -/
theorem run_eq_write (chunks : List Bytes)
    (unfinished : (collector.processors.get stream).finished = false)
    (undecided : fullRune (collector.processors.get stream).normalizer.pending = false)
    (spares : SparesMalformed (collector.processors.get stream).normalizer.pending chunks) :
    collector.run (chunks.map (Prod.mk stream)) = collector.write stream chunks.flatten := by
  rw [run_stream collector stream chunks unfinished,
    write_apply collector stream chunks.flatten unfinished,
    RawProcessor.writes_eq_write _ chunks undecided spares]

end Collector

/-- Normalised text is at most three times as long as its source, and consists of bytes of the
source and of replacements. -/
theorem normalize_bounds (data : Bytes) :
    (normalize data).2.length + 3 * (normalize data).1.length ≤ 3 * data.length ∧
      (∀ byte ∈ (normalize data).2, byte ∈ data ∨ byte ∈ replacement) ∧
      ∀ byte ∈ (normalize data).1, byte ∈ data := by
  induction data using normalize_induction with
  | incomplete data undecided =>
    rw [normalize_incomplete data undecided]
    exact ⟨by simp, by simp, fun byte inside => inside⟩
  | rune rune rest isRune ih =>
    obtain ⟨bound, sources, kept⟩ := ih
    rw [normalize_rune rune rest isRune]
    refine ⟨?_, ?_, fun byte inside => List.mem_append_right _ (kept byte inside)⟩
    · simp only [List.length_append]
      omega
    intro byte inside
    rcases List.mem_append.mp inside with front | later
    · exact .inl (List.mem_append_left _ front)
    · exact (sources byte later).imp (List.mem_append_right _) id
  | malformed lead run rest decided refused taken ih =>
    obtain ⟨bound, sources, kept⟩ := ih
    rw [normalize_malformed decided refused taken]
    refine ⟨?_, ?_, fun byte inside => List.mem_append_right _ (kept byte inside)⟩
    · have three : replacement.length = 3 := rfl
      simp only [List.length_append, List.length_cons, three]
      omega
    · intro byte inside
      rcases List.mem_append.mp inside with replaced | later
      · exact .inr replaced
      · exact (sources byte later).imp (List.mem_append_right _) id

/-- The same for a sequence of writes. -/
theorem Utf8Normalizer.writes_bounds (normalizer : Utf8Normalizer) (chunks : List Bytes) :
    (normalizer.writes chunks).2.length + 3 * (normalizer.writes chunks).1.pending.length ≤
        3 * (normalizer.pending.length + chunks.flatten.length) ∧
      ∀ byte ∈ (normalizer.writes chunks).2,
        byte ∈ normalizer.pending ++ chunks.flatten ∨ byte ∈ replacement := by
  induction chunks generalizing normalizer with
  | nil => exact ⟨by simp [writes], by simp [writes]⟩
  | cons content rest ih =>
    obtain ⟨bound, sources, kept⟩ := normalize_bounds (normalizer.pending ++ content)
    obtain ⟨laterBound, laterSources⟩ := ih (normalizer.write content).1
    simp only [writes, List.flatten_cons]
    constructor
    · simp only [write, List.length_append] at bound laterBound ⊢
      omega
    intro byte inside
    rcases List.mem_append.mp inside with now | later
    · rcases sources byte now with source | replaced
      · left
        rw [← List.append_assoc]
        exact List.mem_append_left _ source
      · exact .inr replaced
    · rcases laterSources byte later with source | replaced
      · left
        rw [← List.append_assoc]
        rcases List.mem_append.mp source with pending | following
        · exact List.mem_append_left _ (kept byte pending)
        · exact List.mem_append_right _ following
      · exact .inr replaced

/-- Text without escape bytes is not stripped, and grows at most threefold. -/
theorem streamText_plain (chunks : List Bytes) (plain : 0x1B ∉ chunks.flatten) :
    streamText chunks = normalizedText chunks ∧
      (normalizedText chunks).length ≤ 3 * chunks.flatten.length := by
  obtain ⟨bound, sources⟩ := Utf8Normalizer.writes_bounds {} chunks
  constructor
  · rw [streamText_eq, AnsiStripper.write_plain {} _ rfl]
    rintro byte inside rfl
    rcases List.mem_append.mp inside with written | finished
    · rcases sources _ written with source | replaced
      · exact plain (by simpa using source)
      · exact absurd replaced (by decide)
    · have replaced : (0x1B : UInt8) ∈ replacement := by
        unfold Utf8Normalizer.finish at finished
        split at finished
        · exact finished
        · simp at finished
      exact absurd replaced (by decide)
  · simp only [normalizedText, Utf8Normalizer.finish, List.length_append]
    simp only [List.length_nil, Nat.zero_add] at bound
    split
    · have three : replacement.length = 3 := rfl
      simp only [three]
      omega
    · simp only [List.length_nil]
      omega

/-- Valid text within the line limit is kept byte for byte. -/
theorem Settings.keepLine_flatten (settings : Settings) (stream : Stream) (text : Bytes)
    (accepted : valid text = true) (short : text.length ≤ settings.maxLineBytes) :
    ((Lines.lines isNewline text).map (fun line => (settings.keepLine stream line).1)).flatten =
      text := by
  have kept : ∀ line ∈ Lines.lines isNewline text, (settings.keepLine stream line).1 = line := by
    intro line isLine
    have inside : line.length ≤ text.length := by
      conv => rhs; rw [← Lines.lines_flatten isNewline text]
      exact (List.sublist_flatten_of_mem isLine).length_le
    have bodyShort : (lineBody line).length ≤ settings.maxLineBytes := by
      have body : (lineBody line).length ≤ line.length := by
        unfold lineBody
        split <;> simp
      omega
    have reported := (settings.reported_iff stream text line isLine).mpr
      ((settings.validUnlessCut_of_short stream line bodyShort).mpr
        ((valid_lines_iff text).mp accepted line isLine))
    exact reported.1 bodyShort
  rw [List.map_congr_left kept, List.map_id', Lines.lines_flatten]

theorem chunksOf_single (stream : Stream) (chunks : List Bytes) :
    chunksOf stream (chunks.map (Prod.mk stream)) = chunks := by
  simp [chunksOf, List.filter_map, Function.comp_def]

/-- Two collectors show the same evidence: the same lines to the live sink, and the same text,
events and counters in the snapshot. -/
def Collector.SameEvidence (left right : Collector) : Prop :=
  left.close.entries = right.close.entries ∧ left.snapshot = right.snapshot

instance (left right : Collector) : Decidable (left.SameEvidence right) :=
  inferInstanceAs (Decidable (_ ∧ _))

/-- Under every configuration, writing the chunks on a stream shows the same evidence as writing
all of them at once. -/
def ChunkIndependent (stream : Stream) (chunks : List Bytes) : Prop :=
  ∀ (config : Config) (settings : Settings), config.withDefaults = .ok settings →
    ((Collector.ofSettings settings).run (chunks.map (Prod.mk stream))).SameEvidence
      ((Collector.ofSettings settings).write stream chunks.flatten)

/-- The settings of a configuration with the greatest line limit. -/
def longLineSettings : Settings := { defaultSettings with maxLineBytes := maximumLineBytes }

/-- The evidence does not depend on the cuts between writes when every cut spares the malformed
sequences. For input without escape bytes that fits one line of the greatest limit, it is the
same under every configuration only then: each cut inside a malformed sequence adds a replacement
that no later stage removes. -/
theorem chunk_independence_iff (stream : Stream) (chunks : List Bytes) :
    (SparesMalformed [] chunks → ChunkIndependent stream chunks) ∧
      (0x1B ∉ chunks.flatten → 3 * chunks.flatten.length ≤ maximumLineBytes →
        ChunkIndependent stream chunks → SparesMalformed [] chunks) := by
  constructor
  · intro spares config settings _
    have same := Collector.run_eq_write (Collector.ofSettings settings) stream chunks
      (by cases stream <;> rfl) (by cases stream <;> rfl)
      (by cases stream <;> exact spares)
    rw [same]
    exact ⟨rfl, rfl⟩
  · intro plain short independent
    by_contra splits
    have accepted : Config.withDefaults { maxLineBytes := 1048576 } = .ok longLineSettings := rfl
    have sound := Config.withDefaults_sound _ _ accepted
    obtain ⟨entries, -⟩ := independent _ _ accepted
    have shown : ∀ chunks : List Bytes, 0x1B ∉ chunks.flatten →
        3 * chunks.flatten.length ≤ maximumLineBytes →
        (((((Collector.ofSettings longLineSettings).run
          (chunks.map (Prod.mk stream))).close.entries.filter
            (fun entry => entry.stream = stream)).map LiveEntry.data).flatten) =
          normalizedText chunks := by
      intro chunks plain short
      obtain ⟨unstripped, bound⟩ := streamText_plain chunks plain
      have perStream := (Collector.close_entries longLineSettings sound
        (chunks.map (Prod.mk stream))).1 stream
      beta_reduce at perStream
      rw [chunksOf_single, longLineSettings.rawText_plain stream chunks rfl
        (by cases stream <;> rfl), unstripped, List.map_map] at perStream
      rw [perStream]
      exact longLineSettings.keepLine_flatten stream _ (normalizedText_valid chunks)
        (bound.trans short)
    have whole := shown [chunks.flatten] (by simpa using plain) (by simpa using short)
    have single : ((Collector.ofSettings longLineSettings).run
        ([chunks.flatten].map (Prod.mk stream))) =
      (Collector.ofSettings longLineSettings).write stream chunks.flatten := rfl
    rw [single, ← entries, shown chunks plain short] at whole
    obtain ⟨samePending, -, longer⟩ := Utf8Normalizer.writes_spec [] rfl chunks
    have lengths := congrArg List.length whole
    have once : (Utf8Normalizer.writes {} [chunks.flatten]) =
        (⟨(normalize chunks.flatten).1⟩, (normalize chunks.flatten).2) := by
      simp [Utf8Normalizer.writes, Utf8Normalizer.write]
    have pending : (Utf8Normalizer.writes {} chunks).1 = ⟨(normalize chunks.flatten).1⟩ :=
      congrArg Utf8Normalizer.mk samePending
    simp only [normalizedText, once, pending, List.length_append] at lengths
    have more := longer splits
    rw [List.nil_append] at more
    omega

/-- The overlong sequence E0 80 80 becomes one replacement when it is written at once, and two when
its last byte comes with the next write. -/
theorem chunk_dependence_overlong :
    ¬ ∀ (stream : Stream) (chunks : List Bytes), ChunkIndependent stream chunks := by
  intro claimed
  have same := claimed .stdout [[0xE0, 0x80], [0x80]] {} defaultSettings rfl
  revert same
  decide +kernel

end ProvenanceRunner.Evidence
