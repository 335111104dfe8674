import ProvenanceRunner.Library.Numerals
import ProvenanceRunner.Library.Recognisers

/-! # The length of a name service message

Before a message of the name service is parsed, its declared lengths are followed to its end. A
position in the message is given by the bytes from there on, and a read at a position that the
source has not checked is an error of the model: `wireEnd_exact` says that it does not occur.

`IsMessage` is the grammar that the check decides: a header of twelve bytes and four sections with
the declared numbers of entries, nothing behind them. -/

namespace ProvenanceRunner.Network

open Utf8 Numerals Recognisers

/-- The number in two bytes. -/
def uint16 : Bytes → Except Stop Nat
  | high :: low :: _ => .ok (readBigEndian [high, low])
  | _ => .error .outside

/-- The end of an encoded name. -/
def nameEnd : Nat → Recogniser UInt8
  | 0, _ => .error .refused
  | labels + 1, data =>
    if data.isEmpty then .error .refused
    else match data with
      | [] => .error .outside
      | length :: rest =>
        if length = 0 then .ok rest
        else if length &&& 0xC0 = 0xC0 then
          if rest.isEmpty then .error .refused else .ok rest.tail
        else if 63 < length || rest.length < length.toNat then .error .refused
        else nameEnd labels (rest.drop length.toNat)

/-- The end of what follows a name: questions, in the first section, have no data. -/
def bodyEnd (question : Bool) : Recogniser UInt8 := fun data =>
  if question then skip 4 data
  else if data.length < 10 then .error .refused
  else match uint16 (data.drop 8) with
    | .error stop => .error stop
    | .ok size => skip (10 + size) data

/-- The end of an entry: a name and its body. -/
def entryEnd (question : Bool) : Recogniser UInt8 := andThen (nameEnd 128) (bodyEnd question)

/-- The end of the sections, of which the header declares the numbers of entries. -/
def sectionsEnd (raw : Bytes) : List Nat → Recogniser UInt8
  | [], data => .ok data
  | number :: later, data =>
    match uint16 (raw.drop (4 + number * 2)) with
    | .error stop => .error stop
    | .ok count =>
      if 64 < count then .error .refused
      else andThen (times (entryEnd (number == 0)) count) (sectionsEnd raw later) data

/-- Whether the message ends where its lengths say. The error is a read outside of it. -/
def wireEnd (raw : Bytes) : Except Stop Bool :=
  if raw.length < 12 then .ok false
  else match sectionsEnd raw [0, 1, 2, 3] (raw.drop 12) with
    | .error .refused => .ok false
    | .error .outside => .error .outside
    | .ok rest => .ok rest.isEmpty

/-! ## Messages -/

/-- A name with so many labels. -/
inductive Name : Nat → Bytes → Prop where
  | root : Name 0 [0]
  | pointer (high low : UInt8) (marked : high &&& 0xC0 = 0xC0) : Name 0 [high, low]
  | label (length : UInt8) (text rest : Bytes) (labels : Nat) (positive : length ≠ 0)
      (short : length ≤ 63) (sized : text.length = length.toNat) (later : Name labels rest) :
      Name (labels + 1) (length :: (text ++ rest))

/-- Four bytes of a question, or a record header of ten with the data that its last two declare. -/
def IsBody (question : Bool) (body : Bytes) : Prop :=
  body.length = if question then 4 else 10 + readBigEndian ((body.drop 8).take 2)

/-- A name of fewer than 128 labels with its body. -/
def IsEntry (question : Bool) (entry : Bytes) : Prop :=
  ∃ name body, (∃ labels < 128, Name labels name) ∧ IsBody question body ∧ entry = name ++ body

/-- The number of entries that a header declares for a section. -/
def declared (header : Bytes) (number : Nat) : Nat :=
  readBigEndian ((header.drop (4 + number * 2)).take 2)

/-- The declared entries of each section, one section after another. -/
def IsSections (header : Bytes) : List Nat → Bytes → Prop
  | [], body => body = []
  | number :: later, body => declared header number ≤ 64 ∧
    ∃ entries others, Repeated (IsEntry (number == 0)) (declared header number) entries ∧
      IsSections header later others ∧ body = entries ++ others

/-- A header with exactly the entries that it declares. -/
def IsMessage (raw : Bytes) : Prop :=
  ∃ header body, header.length = 12 ∧ IsSections header [0, 1, 2, 3] body ∧ raw = header ++ body

/-! ## Following the lengths -/

theorem not_marked (length : UInt8) : length ≤ 63 → length &&& 0xC0 ≠ 0xC0 := by
  revert length
  exact forall_byte (by decide +kernel)

/-- The names of fewer labels than rounds. Induction on the rounds, each of which reads a label. -/
theorem recognises_nameEnd (labels : Nat) :
    Recognises (nameEnd labels) fun part => ∃ count < labels, Name count part := by
  induction labels with
  | zero => exact ⟨fun data => by simp [nameEnd], fun data rest => by simp [nameEnd]⟩
  | succ labels induction =>
    constructor
    · intro data
      unfold nameEnd
      split
      · simp
      split
      · simp_all
      repeat' split
      all_goals first | exact induction.inside _ | simp
    intro data rest
    constructor
    · intro taken
      unfold nameEnd at taken
      split at taken
      · cases taken
      split at taken
      · cases taken
      next length others _ =>
      split at taken
      · next zero =>
        cases taken
        exact ⟨[0], ⟨0, Nat.succ_pos _, .root⟩, by rw [zero]; rfl⟩
      next positive =>
      split at taken
      · next marked =>
        split at taken
        · cases taken
        · cases taken
          cases others with
          | nil => contradiction
          | cons low => exact ⟨[length, low], ⟨0, Nat.succ_pos _, .pointer length low marked⟩, rfl⟩
      split at taken
      · cases taken
      next inside =>
      simp only [Bool.or_eq_true, decide_eq_true_eq, not_or, UInt8.not_lt, Nat.not_lt] at inside
      obtain ⟨part, ⟨count, few, name⟩, split⟩ := (induction.exact _ _).1 taken
      have sized := List.length_take_of_le inside.2
      refine ⟨_, ⟨count + 1, Nat.succ_lt_succ few,
        .label length (others.take length.toNat) part count positive inside.1 sized name⟩, ?_⟩
      rw [List.cons_append, List.append_assoc, ← split, List.take_append_drop]
    · rintro ⟨part, ⟨count, few, name⟩, rfl⟩
      cases name with
      | root => simp [nameEnd]
      | pointer high low marked =>
        have positive : high ≠ 0 := by
          rintro rfl
          cases marked
        simp [nameEnd, positive, marked]
      | label length text later labels positive short sized name =>
        have next := (induction.exact (later ++ rest) rest).2
          ⟨later, ⟨labels, Nat.lt_of_succ_lt_succ few, name⟩, rfl⟩
        have long : ¬ 63 < length := UInt8.not_lt.2 short
        simp [nameEnd, positive, not_marked length short, long, ← sized, next]

/-- Two bytes of a front are read whatever follows it. -/
theorem uint16_front (front rest : Bytes) (offset : Nat) (inside : offset + 2 ≤ front.length) :
    uint16 ((front ++ rest).drop offset) = .ok (readBigEndian ((front.drop offset).take 2)) := by
  have enough : 2 ≤ (front.drop offset).length := by
    rw [List.length_drop]
    omega
  rw [List.drop_append_of_le_length (by omega)]
  generalize front.drop offset = bytes at enough
  cases bytes with
  | nil => simp at enough
  | cons high others =>
    cases others with
    | nil => simp at enough
    | cons low others => rfl

/-- The length of a record's data stands in the header before it. -/
theorem recognises_bodyEnd (question : Bool) : Recognises (bodyEnd question) (IsBody question) := by
  cases question with
  | true => exact recognises_skip 4
  | false =>
    constructor
    · intro data
      unfold bodyEnd
      rw [if_neg Bool.false_ne_true]
      split
      · simp
      next enough =>
        rw [← List.append_nil data, uint16_front data [] 8 (by omega)]
        exact (recognises_skip _).inside _
    intro data rest
    unfold bodyEnd
    rw [if_neg Bool.false_ne_true]
    constructor
    · intro taken
      split at taken
      · cases taken
      split at taken
      · cases taken
      next size known =>
      obtain ⟨part, length, rfl⟩ := ((recognises_skip _).exact _ _).1 taken
      rw [uint16_front part rest 8 (by omega)] at known
      cases known
      exact ⟨part, length, rfl⟩
    · rintro ⟨part, length, rfl⟩
      have long : 10 ≤ part.length := length ▸ Nat.le_add_right _ _
      rw [if_neg (by rw [List.length_append]; omega), uint16_front part rest 8 long]
      exact ((recognises_skip _).exact _ _).2 ⟨part, length, rfl⟩

section

variable {header body : Bytes} (twelve : header.length = 12)
include twelve

/-- The sections that are left, by induction on them. The numbers of entries are those of the
header, whatever stands behind it. -/
theorem recognises_sectionsEnd (numbers : List Nat) (known : ∀ number ∈ numbers, number < 4) :
    Recognises (sectionsEnd (header ++ body) numbers) (IsSections header numbers) := by
  induction numbers with
  | nil =>
    exact ⟨fun data => by simp [sectionsEnd], fun data rest => by simp [sectionsEnd, IsSections]⟩
  | cons number later induction =>
    obtain ⟨here, known⟩ := List.forall_mem_cons.1 known
    have entries := (((recognises_nameEnd 128).andThen (recognises_bodyEnd (number == 0))).times
      (declared header number)).andThen (induction known)
    have step : sectionsEnd (header ++ body) (number :: later) =
        if 64 < declared header number then fun _ => .error .refused
        else andThen (times (entryEnd (number == 0)) (declared header number))
          (sectionsEnd (header ++ body) later) := by
      funext data
      rw [sectionsEnd, uint16_front header body _ (by omega), ite_apply]
      rfl
    rw [step]
    split
    · next many =>
      refine ⟨fun data => by simp, fun data rest => iff_of_false (by simp) ?_⟩
      rintro ⟨_, ⟨few, _⟩, _⟩
      exact absurd many (Nat.not_lt.2 few)
    · next few => exact entries.congr fun whole => (and_iff_right (Nat.not_lt.1 few)).symm

/-- A message ends where its sections end. -/
theorem isMessage_iff : IsMessage (header ++ body) ↔
    sectionsEnd (header ++ body) [0, 1, 2, 3] body = .ok [] := by
  rw [(recognises_sectionsEnd twelve [0, 1, 2, 3] (by decide)).exact]
  constructor
  · rintro ⟨header', body', twelve', sections, same⟩
    obtain ⟨rfl, rfl⟩ := List.append_inj same (twelve.trans twelve'.symm)
    exact ⟨body, sections, (List.append_nil _).symm⟩
  · rintro ⟨part, sections, rfl⟩
    exact ⟨header, part, twelve, sections, by rw [List.append_nil]⟩

end

/-- Following the lengths never looks outside, and ends with the message exactly when it is a header
with the entries that it declares.

Proof: each part of the check recognises its part of the grammar, and so does their sequence. -/
theorem wireEnd_exact (raw : Bytes) :
    ∃ verdict, wireEnd raw = .ok verdict ∧ (verdict = true ↔ IsMessage raw) := by
  unfold wireEnd
  by_cases short : raw.length < 12
  · refine ⟨false, if_pos short, iff_of_false Bool.false_ne_true ?_⟩
    rintro ⟨header, body, twelve, _, rfl⟩
    rw [List.length_append] at short
    omega
  rw [if_neg short]
  have twelve : (raw.take 12).length = 12 := List.length_take_of_le (Nat.not_lt.1 short)
  have inside : sectionsEnd (raw.take 12 ++ raw.drop 12) [0, 1, 2, 3] (raw.drop 12) ≠
      .error .outside :=
    (recognises_sectionsEnd twelve [0, 1, 2, 3] (by decide)).inside (raw.drop 12)
  have message : IsMessage (raw.take 12 ++ raw.drop 12) ↔ _ := isMessage_iff twelve
  rw [List.take_append_drop] at inside message
  cases ended : sectionsEnd raw [0, 1, 2, 3] (raw.drop 12) with
  | error stop =>
    cases stop with
    | refused => exact ⟨false, rfl, by simp [message, ended]⟩
    | outside => exact absurd ended inside
  | ok rest => exact ⟨rest.isEmpty, rfl, by simp [message, ended]⟩

end ProvenanceRunner.Network
