import ProvenanceRunner.Library.Utf8

/-! # Numerals and separated fields

A number is written with the digits of a base up to sixteen, the most significant one first and
without leading zeros. `numeral_injective` says that the text determines the number. Texts that are
joined with a separator which none of them contains are determined by the joined text. -/

namespace ProvenanceRunner.Numerals

open Utf8

/-! ## Digits -/

/-- The byte of a digit: decimal digits, then letters in lower case. -/
def digitByte (digit : Nat) : UInt8 :=
  if digit < 10 then 0x30 + digit.toUInt8 else 0x57 + digit.toUInt8

def digitValue (byte : UInt8) : Nat :=
  if byte < 0x40 then (byte - 0x30).toNat else (byte - 0x57).toNat

theorem digitValue_digitByte (digit : Nat) (small : digit < 16) :
    digitValue (digitByte digit) = digit := by
  have checked : ∀ digit < 16, digitValue (digitByte digit) = digit := by decide
  exact checked digit small

theorem isLowerHex_digitByte (digit : Nat) (small : digit < 16) :
    isLowerHex (digitByte digit) = true := by
  have checked : ∀ digit < 16, isLowerHex (digitByte digit) = true := by decide
  exact checked digit small

/-- The value of a hexadecimal digit of either case. -/
def hexValue (byte : UInt8) : Option Nat :=
  if isLowerHex byte then some (digitValue byte)
  else if 0x41 ≤ byte && byte ≤ 0x46 then some (byte.toNat - 0x37)
  else none

/-- Two digits for each byte; the digit ten is the given letter. -/
def hexadecimal (ten : UInt8) (data : Bytes) : Bytes :=
  let digit : UInt8 → UInt8 := fun value =>
    if value < 10 then 0x30 + value else ten + (value - 10)
  data.flatMap (fun byte : UInt8 => [digit (byte >>> 4), digit (byte &&& 0x0F)])

/-- The digits of a number, as long as the fuel lasts. -/
def digits (base : Nat) : Nat → Nat → List Nat
  | 0, value => [value % base]
  | fuel + 1, value =>
    if value < base then [value] else digits base fuel (value / base) ++ [value % base]

/-- The number that digits stand for. -/
def readDigits (base : Nat) (places : List Nat) : Nat :=
  places.foldl (fun value digit => base * value + digit) 0

theorem readDigits_snoc (base : Nat) (places : List Nat) (digit : Nat) :
    readDigits base (places ++ [digit]) = base * readDigits base places + digit := by
  simp [readDigits]

variable (base fuel value : Nat)

theorem readDigits_digits (large : 2 ≤ base) (enough : value ≤ fuel) :
    readDigits base (digits base fuel value) = value := by
  induction fuel generalizing value with
  | zero =>
    obtain rfl : value = 0 := Nat.le_zero.1 enough
    simp [digits, readDigits]
  | succ fuel induction =>
    unfold digits
    by_cases small : value < base
    · simp [small, readDigits]
    · have less : value / base < value := Nat.div_lt_self (by omega) large
      rw [if_neg small, readDigits_snoc, induction (value / base) (by omega)]
      exact Nat.div_add_mod value base

theorem digits_small (large : 2 ≤ base) :
    ∀ digit ∈ digits base fuel value, digit < base := by
  have positive : 0 < base := by omega
  induction fuel generalizing value with
  | zero =>
    intro digit member
    obtain rfl := List.mem_singleton.1 member
    exact Nat.mod_lt value positive
  | succ fuel induction =>
    intro digit member
    unfold digits at member
    by_cases small : value < base
    · rw [if_pos small] at member
      exact List.mem_singleton.1 member ▸ small
    rw [if_neg small] at member
    rcases List.mem_append.1 member with earlier | last
    · exact induction (value / base) digit earlier
    · exact List.mem_singleton.1 last ▸ Nat.mod_lt value positive

theorem digits_ne_nil : digits base fuel value ≠ [] := by
  cases fuel with
  | zero => simp [digits]
  | succ =>
    unfold digits
    split <;> simp

/-! ## Numerals -/

def numeral (base value : Nat) : Bytes := (digits base value value).map digitByte

def decimal (value : Nat) : Bytes := numeral 10 value

theorem numeral_ne_nil (base value : Nat) : numeral base value ≠ [] := by
  simp [numeral, digits_ne_nil]

theorem isLowerHex_numeral (base value : Nat) (large : 2 ≤ base) (limited : base ≤ 16) :
    ∀ byte ∈ numeral base value, isLowerHex byte = true := by
  intro byte member
  obtain ⟨digit, found, rfl⟩ := List.mem_map.1 member
  have small : digit < base := digits_small base value value large digit found
  exact isLowerHex_digitByte digit (by omega)

/-- A number is read back from its digits. -/
theorem readDigits_numeral (base value : Nat) (large : 2 ≤ base) (limited : base ≤ 16) :
    readDigits base ((numeral base value).map digitValue) = value := by
  have back : (numeral base value).map digitValue = digits base value value := by
    rw [numeral, List.map_map]
    conv => rhs; rw [← List.map_id (digits base value value)]
    refine List.map_congr_left fun digit member => ?_
    have small : digit < base := digits_small base value value large digit member
    exact digitValue_digitByte digit (by omega)
  rw [back, readDigits_digits base value value large (Nat.le_refl value)]

/-- The text of a number determines the number. -/
theorem numeral_injective (base : Nat) (large : 2 ≤ base) (limited : base ≤ 16)
    {first second : Nat} (same : numeral base first = numeral base second) : first = second := by
  rw [← readDigits_numeral base first large limited, same,
    readDigits_numeral base second large limited]

theorem decimal_injective {first second : Nat} (same : decimal first = decimal second) :
    first = second :=
  numeral_injective 10 (by decide) (by decide) same

/-! ## Numbers of a fixed width -/

/-- The bytes of a number, the high one first. -/
def bigEndian : Nat → Nat → Bytes
  | 0, _ => []
  | width + 1, value => bigEndian width (value / 256) ++ [UInt8.ofNat (value % 256)]

def readBigEndian (bytes : Bytes) : Nat :=
  bytes.foldl (fun value byte => 256 * value + byte.toNat) 0

@[simp] theorem bigEndian_length (width value : Nat) : (bigEndian width value).length = width := by
  induction width generalizing value with
  | zero => rfl
  | succ width induction => simp [bigEndian, induction]

/-- A number that fits is read back. -/
theorem readBigEndian_bigEndian (width value : Nat) (fits : value < 256 ^ width) :
    readBigEndian (bigEndian width value) = value := by
  induction width generalizing value with
  | zero =>
    rw [Nat.pow_zero] at fits
    simp only [bigEndian, readBigEndian, List.foldl_nil]
    omega
  | succ width induction =>
    have high := induction (value / 256) (by
      rw [Nat.pow_succ] at fits
      exact Nat.div_lt_of_lt_mul (by omega))
    unfold readBigEndian at high ⊢
    rw [bigEndian, List.foldl_append, high, List.foldl_cons, List.foldl_nil]
    have low : (UInt8.ofNat (value % 256)).toNat = value % 256 := by simp
    rw [low]
    omega

/-! ## Separated fields -/

variable {α : Type}

/-- Fields joined in two parts. -/
theorem intercalate_append (separator : List α) {first second : List (List α)}
    (nonempty : first ≠ []) (nonempty' : second ≠ []) :
    separator.intercalate (first ++ second) =
      separator.intercalate first ++ separator ++ separator.intercalate second := by
  induction first with
  | nil => exact absurd rfl nonempty
  | cons field rest induction =>
    cases rest with
    | nil =>
      obtain ⟨_, _, rfl⟩ := List.exists_cons_of_ne_nil nonempty'
      simp [List.intercalate_cons_cons]
    | cons =>
      rw [List.cons_append, List.cons_append, List.intercalate_cons_cons,
        List.intercalate_cons_cons, ← List.cons_append, induction (by simp)]
      simp

/-- An item of a joined list is the separator or stands in a field. -/
theorem mem_intercalate {separator item : α} {fields : List (List α)}
    (member : item ∈ [separator].intercalate fields) :
    item = separator ∨ ∃ field ∈ fields, item ∈ field := by
  induction fields with
  | nil => simp at member
  | cons field rest induction =>
    cases rest with
    | nil => exact Or.inr ⟨field, by simp, by simpa using member⟩
    | cons =>
      simp only [List.intercalate_cons_cons, List.mem_append, List.mem_singleton] at member
      rcases member with (inside | same) | later
      · exact Or.inr ⟨field, by simp, inside⟩
      · exact Or.inl same
      · exact (induction later).imp_right fun ⟨other, found, inside⟩ =>
          ⟨other, .tail _ found, inside⟩

theorem intercalate_cons (mark : α) (tail field : List α) (rest : List (List α)) :
    (mark :: tail).intercalate (field :: rest) =
      [mark].intercalate (field :: rest.map (tail ++ ·)) := by
  induction rest generalizing field with
  | nil => simp
  | cons next rest induction =>
    rw [List.map_cons, List.intercalate_cons_cons, List.intercalate_cons_cons, induction]
    cases rest <;> simp [List.intercalate_cons_cons]

/-- A list is determined by what its items are written as. -/
theorem map_injective_of_mem {β : Type} (write : β → α) (first second : List β)
    (injective : ∀ item ∈ first, ∀ item' ∈ second, write item = write item' → item = item')
    (same : first.map write = second.map write) : first = second := by
  induction first generalizing second with
  | nil => simpa using same.symm
  | cons item rest induction =>
    cases second with
    | nil => simp at same
    | cons item' rest' =>
      simp only [List.map_cons, List.cons.injEq] at same
      rw [injective item (by simp) item' (by simp) same.1, induction rest'
        (fun other member other' member' =>
          injective other (by simp [member]) other' (by simp [member'])) same.2]

variable [BEq α] [LawfulBEq α]

/-- Nonempty lists of fields without the separator are determined by the joined text. -/
theorem intercalate_injective (separator : α)
    {first second : List (List α)}
    (clean : ∀ field ∈ first, separator ∉ field) (clean' : ∀ field ∈ second, separator ∉ field)
    (nonempty : first ≠ []) (nonempty' : second ≠ [])
    (same : [separator].intercalate first = [separator].intercalate second) : first = second := by
  have cut := List.splitOn_intercalate separator clean nonempty
  have cut' := List.splitOn_intercalate separator clean' nonempty'
  rw [← cut, ← cut', same]

/-- The first terminator of a text separates a line without it from the rest. -/
theorem append_terminator_injective {terminator : α} {line line' rest rest' : List α}
    (clean : terminator ∉ line) (clean' : terminator ∉ line')
    (same : line ++ terminator :: rest = line' ++ terminator :: rest') :
    line = line' ∧ rest = rest' := by
  have front {line rest : List α} (clean : terminator ∉ line) :
      (line ++ terminator :: rest).takeWhile (· != terminator) = line := by
    rw [List.takeWhile_append_of_pos fun item inside =>
      bne_iff_ne.2 fun (same : item = terminator) => clean (same ▸ inside)]
    simp
  have fronts := congrArg (List.takeWhile (· != terminator)) same
  rw [front clean, front clean'] at fronts
  subst fronts
  exact ⟨rfl, (List.cons.inj (List.append_cancel_left same)).2⟩

/-- A separator of several items, of which the first is in no field. -/
theorem intercalate_cons_injective (mark : α) {tail : List α} (apart : mark ∉ tail)
    {first second : List (List α)} (clean : ∀ field ∈ first, mark ∉ field)
    (clean' : ∀ field ∈ second, mark ∉ field) (nonempty : first ≠ []) (nonempty' : second ≠ [])
    (same : (mark :: tail).intercalate first = (mark :: tail).intercalate second) :
    first = second := by
  obtain ⟨field, rest, rfl⟩ := List.exists_cons_of_ne_nil nonempty
  obtain ⟨field', rest', rfl⟩ := List.exists_cons_of_ne_nil nonempty'
  have fields {field : List α} {rest : List (List α)} (clean : ∀ item ∈ field :: rest,
      mark ∉ item) : ∀ item ∈ field :: rest.map (tail ++ ·), mark ∉ item := by
    simpa [apart] using clean
  rw [intercalate_cons mark tail, intercalate_cons mark tail] at same
  obtain ⟨rfl, later⟩ := List.cons.inj
    (intercalate_injective mark (fields clean) (fields clean') (by simp) (by simp) same)
  rw [List.map_injective_iff.2 (List.append_right_injective tail) later]

/-- Lines are determined by the text in which each of them is followed by its end. -/
theorem terminated_injective {β : Type} (write : β → List α) (terminator : α)
    (first second : List β) (clean : ∀ item ∈ first, terminator ∉ write item)
    (clean' : ∀ item ∈ second, terminator ∉ write item)
    (same : first.flatMap (fun item => write item ++ [terminator]) =
      second.flatMap (fun item => write item ++ [terminator])) :
    first.map write = second.map write := by
  have joined (items : List β) : items.flatMap (fun item => write item ++ [terminator]) =
      [terminator].intercalate (items.map write ++ [[]]) := by
    induction items with
    | nil => rfl
    | cons item rest induction =>
      rw [List.flatMap_cons, induction]
      cases rest <;> simp [List.intercalate_cons_cons]
  have fields {items : List β} (clean : ∀ item ∈ items, terminator ∉ write item) :
      ∀ field ∈ items.map write ++ [[]], terminator ∉ field := by
    simpa [or_imp, forall_and] using clean
  rw [joined, joined] at same
  exact List.append_cancel_right
    (intercalate_injective terminator (fields clean) (fields clean') (by simp) (by simp) same)

end ProvenanceRunner.Numerals
