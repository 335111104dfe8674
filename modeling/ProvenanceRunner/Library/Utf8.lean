import Mathlib.Algebra.GroupWithZero.Nat
import Mathlib.Data.List.Basic
import Mathlib.Tactic.Common

/-! # UTF-8 as the byte decoder reads it

The decoder of the host language looks at a byte string from its front. One table classifies the
first byte; for a multi-byte lead the table also gives the length of the rune and the range of its
second byte, which is where overlong forms, surrogates and values above U+10FFFF are refused.

`runeSize` answers how many bytes the first rune takes, `fullRune` whether the front already
decides that question, and `valid` whether a whole string splits into runes. Code points are not
computed: nothing here depends on them. -/

namespace ProvenanceRunner.Utf8

variable {lead second : UInt8}

abbrev Bytes := List UInt8

instance : LawfulBEq Bytes := List.instLawfulBEq

theorem drop_takeWhile_length {α : Type} (property : α → Bool) (items : List α) :
    items.drop (items.takeWhile property).length = items.dropWhile property := by
  calc items.drop (items.takeWhile property).length
      = (items.takeWhile property ++ items.dropWhile property).drop
          (items.takeWhile property).length := by rw [List.takeWhile_append_dropWhile]
    _ = items.dropWhile property := List.drop_left

/-- The bytes of a text. -/
def encode (text : String) : Bytes := text.toUTF8.data.toList

/-! ## Classes of ASCII bytes -/

def isDigit (byte : UInt8) : Bool := 0x30 ≤ byte && byte ≤ 0x39
def isUpper (byte : UInt8) : Bool := 0x41 ≤ byte && byte ≤ 0x5A
def isLower (byte : UInt8) : Bool := 0x61 ≤ byte && byte ≤ 0x7A

/-- Decimal digits and the letters from `a` to `f`. -/
def isLowerHex (byte : UInt8) : Bool := isDigit byte || (0x61 ≤ byte && byte ≤ 0x66)

/-! ## Runes -/

/-- What a first byte announces. A lead carries the number of bytes of its rune and the least and
greatest second byte. -/
inductive First where
  | ascii
  | invalid
  | lead (size : Nat) (low high : UInt8)
deriving DecidableEq, Repr

/-- The table of first bytes. -/
def first (byte : UInt8) : First :=
  if byte < 0x80 then .ascii
  else if byte < 0xC2 then .invalid
  else if byte < 0xE0 then .lead 2 0x80 0xBF
  else if byte = 0xE0 then .lead 3 0xA0 0xBF
  else if byte = 0xED then .lead 3 0x80 0x9F
  else if byte < 0xF0 then .lead 3 0x80 0xBF
  else if byte = 0xF0 then .lead 4 0x90 0xBF
  else if byte < 0xF4 then .lead 4 0x80 0xBF
  else if byte = 0xF4 then .lead 4 0x80 0x8F
  else .invalid

/-- A continuation byte has the two leading bits `10`. -/
def isContinuation (byte : UInt8) : Bool := byte &&& 0xC0 == 0x80

/-- Whether the front of the data decides its first rune: it is a complete rune, or no
continuation can make it one. -/
def fullRune : Bytes → Bool
  | [] => false
  | lead :: rest =>
    match first lead with
    | .ascii => true
    | .invalid => true
    | .lead size low high =>
      if size ≤ rest.length + 1 then true
      else match rest with
        | [] => false
        | second :: more =>
          if second < low || high < second then true
          else match more with
            | [] => false
            | third :: _ => !isContinuation third

/-- The number of bytes of the rune at the front of the data, and `none` where the decoder reports
an error. -/
def runeSize : Bytes → Option Nat
  | [] => none
  | lead :: rest =>
    match first lead with
    | .ascii => some 1
    | .invalid => none
    | .lead size low high =>
      match rest with
      | [] => none
      | second :: more =>
        if second < low || high < second then none
        else if more.length < size - 2 then none
        else if (more.take (size - 2)).all isContinuation then some size
        else none

/-- Validity with an explicit bound on the number of runes. -/
def validWithin : Nat → Bytes → Bool
  | _, [] => true
  | 0, _ :: _ => false
  | fuel + 1, data =>
    match runeSize data with
    | none => false
    | some size => validWithin fuel (data.drop size)

/-- A byte string is valid when it splits into runes. Every rune takes a byte, so the length bounds
the number of runes. -/
def valid (data : Bytes) : Bool := validWithin data.length data

/-- Shorten from the end until what is left is valid, with an explicit bound on the number of
bytes removed. -/
def trimWithin : Nat → Bytes → Bytes
  | 0, data => data
  | fuel + 1, data => if valid data then data else trimWithin fuel data.dropLast

/-- The longest valid front of a byte string. -/
def trimInvalid (data : Bytes) : Bytes := trimWithin data.length data

/-- Every statement about bytes can be checked on the 256 of them. -/
theorem forall_byte {property : UInt8 → Prop}
    (each : ∀ index : Fin 256, property (UInt8.ofNat index)) (byte : UInt8) : property byte := by
  have inside : byte.toNat < 256 := byte.toNat_lt
  simpa using each ⟨byte.toNat, inside⟩

variable (data : Bytes) (byte : UInt8)

/-- A lead announces between two and four bytes and admits only continuation bytes second. -/
theorem first_lead_bounds (size : Nat) (low high : UInt8)
    (announced : first byte = .lead size low high) :
    2 ≤ size ∧ size ≤ 4 ∧ 0x80 ≤ low ∧ high ≤ 0xBF ∧ 0xC2 ≤ byte := by
  unfold first at announced
  split at announced
  · cases announced
  split at announced
  · cases announced
  next notAscii notInvalid =>
    have large : 0xC2 ≤ byte := UInt8.not_lt.mp notInvalid
    repeat' split at announced
    all_goals cases announced
    all_goals exact ⟨by decide, by decide, by decide, by decide, large⟩

/-- The continuation bytes are the range from 0x80 to 0xBF. -/
theorem isContinuation_iff :
    isContinuation byte = true ↔ 0x80 ≤ byte ∧ byte ≤ 0xBF := by
  revert byte
  exact forall_byte (by decide +kernel)

/-- A continuation byte starts no rune. -/
theorem first_continuation (continues : isContinuation byte = true) :
    first byte = .invalid := by
  revert byte
  exact forall_byte (by decide +kernel)

/-- A byte of the ASCII range is no continuation. -/
theorem first_ascii_iff : first byte = .ascii ↔ byte < 0x80 := by
  revert byte
  exact forall_byte (by decide +kernel)

/-- The bytes of one rune, split into its first byte and the others. -/
inductive RuneShape : UInt8 → Bytes → Prop where
  | ascii (lead : UInt8) (small : first lead = .ascii) : RuneShape lead []
  | multibyte (lead : UInt8) (size : Nat) (low high second : UInt8) (more : Bytes)
      (announced : first lead = .lead size low high) (atLeast : low ≤ second)
      (atMost : second ≤ high) (length : more.length = size - 2)
      (continues : more.all isContinuation = true) : RuneShape lead (second :: more)

/-- A byte string that is exactly one rune. -/
def IsRune : Bytes → Prop
  | [] => False
  | lead :: tail => RuneShape lead tail

/-- A rune is recognised whatever follows it. -/
theorem runeSize_append_of_isRune (rune rest : Bytes) (isRune : IsRune rune) :
    runeSize (rune ++ rest) = some rune.length := by
  cases rune with
  | nil => exact isRune.elim
  | cons lead =>
    cases isRune with
    | ascii small => simp [runeSize, small]
    | multibyte size low high second more announced atLeast atMost length continues =>
      obtain ⟨two, _⟩ := first_lead_bounds lead size low high announced
      have outside : (decide (second < low) || decide (high < second)) = false := by
        simp [UInt8.not_lt.mpr atLeast, UInt8.not_lt.mpr atMost]
      have enough : ¬ (more ++ rest).length < size - 2 := by
        simp only [List.length_append]
        omega
      have front : (more ++ rest).take (size - 2) = more := by
        rw [← length, List.take_left]
      simp only [List.cons_append, runeSize, announced, outside, Bool.false_eq_true, if_false,
        enough, front, continues, if_true, List.length_cons]
      congr 1
      omega

/-- What `runeSize` accepts is a rune followed by the rest of the data. -/
theorem runeSize_cases (size : Nat) (decoded : runeSize data = some size) :
    ∃ rune rest, data = rune ++ rest ∧ IsRune rune ∧ rune.length = size := by
  cases data with
  | nil => simp [runeSize] at decoded
  | cons lead tail =>
    cases announced : first lead with
    | ascii =>
      simp only [runeSize, announced, Option.some.injEq] at decoded
      exact ⟨[lead], tail, rfl, .ascii lead announced, by simpa using decoded⟩
    | invalid => simp [runeSize, announced] at decoded
    | lead count low high =>
      obtain ⟨_, _⟩ := first_lead_bounds lead count low high announced
      cases tail with
      | nil => simp [runeSize, announced] at decoded
      | cons second more =>
        simp only [runeSize, announced] at decoded
        split at decoded
        · cases decoded
        next inside =>
        split at decoded
        · cases decoded
        next enough =>
        split at decoded
        next continues =>
          cases decoded
          simp only [Bool.or_eq_true, decide_eq_true_eq, not_or, UInt8.not_lt] at inside
          have taken : (more.take (size - 2)).length = size - 2 := by
            rw [List.length_take]
            omega
          refine ⟨lead :: second :: more.take (size - 2), more.drop (size - 2), ?_, ?_, ?_⟩
          · simp
          · exact .multibyte lead size low high second _ announced inside.1 inside.2 taken continues
          · simp only [List.length_cons, taken]
            omega
        · cases decoded

/-- A rune has a byte. -/
theorem IsRune.length_pos {rune : Bytes} (isRune : IsRune rune) : 0 < rune.length := by
  cases rune with
  | nil => exact isRune.elim
  | cons => simp

/-- Runes are what `runeSize` accepts whole. -/
theorem isRune_iff (rune : Bytes) : IsRune rune ↔ runeSize rune = some rune.length := by
  constructor
  · intro isRune
    simpa using runeSize_append_of_isRune rune [] isRune
  intro decoded
  obtain ⟨front, rest, rfl, isRune, length⟩ := runeSize_cases rune _ decoded
  have empty : rest = [] := by
    rw [List.length_append] at length
    exact List.length_eq_zero_iff.mp (by omega)
  simpa [empty] using isRune

/-- A decoded rune has a byte and lies inside the data. -/
theorem runeSize_bounds (size : Nat) (decoded : runeSize data = some size) :
    0 < size ∧ size ≤ data.length := by
  obtain ⟨_, _, rfl, isRune, rfl⟩ := runeSize_cases data size decoded
  exact ⟨isRune.length_pos, by simp⟩

/-- Data after a decoded rune does not change it. -/
theorem runeSize_append (data rest : Bytes) (size : Nat) (decoded : runeSize data = some size) :
    runeSize (data ++ rest) = some size := by
  obtain ⟨rune, tail, rfl, isRune, rfl⟩ := runeSize_cases data size decoded
  rw [List.append_assoc]
  exact runeSize_append_of_isRune rune (tail ++ rest) isRune

/-- The second byte that a lead admits is a continuation byte. -/
theorem second_continues {size : Nat} {low high : UInt8}
    (announced : first lead = .lead size low high) (atLeast : low ≤ second)
    (atMost : second ≤ high) : isContinuation second = true := by
  obtain ⟨-, -, lowest, highest, -⟩ := first_lead_bounds lead size low high announced
  exact (isContinuation_iff second).mpr
    ⟨UInt8.le_trans lowest atLeast, UInt8.le_trans atMost highest⟩

/-- The bytes of a rune that is not complete, split into its first byte and the others. -/
inductive PartialShape : UInt8 → Bytes → Prop where
  | alone (lead : UInt8) (size : Nat) (low high : UInt8)
      (announced : first lead = .lead size low high) : PartialShape lead []
  | second (lead : UInt8) (size : Nat) (low high second : UInt8) (more : Bytes)
      (announced : first lead = .lead size low high) (atLeast : low ≤ second)
      (atMost : second ≤ high) (short : more.length + 2 < size)
      (continues : more.all isContinuation = true) : PartialShape lead (second :: more)

theorem PartialShape.continues {tail : Bytes} (shape : PartialShape lead tail) :
    tail.all isContinuation = true := by
  cases shape with
  | alone => rfl
  | second size low high second more announced atLeast atMost short continues =>
    rw [List.all_cons, second_continues announced atLeast atMost, continues, Bool.and_self]

/-- An undecided front is a lead with fewer bytes than it announces, each of them admissible. -/
theorem incomplete_iff (lead : UInt8) (tail : Bytes) :
    fullRune (lead :: tail) = false ↔ PartialShape lead tail := by
  constructor
  · intro undecided
    cases announced : first lead with
    | ascii | invalid => simp [fullRune, announced] at undecided
    | lead size low high =>
      obtain ⟨_, _, _⟩ := first_lead_bounds lead size low high announced
      cases tail with
      | nil => exact .alone lead size low high announced
      | cons second more =>
        simp only [fullRune, announced, List.length_cons] at undecided
        split at undecided
        · cases undecided
        next short =>
        split at undecided
        · cases undecided
        next inside =>
        simp only [Bool.or_eq_true, decide_eq_true_eq, not_or, UInt8.not_lt] at inside
        refine .second lead size low high second more announced inside.1 inside.2 (by omega) ?_
        cases more with
        | nil => rfl
        | cons third others =>
          have last : others = [] := by
            simp only [List.length_cons] at short
            exact List.length_eq_zero_iff.mp (by omega)
          simpa [last] using undecided
  · intro shape
    cases shape with
    | alone size low high announced =>
      obtain ⟨two, _⟩ := first_lead_bounds lead size low high announced
      simp only [fullRune, announced, List.length_nil]
      rw [if_neg (by omega)]
    | second size low high second more announced atLeast atMost short continues =>
      simp only [fullRune, announced, UInt8.not_lt.mpr atLeast, UInt8.not_lt.mpr atMost,
        decide_false, Bool.or_self, Bool.false_eq_true, if_false, List.length_cons]
      rw [if_neg (by omega)]
      cases more with
      | nil => rfl
      | cons third => simpa using (List.all_eq_true.mp continues) third (by simp)

/-- A decoded rune decides the front. -/
theorem fullRune_of_runeSize (size : Nat) (decoded : runeSize data = some size) :
    fullRune data = true := by
  obtain ⟨rune, rest, rfl, isRune, -⟩ := runeSize_cases data size decoded
  cases rune with
  | nil => exact isRune.elim
  | cons lead =>
    cases isRune with
    | ascii small => simp [fullRune, small]
    | multibyte count low high second more announced atLeast atMost length =>
      obtain ⟨two, _⟩ := first_lead_bounds lead count low high announced
      have complete : count ≤ ((second :: more) ++ rest).length + 1 := by
        simp only [List.length_append, List.length_cons]
        omega
      simp only [List.cons_append] at complete
      simp only [List.cons_append, fullRune, announced, complete, if_true]

/-- A decided front stays decided. -/
theorem fullRune_append (data rest : Bytes) (decided : fullRune data = true) :
    fullRune (data ++ rest) = true := by
  cases data with
  | nil => simp [fullRune] at decided
  | cons lead tail =>
    by_contra undecided
    rw [Bool.not_eq_true, List.cons_append, incomplete_iff] at undecided
    have front : PartialShape lead tail := by
      cases tail with
      | nil => cases undecided <;> exact .alone lead _ _ _ ‹_›
      | cons second more =>
        rw [List.cons_append] at undecided
        cases undecided with
        | second size low high second _ announced atLeast atMost short continues =>
          rw [List.length_append] at short
          rw [List.all_append, Bool.and_eq_true] at continues
          exact .second lead size low high second more announced atLeast atMost (by omega)
            continues.1
    rw [(incomplete_iff lead tail).mpr front] at decided
    cases decided

/-- A proper part of a rune is undecided. -/
theorem incomplete_of_isRune_append (extra : UInt8) (others : Bytes)
    (isRune : IsRune (data ++ extra :: others)) : fullRune data = false := by
  cases data with
  | nil => rfl
  | cons lead front =>
    rw [incomplete_iff]
    cases front with
    | nil =>
      cases isRune with
      | multibyte size low high _ _ announced => exact .alone lead size low high announced
    | cons second more =>
      rw [List.cons_append, List.cons_append] at isRune
      cases isRune with
      | multibyte size low high second _ announced atLeast atMost length continues =>
        rw [List.length_append, List.length_cons] at length
        rw [List.all_append, Bool.and_eq_true] at continues
        exact .second lead size low high second more announced atLeast atMost (by omega) continues.1

/-- Once the front is decided, later bytes change neither a decoded size nor an error. -/
theorem runeSize_append_of_fullRune (data rest : Bytes) (decided : fullRune data = true) :
    runeSize (data ++ rest) = runeSize data := by
  cases decoded : runeSize data with
  | some size => exact runeSize_append data rest size decoded
  | none =>
    by_contra refused
    obtain ⟨_, accepted⟩ := Option.ne_none_iff_exists'.mp refused
    obtain ⟨rune, _, split, isRune, -⟩ := runeSize_cases _ _ accepted
    rcases List.append_eq_append_iff.mp split with ⟨within, rfl, -⟩ | ⟨within, rfl, -⟩
    · cases within with
      | nil =>
        rw [List.append_nil, isRune_iff, decoded] at isRune
        cases isRune
      | cons extra others =>
        rw [incomplete_of_isRune_append data extra others isRune] at decided
        cases decided
    · rw [runeSize_append_of_isRune rune within isRune] at decoded
      cases decoded

/-- Fuel beyond the number of bytes does not change the answer. -/
theorem validWithin_eq (fuel other : Nat) (data : Bytes) (enough : data.length ≤ fuel)
    (also : data.length ≤ other) : validWithin fuel data = validWithin other data := by
  induction fuel generalizing other data with
  | zero =>
    obtain rfl := List.length_eq_zero_iff.mp (Nat.le_zero.mp enough)
    cases other <;> rfl
  | succ fuel ih =>
    cases data with
    | nil => cases other <;> rfl
    | cons lead tail =>
      cases other with
      | zero => simp at also
      | succ other =>
        simp only [validWithin]
        cases decoded : runeSize (lead :: tail) with
        | none => rfl
        | some =>
          obtain ⟨positive, -⟩ := runeSize_bounds _ _ decoded
          simp only [List.length_cons] at enough also
          refine ih other _ ?_ ?_ <;> simp only [List.length_drop, List.length_cons] <;> omega

@[simp]
theorem valid_nil : valid [] = true := rfl

/-- Validity looks at the first rune and then at the rest. -/
theorem valid_cons (lead : UInt8) (tail : Bytes) :
    valid (lead :: tail) =
      match runeSize (lead :: tail) with
      | none => false
      | some size => valid ((lead :: tail).drop size) := by
  conv => lhs; unfold valid
  simp only [List.length_cons, validWithin]
  cases decoded : runeSize (lead :: tail) with
  | none => rfl
  | some =>
    obtain ⟨positive, -⟩ := runeSize_bounds _ _ decoded
    refine validWithin_eq _ _ _ ?_ (Nat.le_refl _)
    simp only [List.length_drop, List.length_cons]
    omega

/-- A rune in front does not change validity. -/
theorem valid_rune_append (rune rest : Bytes) (isRune : IsRune rune) :
    valid (rune ++ rest) = valid rest := by
  cases rune with
  | nil => exact isRune.elim
  | cons lead tail =>
    have decoded := runeSize_append_of_isRune (lead :: tail) rest isRune
    rw [List.cons_append] at decoded ⊢
    rw [valid_cons, decoded]
    simp

/-- Every valid byte string is built from runes; this is the induction principle for them. -/
theorem valid_induction {motive : Bytes → Prop} (nil : motive [])
    (rune : ∀ rune rest, IsRune rune → valid rest = true → motive rest → motive (rune ++ rest))
    (data : Bytes) (accepted : valid data = true) : motive data := by
  induction length : data.length using Nat.strongRecOn generalizing data with
  | ind count ih =>
    cases data with
    | nil => exact nil
    | cons lead tail =>
      rw [valid_cons] at accepted
      cases decoded : runeSize (lead :: tail) with
      | none => simp [decoded] at accepted
      | some =>
        obtain ⟨front, rest, split, isRune, counted⟩ := runeSize_cases _ _ decoded
        rw [decoded, split] at accepted
        simp only [← counted, List.drop_left] at accepted
        rw [split]
        refine rune front rest isRune accepted (ih rest.length ?_ rest accepted rfl)
        have total := congrArg List.length split
        rw [List.length_append] at total
        have positive := isRune.length_pos
        omega

/-- A valid part in front does not change validity. -/
theorem valid_append (front rest : Bytes) (accepted : valid front = true) :
    valid (front ++ rest) = valid rest := by
  refine valid_induction (motive := fun data => valid (data ++ rest) = valid rest) rfl ?_ front
    accepted
  intro rune others isRune _ ih
  rw [List.append_assoc, valid_rune_append rune _ isRune, ih]

/-- One rune is valid. -/
theorem IsRune.valid {rune : Bytes} (isRune : IsRune rune) : valid rune = true := by
  simpa using valid_rune_append rune [] isRune

/-- The first rune of a text is determined by the text. -/
theorem IsRune.unique {left right rest others : Bytes} (leftRune : IsRune left)
    (rightRune : IsRune right) (same : left ++ rest = right ++ others) :
    left = right ∧ rest = others := by
  have decoded := runeSize_append_of_isRune left rest leftRune
  rw [same, runeSize_append_of_isRune right others rightRune, Option.some.injEq] at decoded
  exact List.append_inj same decoded.symm

/-- A nonempty valid text starts with a rune. -/
theorem valid_starts (accepted : valid data = true) (nonempty : data ≠ []) :
    ∃ rune rest, data = rune ++ rest ∧ IsRune rune ∧ valid rest = true := by
  refine valid_induction (motive := fun data => data ≠ [] →
    ∃ rune rest, data = rune ++ rest ∧ IsRune rune ∧ valid rest = true) ?_ ?_ data accepted nonempty
  · intro absurdity
    exact absurd rfl absurdity
  · intro rune rest isRune later _ _
    exact ⟨rune, rest, rfl, isRune, later⟩

/-- An ASCII byte is a rune. -/
theorem isRune_ascii (small : byte < 0x80) : IsRune [byte] :=
  .ascii byte ((first_ascii_iff byte).mpr small)

/-- Every byte of a rune but the first is a continuation byte. -/
theorem IsRune.tail_continues {tail : Bytes} (isRune : IsRune (lead :: tail)) :
    tail.all isContinuation = true := by
  cases isRune with
  | ascii => rfl
  | multibyte size low high second more announced atLeast atMost length continues =>
    rw [List.all_cons, second_continues announced atLeast atMost, continues, Bool.and_self]

/-- The first byte of a rune of several bytes is no ASCII byte. -/
theorem IsRune.lead_large {more : Bytes}
    (isRune : IsRune (lead :: second :: more)) : 0xC2 ≤ lead := by
  cases isRune with
  | multibyte size low high second more announced =>
    exact (first_lead_bounds lead size low high announced).2.2.2.2

/-- No byte of a rune of several bytes is an ASCII byte. -/
theorem IsRune.bytes_high {more : Bytes}
    (isRune : IsRune (lead :: second :: more)) : ∀ byte ∈ lead :: second :: more, 0x80 ≤ byte := by
  intro byte member
  rcases List.mem_cons.mp member with rfl | later
  · exact UInt8.le_trans (by decide) isRune.lead_large
  · exact ((isContinuation_iff byte).mp
      (List.all_eq_true.mp isRune.tail_continues byte later)).1

/-- No rune starts with a continuation byte. -/
theorem valid_continuation (rest : Bytes) (continues : isContinuation byte = true) :
    valid (byte :: rest) = false := by
  have refused : runeSize (byte :: rest) = none := by
    simp [runeSize, first_continuation byte continues]
  rw [valid_cons, refused]

/-- A rune at the front of a text before an ASCII byte ends in the text. -/
theorem IsRune.before_ascii {rune others front rest : Bytes} {byte : UInt8} (isRune : IsRune rune)
    (small : byte < 0x80) (nonempty : front ≠ []) (whole : rune ++ others = front ++ byte :: rest) :
    ∃ extra, front = rune ++ extra ∧ others = extra ++ byte :: rest := by
  rcases List.append_eq_append_iff.mp whole with inside | ⟨extra, rfl, remaining⟩
  · exact inside
  cases extra with
  | nil => exact ⟨[], by simp, remaining.symm⟩
  | cons =>
    obtain ⟨rfl, -⟩ := List.cons.inj remaining
    obtain ⟨_, _, rfl⟩ := List.exists_cons_of_ne_nil nonempty
    rw [List.cons_append] at isRune
    have continues := isRune.tail_continues
    rw [List.all_append, List.all_cons, Bool.and_eq_true, Bool.and_eq_true,
      isContinuation_iff] at continues
    exact absurd small (UInt8.not_lt.mpr continues.2.1.1)

/-- A text can be cut at an ASCII byte. -/
theorem valid_append_ascii (front rest : Bytes) (byte : UInt8) (small : byte < 0x80) :
    valid (front ++ byte :: rest) = true ↔ valid front = true ∧ valid rest = true := by
  have behind : ∀ rest, valid (byte :: rest) = valid rest := fun rest =>
    valid_rune_append [byte] rest (isRune_ascii byte small)
  constructor
  · intro accepted
    have cut : valid front = true := by
      refine valid_induction (motive := fun data => ∀ front, data = front ++ byte :: rest →
        valid front = true) ?_ ?_ _ accepted front rfl
      · intro front whole
        simp at whole
      intro rune others isRune _ ih front whole
      by_cases empty : front = []
      · rw [empty, valid_nil]
      obtain ⟨extra, rfl, remaining⟩ := isRune.before_ascii small empty whole
      rw [valid_rune_append rune extra isRune]
      exact ih extra remaining
    refine ⟨cut, ?_⟩
    rwa [valid_append front _ cut, behind] at accepted
  · rintro ⟨before, after⟩
    rw [valid_append front _ before, behind, after]

/-- Trimming yields the longest valid front, if the bound is not below the length of the data. -/
theorem trimWithin_spec (fuel : Nat) (data : Bytes) (enough : data.length ≤ fuel) :
    valid (trimWithin fuel data) = true ∧ trimWithin fuel data <+: data ∧
      ∀ front, front <+: data → valid front = true → front <+: trimWithin fuel data := by
  induction fuel generalizing data with
  | zero =>
    have empty : data = [] := List.length_eq_zero_iff.mp (by omega)
    subst empty
    exact ⟨rfl, List.prefix_rfl, fun _ inside _ => inside⟩
  | succ fuel ih =>
    simp only [trimWithin]
    by_cases accepted : valid data = true
    · simp only [accepted, if_true]
      exact ⟨trivial, List.prefix_rfl, fun _ inside _ => inside⟩
    rw [if_neg accepted]
    have shorter : data.dropLast.length ≤ fuel := by
      rw [List.length_dropLast]
      omega
    obtain ⟨trimmed, front, longest⟩ := ih data.dropLast shorter
    refine ⟨trimmed, front.trans (List.dropLast_prefix data), fun other inside fine => ?_⟩
    refine longest other ?_ fine
    -- A valid front is not the whole, so it ends before the last byte.
    have proper : other.length ≠ data.length := fun same =>
      accepted (inside.eq_of_length same ▸ fine)
    have least := inside.length_le
    refine List.prefix_of_prefix_length_le inside (List.dropLast_prefix data) ?_
    rw [List.length_dropLast]
    omega

theorem trimInvalid_valid : valid (trimInvalid data) = true :=
  (trimWithin_spec data.length data (Nat.le_refl _)).1

/-- Trimming removes bytes at the end only. -/
theorem trimInvalid_front : trimInvalid data <+: data :=
  (trimWithin_spec data.length data (Nat.le_refl _)).2.1

/-- Trimming removes as little as it can. -/
theorem trimInvalid_longest {front : Bytes} (inside : front <+: data)
    (accepted : valid front = true) : front <+: trimInvalid data :=
  (trimWithin_spec data.length data (Nat.le_refl _)).2.2 front inside accepted

/-- Trimming leaves exactly the valid byte strings alone. -/
theorem trimInvalid_eq_iff : trimInvalid data = data ↔ valid data = true := by
  constructor
  · intro unchanged
    rw [← unchanged]
    exact trimInvalid_valid data
  · intro accepted
    exact (trimInvalid_front data).eq_of_length_le
      (trimInvalid_longest data List.prefix_rfl accepted).length_le

/-- A valid part in front is not trimmed. -/
theorem trimInvalid_append (front rest : Bytes) (accepted : valid front = true) :
    trimInvalid (front ++ rest) = front ++ trimInvalid rest := by
  obtain ⟨kept, split⟩ := trimInvalid_longest (front ++ rest) (List.prefix_append _ _) accepted
  have inside : kept <+: rest := by
    have inside := trimInvalid_front (front ++ rest)
    rwa [← split, List.prefix_append_right_inj] at inside
  have fine : valid kept = true := by
    rw [← valid_append front kept accepted, split]
    exact trimInvalid_valid _
  have whole : front ++ trimInvalid rest <+: trimInvalid (front ++ rest) := by
    refine trimInvalid_longest _ ((List.prefix_append_right_inj _).2 (trimInvalid_front rest)) ?_
    rw [valid_append front _ accepted]
    exact trimInvalid_valid rest
  rw [← split, List.prefix_append_right_inj] at whole
  rw [← split, whole.eq_of_length_le (trimInvalid_longest rest inside fine).length_le]

end ProvenanceRunner.Utf8
