import ProvenanceRunner.Library.Numerals

/-! # Internet addresses

Addresses of both families, networks given by an address and a number of leading bits, the classes
of addresses, and the text of an address as the host language writes it: four decimal fields, or
eight hexadecimal groups of which the first longest run of at least two zeros is left out. The text
determines every address of a family on its own (`text_injective`). -/

namespace ProvenanceRunner.Addresses

open Utf8 Numerals

/-- The zero value is no address. A link-local address may name its zone. -/
inductive Addr where
  | invalid
  | v4 (value : BitVec 32)
  | v6 (value : BitVec 128) (zone : Bytes)
deriving DecidableEq, Repr

namespace Addr

def isValid (addr : Addr) : Bool := !(addr matches .invalid)

/-- Mapped addresses count as addresses of the second family. -/
def is6 (addr : Addr) : Bool := addr matches .v6 _ _

def zone : Addr → Bytes
  | .v6 _ zone => zone
  | _ => []

/-- An address of the first family in the form of the second. -/
def is4In6 : Addr → Bool
  | .v6 value _ => value.toNat >>> 32 == 0xFFFF
  | _ => false

end Addr

/-! ## Networks -/

/-- The addresses that share their leading bits with the given one. -/
structure Network where
  address : Addr
  bits : Nat
deriving DecidableEq, Repr

namespace Network

def isValid (network : Network) : Bool :=
  match network.address with
  | .invalid => false
  | .v4 _ => decide (network.bits ≤ 32)
  | .v6 _ zone => decide (network.bits ≤ 128) && zone.isEmpty

/-- The leading bits of a word. -/
def leading {width : Nat} (value : BitVec width) (bits : Nat) : Nat :=
  value.toNat >>> (width - bits)

/-- Nothing but the leading bits is set. -/
def isMasked (network : Network) : Bool :=
  match network.address with
  | .invalid => true
  | .v4 value => leading value network.bits <<< (32 - network.bits) == value.toNat
  | .v6 value _ => leading value network.bits <<< (128 - network.bits) == value.toNat

def contains (network : Network) (addr : Addr) : Bool :=
  network.isValid && match network.address, addr with
    | .v4 base, .v4 value => leading base network.bits == leading value network.bits
    | .v6 base _, .v6 value zone => zone.isEmpty &&
        leading base network.bits == leading value network.bits
    | _, _ => false

end Network

/-- A network of the first family. -/
def network4 (a b c d bits : Nat) : Network :=
  ⟨.v4 (BitVec.ofNat 32 (((a * 256 + b) * 256 + c) * 256 + d)), bits⟩

/-- A network of the second family, by the first three groups of its address. -/
def network6 (a b c bits : Nat) : Network :=
  ⟨.v6 (BitVec.ofNat 128 (((a * 65536 + b) * 65536 + c) * 2 ^ 80)) [], bits⟩

/-! ## Classes -/

namespace Addr

def isLoopback : Addr → Bool
  | .invalid => false
  | .v4 value => value.toNat >>> 24 == 127
  | .v6 value _ => value.toNat == 1

def isMulticast : Addr → Bool
  | .invalid => false
  | .v4 value => value.toNat >>> 28 == 0xE
  | .v6 value _ => value.toNat >>> 120 == 0xFF

def isLinkLocalUnicast : Addr → Bool
  | .invalid => false
  | .v4 value => value.toNat >>> 16 == 169 * 256 + 254
  | .v6 value _ => value.toNat >>> 118 == 0xFE80 >>> 6

def isUnspecified : Addr → Bool
  | .invalid => false
  | .v4 value => value.toNat == 0
  | .v6 value zone => value.toNat == 0 && zone.isEmpty

/-- Private addresses count as global ones. -/
def isGlobalUnicast (addr : Addr) : Bool :=
  addr.isValid && addr != .v4 0 && addr != .v4 0xFFFFFFFF && !addr.isUnspecified &&
    !addr.isLoopback && !addr.isMulticast && !addr.isLinkLocalUnicast

def isPrivate : Addr → Bool
  | .invalid => false
  | .v4 value => value.toNat >>> 24 == 10 || value.toNat >>> 20 == 172 * 16 + 1 ||
      value.toNat >>> 16 == 192 * 256 + 168
  | .v6 value _ => value.toNat >>> 121 == 0xFC >>> 1

/-! ## Order -/

/-- The first family comes first; then values, then zones. -/
def key : Addr → Nat × Nat × Bytes
  | .invalid => (0, 0, [])
  | .v4 value => (32, value.toNat, [])
  | .v6 value zone => (128, value.toNat, zone)

def before (first second : Addr) : Bool :=
  decide (first.key.1 < second.key.1) ||
    (first.key.1 == second.key.1 && (decide (first.key.2.1 < second.key.2.1) ||
      (first.key.2.1 == second.key.2.1 && decide (first.key.2.2 < second.key.2.2))))

end Addr

/-! ## Texts -/

def dot : UInt8 := 0x2E
def colon : UInt8 := 0x3A

/-- The four bytes of an address of the first family. -/
def fields4 (value : BitVec 32) : List Nat :=
  [value.toNat >>> 24, value.toNat >>> 16 % 256, value.toNat >>> 8 % 256, value.toNat % 256]

def text4 (value : BitVec 32) : Bytes := [dot].intercalate ((fields4 value).map decimal)

/-- The eight groups of an address of the second family. -/
def groups6 (value : BitVec 128) : List Nat :=
  (List.range 8).map fun place => value.toNat >>> (16 * (7 - place)) % 65536

/-- The length of the run of zeros that starts at a place. -/
def zerosAt (groups : List Nat) (place : Nat) : Nat :=
  ((groups.drop place).takeWhile (· == 0)).length

/-- The place and the length of the first longest run of at least two zeros. -/
def zeroRun (groups : List Nat) : Option (Nat × Nat) :=
  (List.range 8).foldl (fun best place =>
    if 2 ≤ zerosAt groups place ∧ (best.map (·.2)).getD 0 < zerosAt groups place then
      some (place, zerosAt groups place)
    else best) none

def joinGroups (groups : List Nat) : Bytes := [colon].intercalate (groups.map (numeral 16))

def textGroups (groups : List Nat) : Bytes :=
  match zeroRun groups with
  | none => joinGroups groups
  | some (start, length) =>
    joinGroups (groups.take start) ++ [colon, colon] ++ joinGroups (groups.drop (start + length))

def text : Addr → Bytes
  | .invalid => encode "invalid IP"
  | .v4 value => text4 value
  | .v6 value zone =>
    (if Addr.is4In6 (.v6 value zone) then encode "::ffff:" ++ text4 (value.setWidth 32)
      else textGroups (groups6 value)) ++
    if zone.isEmpty then [] else encode "%" ++ zone

/-! ## The text determines the address -/

theorem not_mem_numeral {mark : UInt8} (outside : isLowerHex mark = false) (base value : Nat)
    (large : 2 ≤ base) (limited : base ≤ 16) : mark ∉ numeral base value := by
  intro member
  rw [isLowerHex_numeral base value large limited mark member] at outside
  cases outside

theorem map_injective_on {α β : Type} {write : α → β}
    (injective : ∀ {first second : α}, write first = write second → first = second)
    {first second : List α} (same : first.map write = second.map write) : first = second :=
  List.map_injective_iff.2 (fun _ _ written => injective written) same

theorem text4_injective {first second : BitVec 32} (same : text4 first = text4 second) :
    first = second := by
  have clean (value : BitVec 32) : ∀ field ∈ (fields4 value).map decimal, dot ∉ field := by
    intro field member
    obtain ⟨number, _, rfl⟩ := List.mem_map.1 member
    exact not_mem_numeral (by decide) 10 number (by decide) (by decide)
  have joined := intercalate_injective dot (clean first) (clean second) (by simp [fields4])
    (by simp [fields4]) same
  have fields : fields4 first = fields4 second := map_injective_on decimal_injective joined
  simp only [fields4, List.cons.injEq, Nat.shiftRight_eq_div_pow, and_true] at fields
  have bound := first.isLt
  have bound' := second.isLt
  apply BitVec.eq_of_toNat_eq
  omega

/-! Groups -/

variable (groups : List Nat)

theorem zeros_cut (place : Nat) :
    groups.take place ++ List.replicate (zerosAt groups place) 0 ++
      groups.drop (place + zerosAt groups place) = groups := by
  have zeros : (groups.drop place).takeWhile (· == 0) =
      List.replicate (zerosAt groups place) 0 := by
    refine List.eq_replicate_iff.2 ⟨rfl, fun group member => ?_⟩
    have zero := List.all_eq_true.1 (List.all_takeWhile (l := groups.drop place)) group member
    simpa using zero
  have rest : (groups.drop place).dropWhile (· == 0) =
      groups.drop (place + zerosAt groups place) := by
    rw [← List.drop_drop, zerosAt, drop_takeWhile_length]
  rw [← zeros, ← rest, List.append_assoc, List.takeWhile_append_dropWhile,
    List.take_append_drop]

theorem zeroRun_spec {start length : Nat} (found : zeroRun groups = some (start, length)) :
    length = zerosAt groups start ∧ 2 ≤ length := by
  refine List.foldlRecOn (motive := fun best => ∀ run : Nat × Nat, best = some run →
    run.2 = zerosAt groups run.1 ∧ 2 ≤ run.2) (List.range 8) _ (by simp) ?_
    (start, length) found
  intro best good place _ run taken
  split at taken
  · rename_i longer
    obtain rfl := Option.some.inj taken
    exact ⟨rfl, longer.1⟩
  · exact good run taken

/-- The fields of a part of the groups; no groups show as one empty field. -/
def shown (groups : List Nat) : List Bytes :=
  if groups.isEmpty then [[]] else groups.map (numeral 16)

/-- The fields between the colons of a text. -/
def fields6 (groups : List Nat) : List Bytes :=
  match zeroRun groups with
  | none => groups.map (numeral 16)
  | some (start, length) =>
    shown (groups.take start) ++ ([[]] ++ shown (groups.drop (start + length)))

theorem shown_ne_nil : shown groups ≠ [] := by
  cases groups <;> simp [shown]

theorem joinGroups_shown :
    [colon].intercalate (shown groups) = joinGroups groups := by
  cases groups <;> simp [shown, joinGroups]

theorem textGroups_fields :
    textGroups groups = [colon].intercalate (fields6 groups) := by
  unfold textGroups fields6
  cases found : zeroRun groups with
  | none => rfl
  | some run =>
    obtain ⟨_, _⟩ := run
    dsimp only
    rw [intercalate_append [colon] (shown_ne_nil _) (by simp),
      intercalate_append [colon] (by simp) (shown_ne_nil _), joinGroups_shown, joinGroups_shown]
    simp

theorem shown_clean : ∀ field ∈ shown groups, colon ∉ field := by
  intro field member
  unfold shown at member
  split at member
  · simp [List.mem_singleton.1 member]
  · obtain ⟨group, _, rfl⟩ := List.mem_map.1 member
    exact not_mem_numeral (by decide) 16 group (by decide) (by decide)

theorem fields6_clean : ∀ field ∈ fields6 groups, colon ∉ field := by
  intro field member
  unfold fields6 at member
  split at member
  · obtain ⟨group, _, rfl⟩ := List.mem_map.1 member
    exact not_mem_numeral (by decide) 16 group (by decide) (by decide)
  rcases List.mem_append.1 member with left | rest
  · exact shown_clean _ field left
  · rcases List.mem_append.1 rest with gap | right
    · simp [List.mem_singleton.1 gap]
    · exact shown_clean _ field right

/-- The groups in front of the gap are the fields before the first empty one. -/
theorem takeWhile_shown (rest : List Bytes) :
    (shown groups ++ ([[]] ++ rest)).takeWhile (fun field => !field.isEmpty) =
      groups.map (numeral 16) := by
  cases groups with
  | nil => simp [shown]
  | cons group others =>
    have filled : ∀ field ∈ (group :: others).map (numeral 16),
        (fun field : Bytes => !field.isEmpty) field = true := by
      intro field member
      obtain ⟨_, _, rfl⟩ := List.mem_map.1 member
      simp [numeral_ne_nil]
    rw [show shown (group :: others) = (group :: others).map (numeral 16) from rfl,
      List.takeWhile_append_of_pos filled]
    simp

theorem shown_reverse : (shown groups).reverse = shown groups.reverse := by
  cases groups with
  | nil => rfl
  | cons => simp [shown]

/-- Eight groups are determined by their text. -/
theorem textGroups_injective {first second : List Nat} (width : first.length = second.length)
    (nonempty : first ≠ []) (same : textGroups first = textGroups second) : first = second := by
  have nonempty' : second ≠ [] := by
    intro empty
    simp [empty] at width
    exact nonempty width
  have filled (groups : List Nat) (some : groups ≠ []) : fields6 groups ≠ [] := by
    unfold fields6
    split
    · simpa using some
    · simp
  rw [textGroups_fields, textGroups_fields] at same
  have fields := intercalate_injective colon (fields6_clean first) (fields6_clean second)
    (filled first nonempty) (filled second nonempty') same
  have plain (groups : List Nat) : [] ∉ groups.map (numeral 16) := by
    intro member
    obtain ⟨number, _, empty⟩ := List.mem_map.1 member
    exact numeral_ne_nil 16 number empty
  have hexadecimal {left right : List Nat}
      (written : left.map (numeral 16) = right.map (numeral 16)) : left = right :=
    map_injective_on (numeral_injective 16 (by decide) (by decide)) written
  unfold fields6 at fields
  cases found : zeroRun first with
  | none =>
    cases found' : zeroRun second with
    | none =>
      rw [found, found'] at fields
      exact hexadecimal fields
    | some =>
      rw [found, found'] at fields
      have member : [] ∈ first.map (numeral 16) := by
        rw [show first.map (numeral 16) = _ from fields]
        simp
      exact absurd member (plain first)
  | some run =>
    cases found' : zeroRun second with
    | none =>
      rw [found, found'] at fields
      have member : [] ∈ second.map (numeral 16) := by
        rw [show second.map (numeral 16) = _ from fields.symm]
        simp
      exact absurd member (plain second)
    | some run' =>
      obtain ⟨start, length⟩ := run
      obtain ⟨start', length'⟩ := run'
      rw [found, found'] at fields
      dsimp only at fields
      have front : first.take start = second.take start' := by
        refine hexadecimal ?_
        rw [← takeWhile_shown (first.take start), fields, takeWhile_shown]
      have back : first.drop (start + length) = second.drop (start' + length') := by
        have reversed := congrArg List.reverse fields
        simp only [List.reverse_append, shown_reverse, List.append_assoc] at reversed
        have ends := congrArg (List.takeWhile fun field => !field.isEmpty) reversed
        rw [show ([[]] : List Bytes).reverse = [[]] from rfl, takeWhile_shown,
          takeWhile_shown] at ends
        exact List.reverse_injective (hexadecimal ends)
      obtain ⟨rfl, _⟩ := zeroRun_spec first found
      obtain ⟨rfl, _⟩ := zeroRun_spec second found'
      have cut := zeros_cut first start
      have cut' := zeros_cut second start'
      have lengths := congrArg List.length cut
      have lengths' := congrArg List.length cut'
      rw [front, back] at cut lengths
      simp only [List.length_append, List.length_replicate] at lengths lengths'
      have zeros : zerosAt first start = zerosAt second start' := by omega
      rw [zeros, cut'] at cut
      exact cut.symm

theorem groups6_injective {first second : BitVec 128} (same : groups6 first = groups6 second) :
    first = second := by
  simp only [groups6, List.range_succ, List.range_zero, List.nil_append, List.cons_append,
    List.map_cons, List.map_nil, List.cons.injEq, Nat.shiftRight_eq_div_pow, and_true,
    Nat.reduceSub, Nat.reduceMul, Nat.reducePow, Nat.div_one] at same
  have bound := first.isLt
  have bound' := second.isLt
  apply BitVec.eq_of_toNat_eq
  omega

/-- An address that is written without a zone and not as a mapped one. -/
def Addr.isPlain (addr : Addr) : Bool := addr.isValid && !addr.is4In6 && addr.zone.isEmpty

theorem colon_not_text4 (value : BitVec 32) : colon ∉ text4 value := by
  intro member
  simp only [text4, fields4, List.map_cons, List.map_nil, List.intercalate_cons_cons,
    List.intercalate_singleton, List.mem_append, List.mem_singleton] at member
  have clean (number : Nat) : colon ∉ decimal number :=
    not_mem_numeral (by decide) 10 number (by decide) (by decide)
  have apart : colon ≠ dot := by decide
  simp only [clean, apart, or_self] at member

theorem colon_mem_textGroups (several : 2 ≤ groups.length) :
    colon ∈ textGroups groups := by
  unfold textGroups
  split
  · obtain ⟨first, second, rest, rfl⟩ : ∃ first second rest, groups = first :: second :: rest := by
      match groups, several with
      | first :: second :: rest, _ => exact ⟨first, second, rest, rfl⟩
    simp [joinGroups, List.intercalate_cons_cons]
  · simp

theorem text_v6 {value : BitVec 128} {zone : Bytes} (plain : (Addr.v6 value zone).isPlain = true) :
    zone = [] ∧ text (.v6 value zone) = textGroups (groups6 value) := by
  simp only [Addr.isPlain, Addr.zone, Bool.and_eq_true, Bool.not_eq_true', List.isEmpty_iff]
    at plain
  obtain ⟨⟨_, unmapped⟩, rfl⟩ := plain
  simp [text, unmapped]

/-- The text of a plain address determines it. -/
theorem text_injective {first second : Addr} (plain : first.isPlain = true)
    (plain' : second.isPlain = true) (same : text first = text second) : first = second := by
  have several (value : BitVec 128) : (groups6 value).length = 8 := by simp [groups6]
  cases first with
  | invalid => simp [Addr.isPlain, Addr.isValid] at plain
  | v4 value =>
    cases second with
    | invalid => simp [Addr.isPlain, Addr.isValid] at plain'
    | v4 => rw [text4_injective same]
    | v6 value' zone' =>
      rw [(text_v6 plain').2] at same
      have member := colon_mem_textGroups (groups6 value') (by simp [several])
      rw [← same] at member
      exact absurd member (colon_not_text4 value)
  | v6 value zone =>
    obtain ⟨rfl, shown⟩ := text_v6 plain
    rw [shown] at same
    cases second with
    | invalid => simp [Addr.isPlain, Addr.isValid] at plain'
    | v4 value' =>
      have member := colon_mem_textGroups (groups6 value) (by simp [several])
      rw [same] at member
      exact absurd member (colon_not_text4 value')
    | v6 value' zone' =>
      obtain ⟨rfl, shown'⟩ := text_v6 plain'
      rw [shown'] at same
      have groups := textGroups_injective (by simp [several])
        (List.ne_nil_of_length_pos (by simp [several])) same
      rw [groups6_injective groups]

/-! ## The bytes of a text -/

/-- Digits, dots and colons. -/
def isAddressByte (byte : UInt8) : Bool := isLowerHex byte || byte == dot || byte == colon

theorem isAddressByte_numeral (base value : Nat) (large : 2 ≤ base) (limited : base ≤ 16) :
    ∀ byte ∈ numeral base value, isAddressByte byte = true := by
  intro byte member
  simp [isAddressByte, isLowerHex_numeral base value large limited byte member]

theorem joined_bytes {mark : UInt8} (isMark : isAddressByte mark = true) (base : Nat)
    (large : 2 ≤ base) (limited : base ≤ 16) (numbers : List Nat) :
    ∀ byte ∈ [mark].intercalate (numbers.map (numeral base)), isAddressByte byte = true := by
  intro byte member
  rcases mem_intercalate member with rfl | ⟨_, found, inside⟩
  · exact isMark
  · obtain ⟨number, _, rfl⟩ := List.mem_map.1 found
    exact isAddressByte_numeral base number large limited byte inside

theorem text4_bytes (value : BitVec 32) : ∀ byte ∈ text4 value, isAddressByte byte = true :=
  joined_bytes (by decide) 10 (by decide) (by decide) (fields4 value)

theorem joinGroups_bytes :
    ∀ byte ∈ joinGroups groups, isAddressByte byte = true :=
  joined_bytes (by decide) 16 (by decide) (by decide) groups

theorem textGroups_bytes :
    ∀ byte ∈ textGroups groups, isAddressByte byte = true := by
  intro byte member
  unfold textGroups at member
  split at member
  · exact joinGroups_bytes groups byte member
  rcases List.mem_append.1 member with front | back
  · rcases List.mem_append.1 front with front | gap
    · exact joinGroups_bytes _ byte front
    · obtain rfl : byte = colon := by simpa using gap
      decide
  · exact joinGroups_bytes _ byte back

/-- A plain address is written with digits, dots and colons. -/
theorem text_bytes {addr : Addr} (plain : addr.isPlain = true) :
    ∀ byte ∈ text addr, isAddressByte byte = true := by
  cases addr with
  | invalid => simp [Addr.isPlain, Addr.isValid] at plain
  | v4 value => exact text4_bytes value
  | v6 value zone =>
    rw [(text_v6 plain).2]
    exact textGroups_bytes (groups6 value)

end ProvenanceRunner.Addresses
