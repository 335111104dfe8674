import Mathlib.Algebra.Group.Int.Defs
import Mathlib.Data.List.Nodup
import ProvenanceRunner.Network.Authority

/-! # Updates of an authority

An update carries a reconciliation to the root supervisor: a fixed header with the negotiated
features and the expiry of the credential, followed by the reconciliation without its upload
capability. The decoder accepts only what the encoder writes. -/

namespace ProvenanceRunner.Network

open Utf8 Numerals
open Gateway (nanosecondsPerSecond unixEra)

/-- The wire library for reconciliations. -/
structure UpdateLibrary where
  size : LeaseReconciliation → Nat
  marshal : LeaseReconciliation → Option Bytes
  unmarshal : Bytes → Option LeaseReconciliation

/-- What the wire library documents. -/
structure UpdateLibrary.Lawful (library : UpdateLibrary) : Prop where
  sized : ∀ value raw, library.marshal value = some raw → library.size value = raw.length
  reads : ∀ value raw, library.marshal value = some raw → library.unmarshal raw = some value

def maximumAuthorityUpdateBytes : Nat := 16384

structure AuthorityUpdate where
  reconciliation : LeaseReconciliation
  features : List Int
  credentialExpiry : Int
deriving DecidableEq, Repr

/-- The reconciliation without the capability to upload. -/
def LeaseReconciliation.stripped (value : LeaseReconciliation) : LeaseReconciliation :=
  { value with
    completeLogUpload := value.completeLogUpload.map fun upload =>
      { upload with uri := [], expiresAt := none } }

def projectedReconciliation (library : UpdateLibrary) (value : Option LeaseReconciliation) :
    Option LeaseReconciliation :=
  match value with
  | none => none
  | some value =>
    if decide (maximumAuthorityUpdateBytes - 20 < library.size value) || !value.closed then none
    else some value.stripped

/-- One bit for every feature. -/
def featureBits (features : List Int) : Nat :=
  features.foldl (fun bits feature => bits ||| 2 ^ (feature - 1).toNat) 0

def bitFeatures (bits : Nat) : List Int :=
  ((List.range 10).filter bits.testBit).map fun (place : Nat) => (place : Int) + 1

/-- A signed number of 64 bits as an unsigned one, and back. -/
def toUnsigned (value : Int) : Nat := (value % 2 ^ 64).toNat

def toSigned (value : Nat) : Int := if value < 2 ^ 63 then value else (value : Int) - 2 ^ 64

def updateMagic : Bytes := [0x50, 0x56, 0x41, 0x31]

example : updateMagic = encode "PVA1" := by decide +kernel

def encodeAuthorityUpdate (library : UpdateLibrary) (reconciliation : Option LeaseReconciliation)
    (features : List Int) (credentialExpiry : Int) : Option Bytes :=
  if authorityFeatures features ≠ some true ∨ credentialExpiry = 0 ∨
      validInstant credentialExpiry = false then none
  else (projectedReconciliation library reconciliation).bind fun value =>
    (library.marshal value).bind fun raw =>
      if raw.isEmpty || decide (maximumAuthorityUpdateBytes - 20 < raw.length) then none
      else some (updateMagic ++ bigEndian 2 (featureBits features) ++ [0, 0] ++
        bigEndian 8 (toUnsigned (unixSeconds credentialExpiry)) ++
        bigEndian 4 (credentialExpiry % nanosecondsPerSecond).toNat ++ raw)

/-- The fields of the header: feature bits, seconds and nanoseconds. -/
def readHeader (raw : Bytes) : Option (Nat × Int × Nat) :=
  if raw.length ≤ 20 ∨ maximumAuthorityUpdateBytes < raw.length ∨ raw.take 4 ≠ updateMagic ∨
      (raw.drop 6).take 2 ≠ [0, 0] then none
  else
    let bits := readBigEndian ((raw.drop 4).take 2)
    let nanos := readBigEndian ((raw.drop 16).take 4)
    if bits / 2 ^ 10 ≠ 0 ∨ nanosecondsPerSecond ≤ nanos then none
    else some (bits, toSigned (readBigEndian ((raw.drop 8).take 8)), nanos)

def decodeAuthorityUpdate (library : UpdateLibrary) (raw : Bytes) : Option AuthorityUpdate :=
  match readHeader raw, library.unmarshal (raw.drop 20) with
  | some (bits, seconds, nanos), some value =>
    let features := bitFeatures bits
    let expiry := (seconds + unixEra) * nanosecondsPerSecond + nanos
    if projectedReconciliation library (some value) ≠ some value ∨
        encodeAuthorityUpdate library (some value) features expiry ≠ some raw then none
    else some ⟨value, features, expiry⟩
  | _, _ => none

/-! ## Features -/

theorem testBit_fold (features : List Int) (bits place : Nat) :
    (features.foldl (fun bits feature => bits ||| 2 ^ (feature - 1).toNat) bits).testBit place =
      (bits.testBit place || features.any fun feature => (feature - 1).toNat == place) := by
  induction features generalizing bits with
  | nil => simp
  | cons feature rest step =>
    rw [List.foldl_cons, step, Nat.testBit_or, Nat.testBit_two_pow, List.any_cons, Bool.or_assoc]
    congr 1

theorem testBit_featureBits (features : List Int) (positive : ∀ feature ∈ features, 1 ≤ feature)
    (place : Nat) : (featureBits features).testBit place = true ↔ (place : Int) + 1 ∈ features := by
  unfold featureBits
  rw [testBit_fold]
  simp only [Nat.zero_testBit, Bool.false_or, List.any_eq_true, beq_iff_eq]
  constructor
  · rintro ⟨feature, member, same⟩
    have large := positive feature member
    rwa [show (place : Int) + 1 = feature by omega]
  · intro member
    exact ⟨_, member, by omega⟩

theorem mem_bitFeatures (bits : Nat) (feature : Int) :
    feature ∈ bitFeatures bits ↔
      1 ≤ feature ∧ feature ≤ 10 ∧ bits.testBit (feature - 1).toNat = true := by
  unfold bitFeatures
  simp only [List.mem_map, List.mem_filter, List.mem_range]
  constructor
  · rintro ⟨place, ⟨small, set⟩, rfl⟩
    refine ⟨by omega, by omega, ?_⟩
    rwa [show ((place : Int) + 1 - 1).toNat = place by omega]
  · rintro ⟨large, small, set⟩
    exact ⟨(feature - 1).toNat, ⟨by omega, set⟩, by omega⟩

variable {features : List Int} {negotiated : Bool}

theorem authorityFeatures_bounded (known : authorityFeatures features = some negotiated) :
    ∀ feature ∈ features, 1 ≤ feature ∧ feature ≤ 10 := by
  unfold authorityFeatures at known
  split at known
  · simp at known
  next valid =>
  simp only [Bool.or_eq_true, Bool.not_eq_true', not_or, Bool.not_eq_false] at valid
  have bounds := valid.1
  simp only [List.all_eq_true, Bool.and_eq_true, decide_eq_true_eq] at bounds
  exact bounds

/-- The features of the bits are the negotiated ones, in order. -/
theorem bitFeatures_featureBits (known : authorityFeatures features = some negotiated)
    (feature : Int) :
    feature ∈ bitFeatures (featureBits features) ↔ feature ∈ features := by
  have bounds := authorityFeatures_bounded known
  rw [mem_bitFeatures,
    testBit_featureBits features (fun feature member => (bounds feature member).1)]
  constructor
  · rintro ⟨large, small, member⟩
    rwa [show (((feature - 1).toNat : Nat) : Int) + 1 = feature by omega] at member
  · intro member
    obtain ⟨large, small⟩ := bounds feature member
    exact ⟨large, small, by rwa [show (((feature - 1).toNat : Nat) : Int) + 1 = feature by omega]⟩

theorem bitFeatures_nodup (bits : Nat) : (bitFeatures bits).Nodup := by
  unfold bitFeatures
  apply List.Nodup.map
  · intro first second same
    have : (first : Int) + 1 = second + 1 := same
    omega
  · exact List.Nodup.sublist List.filter_sublist List.nodup_range

section

variable (known : authorityFeatures features = some negotiated)
include known

/-- The order of the features does not matter. -/
theorem authorityFeatures_bits :
    authorityFeatures (bitFeatures (featureBits features)) = some negotiated := by
  have same (feature : Int) : (bitFeatures (featureBits features)).contains feature =
      features.contains feature := by
    rw [Bool.eq_iff_iff, List.contains_iff_mem, List.contains_iff_mem]
    exact bitFeatures_featureBits known feature
  have bounds : (bitFeatures (featureBits features)).all
      (fun feature => decide (1 ≤ feature) && decide (feature ≤ 10)) = true := by
    simp only [List.all_eq_true, Bool.and_eq_true, decide_eq_true_eq]
    intro feature member
    obtain ⟨large, small, _⟩ := (mem_bitFeatures _ _).1 member
    exact ⟨large, small⟩
  unfold authorityFeatures at known ⊢
  rw [bounds, decide_eq_true (bitFeatures_nodup _), same, same, same, same]
  split at known
  · simp at known
  · exact known

theorem featureBits_bitFeatures :
    featureBits (bitFeatures (featureBits features)) = featureBits features := by
  have bounds := authorityFeatures_bounded known
  apply Nat.eq_of_testBit_eq
  intro place
  rw [Bool.eq_iff_iff,
    testBit_featureBits _ (fun feature member => ((mem_bitFeatures _ _).1 member).1),
    testBit_featureBits features (fun feature member => (bounds feature member).1),
    bitFeatures_featureBits known]

theorem featureBits_lt : featureBits features < 2 ^ 10 := by
  have bounds := authorityFeatures_bounded known
  apply Nat.lt_pow_two_of_testBit
  intro place large
  rw [← Bool.not_eq_true,
    testBit_featureBits features (fun feature member => (bounds feature member).1)]
  intro member
  have := (bounds _ member).2
  omega

end

/-! ## Round trip -/

/-- Seconds of an instant that a timestamp can hold. -/
theorem validInstant_bounds {time : Int} (valid : validInstant time = true) :
    -62135596800 ≤ unixSeconds time ∧ unixSeconds time ≤ 253402300799 := by
  simp only [validInstant, Timestamp.checkValid, Timestamp.ofTime, Bool.and_eq_true] at valid
  exact ⟨of_decide_eq_true valid.1.1.1, of_decide_eq_true valid.1.1.2⟩

theorem toSigned_toUnsigned (value : Int) (low : -2 ^ 63 ≤ value) (high : value < 2 ^ 63) :
    toSigned (toUnsigned value) = value ∧ toUnsigned value < 256 ^ 8 := by
  unfold toSigned toUnsigned
  constructor
  · split <;> omega
  · omega

theorem instant_parts (time : Int) :
    (unixSeconds time + unixEra) * nanosecondsPerSecond +
      ((time % nanosecondsPerSecond).toNat : Int) = time := by
  simp only [unixSeconds, nanosecondsPerSecond]
  omega

theorem stripped_stripped (value : LeaseReconciliation) :
    value.stripped.stripped = value.stripped := by
  cases upload : value.completeLogUpload <;> simp [LeaseReconciliation.stripped, upload]

theorem stripped_closed {value : LeaseReconciliation} (closed : value.closed = true) :
    value.stripped.closed = true := by
  cases upload : value.completeLogUpload with
  | none => simpa [LeaseReconciliation.closed, LeaseReconciliation.stripped, upload] using closed
  | some =>
    simp only [LeaseReconciliation.closed, upload, Option.all_some, CompleteLogUpload.closed,
      Bool.and_eq_true] at closed
    simp only [LeaseReconciliation.closed, LeaseReconciliation.stripped, upload, Option.map_some,
      Option.all_some, CompleteLogUpload.closed, Option.all_none, Bool.and_eq_true, and_true]
    exact ⟨⟨closed.1.1, closed.1.2.1⟩, closed.2⟩

/-- What an encoded update consists of. -/
theorem encodeAuthorityUpdate_some {library : UpdateLibrary}
    {reconciliation : Option LeaseReconciliation} {credentialExpiry : Int}
    {raw : Bytes}
    (encoded : encodeAuthorityUpdate library reconciliation features credentialExpiry = some raw) :
    authorityFeatures features = some true ∧ credentialExpiry ≠ 0 ∧
      validInstant credentialExpiry = true ∧
      ∃ value payload, reconciliation = some value ∧ value.closed = true ∧
        library.marshal value.stripped = some payload ∧ payload ≠ [] ∧
        payload.length ≤ maximumAuthorityUpdateBytes - 20 ∧
        raw = updateMagic ++ bigEndian 2 (featureBits features) ++ [0, 0] ++
          bigEndian 8 (toUnsigned (unixSeconds credentialExpiry)) ++
          bigEndian 4 (credentialExpiry % nanosecondsPerSecond).toNat ++ payload := by
  unfold encodeAuthorityUpdate at encoded
  split at encoded
  · simp at encoded
  next admitted =>
  simp only [not_or, not_not, Bool.not_eq_false] at admitted
  refine ⟨admitted.1, admitted.2.1, admitted.2.2, ?_⟩
  obtain ⟨_, project, rest⟩ := Option.bind_eq_some_iff.1 encoded
  obtain ⟨payload, marshalled, written⟩ := Option.bind_eq_some_iff.1 rest
  cases reconciliation with
  | none => simp [projectedReconciliation] at project
  | some value =>
    simp only [projectedReconciliation] at project
    split at project
    · simp at project
    next fits =>
    simp only [Bool.or_eq_true, not_or, Bool.not_eq_true', Bool.not_eq_false] at fits
    simp only [Option.some.injEq] at project
    subst project
    split at written
    · simp at written
    next bounded =>
    simp only [Bool.or_eq_true, List.isEmpty_iff, decide_eq_true_eq, not_or, Nat.not_lt] at bounded
    exact ⟨value, payload, rfl, fits.2, marshalled, bounded.1, bounded.2,
      (Option.some.inj written).symm⟩

/-- A field between what stands before and after it. -/
theorem slice (front field rest : Bytes) (offset width : Nat) (before : front.length = offset)
    (wide : field.length = width) :
    ((front ++ (field ++ rest)).drop offset).take width = field := by
  subst before wide
  simp

/-- The fields of a header that was written. -/
theorem readHeader_written (bits seconds nanos : Nat) (payload : Bytes) (low : bits < 2 ^ 10)
    (fits : seconds < 256 ^ 8) (fine : nanos < 1000000000) (nonempty : payload ≠ [])
    (bounded : payload.length ≤ maximumAuthorityUpdateBytes - 20) :
    readHeader (updateMagic ++ bigEndian 2 bits ++ [0, 0] ++ bigEndian 8 seconds ++
      bigEndian 4 nanos ++ payload) = some (bits, toSigned seconds, nanos) := by
  have positive := List.length_pos_iff.2 nonempty
  have small : maximumAuthorityUpdateBytes = 16384 := rfl
  have magic : updateMagic.length = 4 := rfl
  have first := slice updateMagic (bigEndian 2 bits)
    ([0, 0] ++ (bigEndian 8 seconds ++ (bigEndian 4 nanos ++ payload))) 4 2 rfl (by simp)
  have second := slice (updateMagic ++ bigEndian 2 bits) [0, 0]
    (bigEndian 8 seconds ++ (bigEndian 4 nanos ++ payload)) 6 2 (by simp [magic]) rfl
  have third := slice (updateMagic ++ bigEndian 2 bits ++ [0, 0]) (bigEndian 8 seconds)
    (bigEndian 4 nanos ++ payload) 8 8 (by simp [magic]) (by simp)
  have fourth := slice (updateMagic ++ bigEndian 2 bits ++ [0, 0] ++ bigEndian 8 seconds)
    (bigEndian 4 nanos) payload 16 4 (by simp [magic]) (by simp)
  have start := slice [] updateMagic (bigEndian 2 bits ++
    ([0, 0] ++ (bigEndian 8 seconds ++ (bigEndian 4 nanos ++ payload)))) 0 4 rfl rfl
  simp only [List.append_assoc, List.nil_append, List.drop_zero] at first second third fourth start
  unfold readHeader
  simp only [List.append_assoc, List.length_append, bigEndian_length, magic, List.length_cons,
    List.length_nil, first, second, third, fourth, start]
  rw [readBigEndian_bigEndian 2 bits (by omega), readBigEndian_bigEndian 8 seconds fits,
    readBigEndian_bigEndian 4 nanos (by omega)]
  have width : nanosecondsPerSecond = 1000000000 := rfl
  rw [if_neg (by simp only [ne_eq, not_true_eq_false, or_false]; omega),
    if_neg (by rw [width]; omega)]

theorem drop_header (bits seconds nanos : Nat) (payload : Bytes) :
    (updateMagic ++ bigEndian 2 bits ++ [0, 0] ++ bigEndian 8 seconds ++ bigEndian 4 nanos ++
      payload).drop 20 = payload := by
  have width : (updateMagic ++ bigEndian 2 bits ++ [0, 0] ++ bigEndian 8 seconds ++
      bigEndian 4 nanos).length = 20 := by
    simp [updateMagic]
  rw [List.drop_left' width]

/-- An update that was encoded is decoded, with its features in order and without the upload
capability. -/
theorem decode_encode (library : UpdateLibrary) (lawful : library.Lawful)
    (value : LeaseReconciliation) (features : List Int) (credentialExpiry : Int) (raw : Bytes)
    (encoded : encodeAuthorityUpdate library (some value) features credentialExpiry = some raw) :
    decodeAuthorityUpdate library raw =
      some ⟨value.stripped, bitFeatures (featureBits features), credentialExpiry⟩ := by
  obtain ⟨known, nonzero, valid, same, payload, present, closed, marshalled, nonempty, bounded,
    written⟩ := encodeAuthorityUpdate_some encoded
  obtain rfl : value = same := by simpa using present
  have bounds := validInstant_bounds valid
  obtain ⟨signed, fits⟩ := toSigned_toUnsigned (unixSeconds credentialExpiry) (by omega) (by omega)
  have fine : (credentialExpiry % nanosecondsPerSecond).toNat < 1000000000 := by
    simp only [nanosecondsPerSecond]
    omega
  have header := readHeader_written (featureBits features)
    (toUnsigned (unixSeconds credentialExpiry)) (credentialExpiry % nanosecondsPerSecond).toNat
    payload (featureBits_lt known) fits fine nonempty bounded
  -- The stripped reconciliation is its own projection and is encoded as before.
  have projected : projectedReconciliation library (some value.stripped) = some value.stripped := by
    simp only [projectedReconciliation]
    rw [if_neg, stripped_stripped]
    simp only [lawful.sized _ _ marshalled, stripped_closed closed, Bool.not_true, Bool.or_false,
      decide_eq_true_eq, Nat.not_lt]
    exact bounded
  have canonical : encodeAuthorityUpdate library (some value.stripped)
      (bitFeatures (featureBits features)) credentialExpiry = some raw := by
    unfold encodeAuthorityUpdate
    rw [if_neg (by simp [authorityFeatures_bits known, nonzero, valid]), projected,
      Option.bind_some, marshalled, Option.bind_some, if_neg (by simp [nonempty]; omega),
      featureBits_bitFeatures known, written]
  unfold decodeAuthorityUpdate
  rw [written, header, drop_header, lawful.reads _ _ marshalled]
  dsimp only
  rw [signed, instant_parts, if_neg]
  rw [projected, ← written, canonical]
  simp

/-- What the decoder accepts is what the encoder writes for the value that it returns. -/
theorem encode_decode {library : UpdateLibrary} {raw : Bytes} {update : AuthorityUpdate}
    (decoded : decodeAuthorityUpdate library raw = some update) :
    encodeAuthorityUpdate library (some update.reconciliation) update.features
      update.credentialExpiry = some raw := by
  unfold decodeAuthorityUpdate at decoded
  split at decoded
  · dsimp only at decoded
    split at decoded
    · simp at decoded
    next accepted =>
    simp only [not_or, not_not] at accepted
    obtain rfl := Option.some.inj decoded
    exact accepted.2
  · simp at decoded

/-- The upload capability has lost its address and its expiry, and nothing else has changed. -/
structure WithoutCapability (value projected : LeaseReconciliation) : Prop where
  rest : { projected with completeLogUpload := value.completeLogUpload } = value
  absent : value.completeLogUpload = none → projected.completeLogUpload = none
  upload : ∀ upload, value.completeLogUpload = some upload →
    ∃ left, projected.completeLogUpload = some left ∧ left.uri = [] ∧ left.expiresAt = none ∧
      left.objectKey = upload.objectKey ∧ left.unknown = upload.unknown

theorem stripped_withoutCapability (value : LeaseReconciliation) :
    WithoutCapability value value.stripped where
  rest := rfl
  absent missing := by simp [LeaseReconciliation.stripped, missing]
  upload upload present := by simp [LeaseReconciliation.stripped, present]

/-- Every update that is encoded is decoded to the same instant, the same features and the
reconciliation without its upload capability, and every text that is decoded is the encoding of its
update, so that no two texts have the same one.

Proof: `decode_encode` and `encode_decode`. -/
theorem update_codec_exact (library : UpdateLibrary) (lawful : library.Lawful) :
    (∀ reconciliation features credentialExpiry raw,
      encodeAuthorityUpdate library reconciliation features credentialExpiry = some raw →
        ∃ value update, reconciliation = some value ∧
          decodeAuthorityUpdate library raw = some update ∧
          update.credentialExpiry = credentialExpiry ∧
          (∀ feature, feature ∈ update.features ↔ feature ∈ features) ∧
          WithoutCapability value update.reconciliation) ∧
    (∀ raw update, decodeAuthorityUpdate library raw = some update →
      encodeAuthorityUpdate library (some update.reconciliation) update.features
        update.credentialExpiry = some raw) ∧
    ∀ first second update, decodeAuthorityUpdate library first = some update →
      decodeAuthorityUpdate library second = some update → first = second := by
  refine ⟨?_, fun _ _ => encode_decode, ?_⟩
  · intro reconciliation features credentialExpiry raw encoded
    obtain ⟨known, _, _, value, _, rfl, _⟩ := encodeAuthorityUpdate_some encoded
    exact ⟨value, _, rfl, decode_encode library lawful value features credentialExpiry raw encoded,
      rfl, bitFeatures_featureBits known, stripped_withoutCapability value⟩
  · intro first second update one two
    exact Option.some.inj ((encode_decode one).symm.trans (encode_decode two))

/-- A wire library that knows one reconciliation. -/
def onlyLibrary (known : LeaseReconciliation) : UpdateLibrary where
  size _ := 1
  marshal value := if value = known then some [1] else none
  unmarshal raw := if raw = [1] then some known else none

theorem onlyLibrary_lawful (known : LeaseReconciliation) : (onlyLibrary known).Lawful := by
  constructor
  · intro value raw marshalled
    obtain ⟨_, ⟨⟩⟩ := Option.ite_none_right_eq_some.1 marshalled
    rfl
  · intro value raw marshalled
    obtain ⟨same, ⟨⟩⟩ := Option.ite_none_right_eq_some.1 marshalled
    simp [onlyLibrary, same]

def sampleLibrary : UpdateLibrary := onlyLibrary (sampleReconciliation 1000 1030)

/-- A reconciliation with an upload capability. -/
def uploading : LeaseReconciliation :=
  { sampleReconciliation 1000 1030 with
    completeLogUpload := some ⟨[1], [2], some (sampleTime 2000), []⟩ }

/-- A credential that expired before 1970 by half a second, and an upload that loses its address and
its expiry. -/
theorem update_codec_exact_early :
    ∃ raw update, encodeAuthorityUpdate (onlyLibrary uploading.stripped) (some uploading)
        [10, 9, 3, 1] (ofUnixSeconds (-1) + 500000000) = some raw ∧
      decodeAuthorityUpdate (onlyLibrary uploading.stripped) raw = some update ∧
      update.credentialExpiry = ofUnixSeconds (-1) + 500000000 ∧
      WithoutCapability uploading update.reconciliation ∧
      update.reconciliation.completeLogUpload = some ⟨[], [2], none, []⟩ := by
  have encodes : (encodeAuthorityUpdate (onlyLibrary uploading.stripped) (some uploading)
      [10, 9, 3, 1] (ofUnixSeconds (-1) + 500000000)).isSome = true := by decide +kernel
  obtain ⟨raw, encoded⟩ := Option.isSome_iff_exists.1 encodes
  obtain ⟨_, update, ⟨⟩, decoded, same, _, without⟩ :=
    (update_codec_exact _ (onlyLibrary_lawful uploading.stripped)).1 _ _ _ raw encoded
  obtain ⟨⟨_, _, _, _⟩, present, rfl, rfl, rfl, rfl⟩ := without.upload _ rfl
  exact ⟨raw, update, encoded, decoded, same, without, present⟩

end ProvenanceRunner.Network
