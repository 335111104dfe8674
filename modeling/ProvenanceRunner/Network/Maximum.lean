import Mathlib.Data.List.ReduceOption
import ProvenanceRunner.Library.Merging
import ProvenanceRunner.Network.Wire

/-! # The local maximum

A granted policy is compared with the maximum of the runner or of the job's configuration by one
walk through both lists of permissions. The comparison is the order on policies: permissions as a
set and both caps. -/

namespace ProvenanceRunner.Network

open Merging Utf8
open Std (TransCmp TransOrd ReflCmp LawfulOrderCmp)

/-- Validated permissions are all present. -/
def withinLocalMaximum (effective maximum : Option NetworkPolicy) : Bool :=
  match effective, maximum with
  | some granted, some limit =>
    if !validateWire effective || !validateWire maximum then false
    else if granted.mode == .none then true
    else if limit.mode == .none || decide (limit.maximumConnections < granted.maximumConnections) ||
        decide (limit.maximumBytesPerSecond < granted.maximumBytesPerSecond) then false
    else covers compareWirePermission limit.permissions.reduceOption
      granted.permissions.reduceOption
  | _, _ => false

instance : TransCmp compareWirePermission := by
  let : Ord Bytes := ⟨fun first second => compareOfLessAndEq first second⟩
  have : LawfulOrderCmp fun first second : Bytes => compareOfLessAndEq first second :=
    LawfulOrderCmp.compareOfLessAndEq Bytes
  have : TransOrd Bytes := inferInstance
  exact inferInstanceAs (TransCmp (compareLex (compareOn NetworkPermission.hostname)
    (compareLex (compareOn NetworkPermission.port)
      (compareOn fun permission : NetworkPermission => permission.transport.code))))

/-! ## Canonical permissions -/

theorem validPermissions_present {permissions : List (Option NetworkPermission)}
    (valid : validPermissions permissions = true) :
    ∃ present : List NetworkPermission, permissions = present.map some ∧
      (∀ permission ∈ present, validPermission permission = true) ∧
      present.Pairwise (compareWirePermission · · = .lt) := by
  induction permissions with
  | nil => exact ⟨[], rfl, by simp, .nil⟩
  | cons head rest ih =>
    cases head with
    | none => simp [validPermissions] at valid
    | some permission =>
      simp only [validPermissions, Bool.and_eq_true] at valid
      obtain ⟨⟨first, next⟩, others⟩ := valid
      obtain ⟨present, rfl, allValid, increasing⟩ := ih others
      refine ⟨permission :: present, rfl, List.forall_mem_cons.mpr ⟨first, allValid⟩,
        List.pairwise_cons.mpr ⟨?_, increasing⟩⟩
      cases present with
      | nil => simp
      | cons second =>
        have smaller : compareWirePermission permission second = .lt := by simpa using next
        refine List.forall_mem_cons.mpr ⟨smaller, fun later member => ?_⟩
        exact TransCmp.lt_trans smaller ((List.pairwise_cons.mp increasing).1 later member)

/-- Valid permissions that compare equal are the same: the two transports have different codes. -/
theorem compareWirePermission_eq_iff {first second : NetworkPermission}
    (one : validPermission first = true) (two : validPermission second = true) :
    compareWirePermission first second = .eq ↔ first = second := by
  refine ⟨fun same => ?_, fun same => same ▸ ReflCmp.compare_self⟩
  simp only [validPermission, Bool.and_eq_true, Bool.or_eq_true, beq_iff_eq,
    List.isEmpty_iff] at one two
  simp only [compareWirePermission, Ordering.then_eq_eq, compare_eq_iff_eq] at same
  obtain ⟨names, ports, codes⟩ := same
  have hosts : first.hostname = second.hostname := by
    by_contra other
    simp only [compareOfLessAndEq, other, if_false] at names
    split at names <;> cases names
  have transports : first.transport = second.transport := by
    rcases one.2 with tcp | udp <;> rcases two.2 with tcp' | udp' <;>
      simp_all [NetworkTransport.code]
  have unknowns : first.unknown = second.unknown := one.1.1.1.1.trans two.1.1.1.1.symm
  cases first
  cases second
  simp_all

/-- A canonical policy of another mode than `none` lists valid permissions in increasing order. -/
theorem validateWire_permissions {policy : NetworkPolicy}
    (valid : validateWire (some policy) = true)
    (used : policy.mode ≠ .none) : validPermissions policy.permissions = true := by
  simp only [validateWire, Bool.and_eq_true] at valid
  cases mode : policy.mode <;> simp_all

/-- The walk decides inclusion of the permissions of canonical policies. -/
theorem covers_permissions {granted limit : List (Option NetworkPermission)}
    (canonical : validPermissions granted = true) (canonical' : validPermissions limit = true) :
    covers compareWirePermission limit.reduceOption granted.reduceOption = true ↔
      granted ⊆ limit := by
  obtain ⟨_, rfl, valid, increasing⟩ := validPermissions_present canonical
  obtain ⟨_, rfl, valid', increasing'⟩ := validPermissions_present canonical'
  simp only [List.reduceOption, List.filterMap_map, Function.id_comp, List.filterMap_some]
  rw [covers_iff increasing' increasing]
  constructor
  · intro covered entry member
    obtain ⟨permission, among, rfl⟩ := List.mem_map.mp member
    obtain ⟨found, among', same⟩ := covered permission among
    rw [compareWirePermission_eq_iff (valid' found among') (valid permission among)] at same
    exact List.mem_map.mpr ⟨found, among', congrArg some same⟩
  · intro included permission member
    have among' := included (List.mem_map_of_mem member)
    exact ⟨permission, by simpa using among', ReflCmp.compare_self⟩

/-! ## The order -/

/-- What a granted policy may do, a maximum may do as well. -/
def NetworkPolicy.AtMost (granted limit : NetworkPolicy) : Prop :=
  granted.mode = .none ∨ limit.mode ≠ .none ∧
    granted.maximumConnections ≤ limit.maximumConnections ∧
    granted.maximumBytesPerSecond ≤ limit.maximumBytesPerSecond ∧
    granted.permissions ⊆ limit.permissions

theorem NetworkPolicy.AtMost.trans {first second third : NetworkPolicy}
    (lower : first.AtMost second) (upper : second.AtMost third) : first.AtMost third := by
  rcases lower with idle | ⟨used, connections, rate, included⟩
  · exact Or.inl idle
  · obtain ⟨used', connections', rate', included'⟩ := upper.resolve_left used
    exact Or.inr ⟨used', connections.trans connections', rate.trans rate',
      List.Subset.trans included included'⟩

theorem withinLocalMaximum_iff (effective maximum : Option NetworkPolicy) :
    withinLocalMaximum effective maximum = true ↔
      validateWire effective = true ∧ validateWire maximum = true ∧
        ∀ granted ∈ effective, ∀ limit ∈ maximum, granted.AtMost limit := by
  cases effective with
  | none => simp [withinLocalMaximum, validateWire]
  | some granted =>
    cases maximum with
    | none => simp [withinLocalMaximum, validateWire]
    | some limit =>
      by_cases canonical : validateWire (some granted) = true ∧ validateWire (some limit) = true
      · obtain ⟨valid, valid'⟩ := canonical
        by_cases idle : granted.mode = .none
        · simp [withinLocalMaximum, valid, valid', idle, NetworkPolicy.AtMost]
        by_cases idle' : limit.mode = .none
        · simp [withinLocalMaximum, valid, valid', idle, idle', NetworkPolicy.AtMost]
        have walk := covers_permissions (validateWire_permissions valid idle)
          (validateWire_permissions valid' idle')
        simp [withinLocalMaximum, valid, valid', idle, idle', NetworkPolicy.AtMost, walk, and_assoc]
      · simp only [withinLocalMaximum]
        grind

/-- The check of the local maximum is the order on canonical policies, which is reflexive and
transitive: a grant within the maximum of a configuration is within that of the runner when the
configuration's maximum is.

Proof: `withinLocalMaximum_iff`, whose right side is reflexive and transitive. -/
theorem local_maximum_exact :
    (∀ effective maximum : Option NetworkPolicy, withinLocalMaximum effective maximum = true ↔
      validateWire effective = true ∧ validateWire maximum = true ∧
        ∀ granted ∈ effective, ∀ limit ∈ maximum, granted.mode = .none ∨ limit.mode ≠ .none ∧
          granted.maximumConnections ≤ limit.maximumConnections ∧
          granted.maximumBytesPerSecond ≤ limit.maximumBytesPerSecond ∧
          granted.permissions ⊆ limit.permissions) ∧
    (∀ policy : Option NetworkPolicy, validateWire policy = true →
      withinLocalMaximum policy policy = true) ∧
    ∀ grant configured runner : Option NetworkPolicy, withinLocalMaximum grant configured = true →
      withinLocalMaximum configured runner = true → withinLocalMaximum grant runner = true := by
  refine ⟨withinLocalMaximum_iff, fun policy valid => ?_, fun grant configured runner => ?_⟩
  · rw [withinLocalMaximum_iff]
    refine ⟨valid, valid, fun granted here limit there => ?_⟩
    obtain rfl := Option.mem_unique here there
    by_cases idle : granted.mode = .none
    · exact Or.inl idle
    · exact Or.inr ⟨idle, le_rfl, le_rfl, List.Subset.refl _⟩
  · simp only [withinLocalMaximum_iff]
    rintro ⟨valid, canonical, lower⟩ ⟨_, valid', upper⟩
    refine ⟨valid, valid', fun granted here limit there => ?_⟩
    obtain ⟨middle, known⟩ : ∃ middle, configured = some middle := by
      cases configured with
      | none => simp [validateWire] at canonical
      | some middle => exact ⟨middle, rfl⟩
    exact (lower granted here middle known).trans (upper middle known limit there)

theorem local_maximum_exact_samples :
    let grant (hosts : List Bytes) (connections : Nat) : Option NetworkPolicy :=
      some ⟨.restricted, hosts.map fun host => some ⟨host, 443, .tcp, []⟩, connections, 1000, []⟩
    withinLocalMaximum (grant [encode "a.example"] 1)
      (grant [encode "a.example", encode "b.example", encode "c.example"] 3) = true := by
  intro grant
  exact local_maximum_exact.2.2 _ (grant [encode "a.example", encode "b.example"] 2) _
    (by decide +kernel) (by decide +kernel)

end ProvenanceRunner.Network
