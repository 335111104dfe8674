import Mathlib.Data.List.Nodup
import ProvenanceRunner.Network.Firewall

/-! # What a firewall program says

The elements of the sets are the pairs of an address of a binding with a permission of the same
binding. A refresh writes the same elements again and leaves the connections, the counters and the
byte bucket of the table as they are. The chains of the controlled name service accept questions of
the workload to the controller and the answers, and nothing else. -/

namespace ProvenanceRunner.Network

open Utf8 Addresses Numerals
open PacketFilter (Command Rule Statement Element Table Side Packet Load SetObject execute
  elementsText programText put put_other decision decision_cons_drop decision_cons_none
  decision_accepting execute_cons
  execute_append execute_addRules execute_addSets execute_deleteSets rulesOf rulesOf_append
  rulesOf_chain)
open Gateway (minute)

/-! ## The grants -/

/-- The grants hold the given elements, each once. -/
structure Holds (grants : Grants) (given : Element → Prop) : Prop where
  exact : ∀ family element, element ∈ grants.of family ↔
    PacketFilter.Family.of element.address = family ∧ given element
  nodup : ∀ family, (grants.of family).Nodup
  plain : ∀ element, given element → element.isPlain = true

theorem holds_none : Holds ⟨[], []⟩ fun _ => False where
  exact family element := by cases family <;> simp [Grants.of]
  nodup family := by cases family <;> simp [Grants.of]
  plain element given := given.elim

theorem mem_insertElement (element other : Element) (elements : List Element)
    (plain : element.isPlain = true) (plains : ∀ known ∈ elements, known.isPlain = true) :
    other ∈ insertElement element elements ↔ other ∈ elements ∨ other = element := by
  unfold insertElement
  split
  · next present =>
    obtain ⟨known, member, same⟩ := List.any_eq_true.1 present
    have equal := Element.text_injective (plains known member) plain (by simpa using same)
    constructor
    · exact Or.inl
    · rintro (inside | rfl)
      · exact inside
      · exact equal ▸ member
  · simp

theorem nodup_insertElement (element : Element) (elements : List Element)
    (nodup : elements.Nodup) : (insertElement element elements).Nodup := by
  unfold insertElement
  split
  · exact nodup
  next absent =>
  have fresh : element ∉ elements := by
    intro member
    exact absent (List.any_eq_true.2 ⟨element, member, by simp⟩)
  rw [← List.concat_eq_append]
  exact nodup.concat fresh

theorem Holds.add {grants : Grants} {given : Element → Prop} (holds : Holds grants given)
    (element : Element) (plain : element.isPlain = true) :
    Holds (grants.add element) fun other => given other ∨ other = element := by
  have plains (family : PacketFilter.Family) (known : Element) (member : known ∈ grants.of family) :
      known.isPlain = true :=
    holds.plain known ((holds.exact family known).1 member).2
  have into (family : PacketFilter.Family) : (grants.add element).of family =
      if PacketFilter.Family.of element.address = family then
        insertElement element (grants.of family)
      else grants.of family := by
    unfold Grants.add PacketFilter.Family.of
    by_cases six : element.address.is6 = true <;> cases family <;> simp [six, Grants.of]
  constructor
  · intro family other
    rw [into]
    by_cases here : PacketFilter.Family.of element.address = family
    · rw [if_pos here, mem_insertElement element other _ plain (plains family),
        holds.exact family other]
      constructor
      · rintro (⟨of, known⟩ | rfl)
        · exact ⟨of, Or.inl known⟩
        · exact ⟨here, Or.inr rfl⟩
      · rintro ⟨of, known | rfl⟩
        · exact Or.inl ⟨of, known⟩
        · exact Or.inr rfl
    · rw [if_neg here, holds.exact family other]
      constructor
      · rintro ⟨of, known⟩
        exact ⟨of, Or.inl known⟩
      · rintro ⟨of, known | rfl⟩
        · exact ⟨of, known⟩
        · exact absurd of here
  · intro family
    rw [into]
    split
    · exact nodup_insertElement element _ (holds.nodup family)
    · exact holds.nodup family
  · rintro other (known | rfl)
    · exact holds.plain other known
    · exact plain

theorem Holds.congr {grants : Grants} {given other : Element → Prop} (holds : Holds grants given)
    (same : ∀ element, given element ↔ other element) : Holds grants other := by
  have equal : given = other := funext fun element => propext (same element)
  exact equal ▸ holds

theorem grantable_plain {binding : Binding} {permission : Permission} {address : Addr}
    (grantable : grantable binding permission = true) (isPublic : isPublic [] address = true) :
    (elementOf address permission).isPlain = true := by
  simp only [Network.grantable, Bool.and_eq_true, Bool.or_eq_true, beq_iff_eq] at grantable
  have text : permission.protocol.text.all
      (fun byte => byte != 0x20 && byte != 0x2C && byte != 0x0A) = true := by
    rcases grantable.2 with tcp | udp
    · rw [tcp]
      decide +kernel
    · rw [udp]
      decide +kernel
  simp only [elementOf, Element.isPlain, text, isPublic_plain isPublic, Bool.and_self]

/-- One address is granted all permissions of its binding. -/
theorem addPermissions_holds (binding : Binding) (address : Addr) (permissions : List Permission)
    (grants granted : Grants) (given : Element → Prop) (isPublic : isPublic [] address = true)
    (holds : Holds grants given)
    (added : addPermissions binding address permissions grants = .ok granted) :
    Holds granted fun element => given element ∨
      ∃ permission ∈ permissions, element = elementOf address permission := by
  induction permissions generalizing grants given with
  | nil =>
    simp only [addPermissions, Except.ok.injEq] at added
    subst added
    exact holds.congr (by simp)
  | cons permission rest step =>
    unfold addPermissions at added
    by_cases able : grantable binding permission = true
    swap
    · simp [able] at added
    rw [if_neg (by simp [able])] at added
    dsimp only at added
    split at added
    · simp at added
    have next := holds.add (elementOf address permission) (grantable_plain able isPublic)
    exact (step _ _ next added).congr (by simp [or_assoc])

theorem addAddresses_holds (binding : Binding) (addresses : List Addr) (grants granted : Grants)
    (given : Element → Prop) (holds : Holds grants given)
    (added : addAddresses binding addresses grants = .ok granted) :
    Holds granted fun element => given element ∨ ∃ address ∈ addresses,
      ∃ permission ∈ binding.permissions, element = elementOf address permission := by
  induction addresses generalizing grants given with
  | nil =>
    simp only [addAddresses, Except.ok.injEq] at added
    subst added
    exact holds.congr (by simp)
  | cons address rest step =>
    unfold addAddresses at added
    by_cases able : isPublic [] address = true
    swap
    · simp [able] at added
    rw [if_neg (by simp [able])] at added
    cases first : addPermissions binding address binding.permissions grants with
    | error => simp [first, Except.bind] at added
    | ok middle =>
      rw [first] at added
      have next := addPermissions_holds binding address binding.permissions grants middle given able
        holds first
      exact (step _ _ next added).congr (by simp [or_assoc])

/-- A pair of a binding: one of its addresses with one of its permissions. -/
def Granted (bindings : List Binding) (element : Element) : Prop :=
  ∃ binding ∈ bindings, ∃ address ∈ binding.addresses, ∃ permission ∈ binding.permissions,
    element = elementOf address permission

/-- Every binding gives its pairs and bounds the expiry. -/
theorem gather_holds (job : Bytes) (limits : Limits) (now : Int) (bindings : List Binding)
    (gathered result : Gathered) (given : Element → Prop) (holds : Holds gathered.grants given)
    (gathers : gather job limits now bindings gathered = .ok result) :
    Holds result.grants (fun element => given element ∨ Granted bindings element) ∧
      result.expires ≤ gathered.expires ∧ (∀ binding ∈ bindings, result.expires ≤ binding.expires) ∧
      (result.expires = gathered.expires ∨ ∃ binding ∈ bindings, result.expires = binding.expires) ∧
      ∀ binding ∈ bindings, binding.limits = limits ∧ binding.job = job ∧
        binding.validAt now = true := by
  induction bindings generalizing gathered given with
  | nil =>
    simp only [gather, Except.ok.injEq] at gathers
    subst gathers
    exact ⟨holds.congr (by simp [Granted]), Int.le_refl _, by simp, Or.inl rfl, by simp⟩
  | cons binding rest step =>
    unfold gather at gathers
    by_cases belongs : belongs job limits gathered.names binding = true
    swap
    · simp [belongs] at gathers
    rw [if_neg (by simp [belongs])] at gathers
    by_cases valid : binding.validAt now = true
    swap
    · simp [valid] at gathers
    rw [if_neg (by simp [valid])] at gathers
    cases first : addAddresses binding binding.addresses gathered.grants with
    | error => simp [first, Except.bind] at gathers
    | ok grants =>
      rw [first] at gathers
      have next := addAddresses_holds binding binding.addresses gathered.grants grants given holds
        first
      obtain ⟨held, bound, bounds, reached, others⟩ := step _ _ next gathers
      dsimp only at bound reached
      have own : binding.limits = limits ∧ binding.job = job := by
        simp only [Network.belongs, Bool.and_eq_true, beq_iff_eq] at belongs
        exact ⟨belongs.1.1.1.1.1.1.2, belongs.1.1.1.1.1.1.1⟩
      refine ⟨held.congr ?_, ?_, ?_, ?_, ?_⟩
      · intro element
        simp [Granted, or_assoc]
      · split at bound <;> omega
      · refine List.forall_mem_cons.2 ⟨?_, bounds⟩
        split at bound <;> omega
      · rcases reached with same | ⟨other, member, same⟩
        · split at same
          · exact Or.inr ⟨binding, by simp, same⟩
          · exact Or.inl same
        · exact Or.inr ⟨other, by simp [member], same⟩
      · exact List.forall_mem_cons.2 ⟨⟨own.1, own.2, valid⟩, others⟩

/-- What a firewall is assembled from. -/
structure Assembly where
  job : Bytes
  limits : Limits
  gathered : Gathered
  now : Int
  deadline : Int
  controlledDNS : Bool

def Assembly.firewall (made : Assembly) : Firewall :=
  assemble made.job made.limits made.gathered made.now made.deadline made.controlledDNS

/-- A program that was compiled. With or without the controlled name service, it comes from the
same grants. -/
theorem compileFirewall_ok (job : Bytes) (bindings : List Binding) (now : Int)
    (controlledDNS : Bool) (firewall : Firewall)
    (compiled : compileFirewall job bindings now controlledDNS = .ok firewall) :
    ∃ made : Assembly, firewall = made.firewall ∧ made.controlledDNS = controlledDNS ∧
      (∀ dns, compileFirewall job bindings now dns =
        .ok { made with controlledDNS := dns }.firewall) ∧
      Holds made.gathered.grants (Granted bindings) ∧
      (∀ binding ∈ bindings, made.gathered.expires ≤ binding.expires) ∧
      (∃ binding ∈ bindings, binding.expires = made.gathered.expires) ∧
      made.deadline = unixSeconds made.gathered.expires ∧ unixSeconds now < made.deadline ∧
      0 < made.deadline := by
  cases bindings with
  | nil => simp [compileFirewall] at compiled
  | cons first rest =>
    simp only [compileFirewall] at compiled ⊢
    split at compiled
    · simp at compiled
    next admitted =>
    split at compiled
    · simp at compiled
    next limited =>
    simp only [if_neg admitted, if_neg limited]
    cases gathers : gather job first.limits now (first :: rest) ⟨first.expires, [], ⟨[], []⟩⟩ with
    | error => simp [gathers, Except.bind] at compiled
    | ok gathered =>
      rw [gathers] at compiled
      simp only [Except.bind] at compiled ⊢
      split at compiled
      · simp at compiled
      next timely =>
      obtain ⟨held, _, bounds, reached, _⟩ :=
        gather_holds job first.limits now (first :: rest) _ gathered _ holds_none gathers
      refine ⟨⟨job, first.limits, gathered, now, unixSeconds gathered.expires, controlledDNS⟩,
        (Except.ok.inj compiled).symm, rfl, fun dns => if_neg timely, held.congr (by simp), bounds,
        ?_, rfl, by dsimp only; omega, by dsimp only; omega⟩
      rcases reached with same | ⟨binding, member, same⟩
      · exact ⟨first, by simp, same.symm⟩
      · exact ⟨binding, member, same.symm⟩

/-! ## Elements -/

/-- The elements that a program declares for a set. -/
def elementsOf (program : Program) (set : ObjectName) : List Element :=
  program.flatMap fun command =>
    match command with
    | .addSet name _ _ elements => if name = set then elements else []
    | _ => []

theorem elementsOf_append (first second : Program) (set : ObjectName) :
    elementsOf (first ++ second) set = elementsOf first set ++ elementsOf second set := by
  simp [elementsOf]

theorem elementsOf_rules (rules : List (ObjectName × ChainRule)) (set : ObjectName) :
    elementsOf (rulesProgram rules) set = [] := by
  unfold elementsOf rulesProgram
  rw [List.flatMap_eq_nil_iff]
  intro command member
  obtain ⟨_, _, rfl⟩ := List.mem_map.1 member
  rfl

variable (grants : Grants) (entries : List (ObjectName × ChainRule)) (family : PacketFilter.Family)

theorem mem_values (element : Element) :
    element ∈ values grants family ↔ element ∈ grants.of family := by
  unfold values
  exact List.mem_mergeSort

theorem values_nil {grants : Grants} {family : PacketFilter.Family} :
    values grants family = [] ↔ grants.of family = [] := by
  unfold values
  constructor
  · intro none
    have length := congrArg List.length none
    simpa using length
  · intro none
    simp [none]

theorem mem_families :
    family ∈ families grants ↔ values grants family ≠ [] := by
  rw [Ne, values_nil]
  unfold families
  cases family <;> simp

theorem families_nodup : (families grants).Nodup := by
  unfold families
  exact List.Nodup.sublist List.filter_sublist (by decide)

theorem values_of_absent (absent : family ∉ families grants) : values grants family = [] :=
  not_not.1 ((not_congr (mem_families grants family)).1 absent)

theorem elementsOf_sets (timeout : Nat) (family : PacketFilter.Family) :
    elementsOf (setProgram grants timeout) (.allowed family) = values grants family := by
  have alone (keys : List PacketFilter.Family) (nodup : keys.Nodup) :
      elementsOf (keys.map fun key => .addSet (.allowed key) key timeout (values grants key))
        (.allowed family) = if family ∈ keys then values grants family else [] := by
    induction keys with
    | nil => simp [elementsOf]
    | cons key keys step =>
      obtain ⟨fresh, nodup⟩ := List.nodup_cons.1 nodup
      have rest := step nodup
      unfold elementsOf at rest ⊢
      rw [List.map_cons, List.flatMap_cons, rest]
      by_cases here : key = family
      · subst here
        simp [fresh]
      · simp [here, Ne.symm here]
  unfold setProgram
  rw [alone _ (families_nodup grants)]
  by_cases present : family ∈ families grants
  · rw [if_pos present]
  · rw [if_neg present, values_of_absent grants family present]

section

variable (made : Assembly)

theorem elementsOf_dnsRules : elementsOf made.firewall.dnsRules (.allowed family) = [] := by
  simp only [Assembly.firewall, assemble]
  split
  · exact elementsOf_rules _ _
  · rfl

theorem elementsOf_firewall : elementsOf made.firewall.install (.allowed family) =
    values made.gathered.grants family := by
  have objects : elementsOf (objectProgram made.limits) (.allowed family) = [] := rfl
  have table : elementsOf [.createTable] (.allowed family) = [] := rfl
  have install : made.firewall.install = [.createTable] ++ made.firewall.sets ++
      objectProgram made.limits ++ made.firewall.rules ++ made.firewall.dnsRules := rfl
  rw [install, elementsOf_append, elementsOf_append, elementsOf_append, elementsOf_append,
    elementsOf_dnsRules, objects, table]
  simp [Assembly.firewall, assemble, elementsOf_sets, elementsOf_rules]

end

/-! ## The text of the grants -/

theorem elementsText_clean (elements : List Element)
    (plain : ∀ element ∈ elements, element.isPlain = true) :
    (0x0A : UInt8) ∉ elementsText elements := by
  unfold elementsText
  induction elements with
  | nil => simp
  | cons element rest step =>
    have here := (Element.text_clean (plain element (by simp))).2
    have later := step fun other member => plain other (List.mem_cons_of_mem _ member)
    cases rest with
    | nil => simpa using here
    | cons =>
      simp only [List.map_cons] at later ⊢
      rw [List.intercalate_cons_cons, PacketFilter.encode_comma]
      simp only [List.mem_append, not_or]
      exact ⟨⟨here, by decide⟩, later⟩

/-- Grants with the same text have the same elements in the same order. -/
theorem grantsText_injective {grants grants' : Grants} {given given' : Element → Prop}
    (holds : Holds grants given) (holds' : Holds grants' given')
    (shape : families grants = families grants') (same : grantsText grants = grantsText grants')
    (family : PacketFilter.Family) : values grants family = values grants' family := by
  have plain {grants : Grants} {given : Element → Prop} (holds : Holds grants given)
      (family : PacketFilter.Family) :
        ∀ element ∈ values grants family, element.isPlain = true := by
    intro element member
    exact holds.plain element
      ((holds.exact family element).1 ((mem_values grants family element).1 member)).2
  by_cases present : family ∈ families grants
  swap
  · rw [values_of_absent grants family present, values_of_absent grants' family (shape ▸ present)]
  -- Every family is one line.
  let write (entry : PacketFilter.Family × List Element) : Bytes :=
    familyIndex entry.1 ++ encode ":" ++ elementsText entry.2
  have newline : encode "\n" = [0x0A] := by decide +kernel
  have clean {grants : Grants} {given : Element → Prop} (holds : Holds grants given) :
      ∀ entry ∈ (families grants).map (fun family => (family, values grants family)),
        (0x0A : UInt8) ∉ write entry := by
    intro entry member
    obtain ⟨family, _, rfl⟩ := List.mem_map.1 member
    have index : (0x0A : UInt8) ∉ familyIndex family ++ encode ":" := by
      cases family <;> decide +kernel
    intro found
    rcases List.mem_append.1 found with front | back
    · exact index front
    · exact elementsText_clean _ (plain holds family) back
  have lines := terminated_injective write 0x0A _ _ (clean holds) (clean holds') (by
    rw [List.flatMap_map, List.flatMap_map]
    simpa only [grantsText, newline] using same)
  rw [← shape, List.map_map, List.map_map] at lines
  have line := List.map_inj_left.1 lines family present
  have texts := List.append_cancel_left line
  exact PacketFilter.elementsText_injective (plain holds family) (plain holds' family)
    ((mem_families grants family).1 present) ((mem_families grants' family).1 (shape ▸ present))
    texts

/-! ## Tables -/

/-- The chains of a job's table. -/
def tableChains : List ObjectName := [.input, .output, .forward]

theorem mem_tableChains {chain : ObjectName} :
    chain ∈ tableChains ↔ chain = .input ∨ chain = .output ∨ chain = .forward := by
  simp [tableChains]

/-- The rules of a chain of the firewall. -/
def Firewall.chain (firewall : Firewall) (chain : ObjectName) : List ChainRule :=
  (firewall.rules ++ firewall.dnsRules).filterMap fun command =>
    match command with
    | .addRule name rule => if name = chain then some rule else none
    | _ => none

/-- A table with the sets and the chains of a firewall. Connections, counters and the bucket may
hold anything. -/
structure Installed (firewall : Firewall) (table : Table ObjectName) : Prop where
  allowed : ∀ family, table.sets (.allowed family) =
    if family ∈ firewall.families then
      some (.elements (elementsOf firewall.install (.allowed family)))
    else none
  connections : ∃ marks, table.sets .connections = some (.marks marks)
  forwarded : (table.counters .forwarded).isSome = true
  bandwidthDenied : (table.counters .bandwidthDenied).isSome = true
  bandwidth : ∃ left, table.limits .bandwidth = some ⟨firewall.limits.bytesPerSecond, left⟩
  chains : ∀ chain ∈ tableChains, table.chains chain = some (firewall.chain chain)

/-- What a refresh does not touch. -/
structure Untouched (table next : Table ObjectName) : Prop where
  connections : next.sets .connections = table.sets .connections
  counters : next.counters = table.counters
  limits : next.limits = table.limits

theorem chain_rules (chain : ObjectName) :
    ((rulesProgram entries).filterMap fun command =>
      match command with
      | .addRule name rule => if name = chain then some rule else none
      | _ => none) = rulesOf entries chain := by
  unfold rulesProgram rulesOf
  induction entries with
  | nil => rfl
  | cons entry entries step =>
    by_cases here : entry.1 = chain
    · simp [here, ← step]
    · simp [here, ← step]

section

variable (made : Assembly)

def Assembly.forward : List ChainRule :=
  forwardRules made.deadline.toNat made.limits made.firewall.families

def Assembly.controlled : List (ObjectName × ChainRule) :=
  if made.controlledDNS then controlledRules made.deadline.toNat made.limits else []

/-- The rules that an assembled firewall has for its chains. -/
def Assembly.chainRules : List (ObjectName × ChainRule) :=
  made.forward.map (ObjectName.forward, ·) ++ made.controlled

theorem firewall_dnsRules : made.firewall.dnsRules = rulesProgram made.controlled := by
  simp only [Assembly.firewall, assemble, Assembly.controlled]
  split <;> rfl

theorem firewall_rules :
    made.firewall.rules ++ made.firewall.dnsRules = rulesProgram made.chainRules := by
  rw [firewall_dnsRules]
  exact List.map_append.symm

theorem chain_firewall (chain : ObjectName) :
    made.firewall.chain chain = rulesOf made.chainRules chain := by
  unfold Firewall.chain
  rw [firewall_rules, chain_rules]

/-- The rules of the controlled name service stand in two chains, and none looks into the sets of
the grants. -/
theorem controlled_spec : ∀ entry ∈ made.controlled,
    (entry.1 = .input ∨ entry.1 = .output) ∧
      ∀ family, entry.2.uses (.allowed family) = false := by
  intro entry member
  unfold Assembly.controlled at member
  split at member
  swap
  · simp at member
  simp only [controlledRules, List.flatMap_cons, List.flatMap_nil, List.append_nil,
    List.cons_append, List.nil_append, List.mem_cons, List.not_mem_nil, or_false] at member
  rcases member with rfl | rfl | rfl | rfl | rfl | rfl | rfl | rfl | rfl | rfl | rfl |
    rfl | rfl | rfl <;> exact ⟨by simp, fun _ => rfl⟩

/-- Every object that the rules name is in an installed table. -/
theorem chainRules_resolved (table : Table ObjectName)
    (allowed : ∀ family ∈ made.firewall.families, (table.sets (.allowed family)).isSome = true)
    (connections : (table.sets .connections).isSome = true)
    (forwarded : (table.counters .forwarded).isSome = true)
    (bandwidthDenied : (table.counters .bandwidthDenied).isSome = true)
    (bandwidth : (table.limits .bandwidth).isSome = true) :
    ∀ entry ∈ made.chainRules, entry.2.resolved table = true := by
  intro entry member
  rcases List.mem_append.1 member with inForward | inControlled
  · obtain ⟨_, inside, rfl⟩ := List.mem_map.1 inForward
    simp only [Assembly.forward, forwardRules, List.cons_append, List.nil_append, List.mem_cons,
      List.mem_append, List.mem_flatMap, List.not_mem_nil, or_false] at inside
    rcases inside with rfl | rfl | rfl | rfl | rfl | ⟨family, present, rfl | rfl⟩ | rfl
    all_goals
      simp [deadlineRule, unusableRule, bandwidthRule, markRule, connectionsRule, requestRule,
        replyRule, dropRule, Rule.resolved, Statement.sets, Statement.counters, Statement.limits,
        connections, forwarded, bandwidthDenied, bandwidth]
    all_goals exact allowed family present
  · unfold Assembly.controlled at inControlled
    split at inControlled
    swap
    · simp at inControlled
    simp only [controlledRules, List.flatMap_cons, List.flatMap_nil, List.append_nil,
      List.cons_append, List.nil_append, List.mem_cons, List.not_mem_nil,
      or_false] at inControlled
    rcases inControlled with
      rfl | rfl | rfl | rfl | rfl | rfl | rfl | rfl | rfl | rfl | rfl | rfl | rfl | rfl
    all_goals
      simp [deadlineRule, unusableRule, bandwidthRule, markRule, connectionsRule, questionRule,
        answerRule, dropRule, Rule.resolved, Statement.sets, Statement.counters, Statement.limits,
        connections, forwarded, bandwidthDenied, bandwidth]

theorem chainRules_chains : ∀ entry ∈ made.chainRules, entry.1 ∈ tableChains := by
  intro entry member
  rcases List.mem_append.1 member with inForward | inControlled
  · obtain ⟨_, _, rfl⟩ := List.mem_map.1 inForward
    simp [tableChains]
  · rcases (controlled_spec made entry inControlled).1 with here | here <;>
      simp [here, tableChains]

theorem allowed_distinct : (made.firewall.families.map ObjectName.allowed).Nodup :=
  List.Nodup.map (fun first second same => by simpa using same)
    (families_nodup made.gathered.grants)

/-- The objects that a table gets beside its sets. -/
theorem execute_objects (limits : Limits) (sets : ObjectName → Option SetObject)
    (untracked : sets .connections = none) :
    execute tableChains (objectProgram limits) (some { Table.empty with sets := sets }) =
      some (some
        { sets := put sets .connections (some (.marks []))
          counters := put (put (fun _ => none) .forwarded (some ⟨0, 0⟩)) .bandwidthDenied
            (some ⟨0, 0⟩)
          limits := put (fun _ => none) .bandwidth
            (some ⟨limits.bytesPerSecond, limits.bytesPerSecond⟩)
          chains := put (put (put (fun _ => none) .input (some [])) .output (some [])) .forward
            (some []) }) := by
  simp [objectProgram, execute_cons, Command.execute, Table.empty, untracked, tableChains, put]

/-- The program of a firewall installs it into a fresh table. -/
theorem execute_install : ∃ table,
    execute tableChains made.firewall.install none = some (some table) ∧
      Installed made.firewall table := by
  have install : made.firewall.install = .createTable :: (made.firewall.sets ++
      (objectProgram made.limits ++ rulesProgram made.chainRules)) := by
    rw [← firewall_rules]
    simp [Assembly.firewall, assemble]
  obtain ⟨sets, added, mine, others⟩ := execute_addSets tableChains ObjectName.allowed id
    ((made.gathered.expires - made.now) / 1000000).toNat (values made.gathered.grants)
    made.firewall.families .empty (allowed_distinct made) (fun _ _ => rfl)
  have untracked : sets .connections = none := others .connections (by simp)
  have listed (family : PacketFilter.Family) : put sets .connections (some (.marks []))
      (.allowed family) = sets (.allowed family) := put_other _ _ (by simp)
  rw [install, execute_cons]
  show ∃ table, (execute tableChains _ (some Table.empty)) = _ ∧ _
  rw [execute_append]
  change ∃ table, Option.bind (execute tableChains
    (made.firewall.families.map fun key => .addSet (.allowed key) (id key) _ _) _) _ = _ ∧ _
  rw [added, Option.bind_some, execute_append, execute_objects made.limits sets untracked,
    Option.bind_some]
  unfold rulesProgram
  rw [execute_addRules]
  · refine ⟨_, rfl, ?_, ⟨[], by simp⟩, by simp [put], by simp [put],
      ⟨made.limits.bytesPerSecond, by simp [Assembly.firewall, assemble]⟩, ?_⟩
    · intro family
      dsimp only
      rw [listed, elementsOf_firewall]
      by_cases present : family ∈ made.firewall.families
      · rw [if_pos present]
        exact mine family present
      · rw [if_neg present]
        exact others _ (by simpa using present)
    · intro chain member
      rw [chain_firewall]
      rcases mem_tableChains.1 member with rfl | rfl | rfl <;> simp [put]
  · intro entry member
    rcases mem_tableChains.1 (chainRules_chains made entry member) with here | here | here <;>
      simp [here, put]
  · apply chainRules_resolved
    · intro family present
      dsimp only
      rw [listed, mine family present]
      rfl
    · simp
    · simp [put]
    · simp [put]
    · simp [put]

end

/-! ## Refreshing -/

/-- The program of a refresh. -/
def refreshProgram (firewall next : Firewall) : Program :=
  [.flushChain .forward] ++ firewall.families.map (fun family => .deleteSet (.allowed family)) ++
    next.sets ++ next.rules ++
    if firewall.controlledDNS then [.flushChain .input, .flushChain .output] ++ next.dnsRules
    else []

theorem refresh_ok (firewall next : Firewall) (now : Int) (extension : Bool) (program : Program)
    (refreshed : firewall.refresh next now extension = .ok program) :
    next.table = firewall.table ∧ firewall.grants = next.grants ∧
      firewall.limits = next.limits ∧ firewall.families = next.families ∧
      firewall.controlledDNS = next.controlledDNS ∧ now < firewall.expires ∧ now < next.expires ∧
      program = refreshProgram firewall next := by
  unfold Firewall.refresh at refreshed
  split at refreshed
  · simp at refreshed
  next same =>
  split at refreshed
  · simp at refreshed
  next timely =>
  simp only [Bool.or_eq_true, bne_iff_ne, ne_eq, not_or, not_not] at same
  simp only [Except.ok.injEq] at refreshed
  obtain ⟨⟨⟨⟨⟨⟨⟨_, _⟩, table⟩, _⟩, grants⟩, limits⟩, families⟩, dns⟩ := same
  exact ⟨table, grants, limits, families, dns, by omega, by omega, refreshed.symm⟩

section

variable {made made' : Assembly} {table : Table ObjectName}

/-- Chains hold no rule that looks into the sets of the grants once the forward chain is empty. -/
theorem free_allowed (installed : Installed made.firewall table) (family : PacketFilter.Family) :
    ({ table with chains := put table.chains .forward (some []) } : Table ObjectName).free
      tableChains (.allowed family) = true := by
  have unused (chain : ObjectName) (apart : chain ≠ .forward) (member : chain ∈ tableChains) :
      (table.chains chain).all (fun rules => rules.all (!·.uses (.allowed family))) = true := by
    rw [installed.chains chain member, chain_firewall]
    simp only [Option.all_some, List.all_eq_true, Bool.not_eq_true']
    intro rule inside
    obtain ⟨entry, found, rfl⟩ := List.mem_map.1 inside
    obtain ⟨found, name⟩ := List.mem_filter.1 found
    rcases List.mem_append.1 found with inForward | inControlled
    · obtain ⟨_, _, rfl⟩ := List.mem_map.1 inForward
      exact absurd (by simpa using name) (Ne.symm apart)
    · exact (controlled_spec made entry inControlled).2 family
  unfold Table.free
  rw [List.all_eq_true]
  intro chain member
  by_cases here : chain = .forward
  · simp [here]
  · dsimp only
    rw [put_other _ _ here]
    exact unused chain here member

/-- The sets of the grants are deleted and written again. -/
theorem execute_resets (sameFamilies : made.firewall.families = made'.firewall.families)
    (installed : Installed made.firewall table) :
    ∃ sets, execute tableChains
        ([.flushChain .forward] ++
          made.firewall.families.map (fun family => .deleteSet (.allowed family)) ++
          made'.firewall.sets) (some table) =
          some (some { table with sets := sets, chains := put table.chains .forward (some []) }) ∧
      sets .connections = table.sets .connections ∧
      ∀ family, sets (.allowed family) = if family ∈ made'.firewall.families then
        some (.elements (values made'.gathered.grants family)) else none := by
  have deleted := execute_deleteSets tableChains ObjectName.allowed made.firewall.families
    { table with chains := put table.chains .forward (some []) } (allowed_distinct made)
    (fun family member => by
      dsimp only
      rw [installed.allowed family, if_pos member]
      rfl)
    (fun family _ => free_allowed installed family)
  obtain ⟨sets, added, mine, others⟩ := execute_addSets tableChains
    ObjectName.allowed id ((made'.gathered.expires - made'.now) / 1000000).toNat
    (values made'.gathered.grants) made'.firewall.families
    { table with
      chains := put table.chains .forward (some [])
      sets := fun set =>
        if set ∈ made.firewall.families.map ObjectName.allowed then none else table.sets set }
    (allowed_distinct made')
    (fun family member => by
      dsimp only
      rw [if_pos (List.mem_map_of_mem (sameFamilies ▸ member))])
  refine ⟨sets, ?_, ?_, ?_⟩
  · have present : (table.chains .forward).isSome = true := by
      rw [installed.chains .forward (by simp [tableChains])]
      rfl
    rw [List.append_assoc, List.singleton_append, execute_cons]
    simp only [Command.execute, present, if_true, Option.bind_some]
    rw [execute_append, deleted, Option.bind_some]
    exact added
  · rw [others _ (by simp)]
    simp
  intro family
  by_cases member : family ∈ made'.firewall.families
  · rw [if_pos member]
    exact mine family member
  rw [if_neg member, others _ (by simpa using member)]
  have absent := installed.allowed family
  rw [if_neg (sameFamilies ▸ member)] at absent
  simp [absent]

end

/-- The chains of the controlled name service are emptied and written again. -/
theorem execute_controlled (table : Table ObjectName)
    (known : ∀ entry ∈ entries, entry.1 = .input ∨ entry.1 = .output)
    (resolved : ∀ chains, ∀ entry ∈ entries, entry.2.resolved { table with chains := chains } =
      true)
    (input : (table.chains .input).isSome = true) (output : (table.chains .output).isSome = true) :
    ∃ chains, execute tableChains
        (.flushChain .input :: .flushChain .output :: rulesProgram entries) (some table) =
          some (some { table with chains := chains }) ∧
      chains .input = some (rulesOf entries .input) ∧
      chains .output = some (rulesOf entries .output) ∧
      chains .forward = table.chains .forward := by
  have written := execute_addRules tableChains entries
    { table with chains := put (put table.chains .input (some [])) .output (some []) }
    (fun entry member => by
      rcases known entry member with here | here <;> simp [here, put])
    (fun entry member => resolved _ entry member)
  refine ⟨fun chain => (put (put table.chains .input (some [])) .output (some []) chain).map
    (· ++ rulesOf entries chain), ?_, ?_⟩
  · rw [execute_cons]
    simp only [Command.execute, input, if_true, Option.bind_some]
    rw [execute_cons]
    simp only [Command.execute, ne_eq, reduceCtorEq, not_false_eq_true, put_other,
      output, if_true, Option.bind_some]
    exact written
  · have none : rulesOf entries .forward = [] := by
      unfold rulesOf
      rw [List.map_eq_nil_iff, List.filter_eq_nil_iff]
      intro entry member
      rcases known entry member with here | here <;> simp [here]
    simp [none, put]

/-- The chains are written again. Without the controlled name service only the forward chain has
rules. -/
theorem execute_rechains (made : Assembly) (table : Table ObjectName)
    (resolved : ∀ chains, ∀ entry ∈ made.chainRules,
      entry.2.resolved { table with chains := chains } = true)
    (flushed : table.chains .forward = some [])
    (present : ∀ chain ∈ tableChains, (table.chains chain).isSome = true)
    (plain : made.controlledDNS = false →
      table.chains .input = some [] ∧ table.chains .output = some []) :
    ∃ chains, execute tableChains (made.firewall.rules ++ if made.controlledDNS then
        [.flushChain .input, .flushChain .output] ++ made.firewall.dnsRules else [])
          (some table) = some (some { table with chains := chains }) ∧
      ∀ chain ∈ tableChains, chains chain = some (rulesOf made.chainRules chain) := by
  have forwarded : execute tableChains made.firewall.rules (some table) =
      some (some { table with
        chains := fun chain => (table.chains chain).map
          (· ++ rulesOf (made.forward.map (ObjectName.forward, ·)) chain) }) :=
    execute_addRules tableChains _ table
      (fun entry member => by
        obtain ⟨_, _, rfl⟩ := List.mem_map.1 member
        exact present .forward (by simp [tableChains]))
      (fun entry member => resolved table.chains entry (List.mem_append_left _ member))
  rw [execute_append, forwarded, Option.bind_some]
  simp only [rulesOf_chain]
  cases dns : made.controlledDNS with
  | false =>
    obtain ⟨input, output⟩ := plain dns
    have alone : made.controlled = [] := by simp [Assembly.controlled, dns]
    refine ⟨_, rfl, fun chain member => ?_⟩
    rw [Assembly.chainRules, alone, List.append_nil, rulesOf_chain]
    rcases mem_tableChains.1 member with rfl | rfl | rfl
    · simp [input]
    · simp [output]
    · simp [flushed]
  | true =>
    have none : rulesOf made.controlled .forward = [] := by
      rw [Assembly.controlled, if_pos dns]
      rfl
    obtain ⟨chains, run, input, output, forward⟩ := execute_controlled made.controlled
      { table with
        chains := fun chain => (table.chains chain).map
          (· ++ if chain = .forward then made.forward else []) }
      (fun entry member => (controlled_spec made entry member).1)
      (fun chains entry member => resolved chains entry (List.mem_append_right _ member))
      (by simpa using present .input (by simp [tableChains]))
      (by simpa using present .output (by simp [tableChains]))
    rw [if_pos rfl, firewall_dnsRules]
    refine ⟨chains, run, fun chain member => ?_⟩
    rw [Assembly.chainRules, rulesOf_append, rulesOf_chain]
    rcases mem_tableChains.1 member with rfl | rfl | rfl
    · simp [input]
    · simp [output]
    · simp [forward, flushed, none]

/-- Without the controlled name service nothing is for the controller itself. -/
theorem quiet_chain {made : Assembly} (plain : made.controlledDNS = false) {chain : ObjectName}
    (apart : chain ≠ .forward) : made.firewall.chain chain = [] := by
  rw [chain_firewall]
  simp [Assembly.chainRules, Assembly.controlled, plain, rulesOf_chain, apart]

/-- A refresh replaces the sets and the chains, and nothing else. -/
theorem execute_refresh {made made' : Assembly} {table : Table ObjectName}
    (sameLimits : made.limits = made'.limits) (sameDNS : made.controlledDNS = made'.controlledDNS)
    (sameFamilies : made.firewall.families = made'.firewall.families)
    (installed : Installed made.firewall table) :
    ∃ next, execute tableChains (refreshProgram made.firewall made'.firewall) (some table) =
        some (some next) ∧
      Installed made'.firewall next ∧ Untouched table next := by
  obtain ⟨marks, connections⟩ := installed.connections
  obtain ⟨left, bandwidth⟩ := installed.bandwidth
  obtain ⟨sets, reset, tracker, allowed⟩ := execute_resets sameFamilies installed
  obtain ⟨chains, rechained, written⟩ := execute_rechains made'
    { table with sets := sets, chains := put table.chains .forward (some []) }
    (fun chains => chainRules_resolved made' _
      (fun family member => by simp [allowed, member]) (by simp [tracker, connections])
      installed.forwarded installed.bandwidthDenied (by simp [bandwidth]))
    (by simp)
    (fun chain member => by
      by_cases here : chain = .forward
      · simp [here]
      · simp [put_other, here, installed.chains chain member])
    (fun plain => by
      have quiet (chain : ObjectName) (apart : chain ≠ .forward) (member : chain ∈ tableChains) :
          put table.chains .forward (some []) chain = some [] := by
        rw [put_other _ _ apart, installed.chains chain member,
          quiet_chain (sameDNS.trans plain) apart]
      exact ⟨quiet .input (by simp) (by simp [tableChains]),
        quiet .output (by simp) (by simp [tableChains])⟩)
  refine ⟨{ table with sets := sets, chains := chains }, ?_,
    ⟨?_, ⟨marks, ?_⟩, installed.forwarded, installed.bandwidthDenied, ⟨left, ?_⟩, ?_⟩,
    tracker, rfl, rfl⟩
  · rw [refreshProgram, List.append_assoc, execute_append, reset, Option.bind_some,
      show made.firewall.controlledDNS = made'.controlledDNS from sameDNS]
    exact rechained
  · intro family
    rw [elementsOf_firewall]
    exact allowed family
  · dsimp only
    rw [tracker, connections]
  · rw [bandwidth, show made.firewall.limits = made'.firewall.limits from sameLimits]
  intro chain member
  dsimp only
  rw [chain_firewall]
  exact written chain member

/-! ## The deadline that is written -/

/-- The second from which the forward chain of a program drops everything. -/
def writtenDeadline (program : Program) : Option Nat :=
  program.findSome? fun command =>
    match command with
    | .addRule .forward ⟨.timeFrom seconds :: _, _⟩ => some seconds
    | _ => none

theorem writtenDeadline_append (first second : Program) :
    writtenDeadline (first ++ second) = (writtenDeadline first).or (writtenDeadline second) :=
  List.findSome?_append

/-- Commands of one kind that add no rule. -/
theorem writtenDeadline_map {α : Type} (items : List α) (write : α → Command ObjectName)
    (silent : ∀ item, writtenDeadline [write item] = none) :
    writtenDeadline (items.map write) = none := by
  induction items with
  | nil => rfl
  | cons item rest step =>
    rw [List.map_cons, ← List.singleton_append, writtenDeadline_append, silent, step]
    rfl

theorem writtenDeadline_sets (grants : Grants) (timeout : Nat) :
    writtenDeadline (setProgram grants timeout) = none :=
  writtenDeadline_map _ _ fun _ => rfl

section

variable (made : Assembly)

/-- The program of an installation writes the deadline of its firewall. -/
theorem writtenDeadline_install :
    writtenDeadline made.firewall.install = some made.deadline.toNat := by
  simp only [Assembly.firewall, assemble, writtenDeadline_append, writtenDeadline_sets]
  rfl

/-- The program of a refresh writes the deadline of the next firewall. -/
theorem writtenDeadline_refresh (firewall : Firewall) :
    writtenDeadline (refreshProgram firewall made.firewall) = some made.deadline.toNat := by
  have deletes : writtenDeadline
      (firewall.families.map fun family => .deleteSet (.allowed family)) = none :=
    writtenDeadline_map _ _ fun _ => rfl
  simp only [refreshProgram, Assembly.firewall, assemble, writtenDeadline_append,
    writtenDeadline_sets, deletes]
  rfl

end

/-! ## Commands -/

/-- The commands of a refresh name chains, rules and the sets of the grants only. -/
inductive Renews : Command ObjectName → Prop where
  | flush (chain : ObjectName) : Renews (.flushChain chain)
  | delete (family : PacketFilter.Family) : Renews (.deleteSet (.allowed family))
  | set (family : PacketFilter.Family) (timeout : Nat) (elements : List Element) :
    Renews (.addSet (.allowed family) family timeout elements)
  | rule (chain : ObjectName) (rule : ChainRule) : Renews (.addRule chain rule)

section

variable (made : Assembly)

theorem renews_refresh (firewall : Firewall) :
    ∀ command ∈ refreshProgram firewall made.firewall, Renews command := by
  have rules (entries : List (ObjectName × ChainRule)) :
      ∀ command ∈ rulesProgram entries, Renews command := by
    intro command member
    obtain ⟨entry, _, rfl⟩ := List.mem_map.1 member
    exact .rule _ _
  intro command member
  rw [refreshProgram, firewall_dnsRules] at member
  simp only [List.mem_append, List.mem_singleton] at member
  rcases member with (((rfl | deletes) | sets) | forward) | controlled
  · exact .flush _
  · obtain ⟨family, _, rfl⟩ := List.mem_map.1 deletes
    exact .delete family
  · obtain ⟨family, _, rfl⟩ := List.mem_map.1 sets
    exact .set family _ _
  · exact rules _ command forward
  · split at controlled
    · rcases List.mem_append.1 controlled with flushes | controlled
      · rcases List.mem_pair.1 flushes with rfl | rfl <;> exact .flush _
      · exact rules _ command controlled
    · simp at controlled

/-- The rules of the program are those of the chains. -/
theorem addRule_firewall {chain : ObjectName} {rule : ChainRule} :
    Command.addRule chain rule ∈ made.firewall.install ↔ (chain, rule) ∈ made.chainRules := by
  have inside (entries : List (ObjectName × ChainRule)) :
      Command.addRule chain rule ∈ rulesProgram entries ↔ (chain, rule) ∈ entries := by
    simp [rulesProgram]
  rw [← inside, ← firewall_rules]
  have install : made.firewall.install = ([.createTable] ++ made.firewall.sets ++
      objectProgram made.limits) ++ (made.firewall.rules ++ made.firewall.dnsRules) :=
    List.append_assoc _ _ _
  rw [install, List.mem_append]
  refine or_iff_right fun other => ?_
  simp [Assembly.firewall, assemble, setProgram, objectProgram] at other

/-- A rule that lets requests of the job and their replies pass, or, with the controlled name
service, questions and answers. -/
inductive AcceptRule (families : List PacketFilter.Family) (controlledDNS : Bool) :
    ObjectName → ChainRule → Prop where
  | request (family : PacketFilter.Family) (present : family ∈ families) :
    AcceptRule families controlledDNS .forward (requestRule family)
  | reply (family : PacketFilter.Family) (present : family ∈ families) :
    AcceptRule families controlledDNS .forward (replyRule family)
  | question (transport : Bytes) (known : transport ∈ [encode "udp", encode "tcp"])
    (enabled : controlledDNS = true) :
    AcceptRule families controlledDNS .input (questionRule transport)
  | answer (transport : Bytes) (known : transport ∈ [encode "udp", encode "tcp"])
    (enabled : controlledDNS = true) :
    AcceptRule families controlledDNS .output (answerRule transport)

theorem acceptRule_of_mem {chain : ObjectName} {rule : ChainRule}
    (member : (chain, rule) ∈ made.chainRules) (accepts : rule.verdict = some .accept) :
    AcceptRule made.firewall.families made.controlledDNS chain rule := by
  rcases List.mem_append.1 member with forward | controlled
  · obtain ⟨_, inside, same⟩ := List.mem_map.1 forward
    cases same
    simp only [Assembly.forward, forwardRules, List.cons_append, List.nil_append, List.mem_cons,
      List.mem_append, List.mem_flatMap, List.not_mem_nil, or_false] at inside
    rcases inside with rfl | rfl | rfl | rfl | rfl | ⟨family, present, rfl | rfl⟩ | rfl
    case inr.inr.inr.inr.inr.inl.inl => exact .request family present
    case inr.inr.inr.inr.inr.inl.inr => exact .reply family present
    all_goals exact nomatch accepts
  · unfold Assembly.controlled at controlled
    split at controlled
    swap
    · simp at controlled
    next enabled =>
    simp only [controlledRules, List.flatMap_cons, List.flatMap_nil, List.append_nil,
      List.cons_append, List.nil_append, List.mem_cons, List.not_mem_nil, or_false] at controlled
    rcases controlled with same | same | same | same | same | same | same | same | same | same |
      same | same | same | same <;> cases same
    case inr.inr.inr.inr.inr.inr.inr.inr.inl => exact .question _ (by simp) enabled
    case inr.inr.inr.inr.inr.inr.inr.inr.inr.inl => exact .answer _ (by simp) enabled
    case inr.inr.inr.inr.inr.inr.inr.inr.inr.inr.inl => exact .question _ (by simp) enabled
    case inr.inr.inr.inr.inr.inr.inr.inr.inr.inr.inr.inl => exact .answer _ (by simp) enabled
    all_goals exact nomatch accepts

end

/-! ## Packets -/

/-- A request of the job to a granted destination, or the reply. -/
def Forwarded (given : Element → Prop) (packet : Packet) : Prop :=
  (packet.received = job0 ∧ packet.sent = wan0 ∧ packet.reply = false ∧
    packet.source = jobAddress (.of packet.destination) ∧
    given ⟨packet.destination, packet.protocol, packet.destinationPort⟩) ∨
  (packet.received = wan0 ∧ packet.sent = job0 ∧ packet.reply = true ∧
    packet.state = .established ∧ packet.destination = jobAddress (.of packet.source) ∧
    given ⟨packet.source, packet.protocol, packet.sourcePort⟩)

/-- A question of the workload to the controller, or the answer. -/
def NameService (chain : ObjectName) (packet : Packet) : Prop :=
  (packet.protocol = encode "udp" ∨ packet.protocol = encode "tcp") ∧
    ((chain = .input ∧ packet.received = job0 ∧ packet.reply = false ∧
        packet.source = workload4 ∧ packet.destination = controller4 ∧
        packet.destinationPort = 53) ∨
      (chain = .output ∧ packet.sent = job0 ∧ packet.reply = true ∧ packet.state = .established ∧
        packet.source = controller4 ∧ packet.destination = workload4 ∧ packet.sourcePort = 53))

/-- What gets past the rules that drop: packets before the deadline, of a connection that is known,
within the bandwidth and, where they open a connection, within the number of connections. -/
structure Admitted (deadline connections : Nat) (chain : ObjectName) (load : Load ObjectName)
    (packet : Packet) : Prop where
  early : packet.seconds < deadline
  known : packet.state ≠ .invalid ∧ packet.state ≠ .untracked
  slow : load.limited .bandwidth = false
  few : chain ≠ .output → packet.state = .new → load.newOver .connections connections = false

section

variable {sets : ObjectName → Option SetObject} {load : Load ObjectName} {packet : Packet}
  {rules : List ChainRule}

theorem decision_guards (deadline : Nat) :
    decision sets load packet (deadlineRule deadline :: unusableRule :: bandwidthRule :: rules) =
        .accept ↔
      packet.seconds < deadline ∧ (packet.state ≠ .invalid ∧ packet.state ≠ .untracked) ∧
        load.limited .bandwidth = false ∧ decision sets load packet rules = .accept := by
  rw [decision_cons_drop rfl, decision_cons_drop rfl, decision_cons_drop rfl]
  simp [deadlineRule, unusableRule, bandwidthRule, Statement.passes]

theorem decision_connections (connections : Nat) :
    decision sets load packet (markRule :: connectionsRule connections :: rules) = .accept ↔
      (packet.state = .new → load.newOver .connections connections = false) ∧
        decision sets load packet rules = .accept := by
  rw [decision_cons_none rfl, decision_cons_drop rfl]
  simp [connectionsRule, Statement.passes]

end

section

variable (made : Assembly)

theorem forward_chain : made.firewall.chain .forward = made.forward := by
  have none : rulesOf made.controlled .forward = [] := by
    unfold Assembly.controlled
    split <;> rfl
  rw [chain_firewall, Assembly.chainRules, rulesOf_append, rulesOf_chain, if_pos rfl, none,
    List.append_nil]

variable (load : Load ObjectName) (packet : Packet) (chain : ObjectName)

/-- In an installed table the set of a family holds the grants of the family. -/
theorem listed_iff {given : Element → Prop} (holds : Holds made.gathered.grants given)
    {table : Table ObjectName} (installed : Installed made.firewall table)
    (family : PacketFilter.Family) (side : Side) :
    Statement.passes table.sets load packet (.listed family side (.allowed family)) = true ↔
      PacketFilter.Family.of (packet.address side) = family ∧
        given ⟨packet.address side, packet.protocol, packet.port side⟩ := by
  simp only [Statement.passes, Bool.and_eq_true, beq_iff_eq]
  refine and_congr_right fun same => ?_
  have inside := holds.exact family ⟨packet.address side, packet.protocol, packet.port side⟩
  rw [and_iff_right same] at inside
  rw [installed.allowed family, ← inside, ← mem_values]
  by_cases present : family ∈ made.firewall.families
  · simp [if_pos present, elementsOf_firewall]
  · simp [if_neg present, values_of_absent _ _ present]

/-- What is forwarded is a pair of the grants, before the deadline. -/
theorem forward_accepts {given : Element → Prop} (holds : Holds made.gathered.grants given)
    (table : Table ObjectName) (installed : Installed made.firewall table) :
    decision table.sets load packet (made.firewall.chain .forward) = .accept ↔
      Admitted made.deadline.toNat made.firewall.limits.connections .forward load packet ∧
        Forwarded given packet := by
  have listed := listed_iff made load packet holds installed
  have accepting : ∀ rule ∈ made.firewall.families.flatMap fun family =>
      [requestRule family, replyRule family], rule.verdict = some .accept := by
    intro rule member
    obtain ⟨family, _, pair⟩ := List.mem_flatMap.1 member
    rcases List.mem_pair.1 pair with rfl | rfl <;> rfl
  have present (element : Element) (granted : given element) :
      PacketFilter.Family.of element.address ∈ made.firewall.families := by
    have inside := (holds.exact _ element).2 ⟨rfl, granted⟩
    exact (mem_families _ _).2 (List.ne_nil_of_mem ((mem_values _ _ element).2 inside))
  rw [forward_chain, Assembly.forward, forwardRules]
  simp only [List.cons_append, List.nil_append]
  rw [decision_guards, decision_connections, decision_accepting accepting rfl]
  have passing : (∃ rule ∈ made.firewall.families.flatMap fun family =>
      [requestRule family, replyRule family],
        rule.statements.all (·.passes table.sets load packet) = true) ↔ Forwarded given packet := by
    constructor
    · rintro ⟨_, member, passes⟩
      obtain ⟨family, _, pair⟩ := List.mem_flatMap.1 member
      rcases List.mem_pair.1 pair with rfl | rfl
      · simp only [requestRule, List.all_cons, Bool.and_eq_true, listed] at passes
        obtain ⟨received, sent, direction, source, ⟨rfl, granted⟩, _⟩ := passes
        exact .inl ⟨eq_of_beq received, eq_of_beq sent, eq_of_beq direction, eq_of_beq source,
          granted⟩
      · simp only [replyRule, List.all_cons, Bool.and_eq_true, listed] at passes
        obtain ⟨received, sent, direction, state, destination, ⟨rfl, granted⟩, _⟩ := passes
        exact .inr ⟨eq_of_beq received, eq_of_beq sent, eq_of_beq direction, eq_of_beq state,
          eq_of_beq destination, granted⟩
    · rintro (⟨received, sent, direction, source, granted⟩ |
        ⟨received, sent, direction, state, destination, granted⟩)
      · refine ⟨requestRule _, List.mem_flatMap.2 ⟨_, present _ granted, .head _⟩, ?_⟩
        simp only [requestRule, List.all_cons, Bool.and_eq_true]
        exact ⟨beq_iff_eq.2 received, beq_iff_eq.2 sent, beq_iff_eq.2 direction,
          beq_iff_eq.2 source, (listed _ .destination).2 ⟨rfl, granted⟩, rfl, rfl⟩
      · refine ⟨replyRule _, List.mem_flatMap.2 ⟨_, present _ granted, .tail _ (.head _)⟩, ?_⟩
        simp only [replyRule, List.all_cons, Bool.and_eq_true]
        exact ⟨beq_iff_eq.2 received, beq_iff_eq.2 sent, beq_iff_eq.2 direction,
          beq_iff_eq.2 state, beq_iff_eq.2 destination, (listed _ .source).2 ⟨rfl, granted⟩, rfl,
          rfl⟩
  rw [passing]
  constructor
  · rintro ⟨early, known, slow, few, forwarded⟩
    exact ⟨⟨early, known, slow, fun _ => few⟩, forwarded⟩
  · rintro ⟨⟨early, known, slow, few⟩, forwarded⟩
    exact ⟨early, known, slow, few (by simp), forwarded⟩

/-- The chains of the controlled name service accept questions and answers. -/
theorem controlled_accepts (sets : ObjectName → Option SetObject) (apart : chain ≠ .forward)
    (member : chain ∈ tableChains) (controlled : made.controlledDNS = true) :
    decision sets load packet (made.firewall.chain chain) = .accept ↔
      Admitted made.deadline.toNat made.firewall.limits.connections chain load packet ∧
        NameService chain packet := by
  rw [chain_firewall, Assembly.chainRules, rulesOf_append, rulesOf_chain, if_neg apart,
    List.nil_append, Assembly.controlled, if_pos controlled]
  rcases mem_tableChains.1 member with rfl | rfl | rfl
  · have passing (transport : Bytes) :
        (questionRule transport).statements.all (·.passes sets load packet) = true ↔
          packet.protocol = transport ∧ packet.received = job0 ∧ packet.reply = false ∧
            packet.source = workload4 ∧ packet.destination = controller4 ∧
            packet.destinationPort = 53 := by
      simp only [questionRule, List.all_cons, List.all_nil, Statement.passes, Packet.address,
        Packet.port, Bool.and_eq_true, beq_iff_eq]
      tauto
    rw [show rulesOf (controlledRules made.deadline.toNat made.limits) .input =
      deadlineRule made.deadline.toNat :: unusableRule :: bandwidthRule :: markRule ::
        connectionsRule made.limits.connections ::
        ([questionRule (encode "udp"), questionRule (encode "tcp")] ++ [dropRule]) from rfl,
      decision_guards, decision_connections, decision_accepting (by simp [questionRule]) rfl]
    simp only [List.exists_mem_cons_iff, passing, NameService]
    constructor
    · rintro ⟨early, known, slow, few, rest⟩
      exact ⟨⟨early, known, slow, fun _ => few⟩, by simpa [or_and_right] using rest⟩
    · rintro ⟨⟨early, known, slow, few⟩, rest⟩
      exact ⟨early, known, slow, few (by simp), by simpa [or_and_right] using rest⟩
  · have passing (transport : Bytes) :
        (answerRule transport).statements.all (·.passes sets load packet) = true ↔
          packet.protocol = transport ∧ packet.sent = job0 ∧ packet.reply = true ∧
            packet.state = .established ∧ packet.source = controller4 ∧
            packet.destination = workload4 ∧ packet.sourcePort = 53 := by
      simp only [answerRule, List.all_cons, List.all_nil, Statement.passes, Packet.address,
        Packet.port, Bool.and_eq_true, beq_iff_eq]
      tauto
    rw [show rulesOf (controlledRules made.deadline.toNat made.limits) .output =
      deadlineRule made.deadline.toNat :: unusableRule :: bandwidthRule ::
        ([answerRule (encode "udp"), answerRule (encode "tcp")] ++ [dropRule]) from rfl,
      decision_guards, decision_accepting (by simp [answerRule]) rfl]
    simp only [List.exists_mem_cons_iff, passing, NameService]
    constructor
    · rintro ⟨early, known, slow, rest⟩
      exact ⟨⟨early, known, slow, by simp⟩, by simpa [or_and_right] using rest⟩
    · rintro ⟨⟨early, known, slow, _⟩, rest⟩
      exact ⟨early, known, slow, by simpa [or_and_right] using rest⟩
  · exact absurd rfl apart

end

/-! ## The whole program -/

/-- What a firewall program says about the bindings that it was compiled from. -/
structure FirewallExact (job : Bytes) (bindings : List Binding) (now : Int) (controlledDNS : Bool)
    (firewall : Firewall) : Prop where
  elements : ∀ family element, element ∈ elementsOf firewall.install (.allowed family) ↔
    PacketFilter.Family.of element.address = family ∧ Granted bindings element
  once : ∀ family, (elementsOf firewall.install (.allowed family)).Nodup
  named : ∀ name family timeout elements,
    Command.addSet name family timeout elements ∈ firewall.install → name = .allowed family
  deadline : ∃ earliest, (∃ binding ∈ bindings, binding.expires = earliest) ∧
    (∀ binding ∈ bindings, earliest ≤ binding.expires) ∧
    firewall.expires = ofUnixSeconds (unixSeconds earliest) ∧ 0 < unixSeconds earliest ∧
    writtenDeadline firewall.install = some (unixSeconds earliest).toNat
  later : now < firewall.expires
  installs : ∃ table, execute tableChains firewall.install none = some (some table) ∧
    Installed firewall table
  accepting : ∀ chain rule, Command.addRule chain rule ∈ firewall.install →
    rule.verdict = some .accept → AcceptRule firewall.families controlledDNS chain rule
  accepts : ∀ table, Installed firewall table → ∀ chain ∈ tableChains, ∃ rules,
    table.chains chain = some rules ∧ ∀ load packet,
      decision table.sets load packet rules = .accept ↔
        Admitted (unixSeconds firewall.expires).toNat firewall.limits.connections chain
          load packet ∧
          (chain = .forward ∧ Forwarded (Granted bindings) packet ∨
            controlledDNS = true ∧ NameService chain packet)
  controlled : ∀ plain, compileFirewall job bindings now false = .ok plain →
    firewall.chain .forward = plain.chain .forward ∧ plain.chain .input = [] ∧
      plain.chain .output = []
  refreshed : ∀ job' bindings' now' controlledDNS' next time extension program,
    compileFirewall job' bindings' now' controlledDNS' = .ok next →
    firewall.refresh next time extension = .ok program →
    next.limits = firewall.limits ∧ next.families = firewall.families ∧
      writtenDeadline program = some (unixSeconds next.expires).toNat ∧
      (∀ command ∈ program, Renews command) ∧
      (∀ family, elementsOf program (.allowed family) =
        elementsOf firewall.install (.allowed family)) ∧
      ∀ table, Installed firewall table → ∃ table',
        execute tableChains program (some table) = some (some table') ∧
          Installed next table' ∧ Untouched table table'

theorem ofUnixSeconds_gt {now deadline : Int} (later : unixSeconds now < deadline) :
    now < ofUnixSeconds deadline := by
  simp only [unixSeconds, ofUnixSeconds, Gateway.nanosecondsPerSecond] at later ⊢
  omega

/-- The only sets of elements are those of the grants. -/
theorem addSet_firewall {made : Assembly} {name : ObjectName} {family : PacketFilter.Family}
    {timeout : Nat} {elements : List Element}
    (inside : Command.addSet name family timeout elements ∈ made.firewall.install) :
    name = .allowed family := by
  have outside (entries : List (ObjectName × ChainRule)) :
      ¬ Command.addSet name family timeout elements ∈ rulesProgram entries := by
    intro member
    obtain ⟨_, _, same⟩ := List.mem_map.1 member
    simp at same
  simp only [Assembly.firewall, assemble, List.mem_append, outside, or_false] at inside
  rcases inside with ((table | set) | object) | controlled
  · simp at table
  · obtain ⟨_, _, same⟩ := List.mem_map.1 set
    simp only [Command.addSet.injEq] at same
    rw [← same.1, same.2.1]
  · simp [objectProgram] at object
  · split at controlled
    · exact absurd controlled (outside _)
    · simp at controlled

theorem elementsOf_refresh (firewall next : Firewall) (family : PacketFilter.Family)
    (rules : elementsOf next.rules (.allowed family) = [])
    (dnsRules : elementsOf next.dnsRules (.allowed family) = []) :
    elementsOf (refreshProgram firewall next) (.allowed family) =
      elementsOf next.sets (.allowed family) := by
  have deletes : elementsOf (firewall.families.map fun family => .deleteSet (.allowed family))
      (.allowed family) = [] := by
    unfold elementsOf
    rw [List.flatMap_eq_nil_iff]
    intro command member
    obtain ⟨_, _, rfl⟩ := List.mem_map.1 member
    rfl
  have controlled : elementsOf (if firewall.controlledDNS then
      [.flushChain .input, .flushChain .output] ++ next.dnsRules else []) (.allowed family) =
        [] := by
    split
    · rw [elementsOf_append, dnsRules]
      rfl
    · rfl
  unfold refreshProgram
  rw [elementsOf_append, elementsOf_append, elementsOf_append, elementsOf_append, deletes, rules,
    controlled]
  simp [elementsOf]

/-- The program is exact, for every job and every list of bindings that is accepted.

Proof: `compileFirewall_ok` gives the parts of the program, and each field is about one of them. -/
theorem firewall_exact (job : Bytes) (bindings : List Binding) (now : Int) (controlledDNS : Bool)
    (firewall : Firewall)
    (compiled : compileFirewall job bindings now controlledDNS = .ok firewall) :
    FirewallExact job bindings now controlledDNS firewall := by
  obtain ⟨made, rfl, rfl, dns, held, bounds, ⟨first, member, earliest⟩, deadline, later,
    positive⟩ := compileFirewall_ok job bindings now controlledDNS firewall compiled
  have seconds : unixSeconds made.firewall.expires = made.deadline := unixSeconds_ofUnixSeconds _
  constructor
  · intro family element
    rw [elementsOf_firewall, mem_values]
    exact held.exact family element
  · intro family
    rw [elementsOf_firewall]
    exact (List.mergeSort_perm _ _).nodup_iff.2 (held.nodup family)
  · intro name family timeout elements inside
    exact addSet_firewall inside
  · refine ⟨made.gathered.expires, ⟨first, member, earliest⟩, bounds,
      congrArg ofUnixSeconds deadline, deadline ▸ positive, ?_⟩
    rw [writtenDeadline_install, deadline]
  · exact ofUnixSeconds_gt later
  · exact execute_install made
  · exact fun chain rule inside accepts =>
      acceptRule_of_mem made ((addRule_firewall made).1 inside) accepts
  · intro table installed chain known
    refine ⟨_, installed.chains chain known, fun load packet => ?_⟩
    rw [seconds]
    by_cases forward : chain = .forward
    · subst forward
      simpa [NameService] using forward_accepts made load packet held table installed
    cases controlled : made.controlledDNS with
    | false => simp [quiet_chain controlled forward, forward, decision]
    | true =>
      simpa [forward] using
        controlled_accepts made load packet chain table.sets forward known controlled
  · intro plain again
    rw [dns false, Except.ok.injEq] at again
    subst again
    rw [forward_chain, forward_chain]
    exact ⟨rfl, quiet_chain rfl (by simp), quiet_chain rfl (by simp)⟩
  · intro job' bindings' now' controlledDNS' next time extension program compiled' refreshed
    obtain ⟨made', rfl, rfl, _, held', _⟩ :=
      compileFirewall_ok job' bindings' now' controlledDNS' next compiled'
    obtain ⟨_, grants, sameLimits, sameFamilies, sameDNS, _, _, rfl⟩ :=
      refresh_ok _ _ time extension program refreshed
    refine ⟨sameLimits.symm, sameFamilies.symm, ?_, renews_refresh made' _, fun family => ?_,
      fun table installed => ?_⟩
    · rw [writtenDeadline_refresh, show unixSeconds made'.firewall.expires = made'.deadline from
        unixSeconds_ofUnixSeconds _]
    · have same := grantsText_injective held held' sameFamilies grants family
      rw [elementsOf_refresh _ _ family (elementsOf_rules _ _) (elementsOf_dnsRules family made'),
        elementsOf_firewall, same]
      exact elementsOf_sets _ _ _
    · exact execute_refresh sameLimits sameDNS sameFamilies installed

/-- One host with one address of each family and one permission, for a minute. -/
def sampleBinding : Binding where
  job := sampleID 0x32
  hostname := encode "host.example"
  addresses := [.v4 0x08080808, .v6 0x20014860486000000000000000008888 []]
  permissions := [⟨encode "host.example", 443, .tcp⟩]
  limits := ⟨8, 4096⟩
  issued := ofUnixSeconds 1000
  expires := ofUnixSeconds 1060

theorem firewall_exact_compiled :
    ∃ firewall, compileFirewall (sampleID 0x32) [sampleBinding] (ofUnixSeconds 1001) true =
        .ok firewall ∧
      FirewallExact (sampleID 0x32) [sampleBinding] (ofUnixSeconds 1001) true firewall := by
  have accepted : (compileFirewall (sampleID 0x32) [sampleBinding] (ofUnixSeconds 1001)
      true).toOption.isSome = true := by decide +kernel
  cases compiled : compileFirewall (sampleID 0x32) [sampleBinding] (ofUnixSeconds 1001) true with
  | error => simp [compiled, Except.toOption] at accepted
  | ok firewall => exact ⟨firewall, rfl, firewall_exact _ _ _ _ _ compiled⟩

end ProvenanceRunner.Network
