import ProvenanceRunner.Library.Addresses

/-! # A packet filter with named objects

The part of a packet filter's language that a program of commands needs: one table with sets, a
tracker of connections, counters, rate limits and chains of rules. Names are of any type that can be
written. Three things are said about a command: the line that it is written as, what it does to a
table, and, for the rules of a chain, what they decide about a packet.

The frame lemmas say which commands leave an object alone, whatever the object holds. -/

namespace ProvenanceRunner.PacketFilter

open Utf8 Addresses Numerals

inductive Family where
  | ip
  | ip6
deriving DecidableEq, Repr

inductive Side where
  | source
  | destination
deriving DecidableEq, Repr

/-- An address with a transport protocol and a port of it. -/
structure Element where
  address : Addr
  protocol : Bytes
  port : Nat
deriving DecidableEq, Repr

inductive Statement (N : Type) where
  | timeFrom (seconds : Nat)
  | unusable
  | limited (limit : N)
  | count
  | countIn (counter : N)
  | setMark (mark : Nat)
  | newOver (tracker : N) (limit : Nat)
  | received (interface : Bytes)
  | sent (interface : Bytes)
  | direction (reply : Bool)
  | established
  | address (family : Family) (side : Side) (value : Addr)
  | listed (family : Family) (side : Side) (set : N)
  | port (protocol : Bytes) (side : Side) (value : Nat)
deriving DecidableEq, Repr

inductive Verdict where
  | accept
  | drop
deriving DecidableEq, Repr

/-- Statements in order, and the verdict when all of them pass. -/
structure Rule (N : Type) where
  statements : List (Statement N)
  verdict : Option Verdict
deriving DecidableEq, Repr

inductive Command (N : Type) where
  | createTable
  | deleteTable
  | addSet (set : N) (family : Family) (timeout : Nat) (elements : List Element)
  | addTracker (tracker : N)
  | addCounter (counter : N)
  | addLimit (limit : N) (bytesPerSecond : Nat)
  | addChain (chain : N)
  | addRule (chain : N) (rule : Rule N)
  | flushChain (chain : N)
  | deleteSet (set : N)
deriving DecidableEq, Repr

/-! ## Text -/

def Family.number : Family → Bytes
  | .ip => encode "4"
  | .ip6 => encode "6"

def Family.text : Family → Bytes
  | .ip => encode "ip"
  | .ip6 => encode "ip6"

def Side.address : Side → Bytes
  | .source => encode "saddr"
  | .destination => encode "daddr"

def Side.port : Side → Bytes
  | .source => encode "sport"
  | .destination => encode "dport"

def Element.text (element : Element) : Bytes :=
  Addresses.text element.address ++ encode " . " ++ element.protocol ++ encode " . " ++
    decimal element.port

/-- An element whose text can be read back: a plain address and a protocol without blanks, commas
and line ends. -/
def Element.isPlain (element : Element) : Bool :=
  element.address.isPlain && element.protocol.all fun byte =>
    byte != 0x20 && byte != 0x2C && byte != 0x0A

theorem addressByte_ne {byte : UInt8} (isAddress : isAddressByte byte = true) :
    byte ≠ 0x20 ∧ byte ≠ 0x2C ∧ byte ≠ 0x0A := by
  refine ⟨?_, ?_, ?_⟩ <;> rintro rfl <;> exact absurd isAddress (by decide)

theorem decimal_ne (value : Nat) : ∀ byte ∈ decimal value, byte ≠ 0x20 ∧ byte ≠ 0x2C ∧
    byte ≠ 0x0A :=
  fun byte member =>
    addressByte_ne (isAddressByte_numeral 10 value (by decide) (by decide) byte member)

theorem encode_point : encode " . " = [0x20, 0x2E, 0x20] := by decide +kernel

/-- No comma and no line end is in the text of a plain element. -/
theorem Element.text_clean {element : Element} (plain : element.isPlain = true) :
    (0x2C : UInt8) ∉ element.text ∧ (0x0A : UInt8) ∉ element.text := by
  simp only [Element.isPlain, Bool.and_eq_true, List.all_eq_true, bne_iff_ne, ne_eq] at plain
  obtain ⟨address, protocol⟩ := plain
  have clean (byte : UInt8) (member : byte ∈ element.text) : byte ≠ 0x2C ∧ byte ≠ 0x0A := by
    simp only [Element.text, encode_point, List.mem_append, List.mem_cons, List.not_mem_nil,
      or_false] at member
    rcases member with (((inside | point) | inside) | point) | inside
    · exact (addressByte_ne (text_bytes address byte inside)).2
    · rcases point with rfl | rfl | rfl <;> decide
    · exact ⟨(protocol byte inside).1.2, (protocol byte inside).2⟩
    · rcases point with rfl | rfl | rfl <;> decide
    · exact (decimal_ne _ byte inside).2
  exact ⟨fun member => (clean _ member).1 rfl, fun member => (clean _ member).2 rfl⟩

/-- The text of a plain element determines it. -/
theorem Element.text_injective {first second : Element} (plain : first.isPlain = true)
    (plain' : second.isPlain = true) (same : first.text = second.text) : first = second := by
  obtain ⟨_, _, _⟩ := first
  obtain ⟨_, _, _⟩ := second
  simp only [Element.isPlain, Bool.and_eq_true, List.all_eq_true, bne_iff_ne, ne_eq] at plain plain'
  have blank {element : Addr} (plain : element.isPlain = true) :
      (0x20 : UInt8) ∉ Addresses.text element :=
    fun member => (addressByte_ne (text_bytes plain _ member)).1 rfl
  simp only [Element.text, encode_point, List.append_assoc, List.cons_append,
    List.nil_append] at same
  obtain ⟨first, later⟩ := append_terminator_injective (blank plain.1) (blank plain'.1) same
  simp only [List.cons.injEq, true_and] at later
  obtain ⟨rfl, last⟩ := append_terminator_injective
    (fun member => (plain.2 _ member).1.1 rfl) (fun member => (plain'.2 _ member).1.1 rfl) later
  simp only [List.cons.injEq, true_and] at last
  rw [Addresses.text_injective plain.1 plain'.1 first, decimal_injective last]

section

variable {N : Type} (name : N → Bytes)

def Statement.text : Statement N → Bytes
  | .timeFrom seconds => encode "meta time >= " ++ decimal seconds
  | .unusable => encode "ct state invalid,untracked"
  | .limited limit => encode "limit name " ++ name limit
  | .count => encode "counter"
  | .countIn counter => encode "counter name " ++ name counter
  | .setMark mark => encode "meta mark set " ++ decimal mark
  | .newOver tracker limit => encode "ct state new add @" ++ name tracker ++
      encode " \x7b meta mark ct count over " ++ decimal limit ++ encode " \x7d"
  | .received interface => encode "iifname \"" ++ interface ++ encode "\""
  | .sent interface => encode "oifname \"" ++ interface ++ encode "\""
  | .direction false => encode "ct direction original"
  | .direction true => encode "ct direction reply"
  | .established => encode "ct state established"
  | .address family side value =>
    family.text ++ encode " " ++ side.address ++ encode " " ++ Addresses.text value
  | .listed family side set => family.text ++ encode " " ++ side.address ++
      encode " . meta l4proto . th " ++ side.port ++ encode " @" ++ name set
  | .port protocol side value =>
    protocol ++ encode " " ++ side.port ++ encode " " ++ decimal value

def Verdict.text : Verdict → Bytes
  | .accept => encode "accept"
  | .drop => encode "drop"

def Rule.text (rule : Rule N) : Bytes :=
  (encode " ").intercalate
    (rule.statements.map (Statement.text name) ++ (rule.verdict.map Verdict.text).toList)

def elementsText (elements : List Element) : Bytes :=
  (encode ", ").intercalate (elements.map Element.text)

theorem encode_comma : encode ", " = [0x2C, 0x20] := by decide +kernel

/-- Elements in order are determined by their text. -/
theorem elementsText_injective {first second : List Element}
    (plain : ∀ element ∈ first, element.isPlain = true)
    (plain' : ∀ element ∈ second, element.isPlain = true) (nonempty : first ≠ [])
    (nonempty' : second ≠ []) (same : elementsText first = elementsText second) :
    first = second := by
  unfold elementsText at same
  rw [encode_comma] at same
  have clean {elements : List Element} (plain : ∀ element ∈ elements, element.isPlain = true) :
      ∀ field ∈ elements.map Element.text, (0x2C : UInt8) ∉ field := by
    intro field member
    obtain ⟨element, found, rfl⟩ := List.mem_map.1 member
    exact (Element.text_clean (plain element found)).1
  have texts := intercalate_cons_injective 0x2C (by decide) (clean plain) (clean plain')
    (by simpa using nonempty) (by simpa using nonempty') same
  exact map_injective_of_mem Element.text first second
    (fun element member element' member' same =>
      Element.text_injective (plain element member) (plain' element' member') same) texts

/-- The line of a command, about the given table. -/
def Command.text (table : Bytes) : Command N → Bytes
  | .createTable => encode "create table inet " ++ table ++ encode "\n"
  | .deleteTable => encode "delete table inet " ++ table ++ encode "\n"
  | .addSet set family timeout elements => encode "add set inet " ++ table ++ encode " " ++
      name set ++ encode " \x7b type ipv" ++ family.number ++
      encode "_addr . inet_proto . inet_service; flags timeout; timeout " ++ decimal timeout ++
      encode "ms; size 4096; elements = \x7b " ++ elementsText elements ++ encode " \x7d; \x7d\n"
  | .addTracker tracker => encode "add set inet " ++ table ++ encode " " ++ name tracker ++
      encode " \x7b type mark; flags dynamic; size 1; \x7d\n"
  | .addCounter counter => encode "add counter inet " ++ table ++ encode " " ++ name counter ++
      encode "\n"
  | .addLimit limit bytesPerSecond => encode "add limit inet " ++ table ++ encode " " ++
      name limit ++ encode " \x7b rate over " ++ decimal bytesPerSecond ++
      encode " bytes/second burst 0 bytes; \x7d\n"
  | .addChain chain => encode "add chain inet " ++ table ++ encode " " ++ name chain ++
      encode " \x7b type filter hook " ++ name chain ++ encode " priority 0; policy drop; \x7d\n"
  | .addRule chain rule => encode "add rule inet " ++ table ++ encode " " ++ name chain ++
      encode " " ++ rule.text name ++ encode "\n"
  | .flushChain chain => encode "flush chain inet " ++ table ++ encode " " ++ name chain ++
      encode "\n"
  | .deleteSet set => encode "delete set inet " ++ table ++ encode " " ++ name set ++ encode "\n"

def programText (table : Bytes) (program : List (Command N)) : Bytes :=
  program.flatMap (Command.text name table)

end

/-! ## Tables -/

/-- A set of elements, or the marks that a tracker has seen. -/
inductive SetObject where
  | elements (elements : List Element)
  | marks (marks : List Nat)
deriving DecidableEq, Repr

structure Count where
  packets : Nat
  bytes : Nat
deriving DecidableEq, Repr

/-- A token bucket with its rate and what is left in it. -/
structure Bucket where
  bytesPerSecond : Nat
  left : Nat
deriving DecidableEq, Repr

/-- The objects of a table. Every chain drops what its rules do not decide. -/
structure Table (N : Type) where
  sets : N → Option SetObject
  counters : N → Option Count
  limits : N → Option Bucket
  chains : N → Option (List (Rule N))

def Table.empty {N : Type} : Table N where
  sets _ := none
  counters _ := none
  limits _ := none
  chains _ := none

/-- One entry of a map is replaced. -/
def put {N α : Type} [DecidableEq N] (map : N → Option α) (name : N) (value : Option α) :
    N → Option α :=
  fun other => if other = name then value else map other

section

variable {N α : Type} [DecidableEq N]

@[simp] theorem put_same (map : N → Option α) (name : N) (value : Option α) :
    put map name value name = value := by
  simp [put]

@[simp] theorem put_other (map : N → Option α) {name other : N} (value : Option α)
    (different : other ≠ name) : put map name value other = map other := by
  simp [put, different]

/-- The sets that a statement looks into. -/
def Statement.sets : Statement N → List N
  | .newOver tracker _ => [tracker]
  | .listed _ _ set => [set]
  | _ => []

def Statement.counters : Statement N → List N
  | .countIn counter => [counter]
  | _ => []

def Statement.limits : Statement N → List N
  | .limited limit => [limit]
  | _ => []

/-- Every object that a rule names is there. -/
def Rule.resolved (rule : Rule N) (table : Table N) : Bool :=
  rule.statements.all fun statement => statement.sets.all (fun set => (table.sets set).isSome) &&
    statement.counters.all (fun counter => (table.counters counter).isSome) &&
    statement.limits.all (fun limit => (table.limits limit).isSome)

/-- A rule that looks into the set. -/
def Rule.uses (rule : Rule N) (set : N) : Bool :=
  rule.statements.any fun statement => statement.sets.contains set

/-- No rule of the chains looks into the set, so that it can be deleted. -/
def Table.free (chains : List N) (table : Table N) (set : N) : Bool :=
  chains.all fun chain => (table.chains chain).all fun rules => rules.all (!·.uses set)

/-- What one command does; `none` where the kernel refuses it. A table has chains with the given
names at most. Adding what is there already adds only elements. -/
def Command.execute (chains : List N) : Command N → Option (Table N) → Option (Option (Table N))
  | .createTable, none => some (some .empty)
  | .createTable, some _ => none
  | .deleteTable, some _ => some none
  | .addSet set _ _ elements, some table =>
    match table.sets set with
    | none => some (some { table with sets := put table.sets set (some (.elements elements)) })
    | some (.elements known) =>
      some (some { table with sets := put table.sets set (some (.elements (known ++ elements))) })
    | some (.marks _) => none
  | .addTracker tracker, some table =>
    match table.sets tracker with
    | none => some (some { table with sets := put table.sets tracker (some (.marks [])) })
    | some (.elements _) => none
    | some (.marks _) => some (some table)
  | .addCounter counter, some table =>
    if (table.counters counter).isSome then some (some table)
    else some (some { table with counters := put table.counters counter (some ⟨0, 0⟩) })
  | .addLimit limit rate, some table =>
    if (table.limits limit).isSome then some (some table)
    else some (some { table with limits := put table.limits limit (some ⟨rate, rate⟩) })
  | .addChain chain, some table =>
    if !chains.contains chain then none
    else if (table.chains chain).isSome then some (some table)
    else some (some { table with chains := put table.chains chain (some []) })
  | .addRule chain rule, some table =>
    match table.chains chain with
    | none => none
    | some rules =>
      if rule.resolved table then
        some (some { table with chains := put table.chains chain (some (rules ++ [rule])) })
      else none
  | .flushChain chain, some table =>
    if (table.chains chain).isSome then
      some (some { table with chains := put table.chains chain (some []) })
    else none
  | .deleteSet set, some table =>
    if (table.sets set).isSome && table.free chains set then
      some (some { table with sets := put table.sets set none })
    else none
  | _, none => none

/-- A batch takes effect as a whole or not at all. -/
def execute (chains : List N) (program : List (Command N)) (table : Option (Table N)) :
    Option (Option (Table N)) :=
  program.foldlM (fun state command => command.execute chains state) table

variable (chains : List N)

@[simp] theorem execute_nil (table : Option (Table N)) :
    execute chains [] table = some table := rfl

theorem execute_cons (command : Command N) (program : List (Command N)) (table : Option (Table N)) :
    execute chains (command :: program) table =
      (command.execute chains table).bind (execute chains program) := by
  simp only [execute, List.foldlM_cons, Option.bind_eq_bind]
  rfl

theorem execute_append (first second : List (Command N)) (table : Option (Table N)) :
    execute chains (first ++ second) table =
      (execute chains first table).bind (execute chains second) := by
  simp only [execute, List.foldlM_append, Option.bind_eq_bind]
  rfl

/-- The rules that a list of entries has for a chain. -/
def rulesOf (entries : List (N × Rule N)) (chain : N) : List (Rule N) :=
  (entries.filter (·.1 = chain)).map (·.2)

theorem rulesOf_append (first second : List (N × Rule N)) (chain : N) :
    rulesOf (first ++ second) chain = rulesOf first chain ++ rulesOf second chain := by
  simp [rulesOf]

/-- Rules that are all for one chain. -/
theorem rulesOf_chain (rules : List (Rule N)) (name chain : N) :
    rulesOf (rules.map (name, ·)) chain = if chain = name then rules else [] := by
  unfold rulesOf
  by_cases here : chain = name
  · simp [here, List.filter_map, Function.comp_def]
  · simp [here, Ne.symm here, List.filter_map, Function.comp_def]

/-- A batch of rules for chains that are there: each chain gets its rules in order. -/
theorem execute_addRules (entries : List (N × Rule N)) (table : Table N)
    (there : ∀ entry ∈ entries, (table.chains entry.1).isSome = true)
    (resolved : ∀ entry ∈ entries, entry.2.resolved table = true) :
    execute chains (entries.map fun entry => .addRule entry.1 entry.2) (some table) =
      some (some { table with
        chains := fun chain => (table.chains chain).map (· ++ rulesOf entries chain) }) := by
  induction entries generalizing table with
  | nil => simp [rulesOf]
  | cons entry entries added =>
    obtain ⟨chain, rule⟩ := entry
    obtain ⟨_, known⟩ := Option.isSome_iff_exists.1 (there (chain, rule) (by simp))
    rw [List.map_cons, execute_cons]
    simp only [Command.execute, known]
    rw [if_pos (resolved (chain, rule) (by simp)), Option.bind_some, added]
    · simp only [Option.some.injEq, Table.mk.injEq, true_and]
      funext other
      by_cases here : other = chain
      · subst here
        simp [known, rulesOf]
      · rw [put_other _ _ here]
        simp [rulesOf, Ne.symm here]
    · intro other member
      dsimp only
      by_cases here : other.1 = chain
      · simp [here]
      · rw [put_other _ _ here]
        exact there other (List.mem_cons_of_mem _ member)
    · intro other member
      exact resolved other (List.mem_cons_of_mem _ member)

variable {κ : Type}

/-- A batch that deletes sets which no rule looks into. -/
theorem execute_deleteSets (name : κ → N) (keys : List κ) (table : Table N)
    (distinct : (keys.map name).Nodup) (there : ∀ key ∈ keys, (table.sets (name key)).isSome = true)
    (free : ∀ key ∈ keys, table.free chains (name key) = true) :
    execute chains (keys.map fun key => .deleteSet (name key)) (some table) =
      some (some { table with
        sets := fun set => if set ∈ keys.map name then none else table.sets set }) := by
  induction keys generalizing table with
  | nil => simp
  | cons key keys deleted =>
    simp only [List.map_cons, List.nodup_cons] at distinct
    rw [List.map_cons, execute_cons]
    simp only [Command.execute]
    rw [if_pos (by simp [there key (by simp), free key (by simp)]), Option.bind_some, deleted]
    · simp only [Option.some.injEq, Table.mk.injEq, and_true]
      funext other
      by_cases here : other = name key
      · simp [here]
      · simp [put_other, here]
    · exact distinct.2
    · intro other member
      have apart : name other ≠ name key := by
        intro same
        exact distinct.1 (same ▸ List.mem_map_of_mem member)
      dsimp only
      rw [put_other _ _ apart]
      exact there other (List.mem_cons_of_mem _ member)
    · intro other member
      exact free other (List.mem_cons_of_mem _ member)

/-- A batch of sets that were not there. -/
theorem execute_addSets (name : κ → N) (family : κ → Family) (timeout : Nat)
    (value : κ → List Element) (keys : List κ) (table : Table N) (distinct : (keys.map name).Nodup)
    (absent : ∀ key ∈ keys, table.sets (name key) = none) :
    ∃ sets, execute chains
        (keys.map fun key => .addSet (name key) (family key) timeout (value key)) (some table) =
          some (some { table with sets := sets }) ∧
      (∀ key ∈ keys, sets (name key) = some (.elements (value key))) ∧
      ∀ set, set ∉ keys.map name → sets set = table.sets set := by
  induction keys generalizing table with
  | nil => exact ⟨table.sets, by simp, by simp, by simp⟩
  | cons key keys added =>
    simp only [List.map_cons, List.nodup_cons] at distinct
    have apart (other : κ) (member : other ∈ keys) : name other ≠ name key := by
      intro same
      exact distinct.1 (same ▸ List.mem_map_of_mem member)
    obtain ⟨sets, run, mine, others⟩ := added
      { table with sets := put table.sets (name key) (some (.elements (value key))) } distinct.2
      (fun other member => by
        dsimp only
        rw [put_other _ _ (apart other member)]
        exact absent other (List.mem_cons_of_mem _ member))
    refine ⟨sets, ?_, ?_, ?_⟩
    · rw [List.map_cons, execute_cons]
      simp only [Command.execute, absent key (by simp)]
      exact run
    · intro other member
      rcases List.mem_cons.1 member with rfl | member
      · rw [others _ distinct.1]
        simp
      · exact mine other member
    · intro set outside
      simp only [List.map_cons, List.mem_cons, not_or] at outside
      rw [others set outside.2]
      exact put_other _ _ outside.1

end

/-! ## Packets -/

inductive ConnectionState where
  | new
  | established
  | related
  | invalid
  | untracked
deriving DecidableEq, Repr

structure Packet where
  seconds : Nat
  received : Bytes
  sent : Bytes
  source : Addr
  destination : Addr
  protocol : Bytes
  sourcePort : Nat
  destinationPort : Nat
  reply : Bool
  state : ConnectionState
deriving DecidableEq, Repr

def Packet.address (packet : Packet) : Side → Addr
  | .source => packet.source
  | .destination => packet.destination

def Packet.port (packet : Packet) : Side → Nat
  | .source => packet.sourcePort
  | .destination => packet.destinationPort

def Family.of (addr : Addr) : Family := if addr.is6 then .ip6 else .ip

/-- Whether the limits and the trackers have been used up when a packet arrives. -/
structure Load (N : Type) where
  limited : N → Bool
  newOver : N → Nat → Bool

section

variable {N : Type}

/-- Whether a packet gets past a statement. -/
def Statement.passes (sets : N → Option SetObject) (load : Load N) (packet : Packet) :
    Statement N → Bool
  | .timeFrom seconds => decide (seconds ≤ packet.seconds)
  | .unusable => packet.state == .invalid || packet.state == .untracked
  | .limited limit => load.limited limit
  | .count | .countIn _ | .setMark _ => true
  | .newOver tracker limit => packet.state == .new && load.newOver tracker limit
  | .received interface => packet.received == interface
  | .sent interface => packet.sent == interface
  | .direction reply => packet.reply == reply
  | .established => packet.state == .established
  | .address _ side value => packet.address side == value
  | .listed family side set =>
    Family.of (packet.address side) == family &&
      match sets set with
      | some (.elements elements) =>
        elements.contains ⟨packet.address side, packet.protocol, packet.port side⟩
      | _ => false
  | .port protocol side value => packet.protocol == protocol && packet.port side == value

/-- The first rule with a verdict decides; without one the packet is dropped. -/
def decision (sets : N → Option SetObject) (load : Load N) (packet : Packet)
    (rules : List (Rule N)) : Verdict :=
  (rules.findSome? fun rule =>
    if rule.statements.all (·.passes sets load packet) then rule.verdict else none).getD .drop

variable {sets : N → Option SetObject} {load : Load N} {packet : Packet} {first last : Rule N}
  {rules : List (Rule N)}

theorem decision_cons : decision sets load packet (first :: rules) =
    if first.statements.all (·.passes sets load packet) = true then
      first.verdict.getD (decision sets load packet rules)
    else decision sets load packet rules := by
  unfold decision
  rw [List.findSome?_cons]
  by_cases passes : first.statements.all (·.passes sets load packet) = true
  · rw [if_pos passes, if_pos passes]
    cases first.verdict <;> rfl
  · rw [if_neg passes, if_neg passes]

/-- What is accepted behind a rule that drops has not passed that rule. -/
theorem decision_cons_drop (drops : first.verdict = some .drop) :
    decision sets load packet (first :: rules) = .accept ↔
      first.statements.all (·.passes sets load packet) = false ∧
        decision sets load packet rules = .accept := by
  rw [decision_cons, drops]
  split
  · next passes => simp [passes]
  · next passes => simp [passes]

theorem decision_cons_none (silent : first.verdict = none) :
    decision sets load packet (first :: rules) = decision sets load packet rules := by
  rw [decision_cons, silent, Option.getD_none, ite_self]

/-- Rules that accept, and a last one that drops, accept what passes one of them. -/
theorem decision_accepting (accepting : ∀ rule ∈ rules, rule.verdict = some .accept)
    (drops : last.verdict = some .drop) :
    decision sets load packet (rules ++ [last]) = .accept ↔
      ∃ rule ∈ rules, rule.statements.all (·.passes sets load packet) = true := by
  induction rules with
  | nil =>
    rw [List.nil_append, decision_cons_drop drops]
    simp [decision]
  | cons first rest later =>
    obtain ⟨accepts, accepting⟩ := List.forall_mem_cons.1 accepting
    rw [List.cons_append, decision_cons, accepts, List.exists_mem_cons_iff, ← later accepting]
    split
    · next passes => simp [passes]
    · next passes => simp [passes]

end

end ProvenanceRunner.PacketFilter
