import ProvenanceRunner.Library.PacketFilter
import ProvenanceRunner.Network.Bindings

/-! # The firewall of a job

The bindings of a job are compiled into one program for the packet filter of its routing namespace.
The program closes at the earliest expiry of a binding, rounded down to a second. Programs are lists
of commands; `Firewall.text` gives their lines. -/

namespace ProvenanceRunner.Network

open Utf8 Addresses
open PacketFilter (Command Rule Statement Element Table Side execute elementsText programText put)
open Gateway (second minute isCanonicalUUID zeroUUID)

/-- The objects of a job's table. -/
inductive ObjectName where
  | allowed (family : PacketFilter.Family)
  | connections
  | forwarded
  | bandwidthDenied
  | bandwidth
  | input
  | output
  | forward
deriving DecidableEq, Repr

def ObjectName.text : ObjectName → Bytes
  | .allowed family => encode "allowed" ++ family.number
  | .connections => encode "connections"
  | .forwarded => encode "forwarded"
  | .bandwidthDenied => encode "bandwidth_denied"
  | .bandwidth => encode "bandwidth"
  | .input => encode "input"
  | .output => encode "output"
  | .forward => encode "forward"

abbrev Program := List (Command ObjectName)

/-- An immutable snapshot. `sets`, `rules` and `dnsRules` are the parts of `install` that a refresh
writes again. -/
structure Firewall where
  table : Bytes
  install : Program
  remove : Program
  expires : Int
  issued : Int
  sets : Program
  rules : Program
  grants : Bytes
  families : List PacketFilter.Family
  limits : Limits
  controlledDNS : Bool
  dnsRules : Program
deriving DecidableEq, Repr

/-- The text of a program for the table of the firewall. -/
def Firewall.text (firewall : Firewall) (program : Program) : Bytes :=
  programText ObjectName.text firewall.table program

/-! ## The grants -/

/-- The elements of both families. They are told apart by their texts. -/
structure Grants where
  ip : List Element
  ip6 : List Element
deriving DecidableEq, Repr

def Grants.of (grants : Grants) : PacketFilter.Family → List Element
  | .ip => grants.ip
  | .ip6 => grants.ip6

def insertElement (element : Element) (elements : List Element) : List Element :=
  if elements.any (·.text == element.text) then elements else elements ++ [element]

def Grants.add (grants : Grants) (element : Element) : Grants :=
  if element.address.is6 then { grants with ip6 := insertElement element grants.ip6 }
  else { grants with ip := insertElement element grants.ip }

def Grants.size (grants : Grants) : Nat := grants.ip.length + grants.ip6.length

def elementOf (address : Addr) (permission : Permission) : Element :=
  ⟨address, permission.protocol.text, permission.port⟩

def grantable (binding : Binding) (permission : Permission) : Bool :=
  permission.hostname == binding.hostname && hostname permission.hostname &&
    !blockedPort permission.port && (permission.protocol == .tcp || permission.protocol == .udp)

def addPermissions (binding : Binding) (address : Addr) :
    List Permission → Grants → Except Failure Grants
  | [], grants => .ok grants
  | permission :: rest, grants =>
    if !grantable binding permission then .error .policy
    else
      let grants := grants.add (elementOf address permission)
      if 4096 < grants.size then .error .policy else addPermissions binding address rest grants

def addAddresses (binding : Binding) : List Addr → Grants → Except Failure Grants
  | [], grants => .ok grants
  | address :: rest, grants =>
    if !isPublic [] address then .error .policy
    else (addPermissions binding address binding.permissions grants).bind
      (addAddresses binding rest)

/-- What the bindings so far have given. -/
structure Gathered where
  expires : Int
  names : List Bytes
  grants : Grants
deriving DecidableEq, Repr

/-- A binding that belongs into the snapshot of the job. -/
def belongs (job : Bytes) (limits : Limits) (names : List Bytes) (binding : Binding) : Bool :=
  binding.job == job && binding.limits == limits && !names.contains binding.hostname &&
    !binding.addresses.isEmpty && decide (binding.addresses.length ≤ 64) &&
    !binding.permissions.isEmpty && decide (binding.permissions.length ≤ 128) &&
    decide (binding.expires - binding.issued ≤ 5 * minute)

def gather (job : Bytes) (limits : Limits) (now : Int) :
    List Binding → Gathered → Except Failure Gathered
  | [], gathered => .ok gathered
  | binding :: rest, gathered =>
    if !belongs job limits gathered.names binding then .error .policy
    else if !binding.validAt now then .error .expired
    else (addAddresses binding binding.addresses gathered.grants).bind fun grants =>
      gather job limits now rest
        { expires :=
            if binding.expires < gathered.expires then binding.expires else gathered.expires
          names := binding.hostname :: gathered.names
          grants := grants }

/-! ## The program -/

def families (grants : Grants) : List PacketFilter.Family :=
  [.ip, .ip6].filter fun family => !(grants.of family).isEmpty

/-- The elements of a family in the order of their texts. -/
def values (grants : Grants) (family : PacketFilter.Family) : List Element :=
  (grants.of family).mergeSort fun first second => !decide (second.text < first.text)

def familyIndex : PacketFilter.Family → Bytes
  | .ip => encode "0"
  | .ip6 => encode "1"

def grantsText (grants : Grants) : Bytes :=
  (families grants).flatMap fun family =>
    familyIndex family ++ encode ":" ++ elementsText (values grants family) ++ encode "\n"

def setProgram (grants : Grants) (timeout : Nat) : Program :=
  (families grants).map fun family =>
    .addSet (.allowed family) family timeout (values grants family)

def job0 : Bytes := encode "job0"

def wan0 : Bytes := encode "wan0"

/-- The workload and the controller on the job's link. -/
def workload4 : Addr := .v4 0x0A000102

def controller4 : Addr := .v4 0x0A000101

def workload6 : Addr := .v6 0xFD000001000000000000000000000002 []

example : Addresses.text workload4 = encode "10.0.1.2" := by decide +kernel

example : Addresses.text controller4 = encode "10.0.1.1" := by decide +kernel

example : Addresses.text workload6 = encode "fd00:1::2" := by decide +kernel

def jobAddress : PacketFilter.Family → Addr
  | .ip => workload4
  | .ip6 => workload6

abbrev ChainRule := Rule ObjectName

def deadlineRule (deadline : Nat) : ChainRule := ⟨[.timeFrom deadline, .count], some .drop⟩

def unusableRule : ChainRule := ⟨[.unusable, .count], some .drop⟩

def bandwidthRule : ChainRule := ⟨[.limited .bandwidth, .countIn .bandwidthDenied], some .drop⟩

def markRule : ChainRule := ⟨[.setMark 1], none⟩

def connectionsRule (connections : Nat) : ChainRule :=
  ⟨[.newOver .connections connections, .count], some .drop⟩

def dropRule : ChainRule := ⟨[.count], some .drop⟩

/-- Requests of the job to an allowed destination, and the replies. -/
def requestRule (family : PacketFilter.Family) : ChainRule :=
  ⟨[.received job0, .sent wan0, .direction false, .address family .source (jobAddress family),
    .listed family .destination (.allowed family), .countIn .forwarded], some .accept⟩

def replyRule (family : PacketFilter.Family) : ChainRule :=
  ⟨[.received wan0, .sent job0, .direction true, .established,
    .address family .destination (jobAddress family), .listed family .source (.allowed family),
    .countIn .forwarded], some .accept⟩

def forwardRules (deadline : Nat) (limits : Limits) (families : List PacketFilter.Family) :
    List ChainRule :=
  [deadlineRule deadline, unusableRule, bandwidthRule, markRule,
      connectionsRule limits.connections] ++
    families.flatMap (fun family => [requestRule family, replyRule family]) ++ [dropRule]

/-- Questions of the workload to the controller, and the answers. -/
def questionRule (transport : Bytes) : ChainRule :=
  ⟨[.received job0, .direction false, .address .ip .source workload4,
    .address .ip .destination controller4, .port transport .destination 53,
    .countIn .forwarded], some .accept⟩

def answerRule (transport : Bytes) : ChainRule :=
  ⟨[.sent job0, .direction true, .established, .address .ip .source controller4,
    .address .ip .destination workload4, .port transport .source 53, .countIn .forwarded],
    some .accept⟩

/-- The rules of the controlled name service, in the order in which they are written. -/
def controlledRules (deadline : Nat) (limits : Limits) : List (ObjectName × ChainRule) :=
  [ObjectName.input, .output].flatMap (fun chain =>
      [(chain, deadlineRule deadline), (chain, unusableRule), (chain, bandwidthRule)]) ++
    [(.input, markRule), (.input, connectionsRule limits.connections)] ++
    [encode "udp", encode "tcp"].flatMap (fun transport =>
      [(.input, questionRule transport), (.output, answerRule transport)]) ++
    [(.input, dropRule), (.output, dropRule)]

def rulesProgram (rules : List (ObjectName × ChainRule)) : Program :=
  rules.map fun entry => .addRule entry.1 entry.2

/-- The objects that outlive a refresh. -/
def objectProgram (limits : Limits) : Program :=
  [.addTracker .connections, .addCounter .forwarded, .addCounter .bandwidthDenied,
    .addLimit .bandwidth limits.bytesPerSecond, .addChain .input, .addChain .output,
    .addChain .forward]

def tableName (job : Bytes) : Bytes := encode "pv_" ++ job.filter (· != 0x2D)

/-- The firewall of what was gathered, closing at a second of the Unix era. -/
def assemble (job : Bytes) (limits : Limits) (gathered : Gathered) (now deadline : Int)
    (controlledDNS : Bool) : Firewall :=
  let timeout := ((gathered.expires - now) / 1000000).toNat
  let sets := setProgram gathered.grants timeout
  let rules := rulesProgram
    ((forwardRules deadline.toNat limits (families gathered.grants)).map (ObjectName.forward, ·))
  let dnsRules :=
    if controlledDNS then rulesProgram (controlledRules deadline.toNat limits) else []
  { table := tableName job
    install := [.createTable] ++ sets ++ objectProgram limits ++ rules ++ dnsRules
    remove := [.deleteTable]
    expires := ofUnixSeconds deadline
    issued := now
    sets := sets
    rules := rules
    grants := grantsText gathered.grants
    families := families gathered.grants
    limits := limits
    controlledDNS := controlledDNS
    dnsRules := dnsRules }

def uint32Max : Nat := 4294967295

def validLimits (limits : Limits) : Bool :=
  limits.connections != 0 && decide (limits.connections ≤ uint32Max) &&
    limits.bytesPerSecond != 0 && decide (limits.bytesPerSecond ≤ uint32Max)

def compileFirewall (job : Bytes) (bindings : List Binding) (now : Int) (controlledDNS : Bool) :
    Except Failure Firewall :=
  match bindings with
  | [] => .error .policy
  | first :: _ =>
    if !isCanonicalUUID job || job == zeroUUID || now == 0 || decide (128 < bindings.length) then
      .error .policy
    else if !validLimits first.limits then .error .policy
    else (gather job first.limits now bindings ⟨first.expires, [], ⟨[], []⟩⟩).bind fun gathered =>
      let deadline := unixSeconds gathered.expires
      if deadline ≤ unixSeconds now ∨ deadline ≤ 0 ∨ (uint32Max : Int) < deadline then
        .error .expired
      else .ok (assemble job first.limits gathered now deadline controlledDNS)

/-! ## Refreshing and withdrawing -/

def Firewall.refresh (firewall next : Firewall) (now : Int) (extension : Bool) :
    Except Failure Program :=
  if firewall.table.isEmpty || firewall.install.isEmpty || next.table != firewall.table ||
      next.install.isEmpty || firewall.grants != next.grants || firewall.limits != next.limits ||
      firewall.families != next.families || firewall.controlledDNS != next.controlledDNS then
    .error .policy
  else if now = 0 ∨ now < firewall.issued ∨ now < next.issued ∨ firewall.expires ≤ now ∨
      next.expires ≤ now ∨ (extension = true ∧ next.expires ≤ firewall.expires) then
    .error .expired
  else .ok ([.flushChain .forward] ++
    firewall.families.map (fun family => .deleteSet (.allowed family)) ++ next.sets ++
    next.rules ++
    if firewall.controlledDNS then [.flushChain .input, .flushChain .output] ++ next.dnsRules
    else [])

def Firewall.withdraw (firewall : Firewall) : Except Failure Program :=
  if firewall.table.isEmpty || firewall.install.isEmpty then .error .policy
  else .ok ([.flushChain .forward] ++
    if firewall.controlledDNS then [.flushChain .input, .flushChain .output] else [])

end ProvenanceRunner.Network
