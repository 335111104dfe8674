import ProvenanceRunner.Library.Addresses
import ProvenanceRunner.Network.Wire
import ProvenanceRunner.Network.WireEnd

/-! # Bindings of host names to addresses

A binder resolves the host names of one job through a resolver that it does not trust. It asks for
both address families, refuses anything but public addresses, and pins the first complete set of
addresses of each name. The DNS library and the digest are parameters; a call of the binder takes
what the outside answers during it. -/

namespace ProvenanceRunner.Network

open Utf8 Addresses
open Gateway (second minute toLower isCanonicalUUID zeroUUID)

inductive Failure where
  | policy
  | denied
  | dns
  | rebinding
  | expired
  | authority
  | authorityWithdrawn
  | actuation
deriving DecidableEq, Repr

inductive Protocol where
  | tcp
  | udp
  | other (text : Bytes)
deriving DecidableEq, Repr

def Protocol.text : Protocol → Bytes
  | .tcp => encode "tcp"
  | .udp => encode "udp"
  | .other text => text

/-- One indivisible grant. -/
structure Permission where
  hostname : Bytes
  port : Nat
  protocol : Protocol
deriving DecidableEq, Repr

structure Limits where
  connections : Nat
  bytesPerSecond : Nat
deriving DecidableEq, Repr

inductive Mode where
  | none
  | restricted
  | allowlist
  | other (text : Bytes)
deriving DecidableEq, Repr

structure Options where
  jobID : Bytes
  mode : Mode
  permissions : List Permission
  limits : Limits
  sensitiveNetworks : List Network
  maximumTTL : Int
deriving DecidableEq, Repr

/-- What a resolution has established, with its lifetime. -/
structure Binding where
  job : Bytes
  hostname : Bytes
  addresses : List Addr
  permissions : List Permission
  limits : Limits
  issued : Int
  expires : Int
deriving DecidableEq, Repr

def Binding.validAt (binding : Binding) (now : Int) : Bool :=
  !binding.job.isEmpty && now != 0 && decide (binding.issued ≤ now) &&
    decide (now < binding.expires)

/-! ## Public addresses -/

/-- Special-purpose networks. -/
def special : List Network :=
  [network4 0 0 0 0 8, network4 10 0 0 0 8, network4 100 64 0 0 10, network4 127 0 0 0 8,
    network4 169 254 0 0 16, network4 172 16 0 0 12, network4 192 0 0 0 24, network4 192 0 2 0 24,
    network4 192 31 196 0 24, network4 192 52 193 0 24, network4 192 88 99 0 24,
    network4 192 168 0 0 16, network4 192 175 48 0 24, network4 198 18 0 0 15,
    network4 198 51 100 0 24, network4 203 0 113 0 24, network4 224 0 0 0 4, network4 240 0 0 0 4,
    network6 0x2001 0 0 23, network6 0x2001 0xdb8 0 32, network6 0x2002 0 0 16,
    network6 0x2620 0x4f 0x8000 48, network6 0x3fff 0 0 20]

def globalIPv6 : Network := network6 0x2000 0 0 3

def isPublic (sensitive : List Network) (addr : Addr) : Bool :=
  addr.isValid && addr.zone.isEmpty && !addr.is4In6 && addr.isGlobalUnicast && !addr.isPrivate &&
    !(addr.is6 && !globalIPv6.contains addr) && !special.any (·.contains addr) &&
    !sensitive.any (·.contains addr)

theorem isPublic_plain {sensitive : List Network} {addr : Addr}
    (isPublic : isPublic sensitive addr = true) : addr.isPlain = true := by
  simp only [Network.isPublic, Bool.and_eq_true, Bool.not_eq_true'] at isPublic
  obtain ⟨⟨⟨⟨⟨⟨⟨valid, zone⟩, unmapped⟩, _⟩, _⟩, _⟩, _⟩, _⟩ := isPublic
  simp [Addr.isPlain, valid, zone, unmapped]

/-! ## The binder -/

structure Binder where
  job : Bytes
  permissions : Bytes → List Permission
  limits : Limits
  sensitive : List Network
  maxTTL : Int
  pins : Bytes → Option Bytes
  poisoned : Bytes → Bool

/-- Ports first, then protocols. -/
def Permission.before (first second : Permission) : Bool :=
  decide (first.port < second.port) ||
    (first.port == second.port && decide (first.protocol.text < second.protocol.text))

def insertPermission (permission : Permission) : List Permission → List Permission
  | [] => [permission]
  | next :: rest =>
    if next.before permission then next :: insertPermission permission rest
    else permission :: next :: rest

def sortPermissions (permissions : List Permission) : List Permission :=
  permissions.foldr insertPermission []

def validNetwork (network : Network) : Bool :=
  network.isValid && network.isMasked && !network.address.is4In6 && network.address.zone.isEmpty

/-- No permission is given twice, and each of them is one that can be granted. -/
def validGrants : List Permission → Bool
  | [] => true
  | permission :: rest => hostname permission.hostname && !blockedPort permission.port &&
      (permission.protocol == .tcp || permission.protocol == .udp) &&
      !rest.contains permission && validGrants rest

/-- Whether the options are accepted; `resolver` tells whether there is a resolver. -/
def validOptions (options : Options) (resolver : Bool) : Bool :=
  isCanonicalUUID options.jobID && options.jobID != zeroUUID &&
    !options.sensitiveNetworks.isEmpty && decide (options.sensitiveNetworks.length ≤ 256) &&
    options.sensitiveNetworks.all validNetwork &&
    (match options.mode with
      | .none => options.permissions.isEmpty && options.limits == ⟨0, 0⟩ && options.maximumTTL == 0
      | .restricted | .allowlist => resolver && !options.permissions.isEmpty &&
          decide (options.permissions.length ≤ 128) && options.limits.connections != 0 &&
          options.limits.bytesPerSecond != 0 && decide (second ≤ options.maximumTTL) &&
          decide (options.maximumTTL ≤ 5 * minute)
      | .other _ => false) &&
    validGrants options.permissions

def newBinder (options : Options) (resolver : Bool) : Except Failure Binder :=
  if validOptions options resolver then
    .ok
      { job := options.jobID
        permissions := fun name => sortPermissions (options.permissions.filter (·.hostname == name))
        limits := options.limits
        sensitive := options.sensitiveNetworks
        maxTTL := options.maximumTTL
        pins := fun _ => none
        poisoned := fun _ => false }
  else .error .policy

/-! ## DNS messages -/

inductive RecordBody where
  | cname (target : Bytes)
  | a (value : BitVec 32)
  | aaaa (value : BitVec 128)
  | other
deriving DecidableEq, Repr

structure Record where
  name : Bytes
  isInternet : Bool
  ttl : UInt32
  length : Nat
  body : RecordBody
deriving DecidableEq, Repr

inductive Family where
  | a
  | aaaa
deriving DecidableEq, Repr

structure Question where
  name : Bytes
  family : Family
deriving DecidableEq, Repr

/-- A message as the DNS library reads it. A question of another kind than the binder asks is
`none`. -/
structure Message where
  id : UInt16
  response : Bool
  opCode : Nat
  truncated : Bool
  success : Bool
  questions : List (Option Question)
  answers : List Record
  authorities : Nat
  additionals : Nat
deriving DecidableEq, Repr

/-- The DNS library and the digest. -/
structure Resolution where
  unpack : Bytes → Option Message
  /-- Whether the name fits into a question. -/
  nameFits : Bytes → Bool
  sha256 : Bytes → Bytes

def maxDNSBytes : Nat := 4096

/-! ## Answers -/

def trimDot (name : Bytes) : Bytes := if name.getLast? == some 0x2E then name.dropLast else name

/-- What the records read so far say. -/
structure Collected where
  cnames : List (Bytes × Bytes)
  addresses : List (Bytes × List Addr)
  ttl : Int
deriving DecidableEq, Repr

def Collected.addressesOf (collected : Collected) (owner : Bytes) : List Addr :=
  (collected.addresses.lookup owner).getD []

/-- One more address of an owner. -/
def addAddress (owner : Bytes) (addr : Addr) : List (Bytes × List Addr) → List (Bytes × List Addr)
  | [] => [(owner, [addr])]
  | (name, known) :: rest =>
    if name == owner then (name, known ++ [addr]) :: rest
    else (name, known) :: addAddress owner addr rest

def collectAddress (sensitive : List Network) (asked family : Family) (fits : Bool) (owner : Bytes)
    (addr : Addr) (collected : Collected) : Except Failure Collected :=
  if asked != family || !fits || (collected.cnames.lookup owner).isSome then .error .dns
  else if !isPublic sensitive addr then .error .denied
  else .ok { collected with addresses := addAddress owner addr collected.addresses }

def collectRecord (sensitive : List Network) (asked : Family) (collected : Collected)
    (record : Record) : Except Failure Collected :=
  let owner := toLower (trimDot record.name)
  if !hostname owner || !record.isInternet || record.ttl == 0 then .error .dns
  else
    let collected := { collected with ttl := min collected.ttl (record.ttl.toNat * second) }
    match record.body with
    | .cname value =>
      let target := toLower (trimDot value)
      if !hostname target || (collected.cnames.lookup owner).isSome ||
          !(collected.addressesOf owner).isEmpty then .error .dns
      else .ok { collected with cnames := collected.cnames ++ [(owner, target)] }
    | .a value => collectAddress sensitive asked .a (record.length == 4) owner (.v4 value) collected
    | .aaaa value =>
      collectAddress sensitive asked .aaaa (record.length == 16) owner (.v6 value []) collected
    | .other => .error .dns

/-- The end of the chain of aliases, with the names on the way. -/
def followAliases (cnames : List (Bytes × Bytes)) :
    Nat → List Bytes → Bytes → Option (List Bytes × Bytes)
  | 0, _, _ => none
  | fuel + 1, visited, current =>
    match cnames.lookup current with
    | none => some (visited, current)
    | some target =>
      if visited.contains current || decide (8 ≤ visited.length) then none
      else followAliases cnames fuel (current :: visited) target

def acceptResponse (id : UInt16) (question : Question) (response : Message) : Bool :=
  response.id == id && response.response && response.opCode == 0 && !response.truncated &&
    response.success && response.questions == [some question] &&
    decide (response.answers.length ≤ 64) && decide (response.authorities ≤ 16) &&
    decide (response.additionals ≤ 16)

/-- What an accepted message says about the name that was asked for. -/
def concludeAnswer (asked : Bytes) (collected : Collected) : Except Failure (List Addr × Int) :=
  match followAliases collected.cnames 10 [] (trimDot asked) with
  | none => .error .dns
  | some (visited, current) =>
    if visited.contains current || visited.length != collected.cnames.length ||
        decide (1 < collected.addresses.length) ||
        (collected.addresses.length == 1 && (collected.addressesOf current).isEmpty) then
      .error .dns
    else if !collected.cnames.isEmpty && (collected.addressesOf current).isEmpty then .error .dns
    else .ok (collected.addressesOf current, collected.ttl)

def parseAnswer (resolution : Resolution) (binder : Binder) (id : UInt16) (question : Question)
    (raw : Bytes) : Except Failure (List Addr × Int) :=
  if decide (maxDNSBytes < raw.length) ||
      (wireEnd raw).toOption != some true then .error .dns
  else match resolution.unpack raw with
    | none => .error .dns
    | some response =>
      if !acceptResponse id question response then .error .dns
      else
        (response.answers.foldlM (collectRecord binder.sensitive question.family)
          ⟨[], [], binder.maxTTL⟩).bind (concludeAnswer question.name)

/-! ## Resolution -/

/-- What happens while one family is asked for: the random number, if there is one, and the answer,
if one arrives while the caller still waits. -/
structure Exchange where
  random : Option UInt16
  answer : Option Bytes
deriving DecidableEq, Repr

/-- What happens during a call: whether the call gets its turn, the clock at its start and at its
end, both exchanges, and whether the caller still waits after them. -/
structure Surroundings where
  turn : Bool
  start : Int
  first : Exchange
  second : Exchange
  waiting : Bool
  finish : Int
deriving DecidableEq, Repr

def askFamily (resolution : Resolution) (binder : Binder) (host : Bytes) (family : Family)
    (exchange : Exchange) : Except Failure (List Addr × Int) :=
  if !resolution.nameFits (host ++ [0x2E]) then .error .dns
  else match exchange.random, exchange.answer with
    | some id, some answer =>
      if maxDNSBytes < answer.length then .error .dns
      else parseAnswer resolution binder id ⟨host ++ [0x2E], family⟩ answer
    | _, _ => .error .dns

def insertAddress (addr : Addr) : List Addr → List Addr
  | [] => [addr]
  | next :: rest =>
    if next.before addr then next :: insertAddress addr rest else addr :: next :: rest

/-- The addresses without repetition and in order. -/
def sortAddresses (addresses : List Addr) : List Addr := addresses.dedup.foldr insertAddress []

/-- The addresses of both families and the smallest lifetime. -/
def resolveFamilies (resolution : Resolution) (binder : Binder) (host : Bytes)
    (surroundings : Surroundings) : Except Failure (List Addr × Int) := do
  let (addresses4, ttl4) ← askFamily resolution binder host .a surroundings.first
  let (addresses6, ttl6) ← askFamily resolution binder host .aaaa surroundings.second
  let addresses := sortAddresses (addresses4 ++ addresses6)
  if addresses.isEmpty || decide (64 < addresses.length) then .error .dns
  else .ok (addresses, min (min binder.maxTTL ttl4) ttl6)

/-- The text of which the digest is pinned. -/
def canonicalText (addresses : List Addr) : Bytes :=
  addresses.flatMap fun addr => text addr ++ [0x0A]

def Binder.resolve (resolution : Resolution) (binder : Binder) (name : Bytes)
    (surroundings : Surroundings) : Binder × Except Failure Binding :=
  if !hostname name || (binder.permissions name).isEmpty then (binder, .error .denied)
  else if !surroundings.turn then (binder, .error .dns)
  else if binder.poisoned name then (binder, .error .rebinding)
  else match resolveFamilies resolution binder name surroundings with
    | .error failure => (binder, .error failure)
    | .ok (addresses, ttl) =>
      if !surroundings.waiting then (binder, .error .dns)
      else if surroundings.start + min ttl binder.maxTTL ≤ surroundings.finish then
        (binder, .error .expired)
      else
        let digest := resolution.sha256 (canonicalText addresses)
        if (binder.pins name).any (· != digest) then
          ({ binder with poisoned := fun other => other == name || binder.poisoned other },
            .error .rebinding)
        else
          ({ binder with
              pins := fun other => if other == name then some digest else binder.pins other },
            .ok
              { job := binder.job
                hostname := name
                addresses := addresses
                permissions := binder.permissions name
                limits := binder.limits
                issued := surroundings.start
                expires := surroundings.start + min ttl binder.maxTTL })

end ProvenanceRunner.Network
