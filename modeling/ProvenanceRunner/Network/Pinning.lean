import Mathlib.Data.List.Dedup
import ProvenanceRunner.Network.Bindings

/-! # Pinned answers

What holds over all the resolutions of a job. Every address that is returned is public, no binding
lives longer than the records it rests on, and all bindings of a name carry the same addresses. An
answer with other addresses poisons the name, provided that it arrives in time: the clock and the
caller's patience are looked at before the pin is. -/

namespace ProvenanceRunner.Network

open Utf8 Addresses Numerals
open Gateway (second minute toLower)

variable {addr : Addr} {addresses : List Addr} {asked : Family} {collected next : Collected}
  {ttl : Int}

/-! ## One answer -/

/-- Every address that was collected is public. -/
def Collected.Public (sensitive : List Network) (collected : Collected) : Prop :=
  ∀ owner addresses, (owner, addresses) ∈ collected.addresses →
    ∀ addr ∈ addresses, isPublic sensitive addr = true

variable {sensitive : List Network}

theorem addAddress_public {owner : Bytes} {known : List (Bytes × List Addr)}
    (granted : isPublic sensitive addr = true)
    (publics : ∀ entry ∈ known, ∀ other ∈ entry.2, isPublic sensitive other = true) :
    ∀ entry ∈ addAddress owner addr known, ∀ other ∈ entry.2, isPublic sensitive other = true := by
  induction known with
  | nil => simpa [addAddress] using granted
  | cons entry rest induction =>
    obtain ⟨first, later⟩ := List.forall_mem_cons.1 publics
    unfold addAddress
    split
    · refine List.forall_mem_cons.2 ⟨List.forall_mem_append.2 ⟨first, ?_⟩, later⟩
      simpa using granted
    · exact List.forall_mem_cons.2 ⟨first, induction later⟩

theorem collectAddress_ok {family : Family} {fits : Bool} {owner : Bytes}
    (collects : collectAddress sensitive asked family fits owner addr collected = .ok next) :
    isPublic sensitive addr = true ∧
      next = { collected with addresses := addAddress owner addr collected.addresses } := by
  unfold collectAddress at collects
  split at collects
  · simp at collects
  split at collects
  · simp at collects
  · rename_i _ open'
    exact ⟨by simpa using open', (Except.ok.inj collects).symm⟩

/-- A record adds at most one address, a public one, and bounds the lifetime. -/
theorem collectRecord_ok {record : Record}
    (collects : collectRecord sensitive asked collected record = .ok next) :
    next.ttl = min collected.ttl (record.ttl.toNat * second) ∧
      (next.addresses = collected.addresses ∨ ∃ owner addr, isPublic sensitive addr = true ∧
        next.addresses = addAddress owner addr collected.addresses) := by
  unfold collectRecord at collects
  dsimp only at collects
  split at collects
  · simp at collects
  cases body : record.body with
  | cname =>
    rw [body] at collects
    dsimp only at collects
    split at collects
    · simp at collects
    · obtain rfl := Except.ok.inj collects
      exact ⟨rfl, Or.inl rfl⟩
  | a | aaaa =>
    rw [body] at collects
    obtain ⟨isPublic, rfl⟩ := collectAddress_ok collects
    exact ⟨rfl, Or.inr ⟨_, _, isPublic, rfl⟩⟩
  | other =>
    rw [body] at collects
    simp at collects

theorem collectRecord_public {record : Record}
    (known : collected.Public sensitive)
    (collects : collectRecord sensitive asked collected record = .ok next) :
    next.Public sensitive := by
  obtain ⟨_, same | ⟨_, _, granted, addresses⟩⟩ := collectRecord_ok collects
  · rw [Collected.Public, same]
    exact known
  · rw [Collected.Public, addresses]
    exact fun name found member =>
      addAddress_public granted (fun entry => known entry.1 entry.2) (name, found) member

/-- Only public addresses are collected, and the lifetime that is left is bounded by where it began
and by every record. -/
theorem collected_all (records : List Record) (begun last : Collected)
    (known : begun.Public sensitive)
    (folded : records.foldlM (collectRecord sensitive asked) begun = .ok last) :
    last.Public sensitive ∧ last.ttl ≤ begun.ttl ∧
      ∀ record ∈ records, last.ttl ≤ record.ttl.toNat * second := by
  induction records generalizing begun with
  | nil =>
    obtain rfl := Except.ok.inj folded
    simpa using known
  | cons record rest induction =>
    rw [List.foldlM_cons] at folded
    cases stepped : collectRecord sensitive asked begun record with
    | error => simp [stepped, bind, Except.bind] at folded
    | ok next =>
      rw [stepped] at folded
      obtain ⟨publics, bound, bounds⟩ := induction next (collectRecord_public known stepped) folded
      have lowered := (collectRecord_ok stepped).1
      exact ⟨publics, by omega, List.forall_mem_cons.2 ⟨by omega, bounds⟩⟩

theorem addressesOf_public (known : collected.Public sensitive)
    (owner : Bytes) :
    ∀ addr ∈ collected.addressesOf owner, isPublic sensitive addr = true := by
  intro addr member
  unfold Collected.addressesOf at member
  cases found : collected.addresses.lookup owner with
  | none => simp [found] at member
  | some addresses =>
    rw [found] at member
    obtain ⟨_, _, split, _⟩ := List.lookup_eq_some_iff.1 found
    exact known owner addresses (by simp [split]) addr member

theorem concludeAnswer_ok {asked : Bytes}
    (concluded : concludeAnswer asked collected = .ok (addresses, ttl)) :
    ttl = collected.ttl ∧ ∃ owner, addresses = collected.addressesOf owner := by
  unfold concludeAnswer at concluded
  split at concluded
  · simp at concluded
  split at concluded
  · simp at concluded
  split at concluded
  · simp at concluded
  · obtain ⟨same, ttl⟩ := Prod.mk.inj (Except.ok.inj concluded)
    exact ⟨ttl.symm, _, same.symm⟩

/-- What an accepted answer guarantees. -/
structure Answered (resolution : Resolution) (binder : Binder) (exchange : Exchange)
    (addresses : List Addr) (ttl : Int) : Prop where
  isPublic : ∀ addr ∈ addresses, isPublic binder.sensitive addr = true
  bounded : ttl ≤ binder.maxTTL
  records : ∀ raw message, exchange.answer = some raw → resolution.unpack raw = some message →
    ∀ record ∈ message.answers, ttl ≤ record.ttl.toNat * second

theorem askFamily_ok {resolution : Resolution} {binder : Binder} {host : Bytes} {family : Family}
    {exchange : Exchange}
    (asked : askFamily resolution binder host family exchange = .ok (addresses, ttl)) :
    Answered resolution binder exchange addresses ttl := by
  unfold askFamily at asked
  split at asked
  · simp at asked
  cases random : exchange.random with
  | none => simp [random] at asked
  | some =>
    cases answer : exchange.answer with
    | none => simp [random, answer] at asked
    | some raw =>
      simp only [random, answer] at asked
      split at asked
      · simp at asked
      unfold parseAnswer at asked
      split at asked
      · simp at asked
      cases unpacked : resolution.unpack raw with
      | none => simp [unpacked] at asked
      | some message =>
        simp only [unpacked] at asked
        split at asked
        · simp at asked
        cases folded : message.answers.foldlM (collectRecord binder.sensitive family)
            ⟨[], [], binder.maxTTL⟩ with
        | error => simp [folded, Except.bind] at asked
        | ok collected =>
          simp only [folded, Except.bind] at asked
          obtain ⟨rfl, owner, rfl⟩ := concludeAnswer_ok asked
          obtain ⟨known, bounded, records⟩ := collected_all message.answers _ _
            (fun _ _ member => by simp at member) folded
          refine ⟨addressesOf_public known owner, bounded, ?_⟩
          intro raw' message' answer' unpacked'
          obtain rfl := Option.some.inj (answer.symm.trans answer')
          obtain rfl := Option.some.inj (unpacked.symm.trans unpacked')
          exact records

/-! ## Both families -/

theorem mem_insertAddress {other : Addr} :
    other ∈ insertAddress addr addresses ↔ other = addr ∨ other ∈ addresses := by
  induction addresses with
  | nil => simp [insertAddress]
  | cons next rest induction =>
    unfold insertAddress
    split
    · simp only [List.mem_cons, induction]
      tauto
    · simp

theorem mem_sortAddresses :
    addr ∈ sortAddresses addresses ↔ addr ∈ addresses := by
  have sorted (unsorted : List Addr) :
      addr ∈ unsorted.foldr insertAddress [] ↔ addr ∈ unsorted := by
    induction unsorted with
    | nil => simp
    | cons next rest induction => simp [mem_insertAddress, induction]
  rw [sortAddresses, sorted, List.mem_dedup]

theorem resolveFamilies_ok {resolution : Resolution} {binder : Binder} {host : Bytes}
    {surroundings : Surroundings}
    (resolved : resolveFamilies resolution binder host surroundings = .ok (addresses, ttl)) :
    Answered resolution binder surroundings.first addresses ttl ∧
      Answered resolution binder surroundings.second addresses ttl := by
  unfold resolveFamilies at resolved
  cases first : askFamily resolution binder host .a surroundings.first with
  | error => simp [first, bind, Except.bind] at resolved
  | ok found4 =>
    cases second : askFamily resolution binder host .aaaa surroundings.second with
    | error => simp [first, second, bind, Except.bind] at resolved
    | ok found6 =>
      obtain ⟨addresses4, _⟩ := found4
      obtain ⟨addresses6, _⟩ := found6
      simp only [first, second, bind, Except.bind] at resolved
      split at resolved
      · simp at resolved
      obtain ⟨rfl, rfl⟩ := Prod.mk.inj (Except.ok.inj resolved)
      have answered4 := askFamily_ok first
      have answered6 := askFamily_ok second
      have isPublic : ∀ addr ∈ sortAddresses (addresses4 ++ addresses6),
          isPublic binder.sensitive addr = true := by
        intro addr member
        rcases List.mem_append.1 (mem_sortAddresses.1 member) with member4 | member6
        · exact answered4.isPublic addr member4
        · exact answered6.isPublic addr member6
      constructor
      · refine ⟨isPublic, by omega, fun raw message answer unpacked record member => ?_⟩
        have bound := answered4.records raw message answer unpacked record member
        omega
      · refine ⟨isPublic, by omega, fun raw message answer unpacked record member => ?_⟩
        have bound := answered6.records raw message answer unpacked record member
        omega

/-- The answers depend on the binder only through its inventory and its largest lifetime. -/
theorem resolveFamilies_congr (resolution : Resolution) {binder other : Binder}
    (sensitive : binder.sensitive = other.sensitive) (maxTTL : binder.maxTTL = other.maxTTL)
    (host : Bytes) (surroundings : Surroundings) :
    resolveFamilies resolution binder host surroundings =
      resolveFamilies resolution other host surroundings := by
  simp only [resolveFamilies, askFamily, parseAnswer, sensitive, maxTTL]

theorem newline_not_text (plain : addr.isPlain = true) : (0x0A : UInt8) ∉ text addr :=
  fun member => absurd (text_bytes plain 0x0A member) (by decide)

/-- The pinned text determines the addresses. -/
theorem canonicalText_injective {first second : List Addr}
    (known : ∀ addr ∈ first, isPublic sensitive addr = true)
    (known' : ∀ addr ∈ second, isPublic sensitive addr = true)
    (same : canonicalText first = canonicalText second) : first = second := by
  have texts : first.map text = second.map text :=
    terminated_injective text 0x0A first second
      (fun addr member => newline_not_text (isPublic_plain (known addr member)))
      (fun addr member => newline_not_text (isPublic_plain (known' addr member))) same
  exact map_injective_of_mem text first second (fun addr member addr' member' =>
    text_injective (isPublic_plain (known addr member)) (isPublic_plain (known' addr' member')))
      texts

/-! ## One call -/

/-- What a call does to the binder and answers. -/
inductive Outcome (resolution : Resolution) (binder : Binder) (name : Bytes)
    (surroundings : Surroundings) : Binder → Except Failure Binding → Prop where
  | refused (failure : Failure)
    (reason : (binder.permissions name).isEmpty = true ∨ hostname name = false ∨
      surroundings.turn = false ∨ binder.poisoned name = true ∨
      ∀ addresses ttl,
        resolveFamilies resolution binder name surroundings = .ok (addresses, ttl) →
        surroundings.waiting = false ∨
          surroundings.start + min ttl binder.maxTTL ≤ surroundings.finish) :
    Outcome resolution binder name surroundings binder (.error failure)
  | poisons (addresses : List Addr) (ttl : Int)
    (resolved : resolveFamilies resolution binder name surroundings = .ok (addresses, ttl)) :
    Outcome resolution binder name surroundings
      { binder with poisoned := fun other => other == name || binder.poisoned other }
      (.error .rebinding)
  | binds (addresses : List Addr) (ttl : Int) (clean : binder.poisoned name = false)
    (allowed : (binder.permissions name).isEmpty = false ∧ hostname name = true)
    (resolved : resolveFamilies resolution binder name surroundings = .ok (addresses, ttl))
    (agrees : ∀ pin, binder.pins name = some pin →
      pin = resolution.sha256 (canonicalText addresses)) :
    Outcome resolution binder name surroundings
      { binder with
        pins := fun other =>
          if other == name then some (resolution.sha256 (canonicalText addresses))
          else binder.pins other }
      (.ok
        { job := binder.job
          hostname := name
          addresses := addresses
          permissions := binder.permissions name
          limits := binder.limits
          issued := surroundings.start
          expires := surroundings.start + min ttl binder.maxTTL })

theorem resolve_outcome (resolution : Resolution) (binder : Binder) (name : Bytes)
    (surroundings : Surroundings) :
    ∃ next result, binder.resolve resolution name surroundings = (next, result) ∧
      Outcome resolution binder name surroundings next result := by
  refine ⟨_, _, (Prod.eta _).symm, ?_⟩
  unfold Binder.resolve
  by_cases denied : (!hostname name || (binder.permissions name).isEmpty) = true
  · rw [if_pos denied]
    refine .refused .denied ?_
    rcases Bool.or_eq_true _ _ ▸ denied with unnamed | none
    · exact Or.inr (Or.inl (by simpa using unnamed))
    · exact Or.inl none
  rw [if_neg denied]
  simp only [Bool.not_eq_true, Bool.or_eq_false_iff, Bool.not_eq_false'] at denied
  by_cases turned : surroundings.turn = true
  swap
  · simp only [Bool.not_eq_true] at turned
    rw [if_pos (by simp [turned])]
    exact .refused .dns (Or.inr (Or.inr (Or.inl turned)))
  rw [if_neg (by simp [turned])]
  by_cases poisoned : binder.poisoned name = true
  · rw [if_pos poisoned]
    exact .refused .rebinding (Or.inr (Or.inr (Or.inr (Or.inl poisoned))))
  rw [if_neg poisoned]
  cases resolved : resolveFamilies resolution binder name surroundings with
  | error failure =>
    exact .refused failure (Or.inr (Or.inr (Or.inr (Or.inr (by simp [resolved])))))
  | ok found =>
    obtain ⟨addresses, ttl⟩ := found
    dsimp only
    have late (early : surroundings.waiting = false ∨
        surroundings.start + min ttl binder.maxTTL ≤ surroundings.finish) (failure : Failure) :
        Outcome resolution binder name surroundings binder (.error failure) := by
      refine .refused failure (Or.inr (Or.inr (Or.inr (Or.inr ?_))))
      intro addresses' ttl' again
      rw [resolved] at again
      obtain ⟨_, rfl⟩ := Prod.mk.inj (Except.ok.inj again)
      exact early
    by_cases waiting : surroundings.waiting = true
    swap
    · simp only [Bool.not_eq_true] at waiting
      rw [if_pos (by simp [waiting])]
      exact late (Or.inl waiting) .dns
    rw [if_neg (by simp [waiting])]
    by_cases expired : surroundings.start + min ttl binder.maxTTL ≤ surroundings.finish
    · rw [if_pos expired]
      exact late (Or.inr expired) .expired
    rw [if_neg expired]
    by_cases changed : ((binder.pins name).any
        (· != resolution.sha256 (canonicalText addresses))) = true
    · rw [if_pos changed]
      exact .poisons addresses ttl resolved
    rw [if_neg changed]
    refine .binds addresses ttl (by simpa using poisoned) ⟨denied.2, denied.1⟩ resolved ?_
    intro pin pinned
    simpa [pinned] using changed

/-! ## All calls of a job -/

structure Entry where
  name : Bytes
  surroundings : Surroundings
  result : Except Failure Binding

/-- The calls of a binder, the newest first, each of them with allowed surroundings. -/
inductive History (resolution : Resolution) (begun : Binder)
    (allowed : Bytes → Surroundings → Prop) : List Entry → Binder → Prop where
  | nil : History resolution begun allowed [] begun
  | call (name : Bytes) (surroundings : Surroundings) (entries : List Entry) (binder : Binder)
    (past : History resolution begun allowed entries binder) (regular : allowed name surroundings) :
    History resolution begun allowed
      (⟨name, surroundings, (binder.resolve resolution name surroundings).2⟩ :: entries)
      (binder.resolve resolution name surroundings).1

/-- A complete answer of both families has these addresses. -/
def Entry.Answers (resolution : Resolution) (begun : Binder) (entry : Entry)
    (addresses : List Addr) : Prop :=
  ∃ ttl, resolveFamilies resolution begun entry.name entry.surroundings = .ok (addresses, ttl)

/-- The digest tells the canonical texts of the answers of a history apart. -/
def CollisionFree (resolution : Resolution) (begun : Binder) (entries : List Entry) : Prop :=
  ∀ first ∈ entries, ∀ second ∈ entries, ∀ addresses addresses',
    first.Answers resolution begun addresses → second.Answers resolution begun addresses' →
    resolution.sha256 (canonicalText addresses) = resolution.sha256 (canonicalText addresses') →
    canonicalText addresses = canonicalText addresses'

/-- Answers are pinned for the job. -/
structure Pinned (resolution : Resolution) (begun : Binder) (entries : List Entry) : Prop where
  same : ∀ first ∈ entries, ∀ second ∈ entries, first.name = second.name →
    ∀ binding other, first.result = .ok binding → second.result = .ok other →
      binding.addresses = other.addresses
  isPublic : ∀ entry ∈ entries, ∀ binding, entry.result = .ok binding →
    binding.hostname = entry.name ∧
      ∀ addr ∈ binding.addresses, isPublic begun.sensitive addr = true
  lifetime : ∀ entry ∈ entries, ∀ binding, entry.result = .ok binding →
    binding.expires - binding.issued ≤ 5 * minute ∧
      ∀ exchange, exchange = entry.surroundings.first ∨ exchange = entry.surroundings.second →
        ∀ raw message, exchange.answer = some raw → resolution.unpack raw = some message →
          ∀ record ∈ message.answers,
            binding.expires - binding.issued ≤ record.ttl.toNat * second
  refused : ∀ later entry earlier, entries = later ++ entry :: earlier →
    ∀ addresses, entry.surroundings.turn = true → entry.Answers resolution begun addresses →
      (∃ past ∈ earlier, past.name = entry.name ∧
        ∃ binding, past.result = .ok binding ∧ binding.addresses ≠ addresses) →
      ∀ next ∈ later, next.name = entry.name → ∃ failure, next.result = .error failure

/-- Every complete answer arrives while the caller waits and before it expires. -/
def Prompt (resolution : Resolution) (begun : Binder) (name : Bytes)
    (surroundings : Surroundings) : Prop :=
  ∀ addresses ttl, resolveFamilies resolution begun name surroundings = .ok (addresses, ttl) →
    surroundings.waiting = true ∧
      surroundings.finish < surroundings.start + min ttl begun.maxTTL

section

variable {resolution : Resolution} {begun binder : Binder}
  {allowed : Bytes → Surroundings → Prop} {entries : List Entry}

/-- What the binder never changes, and what its pins stand for. -/
structure Kept (resolution : Resolution) (begun binder : Binder) (entries : List Entry) : Prop where
  sensitive : binder.sensitive = begun.sensitive
  maxTTL : binder.maxTTL = begun.maxTTL
  permissions : binder.permissions = begun.permissions
  pinned : ∀ entry ∈ entries, ∀ binding, entry.result = .ok binding →
    binder.pins entry.name = some (resolution.sha256 (canonicalText binding.addresses)) ∧
      (begun.permissions entry.name).isEmpty = false ∧ hostname entry.name = true

theorem History.kept (history : History resolution begun allowed entries binder) :
    Kept resolution begun binder entries := by
  induction history with
  | nil => exact ⟨rfl, rfl, rfl, by simp⟩
  | call name surroundings entries binder past regular kept =>
    obtain ⟨_, _, same, outcome⟩ := resolve_outcome resolution binder name surroundings
    rw [same]
    cases outcome with
    | refused | poisons =>
      exact ⟨kept.sensitive, kept.maxTTL, kept.permissions,
        List.forall_mem_cons.2 ⟨nofun, kept.pinned⟩⟩
    | binds addresses ttl clean allowed resolved agrees =>
      refine ⟨kept.sensitive, kept.maxTTL, kept.permissions,
        List.forall_mem_cons.2 ⟨?_, fun entry older binding bound => ?_⟩⟩
      · rintro _ ⟨⟩
        exact ⟨by simp, kept.permissions ▸ allowed.1, allowed.2⟩
      obtain ⟨pin, granted, named⟩ := kept.pinned entry older binding bound
      refine ⟨?_, granted, named⟩
      dsimp only
      by_cases same : entry.name = name
      · rw [same] at pin
        rw [if_pos (by simp [same]), agrees _ pin]
      · rw [if_neg (by simp [same]), pin]

/-- What a successful call has returned. -/
theorem History.bound (history : History resolution begun allowed entries binder) :
    ∀ entry ∈ entries, ∀ binding, entry.result = .ok binding → binding.hostname = entry.name ∧
      ∃ ttl, resolveFamilies resolution begun entry.name entry.surroundings =
        .ok (binding.addresses, ttl) ∧ binding.expires - binding.issued = min ttl begun.maxTTL := by
  induction history with
  | nil => simp
  | call name surroundings entries binder past regular bound =>
    obtain ⟨_, _, same, outcome⟩ := resolve_outcome resolution binder name surroundings
    have kept := past.kept
    rw [same]
    refine List.forall_mem_cons.2 ⟨fun binding succeeded => ?_, bound⟩
    cases outcome with
    | refused | poisons => simp at succeeded
    | binds addresses ttl clean allowed resolved =>
      obtain rfl := Except.ok.inj succeeded
      rw [resolveFamilies_congr resolution kept.sensitive kept.maxTTL] at resolved
      refine ⟨rfl, ttl, resolved, ?_⟩
      rw [kept.maxTTL]
      show surroundings.start + min ttl begun.maxTTL - surroundings.start = _
      omega

/-- A poisoned name stays poisoned and is refused. -/
theorem History.poisoned (later : List Entry) (entry : Entry) (earlier : List Entry)
    (history : History resolution begun allowed (later ++ entry :: earlier) binder)
    (poison : ∀ between, History resolution begun allowed (entry :: earlier) between →
      between.poisoned entry.name = true) :
    binder.poisoned entry.name = true ∧
      ∀ next ∈ later, next.name = entry.name → ∃ failure, next.result = .error failure := by
  induction later generalizing binder with
  | nil => exact ⟨poison binder history, by simp⟩
  | cons next rest induction =>
    cases history with
    | call name surroundings _ binder past =>
      obtain ⟨poisoned, refused⟩ := induction past
      obtain ⟨_, _, same, outcome⟩ := resolve_outcome resolution binder name surroundings
      rw [same]
      cases outcome with
      | refused failure =>
        exact ⟨poisoned, List.forall_mem_cons.2 ⟨fun _ => ⟨failure, rfl⟩, refused⟩⟩
      | poisons =>
        exact ⟨by simp [poisoned], List.forall_mem_cons.2 ⟨fun _ => ⟨.rebinding, rfl⟩, refused⟩⟩
      | binds addresses ttl clean =>
        refine ⟨poisoned, List.forall_mem_cons.2 ⟨fun named => ?_, refused⟩⟩
        simp [show name = entry.name from named, poisoned] at clean

/-- A prompt answer with other addresses than an earlier binding poisons the name. -/
theorem History.poisons (entry : Entry) (earlier : List Entry)
    (collisionFree : CollisionFree resolution begun (entry :: earlier))
    (history : History resolution begun (Prompt resolution begun) (entry :: earlier) binder)
    (turn : entry.surroundings.turn = true) (answers : entry.Answers resolution begun addresses)
    {past : Entry} (member : past ∈ earlier) (same : past.name = entry.name) {bound : Binding}
    (succeeded : past.result = .ok bound) (differs : bound.addresses ≠ addresses) :
    binder.poisoned entry.name = true := by
  cases history with
  | call name surroundings _ binder history regular =>
    have kept := history.kept
    obtain ⟨pin, granted, named⟩ := kept.pinned past member bound succeeded
    obtain ⟨_, _, resolvedPast, _⟩ := history.bound past member bound succeeded
    obtain ⟨ttl, resolved⟩ := answers
    have prompt := regular addresses ttl resolved
    rw [show past.name = name from same] at pin granted named
    rw [← resolveFamilies_congr resolution kept.sensitive kept.maxTTL] at resolved
    obtain ⟨_, _, same, outcome⟩ := resolve_outcome resolution binder name surroundings
    rw [same]
    cases outcome with
    | refused failure reason =>
      rcases reason with none | unnamed | idle | poisoned | late
      · simp [kept.permissions, granted] at none
      · simp [named] at unnamed
      · simp [show surroundings.turn = true from turn] at idle
      · exact poisoned
      rcases late addresses ttl resolved with impatient | expired
      · simp [prompt.1] at impatient
      · rw [kept.maxTTL] at expired
        omega
    | poisons => simp
    | binds other ttl' clean allowed resolved' agrees =>
      obtain ⟨rfl, _⟩ := Prod.mk.inj (Except.ok.inj (resolved.symm.trans resolved'))
      rw [resolveFamilies_congr resolution kept.sensitive kept.maxTTL] at resolved
      have text := collisionFree past (.tail _ member) _ (.head _) _ _ ⟨_, resolvedPast⟩
        ⟨_, resolved⟩ (agrees _ pin)
      exact absurd (canonicalText_injective (resolveFamilies_ok resolvedPast).1.isPublic
        (resolveFamilies_ok resolved).1.isPublic text) differs

end

/-- The largest lifetime that options can give, for names that are granted at all. -/
theorem newBinder_maxTTL {options : Options} {resolver : Bool} {binder : Binder}
    (made : newBinder options resolver = .ok binder) : binder.maxTTL ≤ 5 * minute := by
  unfold newBinder at made
  split at made
  · rename_i valid
    obtain rfl := Except.ok.inj made
    simp only [validOptions, Bool.and_eq_true] at valid
    obtain ⟨⟨_, mode⟩, _⟩ := valid
    split at mode
    · simp only [Bool.and_eq_true, beq_iff_eq] at mode
      show options.maximumTTL ≤ 5 * minute
      rw [mode.2]
      decide
    · simp only [Bool.and_eq_true, decide_eq_true_eq] at mode
      exact mode.2
    · simp only [Bool.and_eq_true, decide_eq_true_eq] at mode
      exact mode.2
    · simp at mode
  · simp at made

/-- Whatever a resolver answers, as long as complete answers arrive in time and the digest does not
confuse two of them: all bindings of a name carry the same public addresses, none outlives its
records, and after other addresses the name is refused.

Proof: a binding carries the pinned addresses, and pins and refusals stay (`History.kept`). -/
theorem answers_pinned (resolution : Resolution) (options : Options) (resolver : Bool)
    (begun : Binder) (made : newBinder options resolver = .ok begun) (entries : List Entry)
    (binder : Binder) (collisionFree : CollisionFree resolution begun entries)
    (history : History resolution begun (Prompt resolution begun) entries binder) :
    Pinned resolution begun entries where
  same first member second member' name binding other bound bound' := by
    have kept := history.kept
    have pin := (kept.pinned first member binding bound).1
    have pin' := (kept.pinned second member' other bound').1
    rw [name, pin', Option.some.injEq] at pin
    obtain ⟨_, _, resolved, _⟩ := history.bound first member binding bound
    obtain ⟨_, _, resolved', _⟩ := history.bound second member' other bound'
    have text := collisionFree second member' first member _ _ ⟨_, resolved'⟩ ⟨_, resolved⟩ pin
    exact (canonicalText_injective (resolveFamilies_ok resolved').1.isPublic
      (resolveFamilies_ok resolved).1.isPublic text).symm
  isPublic entry member binding bound := by
    obtain ⟨named, _, resolved, _⟩ := history.bound entry member binding bound
    exact ⟨named, (resolveFamilies_ok resolved).1.isPublic⟩
  lifetime entry member binding bound := by
    obtain ⟨_, ttl, resolved, lifetime⟩ := history.bound entry member binding bound
    obtain ⟨answered4, answered6⟩ := resolveFamilies_ok resolved
    have limit := newBinder_maxTTL made
    constructor
    · omega
    rintro exchange (rfl | rfl) raw message answer unpacked record found
    · have bounded := answered4.records raw message answer unpacked record found
      omega
    · have bounded := answered6.records raw message answer unpacked record found
      omega
  refused later entry earlier split addresses turn answers := by
    rintro ⟨_, member, same, _, succeeded, differs⟩
    subst split
    refine (History.poisoned later entry earlier history fun between reached => ?_).2
    have known : CollisionFree resolution begun (entry :: earlier) := fun one first two second =>
      collisionFree one (List.mem_append_right _ first) two (List.mem_append_right _ second)
    exact reached.poisons entry earlier known turn answers member same succeeded differs

/-! ## Samples -/

def sampleHost : Bytes := encode "host.example"

/-- A response to the question for the sample host with the given addresses of the first family. -/
def sampleResponse (family : Family) (ttl : UInt32) (addresses : List (BitVec 32)) : Message where
  id := 0
  response := true
  opCode := 0
  truncated := false
  success := true
  questions := [some ⟨sampleHost ++ [0x2E], family⟩]
  answers := addresses.map fun value => ⟨sampleHost ++ [0x2E], true, ttl, 4, .a value⟩
  authorities := 0
  additionals := 0

/-- A library that tells messages apart by their first byte. -/
def sampleResolution : Resolution where
  unpack raw := match raw.head? with
    | some 1 => some (sampleResponse .a 60 [0x08080808])
    | some 2 => some (sampleResponse .a 1 [0x01010101])
    | _ => some (sampleResponse .aaaa 60 [])
  nameFits _ := true
  sha256 := sampleDigest

def sampleOptions : Options where
  jobID := sampleID 0x31
  mode := .allowlist
  permissions := [⟨sampleHost, 443, .tcp⟩]
  limits := ⟨8, 1000⟩
  sensitiveNetworks := [network4 10 0 0 0 8]
  maximumTTL := 5 * minute

/-- A header without entries. -/
def sampleHeader (tag : UInt8) : Bytes := tag :: List.replicate 11 0

/-- A call at the given time whose answer for the first family has the tag. -/
def sampleSurroundings (tag : UInt8) (start finish : Int) : Surroundings where
  turn := true
  start := start
  first := ⟨some 0, some (sampleHeader tag)⟩
  second := ⟨some 0, some (sampleHeader 3)⟩
  waiting := true
  finish := finish

def sampleBinder : Binder where
  job := sampleID 0x31
  permissions := fun name =>
    sortPermissions (sampleOptions.permissions.filter (·.hostname == name))
  limits := ⟨8, 1000⟩
  sensitive := [network4 10 0 0 0 8]
  maxTTL := 5 * minute
  pins := fun _ => none
  poisoned := fun _ => false

theorem sample_made : newBinder sampleOptions true = .ok sampleBinder := by
  have valid : validOptions sampleOptions true = true := by decide +kernel
  rw [newBinder, if_pos valid]
  rfl

/-- The addresses of a result. -/
def boundAddresses (result : Except Failure Binding) : Option (List Addr) :=
  match result with
  | .ok binding => some binding.addresses
  | .error _ => none

/-- The two answers of the first family, with their lifetimes. -/
theorem sample_answer (start finish : Int) :
    resolveFamilies sampleResolution sampleBinder sampleHost (sampleSurroundings 1 start finish) =
        .ok ([.v4 0x08080808], 60 * second) ∧
      resolveFamilies sampleResolution sampleBinder sampleHost (sampleSurroundings 2 start finish) =
        .ok ([.v4 0x01010101], second) := by
  have timeless (tag : UInt8) : resolveFamilies sampleResolution sampleBinder sampleHost
      (sampleSurroundings tag start finish) = resolveFamilies sampleResolution sampleBinder
        sampleHost (sampleSurroundings tag 0 0) := by
    simp only [resolveFamilies, sampleSurroundings]
  rw [timeless, timeless]
  decide +kernel

theorem sample_prompt (tag : UInt8) (start finish : Int) (early : finish < start + second)
    (known : tag = 1 ∨ tag = 2) :
    Prompt sampleResolution sampleBinder sampleHost (sampleSurroundings tag start finish) := by
  intro addresses ttl resolved
  have : minute = 60 * second := rfl
  have : second = 1000000000 := rfl
  have lifetime : second ≤ ttl := by
    rcases known with rfl | rfl
    · rw [(sample_answer start finish).1] at resolved
      cases resolved
      omega
    · rw [(sample_answer start finish).2] at resolved
      cases resolved
      omega
  refine ⟨rfl, ?_⟩
  show finish < start + min ttl (5 * minute)
  omega

/-- The digests of the two answers differ. -/
theorem sample_collisionFree (entries : List Entry)
    (asked : ∀ entry ∈ entries, entry.name = sampleHost ∧ ∃ start finish,
      entry.surroundings = sampleSurroundings 1 start finish ∨
        entry.surroundings = sampleSurroundings 2 start finish) :
    CollisionFree sampleResolution sampleBinder entries := by
  have known (entry : Entry) (member : entry ∈ entries) (addresses : List Addr)
      (answers : entry.Answers sampleResolution sampleBinder addresses) :
      addresses = [.v4 0x08080808] ∨ addresses = [.v4 0x01010101] := by
    obtain ⟨ttl, resolved⟩ := answers
    obtain ⟨named, start, finish, same | same⟩ := asked entry member
    · rw [named, same, (sample_answer start finish).1] at resolved
      exact .inl (Prod.mk.inj (Except.ok.inj resolved)).1.symm
    · rw [named, same, (sample_answer start finish).2] at resolved
      exact .inr (Prod.mk.inj (Except.ok.inj resolved)).1.symm
  have apart : sampleResolution.sha256 (canonicalText [.v4 0x08080808]) ≠
      sampleResolution.sha256 (canonicalText [.v4 0x01010101]) := by
    decide +kernel
  intro first member second member' addresses addresses' answers answers' same
  rcases known first member addresses answers with rfl | rfl
  · rcases known second member' addresses' answers' with rfl | rfl
    · rfl
    · exact absurd same apart
  · rcases known second member' addresses' answers' with rfl | rfl
    · exact absurd same.symm apart
    · rfl

/-- The first address is pinned; after another one the name is refused. -/
theorem answers_pinned_changed :
    ∃ first second third binder,
      History sampleResolution sampleBinder (Prompt sampleResolution sampleBinder)
        [third, second, first] binder ∧
      boundAddresses first.result = some [.v4 0x08080808] ∧
      boundAddresses second.result = none ∧ boundAddresses third.result = none ∧
      Pinned sampleResolution sampleBinder [third, second, first] := by
  have begun : History sampleResolution sampleBinder (Prompt sampleResolution sampleBinder) []
      sampleBinder := .nil
  have bound := begun.call sampleHost (sampleSurroundings 1 100 101) _ _
    (sample_prompt 1 100 101 (by decide) (by simp))
  have changed := bound.call sampleHost (sampleSurroundings 2 200 201) _ _
    (sample_prompt 2 200 201 (by decide) (by simp))
  have again := changed.call sampleHost (sampleSurroundings 1 300 301) _ _
    (sample_prompt 1 300 301 (by decide) (by simp))
  refine ⟨_, _, _, _, again, by decide +kernel, by decide +kernel, by decide +kernel, ?_⟩
  refine answers_pinned sampleResolution sampleOptions true sampleBinder sample_made _ _
    (sample_collisionFree _ ?_) again
  simp only [List.forall_mem_cons, true_and]
  exact ⟨⟨300, 301, .inl rfl⟩, ⟨200, 201, .inr rfl⟩, ⟨100, 101, .inl rfl⟩, by simp⟩

/-! ## A late answer -/

/-- An answer with another address arrives after it has expired. The name is bound again to the
first address afterwards. -/
theorem late_answer_forgiven :
    ∃ entries binder, History sampleResolution sampleBinder (fun _ _ => True) entries binder ∧
      ¬ Pinned sampleResolution sampleBinder entries := by
  have begun : History sampleResolution sampleBinder (fun _ _ => True) [] sampleBinder := .nil
  have bound := begun.call sampleHost (sampleSurroundings 1 100 101) _ _ trivial
  have late := bound.call sampleHost (sampleSurroundings 2 200 (200 + 2 * second)) _ _ trivial
  have again :=
    late.call sampleHost (sampleSurroundings 1 (3 * second) (3 * second + 1)) _ _ trivial
  refine ⟨_, _, again, fun pinned => ?_⟩
  have first : boundAddresses (sampleBinder.resolve sampleResolution sampleHost
      (sampleSurroundings 1 100 101)).2 = some [.v4 0x08080808] := by
    decide +kernel
  have third : (boundAddresses (((sampleBinder.resolve sampleResolution sampleHost
      (sampleSurroundings 1 100 101)).1.resolve sampleResolution sampleHost
      (sampleSurroundings 2 200 (200 + 2 * second))).1.resolve sampleResolution sampleHost
      (sampleSurroundings 1 (3 * second) (3 * second + 1))).2).isSome = true := by
    decide +kernel
  have known (result : Except Failure Binding) {addresses : List Addr}
      (succeeded : boundAddresses result = some addresses) :
      ∃ binding, result = .ok binding ∧ binding.addresses = addresses := by
    cases result with
    | error => simp [boundAddresses] at succeeded
    | ok binding => exact ⟨binding, rfl, Option.some.inj succeeded⟩
  obtain ⟨binding, succeeded, addresses⟩ := known _ first
  have earlier : binding.addresses ≠ [.v4 0x01010101] := by simp [addresses]
  obtain ⟨_, failed⟩ := pinned.refused [_] _ [_] rfl [.v4 0x01010101] rfl
    ⟨_, (sample_answer 200 (200 + 2 * second)).2⟩
    ⟨⟨_, _, _⟩, List.mem_singleton_self _, rfl, binding, succeeded, earlier⟩ _
    (List.mem_singleton_self _) rfl
  dsimp only at failed
  rw [failed] at third
  simp [boundAddresses] at third

end ProvenanceRunner.Network
