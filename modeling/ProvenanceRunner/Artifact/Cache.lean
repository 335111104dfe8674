import ProvenanceRunner.Library.Threads
import ProvenanceRunner.Library.Utf8

/-! # The artifact cache

Calls of one cache run side by side. Each takes the lock of its key, then the quota lock, and keeps
both until it returns; under them it looks for the published file, compares the quota, streams the
source into a temporary file, verifies it and links it to its place. A call goes on step by step;
what its context, its source and the file system answer comes with the step. -/

namespace ProvenanceRunner.Artifact

open Utf8

variable {Digest : Type}

structure Limits where
  maximumEntryBytes : Nat
  maximumTotalBytes : Nat
  /-- No cache is created otherwise. -/
  ordered : maximumEntryBytes ≤ maximumTotalBytes

/-- What a call asks for. An exact call names the size, any other the largest one. -/
structure Request (Digest : Type) where
  digest : Digest
  maximumBytes : Nat
  exact : Bool
  sourced : Bool
deriving DecidableEq, Repr

structure Entry (Digest : Type) where
  digest : Digest
  size : Nat
deriving DecidableEq, Repr

/-- A file at its place. `publisher` remembers the call that linked it. -/
structure Published (Digest : Type) where
  digest : Digest
  content : Bytes
  publisher : Nat
deriving DecidableEq, Repr

/-- Where a call is. `lock` is the key lock that it refers to; `outcome` is what it will return. -/
inductive Stage (Digest : Type) where
  | starting
  | locking
  | waiting (lock : Nat)
  | entering (lock : Nat)
  | looking (lock : Nat)
  | measuring (lock : Nat)
  | creating (lock : Nat)
  | writing (lock : Nat) (content : Bytes) (failed : Bool)
  | sealing (lock : Nat) (content : Bytes)
  | linking (lock : Nat) (content : Bytes)
  | removing (lock : Nat) (content : Bytes) (outcome : Option (Entry Digest))
  | leaving (lock : Nat) (outcome : Option (Entry Digest))
  | returning (lock : Nat) (outcome : Option (Entry Digest))
  | releasing (lock : Nat) (outcome : Option (Entry Digest))
  | done (outcome : Option (Entry Digest))
deriving DecidableEq, Repr

structure Call (Digest : Type) where
  request : Request Digest
  stage : Stage Digest
deriving DecidableEq, Repr

/-- The lock of a key: whether its token is free, and how many calls refer to it. -/
structure KeyLock where
  token : Bool
  users : Nat
deriving DecidableEq, Repr

/-- The cache with its calls. The locks are kept by their addresses; `table` has the address of the
lock of a key. -/
structure Cache (Digest : Type) where
  files : List (Published Digest)
  calls : List (Call Digest)
  locks : List KeyLock
  table : Digest → Option Nat
  quotaHeld : Bool

def emptyCache : Cache Digest := ⟨[], [], [], fun _ => none, false⟩

variable [DecidableEq Digest]

def publishedBytes (files : List (Published Digest)) : Nat :=
  (files.map (·.content.length)).sum

/-- The bytes of the temporary file of a call. -/
def Stage.temporaryBytes : Stage Digest → Nat
  | .writing _ content _ => content.length
  | .sealing _ content => content.length
  | .linking _ content => content.length
  | .removing _ content _ => content.length
  | _ => 0

/-- Everything below the root, temporary files included. -/
def currentBytes (cache : Cache Digest) : Nat :=
  publishedBytes cache.files + (cache.calls.map (·.stage.temporaryBytes)).sum

/-- The published file of a digest, verified. `failed` stands for a cancelled context or a file
operation that fails; the error is an unusable file or one of these. -/
def existingEntry (limits : Limits) (sha256 : Bytes → Digest) (files : List (Published Digest))
    (digest : Digest) (failed : Bool) : Except Unit (Option (Entry Digest)) :=
  if failed then .error ()
  else match files.find? (·.digest = digest) with
    | none => .ok none
    | some file =>
      if limits.maximumEntryBytes < file.content.length then .error ()
      else if sha256 file.content ≠ digest then .error ()
      else .ok (some ⟨digest, file.content.length⟩)

/-- One write of the source: what the file has then, and whether the writer is broken. A broken
writer takes nothing more. -/
def verifyingWrite (maximum : Nat) (content : Bytes) (broken : Bool) (chunk : Bytes)
    (cancelled : Bool) (written : Nat) (failed : Bool) : Bytes × Bool :=
  if broken then (content, true)
  else if cancelled then (content, true)
  else if maximum - content.length < chunk.length then (content, true)
  else (content ++ chunk.take written, failed || written < chunk.length)

/-- What an entry that exists means for a request. -/
def offer (request : Request Digest) (entry : Entry Digest) : Option (Entry Digest) :=
  if request.exact && entry.size != request.maximumBytes then none else some entry

/-! ## Steps -/

inductive CacheStep (Digest : Type) where
  | acquire (digest : Digest) (sourced : Bool)
  | acquireExact (digest : Digest) (bytes : Int) (sourced : Bool)
  | begin (call : Nat) (cancelled : Bool)
  | refer (call : Nat) (cancelled : Bool)
  | abandon (call : Nat)
  | take (call : Nat) (cancelled : Bool)
  | enter (call : Nat)
  | look (call : Nat) (failed : Bool)
  | measure (call : Nat) (failed : Bool)
  | create (call : Nat) (failed : Bool)
  | write (call : Nat) (chunk : Bytes) (cancelled : Bool) (written : Nat) (failed : Bool)
  | fetched (call : Nat) (failed cancelled : Bool)
  | syncFile (call : Nat) (failed : Bool)
  | link (call : Nat) (failed lookFailed : Bool)
  | remove (call : Nat)
  | leave (call : Nat)
  | putBack (call : Nat)
  | release (call : Nat)
deriving DecidableEq, Repr

/-- The cache after a call has moved to another stage. -/
def Cache.move (cache : Cache Digest) (index : Nat) (call : Call Digest) (stage : Stage Digest) :
    Cache Digest :=
  { cache with calls := cache.calls.set index { call with stage := stage } }

/-- A reference to the lock of a key, which is created when there is none. -/
def Cache.reference (cache : Cache Digest) (digest : Digest) : Cache Digest × Nat :=
  match cache.table digest with
  | some lock => ({ cache with
      locks := cache.locks.modify lock fun held => { held with users := held.users + 1 } }, lock)
  | none => ({ cache with
      locks := cache.locks ++ [⟨true, 1⟩]
      table := fun key => if key = digest then some cache.locks.length else cache.table key },
      cache.locks.length)

/-- A reference is given back; the last one takes the lock out of the table. -/
def Cache.releaseLockReference (cache : Cache Digest) (digest : Digest) (lock : Nat) :
    Cache Digest :=
  let users := ((cache.locks[lock]?).map (·.users)).getD 0 - 1
  { cache with
    locks := cache.locks.modify lock fun held => { held with users := held.users - 1 }
    table := if users = 0 then fun key => if key = digest then none else cache.table key
      else cache.table }

def Cache.setToken (cache : Cache Digest) (lock : Nat) (token : Bool) : Cache Digest :=
  { cache with locks := cache.locks.modify lock fun held => { held with token := token } }

def Cache.tokenFree (cache : Cache Digest) (lock : Nat) : Bool :=
  ((cache.locks[lock]?).map (·.token)).getD false

def Cache.publish (cache : Cache Digest) (file : Published Digest) : Cache Digest :=
  { cache with files := cache.files ++ [file] }

/-- One step of a call that is at a stage, or `none` where it cannot be taken. -/
def CacheStep.performAt (limits : Limits) (sha256 : Bytes → Digest) (cache : Cache Digest)
    (index : Nat) (call : Call Digest) : CacheStep Digest → Option (Cache Digest)
  | .begin _ cancelled =>
    match call.stage with
    | .starting =>
      some (cache.move index call (if cancelled then .done none else .locking))
    | _ => none
  | .refer _ cancelled =>
    match call.stage with
    | .locking =>
      if cancelled then some (cache.move index call (.done none))
      else
        let (cache, lock) := cache.reference call.request.digest
        some (cache.move index call (.waiting lock))
    | _ => none
  | .abandon _ =>
    match call.stage with
    | .waiting lock => some (cache.move index call (.releasing lock none))
    | _ => none
  | .take _ cancelled =>
    match call.stage with
    | .waiting lock =>
      if cache.tokenFree lock then
        some ((cache.setToken lock false).move index call
          (if cancelled then .returning lock none else .entering lock))
      else none
    | _ => none
  | .enter _ =>
    match call.stage with
    | .entering lock =>
      if cache.quotaHeld then none
      else some ({ cache with quotaHeld := true }.move index call (.looking lock))
    | _ => none
  | .look _ failed =>
    match call.stage with
    | .looking lock =>
      match existingEntry limits sha256 cache.files call.request.digest failed with
      | .error _ => some (cache.move index call (.leaving lock none))
      | .ok (some entry) => some (cache.move index call (.leaving lock (offer call.request entry)))
      | .ok none =>
        some (cache.move index call (if call.request.sourced then .measuring lock
          else .leaving lock none))
    | _ => none
  | .measure _ failed =>
    match call.stage with
    | .measuring lock =>
      if failed || decide (limits.maximumTotalBytes < currentBytes cache) ||
          decide (limits.maximumTotalBytes - currentBytes cache < call.request.maximumBytes) then
        some (cache.move index call (.leaving lock none))
      else some (cache.move index call (.creating lock))
    | _ => none
  | .create _ failed =>
    match call.stage with
    | .creating lock =>
      some (cache.move index call (if failed then .leaving lock none else .writing lock [] false))
    | _ => none
  | .write _ chunk cancelled written failed =>
    match call.stage with
    | .writing lock content broken =>
      let after := verifyingWrite call.request.maximumBytes content broken chunk cancelled written
        failed
      some (cache.move index call (.writing lock after.1 after.2))
    | _ => none
  | .fetched _ failed cancelled =>
    match call.stage with
    | .writing lock content broken =>
      if failed || broken || cancelled ||
          (call.request.exact && content.length != call.request.maximumBytes) ||
          sha256 content != call.request.digest then
        some (cache.move index call (.removing lock content none))
      else some (cache.move index call (.sealing lock content))
    | _ => none
  | .syncFile _ failed =>
    match call.stage with
    | .sealing lock content =>
      some (cache.move index call (if failed then .removing lock content none
        else .linking lock content))
    | _ => none
  | .link _ failed lookFailed =>
    match call.stage with
    | .linking lock content =>
      if failed then some (cache.move index call (.removing lock content none))
      else if cache.files.any (·.digest = call.request.digest) then
        match existingEntry limits sha256 cache.files call.request.digest lookFailed with
        | .ok (some entry) =>
          some (cache.move index call (.removing lock content (offer call.request entry)))
        | _ => some (cache.move index call (.removing lock content none))
      else
        some ((cache.publish ⟨call.request.digest, content, index⟩).move index call
          (.removing lock content (some ⟨call.request.digest, content.length⟩)))
    | _ => none
  | .remove _ =>
    match call.stage with
    | .removing lock _ outcome => some (cache.move index call (.leaving lock outcome))
    | _ => none
  | .leave _ =>
    match call.stage with
    | .leaving lock outcome =>
      some ({ cache with quotaHeld := false }.move index call (.returning lock outcome))
    | _ => none
  | .putBack _ =>
    match call.stage with
    | .returning lock outcome =>
      -- The token goes into a channel that has room for one.
      if cache.tokenFree lock then none
      else some ((cache.setToken lock true).move index call (.releasing lock outcome))
    | _ => none
  | .release _ =>
    match call.stage with
    | .releasing lock outcome =>
      some ((cache.releaseLockReference call.request.digest lock).move index call (.done outcome))
    | _ => none
  | .acquire _ _ => none
  | .acquireExact _ _ _ => none

/-- The call that a step belongs to. -/
def CacheStep.call? : CacheStep Digest → Option Nat
  | .acquire _ _ => none
  | .acquireExact _ _ _ => none
  | .begin call _ => some call
  | .refer call _ => some call
  | .abandon call => some call
  | .take call _ => some call
  | .enter call => some call
  | .look call _ => some call
  | .measure call _ => some call
  | .create call _ => some call
  | .write call _ _ _ _ => some call
  | .fetched call _ _ => some call
  | .syncFile call _ => some call
  | .link call _ _ => some call
  | .remove call => some call
  | .leave call => some call
  | .putBack call => some call
  | .release call => some call

/-- A new call; an exact one with a size that no entry can have returns at once. -/
def Cache.newCall (limits : Limits) (cache : Cache Digest) : CacheStep Digest → Cache Digest
  | .acquire digest sourced =>
    { cache with
      calls := cache.calls ++ [⟨⟨digest, limits.maximumEntryBytes, false, sourced⟩, .starting⟩] }
  | .acquireExact digest bytes sourced =>
    if bytes ≤ 0 ∨ limits.maximumEntryBytes < bytes then
      { cache with calls := cache.calls ++ [⟨⟨digest, 0, true, sourced⟩, .done none⟩] }
    else
      { cache with calls := cache.calls ++ [⟨⟨digest, bytes.toNat, true, sourced⟩, .starting⟩] }
  | _ => cache

def CacheStep.perform (limits : Limits) (sha256 : Bytes → Digest) (cache : Cache Digest)
    (step : CacheStep Digest) : Option (Cache Digest) :=
  match step.call? with
  | none => some (cache.newCall limits step)
  | some index =>
    match cache.calls[index]? with
    | none => none
    | some call => step.performAt limits sha256 cache index call

/-- The caches that are reached from an empty root. -/
inductive CacheReached (limits : Limits) (sha256 : Bytes → Digest) : Cache Digest → Prop where
  | empty : CacheReached limits sha256 emptyCache
  | step (cache next : Cache Digest) (step : CacheStep Digest)
    (performed : step.perform limits sha256 cache = some next)
    (past : CacheReached limits sha256 cache) : CacheReached limits sha256 next

end ProvenanceRunner.Artifact
