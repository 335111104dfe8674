import ProvenanceRunner.Artifact.Cache

/-! # The invariant of the artifact cache

Only the call that holds the quota lock touches files, so the bytes that it has reserved stay free
until it links its file. Every reference to a key lock belongs to a call that has not returned. -/

namespace ProvenanceRunner.Artifact

open Utf8

variable {Digest : Type}

/-! ## Places -/

/-- The key lock that a call refers to. -/
def Stage.lock? : Stage Digest → Option Nat
  | .starting => none
  | .locking => none
  | .waiting lock => some lock
  | .entering lock => some lock
  | .looking lock => some lock
  | .measuring lock => some lock
  | .creating lock => some lock
  | .writing lock _ _ => some lock
  | .sealing lock _ => some lock
  | .linking lock _ => some lock
  | .removing lock _ _ => some lock
  | .leaving lock _ => some lock
  | .returning lock _ => some lock
  | .releasing lock _ => some lock
  | .done _ => none

/-- Whether a call holds the quota lock. -/
def Stage.critical : Stage Digest → Bool
  | .looking _ => true
  | .measuring _ => true
  | .creating _ => true
  | .writing _ _ _ => true
  | .sealing _ _ => true
  | .linking _ _ => true
  | .removing _ _ _ => true
  | .leaving _ _ => true
  | _ => false

/-- What a call has decided to return. -/
def Stage.outcome? : Stage Digest → Option (Option (Entry Digest))
  | .removing _ _ outcome => some outcome
  | .leaving _ outcome => some outcome
  | .returning _ outcome => some outcome
  | .releasing _ outcome => some outcome
  | .done outcome => some outcome
  | _ => none

/-! ## Files -/

/-- The entry that a call returns is the one that it asked for, and is published. -/
def Returns (files : List (Published Digest)) (request : Request Digest) (entry : Entry Digest) :
    Prop :=
  entry.digest = request.digest ∧ (request.exact = true → entry.size = request.maximumBytes) ∧
    ∃ file ∈ files, file.digest = request.digest ∧ file.content.length = entry.size

/-- The bytes that a call may write still fit. -/
def Room (limits : Limits) (files : List (Published Digest)) (request : Request Digest) : Prop :=
  publishedBytes files + request.maximumBytes ≤ limits.maximumTotalBytes

/-- What is known at each stage. -/
def Staged (limits : Limits) (sha256 : Bytes → Digest) (files : List (Published Digest))
    (request : Request Digest) : Stage Digest → Prop
  | .creating _ => Room limits files request
  | .writing _ content _ => Room limits files request ∧ content.length ≤ request.maximumBytes
  | .sealing _ content => Room limits files request ∧ content.length ≤ request.maximumBytes ∧
    sha256 content = request.digest ∧
    (request.exact = true → content.length = request.maximumBytes)
  | .linking _ content => Room limits files request ∧ content.length ≤ request.maximumBytes ∧
    sha256 content = request.digest ∧
    (request.exact = true → content.length = request.maximumBytes)
  | .removing _ _ outcome => ∀ entry ∈ outcome, Returns files request entry
  | .leaving _ outcome => ∀ entry ∈ outcome, Returns files request entry
  | .returning _ outcome => ∀ entry ∈ outcome, Returns files request entry
  | .releasing _ outcome => ∀ entry ∈ outcome, Returns files request entry
  | .done outcome => ∀ entry ∈ outcome, Returns files request entry
  | _ => True

structure FilesSound (limits : Limits) (sha256 : Bytes → Digest) (cache : Cache Digest) : Prop where
  verified : ∀ file ∈ cache.files, sha256 file.content = file.digest ∧
    file.content.length ≤ limits.maximumEntryBytes
  distinct : (cache.files.map (·.digest)).Nodup
  bounded : publishedBytes cache.files ≤ limits.maximumTotalBytes
  quota : cache.calls.countP (·.stage.critical) = if cache.quotaHeld then 1 else 0
  requests : ∀ call ∈ cache.calls, call.request.maximumBytes ≤ limits.maximumEntryBytes
  staged : ∀ call ∈ cache.calls, Staged limits sha256 cache.files call.request call.stage
  publishers : ∀ file ∈ cache.files, ∃ call entry, cache.calls[file.publisher]? = some call ∧
    call.stage.outcome? = some (some entry)

section

variable {limits : Limits} {sha256 : Bytes → Digest} {cache next : Cache Digest} {index : Nat}
  {call : Call Digest}

/-- A call that moves while no file changes. -/
theorem FilesSound.move (sound : FilesSound limits sha256 cache)
    (found : cache.calls[index]? = some call) (stage : Stage Digest)
    (files : next.files = cache.files)
    (calls : next.calls = cache.calls.set index { call with stage := stage })
    (quota : (if next.quotaHeld then 1 else 0) + (if call.stage.critical then 1 else 0) =
      (if cache.quotaHeld then 1 else 0) + (if stage.critical then 1 else 0))
    (staged : Staged limits sha256 cache.files call.request stage)
    (kept : ∀ entry, call.stage.outcome? = some (some entry) →
      stage.outcome? = some (some entry)) : FilesSound limits sha256 next := by
  have member : call ∈ cache.calls := List.mem_of_getElem? found
  constructor
  · rw [files]
    exact sound.verified
  · rw [files]
    exact sound.distinct
  · rw [files]
    exact sound.bounded
  · have moved := Threads.countP_set (fun call : Call Digest => call.stage.critical) found
      { call with stage := stage }
    have counted := sound.quota
    rw [calls]
    dsimp only at moved
    omega
  · rw [calls]
    exact Threads.forall_mem_set sound.requests (sound.requests call member)
  · rw [calls, files]
    exact Threads.forall_mem_set sound.staged staged
  rw [files, calls]
  intro file published
  obtain ⟨_, entry, isPublisher, outcome⟩ := sound.publishers file published
  obtain ⟨after, isAfter, decided⟩ := Threads.exists_getElem?_set
    (·.stage.outcome? = some (some entry)) found ⟨call.request, stage⟩ (kept entry) isPublisher
    outcome
  exact ⟨after, entry, isAfter, decided⟩

/-- A stage that needs room is one under the quota lock. -/
theorem critical_or_grows {files : List (Published Digest)} {request : Request Digest}
    {stage : Stage Digest} (staged : Staged limits sha256 files request stage)
    (outside : stage.critical = false) (file : Published Digest) :
    Staged limits sha256 (files ++ [file]) request stage := by
  have grown : ∀ outcome : Option (Entry Digest), (∀ entry ∈ outcome, Returns files request entry) →
      ∀ entry ∈ outcome, Returns (files ++ [file]) request entry := by
    intro outcome returned entry present
    obtain ⟨digest, exact', published, inside, same, size⟩ := returned entry present
    exact ⟨digest, exact', published, List.mem_append_left _ inside, same, size⟩
  cases stage with
  | starting | locking | waiting | entering => trivial
  | returning lock outcome | releasing lock outcome | done outcome => exact grown outcome staged
  | _ => exact nomatch outside

/-- The call that links its file. -/
theorem FilesSound.publish [DecidableEq Digest] (sound : FilesSound limits sha256 cache)
    (found : cache.calls[index]? = some call) (lock : Nat) (content : Bytes)
    (linking : call.stage = .linking lock content)
    (absent : cache.files.any (·.digest = call.request.digest) = false) :
    FilesSound limits sha256 ((cache.publish ⟨call.request.digest, content, index⟩).move index call
      (.removing lock content (some ⟨call.request.digest, content.length⟩))) := by
  have member : call ∈ cache.calls := List.mem_of_getElem? found
  have limited := sound.requests call member
  have staged := sound.staged call member
  rw [linking] at staged
  obtain ⟨room, length, hashed, exact'⟩ := staged
  have critical : call.stage.critical = true := by rw [linking]; rfl
  have single : cache.calls.countP (·.stage.critical) ≤ 1 := by
    rw [sound.quota]
    split <;> omega
  unfold Room at room
  constructor
  · intro file inside
    rcases List.mem_append.1 inside with old | new
    · exact sound.verified file old
    · obtain rfl := List.mem_singleton.1 new
      exact ⟨hashed, Nat.le_trans length limited⟩
  · show (List.map _ (cache.files ++ [_])).Nodup
    rw [List.map_append, List.map_singleton, List.nodup_append]
    refine ⟨sound.distinct, by simp, ?_⟩
    intro digest inside other new
    rw [List.mem_singleton.1 new]
    rintro rfl
    obtain ⟨file, isFile, same⟩ := List.mem_map.1 inside
    have refused := List.any_eq_false.1 absent file isFile
    exact refused (by simpa using same)
  · show publishedBytes (cache.files ++ [_]) ≤ _
    unfold publishedBytes at room ⊢
    rw [List.map_append, List.sum_append, List.map_singleton, List.sum_singleton]
    dsimp only
    omega
  · have kept := Threads.countP_set_same (fun call : Call Digest => call.stage.critical) found
      { call with stage := .removing lock content (some ⟨call.request.digest, content.length⟩) }
      critical.symm
    exact kept.trans sound.quota
  · exact Threads.forall_mem_set sound.requests limited
  · intro other inside
    obtain ⟨_, isOther⟩ := List.mem_iff_getElem?.1 inside
    rcases Threads.getElem?_set_cases isOther with ⟨_, rfl⟩ | ⟨apart, old⟩
    · intro entry present
      obtain rfl : (⟨call.request.digest, content.length⟩ : Entry Digest) = entry := by
        simpa using present
      exact ⟨rfl, exact', _, List.mem_append_right _ List.mem_cons_self, rfl, rfl⟩
    · refine critical_or_grows (sound.staged other (List.mem_of_getElem? old)) ?_ _
      by_contra inside'
      exact apart (Threads.eq_of_countP_le_one (fun call : Call Digest => call.stage.critical)
        single old found (by simpa using inside') critical)
  · intro file inside
    rcases List.mem_append.1 inside with old | new
    · obtain ⟨_, entry, isPublisher, outcome⟩ := sound.publishers file old
      obtain ⟨after, isAfter, entry, decided⟩ := Threads.exists_getElem?_set
        (fun call => ∃ entry, call.stage.outcome? = some (some entry)) found
        { call with stage := .removing lock content (some ⟨call.request.digest, content.length⟩) }
        (fun _ => ⟨_, rfl⟩) isPublisher ⟨entry, outcome⟩
      exact ⟨after, entry, isAfter, decided⟩
    · obtain rfl := List.mem_singleton.1 new
      exact ⟨_, _, List.getElem?_set_self (List.getElem?_eq_some_iff.1 found).1, rfl⟩

/-! ## Key locks -/

/-- Whether a call refers to a lock. -/
def Call.refers (lock : Nat) (call : Call Digest) : Bool := call.stage.lock? == some lock

structure LocksSound (cache : Cache Digest) : Prop where
  users : ∀ lock held, cache.locks[lock]? = some held →
    held.users = cache.calls.countP (Call.refers lock)
  listed : ∀ call ∈ cache.calls, ∀ lock, call.stage.lock? = some lock →
    cache.table call.request.digest = some lock
  used : ∀ key lock, cache.table key = some lock →
    ∃ held, cache.locks[lock]? = some held ∧ 0 < held.users
  apart : ∀ key other lock, cache.table key = some lock → cache.table other = some lock →
    key = other

section

variable (sound : LocksSound cache) (found : cache.calls[index]? = some call) (stage : Stage Digest)
  (same : stage.lock? = call.stage.lock?)
  (calls : next.calls = cache.calls.set index { call with stage := stage })
  (table : next.table = cache.table)
include sound found same calls table

/-- A call that moves and keeps its reference, while no count of users changes. -/
theorem LocksSound.move
    (counts : ∀ lock : Nat, (next.locks[lock]?).map KeyLock.users = (cache.locks[lock]?).map
      KeyLock.users) :
    LocksSound next := by
  have member : call ∈ cache.calls := List.mem_of_getElem? found
  constructor
  · intro lock held present
    have count := counts lock
    rw [present, Option.map_some] at count
    obtain ⟨old, isOld, users⟩ := Option.map_eq_some_iff.1 count.symm
    rw [calls, Threads.countP_set_same (Call.refers lock) found _ (by simp [Call.refers, same]),
      ← users]
    exact sound.users lock old isOld
  · rw [calls, table]
    refine Threads.forall_mem_set sound.listed ?_
    exact fun lock refers => sound.listed call member lock (same ▸ refers)
  · rw [table]
    intro key lock isLock
    obtain ⟨old, isOld, positive⟩ := sound.used key lock isLock
    have count := counts lock
    rw [isOld, Option.map_some] at count
    obtain ⟨held, isHeld, users⟩ := Option.map_eq_some_iff.1 count
    exact ⟨held, isHeld, by omega⟩
  · rw [table]
    exact sound.apart

/-- Moves that leave the locks alone. -/
theorem LocksSound.plain (locks : next.locks = cache.locks) : LocksSound next :=
  sound.move found stage same calls table (fun lock => by rw [locks])

end

/-- A token changes no count of users. -/
theorem setToken_users (cache : Cache Digest) (lock : Nat) (token : Bool) (other : Nat) :
    ((cache.setToken lock token).locks[other]?).map KeyLock.users =
      (cache.locks[other]?).map KeyLock.users := by
  unfold Cache.setToken
  rw [List.getElem?_modify]
  cases cache.locks[other]? with
  | none => rfl
  | some =>
    by_cases same : lock = other
    · simp [same]
    · simp [same]

/-- A move takes the reference of the old stage and adds that of the new one. -/
theorem countP_refers (found : cache.calls[index]? = some call) (stage : Stage Digest)
    (lock : Nat) :
    (cache.calls.set index { call with stage := stage }).countP (Call.refers lock) +
        (if call.stage.lock? = some lock then 1 else 0) =
      cache.calls.countP (Call.refers lock) + (if stage.lock? = some lock then 1 else 0) := by
  have moved := Threads.countP_set (Call.refers lock) found { call with stage := stage }
  simpa [Call.refers] using moved

/-- A call that refers to no lock gets a reference to that of its key. -/
theorem LocksSound.reference [DecidableEq Digest] (sound : LocksSound cache)
    (found : cache.calls[index]? = some call) (free : call.stage.lock? = none) :
    LocksSound ((cache.reference call.request.digest).1.move index call
      (.waiting (cache.reference call.request.digest).2)) := by
  have member : call ∈ cache.calls := List.mem_of_getElem? found
  have counted (lock : Nat) := countP_refers found (.waiting lock)
  simp only [free, reduceCtorEq, if_false, Nat.add_zero] at counted
  simp only [Stage.lock?, Option.some.injEq] at counted
  unfold Cache.reference
  cases present : cache.table call.request.digest with
  | some lock =>
    constructor
    · intro other held isHeld
      show held.users = (cache.calls.set index _).countP _
      rw [counted]
      replace isHeld : (cache.locks.modify lock _)[other]? = some held := isHeld
      rw [List.getElem?_modify] at isHeld
      obtain ⟨old, isOld, rfl⟩ := Option.map_eq_some_iff.1 isHeld
      have users := sound.users other old isOld
      by_cases same : lock = other
      · simp only [same, if_true]
        omega
      · simp only [same, if_false]
        omega
    · refine Threads.forall_mem_set sound.listed ?_
      intro held refers
      obtain rfl : lock = held := by simpa [Stage.lock?] using refers
      exact present
    · intro key other isLock
      obtain ⟨old, isOld, positive⟩ := sound.used key other isLock
      show ∃ held, (cache.locks.modify lock _)[other]? = some held ∧ _
      rw [List.getElem?_modify, isOld]
      refine ⟨_, rfl, ?_⟩
      split
      · exact Nat.succ_pos _
      · exact positive
    · exact sound.apart
  | none =>
    -- The new lock has an address that nothing refers to.
    have fresh : cache.calls.countP (Call.refers cache.locks.length) = 0 := by
      rw [List.countP_eq_zero]
      intro other inside refers
      have listed :=
        sound.listed other inside cache.locks.length (by simpa [Call.refers] using refers)
      obtain ⟨held, isHeld, _⟩ := sound.used _ _ listed
      simp at isHeld
    have known : ∀ key lock, cache.table key = some lock → lock ≠ cache.locks.length := by
      intro key lock isLock
      obtain ⟨held, isHeld, _⟩ := sound.used key lock isLock
      have inside := (List.getElem?_eq_some_iff.1 isHeld).1
      omega
    dsimp only
    constructor
    · intro other held isHeld
      show held.users = (cache.calls.set index _).countP _
      rw [counted]
      rcases Threads.getElem?_snoc.1 isHeld with before | ⟨rfl, rfl⟩
      · have inside := (List.getElem?_eq_some_iff.1 before).1
        rw [if_neg (by omega), Nat.add_zero]
        exact sound.users other held before
      · rw [fresh, if_pos rfl]
    · refine Threads.forall_mem_set ?_ ?_
      · intro other old held refers
        have listed := sound.listed other old held refers
        dsimp only [Cache.move]
        rw [if_neg]
        · exact listed
        · intro same
          rw [same, present] at listed
          exact nomatch listed
      · intro held refers
        dsimp only [Cache.move]
        rw [if_pos rfl]
        exact refers
    · intro key lock isLock
      dsimp only [Cache.move] at isLock ⊢
      split_ifs at isLock with same
      · obtain rfl := Option.some.inj isLock
        exact ⟨⟨true, 1⟩, List.getElem?_concat_length, Nat.one_pos⟩
      · obtain ⟨held, isHeld, positive⟩ := sound.used key lock isLock
        exact ⟨held, Threads.getElem?_snoc.2 (.inl isHeld), positive⟩
    · intro key other lock isKey isOther
      dsimp only [Cache.move] at isKey isOther
      split_ifs at isKey isOther with first second second
      · rw [first, second]
      · exact absurd (Option.some.inj isKey).symm (known other lock isOther)
      · exact absurd (Option.some.inj isOther).symm (known key lock isKey)
      · exact sound.apart key other lock isKey isOther

/-- A call gives its reference back. -/
theorem LocksSound.release [DecidableEq Digest] (sound : LocksSound cache)
    (found : cache.calls[index]? = some call) (lock : Nat) (outcome : Option (Entry Digest))
    (releasing : call.stage = .releasing lock outcome) :
    LocksSound ((cache.releaseLockReference call.request.digest lock).move index call
      (.done outcome)) := by
  have member : call ∈ cache.calls := List.mem_of_getElem? found
  have refers : call.stage.lock? = some lock := by rw [releasing]; rfl
  have listed := sound.listed call member lock refers
  obtain ⟨held, isHeld, _⟩ := sound.used _ lock listed
  have users := sound.users lock held isHeld
  have counted := countP_refers found (.done outcome)
  simp only [refers, Option.some.injEq] at counted
  simp only [Stage.lock?, reduceCtorEq, if_false, Nat.add_zero] at counted
  have last : ∀ key, (cache.releaseLockReference call.request.digest lock).table key =
      if held.users - 1 = 0 then (if key = call.request.digest then none else cache.table key)
      else cache.table key := by
    intro key
    simp only [Cache.releaseLockReference, isHeld, Option.map_some, Option.getD_some]
    split <;> rfl
  have kept : ∀ key reference, (cache.releaseLockReference call.request.digest lock).table key =
      some reference → cache.table key = some reference := by
    intro key reference isReference
    rw [last] at isReference
    split_ifs at isReference
    · exact isReference
    · exact isReference
  have modified : ∀ other old, cache.locks[other]? = some old →
      (cache.releaseLockReference call.request.digest lock).locks[other]? =
        some (if lock = other then { old with users := old.users - 1 } else old) := by
    intro other old isOld
    show (cache.locks.modify lock _)[other]? = _
    rw [List.getElem?_modify, isOld]
    rfl
  constructor
  · intro other after isAfter
    show after.users = (cache.calls.set index _).countP _
    have count := counted other
    replace isAfter : (cache.locks.modify lock _)[other]? = some after := isAfter
    rw [List.getElem?_modify] at isAfter
    obtain ⟨old, isOld, rfl⟩ := Option.map_eq_some_iff.1 isAfter
    have before := sound.users other old isOld
    by_cases same : lock = other
    · rw [if_pos same] at count ⊢
      dsimp only
      omega
    · rw [if_neg same] at count ⊢
      omega
  · intro other inside reference isReference
    show (cache.releaseLockReference call.request.digest lock).table other.request.digest = _
    rcases List.mem_or_eq_of_mem_set inside with old | rfl
    swap
    · exact nomatch isReference
    have known := sound.listed other old reference isReference
    rw [last]
    by_cases none : held.users - 1 = 0
    · rw [if_pos none, if_neg]
      · exact known
      -- Another call of the same key would be a second user.
      · intro same
        rw [same, listed] at known
        obtain rfl := Option.some.inj known
        have more : 0 < (cache.calls.set index { call with stage := .done outcome }).countP
            (Call.refers lock) :=
          List.countP_pos_iff.2 ⟨other, inside, by simp [Call.refers, isReference]⟩
        have count := counted lock
        rw [if_pos rfl] at count
        omega
    · rw [if_neg none]
      exact known
  · intro key reference isReference
    show ∃ after, (cache.releaseLockReference call.request.digest lock).locks[reference]? =
      some after ∧ _
    replace isReference : (cache.releaseLockReference call.request.digest lock).table key =
      some reference := isReference
    have known := kept key reference isReference
    rw [last] at isReference
    obtain ⟨old, isOld, some'⟩ := sound.used key reference known
    refine ⟨_, modified reference old isOld, ?_⟩
    by_cases same : lock = reference
    · subst same
      obtain rfl := Option.some.inj (isHeld.symm.trans isOld)
      have here : key = call.request.digest := sound.apart key _ lock known listed
      rw [if_pos rfl]
      show 0 < held.users - 1
      by_cases none : held.users - 1 = 0
      · rw [if_pos none, if_pos here] at isReference
        cases isReference
      · omega
    · rw [if_neg same]
      exact some'
  · intro key other reference isKey isOther
    exact sound.apart key other reference (kept key reference isKey) (kept other reference isOther)

end

/-! ## Steps and runs -/

/-- An entry that exists is the published file of the digest. -/
theorem existingEntry_ok [DecidableEq Digest] {limits : Limits} {sha256 : Bytes → Digest}
    {files : List (Published Digest)} {digest : Digest} {failed : Bool} {entry : Entry Digest}
    (given : existingEntry limits sha256 files digest failed = .ok (some entry)) :
    entry.digest = digest ∧ ∃ file ∈ files, file.digest = digest ∧
      file.content.length = entry.size := by
  unfold existingEntry at given
  split at given
  · cases given
  split at given
  · cases given
  next file isFile =>
  split at given
  · cases given
  split at given
  · cases given
  · cases given
    have same := List.find?_some isFile
    exact ⟨rfl, file, List.mem_of_find?_eq_some isFile, by simpa using same, rfl⟩

theorem offer_returns {files : List (Published Digest)} {request : Request Digest}
    {entry : Entry Digest} (digest : entry.digest = request.digest)
    (published : ∃ file ∈ files, file.digest = request.digest ∧ file.content.length = entry.size) :
    ∀ other ∈ offer request entry, Returns files request other := by
  intro other offered
  unfold offer at offered
  split at offered
  · cases offered
  next fits =>
  obtain rfl : entry = other := by simpa using offered
  refine ⟨digest, fun exact' => ?_, published⟩
  simpa [exact'] using fits

theorem verifyingWrite_length {maximum : Nat} {content : Bytes} (within : content.length ≤ maximum)
    (broken : Bool) (chunk : Bytes) (cancelled : Bool) (written : Nat) (failed : Bool) :
    (verifyingWrite maximum content broken chunk cancelled written failed).1.length ≤ maximum := by
  unfold verifyingWrite
  split
  · exact within
  split
  · exact within
  split
  · exact within
  · next fits =>
    simp only [List.length_append, List.length_take]
    omega

/-- A step changes no published file; one that adds a file is a step of its publisher. -/
def Appends (cache next : Cache Digest) (mover : Option Nat) : Prop :=
  next.files = cache.files ∨
    ∃ file, next.files = cache.files ++ [file] ∧ mover = some file.publisher

structure CacheSound (limits : Limits) (sha256 : Bytes → Digest) (cache : Cache Digest) : Prop where
  files : FilesSound limits sha256 cache
  locks : LocksSound cache

section

variable {limits : Limits} {sha256 : Bytes → Digest} {cache : Cache Digest} {index : Nat}
  {call : Call Digest}

/-- A move between stages that keeps the lock reference, the quota lock and what was decided. -/
theorem CacheSound.move (sound : CacheSound limits sha256 cache)
    (found : cache.calls[index]? = some call) (stage : Stage Digest)
    (lock : stage.lock? = call.stage.lock?) (critical : stage.critical = call.stage.critical)
    (kept : call.stage.outcome? = none ∨ stage.outcome? = call.stage.outcome?)
    (staged : Staged limits sha256 cache.files call.request stage) :
    CacheSound limits sha256 (cache.move index call stage) ∧
      Appends cache (cache.move index call stage) (some index) := by
  refine ⟨⟨sound.files.move found stage rfl rfl (by rw [critical]; rfl) staged ?_,
    sound.locks.plain found stage lock rfl rfl rfl⟩, .inl rfl⟩
  intro entry decided
  rcases kept with none | same
  · exact absurd (none.symm.trans decided) nofun
  · exact same.trans decided

/-- A call that starts, or is refused at once, keeps the cache sound. -/
theorem CacheSound.append (sound : CacheSound limits sha256 cache) (request : Request Digest)
    (stage : Stage Digest) (limited : request.maximumBytes ≤ limits.maximumEntryBytes)
    (lock : stage.lock? = none) (critical : stage.critical = false)
    (staged : Staged limits sha256 cache.files request stage) :
    CacheSound limits sha256 { cache with calls := cache.calls ++ [⟨request, stage⟩] } := by
  have idle : ∀ other, Call.refers other ⟨request, stage⟩ = false := by simp [Call.refers, lock]
  constructor
  · constructor
    · exact sound.files.verified
    · exact sound.files.distinct
    · exact sound.files.bounded
    · show (cache.calls ++ [_]).countP _ = if cache.quotaHeld then 1 else 0
      rw [List.countP_append, sound.files.quota]
      simp [critical]
    · exact List.forall_mem_append.2 ⟨sound.files.requests, List.forall_mem_singleton.2 limited⟩
    · exact List.forall_mem_append.2 ⟨sound.files.staged, List.forall_mem_singleton.2 staged⟩
    · intro file published
      obtain ⟨publisher, entry, isPublisher, outcome⟩ := sound.files.publishers file published
      exact ⟨publisher, entry, Threads.getElem?_snoc.2 (.inl isPublisher), outcome⟩
  · constructor
    · intro other held isHeld
      show held.users = (cache.calls ++ [_]).countP _
      rw [List.countP_append, ← sound.locks.users other held isHeld]
      simp [idle]
    · refine List.forall_mem_append.2 ⟨sound.locks.listed, List.forall_mem_singleton.2 ?_⟩
      exact fun other refers => absurd (lock.symm.trans refers) nofun
    · exact sound.locks.used
    · exact sound.locks.apart

theorem CacheSound.newCall (sound : CacheSound limits sha256 cache) (step : CacheStep Digest) :
    CacheSound limits sha256 (cache.newCall limits step) ∧
      Appends cache (cache.newCall limits step) none := by
  cases step with
  | acquire =>
    exact ⟨sound.append _ .starting (Nat.le_refl _) rfl rfl trivial, .inl rfl⟩
  | acquireExact digest bytes =>
    dsimp only [Cache.newCall]
    by_cases refused : bytes ≤ 0 ∨ limits.maximumEntryBytes < bytes
    · rw [if_pos refused]
      exact ⟨sound.append _ (.done none) (Nat.zero_le _) rfl rfl (by simp [Staged]),
        .inl rfl⟩
    · rw [if_neg refused]
      exact ⟨sound.append _ .starting (by dsimp only; omega) rfl rfl trivial, .inl rfl⟩
  | _ => exact ⟨sound, .inl rfl⟩

theorem emptyCache_sound (limits : Limits) (sha256 : Bytes → Digest) :
    CacheSound limits sha256 emptyCache := by
  constructor
  · constructor <;> simp [emptyCache, publishedBytes]
  · constructor <;> simp [emptyCache]

variable [DecidableEq Digest]

/-- A reference to a lock touches neither files nor calls. -/
theorem reference_keeps (cache : Cache Digest) (digest : Digest) :
    (cache.reference digest).1.files = cache.files ∧
      (cache.reference digest).1.calls = cache.calls ∧
      (cache.reference digest).1.quotaHeld = cache.quotaHeld := by
  unfold Cache.reference
  split
  · exact ⟨rfl, rfl, rfl⟩
  · exact ⟨rfl, rfl, rfl⟩

/-- Every step of a call keeps the cache sound and takes no file back. -/
theorem CacheSound.performAt (sound : CacheSound limits sha256 cache)
    (found : cache.calls[index]? = some call) (step : CacheStep Digest) (next : Cache Digest)
    (performed : step.performAt limits sha256 cache index call = some next) :
    CacheSound limits sha256 next ∧ Appends cache next (some index) := by
  have staged := sound.files.staged call (List.mem_of_getElem? found)
  obtain ⟨request, stage⟩ := call
  -- A step is taken at one stage only.
  cases step with
  | acquire | acquireExact => cases performed
  | begin _ cancelled =>
    cases stage with
    | starting =>
      cases performed
      cases cancelled with
      | true => exact sound.move found (.done none) rfl rfl (.inl rfl) (by simp [Staged])
      | false => exact sound.move found .locking rfl rfl (.inl rfl) trivial
    | _ => cases performed
  | refer _ cancelled =>
    cases stage with
    | locking =>
      cases cancelled with
      | true =>
        cases performed
        exact sound.move found _ rfl rfl (.inl rfl) (by simp [Staged])
      | false =>
        cases performed
        obtain ⟨files, calls, quota⟩ := reference_keeps cache request.digest
        refine ⟨⟨?_, sound.locks.reference found rfl⟩, .inl files⟩
        refine sound.files.move found (.waiting (cache.reference request.digest).2) files ?_ ?_
          (by simp [Staged]) nofun
        · show (cache.reference request.digest).1.calls.set index _ = _
          rw [calls]
          rfl
        · show (if (cache.reference request.digest).1.quotaHeld = true then 1 else 0) + _ = _
          rw [quota]
          rfl
    | _ => cases performed
  | abandon _ =>
    cases stage with
    | waiting =>
      cases performed
      exact sound.move found _ rfl rfl (.inl rfl) (by simp [Staged])
    | _ => cases performed
  | take _ cancelled =>
    cases stage with
    | waiting lock =>
      obtain ⟨_, moved⟩ := Option.ite_none_right_eq_some.1 performed
      cases moved
      refine ⟨⟨sound.files.move found _ rfl rfl ?_ ?_ nofun, ?_⟩, .inl rfl⟩
      · cases cancelled <;> rfl
      · cases cancelled <;> simp [Staged]
      · refine sound.locks.move found _ ?_ rfl rfl (setToken_users cache lock false)
        cases cancelled <;> rfl
    | _ => cases performed
  | enter _ =>
    cases stage with
    | entering lock =>
      obtain ⟨free, moved⟩ := Option.ite_none_left_eq_some.1 performed
      cases moved
      exact ⟨⟨sound.files.move found (.looking lock) rfl rfl (by rw [if_neg free]; rfl) trivial
        nofun, sound.locks.plain found (.looking lock) rfl rfl rfl rfl⟩, .inl rfl⟩
    | _ => cases performed
  | look _ =>
    cases stage with
    | looking lock =>
      dsimp only [CacheStep.performAt] at performed
      split at performed
      · cases performed
        exact sound.move found _ rfl rfl (.inl rfl) (by simp [Staged])
      · next entry existing =>
        cases performed
        obtain ⟨digest, published⟩ := existingEntry_ok existing
        exact sound.move found _ rfl rfl (.inl rfl) (offer_returns digest published)
      · cases performed
        cases request.sourced with
        | true => exact sound.move found (.measuring lock) rfl rfl (.inl rfl) trivial
        | false => exact sound.move found (.leaving lock none) rfl rfl (.inl rfl) (by simp [Staged])
    | _ => cases performed
  | measure _ =>
    cases stage with
    | measuring =>
      dsimp only [CacheStep.performAt] at performed
      split at performed
      · cases performed
        exact sound.move found _ rfl rfl (.inl rfl) (by simp [Staged])
      next fits =>
      cases performed
      refine sound.move found _ rfl rfl (.inl rfl) ?_
      simp only [Bool.or_eq_true, decide_eq_true_eq, not_or] at fits
      unfold currentBytes at fits
      obtain ⟨⟨_, total⟩, rest⟩ := fits
      show publishedBytes cache.files + request.maximumBytes ≤ limits.maximumTotalBytes
      omega
    | _ => cases performed
  | create _ failed =>
    cases stage with
    | creating lock =>
      cases performed
      cases failed with
      | true => exact sound.move found (.leaving lock none) rfl rfl (.inl rfl) (by simp [Staged])
      | false =>
        exact sound.move found (.writing lock [] false) rfl rfl (.inl rfl) ⟨staged, Nat.zero_le _⟩
    | _ => cases performed
  | write _ chunk cancelled written failed =>
    cases stage with
    | writing lock content broken =>
      cases performed
      exact sound.move found _ rfl rfl (.inl rfl)
        ⟨staged.1, verifyingWrite_length staged.2 broken chunk cancelled written failed⟩
    | _ => cases performed
  | fetched _ =>
    cases stage with
    | writing =>
      dsimp only [CacheStep.performAt] at performed
      split at performed
      · cases performed
        exact sound.move found _ rfl rfl (.inl rfl) (by simp [Staged])
      next verified =>
      cases performed
      refine sound.move found _ rfl rfl (.inl rfl) ?_
      simp only [Bool.or_eq_true, Bool.and_eq_true, bne_iff_ne, ne_eq, not_or, not_and,
        Decidable.not_not] at verified
      exact ⟨staged.1, staged.2, verified.2, verified.1.2⟩
    | _ => cases performed
  | syncFile _ failed =>
    cases stage with
    | sealing lock content =>
      cases performed
      cases failed with
      | true =>
        exact sound.move found (.removing lock content none) rfl rfl (.inl rfl) (by simp [Staged])
      | false => exact sound.move found (.linking lock content) rfl rfl (.inl rfl) staged
    | _ => cases performed
  | link _ =>
    cases stage with
    | linking lock content =>
      dsimp only [CacheStep.performAt] at performed
      split at performed
      · cases performed
        exact sound.move found _ rfl rfl (.inl rfl) (by simp [Staged])
      split at performed
      · split at performed
        · next entry existing =>
          cases performed
          obtain ⟨digest, published⟩ := existingEntry_ok existing
          exact sound.move found _ rfl rfl (.inl rfl) (offer_returns digest published)
        · cases performed
          exact sound.move found _ rfl rfl (.inl rfl) (by simp [Staged])
      · next absent =>
        cases performed
        exact ⟨⟨sound.files.publish found lock content rfl (Bool.eq_false_iff.2 absent),
          sound.locks.plain found (.removing lock content _) rfl rfl rfl rfl⟩, .inr ⟨_, rfl, rfl⟩⟩
    | _ => cases performed
  | remove _ =>
    cases stage with
    | removing =>
      cases performed
      exact sound.move found _ rfl rfl (.inr rfl) staged
    | _ => cases performed
  | leave _ =>
    cases stage with
    | leaving lock outcome =>
      cases performed
      have held : cache.quotaHeld = true := by
        have counted := sound.files.quota
        have positive :=
          Threads.countP_pos (fun call : Call Digest => call.stage.critical) found rfl
        by_contra free
        rw [if_neg free] at counted
        omega
      exact ⟨⟨sound.files.move found (.returning lock outcome) rfl rfl (by rw [held]; rfl) staged
        fun _ => id, sound.locks.plain found (.returning lock outcome) rfl rfl rfl rfl⟩, .inl rfl⟩
    | _ => cases performed
  | putBack _ =>
    cases stage with
    | returning lock outcome =>
      obtain ⟨_, moved⟩ := Option.ite_none_left_eq_some.1 performed
      cases moved
      exact ⟨⟨sound.files.move found (.releasing lock outcome) rfl rfl rfl staged fun _ => id,
        sound.locks.move found (.releasing lock outcome) rfl rfl rfl
          (setToken_users cache lock true)⟩, .inl rfl⟩
    | _ => cases performed
  | release _ =>
    cases stage with
    | releasing lock outcome =>
      cases performed
      exact ⟨⟨sound.files.move found (.done outcome) rfl rfl rfl staged fun _ => id,
        sound.locks.release found lock outcome rfl⟩, .inl rfl⟩
    | _ => cases performed

/-- One step of any call. -/
theorem CacheSound.perform (sound : CacheSound limits sha256 cache) (step : CacheStep Digest)
    (next : Cache Digest) (performed : step.perform limits sha256 cache = some next) :
    CacheSound limits sha256 next ∧ Appends cache next step.call? := by
  unfold CacheStep.perform at performed
  split at performed
  · next isNone =>
    cases performed
    rw [isNone]
    exact sound.newCall step
  · next index isCall =>
    split at performed
    · cases performed
    · next call found =>
      rw [isCall]
      exact sound.performAt found step next performed

theorem CacheReached.sound (reached : CacheReached limits sha256 cache) :
    CacheSound limits sha256 cache := by
  induction reached with
  | empty => exact emptyCache_sound limits sha256
  | step cache next step performed _ sound => exact (sound.perform step next performed).1

theorem CacheReached.run (steps : List (CacheStep Digest)) :
    ∀ cache next, CacheReached limits sha256 cache →
      steps.foldlM (fun cache step => step.perform limits sha256 cache) cache = some next →
      CacheReached limits sha256 next := by
  induction steps with
  | nil =>
    intro cache next reached ran
    cases ran
    exact reached
  | cons step steps later =>
    intro cache next reached ran
    rw [List.foldlM_cons] at ran
    obtain ⟨between, performed, rest⟩ := Option.bind_eq_some_iff.1 ran
    exact later between next (.step cache between step performed reached) rest

end

/-! ## The cache -/

/-- Every published file is what its digest says and within the limits; a call returns what it was
asked for; a call that fails has published nothing, and no step changes or removes a file; when all
calls have returned no lock is left.

Proof: the invariant of all steps; a lock in the table has a user, which has not returned. -/
theorem cache_invariant [DecidableEq Digest] (limits : Limits) (sha256 : Bytes → Digest)
    (cache : Cache Digest) (reached : CacheReached limits sha256 cache) :
    (∀ file ∈ cache.files, sha256 file.content = file.digest ∧
      file.content.length ≤ limits.maximumEntryBytes) ∧
    (cache.files.map (·.digest)).Nodup ∧
    publishedBytes cache.files ≤ limits.maximumTotalBytes ∧
    (∀ call ∈ cache.calls, ∀ entry, call.stage = .done (some entry) →
      Returns cache.files call.request entry) ∧
    (∀ index call, cache.calls[index]? = some call → call.stage = .done none →
      ∀ file ∈ cache.files, file.publisher ≠ index) ∧
    (∀ step next, CacheStep.perform limits sha256 cache step = some next →
      Appends cache next step.call?) ∧
    ((∀ call ∈ cache.calls, ∃ outcome, call.stage = .done outcome) →
      ∀ key, cache.table key = none) := by
  have sound := reached.sound
  refine ⟨sound.files.verified, sound.files.distinct, sound.files.bounded, ?_, ?_, ?_, ?_⟩
  · intro call inside entry done
    have staged := sound.files.staged call inside
    rw [done] at staged
    exact staged entry rfl
  · intro index call found failed file published isPublisher
    obtain ⟨_, _, isCall, outcome⟩ := sound.files.publishers file published
    rw [isPublisher, found] at isCall
    obtain rfl := Option.some.inj isCall
    rw [failed] at outcome
    exact nomatch outcome
  · exact fun step next performed => (sound.perform step next performed).2
  intro returned key
  cases listed : cache.table key with
  | none => rfl
  | some lock =>
    -- A lock in the table has a user, and a user is a call that has not returned.
    obtain ⟨held, isHeld, used⟩ := sound.locks.used key lock listed
    rw [sound.locks.users lock held isHeld] at used
    obtain ⟨call, inside, refers⟩ := List.countP_pos_iff.1 used
    obtain ⟨_, done⟩ := returned call inside
    simp [Call.refers, done, Stage.lock?] at refers

/-- Two calls for one key, with a source that writes too much in between and a second one that
finds the file. -/
theorem cache_invariant_run :
    ∃ cache : Cache Bytes, CacheReached ⟨4, 8, by decide⟩ id cache ∧
      cache.files.map (·.digest) = [[1, 2, 3]] ∧
      cache.calls.map (·.stage) =
        [.done (some ⟨[1, 2, 3], 3⟩), .done (some ⟨[1, 2, 3], 3⟩), .done none] ∧
      (∀ key, cache.table key = none) := by
  let steps : List (CacheStep Bytes) := [.acquireExact [1, 2, 3] 3 true, .acquire [1, 2, 3] true,
    .acquire [9] true, .begin 0 false, .begin 1 false, .begin 2 false, .refer 0 false,
    .refer 1 false, .refer 2 false, .take 2 false, .enter 2, .look 2 false, .measure 2 false,
    .create 2 false, .write 2 [1, 2, 3, 4, 5] false 0 false, .take 0 false,
    .fetched 2 false false, .remove 2, .leave 2, .putBack 2, .release 2, .enter 0, .look 0 false,
    .measure 0 false, .create 0 false, .write 0 [1] false 1 false, .write 0 [2, 3] false 2 false,
    .fetched 0 false false, .syncFile 0 false, .link 0 false false, .remove 0, .leave 0, .putBack 0,
    .release 0, .take 1 false, .enter 1, .look 1 false, .leave 1, .putBack 1, .release 1]
  have ran : ∃ cache, steps.foldlM (fun cache step =>
      step.perform ⟨4, 8, by decide⟩ (id : Bytes → Bytes) cache) emptyCache = some cache ∧
      cache.files.map (·.digest) = [[1, 2, 3]] ∧
      cache.calls.map (·.stage) =
        [.done (some ⟨[1, 2, 3], 3⟩), .done (some ⟨[1, 2, 3], 3⟩), .done none] :=
    ⟨_, rfl, rfl, rfl⟩
  obtain ⟨cache, performed, files, stages⟩ := ran
  have reached : CacheReached ⟨4, 8, by decide⟩ id cache :=
    CacheReached.run steps emptyCache cache .empty performed
  refine ⟨cache, reached, files, stages, ?_⟩
  refine (cache_invariant ⟨4, 8, by decide⟩ id cache reached).2.2.2.2.2.2 ?_
  intro call inside
  have stage : call.stage ∈ cache.calls.map (·.stage) := List.mem_map_of_mem inside
  rw [stages] at stage
  simp only [List.mem_cons, List.not_mem_nil, or_false] at stage
  rcases stage with done | done | done
  · exact ⟨_, done⟩
  · exact ⟨_, done⟩
  · exact ⟨_, done⟩

end ProvenanceRunner.Artifact
