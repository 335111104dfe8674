import Mathlib.Data.List.Infix
import ProvenanceRunner.Library.Interruptions
import ProvenanceRunner.Library.Utf8

/-! # The sandbox provider and its containers

A container has a bundle directory and, if its job has secrets, a private directory in memory. The
bundle names its owner in a metadata file; another file marks that the runtime was asked to run it.
Preparation, execution, cleanup and the reconciliation at startup are programs over system calls,
and the process may stop before any of them. A call may fail. The runtime goes on while the process
works: what it is doing comes with every answer. -/

namespace ProvenanceRunner.Containers

open Utf8 Interruptions

def containerMark : Bytes := encode "provenance-"

def validContainerID (value : Bytes) : Bool :=
  value.length == containerMark.length + 32 && containerMark.isPrefixOf value &&
    (value.drop containerMark.length).all isLowerHex

/-! ## Files -/

inductive FileName where
  | metadata
  | attempt
  | config
  | channel
deriving DecidableEq, Repr

inductive Phase where
  | prepared
  | runAttempted
deriving DecidableEq, Repr

structure BundleMetadata where
  version : Nat
  containerID : Bytes
  phase : Phase
deriving DecidableEq, Repr

def metadataVersion : Nat := 1

/-- What a file holds: part of its text, the text of a metadata document, or any other text. -/
inductive Content where
  | torn
  | metadata (metadata : BundleMetadata)
  | other
deriving DecidableEq, Repr

/-- A directory below the bundle root, with the container that it was made for. -/
structure Bundle where
  directory : Nat
  owner : Bytes
  files : List (FileName × Content)
deriving DecidableEq, Repr

/-- What the runtime does: the names in its state root, the systemd scopes of containers, and the
containers that are not gone or whose run command has not returned. -/
structure Runtime where
  stateRoot : List Bytes
  scopes : List Bytes
  running : List Bytes
deriving DecidableEq, Repr

/-- Whether an entry of the state root names a container. -/
def Runtime.entry (runtime : Runtime) (containerID : Bytes) : Bool :=
  runtime.stateRoot.any fun name => decide (containerID <:+: name)

/-- Containers stop by themselves; one that is started has an entry until it is gone and its run
command has returned. -/
def Runtime.follows (next runtime : Runtime) : Bool :=
  next.running.all fun containerID => runtime.running.contains containerID && next.entry containerID

inductive What where
  | bundle
  | secret
  | report
deriving DecidableEq, Repr

/-- A removal of something of a container, or a cleanup that reports success: whether the runtime
was started for it; whether since then its deletion succeeded, after that no entry was seen, and
after that no scope; whether it is still running; and whether something of it is left. -/
structure Event where
  what : What
  containerID : Bytes
  started : Bool
  deleted : Bool
  vacant : Bool
  scopeless : Bool
  running : Bool
  left : Bool
deriving DecidableEq, Repr

/-- The host. The last six fields are what has happened. -/
structure Host where
  bundles : List Bundle
  secrets : List Bytes
  runtime : Runtime
  directories : List Nat
  used : List Bytes
  started : List Bytes
  deleted : List Bytes
  vacant : List Bytes
  scopeless : List Bytes
  log : List Event
deriving DecidableEq, Repr

/-! ## System calls -/

inductive Op where
  | context
  | consult
  | randomContainerID
  | makeBundle (owner : Bytes)
  | createFile (directory : Nat) (file : FileName)
  | writeFile (directory : Nat) (file : FileName) (content : Content)
  | createSecret (containerID : Bytes)
  | listBundles
  | readMetadata (directory : Nat)
  | lookAttempt (directory : Nat)
  | run (containerID : Bytes)
  | wait (containerID : Bytes)
  | delete (containerID : Bytes)
  | polls
  | listState (containerID : Bytes)
  | lookScope (containerID : Bytes)
  | listBundle (directory : Nat)
  | unlink (directory : Nat) (file : FileName)
  | removeDirectory (directory : Nat)
  | clearSecret (containerID : Bytes)
  | removeSecret (containerID : Bytes)
  | report (containerID : Bytes)
deriving DecidableEq, Repr

/-- What a call returns when it does not fail. -/
def Op.Payload : Op → Type
  | .randomContainerID => { containerID : Bytes // validContainerID containerID = true }
  | .makeBundle _ => Nat
  | .listBundles => List Nat
  | .readMetadata _ => Option Content
  | .lookAttempt _ => Bool
  | .polls => Nat
  | .listState _ => Bool
  | .lookScope _ => Bool
  | .listBundle _ => List FileName
  | _ => Unit

abbrev Op.Answer (op : Op) : Type := Option op.Payload × Runtime

inductive Failure where
  | context
  | message (text : String)
deriving DecidableEq, Repr

abbrev Provider := Program Op Op.Answer Failure

/-- A call whose failure ends the program. -/
def attempt (op : Op) (failure : Failure) : Provider op.Payload :=
  .call op fun answer =>
    match answer.1 with
    | none => .fail failure
    | some payload => .pure payload

/-- A call whose failure is not looked at. -/
def ignore (op : Op) : Provider Unit := .call op fun _ => .pure ()

/-- A file that is created, written and made durable. -/
def writeJSONFile (directory : Nat) (file : FileName) (content : Content) (text : String) :
    Provider Unit := do
  let _ ← attempt (.createFile directory file) (.message text)
  let _ ← attempt (.writeFile directory file content) (.message text)
  let _ ← attempt .consult (.message text)

def unlinkAll (directory : Nat) : List FileName → Provider Unit
  | [] => pure ()
  | file :: rest => do
    let _ ← attempt (.unlink directory file) (.message "remove gVisor bundle")
    unlinkAll directory rest

/-- A directory is emptied in the order in which its names are read, and removed. -/
def removeOwnedBundle (directory : Nat) : Provider Unit := do
  let files ← attempt (.listBundle directory) (.message "remove gVisor bundle")
  unlinkAll directory files
  let _ ← attempt (.removeDirectory directory) (.message "remove gVisor bundle")

def removeSecretTmpfs (containerID : Bytes) : Provider Unit :=
  if validContainerID containerID then do
    let _ ← attempt (.clearSecret containerID) (.message "test-secret tmpfs cleanup failed")
    let _ ← attempt (.removeSecret containerID) (.message "test-secret tmpfs cleanup failed")
  else .fail (.message "invalid test-secret container identity")

/-! ## Teardown -/

structure Config where
  /-- The driver that gives each container a scope of its own. -/
  systemdUser : Bool

/-- Whether nothing of the container is left in the state root and among the scopes. -/
def containerTeardownResidue (config : Config) (containerID : Bytes) : Provider Bool := do
  let entry : Bool ← attempt (.listState containerID) (.message "inspect gVisor state root")
  if config.systemdUser then
    let scope : Bool ← attempt (.lookScope containerID) (.message "inspect gVisor systemd scope")
    pure (entry || scope)
  else pure entry

/-- The runtime is polled until nothing is left or the context ends. -/
def confirmLoop (config : Config) (containerID : Bytes) : Nat → Provider Unit
  | 0 => .fail (.message "container residue remains")
  | polls + 1 => do
    let residue ← containerTeardownResidue config containerID
    if residue then confirmLoop config containerID polls
    else
      let _ ← attempt .consult (.message "native cgroup remains after runtime deletion")

def confirmContainerTeardown (config : Config) (containerID : Bytes) : Provider Unit :=
  if validContainerID containerID then do
    let polls : Nat ← attempt .polls .context
    confirmLoop config containerID (polls + 1)
  else .fail (.message "invalid container ID for teardown confirmation")

/-! ## The environment of a job -/

structure Prepared where
  containerID : Bytes
  directory : Nat
deriving DecidableEq, Repr

def ownership (containerID : Bytes) (phase : Phase) : Content :=
  .metadata ⟨metadataVersion, containerID, phase⟩

/-- Cleanup, which a retry does not repeat once it has succeeded. -/
def cleanup (config : Config) (prepared : Prepared) (cleaned : Bool) : Provider Unit :=
  if cleaned then pure ()
  else do
    let _ ← attempt .context .context
    let attempted : Bool ← attempt (.lookAttempt prepared.directory)
      (.message "inspect gVisor run-attempt state")
    if attempted then
      let _ ← attempt (.delete prepared.containerID) (.message "delete gVisor container")
      confirmContainerTeardown config prepared.containerID
    let _ ← attempt .consult (.message "close gVisor evidence collector")
    removeSecretTmpfs prepared.containerID
    let _ ← attempt .consult (.message "close test-secret files")
    removeOwnedBundle prepared.directory

/-- A preparation that fails before it has created secrets removes the bundle. -/
def abandoning (directory : Nat) (program : Provider Unit) : Provider Unit :=
  program.rescue fun failure => do
    (removeOwnedBundle directory).rescue fun _ => pure ()
    .fail failure

/-- A preparation that fails later cleans up. -/
def cleaning (config : Config) (prepared : Prepared) (program : Provider Unit) : Provider Unit :=
  program.rescue fun failure => do
    (cleanup config prepared false).rescue fun _ => pure ()
    .fail failure

def prepare (config : Config) (secrets channel : Bool) : Provider Prepared := do
  let _ ← attempt .context .context
  let _ ← attempt .consult (.message "gvisor_rootfs_invalid")
  let containerID ← attempt .randomContainerID (.message "create gVisor container ID")
  let directory ← attempt (.makeBundle containerID.val) (.message "create gVisor bundle")
  abandoning directory do
    let _ ← attempt .consult (.message "create measured root")
    writeJSONFile directory .metadata (ownership containerID.val .prepared)
      "write gVisor bundle metadata"
    if channel then
      let _ ← attempt (.createFile directory .channel) (.message "create structured event channel")
    let _ ← attempt .consult (.message "build OCI config")
  let prepared : Prepared := ⟨containerID.val, directory⟩
  cleaning config prepared do
    if secrets then
      let _ ← attempt (.createSecret containerID.val)
        (.message "create test-secret private job directory failed")
      let _ ← attempt .consult (.message "prepare private tmpfs test-secret failed")
    writeJSONFile directory .config .other "write OCI config"
    let _ ← attempt .context .context
  pure prepared

def markRunAttempted (prepared : Prepared) : Provider Unit :=
  writeJSONFile prepared.directory .attempt (ownership prepared.containerID .runAttempted)
    "mark gVisor run attempted"

/-- The run command is started and waited for; it may outlive the wait. -/
def execute (prepared : Prepared) : Provider Unit := do
  let _ ← attempt .consult (.message "test-secret files expired")
  let _ ← attempt .context .context
  let _ ← attempt .consult (.message "gvisor_rootfs_invalid")
  markRunAttempted prepared
  let _ ← attempt .consult (.message "configure gVisor cgroup command")
  let _ ← attempt .context .context
  let _ ← attempt .consult (.message "test-secret files expired")
  ignore (.run prepared.containerID)
  ignore (.wait prepared.containerID)

/-- The cleanups of one environment, each of which may fail. One that returns without a failure is
reported. -/
def cleanups (config : Config) (prepared : Prepared) : Nat → Bool → Provider Unit
  | 0, _ => pure ()
  | count + 1, cleaned => do
    let cleaned ← ((do
      cleanup config prepared cleaned
      ignore (.report prepared.containerID)
      pure true) : Provider Bool).rescue fun _ => pure cleaned
    cleanups config prepared count cleaned

/-- One job: prepared, executed or not, and cleaned up any number of times. -/
def lifecycle (config : Config) (secrets channel executes : Bool) (count : Nat) :
    Provider Unit := do
  let prepared ← prepare config secrets channel
  if executes then (execute prepared).rescue fun _ => pure ()
  cleanups config prepared count false

/-! ## Reconciliation -/

def reconcileOwned (config : Config) (directory : Nat) (containerID : Bytes) : Provider Unit := do
  let _ ← attempt .context .context
  let attempted : Bool ← attempt (.lookAttempt directory)
    (.message "inspect bundle run-attempt state")
  if attempted then
    (do
      let _ ← attempt (.delete containerID) (.message "delete abandoned container")).rescue
      fun failure => do
        let _ ← attempt .context .context
        .fail failure
    confirmContainerTeardown config containerID
  removeSecretTmpfs containerID
  removeOwnedBundle directory

def reconcileBundle (config : Config) (directory : Nat) : Provider Unit := do
  match ← attempt (.readMetadata directory) (.message "inspect bundle") with
  | none => pure ()
  | some (.metadata metadata) =>
    if metadata.version = metadataVersion ∧ metadata.phase = .prepared ∧
        validContainerID metadata.containerID = true then
      reconcileOwned config directory metadata.containerID
    else .fail (.message "invalid ownership metadata")
  | some _ => .fail (.message "inspect bundle")

/-- The bundles one after the other. An ended context stops the pass, any other failure is kept. -/
def reconcileBundles (config : Config) : List Nat → Bool → Provider Unit
  | [], false => pure ()
  | [], true => .fail (.message "reconcile gVisor bundles")
  | directory :: rest, failed => do
    let result ← ((do
      reconcileBundle config directory
      pure none) : Provider (Option Failure)).rescue fun failure => pure (some failure)
    match result with
    | none => reconcileBundles config rest failed
    | some .context => .fail .context
    | some (.message _) => reconcileBundles config rest true

def reconcile (config : Config) : Provider Unit := do
  let directories ← attempt .listBundles (.message "reconcile gVisor bundles")
  reconcileBundles config directories false

/-! ## What the calls do -/

namespace Bundle

variable (bundle : Bundle) (file : FileName)

def contains : Bool := bundle.files.any (·.1 = file)

def create : Bundle :=
  { bundle with files := (file, .torn) :: bundle.files }

def write (content : Content) : Bundle :=
  { bundle with
    files := bundle.files.map fun entry => if entry.1 = file then (file, content) else entry }

def unlink : Bundle :=
  { bundle with files := bundle.files.filter (·.1 ≠ file) }

end Bundle

namespace Host

variable (host : Host)

def bundle (directory : Nat) : Option Bundle :=
  host.bundles.find? (·.directory = directory)

/-- One bundle is changed. -/
def change (directory : Nat) (change : Bundle → Bundle) : Host :=
  { host with
    bundles := host.bundles.map fun bundle =>
      if bundle.directory = directory then change bundle else bundle }

def event (what : What) (containerID : Bytes) : Event where
  what := what
  containerID := containerID
  started := host.started.contains containerID
  deleted := host.deleted.contains containerID
  vacant := host.vacant.contains containerID
  scopeless := host.scopeless.contains containerID
  running := host.runtime.running.contains containerID
  left := host.bundles.any (·.owner = containerID) || host.secrets.contains containerID

def note (what : What) (containerID : Bytes) : Host :=
  { host with log := host.log ++ [host.event what containerID] }

/-- The runtime is asked to run a container. -/
def start (containerID : Bytes) : Host :=
  { host with
    started := containerID :: host.started
    deleted := host.deleted.filter (· ≠ containerID)
    vacant := host.vacant.filter (· ≠ containerID)
    scopeless := host.scopeless.filter (· ≠ containerID) }

/-- No entry of the state root was seen, after a deletion. -/
def seeVacant (containerID : Bytes) : Host :=
  if containerID ∈ host.deleted then { host with vacant := containerID :: host.vacant } else host

/-- No scope was seen, after that. -/
def seeScopeless (containerID : Bytes) : Host :=
  if containerID ∈ host.vacant then { host with scopeless := containerID :: host.scopeless }
  else host

end Host

/-- What a call that does not fail does. -/
def Op.effect (host : Host) : (op : Op) → op.Payload → Option Host
  | .context, _ => some host
  | .consult, _ => some host
  | .randomContainerID, containerID =>
    if containerID.val ∈ host.used then none
    else some { host with used := containerID.val :: host.used }
  | .makeBundle owner, directory =>
    if (id directory : Nat) ∈ host.directories then none
    else some { host with
      bundles := ⟨directory, owner, []⟩ :: host.bundles
      directories := (id directory : Nat) :: host.directories }
  | .createFile directory file, _ =>
    match host.bundle directory with
    | none => none
    | some bundle =>
      if bundle.contains file then none else some (host.change directory (Bundle.create · file))
  | .writeFile directory file content, _ =>
    some (host.change directory (Bundle.write · file content))
  | .createSecret containerID, _ =>
    if containerID ∈ host.secrets then none
    else some { host with secrets := containerID :: host.secrets }
  | .listBundles, directories =>
    if List.Perm (id directories : List Nat) (host.bundles.map (·.directory)) then some host
    else none
  | .readMetadata directory, content =>
    if ((host.bundle directory).bind fun bundle => bundle.files.lookup .metadata) =
        (id content : Option Content) then some host else none
  | .lookAttempt directory, attempted =>
    if ((host.bundle directory).any fun bundle => bundle.contains .attempt) =
        (id attempted : Bool) then some host else none
  | .run containerID, _ => some (host.start containerID)
  | .wait _, _ => some host
  | .delete containerID, _ => some { host with deleted := containerID :: host.deleted }
  | .polls, _ => some host
  | .listState containerID, entry =>
    if host.runtime.entry containerID = (id entry : Bool) then
      some (if host.runtime.entry containerID then host else host.seeVacant containerID)
    else none
  | .lookScope containerID, scope =>
    if host.runtime.scopes.contains containerID = (id scope : Bool) then
      some (if host.runtime.scopes.contains containerID then host
        else host.seeScopeless containerID)
    else none
  | .listBundle directory, files =>
    if List.Perm (id files : List FileName)
        (((host.bundle directory).map fun bundle => bundle.files.map Prod.fst).getD []) then
      some host
    else none
  | .unlink directory file, _ =>
    match host.bundle directory with
    | none => none
    | some bundle =>
      some ((host.note .bundle bundle.owner).change directory (Bundle.unlink · file))
  | .removeDirectory directory, _ =>
    match host.bundle directory with
    | none => some host
    | some bundle =>
      if bundle.files.isEmpty then
        some { host.note .bundle bundle.owner with
          bundles := host.bundles.filter (·.directory ≠ directory) }
      else none
  | .clearSecret containerID, _ =>
    some (if containerID ∈ host.secrets then host.note .secret containerID else host)
  | .removeSecret containerID, _ =>
    some (if containerID ∈ host.secrets then
      { host.note .secret containerID with secrets := host.secrets.filter (· ≠ containerID) }
    else host)
  | .report containerID, _ => some (host.note .report containerID)

/-- The containers that the runtime may have before its next step. -/
def Op.launched (op : Op) (answered : Bool) (host : Host) : Runtime :=
  match op with
  | .run containerID =>
    if answered then { host.runtime with running := containerID :: host.runtime.running }
    else host.runtime
  | _ => host.runtime

/-- The answers of the system. The runtime goes on first. A call that fails changes nothing else. -/
def perform (op : Op) (answer : op.Answer) (host : Host) : Option Host :=
  if answer.2.follows (op.launched answer.1.isSome host) then
    match answer.1 with
    | none => some { host with runtime := answer.2 }
    | some payload => op.effect { host with runtime := answer.2 } payload
  else none

/-- The hosts that jobs and reconciliations leave, each stopped anywhere. -/
inductive Reached (config : Config) : Host → Prop where
  | start (runtime : Runtime) (idle : runtime.running = []) :
    Reached config ⟨[], [], runtime, [], [], [], [], [], [], []⟩
  | job (host next : Host) (secrets channel executes : Bool) (count : Nat)
    (past : Reached config host)
    (stops : Stops perform (lifecycle config secrets channel executes count) host next) :
    Reached config next
  | reconciled (host next : Host) (past : Reached config host)
    (stops : Stops perform (reconcile config) host next) : Reached config next

end ProvenanceRunner.Containers
