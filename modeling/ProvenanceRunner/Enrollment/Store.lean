import ProvenanceRunner.Enrollment.Redemption
import ProvenanceRunner.Library.Interruptions

/-! # The enrollment store

Three private files: the identity document, the credential and the registration token. Each is
replaced through a temporary file beside it, and the token leaves through one. Every system call is
an operation; it may fail, and the process may stop before any of them. A file that is written or
cleared has part of its new bytes first.

Files have the owner, mode and link count that the store gives them; a call that finds another one
fails, and so does a read of more than the limit. -/

namespace ProvenanceRunner.Enrollment

open Utf8 Interruptions

inductive Place where
  | identity
  | credential
  | token
deriving DecidableEq, Repr

/-- What a file holds: the text of a document, or bytes that are not one. -/
inductive Content where
  | document (document : Document)
  | raw (bytes : Bytes)
deriving DecidableEq, Repr

/-- The system calls. A temporary file has a suffix of its own beside its place. -/
inductive Op where
  | lock
  | list (place : Place)
  | writeSome (place : Place) (suffix : Nat)
  | write (place : Place) (suffix : Nat) (content : Content)
  | zeroSome (place : Place) (suffix : Nat)
  | zero (place : Place) (suffix : Nat)
  | unlink (place : Place) (suffix : Nat)
  | syncDirectory (place : Place)
  | read (place : Place)
  | check (place : Place)
  | createTemporary (place : Place)
  | install (place : Place) (suffix : Nat)
  | exchange (place : Place) (suffix : Nat)
  | isolate (place : Place)
  | restore (place : Place) (suffix : Nat)
  | random
  | generateKey
  | redeem (document : Document)

/-- What a call returns when it does not fail. -/
def Op.Payload (crypto : Crypto) : Op → Type
  | .list _ => List Nat
  | .writeSome _ _ => Bytes
  | .zeroSome _ _ => Nat
  | .read _ => Option Content
  | .createTemporary _ => Nat
  | .isolate _ => Nat
  | .random => { bytes : Bytes // bytes.length = 24 }
  | .generateKey => Key crypto
  | .redeem _ => Reply
  | _ => Unit

abbrev Op.Answer (crypto : Crypto) (op : Op) : Type := Option (op.Payload crypto)

inductive Failure where
  | message (text : String)
  | registration (code : Bytes) (retryable : Bool)
deriving DecidableEq, Repr

abbrev Enroll (crypto : Crypto) := Program Op (Op.Answer crypto) Failure

variable {crypto : Crypto}

/-- A call whose failure ends the program. -/
def attempt (op : Op) (text : String) : Enroll crypto (op.Payload crypto) :=
  .call op fun
    | none => .fail (.message text)
    | some payload => .pure payload

/-- A call whose failure is not looked at. -/
def ignore (op : Op) : Enroll crypto Unit := .call op fun _ => .pure ()

/-- A program whose failure gets another text. -/
def named (program : Enroll crypto α) (text : String) : Enroll crypto α :=
  program.rescue fun _ => .fail (.message text)

/-- A temporary file is overwritten with zeroes. -/
def zeroAt (place : Place) (suffix : Nat) (text : String) : Enroll crypto Unit := do
  let _ ← attempt (.zeroSome place suffix) text
  let _ ← attempt (.zero place suffix) text

def writeAndSync (place : Place) (suffix : Nat) (content : Content) (text : String) :
    Enroll crypto Unit := do
  let _ ← attempt (.writeSome place suffix) text
  let _ ← attempt (.write place suffix content) text

/-- A temporary file that was not installed goes. -/
def discard (place : Place) (suffix : Nat) : Enroll crypto Unit := do
  ignore (.zeroSome place suffix)
  ignore (.zero place suffix)
  ignore (.unlink place suffix)

/-- A program that discards its temporary file when it fails. -/
def discarding (place : Place) (suffix : Nat) (program : Enroll crypto Unit) : Enroll crypto Unit :=
  program.rescue fun failure => do
    discard place suffix
    .fail failure

def createAt (place : Place) (content : Content) : Enroll crypto Unit := do
  let suffix ← attempt (.createTemporary place) "create private temporary file failed"
  discarding place suffix do
    writeAndSync place suffix content "write private file failed"
    let _ ← attempt (.install place suffix) "install private file failed"
  let _ ← attempt (.syncDirectory place) "private file directory durability failed"

def replaceAt (place : Place) (content : Content) : Enroll crypto Unit := do
  match ← attempt (.read place) "read private file failed" with
  | none => createAt place content
  | some _ =>
    let suffix ← attempt (.createTemporary place) "create private temporary file failed"
    discarding place suffix do
      writeAndSync place suffix content "write runner identity failed"
      let _ ← attempt (.check place) "runner identity target changed during update"
      let _ ← attempt (.exchange place suffix) "atomic runner identity update failed"
    zeroAt place suffix "clear displaced runner identity failed"
    let _ ← attempt (.unlink place suffix) "remove displaced runner identity failed"
    let _ ← attempt (.syncDirectory place) "runner identity directory durability failed"

/-- The stale temporary files of a place, one after the other. -/
def removeTemporaries (place : Place) : List Nat → Enroll crypto Unit
  | [] => pure ()
  | suffix :: rest => do
    zeroAt place suffix "stale private temporary is unsafe"
    let _ ← attempt (.unlink place suffix) "remove stale private temporary failed"
    removeTemporaries place rest

def cleanupTemporaries (place : Place) : Enroll crypto Unit := do
  let suffixes ← attempt (.list place) "inspect private file directory failed"
  removeTemporaries place suffixes
  if suffixes.isEmpty then pure ()
  else
    let _ ← attempt (.syncDirectory place) "inspect private file directory failed"

def openStore : Enroll crypto Unit := do
  let _ ← attempt .lock "another enrollment is already running"
  cleanupTemporaries .identity
  cleanupTemporaries .credential
  cleanupTemporaries .token

def readToken : Enroll crypto Content := do
  match ← attempt (.read .token) "read private file failed" with
  | none => .fail (.message "file does not exist")
  | some content => pure content

def readIdentity : Enroll crypto (Option Document) := do
  match ← attempt (.read .identity) "read private file failed" with
  | none => pure none
  | some (.raw _) => .fail (.message "runner identity document is invalid")
  | some (.document document) =>
    if document.validate crypto then pure (some document)
    else .fail (.message "runner identity document is invalid")

def writeIdentity (document : Document) : Enroll crypto Unit :=
  if document.validate crypto then replaceAt .identity (.document document)
  else .fail (.message "runner identity is invalid")

def credentialExists : Enroll crypto Bool := do
  let content ← attempt (.read .credential) "read private file failed"
  pure content.isSome

def installCredential (credential : Bytes) : Enroll crypto Unit := do
  if credential.isEmpty || decide (4096 < credential.length) then
    .fail (.message "issued credential is invalid")
  else
    match ← attempt (.read .credential) "read private file failed" with
    | some existing =>
      if existing = .raw credential then pure ()
      else .fail (.message "credential file already contains a different credential")
    | none => createAt .credential (.raw credential)

/-- The digest of a token file. -/
def Content.sha256 (crypto : Crypto) : Content → Option Bytes
  | .raw bytes => some (crypto.sha256 bytes)
  | .document _ => none

/-- An isolated token that cannot be cleared goes back to its place. -/
def restoring (suffix : Nat) (program : Enroll crypto Unit) : Enroll crypto Unit :=
  program.rescue fun failure => do
    ignore (.restore .token suffix)
    .fail failure

def removeToken (expected : Bytes) : Enroll crypto Unit := do
  match ← attempt (.read .token) "read private file failed" with
  | none => pure ()
  | some content =>
    if content.sha256 crypto = some expected then
      let suffix ← attempt (.isolate .token) "isolate consumed registration token failed"
      restoring suffix do
        let _ ← attempt (.check .token) "registration token changed before removal"
        zeroAt .token suffix "clear registration token failed"
      let _ ← attempt (.unlink .token suffix) "remove registration token failed"
      let _ ← attempt (.syncDirectory .token) "registration token directory durability failed"
    else .fail (.message "registration token changed before removal")

/-! ## What the calls do -/

/-- The temporary files of a place, each with a suffix of its own. -/
structure Directory where
  files : List (Nat × Content)
  distinct : (files.map Prod.fst).Nodup

namespace Directory

/-- A change of what a file holds keeps its name. -/
theorem map_fst_fill (files : List (Nat × Content)) (suffix : Nat) (change : Content → Content) :
    (files.map fun file => if file.1 = suffix then (file.1, change file.2) else file).map Prod.fst =
      files.map Prod.fst := by
  rw [List.map_map]
  apply List.map_congr_left
  intro file _
  dsimp only [Function.comp]
  split
  · rfl
  · rfl

variable (directory : Directory) (suffix : Nat)

def names : List Nat := directory.files.map Prod.fst

def content : Option Content :=
  directory.files.lookup suffix

/-- A directory with one more file; a suffix that is taken leaves it alone. -/
def create (content : Content) : Directory :=
  if fresh : suffix ∈ directory.names then directory
  else
    { files := (suffix, content) :: directory.files
      distinct := List.nodup_cons.2 ⟨fresh, directory.distinct⟩ }

def fill (change : Content → Content) : Directory where
  files := directory.files.map fun file => if file.1 = suffix then (file.1, change file.2) else file
  distinct := by
    rw [map_fst_fill]
    exact directory.distinct

def drop : Directory where
  files := directory.files.filter (·.1 ≠ suffix)
  distinct := (List.filter_sublist.map _).nodup directory.distinct

end Directory

/-- The files, and what the authority has issued so far. -/
structure Machine where
  target : Place → Option Content
  temporaries : Place → Directory
  issued : List RedeemResponse

namespace Machine

variable (machine : Machine) (place : Place)

def setTarget (content : Option Content) : Machine :=
  { machine with target := Function.update machine.target place content }

def setTemporaries (files : Directory) : Machine :=
  { machine with temporaries := Function.update machine.temporaries place files }

/-- The content of a temporary file. -/
def temporary (suffix : Nat) : Option Content :=
  (machine.temporaries place).content suffix

def fill (suffix : Nat) (change : Content → Content) : Machine :=
  machine.setTemporaries place ((machine.temporaries place).fill suffix change)

def drop (suffix : Nat) : Machine :=
  machine.setTemporaries place ((machine.temporaries place).drop suffix)

def create (suffix : Nat) (content : Content) : Machine :=
  machine.setTemporaries place ((machine.temporaries place).create suffix content)

end Machine

/-- A created runner is remembered. -/
def Machine.note (machine : Machine) : Reply → Machine
  | .created response => { machine with issued := machine.issued ++ [response] }
  | _ => machine

/-- Zeroes over the first bytes of a file. A document that is overwritten is none any more. -/
def Content.zeroed (count : Nat) : Content → Content
  | .raw bytes => .raw (List.replicate (min count bytes.length) 0 ++ bytes.drop count)
  | .document _ => .raw []

def Content.size : Content → Nat
  | .raw bytes => bytes.length
  | .document _ => 0

/-- Whether a call can do its work on the files as they are. -/
def Op.possible (op : Op) (machine : Machine) : Bool :=
  match op with
  | .writeSome place suffix => (machine.temporary place suffix).isSome
  | .write place suffix _ => (machine.temporary place suffix).isSome
  | .zeroSome place suffix => (machine.temporary place suffix).isSome
  | .zero place suffix => (machine.temporary place suffix).isSome
  | .unlink place suffix => (machine.temporary place suffix).isSome
  | .install place suffix =>
    (machine.target place).isNone && (machine.temporary place suffix).isSome
  | .exchange place suffix =>
    (machine.target place).isSome && (machine.temporary place suffix).isSome
  | .isolate place => (machine.target place).isSome
  | .restore place suffix =>
    (machine.target place).isNone && (machine.temporary place suffix).isSome
  | _ => true

/-- What a call that does its work makes of the machine, with what it returns. -/
def Op.effect (crypto : Crypto) (authority : Authority crypto) (machine : Machine) :
    (op : Op) → op.Payload crypto → Option Machine
  | .lock, _ => some machine
  | .list place, suffixes =>
    if (machine.temporaries place).names = (id suffixes : List Nat) then some machine else none
  | .writeSome place suffix, bytes => some (machine.fill place suffix fun _ => .raw bytes)
  | .write place suffix content, _ => some (machine.fill place suffix fun _ => content)
  | .zeroSome place suffix, count => some (machine.fill place suffix (Content.zeroed count))
  | .zero place suffix, _ =>
    some (machine.fill place suffix fun content => content.zeroed content.size)
  | .unlink place suffix, _ => some (machine.drop place suffix)
  | .syncDirectory _, _ => some machine
  | .read place, content =>
    if machine.target place = (id content : Option Content) then some machine else none
  | .check _, _ => some machine
  | .createTemporary place, suffix =>
    if (machine.temporary place suffix).isNone then some (machine.create place suffix (.raw []))
    else none
  | .install place suffix, _ =>
    some ((machine.setTarget place (machine.temporary place suffix)).drop place suffix)
  | .exchange place suffix, _ =>
    match machine.target place with
    | none => none
    | some old =>
      some ((machine.setTarget place (machine.temporary place suffix)).fill place suffix
        fun _ => old)
  | .isolate place, suffix =>
    match machine.target place, machine.temporary place suffix with
    | some content, none => some ((machine.setTarget place none).create place suffix content)
    | _, _ => none
  | .restore place suffix, _ =>
    some ((machine.setTarget place (machine.temporary place suffix)).drop place suffix)
  | .random, _ => some machine
  | .generateKey, _ => some machine
  | .redeem document, reply =>
    if Reply.possible (authority.reply document) reply then some (machine.note reply) else none

/-- Whether the authority's own answer has arrived. -/
def Op.settled (crypto : Crypto) (authority : Authority crypto) :
    (op : Op) → op.Payload crypto → Bool
  | .redeem document, reply => decide (authority.reply document = (id reply : Reply))
  | _, _ => true

/-- The answers of the system. A call that fails changes nothing. While nothing interrupts, a call
fails only where it cannot do its work, and the authority answers. -/
def perform (crypto : Crypto) (authority : Authority crypto) (steady : Bool) (op : Op)
    (answer : op.Answer crypto) (machine : Machine) : Option Machine :=
  match answer with
  | none => if steady && op.possible machine then none else some machine
  | some payload =>
    if op.possible machine && (!steady || op.settled crypto authority payload) then
      op.effect crypto authority machine payload
    else none

end ProvenanceRunner.Enrollment
