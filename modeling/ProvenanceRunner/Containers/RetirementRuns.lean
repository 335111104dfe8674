import ProvenanceRunner.Containers.Retirement

/-! # Jobs and reconciliations

Every job and every reconciliation, stopped anywhere, keeps the invariant of the retirement. -/

namespace ProvenanceRunner.Containers

open Utf8 Interruptions

variable {config : Config} {host : Host} {prepared : Prepared}

/-! ## Preparation -/

theorem Sound.create (sound : Sound config host) (directory : Nat) (file : FileName) :
    Sound config (host.change directory (Bundle.create · file)) := by
  refine sound.change directory _ (fun _ => ⟨rfl, rfl⟩) ?_ ?_
  · intro bundle inside _ content isContent
    rcases List.mem_cons.1 isContent with new | old
    · exact .inl (Prod.mk.inj new).2
    · exact (sound.proper bundle inside).metadata content old
  · intro bundle _ _ mark
    left
    rw [Bundle.contains, Bundle.create, List.any_cons, Bool.or_eq_true]
    exact .inr mark

theorem contains_write (bundle : Bundle) (file other : FileName) (content : Content)
    (contains : bundle.contains other = true) :
    (bundle.write file content).contains other = true := by
  simp only [Bundle.contains, Bundle.write, List.any_eq_true, decide_eq_true_eq,
    List.mem_map] at contains ⊢
  obtain ⟨entry, inside, isOther⟩ := contains
  refine ⟨_, ⟨entry, inside, rfl⟩, ?_⟩
  split
  · next same => exact same.symm.trans isOther
  · exact isOther

theorem Sound.write (sound : Sound config host) (directory : Nat) (file : FileName)
    (content : Content) (own : ∀ bundle ∈ host.bundles, bundle.directory = directory →
      file = .metadata → content = ownership bundle.owner .prepared) :
    Sound config (host.change directory (Bundle.write · file content)) := by
  refine sound.change directory _ (fun _ => ⟨rfl, rfl⟩) ?_ ?_
  · intro bundle inside here written isWritten
    obtain ⟨_, isEntry, same⟩ := List.mem_map.1 isWritten
    split at same
    · obtain ⟨rfl, rfl⟩ := Prod.mk.inj same
      exact .inr (own bundle inside here rfl)
    · rw [same] at isEntry
      exact (sound.proper bundle inside).metadata written isEntry
  · exact fun bundle _ _ mark => .inl (contains_write bundle file _ content mark)

/-- Something about a container that does not depend on the files in its bundle. -/
structure Fixed (prepared : Prepared) (held : Host → Prop) : Prop where
  lasting : Lasting held
  owns : ∀ host, held host → Owns host prepared
  refiled : ∀ host change, Refiles change → held host → held (host.change prepared.directory change)

theorem owns_fixed (prepared : Prepared) : Fixed prepared (Owns · prepared) :=
  ⟨fun _ _ => id, fun _ => id, fun _ _ same owns => owns.change _ same⟩

/-- The bundle has the file. -/
def HasFile (prepared : Prepared) (file : FileName) (host : Host) : Prop :=
  ∃ bundle ∈ host.bundles, bundle.directory = prepared.directory ∧ bundle.contains file = true

theorem createFile_safe {held : Host → Prop} {failure : Failure} (fixed : Fixed prepared held)
    (file : FileName) :
    Safe config held (attempt (.createFile prepared.directory file) failure)
      (fun _ host => held host ∧ HasFile prepared file host) held := by
  refine attempt_safe _ (fun _ _ => rfl) fixed.lasting (fun _ => id) ?_
  intro host _ next sound holds effect
  dsimp only [Op.effect] at effect
  split at effect
  · cases effect
  next bundle found =>
  obtain ⟨_, ⟨⟩⟩ := Option.ite_none_left_eq_some.1 effect
  obtain ⟨inside, isDirectory⟩ := bundle_some found
  exact ⟨sound.create _ file, fixed.refiled _ _ (fun _ => ⟨rfl, rfl⟩) holds, bundle.create file,
    List.mem_map.2 ⟨bundle, inside, if_pos isDirectory⟩, isDirectory,
    by simp [Bundle.contains, Bundle.create]⟩

/-- A file of a container, made durable. -/
theorem writeJSONFile_safe {held : Host → Prop} (fixed : Fixed prepared held) (file : FileName)
    (content : Content) (text : String)
    (own : file = .metadata → content = ownership prepared.containerID .prepared) :
    Safe config held (writeJSONFile prepared.directory file content text)
      (fun _ host => held host ∧ HasFile prepared file host) held := by
  refine Runs.bind (createFile_safe fixed file) fun _ =>
    Runs.bind (attempt_safe (fun _ host => held host ∧ HasFile prepared file host)
      (fun _ _ => rfl) (fun _ _ holds => ⟨fixed.lasting _ _ holds.1, holds.2⟩)
      (fun _ holds => holds.1) ?_)
      fun _ => Runs.bind (consult_safe (fun _ _ holds => ⟨fixed.lasting _ _ holds.1, holds.2⟩)
        fun _ holds => holds.1) fun _ _ sound holds => ⟨sound, holds⟩
  intro host _ next sound holds effect
  cases effect
  obtain ⟨bundle, inside, isDirectory, contains⟩ := holds.2
  refine ⟨sound.write _ file content ?_, fixed.refiled _ _ (fun _ => ⟨rfl, rfl⟩) holds.1,
    bundle.write file content, List.mem_map.2 ⟨bundle, inside, if_pos isDirectory⟩, isDirectory,
    contains_write bundle file file content contains⟩
  intro other isOther here isMetadata
  rw [own isMetadata, (fixed.owns host holds.1 other isOther).2 here]

/-- A container that has been named and not started. -/
def Named (prepared : Prepared) (host : Host) : Prop :=
  Owns host prepared ∧ prepared.containerID ∉ host.started

theorem named_fixed (prepared : Prepared) : Fixed prepared (Named prepared) :=
  ⟨fun _ _ => id, fun _ named => named.1, fun _ _ same named => ⟨named.1.change _ same, named.2⟩⟩

/-- A program that removes the bundle when it fails. -/
theorem abandoning_safe {program : Provider Unit} {pre : Host → Prop} {post : Unit → Host → Prop}
    (prepared : Prepared) (safe : Safe config pre program post (Named prepared)) :
    Safe config pre (abandoning prepared.directory program) post fun _ => True := by
  refine Runs.rescue _ safe fun _ host sound named => ?_
  have removes : Safe config (Kept config prepared host.secrets)
      ((removeOwnedBundle prepared.directory).rescue fun _ => pure ()) (fun _ _ => True)
      fun _ => True :=
    Runs.rescue _ ((removeOwnedBundle_safe host.secrets).mono (fun _ => id) (fun _ _ _ => trivial)
      fun _ => id) fun _ _ sound _ => ⟨sound, trivial⟩
  refine Keeps.bind ((removes host sound ⟨named.1, .inl named.2, rfl⟩).ending.mono ?_
    fun _ _ _ => trivial)
  exact fun _ _ ends => ends

/-- A program that cleans up when it fails. -/
theorem cleaning_safe {program : Provider Unit} {pre : Host → Prop} {post : Unit → Host → Prop}
    (safe : Safe config pre program post (Owns · prepared)) :
    Safe config pre (cleaning config prepared program) post fun _ => True := by
  refine Runs.rescue _ safe fun _ => Runs.bind (Runs.rescue _ (cleanup_safe.mono (fun _ => id)
    (fun _ _ _ => trivial) fun _ => id) ?_) ?_
  · exact fun _ _ sound _ => ⟨sound, trivial⟩
  · exact fun (_ : Unit) _ sound (_ : True) => ⟨sound, trivial⟩

/-- The files of a bundle, until the secrets may be created. -/
theorem bundleFiles_safe (channel : Bool) :
    Safe config (Named prepared) (do
        let _ ← attempt .consult (.message "create measured root")
        writeJSONFile prepared.directory .metadata (ownership prepared.containerID .prepared)
          "write gVisor bundle metadata"
        if channel then
          let _ ← attempt (.createFile prepared.directory .channel)
            (.message "create structured event channel")
        let _ ← attempt .consult (.message "build OCI config"))
      (fun _ => Named prepared) (Named prepared) := by
  have builds : Safe config (Named prepared) (do
      let _ ← attempt .consult (.message "build OCI config")) (fun _ => Named prepared)
      (Named prepared) :=
    Runs.bind (consult_safe (fun _ _ => id) fun _ => id) fun _ _ sound named => ⟨sound, named⟩
  refine Runs.bind (consult_safe (fun _ _ => id) fun _ => id) fun _ => Runs.bind
    ((writeJSONFile_safe (named_fixed prepared) .metadata _ _ fun _ => rfl).mono (fun _ => id)
      (fun _ _ holds => holds.1) fun _ => id) fun _ => ?_
  cases channel with
  | false => exact builds
  | true =>
    exact Runs.bind ((createFile_safe (named_fixed prepared) .channel).mono (fun _ => id)
      (fun _ _ holds => holds.1) fun _ => id) fun _ => builds

/-- The secrets and the configuration of a container. -/
theorem secretFiles_safe (secrets : Bool) :
    Safe config (Named prepared) (do
        if secrets then
          let _ ← attempt (.createSecret prepared.containerID)
            (.message "create test-secret private job directory failed")
          let _ ← attempt .consult (.message "prepare private tmpfs test-secret failed")
        writeJSONFile prepared.directory .config .other "write OCI config"
        let _ ← attempt .context .context)
      (fun _ => Named prepared) (Owns · prepared) := by
  have configures : Safe config (Named prepared) (do
      writeJSONFile prepared.directory .config .other "write OCI config"
      let _ ← attempt .context .context) (fun _ => Named prepared) (Owns · prepared) :=
    Runs.bind ((writeJSONFile_safe (named_fixed prepared) .config _ _ nofun).mono (fun _ => id)
      (fun _ _ holds => holds.1) fun _ named => named.1) fun _ =>
    Runs.bind (context_safe (fun _ _ => id) fun _ named => named.1) fun _ _ sound named =>
      ⟨sound, named⟩
  cases secrets with
  | false => exact configures
  | true =>
    refine Runs.bind (attempt_safe (fun _ => Named prepared) (fun _ _ => rfl) (fun _ _ => id)
      (fun _ named => named.1) ?_) fun _ =>
      Runs.bind (consult_safe (fun _ _ => id) fun _ named => named.1) fun _ => configures
    intro host _ next sound named effect
    obtain ⟨_, ⟨⟩⟩ := Option.ite_none_left_eq_some.1 effect
    exact ⟨sound.setSecrets _, named⟩

/-- A new container identity. -/
theorem Sound.name (sound : Sound config host) (containerID : Bytes) :
    Sound config { host with used := containerID :: host.used } :=
  { sound with
    proper := fun bundle inside => { sound.proper bundle inside with
      used := List.mem_cons_of_mem _ (sound.proper bundle inside).used }
    begun := fun other started => List.mem_cons_of_mem _ (sound.begun other started) }

/-- A container identity that is taken for one that has nothing yet. -/
def Unmade (containerID : Bytes) (host : Host) : Prop :=
  containerID ∈ host.used ∧ containerID ∉ host.started ∧
    ∀ bundle ∈ host.bundles, bundle.owner ≠ containerID

/-- A new directory for a new container. -/
theorem Sound.makeBundle (sound : Sound config host) (directory : Nat) {containerID : Bytes}
    (fresh : directory ∉ host.directories) (unmade : Unmade containerID host) :
    Sound config { host with
      bundles := ⟨directory, containerID, []⟩ :: host.bundles
      directories := directory :: host.directories } := by
  refine { sound with
    proper := ?_
    marked := ?_
    owners := List.nodup_cons.2 ⟨?_, sound.owners⟩
    directories := List.nodup_cons.2 ⟨?_, sound.directories⟩ }
  · intro bundle inside
    rcases List.mem_cons.1 inside with rfl | old
    · exact ⟨unmade.1, List.mem_cons_self, nofun⟩
    · exact { sound.proper bundle old with
        made := List.mem_cons_of_mem _ (sound.proper bundle old).made }
  · intro other started
    rcases sound.marked other started with confirmed | ⟨bundle, inside, rest⟩
    · exact .inl confirmed
    · exact .inr ⟨bundle, List.mem_cons_of_mem _ inside, rest⟩
  · intro taken
    obtain ⟨bundle, inside, same⟩ := List.mem_map.1 taken
    exact unmade.2.2 bundle inside same
  · intro taken
    obtain ⟨bundle, inside, same⟩ := List.mem_map.1 taken
    exact fresh ((show bundle.directory = directory from same) ▸ (sound.proper bundle inside).made)

theorem makeBundle_safe {failure : Failure} (containerID : Bytes) :
    Safe config (Unmade containerID) (attempt (.makeBundle containerID) failure)
      (fun (directory : Nat) => Named ⟨containerID, directory⟩) fun _ => True := by
  refine attempt_safe _ (fun _ _ => rfl) (fun _ _ => id) (fun _ _ => trivial) ?_
  intro host (directory : Nat) next sound unmade effect
  obtain ⟨new, ⟨⟩⟩ := Option.ite_none_left_eq_some.1 effect
  refine ⟨sound.makeBundle directory new unmade, ?_, unmade.2.1⟩
  intro bundle inside
  rcases List.mem_cons.1 inside with rfl | old
  · exact ⟨fun _ => rfl, fun _ => rfl⟩
  constructor
  · exact fun same => absurd same (unmade.2.2 bundle old)
  intro same
  have made := (sound.proper bundle old).made
  rw [show bundle.directory = directory from same] at made
  exact absurd made new

theorem randomContainerID_safe {failure : Failure} :
    Safe config (fun _ => True) (attempt .randomContainerID failure)
      (fun containerID => Unmade containerID.val) fun _ => True := by
  refine attempt_safe _ (fun _ _ => rfl) (fun _ _ => id) (fun _ _ => trivial) ?_
  intro host containerID next sound _ effect
  obtain ⟨fresh, ⟨⟩⟩ := Option.ite_none_left_eq_some.1 effect
  refine ⟨sound.name containerID.val, List.mem_cons_self, ?_, ?_⟩
  · exact fun started => fresh (sound.begun _ started)
  · exact fun bundle inside same => fresh (same ▸ (sound.proper bundle inside).used)

theorem prepare_safe (secrets channel : Bool) :
    Safe config (fun _ => True) (prepare config secrets channel) Named fun _ => True := by
  apply Runs.bind (context_safe (fun _ _ => id) fun _ => id)
  intro contextLive
  apply Runs.bind (consult_safe (fun _ _ => id) fun _ => id)
  intro rootfsValid
  apply Runs.bind randomContainerID_safe
  intro containerID
  apply Runs.bind (makeBundle_safe containerID.val)
  intro directory
  apply Runs.bind (abandoning_safe ⟨containerID.val, directory⟩ (bundleFiles_safe channel))
  intro bundleMade
  apply Runs.bind (cleaning_safe (secretFiles_safe secrets))
  exact fun secretsMade host sound named => ⟨sound, named⟩

/-! ## Execution -/

/-- A container whose bundle carries the mark. -/
def Marked (prepared : Prepared) (host : Host) : Prop :=
  Owns host prepared ∧ HasFile prepared .attempt host

/-- The runtime is started for a marked container. What was seen of it before counts no more. -/
theorem Sound.start (sound : Sound config host) (marked : Marked prepared host) :
    Sound config (host.start prepared.containerID) := by
  obtain ⟨owns, bundle, inside, isDirectory, mark⟩ := marked
  have isOwner := (owns bundle inside).2 isDirectory
  have kept : ∀ (known : List Bytes) (other : Bytes), other ≠ prepared.containerID →
      (other ∈ known.filter (· ≠ prepared.containerID) ↔ other ∈ known) := by
    intro known other different
    simp [different]
  refine { sound with
    proper := fun bundle inside => { sound.proper bundle inside with }
    marked := ?_
    vacant := ?_
    running := fun other running => ⟨List.mem_cons_of_mem _ (sound.running other running).1,
      (sound.running other running).2⟩
    begun := ?_ }
  · intro other started
    by_cases same : other = prepared.containerID
    · exact .inr ⟨bundle, inside, isOwner.trans same.symm, mark⟩
    rcases sound.marked other ((List.mem_cons.1 started).resolve_left same) with
      ⟨deleted, vacant, scopeless⟩ | marked
    · exact .inl ⟨(kept _ _ same).2 deleted, (kept _ _ same).2 vacant,
        fun systemd => (kept _ _ same).2 (scopeless systemd)⟩
    · exact .inr marked
  · intro other vacant
    obtain ⟨before, different⟩ := List.mem_filter.1 vacant
    exact ⟨List.mem_filter.2 ⟨(sound.vacant other before).1, different⟩,
      (sound.vacant other before).2⟩
  · intro other started
    rcases List.mem_cons.1 started with rfl | before
    · exact isOwner ▸ (sound.proper bundle inside).used
    · exact sound.begun other before

/-- The container is among those that the runtime may have. -/
theorem Sound.launch (sound : Sound config host) {containerID : Bytes} {runtime : Runtime}
    (started : containerID ∈ host.started) (unseen : containerID ∉ host.vacant)
    (follows : runtime.follows
      { host.runtime with running := containerID :: host.runtime.running } = true) :
    Sound config { host with runtime := runtime } := by
  simp only [Runtime.follows, List.all_eq_true, Bool.and_eq_true, List.contains_iff_mem,
    List.mem_cons] at follows
  refine { sound with
    proper := fun bundle inside => { sound.proper bundle inside with }
    vacant := ?_
    running := ?_ }
  · intro other vacant
    refine ⟨(sound.vacant other vacant).1, fun running => ?_⟩
    rcases (follows other running).1 with rfl | before
    · exact unseen vacant
    · exact (sound.vacant other vacant).2 before
  · intro other running
    refine ⟨?_, (follows other running).2⟩
    rcases (follows other running).1 with rfl | before
    · exact started
    · exact (sound.running other before).1

theorem run_safe {failed : Host → Prop} :
    Safe config (Marked prepared) (ignore (.run prepared.containerID)) (fun _ => Marked prepared)
      failed := by
  intro host sound marked
  refine ⟨sound, ?_⟩
  rintro ⟨answer, _⟩ next performed
  obtain ⟨follows, performed⟩ := Option.ite_none_right_eq_some.1 performed
  cases answer with
  | none =>
    cases performed
    exact ⟨sound.follow follows, marked⟩
  | some =>
    cases performed
    exact ⟨(sound.start marked).launch List.mem_cons_self (by simp [Host.start]) follows, marked⟩

theorem execute_safe :
    Safe config (Owns · prepared) (Containers.execute prepared) (fun _ => (Owns · prepared))
      (Owns · prepared) := by
  have waits : Safe config (Marked prepared) (ignore (.wait prepared.containerID))
      (fun _ => (Owns · prepared)) (Owns · prepared) :=
    ignore_safe (fun _ _ => rfl) (fun _ _ => id) (fun _ marked => marked.1)
      fun _ _ _ sound marked effect => by
      cases effect
      exact ⟨sound, marked.1⟩
  apply Runs.bind (consult_safe (fun _ _ => id) fun _ => id)
  intro secretsValid
  apply Runs.bind (context_safe (fun _ _ => id) fun _ => id)
  intro contextLive
  apply Runs.bind (consult_safe (fun _ _ => id) fun _ => id)
  intro rootfsValid
  -- From here on the bundle carries the mark, whatever fails.
  apply Runs.bind (writeJSONFile_safe (owns_fixed prepared) .attempt _ _ nofun)
  intro markDurable
  apply Runs.bind (consult_safe (fun _ _ => id) fun _ marked => marked.1)
  intro cgroupConfigured
  apply Runs.bind (context_safe (fun _ _ => id) fun _ marked => marked.1)
  intro contextStillLive
  apply Runs.bind (consult_safe (fun _ _ => id) fun _ marked => marked.1)
  intro secretsStillValid
  exact Runs.bind run_safe fun _ => waits

/-! ## Jobs -/

/-- Every cleanup that is reported has left nothing: it has removed everything itself, or an earlier
one has. -/
theorem cleanups_safe (count : Nat) : ∀ cleaned : Bool,
    Safe config (fun host => Owns host prepared ∧ (cleaned = true → Gone config prepared host))
      (cleanups config prepared count cleaned) (fun _ _ => True) fun _ => True := by
  induction count with
  | zero => exact fun _ host sound _ => ⟨sound, trivial⟩
  | succ count later =>
    intro cleaned
    have reports {failed : Host → Prop} : Safe config (Gone config prepared) (do
          ignore (.report prepared.containerID)
          pure true) (fun cleaned host => Owns host prepared ∧
            (cleaned = true → Gone config prepared host)) failed :=
      Runs.bind report_safe fun _ _ sound gone => ⟨sound, gone.1, fun _ => gone⟩
    refine Runs.bind (Runs.rescue _ ?_ fun _ _ sound kept => ⟨sound, kept⟩) later
    cases cleaned with
    | false =>
      exact Runs.bind (cleanup_safe.mono (fun _ holds => holds.1) (fun _ _ => id)
        fun _ owns => ⟨owns, nofun⟩) fun _ => reports
    | true => exact fun host sound holds => reports host sound (holds.2 rfl)

theorem lifecycle_safe (secrets channel executes : Bool) (count : Nat) :
    Safe config (fun _ => True) (lifecycle config secrets channel executes count) (fun _ _ => True)
      fun _ => True := by
  refine Runs.bind (prepare_safe secrets channel) fun prepared => ?_
  have cleans : Safe config (Owns · prepared) (cleanups config prepared count false)
      (fun _ _ => True) fun _ => True :=
    (cleanups_safe count false).mono (fun _ owns => ⟨owns, nofun⟩) (fun _ _ => id) fun _ => id
  cases executes with
  | false => exact cleans.mono (fun _ named => named.1) (fun _ _ => id) fun _ => id
  | true =>
    exact Runs.bind (Runs.rescue _ (execute_safe.mono (fun _ named => named.1) (fun _ _ => id)
      fun _ => id) fun _ _ sound owns => ⟨sound, owns⟩) fun _ => cleans

/-! ## Reconciliation -/

theorem reconcileOwned_safe :
    Safe config (Owns · prepared) (reconcileOwned config prepared.directory prepared.containerID)
      (fun _ _ => True) fun _ => True := by
  have removes : Safe config (Removable config prepared) (do
      removeSecretTmpfs prepared.containerID
      removeOwnedBundle prepared.directory) (fun _ _ => True) fun _ => True :=
    (Runs.bind removeSecretTmpfs_safe fun _ => removeRetired_safe).mono (fun _ => id)
      (fun _ _ _ => trivial) fun _ _ => trivial
  refine Runs.bind (context_safe (fun _ _ => id) fun _ _ => trivial) fun _ =>
    lookAttempt_safe (fun _ _ => trivial) removes ?_
  refine Runs.bind (Runs.rescue _ (Runs.bind (delete_safe fun _ => id) ?_) fun _ => ?_) fun _ =>
    Runs.bind (confirmContainerTeardown_safe.mono (fun _ => id) (fun _ _ => id)
      fun _ _ => trivial) fun _ => removes
  · exact fun _ _ sound holds => ⟨sound, holds⟩
  · exact Runs.bind (context_safe (fun _ _ => id) fun _ _ => trivial) fun _ _ sound _ =>
    ⟨sound, trivial⟩

/-- Metadata that can be read names the owner of its bundle. -/
theorem Sound.owns_of_metadata (sound : Sound config host) {directory : Nat}
    {metadata : BundleMetadata}
    (read : ((host.bundle directory).bind fun bundle => bundle.files.lookup .metadata) =
      some (.metadata metadata)) : Owns host ⟨metadata.containerID, directory⟩ := by
  obtain ⟨bundle, found, isMetadata⟩ := Option.bind_eq_some_iff.1 read
  obtain ⟨inside, isDirectory⟩ := bundle_some found
  have listed : (FileName.metadata, Content.metadata metadata) ∈ bundle.files := by
    obtain ⟨_, _, split, _⟩ := List.lookup_eq_some_iff.1 isMetadata
    simp [split]
  have isOwner : metadata.containerID = bundle.owner := by
    rcases (sound.proper bundle inside).metadata _ listed with torn | whole
    · cases torn
    · cases whole
      rfl
  intro other isOther
  constructor
  · intro same
    have equal := List.inj_on_of_nodup_map sound.owners isOther inside (same.trans isOwner)
    exact equal ▸ isDirectory
  · intro same
    have equal := List.inj_on_of_nodup_map sound.directories isOther inside
      (same.trans isDirectory.symm)
    exact equal ▸ isOwner.symm

theorem reconcileBundle_safe (directory : Nat) :
    Safe config (fun _ => True) (reconcileBundle config directory) (fun _ _ => True)
      fun _ => True := by
  refine Runs.bind (@quiet_safe config (.readMetadata directory) _ _ _
    (fun (content : Option Content) host => ∀ metadata, content = some (.metadata metadata) →
      Owns host ⟨metadata.containerID, directory⟩) (fun _ _ => rfl) (fun _ _ => id) ?_
    (fun _ _ => trivial) ?_) ?_
  · intro host content next effect
    exact (Option.some.inj (Option.ite_none_right_eq_some.1 effect).2).symm
  · intro host (content : Option Content) sound _ effect metadata isMetadata
    exact sound.owns_of_metadata ((Option.ite_none_right_eq_some.1 effect).1.trans isMetadata)
  · intro (content : Option Content)
    match content with
    | none | some .torn | some .other => exact fun _ sound _ => ⟨sound, trivial⟩
    | some (.metadata metadata) =>
      dsimp only
      split
      · exact Runs.mono reconcileOwned_safe (fun _ owns => owns metadata rfl) (fun _ _ => id)
          fun _ => id
      · exact fun _ sound _ => ⟨sound, trivial⟩

theorem reconcileBundles_safe (directories : List Nat) : ∀ failed : Bool,
    Safe config (fun _ => True) (reconcileBundles config directories failed) (fun _ _ => True)
      fun _ => True := by
  induction directories with
  | nil =>
    intro failed
    cases failed with
    | false | true => exact fun _ sound _ => ⟨sound, trivial⟩
  | cons directory rest later =>
    intro failed
    refine Runs.bind (Runs.rescue (fun _ => True) (Runs.bind (reconcileBundle_safe directory) ?_)
      ?_) fun (result : Option Failure) => (?_ : Safe config (fun _ => True) _ _ _)
    · exact fun _ _ sound _ => ⟨sound, trivial⟩
    · exact fun _ _ sound _ => ⟨sound, trivial⟩
    match result with
    | none => exact later failed
    | some .context => exact fun _ sound _ => ⟨sound, trivial⟩
    | some (.message _) => exact later true

theorem reconcile_safe :
    Safe config (fun _ => True) (reconcile config) (fun _ _ => True) fun _ => True := by
  refine Runs.bind (quiet_safe (fun _ _ => True) (fun _ _ => rfl) (fun _ _ => id) ?_ (fun _ => id)
    fun _ _ _ _ _ => trivial)
    fun directories => reconcileBundles_safe directories false
  intro host directories next effect
  exact (Option.some.inj (Option.ite_none_right_eq_some.1 effect).2).symm

/-! ## Every run -/

theorem Reached.sound (reached : Reached config host) : Sound config host := by
  induction reached with
  | start runtime idle =>
    constructor <;> simp [idle]
  | job host next secrets channel executes count _ stops sound =>
    exact (lifecycle_safe secrets channel executes count host sound trivial).stops stops
  | reconciled host next _ stops sound => exact (reconcile_safe host sound trivial).stops stops

/-- However often jobs and reconciliations were stopped, what was removed of a container was
removed when the runtime had never been started for it or when its deletion had been confirmed,
and a cleanup that reported success had removed everything.

Proof: `Sound` is kept by every system call, wherever a program stops. -/
theorem container_retirement (config : Config) (host : Host) (reached : Reached config host) :
    ∀ event ∈ host.log,
      (event.started = false ∨ event.deleted = true ∧ event.vacant = true ∧
        (config.systemdUser = true → event.scopeless = true)) ∧ event.running = false ∧
      (event.what = .report → event.left = false) :=
  reached.sound.events

/-- The answers of a host on which no call fails and a deletion ends the container. -/
def plainAnswers (containerID : { id : Bytes // validContainerID id = true }) :
    (op : Op) → Host → op.Answer
  | .randomContainerID, host => (some containerID, host.runtime)
  | .makeBundle _, host => (some (host.directories.length : Nat), host.runtime)
  | .listBundles, host => (some (host.bundles.map (·.directory) : List Nat), host.runtime)
  | .readMetadata directory, host =>
    (some ((host.bundle directory).bind fun bundle => bundle.files.lookup .metadata), host.runtime)
  | .lookAttempt directory, host =>
    (some ((host.bundle directory).any fun bundle => bundle.contains .attempt), host.runtime)
  | .polls, host => (some (1 : Nat), host.runtime)
  | .listState id, host => (some (host.runtime.entry id), host.runtime)
  | .lookScope id, host => (some (host.runtime.scopes.contains id), host.runtime)
  | .listBundle directory, host =>
    (some (((host.bundle directory).map fun bundle => bundle.files.map Prod.fst).getD []),
      host.runtime)
  | .run id, _ => (some (), ⟨[id], [id], [id]⟩)
  | .delete _, _ => (some (), ⟨[], [], []⟩)
  | .context, host | .consult, host | .createFile .., host | .writeFile .., host
  | .createSecret _, host | .wait _, host | .unlink .., host | .removeDirectory _, host
  | .clearSecret _, host | .removeSecret _, host | .report _, host => (some (), host.runtime)

def firstContainerID : { id : Bytes // validContainerID id = true } :=
  ⟨encode "provenance-00000000000000000000000000000001", by decide +kernel⟩

def secondContainerID : { id : Bytes // validContainerID id = true } :=
  ⟨encode "provenance-00000000000000000000000000000002", by decide +kernel⟩

def idleHost : Host := ⟨[], [], ⟨[], [], []⟩, [], [], [], [], [], [], []⟩

/-- A job with secrets whose process is stopped while its container runs. -/
def stoppedHost : Host :=
  stopAfter perform (plainAnswers firstContainerID) 26 (lifecycle ⟨true⟩ true true true 1) idleHost

def reconciledHost : Host :=
  stopAfter perform (plainAnswers firstContainerID) 100 (reconcile ⟨true⟩) stoppedHost

/-- Another job that is executed and cleaned up. -/
def cleanedHost : Host :=
  stopAfter perform (plainAnswers secondContainerID) 100 (lifecycle ⟨true⟩ true true true 1)
    reconciledHost

theorem cleaned_reached : Reached ⟨true⟩ cleanedHost :=
  .job reconciledHost _ true true true 1 (.reconciled stoppedHost _
    (.job idleHost _ true true true 1 (.start ⟨[], [], []⟩ rfl) (stops_stopAfter _ _ _ _))
    (stops_stopAfter _ _ _ _)) (stops_stopAfter _ _ _ _)

/-- The reconciliation deletes the container and removes its secrets and its bundle. The next job is
cleaned up by itself, with success. -/
theorem container_retirement_reconciled :
    stoppedHost.runtime.running = [firstContainerID.val] ∧ stoppedHost.bundles ≠ [] ∧
    reconciledHost.log ≠ [] ∧ reconciledHost.bundles = [] ∧ reconciledHost.secrets = [] ∧
    cleanedHost.log.getLast? =
      some ⟨.report, secondContainerID.val, true, true, true, true, false, false⟩ ∧
    ∀ event ∈ cleanedHost.log,
      (event.started = false ∨ event.deleted = true ∧ event.vacant = true ∧
        (true = true → event.scopeless = true)) ∧ event.running = false ∧
      (event.what = .report → event.left = false) :=
  ⟨by decide +kernel, by decide +kernel, by decide +kernel, by decide +kernel, by decide +kernel,
    by decide +kernel, container_retirement ⟨true⟩ cleanedHost cleaned_reached⟩

/-- However often jobs and reconciliations were stopped, a container that was started is gone for
certain or has its one bundle, with the mark of the attempt; one that runs is of the second kind. -/
theorem no_container_lost (config : Config) (host : Host) (reached : Reached config host) :
    (∀ containerID ∈ host.started, Confirmed config host containerID ∨
      ∃ bundle ∈ host.bundles, bundle.owner = containerID ∧ bundle.contains .attempt = true) ∧
    ∀ containerID ∈ host.runtime.running, ∃ bundle ∈ host.bundles,
      bundle.contains .attempt = true ∧
      ∀ other ∈ host.bundles, other.owner = containerID ↔ other = bundle := by
  have sound := reached.sound
  refine ⟨sound.marked, fun containerID running => ?_⟩
  have started := (sound.running containerID running).1
  rcases sound.marked containerID started with confirmed | ⟨bundle, inside, rfl, mark⟩
  · exact absurd running (sound.vacant containerID confirmed.2.1).2
  · exact ⟨bundle, inside, mark, fun other isOther =>
      ⟨List.inj_on_of_nodup_map sound.owners isOther inside, congrArg _⟩⟩

/-- A container that still runs when the process is stopped. -/
theorem no_container_lost_stopped : ∃ bundle ∈ stoppedHost.bundles,
    bundle.contains .attempt = true ∧
    ∀ other ∈ stoppedHost.bundles, other.owner = firstContainerID.val ↔ other = bundle :=
  (no_container_lost ⟨true⟩ stoppedHost (.job idleHost _ true true true 1
    (.start ⟨[], [], []⟩ rfl) (stops_stopAfter _ _ _ _))).2 _ (by decide +kernel)

end ProvenanceRunner.Containers
