import ProvenanceRunner.Containers.Provider
import Mathlib.Data.List.Nodup

/-! # The retirement of containers

A container for which the runtime was started is marked in its bundle until its deletion has been
confirmed. So a bundle without the mark belongs to a container that never ran or is gone, whoever
finds it. -/

namespace ProvenanceRunner.Containers

open Utf8 Interruptions

/-! ## The invariant -/

/-- The deletion of a container succeeded, and after it nothing of the container was seen. -/
def Confirmed (config : Config) (host : Host) (containerID : Bytes) : Prop :=
  containerID ∈ host.deleted ∧ containerID ∈ host.vacant ∧
    (config.systemdUser = true → containerID ∈ host.scopeless)

/-- A container that never ran or is gone. -/
def Retired (config : Config) (host : Host) (containerID : Bytes) : Prop :=
  containerID ∉ host.started ∨ Confirmed config host containerID

/-- What may be done to a container only when it is retired. -/
def Event.Allowed (config : Config) (event : Event) : Prop :=
  (event.started = false ∨ event.deleted = true ∧ event.vacant = true ∧
    (config.systemdUser = true → event.scopeless = true)) ∧ event.running = false ∧
  (event.what = .report → event.left = false)

/-- A bundle of a known container in a known directory, whose metadata names the container. -/
structure Bundle.Proper (host : Host) (bundle : Bundle) : Prop where
  used : bundle.owner ∈ host.used
  made : bundle.directory ∈ host.directories
  metadata : ∀ content, (FileName.metadata, content) ∈ bundle.files →
    content = .torn ∨ content = ownership bundle.owner .prepared

structure Sound (config : Config) (host : Host) : Prop where
  events : ∀ event ∈ host.log, event.Allowed config
  proper : ∀ bundle ∈ host.bundles, bundle.Proper host
  marked : ∀ containerID ∈ host.started, Confirmed config host containerID ∨
    ∃ bundle ∈ host.bundles, bundle.owner = containerID ∧ bundle.contains .attempt = true
  vacant : ∀ containerID ∈ host.vacant, containerID ∈ host.deleted ∧
    containerID ∉ host.runtime.running
  running : ∀ containerID ∈ host.runtime.running, containerID ∈ host.started ∧
    host.runtime.entry containerID = true
  begun : ∀ containerID ∈ host.started, containerID ∈ host.used
  owners : (host.bundles.map (·.owner)).Nodup
  directories : (host.bundles.map (·.directory)).Nodup

/-- The bundle of a container, if there is one, is in its directory, and nothing else is. -/
def Owns (host : Host) (prepared : Prepared) : Prop :=
  ∀ bundle ∈ host.bundles, bundle.owner = prepared.containerID ↔
    bundle.directory = prepared.directory

variable {config : Config} {host : Host} {prepared : Prepared}

theorem Sound.retired_idle (sound : Sound config host) {containerID : Bytes}
    (retired : Retired config host containerID) : containerID ∉ host.runtime.running := by
  intro running
  rcases retired with never | confirmed
  · exact never (sound.running containerID running).1
  · exact (sound.vacant containerID confirmed.2.1).2 running

/-- The runtime goes on. -/
theorem Sound.follow (sound : Sound config host) {runtime : Runtime}
    (follows : runtime.follows host.runtime = true) :
    Sound config { host with runtime := runtime } := by
  simp only [Runtime.follows, List.all_eq_true, Bool.and_eq_true, List.contains_iff_mem] at follows
  exact { sound with
    proper := fun bundle inside => { sound.proper bundle inside with }
    vacant := fun containerID vacant => ⟨(sound.vacant containerID vacant).1,
      fun running => (sound.vacant containerID vacant).2 (follows containerID running).1⟩
    running := fun containerID running =>
      ⟨(sound.running containerID (follows containerID running).1).1,
        (follows containerID running).2⟩ }

/-- What is noted of a retired container is allowed. -/
theorem Sound.note (sound : Sound config host) {containerID : Bytes}
    (retired : Retired config host containerID) (what : What)
    (left : what = .report → (host.event what containerID).left = false) :
    Sound config (host.note what containerID) := by
  refine { sound with
    events := ?_
    proper := fun bundle inside => { sound.proper bundle inside with } }
  intro event inside
  rcases List.mem_append.1 inside with old | new
  · exact sound.events event old
  rw [List.mem_singleton.1 new]
  refine ⟨?_, by simpa [Host.event] using sound.retired_idle retired, left⟩
  rcases retired with never | ⟨deleted, vacant, scopeless⟩
  · left
    simpa [Host.event] using never
  · right
    simpa [Host.event, deleted, vacant] using scopeless

/-- A bundle that has other files. -/
def Refiles (change : Bundle → Bundle) : Prop :=
  ∀ bundle, (change bundle).directory = bundle.directory ∧ (change bundle).owner = bundle.owner

theorem map_change {α : Type} (field : Bundle → α) (directory : Nat) (change : Bundle → Bundle)
    (same : ∀ bundle, field (change bundle) = field bundle) :
    (host.change directory change).bundles.map field = host.bundles.map field := by
  rw [Host.change, List.map_map]
  apply List.map_congr_left
  intro bundle _
  dsimp only [Function.comp]
  split
  · exact same bundle
  · rfl

/-- One bundle changes its files. -/
theorem Sound.change (sound : Sound config host) (directory : Nat) (change : Bundle → Bundle)
    (same : Refiles change)
    (metadata : ∀ bundle ∈ host.bundles, bundle.directory = directory → ∀ content,
      (FileName.metadata, content) ∈ (change bundle).files →
        content = .torn ∨ content = ownership bundle.owner .prepared)
    (marked : ∀ bundle ∈ host.bundles, bundle.directory = directory →
      bundle.contains .attempt = true →
        (change bundle).contains .attempt = true ∨ Retired config host bundle.owner) :
    Sound config (host.change directory change) := by
  refine { sound with
    proper := ?_
    marked := ?_
    owners := ?_
    directories := ?_ }
  · intro bundle inside
    obtain ⟨old, isOld, rfl⟩ := List.mem_map.1 inside
    have proper := sound.proper old isOld
    by_cases here : old.directory = directory
    · rw [if_pos here]
      refine ⟨(same old).2 ▸ proper.used, (same old).1 ▸ proper.made, ?_⟩
      rw [(same old).2]
      exact metadata old isOld here
    · rw [if_neg here]
      exact { proper with }
  · intro containerID started
    rcases sound.marked containerID started with confirmed | ⟨bundle, inside, isOwner, mark⟩
    · exact .inl confirmed
    by_cases here : bundle.directory = directory
    · rcases marked bundle inside here mark with still | never | confirmed
      · exact .inr ⟨change bundle, List.mem_map.2 ⟨bundle, inside, if_pos here⟩,
          (same bundle).2.trans isOwner, still⟩
      · exact absurd (isOwner ▸ started) never
      · exact .inl (isOwner ▸ confirmed)
    · exact .inr ⟨bundle, List.mem_map.2 ⟨bundle, inside, if_neg here⟩, isOwner, mark⟩
  · rw [map_change _ _ _ fun bundle => (same bundle).2]
    exact sound.owners
  · rw [map_change _ _ _ fun bundle => (same bundle).1]
    exact sound.directories

theorem Owns.change (owns : Owns host prepared) (directory : Nat) {change : Bundle → Bundle}
    (same : Refiles change) : Owns (host.change directory change) prepared := by
  intro bundle inside
  obtain ⟨old, isOld, rfl⟩ := List.mem_map.1 inside
  split
  · rw [(same old).1, (same old).2]
    exact owns old isOld
  · exact owns old isOld

theorem bundle_some {directory : Nat} {bundle : Bundle}
    (found : host.bundle directory = some bundle) :
    bundle ∈ host.bundles ∧ bundle.directory = directory :=
  ⟨List.mem_of_find?_eq_some found, by simpa using List.find?_some found⟩

theorem Sound.bundle_of_mem (sound : Sound config host) {bundle : Bundle}
    (inside : bundle ∈ host.bundles) : host.bundle bundle.directory = some bundle := by
  cases found : host.bundle bundle.directory with
  | none => simpa using List.find?_eq_none.1 found bundle inside
  | some =>
    obtain ⟨isOther, same⟩ := bundle_some found
    rw [List.inj_on_of_nodup_map sound.directories isOther inside same]

/-- A container whose bundle has no mark is retired. -/
theorem Sound.retired_of_unmarked (sound : Sound config host) (owns : Owns host prepared)
    (unmarked : (host.bundle prepared.directory).any (·.contains .attempt) = false) :
    Retired config host prepared.containerID := by
  by_cases started : prepared.containerID ∈ host.started
  · rcases sound.marked _ started with confirmed | ⟨bundle, inside, isOwner, mark⟩
    · exact .inr confirmed
    · rw [← (owns bundle inside).1 isOwner, sound.bundle_of_mem inside] at unmarked
      simp [mark] at unmarked
  · exact .inl started

/-! ## Calls -/

/-- A program that keeps the invariant. -/
abbrev Safe {α : Type} (config : Config) (pre : Host → Prop) (program : Provider α)
    (post : α → Host → Prop) (failed : Host → Prop) : Prop :=
  Runs perform (Sound config) pre program post failed

/-- A fact that does not depend on what the runtime does. -/
def Lasting (held : Host → Prop) : Prop :=
  ∀ host runtime, held host → held { host with runtime := runtime }

section

variable {op : Op} {failure : Failure} {pre failed : Host → Prop} (post : op.Payload → Host → Prop)

/-- After a call the runtime has gone on, and the call has had its effect or none. -/
theorem perform_cases (sound : Sound config host)
    (ordinary : ∀ answered host, op.launched answered host = host.runtime)
    {answer : op.Answer} {next : Host} (performed : perform op answer host = some next) :
    Sound config { host with runtime := answer.2 } ∧
      match answer.1 with
      | none => next = { host with runtime := answer.2 }
      | some payload => op.effect { host with runtime := answer.2 } payload = some next := by
  unfold perform at performed
  rw [ordinary] at performed
  obtain ⟨follows, performed⟩ := Option.ite_none_right_eq_some.1 performed
  refine ⟨sound.follow follows, ?_⟩
  cases given : answer.1 with
  | none => simpa [given, eq_comm] using performed
  | some => simpa [given] using performed

section

variable (ordinary : ∀ answered host, op.launched answered host = host.runtime)
  (lasting : Lasting pre)
include ordinary lasting

theorem attempt_safe (stopped : ∀ host, pre host → failed host)
    (works : ∀ host payload next, Sound config host → pre host →
      op.effect host payload = some next → Sound config next ∧ post payload next) :
    Safe config pre (attempt op failure) post failed := by
  intro host sound holds
  refine ⟨sound, ?_⟩
  rintro ⟨answer, runtime⟩ next performed
  obtain ⟨after, outcome⟩ := perform_cases sound ordinary performed
  have still := lasting host runtime holds
  cases answer with
  | none =>
    cases outcome
    exact ⟨after, stopped _ still⟩
  | some payload => exact works _ payload next after still outcome

/-- A call whose failure is not looked at. -/
theorem ignore_safe {post : Host → Prop} (same : ∀ host, pre host → post host)
    (works : ∀ host payload next, Sound config host → pre host →
      op.effect host payload = some next → Sound config next ∧ post next) :
    Safe config pre (ignore op) (fun _ => post) failed := by
  intro host sound holds
  refine ⟨sound, ?_⟩
  rintro ⟨answer, runtime⟩ next performed
  obtain ⟨after, outcome⟩ := perform_cases sound ordinary performed
  have still := lasting host runtime holds
  cases answer with
  | none =>
    cases outcome
    exact ⟨after, same _ still⟩
  | some payload => exact works _ payload next after still outcome

/-- A call that only asks. -/
theorem quiet_safe (quiet : ∀ host payload next, op.effect host payload = some next → next = host)
    (stopped : ∀ host, pre host → failed host)
    (goes : ∀ host payload, Sound config host → pre host → op.effect host payload = some host →
      post payload host) :
    Safe config pre (attempt op failure) post failed := by
  refine attempt_safe post ordinary lasting stopped ?_
  intro host payload next sound holds effect
  obtain rfl := quiet host payload next effect
  exact ⟨sound, goes next payload sound holds effect⟩

end

theorem consult_safe (lasting : Lasting pre) (stopped : ∀ host, pre host → failed host) :
    Safe config pre (attempt .consult failure) (fun _ => pre) failed :=
  quiet_safe _ (fun _ _ => rfl) lasting (fun _ _ _ effect => (Option.some.inj effect).symm) stopped
    fun _ _ _ holds _ => holds

theorem context_safe (lasting : Lasting pre) (stopped : ∀ host, pre host → failed host) :
    Safe config pre (attempt .context failure) (fun _ => pre) failed :=
  quiet_safe _ (fun _ _ => rfl) lasting (fun _ _ _ effect => (Option.some.inj effect).symm) stopped
    fun _ _ _ holds _ => holds

end

/-! ## Removals -/

/-- A retired container. -/
def Removable (config : Config) (prepared : Prepared) (host : Host) : Prop :=
  Owns host prepared ∧ Retired config host prepared.containerID

/-- The container is retired, and these are the secrets. -/
def Kept (config : Config) (prepared : Prepared) (secrets : List Bytes) (host : Host) : Prop :=
  Owns host prepared ∧ Retired config host prepared.containerID ∧ host.secrets = secrets

theorem unlinkAll_safe (secrets : List Bytes) (files : List FileName) :
    Safe config (Kept config prepared secrets) (unlinkAll prepared.directory files)
      (fun _ => Kept config prepared secrets) (Owns · prepared) := by
  induction files with
  | nil => exact fun host sound holds => ⟨sound, holds⟩
  | cons file rest later =>
    refine Runs.bind (attempt_safe _ (fun _ _ => rfl) (fun _ _ => id) (fun _ kept => kept.1) ?_)
      fun _ => later
    intro host _ next sound kept effect
    dsimp only [Op.effect] at effect
    split at effect
    · cases effect
    next bundle found =>
    cases effect
    obtain ⟨owns, retired, same⟩ := kept
    obtain ⟨inside, isDirectory⟩ := bundle_some found
    have isOwner := (owns bundle inside).2 isDirectory
    have noted := sound.note (isOwner ▸ retired) .bundle nofun
    refine ⟨noted.change _ _ (fun _ => ⟨rfl, rfl⟩) ?_ ?_, ?_, retired, same⟩
    · intro other isOther _ content isContent
      exact (sound.proper other isOther).metadata content (List.mem_filter.1 isContent).1
    · intro other isOther here _
      right
      rw [(owns other isOther).2 here]
      exact retired
    · exact (show Owns (host.note .bundle bundle.owner) prepared from owns).change _
        fun _ => ⟨rfl, rfl⟩

/-- A directory goes. -/
theorem Sound.removeBundle (sound : Sound config host) (owns : Owns host prepared)
    (retired : Retired config host prepared.containerID) :
    Sound config { host with
      bundles := host.bundles.filter (·.directory ≠ prepared.directory) } := by
  refine { sound with
    proper := fun bundle inside => { sound.proper bundle (List.mem_filter.1 inside).1 with }
    marked := ?_
    owners := (List.filter_sublist.map _).nodup sound.owners
    directories := (List.filter_sublist.map _).nodup sound.directories }
  intro containerID started
  rcases sound.marked containerID started with confirmed | ⟨bundle, inside, isOwner, mark⟩
  · exact .inl confirmed
  by_cases here : bundle.directory = prepared.directory
  · rw [← (owns bundle inside).2 here, isOwner] at retired
    exact .inl (retired.resolve_left fun never => never started)
  · exact .inr ⟨bundle, List.mem_filter.2 ⟨inside, by simpa using here⟩, isOwner, mark⟩

/-- The container is retired and has neither a bundle nor secrets. -/
def Gone (config : Config) (prepared : Prepared) (host : Host) : Prop :=
  Owns host prepared ∧ Retired config host prepared.containerID ∧
    (∀ bundle ∈ host.bundles, bundle.owner ≠ prepared.containerID) ∧
    prepared.containerID ∉ host.secrets

theorem removeOwnedBundle_safe (secrets : List Bytes) :
    Safe config (Kept config prepared secrets) (removeOwnedBundle prepared.directory)
      (fun _ host => prepared.containerID ∉ secrets → Gone config prepared host)
      (Owns · prepared) := by
  refine Runs.bind (quiet_safe (fun _ => Kept config prepared secrets) (fun _ _ => rfl)
    (fun _ _ => id) ?_ (fun _ kept => kept.1) (fun _ _ _ kept _ => kept)) fun files =>
    Runs.bind (unlinkAll_safe secrets files) fun _ =>
    Runs.bind (attempt_safe _ (fun _ _ => rfl) (fun _ _ => id) (fun _ kept => kept.1) ?_)
      fun _ _ sound gone => ⟨sound, gone⟩
  · intro host files next effect
    exact (Option.some.inj (Option.ite_none_right_eq_some.1 effect).2).symm
  intro host _ next sound kept effect
  obtain ⟨owns, retired, same⟩ := kept
  rw [← same]
  dsimp only [Op.effect] at effect
  split at effect
  · next missing =>
    cases effect
    refine ⟨sound, fun absent => ⟨owns, retired, ?_, absent⟩⟩
    intro bundle inside isOwner
    have found := sound.bundle_of_mem inside
    rw [(owns bundle inside).1 isOwner, missing] at found
    cases found
  · next bundle found =>
    obtain ⟨_, ⟨⟩⟩ := Option.ite_none_right_eq_some.1 effect
    obtain ⟨inside, isDirectory⟩ := bundle_some found
    have noted := sound.note ((owns bundle inside).2 isDirectory ▸ retired) .bundle nofun
    refine ⟨noted.removeBundle owns retired, fun absent => ⟨?_, retired, ?_, absent⟩⟩
    · exact fun other isOther => owns other (List.mem_filter.1 isOther).1
    · intro other isOther same
      have here := (owns other (List.mem_filter.1 isOther).1).1 same
      simpa [here] using (List.mem_filter.1 isOther).2

theorem Sound.setSecrets (sound : Sound config host) (secrets : List Bytes) :
    Sound config { host with secrets := secrets } :=
  { sound with proper := fun bundle inside => { sound.proper bundle inside with } }

theorem removeSecretTmpfs_safe :
    Safe config (Removable config prepared)
      (removeSecretTmpfs prepared.containerID)
      (fun _ host => Removable config prepared host ∧
        prepared.containerID ∉ host.secrets) (Owns · prepared) := by
  unfold removeSecretTmpfs
  split
  swap
  · exact fun host sound holds => ⟨sound, holds.1⟩
  refine Runs.bind (attempt_safe (fun _ => Removable config prepared) (fun _ _ => rfl)
    (fun _ _ => id) (fun _ holds => holds.1) ?_) fun _ =>
    Runs.bind (attempt_safe _ (fun _ _ => rfl) (fun _ _ => id) (fun _ holds => holds.1) ?_)
      fun _ _ sound holds => ⟨sound, holds⟩
  · intro host _ next sound holds effect
    cases effect
    split
    · exact ⟨sound.note holds.2 .secret nofun, holds⟩
    · exact ⟨sound, holds⟩
  · intro host _ next sound holds effect
    cases effect
    split
    · exact ⟨(sound.note holds.2 .secret nofun).setSecrets _, holds, by simp⟩
    · next absent => exact ⟨sound, holds, absent⟩

/-! ## Teardown -/

/-- What was seen of containers grows. -/
theorem Sound.see (sound : Sound config host) (deleted vacant scopeless : List Bytes)
    (more : host.deleted ⊆ deleted ∧ host.vacant ⊆ vacant ∧ host.scopeless ⊆ scopeless)
    (new : ∀ containerID ∈ vacant, containerID ∈ host.vacant ∨
      containerID ∈ deleted ∧ containerID ∉ host.runtime.running) :
    Sound config { host with
      deleted := deleted
      vacant := vacant
      scopeless := scopeless } := by
  refine { sound with
    proper := fun bundle inside => { sound.proper bundle inside with }
    marked := ?_
    vacant := ?_ }
  · intro containerID started
    rcases sound.marked containerID started with confirmed | marked
    · exact .inl ⟨more.1 confirmed.1, more.2.1 confirmed.2.1,
        fun systemd => more.2.2 (confirmed.2.2 systemd)⟩
    · exact .inr marked
  · intro containerID isVacant
    rcases new containerID isVacant with old | fresh
    · exact ⟨more.1 (sound.vacant containerID old).1, (sound.vacant containerID old).2⟩
    · exact fresh

theorem Sound.delete (sound : Sound config host) (containerID : Bytes) :
    Sound config { host with deleted := containerID :: host.deleted } :=
  sound.see (containerID :: host.deleted) host.vacant host.scopeless
    ⟨List.subset_cons_self _ _, List.Subset.refl _, List.Subset.refl _⟩ fun _ => .inl

/-- The deletion of the container has succeeded. -/
def Deleted (prepared : Prepared) (host : Host) : Prop :=
  Owns host prepared ∧ prepared.containerID ∈ host.deleted

/-- A look into the state root after a deletion. -/
theorem listState_safe {failure : Failure} :
    Safe config (Deleted prepared) (attempt (.listState prepared.containerID) failure)
      (fun (entry : Bool) host => Deleted prepared host ∧
        (entry = false → prepared.containerID ∈ host.vacant)) (Owns · prepared) := by
  refine attempt_safe _ (fun _ _ => rfl) (fun _ _ => id) (fun _ holds => holds.1) ?_
  intro host (entry : Bool) next sound holds effect
  obtain ⟨same, ⟨⟩⟩ := Option.ite_none_right_eq_some.1 effect
  replace same : host.runtime.entry prepared.containerID = entry := same
  by_cases present : host.runtime.entry prepared.containerID = true
  · rw [if_pos present]
    refine ⟨sound, holds, ?_⟩
    intro absent
    rw [← same, present] at absent
    cases absent
  · rw [if_neg present, Host.seeVacant, if_pos holds.2]
    refine ⟨sound.see _ _ _ ⟨List.Subset.refl _, List.subset_cons_self _ _, List.Subset.refl _⟩ ?_,
      holds, fun _ => List.mem_cons_self⟩
    intro containerID isVacant
    rcases List.mem_cons.1 isVacant with rfl | old
    · exact .inr ⟨holds.2, fun running => present (sound.running _ running).2⟩
    · exact .inl old

/-- A look for the scope after that. -/
theorem lookScope_safe {failure : Failure} (entry : Bool) :
    Safe config (fun host => Deleted prepared host ∧
        (entry = false → prepared.containerID ∈ host.vacant))
      (attempt (.lookScope prepared.containerID) failure)
      (fun (scope : Bool) host => Deleted prepared host ∧
        ((entry || scope) = false → Confirmed config host prepared.containerID))
      (Owns · prepared) := by
  refine attempt_safe _ (fun _ _ => rfl) (fun _ _ => id) (fun _ holds => holds.1.1) ?_
  intro host (scope : Bool) next sound holds effect
  obtain ⟨same, ⟨⟩⟩ := Option.ite_none_right_eq_some.1 effect
  replace same : host.runtime.scopes.contains prepared.containerID = scope := same
  by_cases present : host.runtime.scopes.contains prepared.containerID = true
  · rw [if_pos present]
    refine ⟨sound, holds.1, ?_⟩
    intro absent
    rw [← same, present, Bool.or_true] at absent
    cases absent
  · rw [if_neg present, Host.seeScopeless]
    split
    · refine ⟨sound.see _ _ _ ⟨List.Subset.refl _, List.Subset.refl _, List.subset_cons_self _ _⟩
        fun _ => .inl, holds.1, fun absent => ?_⟩
      exact ⟨holds.1.2, holds.2 (Bool.or_eq_false_iff.1 absent).1, fun _ => List.mem_cons_self⟩
    · next unseen =>
      exact ⟨sound, holds.1, fun absent =>
        absurd (holds.2 (Bool.or_eq_false_iff.1 absent).1) unseen⟩

/-- One look at what is left. Where nothing is left the deletion is confirmed. -/
theorem containerTeardownResidue_safe :
    Safe config (Deleted prepared) (containerTeardownResidue config prepared.containerID)
      (fun residue host => Deleted prepared host ∧
        (residue = false → Confirmed config host prepared.containerID)) (Owns · prepared) := by
  refine Runs.bind listState_safe fun entry => ?_
  split
  · exact Runs.bind (lookScope_safe entry) fun _ _ sound holds => ⟨sound, holds⟩
  · next native =>
    refine fun host sound holds => ⟨sound, holds.1, fun absent => ?_⟩
    exact ⟨holds.1.2, holds.2 absent, fun systemd => absurd systemd native⟩

theorem confirmLoop_safe (polls : Nat) :
    Safe config (Deleted prepared) (confirmLoop config prepared.containerID polls)
      (fun _ => Removable config prepared)
      (Owns · prepared) := by
  induction polls with
  | zero => exact fun host sound holds => ⟨sound, holds.1⟩
  | succ polls later =>
    refine Runs.bind containerTeardownResidue_safe fun residue => ?_
    cases residue with
    | true => exact later.mono (fun _ holds => holds.1) (fun _ _ => id) fun _ => id
    | false =>
      refine Runs.bind (Runs.mono (consult_safe (fun _ _ => id) fun _ holds => holds.1) ?_
        (fun _ _ => id) fun _ => id) fun _ _ sound holds => ⟨sound, holds⟩
      exact fun host holds => ⟨holds.1.1, .inr (holds.2 rfl)⟩

theorem confirmContainerTeardown_safe :
    Safe config (Deleted prepared) (confirmContainerTeardown config prepared.containerID)
      (fun _ => Removable config prepared)
      (Owns · prepared) := by
  unfold confirmContainerTeardown
  split
  · exact Runs.bind (quiet_safe (fun _ => Deleted prepared) (fun _ _ => rfl) (fun _ _ => id)
      (fun _ _ _ effect => (Option.some.inj effect).symm) (fun _ holds => holds.1)
      fun _ _ _ holds _ => holds) fun polls => confirmLoop_safe _
  · exact fun host sound holds => ⟨sound, holds.1⟩

/-! ## Retirement -/

/-- What cleanup and reconciliation share: a look at the mark, and a deletion if it is there. -/
theorem lookAttempt_safe {failure : Failure} {failed : Host → Prop} {post : Unit → Host → Prop}
    {next : Bool → Provider Unit} (stopped : ∀ host, Owns host prepared → failed host)
    (unmarked : Safe config (Removable config prepared) (next false) post failed)
    (marked : Safe config (Owns · prepared) (next true) post failed) :
    Safe config (Owns · prepared) (do
      let attempted : Bool ← attempt (.lookAttempt prepared.directory) failure
      next attempted) post failed := by
  refine Runs.bind (@quiet_safe config (.lookAttempt prepared.directory) failure _ _
    (fun (attempted : Bool) host => Owns host prepared ∧
      (attempted = false → Retired config host prepared.containerID)) (fun _ _ => rfl)
    (fun _ _ => id) ?_ stopped ?_) ?_
  · intro host attempted next effect
    exact (Option.some.inj (Option.ite_none_right_eq_some.1 effect).2).symm
  · intro host (attempted : Bool) sound owns effect
    refine ⟨owns, ?_⟩
    rintro rfl
    exact sound.retired_of_unmarked owns (Option.ite_none_right_eq_some.1 effect).1
  · intro (attempted : Bool)
    cases attempted with
    | true => exact marked.mono (fun _ holds => holds.1) (fun _ _ => id) fun _ => id
    | false =>
      exact unmarked.mono (fun _ holds => ⟨holds.1, holds.2 rfl⟩) (fun _ _ => id) fun _ => id

theorem delete_safe {failure : Failure} {failed : Host → Prop}
    (stopped : ∀ host, Owns host prepared → failed host) :
    Safe config (Owns · prepared) (attempt (.delete prepared.containerID) failure)
      (fun _ => Deleted prepared) failed := by
  refine attempt_safe _ (fun _ _ => rfl) (fun _ _ => id) stopped ?_
  intro host _ next sound owns effect
  cases effect
  exact ⟨sound.delete _, owns, List.mem_cons_self⟩

/-- A retired container without secrets is removed. -/
theorem removeRetired_safe :
    Safe config (fun host => Removable config prepared host ∧
        prepared.containerID ∉ host.secrets) (removeOwnedBundle prepared.directory)
      (fun _ => Gone config prepared) (Owns · prepared) := fun host sound holds =>
  (removeOwnedBundle_safe host.secrets host sound ⟨holds.1.1, holds.1.2, rfl⟩).mono
    (fun _ _ gone => gone holds.2) fun _ _ => id

/-- A report of success finds nothing left. -/
theorem report_safe {failed : Host → Prop} :
    Safe config (Gone config prepared) (ignore (.report prepared.containerID))
      (fun _ => Gone config prepared) failed := by
  refine ignore_safe (fun _ _ => rfl) (fun _ _ => id) (fun _ => id) ?_
  intro host _ next sound gone effect
  cases effect
  refine ⟨sound.note gone.2.1 .report ?_, gone⟩
  intro _
  have none : host.bundles.any (·.owner = prepared.containerID) = false := by
    simpa using gone.2.2.1
  simpa [Host.event, none] using gone.2.2.2

/-- A cleanup that returns without a failure leaves nothing of the container. -/
theorem cleanup_safe :
    Safe config (Owns · prepared) (cleanup config prepared false)
      (fun _ => Gone config prepared) (Owns · prepared) := by
  have removes : Safe config (Removable config prepared) (do
        let _ ← attempt .consult (.message "close gVisor evidence collector")
        removeSecretTmpfs prepared.containerID
        let _ ← attempt .consult (.message "close test-secret files")
        removeOwnedBundle prepared.directory)
      (fun _ => Gone config prepared) (Owns · prepared) :=
    Runs.bind (consult_safe (fun _ _ => id) fun _ holds => holds.1) fun _ =>
    Runs.bind removeSecretTmpfs_safe fun _ =>
    Runs.bind (consult_safe (fun _ _ => id) fun _ holds => holds.1.1) fun _ => removeRetired_safe
  refine Runs.bind (context_safe (fun _ _ => id) fun _ => id) fun _ =>
    lookAttempt_safe (fun _ => id) removes ?_
  exact Runs.bind (delete_safe fun _ => id) fun _ =>
    Runs.bind confirmContainerTeardown_safe fun _ => removes

end ProvenanceRunner.Containers
