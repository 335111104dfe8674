import ProvenanceRunner.Enrollment.Run

/-! # Rules for the store

For each routine of the store: an invariant that holds before and after its one visible change
holds wherever the routine can be stopped, and without an interruption the routine does not fail. -/

namespace ProvenanceRunner.Enrollment

open Utf8 Interruptions

/-! ## Files -/

namespace Directory

variable (directory : Directory) (suffix : Nat)

theorem content_isSome :
    (directory.content suffix).isSome = true ↔ suffix ∈ directory.names := by
  simp only [content, names, Option.isSome_iff_ne_none, ne_eq, List.lookup_eq_none_iff,
    not_forall, List.mem_map]
  constructor
  · rintro ⟨file, inside, same⟩
    exact ⟨file, inside, (by simpa using same : suffix = file.1).symm⟩
  · rintro ⟨file, inside, same⟩
    exact ⟨file, inside, by simp [same]⟩

theorem lookup_fill (files : List (Nat × Content)) (suffix : Nat) (change : Content → Content) :
    (files.map fun file =>
      if file.1 = suffix then (file.1, change file.2) else file).lookup suffix =
      (files.lookup suffix).map change := by
  induction files with
  | nil => rfl
  | cons file rest later =>
    obtain ⟨name, _⟩ := file
    by_cases same : name = suffix
    · simp [same]
    · have other : (suffix == name) = false := by simpa using fun equal => same equal.symm
      simpa [same, List.lookup_cons, other] using later

@[simp] theorem content_fill (change : Content → Content) :
    (directory.fill suffix change).content suffix = (directory.content suffix).map change :=
  lookup_fill directory.files suffix change

@[simp] theorem names_fill (change : Content → Content) :
    (directory.fill suffix change).names = directory.names :=
  map_fst_fill directory.files suffix change

theorem content_create (content : Content) (fresh : directory.content suffix = none) :
    (directory.create suffix content).content suffix = some content := by
  have absent : suffix ∉ directory.names := by
    rw [← content_isSome, fresh]
    exact Bool.false_ne_true
  simp [create, absent, Directory.content]

/-- The names without the first one. -/
theorem names_drop (rest : List Nat) (names : directory.names = suffix :: rest) :
    (directory.drop suffix).names = rest := by
  have distinct : (suffix :: rest).Nodup := names ▸ directory.distinct
  have filtered : (directory.drop suffix).names = directory.names.filter (· ≠ suffix) := by
    simp only [Directory.names, drop, List.filter_map]
    rfl
  rw [filtered, names, List.filter_cons_of_neg (by simp)]
  apply List.filter_eq_self.2
  intro name inside
  have other : name ≠ suffix := by
    rintro rfl
    exact (List.nodup_cons.1 distinct).1 inside
  simpa using other

end Directory

namespace Machine

variable (machine : Machine) (place : Place)

@[simp] theorem target_setTemporaries (files : Directory) :
    (machine.setTemporaries place files).target = machine.target := rfl

@[simp] theorem target_setTarget (content : Option Content) :
    (machine.setTarget place content).target place = content :=
  Function.update_self ..

@[simp] theorem temporaries_setTarget (content : Option Content) :
    (machine.setTarget place content).temporaries = machine.temporaries := rfl

@[simp] theorem temporary_setTarget (other : Place) (content : Option Content)
    (suffix : Nat) :
    (machine.setTarget place content).temporary other suffix = machine.temporary other suffix := rfl

@[simp] theorem temporary_fill (suffix : Nat) (change : Content → Content) :
    (machine.fill place suffix change).temporary place suffix =
      (machine.temporary place suffix).map change := by
  simp [fill, temporary, setTemporaries]

theorem temporary_create (suffix : Nat) (content : Content)
    (fresh : machine.temporary place suffix = none) :
    (machine.create place suffix content).temporary place suffix = some content := by
  simp only [create, temporary, setTemporaries, Function.update_self]
  exact Directory.content_create _ suffix content fresh

end Machine

/-- Two machines that differ in temporary files only. -/
structure Alike (machine other : Machine) : Prop where
  target : other.target = machine.target
  issued : other.issued = machine.issued

theorem Alike.refl (machine : Machine) : Alike machine machine := ⟨rfl, rfl⟩

/-- Two machines that differ in temporary files of the identity and the credential only. -/
structure Beside (machine other : Machine) : Prop extends Alike machine other where
  tombstones : other.temporaries .token = machine.temporaries .token

namespace Beside

theorem refl (machine : Machine) : Beside machine machine := ⟨.refl _, rfl⟩

variable {machine other : Machine} (beside : Beside machine other) {place : Place}
include beside

theorem setTemporaries (kept : place ≠ .token) (files : Directory) :
    Beside machine (other.setTemporaries place files) := by
  refine ⟨⟨beside.target, beside.issued⟩, ?_⟩
  simp only [Machine.setTemporaries, Function.update_of_ne kept.symm]
  exact beside.tombstones

theorem fill (kept : place ≠ .token) (suffix : Nat) (change : Content → Content) :
    Beside machine (other.fill place suffix change) :=
  beside.setTemporaries kept _

theorem drop (kept : place ≠ .token) (suffix : Nat) : Beside machine (other.drop place suffix) :=
  beside.setTemporaries kept _

theorem setTarget (place : Place) (content : Option Content) :
    Beside (machine.setTarget place content) (other.setTarget place content) := by
  refine ⟨⟨?_, beside.issued⟩, beside.tombstones⟩
  simp [Machine.setTarget, beside.target]

end Beside

/-! ## Calls -/

variable {crypto : Crypto} {authority : Authority crypto} {steady : Bool}
  {invariant : Machine → Prop} {failed : Failure → Machine → Prop} {machine : Machine}

/-- A program of the store keeps an invariant. -/
abbrev Enrolls {α : Type} (authority : Authority crypto) (steady : Bool)
    (invariant : Machine → Prop) (post : α → Machine → Prop) (failed : Failure → Machine → Prop)
    (program : Enroll crypto α) (machine : Machine) : Prop :=
  Keeps (perform crypto authority steady) invariant post failed program machine

theorem unsteady {claim : Prop} (mode : steady = false) (steadily : steady = true) : claim := by
  simp [mode] at steadily

theorem attempt_keeps (op : Op) (text : String) {post : op.Payload crypto → Machine → Prop}
    (start : invariant machine) (able : op.possible machine = true)
    (stopped : steady = false → failed (.message text) machine)
    (works : ∀ payload next, op.effect crypto authority machine payload = some next →
      (steady = true → op.settled crypto authority payload = true) →
      invariant next ∧ post payload next) :
    Enrolls authority steady invariant post failed (attempt op text) machine := by
  refine ⟨start, ?_⟩
  intro answer next performed
  simp only [perform, able, Bool.and_true, Bool.true_and] at performed
  cases answer with
  | none =>
    cases mode : steady with
    | true => simp [mode] at performed
    | false =>
      obtain rfl : machine = next := by simpa [mode] using performed
      exact ⟨start, stopped mode⟩
  | some payload =>
    obtain ⟨allowed, performed⟩ := Option.ite_none_right_eq_some.1 performed
    refine works payload next performed ?_
    intro mode
    simpa [mode] using allowed

/-- A call whose failure is not looked at, when something holds before and after it. -/
theorem ignore_keeps (op : Op) (frame : Machine → Prop) (start : frame machine)
    (works : ∀ payload next, op.effect crypto authority machine payload = some next → frame next)
    (holds : ∀ other, frame other → invariant other) :
    Enrolls authority steady invariant (fun _ other => frame other) failed (ignore op) machine := by
  refine ⟨holds _ start, ?_⟩
  intro answer next performed
  unfold perform at performed
  cases answer with
  | none =>
    obtain ⟨_, ⟨⟩⟩ := Option.ite_none_left_eq_some.1 performed
    exact ⟨holds _ start, start⟩
  | some payload =>
    have after := works payload next (Option.ite_none_right_eq_some.1 performed).2
    exact ⟨holds _ after, after⟩

/-- A call without an effect. -/
theorem quiet_keeps (op : Op) (text : String) {post : op.Payload crypto → Machine → Prop}
    (quiet : ∀ payload, op.effect crypto authority machine payload = some machine)
    (able : op.possible machine = true) (start : invariant machine)
    (stopped : steady = false → failed (.message text) machine)
    (then' : ∀ payload, post payload machine) :
    Enrolls authority steady invariant post failed (attempt op text) machine := by
  refine attempt_keeps op text start able stopped ?_
  intro payload next effect _
  rw [quiet payload] at effect
  cases effect
  exact ⟨start, then' payload⟩

/-- The content of a place is read. -/
theorem read_keeps (place : Place) (text : String) {post : Option Content → Machine → Prop}
    (start : invariant machine) (stopped : steady = false → failed (.message text) machine)
    (then' : post (machine.target place) machine) :
    Enrolls authority steady invariant post failed
      (attempt (.read place) text) machine := by
  refine attempt_keeps (.read place) text start rfl stopped ?_
  intro (content : Option Content) next effect _
  obtain ⟨same, ⟨⟩⟩ := Option.ite_none_right_eq_some.1 effect
  exact ⟨start, (show machine.target place = content from same) ▸ then'⟩

/-! ## Routines -/

variable {place : Place}

section

variable (kept : place ≠ .token) {start : Machine} (beside : Beside start machine)
  (holds : ∀ other, Beside start other → invariant other)
include kept

section

include beside holds

/-- A temporary file that is written keeps being there. -/
theorem writeAndSync_keeps (suffix : Nat) (content : Content) (text : String)
    (present : (machine.temporary place suffix).isSome = true) :
    Enrolls authority steady invariant
      (fun _ other => Beside start other ∧ other.temporary place suffix = some content)
      (fun _ other => steady = false ∧ Beside start other)
      (writeAndSync place suffix content text) machine := by
  obtain ⟨_, isOld⟩ := Option.isSome_iff_exists.1 present
  refine Keeps.bind (attempt_keeps _ text (holds _ beside) present (fun mode => ⟨mode, beside⟩) ?_)
  intro bytes next effect _
  cases effect
  have first := beside.fill kept suffix fun _ => .raw bytes
  have there : (machine.fill place suffix fun _ => .raw bytes).temporary place suffix =
      some (.raw bytes) := by
    rw [Machine.temporary_fill, isOld, Option.map_some]
  refine ⟨holds _ first, ?_⟩
  refine Keeps.bind (attempt_keeps _ text (holds _ first) ?_ (fun mode => ⟨mode, first⟩) ?_)
  · simp [Op.possible, there]
  intro _ last effect _
  cases effect
  have after := first.fill kept suffix fun _ => content
  refine ⟨holds _ after, holds _ after, after, ?_⟩
  rw [Machine.temporary_fill, there, Option.map_some]

theorem discard_keeps (suffix : Nat) :
    Enrolls authority steady invariant (fun _ other => Beside start other) failed
      (discard place suffix) machine := by
  refine Keeps.seq (ignore_keeps _ (Beside start) beside ?_ holds) ?_
  · intro _ next effect
    cases effect
    exact beside.fill kept suffix _
  · intro _ first one
    refine Keeps.seq (ignore_keeps _ (Beside start) one ?_ holds) ?_
    · intro _ next effect
      cases effect
      exact one.fill kept suffix _
    · intro _ second two
      refine ignore_keeps _ (Beside start) two ?_ holds
      intro _ next effect
      cases effect
      exact two.drop kept suffix

end

variable {post : Unit → Machine → Prop}
include holds

/-- A program whose failure discards its temporary file. -/
theorem discarding_keeps (suffix : Nat) {program : Enroll crypto Unit}
    (keeps : Enrolls authority steady invariant post
      (fun _ other => steady = false ∧ Beside start other) program machine) :
    Enrolls authority steady invariant post (fun _ _ => steady = false)
      (discarding place suffix program) machine := by
  refine Keeps.rescue (keeps.mono (fun _ _ => id) ?_)
  rintro failure other ⟨mode, beside⟩
  exact Keeps.seq (discard_keeps kept beside holds suffix) fun _ next after =>
    ⟨holds _ after, mode⟩

/-- A program that fills a temporary file, goes on with it and discards it when it fails. -/
theorem withTemporary_keeps (content : Content) (created written : String)
    (rest next : Nat → Enroll crypto Unit)
    (after : ∀ suffix other, Beside start other → other.temporary place suffix = some content →
      Enrolls authority steady invariant
        (fun _ last => Enrolls authority steady invariant post (fun _ _ => steady = false)
          (next suffix) last)
        (fun _ last => steady = false ∧ Beside start last) (rest suffix) other) :
    Enrolls authority steady invariant post (fun _ _ => steady = false)
      (do
        let suffix ← attempt (.createTemporary place) created
        discarding place suffix do
          writeAndSync place suffix content written
          rest suffix
        next suffix) start := by
  refine Keeps.bind (attempt_keeps _ _ (holds _ (.refl _)) rfl id ?_)
  intro (suffix : Nat) made effect _
  obtain ⟨fresh, ⟨⟩⟩ := Option.ite_none_right_eq_some.1 effect
  have beside : Beside start (start.create place suffix (.raw [])) :=
    (Beside.refl start).setTemporaries kept _
  have there := start.temporary_create place suffix (.raw []) (Option.isNone_iff_eq_none.1 fresh)
  refine ⟨holds _ beside, Keeps.bind (discarding_keeps kept holds suffix (Keeps.seq
    (writeAndSync_keeps kept beside holds suffix content written (by rw [there]; rfl)) ?_))⟩
  intro _ filled written
  exact after suffix filled written.1 written.2

end

/-- Bytes that are not the beginning of a registration token. -/
def Content.Spoiled (content : Content) : Prop := content.bytes.head? ≠ some 0x70

/-- Zeroes leave a file alone or spoil it. -/
theorem zeroed_spoils (count : Nat) (content : Content) :
    content.zeroed count = content ∨ (content.zeroed count).Spoiled := by
  cases content with
  | document =>
    right
    simp [Content.Spoiled, Content.zeroed, Content.bytes]
  | raw bytes =>
    cases bytes with
    | nil =>
      left
      simp [Content.zeroed]
    | cons byte rest =>
      cases count with
      | zero =>
        left
        simp [Content.zeroed]
      | succ count =>
        right
        have front : min (count + 1) (byte :: rest).length = min count rest.length + 1 := by
          simp only [List.length_cons]
          omega
        simp only [Content.Spoiled, Content.zeroed, Content.bytes, front, List.replicate_succ,
          List.cons_append, List.head?_cons]
        decide

/-- A temporary file is cleared, while something holds that clearing does not change. -/
theorem zeroAt_keeps (place : Place) (suffix : Nat) (text : String) (frame : Machine → Prop)
    (present : (machine.temporary place suffix).isSome = true) (start : frame machine)
    (closed : ∀ other change, (∀ content, change content = content ∨ (change content).Spoiled) →
      frame other → frame (other.fill place suffix change))
    (holds : ∀ other, frame other → invariant other) :
    Enrolls authority steady invariant
      (fun _ other => frame other ∧ (other.temporary place suffix).isSome = true)
      (fun _ other => steady = false ∧ frame other) (zeroAt place suffix text) machine := by
  refine Keeps.bind (attempt_keeps _ text (holds _ start) present (fun mode => ⟨mode, start⟩) ?_)
  intro count next effect _
  cases effect
  have first := closed machine (Content.zeroed count) (zeroed_spoils count) start
  have there : ((machine.fill place suffix (Content.zeroed count)).temporary place
      suffix).isSome = true := by
    rw [Machine.temporary_fill, Option.isSome_map]
    exact present
  refine ⟨holds _ first,
    Keeps.bind (attempt_keeps _ text (holds _ first) there (fun mode => ⟨mode, first⟩) ?_)⟩
  intro _ last effect _
  cases effect
  have second := closed _ (fun content => content.zeroed content.size)
    (fun content => zeroed_spoils content.size content) first
  refine ⟨holds _ second, holds _ second, second, ?_⟩
  rw [Machine.temporary_fill, Option.isSome_map]
  exact there

section

variable (kept : place ≠ .token) (content : Content)
  (before : ∀ other, Beside machine other → invariant other)
  (after : ∀ other, Beside (machine.setTarget place (some content)) other → invariant other)
include kept before after

/-- A file is installed where there was none. -/
theorem createAt_keeps (absent : machine.target place = none) :
    Enrolls authority steady invariant
      (fun _ other => Beside (machine.setTarget place (some content)) other)
      (fun _ _ => steady = false) (createAt place content) machine := by
  refine withTemporary_keeps kept before content _ _ _ _ ?_
  intro suffix written here isContent
  refine Keeps.bind (attempt_keeps _ _ (before _ here) ?_ (fun mode => ⟨mode, here⟩) ?_)
  · simp [Op.possible, here.target, absent, isContent]
  intro _ installed effect _
  dsimp only [Op.effect] at effect
  rw [isContent] at effect
  cases effect
  have moved := (here.setTarget place (some content)).drop kept suffix
  refine ⟨after _ moved, after _ moved, ?_⟩
  exact Keeps.bind (quiet_keeps _ _ (fun _ => rfl) rfl (after _ moved) id
    fun _ => ⟨after _ moved, moved⟩)

/-- A file takes the place of another one, or of none. -/
theorem replaceAt_keeps :
    Enrolls authority steady invariant
      (fun _ other => Beside (machine.setTarget place (some content)) other)
      (fun _ _ => steady = false) (replaceAt place content) machine := by
  refine Keeps.bind (read_keeps place _ (before _ (.refl _)) id ?_)
  cases current : machine.target place with
  | none => exact createAt_keeps kept content before after current
  | some old =>
    refine withTemporary_keeps kept before content _ _ _ _ ?_
    intro suffix written here isContent
    refine Keeps.bind (quiet_keeps (.check place) _ (fun _ => rfl) rfl (before _ here)
      (fun mode => ⟨mode, here⟩) fun _ => ?_)
    refine Keeps.bind (attempt_keeps _ _ (before _ here) ?_ (fun mode => ⟨mode, here⟩) ?_)
    · simp [Op.possible, here.target, current, isContent]
    intro _ exchanged effect _
    dsimp only [Op.effect] at effect
    rw [here.target, current, isContent] at effect
    cases effect
    have moved := (here.setTarget place (some content)).fill kept suffix fun _ => old
    have there : (((written.setTarget place (some content)).fill place suffix
        fun _ => old).temporary place suffix).isSome = true := by
      rw [Machine.temporary_fill, Machine.temporary_setTarget, isContent]
      rfl
    refine ⟨after _ moved, after _ moved, Keeps.bind ((zeroAt_keeps place suffix _ _ there moved
      (fun other change _ more => more.fill kept suffix change) after).mono ?_
      fun _ _ stopped => stopped.1)⟩
    intro _ cleared holds
    refine Keeps.bind (attempt_keeps _ _ (after _ holds.1) holds.2 id ?_)
    intro _ unlinked effect _
    cases effect
    have last := holds.1.drop kept suffix
    exact ⟨after _ last, Keeps.bind (quiet_keeps _ _ (fun _ => rfl) rfl (after _ last) id
      fun _ => ⟨after _ last, last⟩)⟩

end

/-! ## Opening the store -/

theorem names_of_fill (machine : Machine) (place : Place) (suffix : Nat)
    (change : Content → Content) :
    ((machine.fill place suffix change).temporaries place).names =
      (machine.temporaries place).names := by
  simp [Machine.fill, Machine.setTemporaries]

theorem names_of_drop (machine : Machine) (place : Place) (suffix : Nat) (rest : List Nat)
    (names : (machine.temporaries place).names = suffix :: rest) :
    ((machine.drop place suffix).temporaries place).names = rest := by
  simp only [Machine.drop, Machine.setTemporaries, Function.update_self]
  exact Directory.names_drop _ suffix rest names

section

variable {start : Machine} (holds : ∀ other, Alike start other → invariant other)
include holds

theorem removeTemporaries_keeps (place : Place) (suffixes : List Nat) :
    ∀ machine, Alike start machine → (machine.temporaries place).names = suffixes →
      Enrolls authority steady invariant
        (fun _ other => Alike start other ∧ (other.temporaries place).names = [])
        (fun _ _ => steady = false) (removeTemporaries place suffixes) machine := by
  induction suffixes with
  | nil => exact fun machine alike names => ⟨holds _ alike, alike, names⟩
  | cons suffix rest later =>
    intro machine alike names
    have present : (machine.temporary place suffix).isSome = true := by
      refine (Directory.content_isSome _ _).2 ?_
      rw [names]
      exact List.mem_cons_self
    refine Keeps.bind ((zeroAt_keeps place suffix _ (fun other => Alike start other ∧
        (other.temporaries place).names = suffix :: rest) present ⟨alike, names⟩ ?_
      (fun other framed => holds _ framed.1)).mono ?_ (fun _ _ stopped => stopped.1))
    · intro other change _ framed
      exact ⟨⟨framed.1.target, framed.1.issued⟩,
        (names_of_fill other place suffix change).trans framed.2⟩
    · intro _ cleared framed
      refine Keeps.bind (attempt_keeps _ _ (holds _ framed.1.1) framed.2 id ?_)
      intro _ next effect _
      cases effect
      have after : Alike start (cleared.drop place suffix) := ⟨framed.1.1.target, framed.1.1.issued⟩
      exact ⟨holds _ after, later _ after (names_of_drop cleared place suffix rest framed.1.2)⟩

theorem cleanupTemporaries_keeps (place : Place) (alike : Alike start machine) :
    Enrolls authority steady invariant
      (fun _ other => Alike start other ∧ (other.temporaries place).names = [])
      (fun _ _ => steady = false) (cleanupTemporaries place) machine := by
  refine Keeps.bind (attempt_keeps _ _ (holds _ alike) rfl id ?_)
  intro (suffixes : List Nat) next effect _
  obtain ⟨names, ⟨⟩⟩ := Option.ite_none_right_eq_some.1 effect
  refine ⟨holds _ alike, Keeps.seq (removeTemporaries_keeps holds place suffixes machine alike
    names) ?_⟩
  intro _ cleaned framed
  split
  · exact ⟨holds _ framed.1, framed⟩
  · exact Keeps.bind (quiet_keeps _ _ (fun _ => rfl) rfl (holds _ framed.1) id
      fun _ => ⟨holds _ framed.1, framed⟩)

/-- An open store has no temporary file of the token. -/
theorem openStore_keeps :
    Enrolls authority steady invariant
      (fun _ other => Alike start other ∧ (other.temporaries .token).names = [])
      (fun _ _ => steady = false) openStore start := by
  refine Keeps.bind (quiet_keeps .lock _ (fun _ => rfl) rfl (holds _ (.refl _)) id fun _ => ?_)
  refine Keeps.seq (cleanupTemporaries_keeps holds .identity (.refl _)) ?_
  intro _ first one
  refine Keeps.seq (cleanupTemporaries_keeps holds .credential one.1) ?_
  intro _ second two
  exact cleanupTemporaries_keeps holds .token two.1

end

/-! ## The token -/

/-- What the removal of a token leaves alone, and what it can leave at the place of the token. -/
structure Spent (token : Bytes) (machine other : Machine) : Prop where
  target : ∀ place ≠ .token, other.target place = machine.target place
  issued : other.issued = machine.issued
  left : ∀ content, other.target .token = some content → content = .raw token ∨ content.Spoiled

theorem Spent.setTemporaries {token : Bytes} {other : Machine}
    (spent : Spent token machine other) (place : Place) (files : Directory) :
    Spent token machine (other.setTemporaries place files) :=
  ⟨spent.target, spent.issued, spent.left⟩

theorem Spent.setTarget {token : Bytes} {other : Machine}
    (spent : Spent token machine other) (content : Option Content)
    (left : ∀ file, content = some file → file = .raw token ∨ file.Spoiled) :
    Spent token machine (other.setTarget .token content) := by
  refine ⟨?_, spent.issued, ?_⟩
  · intro place different
    simp only [Machine.setTarget, Function.update_of_ne different]
    exact spent.target place different
  · intro file isFile
    simp only [Machine.setTarget, Function.update_self] at isFile
    exact left file isFile

/-- The token has been moved away and is being cleared. -/
structure Isolated (token : Bytes) (suffix : Nat) (machine other : Machine) : Prop where
  spent : Spent token machine other
  absent : other.target .token = none
  names : (other.temporaries .token).names = suffix :: (machine.temporaries .token).names
  content : ∃ content, other.temporary .token suffix = some content ∧
    (content = .raw token ∨ content.Spoiled)

theorem Isolated.fill {token : Bytes} {suffix : Nat} {other : Machine}
    (isolated : Isolated token suffix machine other) (change : Content → Content)
    (spoils : ∀ content, change content = content ∨ (change content).Spoiled) :
    Isolated token suffix machine (other.fill .token suffix change) := by
  obtain ⟨content, isContent, kind⟩ := isolated.content
  refine ⟨isolated.spent.setTemporaries _ _, isolated.absent,
    (names_of_fill other .token suffix change).trans isolated.names, change content, ?_, ?_⟩
  · rw [Machine.temporary_fill, isContent, Option.map_some]
  rcases spoils content with same | spoiled
  · rw [same]
    exact kind
  · exact .inr spoiled

theorem removeToken_keeps (token : Bytes) (isToken : machine.target .token = some (.raw token))
    (holds : ∀ other, Spent token machine other → invariant other) :
    Enrolls authority steady invariant
      (fun _ other => Spent token machine other ∧ other.target .token = none ∧
        (other.temporaries .token).names = (machine.temporaries .token).names)
      (fun _ _ => steady = false) (removeToken (crypto.sha256 token)) machine := by
  have start : Spent token machine machine := by
    refine ⟨fun _ _ => rfl, rfl, ?_⟩
    intro content isContent
    rw [isToken] at isContent
    exact .inl (Option.some.inj isContent).symm
  refine Keeps.bind (read_keeps .token _ (holds _ start) id ?_)
  rw [isToken]
  show Keeps _ _ _ _ (if some (crypto.sha256 token) = some (crypto.sha256 token) then _ else _) _
  rw [if_pos rfl]
  refine Keeps.bind (attempt_keeps _ _ (holds _ start) (by simp [Op.possible, isToken]) id ?_)
  intro (suffix : Nat) moved effect _
  dsimp only [Op.effect] at effect
  rw [isToken] at effect
  split at effect
  swap
  · cases effect
  next content fresh isContent isFresh =>
  cases isContent
  cases effect
  have names : (((machine.setTarget .token none).create .token suffix
      (.raw token)).temporaries .token).names = suffix :: (machine.temporaries .token).names := by
    have absent : suffix ∉ (machine.temporaries .token).names := by
      rw [← Directory.content_isSome]
      intro present
      rw [show (machine.temporaries .token).content suffix = none from isFresh] at present
      cases present
    simp only [Machine.create, Machine.setTemporaries, Function.update_self,
      Machine.temporaries_setTarget]
    rw [Directory.create, dif_neg absent]
    rfl
  have isolated : Isolated token suffix machine
      ((machine.setTarget .token none).create .token suffix (.raw token)) := by
    refine ⟨(start.setTarget none nofun).setTemporaries _ _, ?_, names,
      .raw token, Machine.temporary_create _ _ _ _ isFresh, .inl rfl⟩
    simp [Machine.create, Machine.setTarget]
  have safe : ∀ other, Isolated token suffix machine other → invariant other :=
    fun other more => holds _ more.spent
  refine ⟨safe _ isolated, Keeps.bind (Keeps.rescue ?_)⟩
  refine Keeps.mono (Keeps.bind (quiet_keeps (.check .token) _ (fun _ => rfl) rfl
    (safe _ isolated) (fun mode => ⟨mode, isolated⟩) (fun _ => zeroAt_keeps .token suffix _
      (Isolated token suffix machine) ?_ isolated
      (fun other change spoils more => more.fill change spoils) safe))) ?_ ?_
  · obtain ⟨_, isContent, _⟩ := isolated.content
    rw [isContent]
    rfl
  · intro _ cleared framed
    refine Keeps.bind (attempt_keeps _ _ (safe _ framed.1) framed.2 id ?_)
    intro _ unlinked effect _
    cases effect
    have spent := framed.1.spent.setTemporaries .token ((cleared.temporaries .token).drop suffix)
    exact ⟨holds _ spent, Keeps.bind (quiet_keeps _ _ (fun _ => rfl) rfl (holds _ spent) id fun _ =>
      ⟨holds _ spent, spent, framed.1.absent,
        names_of_drop cleared .token suffix _ framed.1.names⟩)⟩
  · rintro failure other ⟨mode, left⟩
    refine Keeps.seq (ignore_keeps _ (Spent token machine) left.spent ?_ holds)
      fun _ next spent => ⟨holds _ spent, mode⟩
    intro _ restored effect
    cases effect
    obtain ⟨_, isContent, kind⟩ := left.content
    refine (left.spent.setTarget (other.temporary .token suffix) ?_).setTemporaries .token _
    intro file isFile
    rw [isContent] at isFile
    exact Option.some.inj isFile ▸ kind

end ProvenanceRunner.Enrollment
