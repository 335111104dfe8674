import ProvenanceRunner.Gateway.AdvanceMoves

/-! # Settling an event as moves

The handling of an acknowledgement of the pending event. Three of the licences are needed here: to
lower the phase after a late acknowledgement of an acceptance, to leave a start request waiting
beside a recorded cancellation, and to clear an event that ends the job without another in its
place. -/

namespace ProvenanceRunner.Gateway

open Programs

variable {env : Environment} {licence : Licence} {start : Core} {world : World}

/-! ## Clearing -/

/-- The books after the pending event has been cleared and noted as settled. -/
def Books.settle (books : Books) (pending : RunnerMessage) : Books :=
  (books.commit .clearPending { books.journal with pendingMessage := none }).log (.settled pending)

theorem commits_clear {books : Books} {state : JournalState}
    (clears : Commits env books .clearPending state) :
    state = { books.journal with pendingMessage := none } :=
  (Prod.mk.inj clears.1).1.symm

/-- A session may remember an event. -/
def World.remembering (world : World) (message : RunnerMessage) (phase : JobPhase) : World :=
  if message.messageId.isEmpty then world
  else { world with session := { world.session with
    settledEvents := remember world.session.settledEvents message.messageId ⟨message, phase⟩ } }

@[simp] theorem coreOf_remembering (world : World) (message : RunnerMessage) (phase : JobPhase) :
    coreOf (world.remembering message phase) = coreOf world := by
  unfold World.remembering
  split <;> rfl

variable (message : RunnerMessage) (pending : RunnerMessage)

theorem ends_remember (phase : JobPhase) (post : Except Failure Unit → World → Prop) :
    Ends (rememberSettledMessage message phase) world post ↔
      post (.ok ()) (world.remembering message phase) := by
  unfold rememberSettledMessage World.remembering
  split <;> exact Iff.rfl

/-- The last world of a clearing that does not fail. -/
def World.settled (world : World) (pending : RunnerMessage) (active : Option JournalJob) : World :=
  ((world.committed .clearPending { world.client.journal with pendingMessage := none }).noted
    (.settled pending)).remembering pending ((active.map (·.phase)).getD .unspecified)

@[simp] theorem coreOf_settled (world : World) (pending : RunnerMessage)
    (active : Option JournalJob) :
    coreOf (world.settled pending active) = ⟨(booksOf world).settle pending, handsOf world⟩ := by
  rw [World.settled, coreOf_remembering]
  rfl

theorem booksOf_settled (world : World) (pending : RunnerMessage) (active : Option JournalJob) :
    booksOf (world.settled pending active) = (booksOf world).settle pending :=
  congrArg Core.books (coreOf_settled world pending active)

theorem handsOf_settled (world : World) (pending : RunnerMessage) (active : Option JournalJob) :
    handsOf (world.settled pending active) = handsOf world :=
  congrArg Core.hands (coreOf_settled world pending active)

theorem settled_journal (world : World) (pending : RunnerMessage) (active : Option JournalJob) :
    (world.settled pending active).client.journal =
      { world.client.journal with pendingMessage := none } :=
  congrArg Books.journal (booksOf_settled world pending active)

theorem clear_permitted {books : Books} {hands : Hands} {pending : RunnerMessage}
    (stands : books.journal.pendingMessage = some pending)
    (kept : pending.endsJob = true → licence.lostEnd) :
    Permitted env licence ⟨books, hands⟩ .clearPending := by
  intro message pending' ends
  rw [stands, Option.some.injEq] at pending'
  exact kept (pending' ▸ ends)

theorem settle_moves {books : Books} {hands : Hands} {pending : RunnerMessage}
    (reached : Moves env licence start ⟨books, hands⟩) (sound : books.Sound env)
    (stands : books.journal.pendingMessage = some pending)
    (kept : pending.endsJob = true → licence.lostEnd)
    (clears : Commits env books .clearPending { books.journal with pendingMessage := none }) :
    Moves env licence start ⟨books.settle pending, hands⟩ := by
  refine (reached.tail (.commit books hands _ _ clears (clear_permitted stands kept))).tail
    (.note _ hands _ ?_)
  exact ⟨books.trace, books.journal, rfl, sound.recorded, stands⟩

theorem acts_clear (reached : Moves env licence start (coreOf world)) (active : Option JournalJob)
    (sound : start.books.Sound env) (stands : world.client.journal.pendingMessage = some pending)
    (kept : pending.endsJob = true → licence.lostEnd) :
    Acts env licence coreOf start (clearPendingAcknowledged env pending active) world
      fun _ final => coreOf final = ⟨(booksOf world).settle pending, handsOf world⟩ := by
  unfold clearPendingAcknowledged clearPending
  refine Acts.bind (acts_update reached .clearPending (clear_permitted stands kept)
    (not_panics_other (by simp) (by simp))) fun _ between _ committed => ?_
  obtain ⟨_, clears, rfl⟩ := committed
  obtain rfl := commits_clear clears
  rw [acts_record_bind]
  refine (ends_remember pending _ _).2 ?_
  have same := coreOf_settled world pending active
  refine ⟨?_, same⟩
  change Moves env licence start (coreOf (world.settled pending active))
  rw [same]
  exact settle_moves reached (reached.sound sound) stands kept clears

/-! ## Reissuing -/

theorem reissued_some (durable : durableRunnerMessage message = true) (lease : Option LeaseIdentity)
    (attempt : Option AttemptIdentity) (now : Int) :
    ∃ old new, message.payload = some old ∧ reissued old lease attempt now = some new := by
  unfold durableRunnerMessage at durable
  split at durable <;> first
    | (rename_i carries; exact ⟨_, _, carries, rfl⟩)
    | simp at durable

/-- Writing never fails in a way that the process survives. -/
def Persisted.Steady (persisted : Persisted) : Prop :=
  persisted ≠ .refused true ∧ persisted ≠ .unsynced true

theorem ends_update_steady (world : World) (change : JournalChange)
    (steady : ∀ n, (world.responses n).persisted.Steady) :
    Ends (update env change) world fun result final => final.responses = world.responses ∧
      ∀ failure, result = .error failure → failure.transient = false := by
  refine ends_update env change world _ ?_ ?_ ?_ ?_
  · exact fun _ _ => ⟨rfl, by simp⟩
  · intro state transient _ persisted
    refine ⟨rfl, fun failure same => ?_⟩
    obtain rfl := Except.error.inj same
    cases transient with
    | false => rfl
    | true => exact absurd persisted (steady _).2
  · intro failure _ _ refused
    refine ⟨rfl, fun other same => ?_⟩
    obtain rfl := Except.error.inj same
    exact Bool.eq_false_iff.2 fun transient => (steady _).1 (refused transient)
  · intro state failure applied
    exact ⟨rfl, fun other same =>
      Except.error.inj same ▸ (apply_failure env change _ _ _ applied).1⟩

/-- When writing is steady, an event that was not stored was not stored for good. -/
theorem ends_queueDurable_steady (payload : RunnerPayload) (mutation : Mutation)
    (steady : ∀ n, (world.responses n).persisted.Steady) :
    Ends (queueDurable env payload mutation) world fun result final =>
      ∀ failure, result = .error failure → failure.transient = true →
        final.client.journal.pendingMessage ≠ none := by
  unfold queueDurable runnerMessage nextMessageSequence
  rw [bind_assoc, ends_readClock_bind, bind_assoc, bind_assoc]
  refine Ends.bind (ends_update_steady world.asked .nextMessageSequence steady) ?_ ?_
  case refine_2 =>
    rintro failure final ⟨_, lasting⟩ other same transient
    rw [lasting other same] at transient
    simp at transient
  rintro _ numbered ⟨responses, _⟩
  rw [bind_assoc, ends_snapshot_bind, pure_bind, pure_bind]
  dsimp only
  split
  · intro failure same transient
    obtain rfl := Except.error.inj same
    simp [Failure.transient] at transient
  have steady' : ∀ n, (numbered.responses n).persisted.Steady := by
    rw [responses]
    exact steady
  refine Ends.bind (Ends.and (ends_update_steady numbered _ steady') (ends_update env _ numbered
    (fun result final => result = .ok () → final.client.journal.pendingMessage ≠ none)
    ?_ ?_ ?_ ?_)) ?_ ?_
  · intro state commits _
    rw [show (numbered.committed _ state).client.journal = state from rfl, queued_pending commits]
    simp
  · exact fun _ _ _ _ same => by simp at same
  · exact fun _ _ _ _ same => by simp at same
  · exact fun _ _ _ same => by simp at same
  · rintro _ queued ⟨_, stored⟩
    refine (ends_sendRetained env _ queued).mono fun result final sent failure _ _ => ?_
    have journal : (booksOf final).journal = (booksOf queued).journal := by
      rcases sent.2.2 with same | same <;> rw [same]
      rfl
    rw [show final.client.journal = queued.client.journal from journal]
    exact stored rfl
  · rintro failure final ⟨⟨_, lasting⟩, _⟩ other same transient
    rw [lasting other same] at transient
    simp at transient

theorem identity_of_matching {job : JournalJob} {lease : Option LeaseIdentity}
    {attempt : Option AttemptIdentity}
    (matching : sameLeaseAttempt job.specification.lease job.specification.attempt lease attempt =
      true) :
    identityOf job.specification.lease job.specification.attempt = identityOf lease attempt := by
  obtain ⟨_, left, right⟩ := (sameLeaseAttempt_iff _ _ _ _).1 matching
  rw [left, right]

/-- The same event is queued again, or the attempt fails in one of the ways of queueing. -/
def ReissueEnd (env : Environment) (message : RunnerMessage) (world : World)
    (result : Except Failure Unit) (final : World) : Prop :=
  ∃ payload, (∀ newer : RunnerMessage, newer.payload = some payload → Reissues message newer) ∧
    Sane result ∧ handsOf final = handsOf world ∧
    QueueEnd env (booksOf world) payload .keep result (booksOf final) ∧
    ((∀ n, (world.responses n).persisted.Steady) → ∀ failure, result = .error failure →
      failure.transient = true → final.client.journal.pendingMessage ≠ none)

theorem ends_reissue (now : Int) (durable : durableRunnerMessage message = true)
    (lease : Option LeaseIdentity) (attempt : Option AttemptIdentity)
    (same : identityOf lease attempt = identityOf (runnerMessageIdentity message).1
      (runnerMessageIdentity message).2) :
    Ends (match message.payload.bind fun payload => reissued payload lease attempt now with
      | none => plain "stale runner event cannot be reissued"
      | some payload => queueDurable env payload .keep : Handler Unit) world
      (ReissueEnd env message world) := by
  obtain ⟨old, new, carries, again⟩ := reissued_some message durable lease attempt now
  rw [carries, Option.bind_some, again]
  have plainly := ends_queueDurable env new .keep world (by simp)
  have steadily : Ends (queueDurable env new .keep) world fun result final =>
      (∀ n, (world.responses n).persisted.Steady) → ∀ failure, result = .error failure →
        failure.transient = true → final.client.journal.pendingMessage ≠ none := by
    by_cases steady : ∀ n, (world.responses n).persisted.Steady
    · exact (ends_queueDurable_steady new .keep steady).mono fun _ _ lasting _ => lasting
    · exact plainly.mono fun _ _ _ always => absurd always steady
  refine (plainly.and steadily).mono fun result final ends => ?_
  refine ⟨new, fun newer carried => ?_, ends.1.1, ends.1.2.1, ends.1.2.2, ends.2⟩
  exact ⟨old, lease, attempt, now, carries, carried.trans again.symm, by simp [carried], same⟩

theorem ends_reissueStaleEvent (now : Int) (durable : durableRunnerMessage message = true) :
    Ends (reissueStaleEvent env message now) world (ReissueEnd env message world) := by
  unfold reissueStaleEvent
  dsimp only
  rw [ends_snapshot_bind]
  split
  case isTrue matching =>
    obtain ⟨_, active, same⟩ := matches_active matching
    unfold activeIdentity
    rw [active]
    exact ends_reissue message now durable _ _ (identity_of_matching same)
  case isFalse => exact ends_reissue message now durable _ _ rfl

/-- An event that does not end the job is put in place of the settled one. -/
theorem acts_reissue (reached : Moves env licence start (coreOf world)) (now : Int)
    (past : List Effect) (durable : durableRunnerMessage pending = true)
    (kept : pending.endsJob = false) (noted : (booksOf world).trace = .settled pending :: past) :
    Acts env licence coreOf start (reissueStaleEvent env pending now) world fun _ _ => True := by
  refine Acts.of_ends ?_ (sees_coreOf world)
  refine (ends_reissueStaleEvent pending now durable).mono fun result final ends => ?_
  obtain ⟨_, again, sane, hands, queueEnd, _⟩ := ends
  refine ⟨hands, fun failure same => (sane failure same).1, queueEnd.moves reached ?_,
    fun _ _ => trivial⟩
  intro numbered message _ carries
  refine Or.inr (Or.inr (Or.inr (Or.inr ⟨pending, past, kept, again message carries, ?_⟩)))
  rw [JustNumbered, ← noted]
  rfl

/-- An event that ends the job is cleared and queued again in one go. -/
theorem acts_reissueEnding (reached : Moves env licence start (coreOf world))
    (active : Option JournalJob) (now : Int) (sound : start.books.Sound env)
    (stands : world.client.journal.pendingMessage = some pending) (ends : pending.endsJob = true)
    (lost : licence.lostEnd ∨ ∀ n, (start.hands.outside n).persisted.Steady) :
    Acts env licence coreOf start (do
      clearPendingAcknowledged env pending active
      reissueStaleEvent env pending now : Handler Unit) world fun _ _ => True := by
  have here := reached.sound sound
  have durable := pending_durable here.valid stands
  have outside : world.responses = start.hands.outside := reached.outside
  unfold clearPendingAcknowledged clearPending
  rw [bind_assoc, Acts, ends_bind]
  refine ends_update env .clearPending world _ ?_ ?_ ?_ ?_
  case refine_2 =>
    intro state transient clears persisted
    by_cases allowed : licence.lostEnd
    · exact .failed (by simp) (reached.tail (.commit _ _ _ state clears fun _ _ _ => allowed))
    refine ⟨by simp, _, reached, Or.inr ⟨allowed, [.committed .clearPending state], ?_, rfl⟩, ?_⟩
    · simp [ClearingNote]
    · cases transient with
      | false => simp [Failure.transient]
      | true => exact absurd (outside ▸ persisted) (lost.resolve_left allowed _).2
  case refine_3 =>
    exact fun failure nil _ _ => .failed nil reached
  case refine_4 =>
    intro state failure applied
    simp [JournalChange.apply] at applied
  intro state clears
  obtain rfl := commits_clear clears
  change Acts env licence coreOf start _ (world.committed .clearPending _) _
  rw [bind_assoc, acts_record_bind, Acts, ends_bind, ends_remember]
  change Ends _ (world.settled pending active) _
  refine (ends_reissueStaleEvent pending now durable).mono fun result final reissues => ?_
  obtain ⟨_, again, sane, hands, queueEnd, lasting⟩ := reissues
  rw [handsOf_settled] at hands
  rw [booksOf_settled] at queueEnd
  have lasting' := fun steady : ∀ n, (start.hands.outside n).persisted.Steady => lasting (by
    have same : (world.settled pending active).responses = start.hands.outside :=
      (congrArg Hands.outside (handsOf_settled world pending active)).trans outside
    rw [same]
    exact steady)
  -- Nothing is stored: either that is licensed, or the process gives up for good.
  have unstored (failure : Failure) (same : result = .error failure) (notes : List Effect)
      (clearing : ∀ effect ∈ notes, ClearingNote effect)
      (trace : final.trace = notes ++ ((booksOf world).settle pending).trace)
      (gone : final.client.journal.pendingMessage = none)
      (moves : licence.lostEnd → Moves env licence start (coreOf final)) :
      Reached env licence coreOf start (fun _ _ => True) result final := by
    subst same
    by_cases allowed : licence.lostEnd
    · exact .failed (sane failure rfl).1 (moves allowed)
    refine ⟨(sane failure rfl).1, _, reached, Or.inr ⟨allowed, notes ++ [.settled pending,
      .committed .clearPending { world.client.journal with pendingMessage := none }], ?_, ?_⟩,
      fun transient => ?_⟩
    · intro effect member
      rcases List.mem_append.1 member with member | member
      · exact clearing effect member
      rcases List.mem_cons.1 member with rfl | member
      · trivial
      · rw [List.mem_singleton] at member
        subst member
        trivial
    · rw [trace, List.append_assoc]
      rfl
    · exact absurd gone (lasting' (lost.resolve_left allowed) failure rfl transient)
  have settled (allowed : licence.lostEnd) :
      Moves env licence start ⟨(booksOf world).settle pending, handsOf world⟩ :=
    settle_moves reached here stands (fun _ => allowed) clears
  generalize ended : booksOf final = books at queueEnd
  cases queueEnd with
  | nothing failure =>
    refine unstored failure rfl [] (by simp) ?_ ?_ ?_
    · exact congrArg Books.trace ended
    · exact congrArg (fun books => books.journal.pendingMessage) ended
    · intro allowed
      rw [coreOf_eq, ended, hands]
      exact settled allowed
  | numbered failure state numbers =>
    refine unstored failure rfl [.committed .nextMessageSequence state] (by simp [ClearingNote])
      ?_ ?_ ?_
    · exact congrArg Books.trace ended
    · have kept := congrArg JournalState.pendingMessage (commits_next env numbers).2
      exact (congrArg (fun books => books.journal.pendingMessage) ended).trans kept
    · intro allowed
      rw [coreOf_eq, ended, hands]
      exact number_moves (settled allowed) numbers
  | queued _ numbered queued message _ numbers identity carries queues sent =>
    have stored := reached.tail (.reissue (booksOf world) (handsOf world) pending message _ numbered
      queued stands ends clears numbers queues identity (again message carries))
    have moves := sent_moves stored (queued_pending queues) sent
    rw [← ended, ← hands] at moves
    exact .of_sane sane moves fun _ _ => trivial

end ProvenanceRunner.Gateway
