import ProvenanceRunner.Gateway.AcknowledgementMoves

/-! # Messages of the gateway as moves

The handlers of the gateway's messages. -/

namespace ProvenanceRunner.Gateway

open Programs

variable {env : Environment} {licence : Licence} {start : Core} {world : World}

/-! ## Acknowledgements of the pending event -/

/-- A stale event is put back under a new identity. -/
theorem acts_stale (reached : Moves env licence start (coreOf world)) (pending : RunnerMessage)
    (active : Option JournalJob) (now : Int) (sound : start.books.Sound env)
    (stands : world.client.journal.pendingMessage = some pending)
    (lost : pending.endsJob = true →
      licence.lostEnd ∨ ∀ n, (start.hands.outside n).persisted.Steady) :
    Acts env licence coreOf start (do
      clearPendingAcknowledged env pending active
      reissueStaleEvent env pending now : Handler Unit) world fun _ _ => True := by
  by_cases ends : pending.endsJob = true
  · exact acts_reissueEnding pending reached active now sound stands ends (lost ends)
  have kept : pending.endsJob = false := Bool.eq_false_iff.2 ends
  refine Acts.bind (acts_clear pending reached active sound stands fun ends' => absurd ends' ends)
    fun _ between moves same => ?_
  exact acts_reissue pending moves now _
    (pending_durable (reached.sound sound).valid stands) kept
    (congrArg (fun core => core.books.trace) same)

variable (reconciliation : LeaseReconciliation)

/-- Applying a reconciliation without a cancellation is a move. -/
theorem acts_applyAuthoritativeReconciliation (reached : Moves env licence start (coreOf world))
    (unnamed : reconciliation.cancellationId = []) (calm : reconciliation.phase ≠ .cancelling) :
    Acts env licence coreOf start (applyAuthoritativeReconciliation env reconciliation) world
      fun _ final => ∃ state, Commits env (booksOf world) (.reconcile reconciliation) state ∧
        final = world.committed (.reconcile reconciliation) state :=
  acts_update reached _ ⟨unnamed, calm⟩ (not_panics_other (by simp) (by simp))

theorem matching_present {active : Option JournalJob} {lease : Option LeaseIdentity}
    {attempt : Option AttemptIdentity}
    (matching : activeMatchesIdentity active lease attempt = true) : active ≠ none := by
  obtain ⟨_, active, _⟩ := matches_active matching
  simp [active]

/-- An acknowledged acceptance brings no phase above preparing. -/
theorem applied_rank {reconciliation : LeaseReconciliation} {lease : LeaseIdentity}
    {job : JournalJob} (unnamed : reconciliation.cancellationId = [])
    (phase : reconciliation.phase = .accepted) (low : jobPhaseRank job.phase ≤ 2) :
    jobPhaseRank (reconciliation.applied lease job).phase ≤ 2 := by
  rw [LeaseReconciliation.applied, if_pos unnamed]
  simp only [reconciledJob, phase]
  split
  · decide
  · exact low

theorem fits_acceptance {pending : RunnerMessage} {reconciliation : LeaseReconciliation}
    {phase : Option JobPhase}
    (fits : validatePendingReconciliation pending reconciliation phase = none)
    (current : reconciliation.disposition ≠ .stale)
    (live : terminalLeaseStatus reconciliation.status = false) (accepted : pending.isAcceptance) :
    reconciliation.phase = .accepted := by
  obtain ⟨_, carries⟩ := accepted
  simp [validatePendingReconciliation, current, live, carries] at fits
  exact fits.2

theorem fits_started {pending : RunnerMessage} {reconciliation : LeaseReconciliation}
    {phase : Option JobPhase}
    (fits : validatePendingReconciliation pending reconciliation phase = none)
    (current : reconciliation.disposition ≠ .stale)
    (live : terminalLeaseStatus reconciliation.status = false) (started : pending.isStarted) :
    reconciliation.status = .active ∧ reconciliation.phase = .running := by
  obtain ⟨_, carries⟩ := started
  simpa [validatePendingReconciliation, current, live, carries] using fits

/-- Settling a pending event is a sequence of moves, in each branch of the source. -/
theorem acts_settlePending (reached : Moves env licence start (coreOf world)) (rounds : Nat)
    (pending : RunnerMessage) (reconciliation : LeaseReconciliation) (now : Int)
    (sound : start.books.Sound env) (accepted : Accepted world pending reconciliation)
    (drop : KeepsPhase licence world.client.journal pending)
    (late : Announces (some reconciliation) → KeepsAnswers licence start.hands.outside)
    (lost : KeepsEnd licence start.hands.outside pending reconciliation) :
    Acts env licence coreOf start (settlePending env rounds pending reconciliation
      world.client.journal.active now) world fun _ _ => True := by
  have valid : world.client.journal.Valid env.toJournalEnvironment := (reached.sound sound).valid
  unfold settlePending
  dsimp only
  cases matching : activeMatchesIdentity world.client.journal.active reconciliation.lease
      reconciliation.attempt with
  | false =>
    -- The event rejects another lease than the active one.
    have rejection := accepted.rejection valid matching
    have kept := rejection_not_ending rejection
    have cleared := acts_clear pending reached world.client.journal.active sound accepted.stands
      (by simp [kept])
    simp only [Bool.false_eq_true, if_false, Bool.and_false, pure_bind, Bool.false_and, rejection,
      Bool.true_or, if_true]
    split
    · exact Acts.bind cleared fun _ _ moves _ => Acts.pure () moves trivial
    split
    · exact acts_stale reached pending _ now sound accepted.stands (by simp [kept])
    · exact cleared.mono fun _ _ _ => trivial
  | true =>
    have present := matching_present matching
    simp only [if_true, Bool.and_true]
    split
    case isTrue cancelled =>
      simp only [Bool.and_eq_true, Bool.not_eq_true'] at cancelled
      have named : reconciliation.cancellationId ≠ [] := by simpa using cancelled.2
      have licensed (ends : pending.endsJob = true) : licence.lostEnd :=
        lost.resolve_right fun spared => named (spared ends cancelled.1).1
      unfold applyAuthoritativeReconciliation
      refine acts_cancel reached _ _ named present (late ⟨_, rfl, named⟩)
        fun between moves commits => ?_
      obtain ⟨_, _, _, _, _, _, result⟩ := commits_reconcile commits
      refine Acts.bind (acts_clear pending moves _ sound ?_ licensed)
        fun _ _ moves _ => acts_advance moves rounds now
      rw [result]
      exact accepted.stands
    case isFalse uncancelled =>
      split
      case isTrue =>
        obtain ⟨job, active, _⟩ := matches_active matching
        rw [active]
        exact acts_finish reached (some pending) job.phase
      case isFalse nonterminal =>
        have live : terminalLeaseStatus reconciliation.status = false := by simpa using nonterminal
        have unnamed : reconciliation.cancellationId = [] := by simpa [live] using uncancelled
        have spared (ends : pending.endsJob = true) :
            licence.lostEnd ∨ ∀ n, (start.hands.outside n).persisted.Steady :=
          lost.imp_right fun spared => (spared ends live).2
        refine Acts.bind (acts_applyAuthoritativeReconciliation reconciliation reached unnamed
          (not_cancelling accepted.wellFormed live unnamed)) fun _ reconciled moves committed => ?_
        obtain ⟨state, commits, rfl⟩ := committed
        obtain ⟨job, _, active, given, _, _, result⟩ := commits_reconcile commits
        refine Acts.bind (Acts.unchanged moves unchanged_networkAuthorityStopped)
          fun stopped between moves same => ?_
        have journal : between.client.journal = state :=
          congrArg (fun core => core.books.journal) same
        have trace : between.trace = .committed (.reconcile reconciliation) state :: world.trace :=
          congrArg (fun core => core.books.trace) same
        have stands : between.client.journal.pendingMessage = some pending := by
          rw [journal, result]
          exact accepted.stands
        split
        case isTrue stopping =>
          simp only [Bool.and_eq_true, Bool.not_eq_true'] at stopping
          exact Acts.bind (acts_clear pending moves _ sound stands (by simp [stopping.2]))
            fun _ _ moves _ => acts_advance moves rounds now
        split
        case isTrue => exact acts_stale moves pending _ now sound stands spared
        case isFalse current =>
          split
          case isTrue settled =>
            rw [live, Bool.or_false] at settled
            exact (acts_clear pending moves _ sound stands
              (by simp [rejection_not_ending settled])).mono fun _ _ _ => trivial
          case isFalse =>
            refine acts_afterAcknowledged moves rounds pending reconciliation _ now sound
              ⟨stands, ?_, ?_, current, fits_started accepted.fits current live⟩ present ?_
            · rw [trace]
              exact accepted.woken
            · rw [journal, result]
              exact applied_matches given (active ▸ matching)
            refine drop.imp_right fun low acceptance applied found running => ?_
            rw [journal, result] at found
            obtain rfl := Option.some.inj found
            refine applied_rank unnamed (fits_acceptance accepted.fits current live acceptance)
              (low acceptance job active ?_)
            rw [LeaseReconciliation.applied, if_pos unnamed] at running
            exact running

/-! ## Late reconciliations -/

theorem unchanged_acceptRestartCompleteLogUpload (now : Int) :
    Ends (acceptRestartCompleteLogUpload env reconciliation now) world (Unchanged world) := by
  unfold acceptRestartCompleteLogUpload
  split
  · exact unchanged_ok _ rfl
  rw [ends_get_bind]
  split
  · exact unchanged_error _ (sane_permanent _) rfl
  split
  · exact unchanged_error _ (sane_permanent _) rfl
  dsimp only
  split
  · exact unchanged_error _ (sane_permanent _) rfl
  split
  · exact unchanged_error _ (sane_permanent _) rfl
  split
  · exact unchanged_error _ (sane_permanent _) rfl
  split
  · exact unchanged_ok _ rfl
  · exact unchanged_error _ (sane_permanent _) rfl

theorem acts_applyLateReconciliation (reached : Moves env licence start (coreOf world)) (now : Int)
    (wellFormed : validateReconciliation (some reconciliation) = none)
    (late : Announces (some reconciliation) → KeepsAnswers licence start.hands.outside) :
    Acts env licence coreOf start (applyLateReconciliation env reconciliation now) world
      fun _ _ => True := by
  have refused (next : World) (moves : Moves env licence start (coreOf next)) (bad : Bool)
      (text : String) : Acts env licence coreOf start
        (if bad then permanent text else pure () : Handler Unit) next fun _ _ => True := by
    split
    · exact Acts.permanent moves _
    · exact Acts.pure () moves trivial
  unfold applyLateReconciliation
  refine Acts.bind (Acts.unchanged reached (unchanged_consumeNetworkAuthority reconciliation))
    fun _ fed moves _ => ?_
  rw [acts_snapshot_bind]
  split
  · exact refused fed moves _ _
  case h_2 job active =>
    split
    · exact refused fed moves _ _
    refine Acts.bind (Acts.unchanged
      moves (unchanged_acceptRestartCompleteLogUpload reconciliation now))
      fun _ between moves same => ?_
    have journal : between.client.journal = fed.client.journal :=
      congrArg (fun core => core.books.journal) same
    split
    case isTrue => exact acts_finish moves _ _
    case isFalse nonterminal =>
      have live : terminalLeaseStatus reconciliation.status = false := by simpa using nonterminal
      by_cases unnamed : reconciliation.cancellationId = []
      · refine Acts.bind (acts_applyAuthoritativeReconciliation reconciliation moves unnamed
          (not_cancelling wellFormed live unnamed)) fun _ after moves _ => ?_
        simp only [unnamed, List.isEmpty_nil, Bool.not_true, Bool.false_eq_true, if_false]
        exact Acts.pure () moves trivial
      · have named : reconciliation.cancellationId.isEmpty = false := by simpa using unnamed
        simp only [named, Bool.not_false, if_true]
        unfold applyAuthoritativeReconciliation
        have cancelled := acts_cancel moves (.reconcile reconciliation) (pure ()) unnamed
          (by simp [journal, active]) (late ⟨_, rfl, unnamed⟩) fun _ moves _ => ⟨moves, trivial⟩
        simpa only [bind_pure_unit] using cancelled

theorem acts_check_bind {α : Type} {post : α → World → Prop}
    (reached : Moves env licence start (coreOf world)) (context : String) (error : Option String)
    (next : Unit → Handler α)
    (passed : error = none → Acts env licence coreOf start (next ()) world post) :
    Acts env licence coreOf start (check context error >>= next) world post := by
  unfold check
  split
  · exact Acts.permanent reached _
  · exact passed rfl

theorem settled_wellFormed {settled : SettledRunnerEvent}
    {reconciliation : Option LeaseReconciliation}
    (checked : validateSettledEventAcknowledgement settled reconciliation = none) :
    validateReconciliation reconciliation = none := by
  unfold validateSettledEventAcknowledgement at checked
  exact ((orElse_eq_none _ _).1 checked).1

theorem acts_handleSettledEventAcknowledgement (reached : Moves env licence start (coreOf world))
    (rounds : Nat) (settled : SettledRunnerEvent) (reconciliation : Option LeaseReconciliation)
    (now : Int) (late : Announces reconciliation → KeepsAnswers licence start.hands.outside) :
    Acts env licence coreOf start
      (handleSettledEventAcknowledgement env rounds settled reconciliation now) world
      fun _ _ => True := by
  unfold handleSettledEventAcknowledgement
  refine acts_check_bind reached _ _ _ fun checked => ?_
  split
  · exact Acts.pure () reached trivial
  · exact Acts.bind (acts_applyLateReconciliation _ reached now (settled_wellFormed checked) late)
      fun _ _ moves _ => acts_advance moves rounds now

/-- What an acknowledgement may not do without a licence, whichever event is pending. -/
structure Regular (licence : Licence) (state : JournalState) (outside : Nat → Response)
    (acknowledgement : RunnerEventAcknowledgement) : Prop where
  phase : ∀ pending, state.pendingMessage = some pending →
    acknowledgement.runnerMessageId = pending.messageId → KeepsPhase licence state pending
  finish : ∀ pending reconciliation, state.pendingMessage = some pending →
    acknowledgement.runnerMessageId = pending.messageId →
    acknowledgement.reconciliation = some reconciliation →
    KeepsEnd licence outside pending reconciliation

/-- The checks change nothing; behind them the pending event is settled, or a late one is applied.
-/
theorem acts_handleEventAcknowledgement (reached : Moves env licence start (coreOf world))
    (rounds : Nat) (acknowledgement : RunnerEventAcknowledgement) (now : Int)
    (envelope : GatewayMessage) (sound : start.books.Sound env)
    (received : wokenBy world.trace = some (.received envelope))
    (carries : envelope.payload = some (.eventAcknowledgement acknowledgement))
    (late : Announces acknowledgement.reconciliation → KeepsAnswers licence start.hands.outside)
    (regular : Regular licence world.client.journal start.hands.outside acknowledgement) :
    Acts env licence coreOf start (handleEventAcknowledgement env rounds acknowledgement now) world
      fun _ _ => True := by
  unfold handleEventAcknowledgement
  split
  · exact Acts.permanent reached _
  split
  · exact Acts.permanent reached _
  rw [acts_get_bind]
  split
  · exact acts_handleSettledEventAcknowledgement reached rounds _ _ now late
  rw [acts_snapshot_bind]
  split
  · exact Acts.permanent reached _
  case h_2 pending stands =>
    split
    · exact Acts.permanent reached _
    case isFalse named =>
      have same : acknowledgement.runnerMessageId = pending.messageId := not_not.1 named
      refine acts_check_bind reached _ _ _ fun wellFormed => ?_
      split
      · exact Acts.pure () reached trivial
      case h_2 reconciliation given =>
        dsimp only
        split
        · exact Acts.permanent reached _
        case isFalse identity =>
          refine acts_check_bind reached _ _ _ fun fits => ?_
          refine Acts.bind (Acts.unchanged reached
            (unchanged_consumeNetworkAuthority reconciliation)) fun _ between moves kept => ?_
          have journal : between.client.journal = world.client.journal :=
            congrArg (fun core => core.books.journal) kept
          have trace : between.trace = world.trace :=
            congrArg (fun core => core.books.trace) kept
          rw [← journal]
          refine acts_settlePending moves rounds pending reconciliation now sound
            ⟨?_, ?_, ?_, by simpa using identity, ?_⟩ ?_ (given ▸ late)
            (regular.finish pending reconciliation stands same given)
          · rw [journal]
            exact stands
          · rw [trace]
            exact ⟨envelope, acknowledgement, received, carries, same, given⟩
          · rw [← given]
            exact wellFormed
          · rw [journal]
            exact fits
          · rw [journal]
            exact regular.phase pending stands same

end ProvenanceRunner.Gateway
