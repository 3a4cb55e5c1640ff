/-
This file relates one instance to one member of the replication protocol, and shows that the
functions of the instance are steps of the member. What an instance has counted on for
commitment, its `commitIndex` and `matchIndex`, is related only under trust, that is, in runs
in which acknowledgements are known to be truthful.

A candidate's vote for itself is no ballot of the protocol. The candidate may lose it when
`becomeFollower` clears `votedFor` without a new term; the protocol casts it at the moment the
candidate starts to lead.
-/

import RaftInMotion.Library.Commitment
import RaftInMotion.Model.Hazards

namespace RaftInMotion

open Replication TermLog

variable {n : Nat} {Command : Type}

/-! ### Moves of one member -/

/-- The configurations of the protocol between servers. -/
abbrev Spec (n : Nat) (Command : Type) := Config (Fin n) (LogEntry Command)

/-- Steps of one member that do not give up a lead within its term. -/
structure Moves (late : Prop) (s : Fin n) (a a' : Spec n Command) : Prop where
  steps : Steps late s a a'
  leading : a.role s = .leader → a'.term s = a.term s → a'.role s = .leader

namespace Moves

variable {late : Prop} {s : Fin n} {a a' a'' : Spec n Command}

theorem refl (late : Prop) (s : Fin n) (a : Spec n Command) : Moves late s a a :=
  ⟨Relation.ReflTransGen.refl, fun leads _ => leads⟩

theorem trans (first : Moves late s a a') (second : Moves late s a' a'') : Moves late s a a'' := by
  refine ⟨first.steps.trans second.steps, fun leads same => ?_⟩
  have before := first.steps.frame.forward
  have after := second.steps.frame.forward
  exact second.leading (first.leading leads (by omega)) (by omega)

theorem single (step : Step late s a a')
    (leading : a.role s = .leader → a'.term s = a.term s → a'.role s = .leader) :
    Moves late s a a' :=
  ⟨Relation.ReflTransGen.single step, leading⟩

end Moves

/-! ### The relation -/

/-- The instance is in the state of the member. -/
structure Mirrors (trust : Prop) (a : Spec n Command) (s : Fin n) (rf : Raft n Command) :
    Prop where
  id : rf.id = s
  term : a.term s = rf.currentTerm
  log : a.log s = rf.log
  follower : rf.state = .follower → a.role s = .follower
  candidate : rf.state = .candidate → a.role s = .candidate
  leader : rf.state = .leader → a.role s = .leader
  vote : ∀ p, a.ballot s rf.currentTerm = some p → rf.votedFor = some p
  own : rf.state = .candidate ∨ rf.state = .leader → rf.votedFor = some s
  commit : trust → rf.commitIndex + 1 = a.commit s
  matched : trust → rf.state = .leader → ∀ q, q ≠ s →
    rf.matchIndex q + 1 ≤ a.acked q rf.currentTerm

namespace Mirrors

variable {trust late : Prop} {floor : ℕ} {a : Spec n Command} {s : Fin n} {rf next : Raft n Command}

/-- The relation reads the core of the instance only. -/
theorem of_core (mirrors : Mirrors trust a s rf) (same : next.core = rf.core) :
    Mirrors trust a s next := by
  have core : Mirrors trust a s next.core := by
    rw [same]
    exact ⟨mirrors.id, mirrors.term, mirrors.log, mirrors.follower, mirrors.candidate,
      mirrors.leader, mirrors.vote, mirrors.own, mirrors.commit, mirrors.matched⟩
  exact ⟨core.id, core.term, core.log, core.follower, core.candidate, core.leader, core.vote,
    core.own, core.commit, core.matched⟩

theorem persist (mirrors : Mirrors trust a s rf) : Mirrors trust a s rf.persistToStorage :=
  ⟨mirrors.id, mirrors.term, mirrors.log, mirrors.follower, mirrors.candidate, mirrors.leader,
    mirrors.vote, mirrors.own, mirrors.commit, mirrors.matched⟩

/-- The moves of other members leave the relation as it is. -/
theorem mono {a' : Spec n Command} {p : Fin n} (mirrors : Mirrors trust a s rf)
    (frame : Frame p a a') (grows : Extends a a') (other : s ≠ p) : Mirrors trust a' s rf where
  id := mirrors.id
  term := (frame.term other).trans mirrors.term
  log := (frame.log other).trans mirrors.log
  follower follows := (frame.role other).trans (mirrors.follower follows)
  candidate runs := (frame.role other).trans (mirrors.candidate runs)
  leader leads := (frame.role other).trans (mirrors.leader leads)
  vote p spent := mirrors.vote p (frame.ballot other ▸ spent)
  own := mirrors.own
  commit trusted := by rw [frame.commit other, mirrors.commit trusted]
  matched trusted leads q isPeer := (mirrors.matched trusted leads q isPeer).trans
    (Int.ofNat_le.mpr (grows.acked q _))

/-! ### Terms and roles -/

/-- A server becomes a follower of a later term, or of its own term as a candidate. -/
theorem becomeFollower (late : Prop) (mirrors : Mirrors trust a s rf)
    (invariant : Invariant floor a)
    {term : ℕ} (reached : rf.currentTerm < term ∨ rf.currentTerm = term ∧ rf.state = .candidate) :
    ∃ a', Moves late s a a' ∧ Mirrors trust a' s (rf.becomeFollower term) := by
  have own := mirrors.term
  refine ⟨a.enter s term .follower (a.commit s), .single (.enter a term .follower (a.commit s)
    (by omega) (Or.inl rfl) (Or.inl rfl)) fun leads same => ?_, ?_⟩
  · rw [Config.enter_term, if_pos rfl] at same
    rcases reached with later | ⟨-, runs⟩
    · omega
    · rw [mirrors.candidate runs] at leads
      cases leads
  · have unspent : a.ballot s term = none := by
      rcases reached with later | ⟨rfl, runs⟩
      · refine Option.eq_none_iff_forall_ne_some.mpr fun p spent => ?_
        have := (invariant.elections.ballot_reached spent).1
        omega
      · exact own ▸ (invariant.elections.running (mirrors.candidate runs)).2.2
    refine ⟨mirrors.id, by simp [Config.enter], mirrors.log, fun _ => by simp [Config.enter],
      fun runs => ?_, fun leads => ?_, fun p spent => ?_, fun active => ?_, fun trusted => ?_,
      fun _ leads => ?_⟩
    · cases runs
    · cases leads
    · exact absurd (unspent ▸ spent : none = some p) (by simp)
    · rcases active with runs | leads
      · cases runs
      · cases leads
    · simpa [Config.enter] using mirrors.commit trusted
    · cases leads

theorem startElection (late : Prop) (mirrors : Mirrors trust a s rf)
    (invariant : Invariant floor a) :
    ∃ a', Moves late s a a' ∧ Mirrors trust a' s rf.startElection.1 := by
  have own := mirrors.term
  refine ⟨a.enter s (rf.currentTerm + 1) .candidate (a.commit s), .single
    (.enter a (rf.currentTerm + 1) .candidate (a.commit s) (by omega)
      (Or.inr ⟨rfl, by omega⟩) (Or.inl rfl)) fun _ same => ?_, ?_⟩
  · rw [Config.enter_term, if_pos rfl] at same
    omega
  · have unspent : a.ballot s (rf.currentTerm + 1) = none := by
      refine Option.eq_none_iff_forall_ne_some.mpr fun p spent => ?_
      have := (invariant.elections.ballot_reached spent).1
      omega
    refine ⟨mirrors.id, by simp [Config.enter, Raft.startElection], mirrors.log,
      fun follows => ?_, fun _ => by simp [Config.enter], fun leads => ?_, fun p spent => ?_,
      fun _ => ?_, fun trusted => ?_, fun _ leads => ?_⟩
    · cases follows
    · cases leads
    · exact absurd (unspent ▸ spent : none = some p) (by simp)
    · rw [← mirrors.id]
      rfl
    · simpa [Config.enter, Raft.startElection] using mirrors.commit trusted
    · cases leads

end Mirrors

/-! ### Votes -/

/-- What a request for a vote says of its candidate, as long as that still runs in the term. -/
structure Asks (a : Spec n Command) (peer : Fin n) (args : RequestVoteArgs n) : Prop where
  other : args.candidateId ≠ peer
  reached : args.term ≤ a.term args.candidateId
  last : a.role args.candidateId = .candidate → a.term args.candidateId = args.term →
    args.lastLogIndex = (a.log args.candidateId).length - 1 ∧
      args.lastLogTerm = lastTerm (a.log args.candidateId)

theorem lastLogIndexAndTerm_eq (rf : Raft n Command) :
    rf.lastLogIndexAndTerm = ((rf.log.length : ℤ) - 1, lastTerm rf.log) := by
  unfold Raft.lastLogIndexAndTerm lastTerm
  rcases List.eq_nil_or_concat' rf.log with empty | ⟨front, last, split⟩
  · simp [empty]
  · simp [split, Stamped.term]

section

variable {trust late : Prop} {floor : ℕ} {a a' : Spec n Command} {s p : Fin n}
  {rf next : Raft n Command}

theorem Asks.mono {args : RequestVoteArgs n} (asks : Asks a s args) (frame : Frame p a a') :
    Asks a' s args := by
  by_cases moved : args.candidateId = p
  · refine ⟨asks.other, ?_, fun runs same => ?_⟩
    · have := asks.reached
      have := frame.forward
      rw [moved] at *
      omega
    · have reached := asks.reached
      have forward := frame.forward
      rw [moved] at runs same reached
      obtain ⟨ran, kept⟩ := frame.running runs (by omega)
      have last := asks.last
      rw [moved] at last ⊢
      rw [kept]
      exact last ran (by omega)
  · refine ⟨asks.other, ?_, ?_⟩
    · rw [frame.term moved]
      exact asks.reached
    · rw [frame.term moved, frame.role moved, frame.log moved]
      exact asks.last

namespace Mirrors

theorem meetTerm (late : Prop) (mirrors : Mirrors trust a s rf) (invariant : Invariant floor a)
    (term : ℕ) :
    ∃ a', Moves late s a a' ∧ Mirrors trust a' s (rf.meetTerm term) := by
  unfold Raft.meetTerm
  split_ifs with newer
  · exact mirrors.becomeFollower late invariant (Or.inl newer)
  · exact ⟨a, Moves.refl late s a, mirrors⟩

/-- A vote that is granted is a ballot of the protocol. -/
theorem requestVote (late : Prop) (mirrors : Mirrors trust a s rf) (invariant : Invariant floor a)
    {args : RequestVoteArgs n} (asks : Asks a s args) :
    ∃ a', Moves late s a a' ∧ Mirrors trust a' s (rf.requestVote args).1 ∧
      ((rf.requestVote args).2.voteGranted = true → (rf.requestVote args).2.term = args.term →
        a'.ballot s args.term = some args.candidateId) := by
  by_cases dead : rf.state = .dead
  · rw [Raft.requestVote_of_dead args dead]
    exact ⟨a, Moves.refl late s a, mirrors, fun granted => by cases granted⟩
  obtain ⟨a₁, moves, met⟩ := mirrors.meetTerm late invariant args.term
  have sound := (invariant.steps moves.steps).1
  have asks := asks.mono moves.steps.frame
  rcases Raft.requestVote_cases args dead with refused | ⟨current, free, upToDate, granted⟩
  · rw [refused]
    exact ⟨a₁, moves, met.persist, fun granted => by cases granted⟩
  rw [granted]
  have reached : a₁.term s = args.term := met.term.trans current
  have alive : (rf.meetTerm args.term).state ≠ .dead := by
    unfold Raft.meetTerm
    split_ifs
    · exact fun gone => by cases gone
    · exact dead
  have idle : (rf.meetTerm args.term).state = .follower := by
    rcases state : (rf.meetTerm args.term).state with _ | _ | _ | _
    · rfl
    · have taken := met.own (Or.inl state)
      simp only [taken, reduceCtorEq, Option.some_inj, false_or] at free
      exact absurd free.symm asks.other
    · have taken := met.own (Or.inr state)
      simp only [taken, reduceCtorEq, Option.some_inj, false_or] at free
      exact absurd free.symm asks.other
    · exact absurd state alive
  have log : a₁.log s = rf.log := met.log.trans (by unfold Raft.meetTerm; split_ifs <;> rfl)
  have upToDate : a₁.role args.candidateId = .candidate →
      a₁.term args.candidateId = a₁.term s → UpToDate (a₁.log args.candidateId) (a₁.log s) := by
    intro runs same
    obtain ⟨index, term⟩ := asks.last runs (same.trans reached)
    simp only [Raft.upToDate, lastLogIndexAndTerm_eq, ← log, index, term, Bool.or_eq_true,
      decide_eq_true_eq, Bool.and_eq_true] at upToDate
    exact upToDate.imp (fun above => above) fun ⟨last, long⟩ => ⟨last.symm, by omega⟩
  rcases spent : a₁.ballot s args.term with _ | p
  · have step : Step late s a₁ (a₁.cast s args.candidateId) := .grant a₁ args.candidateId
      (reached ▸ asks.reached) (met.follower idle) (reached ▸ spent) upToDate
    have ballot : (a₁.cast s args.candidateId).ballot s args.term = some args.candidateId := by
      simp [Config.cast, reached]
    refine ⟨_, moves.trans (.single step fun leads _ => leads), ⟨met.id, met.term, met.log,
      met.follower, met.candidate, met.leader, fun p cast => ?_, fun active => ?_, met.commit,
      met.matched⟩, fun _ _ => ballot⟩
    · exact ballot.symm.trans (by rw [← current]; exact cast)
    · rcases active with runs | leads
      · exact absurd (idle.symm.trans runs) (by simp)
      · exact absurd (idle.symm.trans leads) (by simp)
  · -- The server has cast its ballot for this candidate before.
    have taken := met.vote p (by rw [current]; exact spent)
    have same : p = args.candidateId := by simpa [taken] using free
    refine ⟨a₁, moves, ⟨met.id, met.term, met.log, met.follower, met.candidate, met.leader,
      fun q cast => ?_, fun active => ?_, met.commit, met.matched⟩, fun _ _ => same ▸ spent⟩
    · have := met.vote q cast
      simpa [taken, same] using this
    · rcases active with runs | leads
      · exact absurd (idle.symm.trans runs) (by simp)
      · exact absurd (idle.symm.trans leads) (by simp)

theorem mem_peerIds (mirrors : Mirrors trust a s rf) {q : Fin n} : q ∈ rf.peerIds ↔ q ≠ s := by
  rw [Raft.mem_peerIds, mirrors.id]

/-- A candidate that a majority backs starts to lead. -/
theorem startLeader (late : Prop) (mirrors : Mirrors trust a s rf) (running : rf.state = .candidate)
    {voters : Finset (Fin n)} (majority : Majority voters)
    (backed : ∀ q ∈ voters, q ≠ s → a.ballot q rf.currentTerm = some s) :
    ∃ a', Moves late s a a' ∧ Mirrors trust a' s rf.startLeader ∧
      a'.leader rf.currentTerm = some s ∧ a'.electLog rf.currentTerm = rf.log := by
  have step : Step late s a (a.lead s voters) := .lead a voters (mirrors.candidate running)
    majority (mirrors.term ▸ backed)
  have own := mirrors.own (Or.inl running)
  refine ⟨a.lead s voters, .single step fun _ _ => ?_, ⟨mirrors.id, mirrors.term, mirrors.log,
    fun follows => ?_, fun runs => ?_, fun _ => ?_, fun p spent => ?_, fun _ => own,
    mirrors.commit, fun _ _ q other => ?_⟩, ?_, ?_⟩
  · simp [Config.lead]
  · cases follows
  · cases runs
  · simp [Config.lead]
  · have forSelf : s = p := by
      simpa [Config.lead, Config.cast, Config.confirm, mirrors.term] using spent
    exact forSelf ▸ own
  · simp [mirrors.mem_peerIds, other]
  · simp [Config.lead, mirrors.term]
  · simp [Config.lead, mirrors.term, mirrors.log]

/-- The outcome of a call, when it is not one of an earlier election that decides something. -/
theorem receiveVote (late : Prop) (mirrors : Mirrors trust a s rf) (invariant : Invariant floor a)
    {call : VoteCall n} {outcome : Option RequestVoteReply}
    (forward : ∀ reply, outcome = some reply → rf.stepsDown call reply = true →
      rf.currentTerm ≤ reply.term)
    (backed : rf.wins call outcome = true → ∃ voters : Finset (Fin n), Majority voters ∧
      ∀ q ∈ voters, q ≠ s → a.ballot q rf.currentTerm = some s) :
    ∃ a', Moves late s a a' ∧ Mirrors trust a' s (rf.receiveVote call outcome) ∧
      (rf.state ≠ .leader → (rf.receiveVote call outcome).state = .leader →
        a'.leader (rf.receiveVote call outcome).currentTerm = some s ∧
          a'.electLog (rf.receiveVote call outcome).currentTerm =
            (rf.receiveVote call outcome).log) := by
  by_cases stays : outcome.any (rf.stepsDown call) = false
  · have core := Raft.receiveVote_of_stays stays
    split_ifs at core with wins
    · have runs := ((Raft.wins_iff stays).mp wins).1
      obtain ⟨voters, majority, ballots⟩ := backed wins
      obtain ⟨a', moves, leads, leader, electLog⟩ :=
        mirrors.startLeader late runs majority ballots
      have sameTerm := congrArg Raft.currentTerm core
      have sameLog := congrArg Raft.log core
      simp only [Raft.core_currentTerm, Raft.core_log, Raft.startLeader_currentTerm,
        Raft.startLeader_log] at sameTerm sameLog
      rw [sameTerm, sameLog]
      exact ⟨a', moves, leads.of_core core, fun _ _ => ⟨leader, electLog⟩⟩
    · have sameState := congrArg Raft.state core
      simp only [Raft.core_state] at sameState
      exact ⟨a, Moves.refl late s a, mirrors.of_core core,
        fun notLeader leads => absurd (sameState.symm.trans leads) notLeader⟩
  · obtain ⟨reply, rfl, down⟩ := (Option.any_eq_true _ _).mp (by simpa using stays)
    have core := Raft.receiveVote_of_stepsDown down
    have runs : rf.state = .candidate := by
      simp only [Raft.stepsDown, Bool.and_eq_true, decide_eq_true_eq] at down
      exact down.1
    have sameState := congrArg Raft.state core
    simp only [Raft.core_state, Raft.becomeFollower_state] at sameState
    obtain ⟨a', moves, follows⟩ := mirrors.becomeFollower late invariant
      ((forward reply rfl down).lt_or_eq.imp_right fun same => ⟨same, runs⟩)
    exact ⟨a', moves, follows.of_core core,
      fun _ leads => absurd (sameState.symm.trans leads) (by simp)⟩

end Mirrors

end

end RaftInMotion
