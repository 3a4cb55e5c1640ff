/-
This file settles at which step the votes of an election decide it. Each goroutine of
`startElection` adds a vote that is granted to a counter it shares with the others, but only the
one that brings `repliesNeeded` to zero compares the votes with the size of the cluster. What the
counters hold is fixed by the outcomes so far, in any order; a majority by itself makes no leader,
and a peer that never answers keeps the candidate waiting.
-/

import RaftInMotion.Model.Turns
import RaftInMotion.Refinement.Tally

namespace RaftInMotion

open Cluster Execution

variable {n : Nat} {Command : Type}

/-! ### What a step does to the elections -/

/-- A candidate that goes on counts the vote, and waits for one outcome less. -/
theorem Raft.receiveVote_counters {rf : Raft n Command} {call : VoteCall n}
    {outcome : Option RequestVoteReply} (runs : rf.state = .candidate)
    (stays : outcome.any (rf.stepsDown call) = false)
    (more : (rf.elections.getD call.election ⟨0, 0⟩).repliesNeeded ≠ 1) :
    (rf.receiveVote call outcome).elections = rf.elections.set call.election
      ⟨(rf.elections.getD call.election ⟨0, 0⟩).votesReceived +
          (if votes call outcome then 1 else 0),
        (rf.elections.getD call.election ⟨0, 0⟩).repliesNeeded - 1⟩ := by
  unfold receiveVote
  dsimp only
  rw [countReply_of_stays stays, if_neg (by omega)]
  simp [runs]

/-- What a step does to the elections of the server whose turn it is. -/
inductive Polls (c : Cluster n Command) (action : Action n Command) (s : Fin n)
    (next : Raft n Command) : Prop
  | keeps (same : next.elections = (c.node s).elections)
  | starts (added : next.elections = (c.node s).elections ++ [⟨0, (c.node s).peerIds.length⟩])
  | counts (call : VoteCall n) (outcome : Option RequestVoteReply)
      (received : c.voteOutcome action = some (call, outcome)) (own : call.candidate = s)
      (moved : next = (c.node s).receiveVote call outcome)
  | forgets (restarted : action = .restart s) (none : next.elections = [])
      (follows : next.state = .follower)

namespace Cluster

variable {c c' : Cluster n Command} {action : Action n Command}

theorem Turn.polls {s : Fin n} {next : Raft n Command} {events : List (Event n Command)}
    (turn : c.Turn action s next events) : Polls c action s next := by
  cases turn with
  | timer fired =>
    rcases Raft.electionTimer_cases fired with ⟨-, same, -⟩ | ⟨-, -, added, -⟩
    · exact .keeps same
    · exact .starts added
  | handleVote present request => exact .keeps (Raft.requestVote_elections _)
  | handleAppend present request handled => exact .keeps (Raft.appendEntries_elections handled)
  | receiveVote received => exact .counts _ _ received rfl rfl
  | receiveAppend present received => exact .keeps (Raft.receiveAppend_elections received)
  | submit submitted =>
    rcases Raft.submit_cases submitted with ⟨rfl, -, -⟩ | ⟨rfl, -, -⟩ <;> exact .keeps rfl
  | leaderLoop turned => exact .keeps (Raft.leaderLoop_cases turned).2.1
  | leaderLoopClosed ended => exact .keeps (Raft.leaderLoopClosed_cases ended).2
  | takeReady taken =>
    rcases Raft.takeReady_cases taken with ⟨-, rfl⟩ | ⟨-, -, rfl⟩ <;> exact .keeps rfl
  | sendReady sent =>
    obtain ⟨rest, -, rfl⟩ := Raft.sendReady_cases sent
    exact .keeps rfl
  | kill killed =>
    rcases Raft.kill_cases killed with ⟨-, rfl⟩ | ⟨-, rfl⟩ <;> exact .keeps rfl
  | restart closed made =>
    obtain ⟨-, follows, -, -, none, -⟩ := Raft.make_cases made
    exact .forgets rfl none follows
  | _ => exact .keeps rfl

/-- A goroutine that asks for a vote has done so before the step, or its election begins there. -/
theorem voteCall_cases {task : Task n Command} {call : VoteCall n}
    (taken : c.step action = some c') (member : task ∈ c'.pool)
    (isCall : task.voteCall = some call) :
    ((∃ before ∈ c.pool, before.voteCall = some call) ∧ action ≠ .restart call.candidate) ∨
      ∃ s position expired next calls, action = .timer s position expired ∧
        (c.node s).electionTimer position expired = some (next, calls) ∧ call ∈ calls := by
  by_cases restarts : action = .restart call.candidate
  · subst restarts
    simp only [step, restart] at taken
    split_ifs at taken with closed
    obtain ⟨next, made, rfl⟩ := Option.map_eq_some_iff.mp taken
    obtain ⟨before, old, rfl⟩ := List.mem_map.mp member
    split_ifs at isCall with own
    · cases before <;> cases isCall
    · exact absurd (caller_of_voteCall isCall) own
  · rcases step_born taken task member with old | born
    · exact Or.inl ⟨⟨task, old, isCall⟩, restarts⟩
    · cases born with
      | voteSpawned fired isNew =>
        obtain rfl := Option.some.inj isCall
        exact Or.inr ⟨_, _, _, _, _, rfl, fired, isNew⟩
      | voteSent present =>
        obtain rfl := Option.some.inj isCall
        exact Or.inl ⟨⟨_, List.mem_of_getElem? present, rfl⟩, restarts⟩
      | voteReplied present =>
        obtain rfl := Option.some.inj isCall
        exact Or.inl ⟨⟨_, List.mem_of_getElem? present, rfl⟩, restarts⟩
      | @orphan _ before member => cases before <;> cases isCall
      | _ => cases isCall

/-! ### Calls belong to elections -/

/-- Every call is of an election that its candidate has started. -/
structure Started (c : Cluster n Command) : Prop where
  named : ∀ s, (c.node s).id = s
  within : ∀ task ∈ c.pool, ∀ call, task.voteCall = some call →
    call.election < (c.node call.candidate).elections.length

theorem elections_grow {s : Fin n} (taken : c.step action = some c')
    (running : action ≠ .restart s) :
    (c.node s).elections.length ≤ (c'.node s).elections.length := by
  obtain ⟨p, next, events, turn, nodes, -⟩ := step_turn taken
  rw [nodes]
  by_cases own : s = p
  · subst own
    rw [Function.update_self]
    cases turn.polls with
    | keeps same => rw [same]
    | starts added => simp [added]
    | counts call outcome received own moved =>
      obtain ⟨count, counters, -⟩ := (c.node s).receiveVote_elections call outcome
      rw [moved, counters, List.length_set]
    | forgets restarted => exact absurd restarted running
  · rw [Function.update_of_ne own]

/-- An election that begins has the next number, and its calls are for its term. -/
theorem mem_fired {s : Fin n} {position : Nat} {expired : Bool} {next : Raft n Command}
    {calls : List (VoteCall n)} {call : VoteCall n} (named : (c.node s).id = s)
    (fired : (c.node s).electionTimer position expired = some (next, calls))
    (member : call ∈ calls) :
    call.candidate = s ∧ call.election = (c.node s).elections.length ∧
      call.savedCurrentTerm = next.currentTerm ∧
      next.elections = (c.node s).elections ++ [⟨0, (c.node s).peerIds.length⟩] := by
  rcases Raft.electionTimer_cases fired with ⟨-, -, none⟩ | ⟨-, core, added, calls'⟩
  · rw [none] at member
    cases member
  · rw [calls'] at member
    obtain ⟨candidate, -, term, election⟩ := Raft.mem_startElection member
    have reached : next.core.currentTerm = (c.node s).startElection.1.core.currentTerm :=
      congrArg Raft.currentTerm core
    exact ⟨candidate.trans named, election, term.trans reached.symm, added⟩

theorem Started.step (started : Started c) (taken : c.step action = some c') : Started c' := by
  obtain ⟨s, next, events, turn, nodes, -⟩ := step_turn taken
  refine ⟨forall_turned (P := fun p rf => rf.id = p) nodes (turn.named (started.named s))
    fun p _ => started.named p, fun task member call isCall => ?_⟩
  rcases voteCall_cases taken member isCall with ⟨⟨before, old, isCall'⟩, running⟩ |
    ⟨s, position, expired, next, calls, rfl, fired, isNew⟩
  · exact (started.within before old call isCall').trans_le (elections_grow taken running)
  · obtain ⟨candidate, election, -, added⟩ := mem_fired (started.named s) fired isNew
    have moved : c'.node s = next := by
      simp only [Cluster.step, fired, Option.map_some, Option.some_inj] at taken
      rw [← taken]
      exact Function.update_self ..
    rw [election, candidate, moved, added]
    simp

theorem started_run {preload : Option (Preload Command)} {actions : List (Action n Command)}
    (taken : run preload actions = some c) : Started c := by
  refine execute_invariant Started (fun _ _ _ started _ stepped => started.step stepped)
    ⟨fun _ => ?_, fun task member => ?_⟩ along_always taken
  · cases preload <;> rfl
  · exact absurd member List.not_mem_nil

/-! ### Counting -/

/-- The outcome that a step gives to a call of the election, an error being `none`. -/
def electionOutcome (s : Fin n) (election : Nat) (c : Cluster n Command)
    (action : Action n Command) : Option (Option RequestVoteReply) :=
  (c.voteOutcome action).bind fun received =>
    if received.1.candidate = s ∧ received.1.election = election then some received.2 else none

/-- The outcome is a vote that is granted in the term. -/
def grants (term : Nat) (outcome : Option RequestVoteReply) : Bool :=
  outcome.any fun reply => reply.term = term && reply.voteGranted

theorem electionOutcome_iff {s : Fin n} {election : Nat} {outcome : Option RequestVoteReply} :
    electionOutcome s election c action = some outcome ↔
      ∃ call, c.voteOutcome action = some (call, outcome) ∧ call.candidate = s ∧
        call.election = election := by
  simp only [electionOutcome, Option.bind_eq_some_iff]
  constructor
  · rintro ⟨⟨call, outcome'⟩, received, own⟩
    split_ifs at own with same
    obtain rfl := Option.some.inj own
    exact ⟨call, received, same⟩
  · rintro ⟨call, received, same⟩
    exact ⟨(call, outcome), received, if_pos same⟩

theorem mem_of_voteOutcome {call : VoteCall n} {outcome : Option RequestVoteReply}
    (received : c.voteOutcome action = some (call, outcome)) :
    ∃ task ∈ c.pool, task.voteCall = some call := by
  cases action with
  | finish i =>
    simp only [voteOutcome] at received
    split at received
    · next call' reply present =>
      cases received
      exact ⟨_, List.mem_of_getElem? present, rfl⟩
    · cases received
  | fail i =>
    simp only [voteOutcome] at received
    split at received
    · next call' args present =>
      cases received
      exact ⟨_, List.mem_of_getElem? present, rfl⟩
    · next call' reply present =>
      cases received
      exact ⟨_, List.mem_of_getElem? present, rfl⟩
    · cases received
  | _ => cases received

/-- What the counters of an election hold, and that its calls are for its term. -/
structure Polling (c : Cluster n Command) (s : Fin n) (election term : Nat)
    (counters : Election) : Prop where
  counters : (c.node s).elections[election]? = some counters
  calls : ∀ task ∈ c.pool, ∀ call, task.voteCall = some call → call.candidate = s →
    call.election = election → call.savedCurrentTerm = term

namespace Polling

variable {s : Fin n} {election term : Nat} {counters : Election}

theorem getD (polling : Polling c s election term counters) :
    (c.node s).elections.getD election ⟨0, 0⟩ = counters := by
  rw [List.getD_eq_getElem?_getD, polling.counters, Option.getD_some]

/-- An election that is there already gets no new calls. -/
theorem calls_step (polling : Polling c s election term counters) (started : Started c)
    (taken : c.step action = some c') :
    ∀ task ∈ c'.pool, ∀ call, task.voteCall = some call → call.candidate = s →
      call.election = election → call.savedCurrentTerm = term := by
  intro task member call isCall own same
  rcases voteCall_cases taken member isCall with ⟨⟨before, old, isCall'⟩, -⟩ |
    ⟨s', position, expired, next, calls, rfl, fired, isNew⟩
  · exact polling.calls before old call isCall' own same
  · obtain ⟨candidate, number, -, -⟩ := mem_fired (started.named s') fired isNew
    obtain ⟨within, -⟩ := List.getElem?_eq_some_iff.mp polling.counters
    rw [← candidate, own] at number
    omega

/-- A step that gives no outcome to a call of the election keeps its counters. -/
theorem counters_step (polling : Polling c s election term counters)
    (runs : (c'.node s).state = .candidate) (none : electionOutcome s election c action = none)
    (taken : c.step action = some c') : (c'.node s).elections[election]? = some counters := by
  obtain ⟨within, -⟩ := List.getElem?_eq_some_iff.mp polling.counters
  obtain ⟨p, next, events, turn, nodes, -⟩ := step_turn taken
  rw [nodes] at runs ⊢
  by_cases own : s = p
  · subst own
    rw [Function.update_self] at runs ⊢
    cases turn.polls with
    | keeps same => rw [same, polling.counters]
    | starts added => rw [added, List.getElem?_append_left within, polling.counters]
    | counts call outcome received own moved =>
      have other : call.election ≠ election := fun same => by
        rw [electionOutcome_iff.mpr ⟨call, received, own, same⟩] at none
        cases none
      obtain ⟨count, counters, -⟩ := (c.node s).receiveVote_elections call outcome
      rw [moved, counters, List.getElem?_set_ne other, polling.counters]
    | forgets restarted _ follows =>
      rw [follows] at runs
      cases runs
  · rw [Function.update_of_ne own, polling.counters]

/-- The outcome of a call is one outcome less to wait for, and a vote is counted unless it is the
last one. -/
theorem count_step (polling : Polling c s election term counters) (started : Started c)
    (runs : (c.node s).state = .candidate) (runs' : (c'.node s).state = .candidate)
    {outcome : Option RequestVoteReply}
    (received : electionOutcome s election c action = some outcome)
    (taken : c.step action = some c') :
    ∃ votes, Polling c' s election term ⟨votes, counters.repliesNeeded - 1⟩ ∧
      (counters.repliesNeeded ≠ 1 →
        votes = counters.votesReceived + if grants term outcome then 1 else 0) := by
  have calls := polling.calls_step started taken
  obtain ⟨call, isOutcome, rfl, rfl⟩ := electionOutcome_iff.mp received
  have saved : call.savedCurrentTerm = term := by
    obtain ⟨task, member, isCall⟩ := mem_of_voteOutcome isOutcome
    exact polling.calls task member call isCall rfl rfl
  obtain ⟨within, -⟩ := List.getElem?_eq_some_iff.mp polling.counters
  obtain ⟨_, taken', moved⟩ := step_voteOutcome isOutcome
  obtain rfl := Option.some.inj (taken.symm.trans taken')
  have stays : outcome.any ((c.node call.candidate).stepsDown call) = false := by
    by_contra down
    obtain ⟨reply, rfl, isDown⟩ := (Option.any_eq_true _ _).mp (by simpa using down)
    have core := congrArg Raft.state (Raft.receiveVote_of_stepsDown isDown)
    rw [← moved] at core
    simp only [Raft.core_state, Raft.becomeFollower_state] at core
    exact absurd (core.symm.trans runs') (by simp)
  by_cases last : counters.repliesNeeded = 1
  · obtain ⟨count, counted, -⟩ := (c.node call.candidate).receiveVote_elections call outcome
    refine ⟨count, ⟨?_, calls⟩, fun more => absurd last more⟩
    rw [moved, counted, List.getElem?_set_self within, polling.getD]
  · have counted := Raft.receiveVote_counters runs stays (by rwa [polling.getD])
    refine ⟨_, ⟨?_, calls⟩, fun _ => rfl⟩
    rw [moved, counted, List.getElem?_set_self within, polling.getD, ← saved]
    rfl

/-- The counters are what the outcomes so far make of them, in whatever order they came. -/
theorem run {final : Cluster n Command} {actions : List (Action n Command)}
    (polling : Polling c s election term counters) (started : Started c)
    (taken : execute Cluster.step c actions = some final)
    (still : ∀ middle, Visits Cluster.step c actions middle →
      (middle.node s).state = .candidate) :
    ∃ votes, Polling final s election term ⟨votes, counters.repliesNeeded -
        (observed Cluster.step (electionOutcome s election) c actions).length⟩ ∧
      ((observed Cluster.step (electionOutcome s election) c actions).length <
          counters.repliesNeeded →
        votes = counters.votesReceived +
          (observed Cluster.step (electionOutcome s election) c actions).countP (grants term)) := by
  induction actions generalizing c counters with
  | nil =>
    obtain rfl : c = final := by simpa [execute] using taken
    refine ⟨counters.votesReceived, ?_, fun _ => rfl⟩
    simpa [observed] using polling
  | cons action rest inductionHypothesis =>
    obtain ⟨next, stepped, later⟩ := execute_cons.mp taken
    have runs := still c visits_start
    have stillNext : ∀ middle, Visits Cluster.step next rest middle →
        (middle.node s).state = .candidate := fun middle visits =>
      still middle (visits_cons.mpr (Or.inr ⟨next, stepped, visits⟩))
    have runs' := stillNext next visits_start
    rcases received : electionOutcome s election c action with _ | outcome
    · have kept : Polling next s election term counters :=
        ⟨polling.counters_step runs' received stepped, polling.calls_step started stepped⟩
      have := inductionHypothesis kept (started.step stepped) later stillNext
      simpa [observed, stepped, received] using this
    · obtain ⟨first, counted, exact'⟩ :=
        polling.count_step started runs runs' received stepped
      obtain ⟨votes, final', sums⟩ :=
        inductionHypothesis counted (started.step stepped) later stillNext
      simp only [observed, stepped, received, Option.toList_some, List.singleton_append,
        List.length_cons, List.countP_cons]
      refine ⟨votes, ?_, fun more => ?_⟩
      · convert final' using 2
        push_cast
        omega
      · have here := exact' (by omega)
        have there := sums (by push_cast at more ⊢; omega)
        simp only [here] at there
        omega

end Polling

/-! ### Elections -/

/-- A timeout that begins an election leaves it without votes and with a call for each peer. -/
theorem polling_of_timeout {s : Fin n} {position : Nat} (started : Started c)
    (taken : c.step (.timer s position true) = some c')
    (begins : (c.node s).currentTerm < (c'.node s).currentTerm) :
    Polling c' s (c.node s).elections.length (c'.node s).currentTerm
      ⟨0, (c.node s).peerIds.length⟩ := by
  obtain ⟨⟨next, calls⟩, fired, isNext⟩ := Option.map_eq_some_iff.mp taken
  have moved : c'.node s = next := by
    rw [← isNext]
    exact Function.update_self ..
  rw [moved] at begins ⊢
  refine ⟨?_, fun task member call isCall own same => ?_⟩
  · rcases Raft.electionTimer_cases fired with ⟨core, -, -⟩ | ⟨-, -, added, -⟩
    · have term : next.core.currentTerm = (c.node s).core.currentTerm :=
        congrArg Raft.currentTerm core
      exact absurd term begins.ne'
    · rw [moved, added]
      simp [Raft.startElection]
  · rcases voteCall_cases taken member isCall with ⟨⟨before, old, isCall'⟩, -⟩ |
      ⟨s', position', expired, next', calls', isTimer, fired', isNew⟩
    · have within := started.within before old call isCall'
      rw [own, same] at within
      exact absurd within (Nat.lt_irrefl _)
    · cases isTimer
      obtain ⟨-, -, term, -⟩ := mem_fired (started.named s) fired' isNew
      rw [fired] at fired'
      cases fired'
      exact term

/-- An outcome makes a candidate start to lead when it is the last one of its election and the
votes are a majority, unless it is a reply of a later term. -/
theorem leads_iff {s : Fin n} {election term : Nat} {counters : Election}
    (polling : Polling c s election term counters) (runs : (c.node s).state = .candidate)
    {outcome : Option RequestVoteReply}
    (received : electionOutcome s election c action = some outcome)
    (taken : c.step action = some c') :
    (c'.node s).state = .leader ↔
      outcome.all (fun reply => reply.term ≤ term) = true ∧ counters.repliesNeeded = 1 ∧
        (c.node s).peerIds.length + 1 <
          (counters.votesReceived + (if grants term outcome then 1 else 0) + 1) * 2 := by
  obtain ⟨call, isOutcome, rfl, rfl⟩ := electionOutcome_iff.mp received
  obtain ⟨task, member, isCall⟩ := mem_of_voteOutcome isOutcome
  obtain rfl := polling.calls task member call isCall rfl rfl
  obtain ⟨_, taken', moved⟩ := step_voteOutcome isOutcome
  obtain rfl := Option.some.inj (taken.symm.trans taken')
  have inTerm : outcome.all (fun reply => reply.term ≤ call.savedCurrentTerm) = true ↔
      outcome.any ((c.node call.candidate).stepsDown call) = false := by
    cases outcome <;> simp [Raft.stepsDown, runs]
  rw [inTerm, moved]
  by_cases stays : outcome.any ((c.node call.candidate).stepsDown call) = false
  · have core := congrArg Raft.state (Raft.receiveVote_of_stays stays)
    have winning := Raft.wins_iff stays
    rw [Raft.votesAfter, polling.getD] at winning
    rw [← Raft.core_state, core]
    by_cases wins : (c.node call.candidate).wins call outcome = true
    · obtain ⟨-, last, enough⟩ := winning.mp wins
      rw [if_pos wins]
      exact iff_of_true rfl ⟨stays, last, enough⟩
    · rw [if_neg wins]
      exact iff_of_false (by simp [runs]) fun won => wins (winning.mpr ⟨runs, won.2⟩)
  · obtain ⟨reply, rfl, down⟩ := (Option.any_eq_true _ _).mp (by simpa using stays)
    have core := congrArg Raft.state (Raft.receiveVote_of_stepsDown down)
    rw [← Raft.core_state, core]
    exact iff_of_false (by simp) fun won => stays won.1

/-- A candidate starts to lead with the last outcome of its election, when its own vote and those
granted until then are a majority, and with no earlier one. -/
theorem leads_with_last_outcome {preload : Option (Preload Command)}
    {before actions : List (Action n Command)} {action : Action n Command}
    {c c₁ c₂ c₃ : Cluster n Command} {s : Fin n} {position : Nat}
    {outcome : Option RequestVoteReply} (reached : run preload before = some c)
    (expired : c.step (.timer s position true) = some c₁)
    (begins : (c.node s).currentTerm < (c₁.node s).currentTerm)
    (taken : execute step c₁ actions = some c₂)
    (still : ∀ middle, Visits step c₁ actions middle → (middle.node s).state = .candidate ∧
      (middle.node s).currentTerm = (c₁.node s).currentTerm)
    (received : electionOutcome s (c.node s).elections.length c₂ action = some outcome)
    (counted : c₂.step action = some c₃) :
    (c₃.node s).state = .leader ↔
      (observed step (electionOutcome s (c.node s).elections.length) c₁
        (actions ++ [action])).length = (c.node s).peerIds.length ∧
      outcome.all (fun reply => reply.term ≤ (c₁.node s).currentTerm) = true ∧
      (c.node s).peerIds.length + 1 < (1 + (observed step
        (electionOutcome s (c.node s).elections.length) c₁ (actions ++ [action])).countP
          (grants (c₁.node s).currentTerm)) * 2 := by
  have started := started_run reached
  have startedNext := started.step expired
  obtain ⟨votes, polling, sums⟩ := (polling_of_timeout started expired begins).run startedNext
    taken fun middle visits => (still middle visits).1
  have runs := (still c₂ (visits_end taken)).1
  have size : (c₂.node s).peerIds.length = (c.node s).peerIds.length :=
    Nat.succ.inj ((c₂.node s).peerIds_length.trans (c.node s).peerIds_length.symm)
  rw [leads_iff polling runs received counted, observed_append taken, observed_one, received,
    size]
  simp only [Option.toList_some, List.length_append, List.length_singleton, List.countP_append,
    List.countP_singleton]
  dsimp only at sums ⊢
  constructor
  · rintro ⟨inTerm, last, enough⟩
    rw [sums (by omega)] at enough
    exact ⟨by omega, inTerm, by omega⟩
  · rintro ⟨last, inTerm, enough⟩
    rw [sums (by omega)]
    exact ⟨inTerm, by omega, by omega⟩

/-- The calls to both peers are handled, and the reply of server 1 has arrived. -/
def answered : List (Action 3 ℕ) :=
  roundTrip 0 ++ [.send 1, .handle 1]

theorem leads_with_last_outcome_elected : ∃ c, run none election = some c ∧
    (c.node s₀).state = .leader := by
  obtain ⟨c, reached, found⟩ := (Option.any_eq_true _ _).mp (by decide +kernel :
    (run none [.timer s₀ 0 false]).any (fun c : Cluster 3 ℕ =>
      (c.step (.timer s₀ 0 true)).any fun c₁ =>
        (c.node s₀).currentTerm < (c₁.node s₀).currentTerm &&
        (List.range 6).all (fun count => (execute step c₁ (answered.take count)).all fun middle =>
          (middle.node s₀).state = .candidate &&
            (middle.node s₀).currentTerm = (c₁.node s₀).currentTerm) &&
        (1 ≤ (c₁.node s₀).currentTerm &&
          (observed step (electionOutcome s₀ (c.node s₀).elections.length) c₁
            (answered ++ [.finish 1])).length = (c.node s₀).peerIds.length &&
          (c.node s₀).peerIds.length + 1 < (1 + (observed step
            (electionOutcome s₀ (c.node s₀).elections.length) c₁
              (answered ++ [.finish 1])).countP (grants (c₁.node s₀).currentTerm)) * 2) &&
        (execute step c₁ answered).any fun c₂ =>
          electionOutcome s₀ (c.node s₀).elections.length c₂ (.finish 1) =
            some (some ⟨1, true⟩) && (c₂.step (.finish 1)).isSome) = true)
  obtain ⟨c₁, expired, found⟩ := (Option.any_eq_true _ _).mp found
  simp only [Bool.and_eq_true, decide_eq_true_eq, List.all_eq_true, List.mem_range,
    Option.any_eq_true] at found
  obtain ⟨⟨⟨begins, still⟩, ⟨⟨inTerm, last⟩, majority⟩⟩, c₂, taken, received, isSome⟩ := found
  obtain ⟨c₃, counted⟩ := Option.isSome_iff_exists.mp isSome
  have whole : election = [.timer s₀ 0 false] ++ .timer s₀ 0 true :: (answered ++ [.finish 1]) :=
    rfl
  refine ⟨c₃, ?_, (leads_with_last_outcome reached expired begins taken ?_ received counted).mpr
    ⟨last, by simpa using inTerm, majority⟩⟩
  · rw [whole]
    exact execute_append.mpr ⟨c, reached, execute_cons.mpr ⟨c₁, expired,
      execute_append.mpr ⟨c₂, taken, execute_cons.mpr ⟨c₃, counted, rfl⟩⟩⟩⟩
  · intro middle visits
    obtain ⟨count, within, part⟩ := visits.take_part
    simpa [part] using still count (Nat.lt_succ_of_le within)

/-- Server 0 starts an election of term 1, and server 1 grants its vote. -/
def granted : List (Action 3 ℕ) :=
  timeout s₀ 0 ++ [.send 0, .handle 0]

/-- With the vote of server 1 the candidate has two votes of three, and it stays a candidate: the
call to server 2 is not answered. -/
theorem majority_waits : ∃ c c', run none granted = some c ∧
    (c.node s₀).state = .candidate ∧ (c.node s₀).currentTerm = 1 ∧
    electionOutcome s₀ 0 c (.finish 0) = some (some ⟨1, true⟩) ∧
    (c.node s₀).peerIds.length + 1 < (1 + (observed step (electionOutcome s₀ 0) (start 3 none)
      (granted ++ [.finish 0])).countP (grants 1)) * 2 ∧
    c.step (.finish 0) = some c' ∧ (c'.node s₀).state = .candidate := by
  obtain ⟨c, reached, found⟩ := (Option.any_eq_true _ _).mp (by decide +kernel :
    (run none granted).any (fun c =>
      (c.node s₀).state = .candidate && ((c.node s₀).currentTerm = 1 &&
      (electionOutcome s₀ 0 c (.finish 0) = some (some ⟨1, true⟩) &&
      ((c.node s₀).peerIds.length + 1 < (1 + (observed step (electionOutcome s₀ 0) (start 3 none)
        (granted ++ [.finish 0])).countP (grants 1)) * 2 &&
      (c.step (.finish 0)).any fun c' => (c'.node s₀).state = .candidate)))) = true)
  simp only [Bool.and_eq_true, decide_eq_true_eq, Option.any_eq_true] at found
  obtain ⟨runs, term, received, majority, c', counted, waits⟩ := found
  exact ⟨c, c', reached, runs, term, received, majority, counted, waits⟩

end Cluster

end RaftInMotion
