/-
This file proves that the side of a partition which has no majority does not go on by itself: while
no call passes between the sides, nobody on it is elected, and its servers commit nothing from an
index on that its leaders had no word of from the other side.

An election of the side keeps short of a majority because a vote that is counted was a call under
way before. So the votes an election has, with the candidate's own and with one for each call to the
side that has not returned, are bounded by what they are when it starts, the size of the side.
-/

import RaftInMotion.Model.Goroutines
import RaftInMotion.Liveness.Majority

namespace RaftInMotion

open Cluster Execution

variable {n : Nat} {Command : Type}

/-! ### Votes that may still come -/

/-- The goroutine asks a server of the side for a vote in the election of the candidate. -/
def Task.asks (side : Finset (Fin n)) (s : Fin n) (e : Nat) (task : Task n Command) : Bool :=
  task.voteCall.any fun call => call.candidate = s && call.election = e && call.peer ∈ side

/-- The calls of the election to the side that have not returned. -/
def asked (side : Finset (Fin n)) (s : Fin n) (e : Nat) (pool : List (Task n Command)) : Nat :=
  pool.countP (Task.asks side s e)

variable {side : Finset (Fin n)} {s : Fin n} {e : Nat}

theorem Task.asks_iff {task : Task n Command} {call : VoteCall n}
    (isCall : task.voteCall = some call) :
    task.asks side s e = true ↔ call.candidate = s ∧ call.election = e ∧ call.peer ∈ side := by
  simp [asks, isCall, and_assoc]

theorem Task.orphan_asks (task : Task n Command) : task.orphan.asks side s e = false := by
  cases task <;> rfl

theorem asked_append {pool spawned : List (Task n Command)} :
    asked side s e (pool ++ spawned) = asked side s e pool + asked side s e spawned :=
  List.countP_append ..

/-- A goroutine that asks, and then no longer asks, is one vote less to come. -/
theorem asked_set (side : Finset (Fin n)) (s : Fin n) (e : Nat) {pool : List (Task n Command)}
    {i : Nat} {before : Task n Command} (present : pool[i]? = some before)
    (moved : Task n Command) :
    asked side s e (pool.set i moved) + (if before.asks side s e then 1 else 0) =
      asked side s e pool + (if moved.asks side s e then 1 else 0) := by
  obtain ⟨inside, rfl⟩ := List.getElem?_eq_some_iff.mp present
  have counted : (if pool[i].asks side s e then 1 else 0) ≤ asked side s e pool :=
    List.boole_getElem_le_countP inside
  have set : asked side s e (pool.set i moved) = asked side s e pool -
      (if pool[i].asks side s e then 1 else 0) + (if moved.asks side s e then 1 else 0) :=
    List.countP_set inside
  omega

/-- A goroutine that moves asks at most what it asked before. -/
theorem asked_set_le {pool : List (Task n Command)} {i : Nat} {before moved : Task n Command}
    (present : pool[i]? = some before)
    (asks : moved.asks side s e = true → before.asks side s e = true) :
    asked side s e (pool.set i moved) ≤ asked side s e pool := by
  have set := asked_set side s e present moved
  by_cases still : moved.asks side s e = true
  · rw [if_pos still, if_pos (asks still)] at set
    omega
  · rw [if_neg still] at set
    omega

namespace Cluster

variable {c c' : Cluster n Command} {action : Action n Command}

/-- Only an election that begins brings new calls. -/
theorem Pooled.asked_cases {pool : List (Task n Command)} (pooled : c.Pooled action pool)
    (side : Finset (Fin n)) (s : Fin n) (e : Nat) :
    asked side s e pool ≤ asked side s e c.pool ∨
      ∃ t position expired next calls,
        (c.node t).electionTimer position expired = some (next, calls) ∧
        asked side s e pool = asked side s e c.pool + calls.countP fun call =>
          call.candidate = s && call.election = e && call.peer ∈ side := by
  cases pooled with
  | @timer t position expired next calls fired =>
    refine Or.inr ⟨t, position, expired, next, calls, fired, ?_⟩
    rw [asked_append]
    exact congrArg _ (List.countP_map ..)
  | leaderLoop turned =>
    refine Or.inl (asked_append.trans_le (Nat.add_eq_left.mpr ?_).le)
    refine List.countP_eq_zero.mpr fun task member asks => ?_
    obtain ⟨call, -, rfl⟩ := List.mem_map.mp member
    cases asks
  | sendVote present => exact Or.inl (asked_set_le present id)
  | sendAppend present isBuilt => exact Or.inl (asked_set_le present id)
  | answerVote present => exact Or.inl (asked_set_le present id)
  | answerAppend present => exact Or.inl (asked_set_le present id)
  | answerNobody present lost => exact Or.inl (asked_set_le present nofun)
  | finish present => exact Or.inl (asked_set_le present nofun)
  | @fail i task present =>
    exact Or.inl (asked_set_le present fun asks => absurd (task.orphan_asks.symm.trans asks) nofun)
  | restart =>
    refine Or.inl ((List.countP_map ..).trans_le (List.countP_mono_left fun task _ asks => ?_))
    dsimp only [Function.comp_apply] at asks
    split_ifs at asks
    · exact absurd (task.orphan_asks.symm.trans asks) nofun
    · exact asks
  | same other => exact Or.inl le_rfl

/-- An election that is there already gets no new calls. -/
theorem asked_le (side : Finset (Fin n)) (started : Started c)
    (old : e < (c.node s).elections.length) (taken : c.step action = some c') :
    asked side s e c'.pool ≤ asked side s e c.pool := by
  rcases (step_pooled taken).asked_cases side s e with fewer |
    ⟨t, position, expired, next, calls, fired, sum⟩
  · exact fewer
  · rw [sum, Nat.add_eq_left.mpr]
    refine List.countP_eq_zero.mpr fun call isCall asks => ?_
    simp only [Bool.and_eq_true, decide_eq_true_eq] at asks
    obtain ⟨⟨rfl, rfl⟩, -⟩ := asks
    obtain ⟨candidate, number, -, -⟩ := mem_fired (started.named t) fired isCall
    rw [candidate, number] at old
    omega

/-- A call that returns is one vote less to come. -/
theorem asked_outcome {call : VoteCall n} {outcome : Option RequestVoteReply}
    (taken : c.step action = some c') (received : c.voteOutcome action = some (call, outcome))
    (inside : call.peer ∈ side) :
    asked side call.candidate call.election c'.pool + 1 ≤
      asked side call.candidate call.election c.pool := by
  have pooled := step_pooled taken
  have returns : ∀ {i : Nat} {task moved : Task n Command}, c.pool[i]? = some task →
      task.voteCall = some call → moved.asks side call.candidate call.election = false →
      asked side call.candidate call.election (c.pool.set i moved) + 1 ≤
        asked side call.candidate call.election c.pool := by
    intro i task moved present isCall gone
    have set := asked_set side call.candidate call.election present moved
    rw [if_pos ((Task.asks_iff isCall).mpr ⟨rfl, rfl, inside⟩), gone] at set
    exact set.le
  cases action with
  | finish i =>
    simp only [voteOutcome] at received
    split at received
    · next reply present =>
      cases received
      generalize c'.pool = pool at pooled
      cases pooled with
      | finish _ => exact returns present rfl rfl
      | same other => simp [voteOutcome, present] at other
    · cases received
  | fail i =>
    generalize c'.pool = pool at pooled
    cases pooled with
    | @fail _ task present =>
      refine returns present ?_ task.orphan_asks
      simp only [voteOutcome, present] at received
      split at received <;> cases received <;> simp_all [Task.voteCall]
    | same other => cases other.symm.trans received
  | _ => cases received

/-! ### Elections -/

/-- No election of the side that is not over can reach a majority: with the votes it has, the
candidate's own and those that may still come. -/
def Short (side : Finset (Fin n)) (c : Cluster n Command) : Prop :=
  ∀ s ∈ side, ∀ e election, (c.node s).elections[e]? = some election →
    election.repliesNeeded ≤ 0 ∨
      (election.votesReceived + 1 + asked side s e c.pool) * 2 ≤ n

/-- A candidate of the side gets replies from the side only. -/
def sideReplies (side : Finset (Fin n)) (c : Cluster n Command) (action : Action n Command) :
    Prop :=
  ∀ call reply, c.voteOutcome action = some (call, some reply) → call.candidate ∈ side →
    call.peer ∈ side

/-- A vote that is counted on the side has been under way there. -/
theorem inside_of_votes {call : VoteCall n} {outcome : Option RequestVoteReply}
    (replies : sideReplies side c action)
    (received : c.voteOutcome action = some (call, outcome)) (own : call.candidate ∈ side)
    (vote : Raft.votes call outcome = true) : call.peer ∈ side := by
  cases outcome with
  | none => cases vote
  | some reply => exact replies call reply received own

/-- An election asks the other servers of the side. -/
theorem countP_calls_le (side : Finset (Fin n)) (s : Fin n) (e : Nat) {position : Nat}
    {expired : Bool} {next : Raft n Command} {calls : List (VoteCall n)} {t : Fin n}
    (named : (c.node t).id = t)
    (fired : (c.node t).electionTimer position expired = some (next, calls)) :
    (calls.countP fun call => call.candidate = s && call.election = e && call.peer ∈ side) ≤
      (side.erase s).card := by
  rcases Raft.electionTimer_cases fired with ⟨-, -, rfl⟩ | ⟨-, -, -, rfl⟩
  · exact Nat.zero_le _
  · rcases eq_or_ne t s with rfl | other
    · have distinct := (Raft.nodup_peerIds (c.node t)).filter fun peer => peer ∈ side
      refine (List.countP_map ..).trans_le ?_
      refine (List.countP_mono_left (q := fun peer => peer ∈ side) fun peer _ asks => ?_).trans ?_
      · simp only [Function.comp_apply, Bool.and_eq_true] at asks
        exact asks.2
      rw [List.countP_eq_length_filter, ← List.toFinset_card_of_nodup distinct]
      refine Finset.card_le_card fun peer member => ?_
      simp only [List.mem_toFinset, List.mem_filter, Raft.mem_peerIds, named,
        decide_eq_true_eq] at member
      exact Finset.mem_erase.mpr member
    · rw [List.countP_eq_zero.mpr fun call isCall asks => ?_]
      · exact Nat.zero_le _
      · obtain ⟨candidate, -⟩ := Raft.mem_startElection isCall
        simp only [Bool.and_eq_true, decide_eq_true_eq, candidate, named] at asks
        exact other asks.1.1

/-- An election that begins on a side without a majority cannot reach one. -/
theorem short_starts (minority : side.card * 2 ≤ n) (started : Started c) (own : s ∈ side)
    (taken : c.step action = some c') :
    (1 + asked side s (c.node s).elections.length c'.pool) * 2 ≤ n := by
  have none : asked side s (c.node s).elections.length c.pool = 0 := by
    refine List.countP_eq_zero.mpr fun task member asks => ?_
    have any := asks
    unfold Task.asks at any
    obtain ⟨call, isCall, -⟩ := (Option.any_eq_true _ _).mp any
    obtain ⟨rfl, number, -⟩ := (Task.asks_iff isCall).mp asks
    have := started.within task member call isCall
    omega
  have erased := Finset.card_erase_add_one own
  rcases (step_pooled taken).asked_cases side s (c.node s).elections.length with fewer |
    ⟨t, position, expired, next, calls, fired, sum⟩
  · omega
  · have few := countP_calls_le side s (c.node s).elections.length (started.named t) fired
    omega

theorem Short.step (minority : side.card * 2 ≤ n) (short : Short side c) (started : Started c)
    (replies : sideReplies side c action) (taken : c.step action = some c') : Short side c' := by
  intro s own e election found
  -- An election that was there before has no more votes to come than it had.
  have kept : (c.node s).elections[e]? = some election → election.repliesNeeded ≤ 0 ∨
      (election.votesReceived + 1 + asked side s e c'.pool) * 2 ≤ n := by
    intro found
    have fewer := asked_le side started (List.getElem?_eq_some_iff.mp found).1 taken
    rcases short s own e election found with ended | few
    · exact Or.inl ended
    · exact Or.inr (by omega)
  obtain ⟨p, next, events, turn, nodes, -⟩ := step_turn taken
  rw [nodes] at found
  rcases eq_or_ne s p with rfl | other
  · rw [Function.update_self] at found
    cases turn.polls with
    | keeps same => exact kept (same ▸ found)
    | starts added =>
      rw [added, List.getElem?_append] at found
      split_ifs at found with old
      · exact kept found
      · obtain ⟨last, rfl⟩ : e - (c.node s).elections.length = 0 ∧
            ⟨0, (c.node s).peerIds.length⟩ = election := by
          simpa [List.getElem?_singleton] using found
        obtain rfl : e = (c.node s).elections.length := by omega
        exact Or.inr (by simpa using short_starts minority started own taken)
    | counts call outcome received isOwn moved =>
      subst isOwn
      obtain ⟨count, counters, counted⟩ :=
        (c.node call.candidate).receiveVote_elections call outcome
      rw [moved, counters, List.getElem?_set] at found
      split_ifs at found with same inside
      · subst same
        cases found
        have was := List.getElem?_eq_getElem inside
        rw [List.getD_eq_getElem?_getD, was, Option.getD_some] at counted ⊢
        by_cases more : 1 < (c.node call.candidate).elections[call.election].repliesNeeded
        · right
          rcases short call.candidate own call.election _ was with ended | few
          · omega
          · rcases counted more with still | ⟨vote, another⟩
            · have fewer := asked_le side started inside taken
              dsimp only
              omega
            · have less := asked_outcome taken received (inside_of_votes replies received own vote)
              dsimp only
              omega
        · exact Or.inl (by dsimp only; omega)
      · exact kept found
    | forgets restarted none follows => simp [none] at found
  · rw [Function.update_of_ne other] at found
    exact kept found

/-- The last outcome of an election that is short of a majority does not win it. -/
theorem Short.loses {call : VoteCall n} {outcome : Option RequestVoteReply}
    (short : Short side c) (replies : sideReplies side c action) (taken : c.step action = some c')
    (received : c.voteOutcome action = some (call, outcome)) (own : call.candidate ∈ side)
    (stays : outcome.any ((c.node call.candidate).stepsDown call) = false) :
    (c.node call.candidate).wins call outcome = false := by
  refine Bool.eq_false_iff.mpr fun wins => ?_
  obtain ⟨-, last, enough⟩ := (Raft.wins_iff stays).mp wins
  rw [Raft.peerIds_length] at enough
  rcases found : (c.node call.candidate).elections[call.election]? with _ | election
  · rw [List.getD_eq_getElem?_getD, found] at last
    cases last
  · unfold Raft.votesAfter at enough
    rw [List.getD_eq_getElem?_getD, found, Option.getD_some] at last enough
    rcases short call.candidate own call.election election found with ended | few
    · omega
    · split_ifs at enough with vote
      · have less := asked_outcome taken received (inside_of_votes replies received own vote)
        omega
      · omega

end Cluster

/-! ### Servers of the side -/

/-- What a server of the side does without the others: it commits nothing from the limit on, and
leads only the term that it has led, with what it knew of the other side. -/
structure Kept (side : Finset (Fin n)) (limit : Nat) (rf next : Raft n Command) : Prop where
  commit : next.commitIndex ≤ rf.commitIndex ∨ next.commitIndex < limit
  leads : next.state = .leader → rf.state = .leader ∧ next.currentTerm = rf.currentTerm ∧
    ∀ p, p ∉ side → next.matchIndex p = rf.matchIndex p

namespace Kept

variable {limit : Nat} {rf middle next other : Raft n Command}

theorem refl (rf : Raft n Command) : Kept side limit rf rf :=
  ⟨Or.inl le_rfl, fun leads => ⟨leads, rfl, fun _ _ => rfl⟩⟩

theorem trans (first : Kept side limit rf middle) (second : Kept side limit middle next) :
    Kept side limit rf next := by
  refine ⟨?_, fun leads => ?_⟩
  · have early := first.commit
    have late := second.commit
    omega
  · obtain ⟨led, term, matched⟩ := second.leads leads
    obtain ⟨led', term', matched'⟩ := first.leads led
    exact ⟨led', term.trans term', fun p out => (matched p out).trans (matched' p out)⟩

theorem of_core (core : next.core = other.core) (kept : Kept side limit rf other) :
    Kept side limit rf next := by
  have commit : next.core.commitIndex = other.core.commitIndex := congrArg Raft.commitIndex core
  have state : next.core.state = other.core.state := congrArg Raft.state core
  have term : next.core.currentTerm = other.core.currentTerm := congrArg Raft.currentTerm core
  have matched : next.core.matchIndex = other.core.matchIndex := congrArg Raft.matchIndex core
  simp only [Raft.core_commitIndex, Raft.core_state, Raft.core_currentTerm] at commit state term
  change next.matchIndex = other.matchIndex at matched
  exact ⟨commit ▸ kept.commit, by rw [state, term, matched]; exact kept.leads⟩

/-- A server that does not lead after the step. -/
theorem of_follower (state : next.state ≠ .leader)
    (commit : next.commitIndex ≤ rf.commitIndex ∨ next.commitIndex < limit) :
    Kept side limit rf next :=
  ⟨commit, fun leads => absurd leads state⟩

end Kept

namespace Raft

variable {limit : Nat} {rf next : Raft n Command}

theorem electionTimer_kept {position : Nat} {expired : Bool} {calls : List (VoteCall n)}
    (fired : rf.electionTimer position expired = some (next, calls)) :
    Kept side limit rf next := by
  rcases electionTimer_cases fired with ⟨core, -, -⟩ | ⟨-, core, -, -⟩
  · exact .of_core core (.refl rf)
  · exact .of_core core (.of_follower nofun (Or.inl le_rfl))

theorem requestVote_kept (args : RequestVoteArgs n) :
    Kept side limit rf (rf.requestVote args).1 := by
  by_cases alive : rf.state = .dead
  · rw [requestVote_of_dead args alive]
    exact .refl rf
  by_cases newer : rf.currentTerm < args.term
  · have met : rf.meetTerm args.term = rf.becomeFollower args.term := if_pos newer
    rcases requestVote_cases args alive with refused | ⟨-, -, -, granted⟩
    · rw [refused, met]
      exact .of_follower nofun (Or.inl le_rfl)
    · rw [granted, met]
      exact .of_follower nofun (Or.inl le_rfl)
  · have stays : rf.meetTerm args.term = rf := if_neg newer
    rcases requestVote_cases args alive with refused | ⟨-, -, -, granted⟩
    · rw [refused, stays]
      exact ⟨Or.inl le_rfl, fun leads => ⟨leads, rfl, fun _ _ => rfl⟩⟩
    · rw [granted, stays]
      exact ⟨Or.inl le_rfl, fun leads => ⟨leads, rfl, fun _ _ => rfl⟩⟩

/-- A follower takes over no `LeaderCommit` that is not below the limit. -/
theorem appendEntries_kept {args : AppendEntriesArgs n Command} {reply : AppendEntriesReply}
    (handled : rf.appendEntries args = some (next, reply)) (below : args.leaderCommit < limit) :
    Kept side limit rf next := by
  have follows : (rf.heed args.term).state ≠ .leader := by simp [heed_state]
  have commit := heed_commitIndex rf args.term
  cases appendEntries_outcome handled with
  | dead gone => exact .refl rf
  | stale alive older _ _ same term fails =>
    rcases same with rfl | rfl
    · exact .refl _
    · exact ⟨Or.inl le_rfl, fun leads => ⟨leads, rfl, fun _ _ => rfl⟩⟩
  | reject alive reached _ term fails => exact .of_follower follows (Or.inl commit.le)
  | blank alive reached _ term first empty => exact .of_follower follows (Or.inl commit.le)
  | accept alive reached _ term prevLogIndex position held found same live =>
    refine .of_follower (fun leads => follows ((store_state args prevLogIndex).symm.trans leads)) ?_
    have takes : ((rf.heed args.term).store args prevLogIndex).commitIndex = _ ∨ _ :=
      store_commitIndex args prevLogIndex
    rcases takes with still | ⟨-, moved⟩
    · exact Or.inl (still.trans commit).le
    · exact Or.inr ((moved.trans_le (min_le_left ..)).trans_lt below)

theorem receiveVote_kept {call : VoteCall n} {outcome : Option RequestVoteReply}
    (loses : outcome.any (rf.stepsDown call) = false → rf.wins call outcome = false) :
    Kept side limit rf (rf.receiveVote call outcome) := by
  by_cases stays : outcome.any (rf.stepsDown call) = false
  · have core := receiveVote_of_stays stays
    rw [if_neg (by simp [loses stays])] at core
    exact .of_core core (.refl rf)
  · obtain ⟨reply, rfl, down⟩ := (Option.any_eq_true _ _).mp (by simpa using stays)
    exact .of_core (receiveVote_of_stepsDown down) (.of_follower nofun (Or.inl le_rfl))

/-- A leader of a side without a majority does not count an entry on it as committed. -/
theorem receiveAppend_kept {call : AppendCall n} {nextIndexForPeer : Nat}
    {args : AppendEntriesArgs n Command} {reply : AppendEntriesReply}
    (minority : side.card * 2 ≤ n) (own : rf.id ∈ side) (inside : call.peer ∈ side)
    (bound : rf.state = .leader → ∀ p, p ∉ side → rf.matchIndex p < limit)
    (received : rf.receiveAppend call nextIndexForPeer args reply = some next) :
    Kept side limit rf next := by
  rcases receiveAppend_cases received with ⟨-, rfl⟩ | ⟨-, core, -⟩ |
    ⟨-, leads, -, -, matched, _, isMatched, rfl, -⟩
  · exact .of_follower nofun (Or.inl le_rfl)
  · exact .of_core core (.refl rf)
  have others : ∀ p, p ∉ side → matched.matchIndex p = rf.matchIndex p := by
    intro p out
    rw [isMatched]
    exact Function.update_of_ne (fun same : p = call.peer => out (same ▸ inside)) ..
  have term : matched.currentTerm = rf.currentTerm := by
    rw [isMatched]
    rfl
  refine ⟨?_, fun _ => ⟨leads, term, others⟩⟩
  dsimp only
  rcases matched.advanceCommit_cases with same | ⟨index, moved, -, -, counts⟩
  · rw [same, isMatched]
    exact Or.inl le_rfl
  · right
    by_contra beyond
    have enough : matched.peerIds.length + 1 < matched.matchCount index * 2 := by
      unfold countable at counts
      simpa using ((Bool.and_eq_true _ _).mp counts).2
    have few : matched.matchCount index ≤ side.card := by
      rw [matchCount_eq]
      refine Finset.card_le_card fun p holds => ?_
      rcases (Finset.mem_filter.mp holds).2 with rfl | knows
      · rw [isMatched]
        exact own
      · by_contra out
        have below := bound leads p out
        rw [← others p out] at below
        omega
    rw [peerIds_length] at enough
    omega

theorem kill_kept (killed : rf.kill = some next) : Kept side limit rf next := by
  rcases kill_cases killed with ⟨-, rfl⟩ | ⟨-, rfl⟩
  · exact .refl _
  · exact .of_follower nofun (Or.inl le_rfl)

end Raft

namespace Cluster

variable {c c' : Cluster n Command} {action : Action n Command} {limit : Nat}

/-- No request that a server of the side handles announces an index from the limit on. -/
def sideRequests (side : Finset (Fin n)) (limit : Nat) (c : Cluster n Command)
    (action : Action n Command) : Prop :=
  ∀ s args, c.appendHandled action = some (s, args) → s ∈ side → args.leaderCommit < limit

theorem Turn.kept {next : Raft n Command} {events : List (Event n Command)}
    (turn : c.Turn action s next events) (taken : c.step action = some c')
    (minority : side.card * 2 ≤ n) (own : s ∈ side) (named : (c.node s).id = s)
    (short : Short side c) (replies : sideReplies side c action)
    (requests : sideRequests side limit c action)
    (answers : ∀ i call nextIndexForPeer args reply, action = .finish i →
      c.pool[i]? = some (.appendReplied call nextIndexForPeer args reply) →
      call.leader ∈ side → call.peer ∈ side)
    (bound : (c.node s).state = .leader → ∀ p, p ∉ side → (c.node s).matchIndex p < limit) :
    Kept side limit (c.node s) next := by
  cases turn with
  | timer fired => exact Raft.electionTimer_kept fired
  | handleVote present request => exact Raft.requestVote_kept _
  | handleAppend present request handled =>
    refine Raft.appendEntries_kept handled (requests s _ ?_ own)
    simp [appendHandled, present, request]
  | receiveVote received =>
    exact Raft.receiveVote_kept (short.loses replies taken received own)
  | @receiveAppend i call nextIndexForPeer args reply _ present received =>
    exact Raft.receiveAppend_kept minority (named.symm ▸ own)
      (answers i call nextIndexForPeer args reply rfl present own) bound received
  | submit submitted =>
    rcases Raft.submit_cases submitted with ⟨rfl, -, -⟩ | ⟨rfl, -, -⟩
    · exact .refl _
    · exact ⟨Or.inl le_rfl, fun leads => ⟨leads, rfl, fun _ _ => rfl⟩⟩
  | leaderLoop turned => exact .of_core (Raft.leaderLoop_cases turned).1 (.refl _)
  | leaderLoopClosed ended => exact .of_core (Raft.leaderLoopClosed_cases ended).1 (.refl _)
  | takeReady ready =>
    rcases Raft.takeReady_cases ready with ⟨-, rfl⟩ | ⟨-, -, rfl⟩ <;>
      exact ⟨Or.inl le_rfl, fun leads => ⟨leads, rfl, fun _ _ => rfl⟩⟩
  | sendReady sent =>
    obtain ⟨rest, -, rfl⟩ := Raft.sendReady_cases sent
    exact ⟨Or.inl le_rfl, fun leads => ⟨leads, rfl, fun _ _ => rfl⟩⟩
  | kill killed => exact Raft.kill_kept killed
  | restart closed made =>
    obtain ⟨-, follows, commit, -⟩ := Raft.make_cases made
    exact .of_follower (by simp [follows]) (Or.inr (by omega))
  | _ => exact .refl _

end Cluster

/-! ### The network -/

/-- No call passes between the sides. -/
def Network.divided (side : Finset (Fin n)) (x : Network n Command)
    (_ : NetworkAction n Command) : Bool :=
  decide (∀ s p, (s ∈ side ↔ p ∉ side) → x.passes s p = false)

/-- What a goroutine that calls does between the sides: none of the side gets a reply from outside,
and no request that can still reach the side, or comes from it, announces an index from the limit
on. -/
structure Confined (side : Finset (Fin n)) (limit : Nat) (phase : CallPhase)
    (task : Task n Command) : Prop where
  replies : ∀ s p, task.called = some (s, p) → s ∈ side → p ∉ side → phase ≠ .sent
  requests : ∀ p args, task.appendRequest = some (p, args) → p ∈ side →
    phase = .sent ∨ phase = .closed → args.leaderCommit < limit
  builds : ∀ s p args, task.called = some (s, p) → s ∈ side →
    task.appendRequest = some (p, args) → args.leaderCommit < limit

/-- A partition with a side that has no majority, and a limit to what its leaders know to be
committed or to be held outside. -/
structure Partition (side : Finset (Fin n)) (limit : Nat) (x : Network n Command) : Prop where
  short : Short side x.cluster
  commits : ∀ s ∈ side, (x.cluster.node s).commitIndex < limit
  matched : ∀ s ∈ side, (x.cluster.node s).state = .leader → ∀ p, p ∉ side →
    (x.cluster.node s).matchIndex p < limit
  confined : ∀ i task, x.cluster.pool[i]? = some task → Confined side limit (x.phases i) task

instance (c : Cluster n Command) : Decidable (Short side c) :=
  decidable_of_iff (∀ s ∈ side, ∀ (e : Nat) (inside : e < (c.node s).elections.length),
      (c.node s).elections[e].repliesNeeded ≤ 0 ∨
        ((c.node s).elections[e].votesReceived + 1 + asked side s e c.pool) * 2 ≤ n)
    ⟨fun short s own e election found => by
      obtain ⟨inside, rfl⟩ := List.getElem?_eq_some_iff.mp found
      exact short s own e inside, fun short s own e inside =>
        short s own e _ (List.getElem?_eq_getElem inside)⟩

instance (limit : Nat) (phase : CallPhase) (task : Task n Command) :
    Decidable (Confined side limit phase task) :=
  decidable_of_iff ((∀ s p, task.called = some (s, p) → s ∈ side → p ∉ side → phase ≠ .sent) ∧
      (∀ asked ∈ task.appendRequest, asked.1 ∈ side → phase = .sent ∨ phase = .closed →
        asked.2.leaderCommit < limit) ∧
      ∀ s p, task.called = some (s, p) → s ∈ side → ∀ asked ∈ task.appendRequest, asked.1 = p →
        asked.2.leaderCommit < limit)
    ⟨fun ⟨replies, requests, builds⟩ => ⟨replies, fun p args asks => requests (p, args) asks,
      fun s p args called own asks => builds s p called own (p, args) asks rfl⟩,
    fun confined => ⟨confined.replies, fun _ asks => confined.requests _ _ asks,
      fun s p called own _ asks same => confined.builds s p _ called own (same ▸ asks)⟩⟩

instance (limit : Nat) (x : Network n Command) : Decidable (Partition side limit x) :=
  decidable_of_iff (Short side x.cluster ∧ (∀ s ∈ side, (x.cluster.node s).commitIndex < limit) ∧
      (∀ s ∈ side, (x.cluster.node s).state = .leader → ∀ p, p ∉ side →
        (x.cluster.node s).matchIndex p < limit) ∧
      ∀ (i : Nat) (inside : i < x.cluster.pool.length),
        Confined side limit (x.phases i) x.cluster.pool[i])
    ⟨fun ⟨short, commits, matched, confined⟩ => ⟨short, commits, matched, fun i task present => by
      obtain ⟨inside, rfl⟩ := List.getElem?_eq_some_iff.mp present
      exact confined i inside⟩,
    fun partition => ⟨partition.short, partition.commits, partition.matched,
      fun i inside => partition.confined i _ (List.getElem?_eq_getElem inside)⟩⟩

theorem Confined.goes {limit : Nat} {phase : CallPhase} {task before : Task n Command}
    (confined : Confined side limit phase before)
    (called : task.called = before.called ∨ task.called = none)
    (request : task.addressee = before.addressee ∧ task.appendRequest = before.appendRequest ∨
      task.addressee = none) : Confined side limit phase task := by
  have same : ∀ {p args}, task.appendRequest = some (p, args) →
      before.appendRequest = some (p, args) := by
    intro p args asks
    rcases request with ⟨-, same⟩ | gone
    · exact same.symm.trans asks
    · cases gone.symm.trans (Task.addressee_of_appendRequest asks)
  have calls : ∀ {s p}, task.called = some (s, p) → before.called = some (s, p) := by
    intro s p isCalled
    rcases called with same | gone
    · exact same.symm.trans isCalled
    · cases gone.symm.trans isCalled
  exact ⟨fun s p isCalled => confined.replies s p (calls isCalled),
    fun p args asks => confined.requests p args (same asks),
    fun s p args isCalled own asks => confined.builds s p args (calls isCalled) own (same asks)⟩

namespace Partition

variable {limit : Nat} {x y : Network n Command} {action : NetworkAction n Command}

/-- No call between the sides is sent. -/
theorem phased {i : Nat} {task : Task n Command} {phase : CallPhase}
    (partition : Partition side limit x) (divided : x.divided side action = true)
    (present : x.cluster.pool[i]? = some task) (phased : x.Phased action i phase) :
    Confined side limit phase task := by
  have apart := of_decide_eq_true divided
  have confined := partition.confined i task present
  -- A phase in which nothing is on its way.
  have unsent : phase ≠ .sent → phase ≠ .closed → Confined side limit phase task :=
    fun unsent unclosed => ⟨fun s p _ _ _ => unsent,
      fun p args _ _ on => absurd on (not_or.mpr ⟨unsent, unclosed⟩), confined.builds⟩
  cases phased with
  | keeps begun same => exact same ▸ confined
  | builds begins built => exact unsent (by simp [built]) (by simp [built])
  | refuses other refused => exact unsent (by simp [refused]) (by simp [refused])
  | sends other task' present' id peerId called passes sent =>
    obtain rfl : task = task' := Option.some.inj (present.symm.trans present')
    refine ⟨fun s p called' own out => ?_, fun p args asks inside _ => ?_, confined.builds⟩
    · obtain ⟨rfl, rfl⟩ := Prod.mk.inj (Option.some.inj (called.symm.trans called'))
      exact absurd passes (Bool.eq_false_iff.mp (apart id peerId (iff_of_true own out)))
    · obtain rfl := Task.addressee_of_called called (Task.addressee_of_appendRequest asks)
      by_cases own : id ∈ side
      · exact confined.builds id p args called own asks
      · have never := apart id p (iff_of_false own (not_not.mpr inside))
        exact absurd passes (Bool.eq_false_iff.mp never)
  | closes begun waits closed =>
    exact ⟨fun s p _ _ _ => by simp [closed],
      fun p args asks inside _ => confined.requests p args asks inside (Or.inl waits),
      confined.builds⟩

theorem confined_step (partition : Partition side limit x) (divided : x.divided side action = true)
    (taken : x.step action = some y) {i : Nat} {task : Task n Command}
    (present : y.cluster.pool[i]? = some task) : Confined side limit (y.phases i) task := by
  have still := fun task (present : x.cluster.pool[i]? = some task) =>
    partition.phased divided present (Network.step_phased taken i)
  rcases Network.step_cluster taken with ⟨raft, rfl, -, stepped⟩ | ⟨-, same⟩
  · cases (step_pooled stepped).origin present with
    | idle uncalled unsent =>
      have unasked : ∀ {p args}, task.appendRequest ≠ some (p, args) := fun asks => by
        cases unsent.symm.trans (Task.addressee_of_appendRequest asks)
      exact ⟨fun s p called => (nomatch uncalled.symm.trans called),
        fun p args asks => absurd asks unasked, fun s p args _ _ asks => absurd asks unasked⟩
    | sends built commit =>
      subst built
      rw [(Network.step_phased taken i).built]
      refine ⟨fun s p _ _ _ => nofun, fun p args _ _ on => by simp at on,
        fun s p args called own asks => ?_⟩
      obtain ⟨s', called', isCommit⟩ := commit p args asks
      obtain ⟨rfl, -⟩ := Prod.mk.inj (Option.some.inj (called.symm.trans called'))
      rw [isCommit]
      exact partition.commits s own
    | goes before found called request => exact (still before found).goes called request
  · exact still task (same ▸ present)

/-- A candidate or leader of the side gets replies from the side only. -/
theorem inside_of_reply (partition : Partition side limit x) {i : Nat} {task : Task n Command}
    {s p : Fin n} (allowed : x.allows (.finish i) = true) (present : x.cluster.pool[i]? = some task)
    (called : task.called = some (s, p)) (own : s ∈ side) : p ∈ side := by
  by_contra out
  exact (partition.confined i task present).replies s p called own out (of_decide_eq_true allowed)

theorem step (minority : side.card * 2 ≤ n) (started : Started x.cluster)
    (partition : Partition side limit x) (divided : x.divided side action = true)
    (taken : x.step action = some y) :
    Started y.cluster ∧ Partition side limit y ∧
      ∀ s ∈ side, Kept side limit (x.cluster.node s) (y.cluster.node s) := by
  have confined : ∀ i task, y.cluster.pool[i]? = some task →
      Confined side limit (y.phases i) task :=
    fun i task present => partition.confined_step divided taken present
  rcases Network.step_cluster taken with ⟨raft, rfl, allowed, stepped⟩ | ⟨-, same⟩
  · have replies : sideReplies side x.cluster raft := by
      intro call reply received own
      cases raft with
      | finish i =>
        simp only [voteOutcome] at received
        split at received
        · next present =>
          cases received
          exact partition.inside_of_reply allowed present rfl own
        · cases received
      | fail i =>
        simp only [voteOutcome] at received
        split at received <;> cases received
      | _ => cases received
    have requests : sideRequests side limit x.cluster raft := by
      intro s args handled own
      cases raft with
      | handle i =>
        obtain ⟨task, present, asks⟩ := Option.bind_eq_some_iff.mp handled
        refine (partition.confined i task present).requests s args asks own ?_
        simpa [Network.allows] using allowed
      | _ => cases handled
    have answers : ∀ i call nextIndexForPeer args reply, raft = .finish i →
        x.cluster.pool[i]? = some (.appendReplied call nextIndexForPeer args reply) →
        call.leader ∈ side → call.peer ∈ side := by
      rintro i call nextIndexForPeer args reply rfl present own
      exact partition.inside_of_reply allowed present rfl own
    have kept : ∀ s ∈ side, Kept side limit (x.cluster.node s) (y.cluster.node s) := by
      intro s own
      obtain ⟨p, next, events, turn, nodes, -⟩ := step_turn stepped
      rw [nodes]
      rcases eq_or_ne s p with rfl | other
      · rw [Function.update_self]
        exact turn.kept stepped minority own (started.named s) partition.short replies requests
          answers (partition.matched s own)
      · rw [Function.update_of_ne other]
        exact .refl _
    refine ⟨started.step stepped, ⟨partition.short.step minority started replies stepped,
      fun s own => ?_, fun s own leads p out => ?_, confined⟩, kept⟩
    · have before := partition.commits s own
      have after := (kept s own).commit
      omega
    · obtain ⟨led, -, matched⟩ := (kept s own).leads leads
      rw [matched p out]
      exact partition.matched s own led p out
  · rw [same]
    exact ⟨started, ⟨same ▸ partition.short, same ▸ partition.commits, same ▸ partition.matched,
      confined⟩, fun s _ => .refl _⟩

end Partition

/-- A side without a majority neither elects a leader nor commits an index from the limit on. -/
theorem minority_waits (preload : Option (Preload Command)) {limit : Nat} {x y : Network n Command}
    {before actions : List (NetworkAction n Command)} (minority : side.card * 2 ≤ n)
    (reached : execute Network.step (Network.start preload) before = some x)
    (partition : Partition side limit x)
    (divided : along Network.step (Network.divided side) x actions = true)
    (run : execute Network.step x actions = some y) :
    ∀ s ∈ side, (y.cluster.node s).commitIndex < limit ∧
      ((y.cluster.node s).state = .leader → (x.cluster.node s).state = .leader ∧
        (y.cluster.node s).currentTerm = (x.cluster.node s).currentTerm) := by
  have started : Started x.cluster := started_run (Network.run_cluster reached)
  have kept := execute_related (fun x => Started x.cluster ∧ Partition side limit x)
    (fun x y => ∀ s ∈ side, Kept side limit (x.cluster.node s) (y.cluster.node s))
    (fun _ _ s _ => .refl _)
    (fun _ _ _ first second s own => (first s own).trans (second s own))
    (fun _ _ _ held divided taken => by
      obtain ⟨started, partition, kept⟩ := held.2.step minority held.1 divided taken
      exact ⟨⟨started, partition⟩, kept⟩)
    ⟨started, partition⟩ divided run
  intro s own
  have commit := (kept s own).commit
  have below := partition.commits s own
  refine ⟨by omega, fun leads => ?_⟩
  obtain ⟨led, term, -⟩ := (kept s own).leads leads
  exact ⟨led, term⟩

namespace Network

/-- Server 0 of four is elected in term 1 by all, and then two sides of two lose each other. -/
def divide : List (NetworkAction 4 ℕ) :=
  (Cluster.timeout 0 0).map .raft ++ roundTrip 0 ++ roundTrip 1 ++ roundTrip 2 ++
    [.disconnectPeer 0 2, .disconnectPeer 0 3, .disconnectPeer 1 2, .disconnectPeer 1 3,
      .disconnectPeer 2 0, .disconnectPeer 2 1, .disconnectPeer 3 0, .disconnectPeer 3 1]

/-- The leader takes a command and sends it to server 1; then server 1 asks for votes in term 2. -/
def meanwhile : List (NetworkAction 4 ℕ) :=
  [.raft (.submit 0 7), .raft (.leaderLoop 0 0)] ++ roundTrip 3 ++
    (Cluster.timeout 1 1).map .raft ++ roundTrip 6 ++
    [.raft (.send 7), .call 7 true, .raft (.fail 7), .raft (.send 8), .call 8 true, .raft (.fail 8)]

end Network

theorem minority_waits_divided : ∃ x y,
    execute Network.step (Network.start none) Network.divide = some x ∧
      execute Network.step x Network.meanwhile = some y ∧
      (y.cluster.node 0).log = [⟨7, 1⟩] ∧ (y.cluster.node 1).state = .candidate ∧
      ∀ s ∈ ({0, 1} : Finset (Fin 4)), (y.cluster.node s).commitIndex < (0 : ℕ) := by
  obtain ⟨x, cut, holds⟩ := (Option.any_eq_true _ _).mp (by decide +kernel :
    (execute Network.step (Network.start none) Network.divide).any (fun x => decide
      (Partition {0, 1} 0 x ∧ along Network.step (Network.divided {0, 1}) x
          Network.meanwhile = true ∧
        (execute Network.step x Network.meanwhile).any (fun y => decide
          ((y.cluster.node 0).log = [⟨7, 1⟩] ∧ (y.cluster.node 1).state = .candidate)) =
            true)) = true)
  obtain ⟨partition, divided, moves⟩ := of_decide_eq_true holds
  obtain ⟨y, run, moved⟩ := (Option.any_eq_true _ _).mp moves
  obtain ⟨log, asks⟩ := of_decide_eq_true moved
  exact ⟨x, y, cut, run, log, asks, fun s own =>
    (minority_waits none (by decide) cut partition divided run s own).1⟩

end RaftInMotion
