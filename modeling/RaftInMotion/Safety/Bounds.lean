/-
This file settles that what `leaderSendHeartbeats` reads is in range. A goroutine reads `nextIndex`
and slices the log after it has been spawned by a leader, and looks neither at the role nor at the
term again. The index is in range as long as the log of the server is not cut in between, and as
long as no leader counts a reply to a request that it built before its log was cut.
-/

import RaftInMotion.Model.Turns

namespace RaftInMotion

open Cluster Execution

variable {n : Nat} {Command : Type}

namespace Raft

variable {rf next : Raft n Command}

/-! ### What the functions do to `nextIndex` -/

/-- The indices stay, the log does not get shorter, and the server does not start to lead. -/
structure Steady (rf next : Raft n Command) : Prop where
  index : next.nextIndex = rf.nextIndex
  grows : rf.log.length ≤ next.log.length
  leads : next.state = .leader → rf.state = .leader

theorem Steady.refl (rf : Raft n Command) : Steady rf rf :=
  ⟨rfl, le_rfl, fun leads => leads⟩

theorem electionTimer_steady {position : Nat} {expired : Bool} {calls : List (VoteCall n)}
    (fired : rf.electionTimer position expired = some (next, calls)) : Steady rf next := by
  unfold electionTimer at fired
  split at fired
  · cases fired
  · cases fired
    exact ⟨rfl, le_rfl, fun leads => leads⟩
  · split_ifs at fired <;> cases fired
    · exact ⟨rfl, le_rfl, fun leads => leads⟩
    · exact ⟨rfl, le_rfl, fun leads => leads⟩
    · exact ⟨rfl, le_rfl, fun leads => by cases leads⟩
    · exact ⟨rfl, le_rfl, fun leads => leads⟩

theorem becomeFollower_steady (rf : Raft n Command) (term : Nat) :
    Steady rf (rf.becomeFollower term) :=
  ⟨rfl, le_rfl, fun leads => by cases leads⟩

theorem requestVote_steady (rf : Raft n Command) (args : RequestVoteArgs n) :
    Steady rf (rf.requestVote args).1 := by
  unfold requestVote meetTerm
  dsimp only
  split_ifs
  all_goals first
    | exact ⟨rfl, le_rfl, fun leads => leads⟩
    | exact ⟨rfl, le_rfl, fun leads => by cases leads⟩

theorem conclude_index (rf : Raft n Command) (votesReceived : Nat) :
    Steady rf (rf.conclude votesReceived) ∨ ∀ peer ∈ rf.peerIds,
      (rf.conclude votesReceived).nextIndex peer = (rf.conclude votesReceived).log.length := by
  unfold conclude
  split_ifs
  · exact Or.inr fun peer isPeer => if_pos isPeer
  · exact Or.inl ⟨rfl, le_rfl, fun leads => leads⟩

/-- An outcome of an election leaves the indices as they are, or the server starts to lead. -/
theorem receiveVote_index (rf : Raft n Command) (call : VoteCall n)
    (outcome : Option RequestVoteReply) : Steady rf (rf.receiveVote call outcome) ∨
      ∀ peer ∈ rf.peerIds, (rf.receiveVote call outcome).nextIndex peer =
        (rf.receiveVote call outcome).log.length := by
  have counted : Steady rf (rf.countReply call
      (rf.elections.getD call.election ⟨0, 0⟩).votesReceived outcome).1 ∧
      (rf.countReply call
        (rf.elections.getD call.election ⟨0, 0⟩).votesReceived outcome).1.peerIds = rf.peerIds := by
    unfold countReply
    split
    · split_ifs
      · exact ⟨Steady.refl rf, rfl⟩
      · exact ⟨becomeFollower_steady rf _, rfl⟩
      · exact ⟨Steady.refl rf, rfl⟩
      · exact ⟨Steady.refl rf, rfl⟩
    · exact ⟨Steady.refl rf, rfl⟩
  obtain ⟨steady, peers⟩ := counted
  unfold receiveVote
  dsimp only
  by_cases last : (rf.elections.getD call.election ⟨0, 0⟩).repliesNeeded - 1 = 0
  · rw [if_pos last]
    rcases conclude_index _ _ with concluded | starts
    · exact Or.inl ⟨concluded.index.trans steady.index, steady.grows.trans concluded.grows,
        fun leads => steady.leads (concluded.leads leads)⟩
    · exact Or.inr (peers ▸ starts)
  · rw [if_neg last]
    exact Or.inl ⟨steady.index, steady.grows, steady.leads⟩

/-- A request to append leaves the indices as they are, or it cuts the log of a follower. -/
theorem appendEntries_index {args : AppendEntriesArgs n Command} {reply : AppendEntriesReply}
    (handled : rf.appendEntries args = some (next, reply)) : Steady rf next ∨
      rf.cuts args = true ∧ next.state = .follower ∧ next.nextIndex = rf.nextIndex := by
  have heeded : Steady rf (rf.heed args.term) := by
    refine ⟨heed_nextIndex rf args.term, (heed_log rf args.term).symm ▸ le_rfl, fun leads => ?_⟩
    rw [heed_state] at leads
    cases leads
  cases appendEntries_outcome handled with
  | dead gone => exact Or.inl (Steady.refl rf)
  | stale alive older _ _ same term fails =>
    rcases same with rfl | rfl <;> exact Or.inl ⟨rfl, le_rfl, fun leads => leads⟩
  | reject alive reached _ term fails => exact Or.inl ⟨heeded.index, heeded.grows, heeded.leads⟩
  | blank alive reached _ term first empty =>
    exact Or.inl ⟨heeded.index, heeded.grows, heeded.leads⟩
  | accept alive reached _ term prevLogIndex position held found same live =>
    have state : ((rf.heed args.term).store args prevLogIndex).state = .follower :=
      (store_state args prevLogIndex).trans (heed_state rf args.term)
    have index : ((rf.heed args.term).store args prevLogIndex).nextIndex = rf.nextIndex :=
      (store_nextIndex args prevLogIndex).trans (heed_nextIndex rf args.term)
    by_cases short : (insertEntries rf.log prevLogIndex args.entries).length < rf.log.length
    · refine Or.inr ⟨?_, state, index⟩
      simp [cuts, alive, reached, position, found, same, short]
    · refine Or.inl ⟨index, ?_, fun leads => ?_⟩
      · rw [persistToStorage_log, store_log, heed_log]
        exact not_lt.mp short
      · rw [persistToStorage_state, state] at leads
        cases leads

theorem lastIndexOfTerm_lt (log : List (LogEntry Command)) (conflictTerm : Int) (position : Nat) :
    lastIndexOfTerm log conflictTerm position < position := by
  induction position with
  | zero => exact Int.negSucc_lt_zero 0
  | succ position inductionHypothesis =>
    unfold lastIndexOfTerm
    split_ifs
    · exact Int.lt_succ _
    · exact inductionHypothesis.trans (Int.lt_succ _)

theorem conflictNext_le {reply : AppendEntriesReply} (index : reply.conflictIndex = 0) :
    rf.conflictNext reply ≤ rf.log.length := by
  have last := lastIndexOfTerm_lt rf.log reply.conflictTerm rf.log.length
  unfold conflictNext
  dsimp only
  rw [index]
  split_ifs <;> omega

/-- The reply to a request to append moves one index of a leader, or none. -/
theorem receiveAppend_index {call : AppendCall n} {nextIndexForPeer : Nat}
    {args : AppendEntriesArgs n Command} {reply : AppendEntriesReply}
    (received : rf.receiveAppend call nextIndexForPeer args reply = some next) : Steady rf next ∨
      ∃ value, rf.state = .leader ∧ next.log = rf.log ∧ call.savedCurrentTerm = reply.term ∧
        next.nextIndex = Function.update rf.nextIndex call.peer value ∧
        (reply.success = true ∧ value = nextIndexForPeer + args.entries.length ∨
          value = rf.conflictNext reply) := by
  unfold receiveAppend at received
  dsimp only at received
  split_ifs at received with newer leads succeeds moves
  · cases received
    exact Or.inl (becomeFollower_steady rf reply.term)
  · unfold notifyCommit at received
    split_ifs at received
    cases received
    exact Or.inr ⟨_, leads.1, rfl, leads.2, rfl, Or.inl ⟨succeeds, rfl⟩⟩
  · cases received
    exact Or.inr ⟨_, leads.1, rfl, leads.2, rfl, Or.inl ⟨succeeds, rfl⟩⟩
  · cases received
    exact Or.inr ⟨_, leads.1, rfl, leads.2, rfl, Or.inr rfl⟩
  · cases received
    exact Or.inl (Steady.refl rf)

/-- A reply of the term of the request gives no index. -/
theorem appendEntries_conflictIndex {args : AppendEntriesArgs n Command}
    {reply : AppendEntriesReply} (handled : rf.appendEntries args = some (next, reply))
    (same : reply.term = args.term) : reply.conflictIndex = 0 := by
  unfold appendEntries at handled
  dsimp only at handled
  split_ifs at handled with gone current
  · cases handled
    rfl
  · unfold appendCurrent at handled
    dsimp only at handled
    generalize (if (rf.meetTerm args.term).state ≠ .follower then
      (rf.meetTerm args.term).becomeFollower args.term
      else rf.meetTerm args.term) = heeded at handled
    split_ifs at handled with first negative more
    · split at handled <;> cases handled <;> rfl
    · split at handled
      · cases handled
        rfl
      · split_ifs at handled
        · obtain ⟨_, -, equal⟩ := Option.bind_eq_some_iff.mp handled
          cases equal
          rfl
        · cases handled
          rfl
    · split at handled
      · cases handled
        rfl
      · split_ifs at handled <;> cases handled <;> rfl
  · obtain ⟨-, term, -⟩ := (rf.meetTerm args.term).appendStale_cases args
    rw [Option.some_inj] at handled
    rw [handled] at term
    exact absurd (same.symm.trans term) current

end Raft

namespace Cluster

variable {c c' : Cluster n Command} {action : Action n Command}

/-! ### Turns -/

/-- What a turn does to `nextIndex` and to the length of the log. -/
inductive Indexes (c : Cluster n Command) (action : Action n Command) (s : Fin n)
    (next : Raft n Command) : Prop
  | steady (steady : Raft.Steady (c.node s) next)
  | cuts (args : AppendEntriesArgs n Command) (handled : c.appendHandled action = some (s, args))
      (cut : (c.node s).cuts args = true) (follows : next.state = .follower)
      (index : next.nextIndex = (c.node s).nextIndex)
  | starts (index : ∀ peer ∈ (c.node s).peerIds, next.nextIndex peer = next.log.length)
  | moves (peer : Fin n) (value : Nat) (leads : (c.node s).state = .leader)
      (log : next.log = (c.node s).log) (within : value ≤ next.log.length)
      (index : next.nextIndex = Function.update (c.node s).nextIndex peer value)

/-- What a goroutine of `leaderSendHeartbeats` carries along. -/
def Proper : Task n Command → Prop
  | .appendSpawned call => call.peer ≠ call.leader
  | .appendSent call _ args => args.term = call.savedCurrentTerm ∧ -1 ≤ args.prevLogIndex
  | .appendReplied call _ args reply =>
    args.term = call.savedCurrentTerm ∧ (reply.term = args.term → reply.conflictIndex = 0)
  | .appendLost _ args => -1 ≤ args.prevLogIndex
  | _ => True

theorem Turn.indexes {s : Fin n} {next : Raft n Command} {events : List (Event n Command)}
    (turn : c.Turn action s next events) (noRestart : c.restartFree action = true)
    (counts : c.excessAck action = false) (proper : ∀ task ∈ c.pool, Proper task) :
    c.Indexes action s next := by
  cases turn with
  | timer fired => exact .steady (Raft.electionTimer_steady fired)
  | handleVote present request => exact .steady (Raft.requestVote_steady _ _)
  | @handleAppend i task _ args _ reply present request handled =>
    rcases Raft.appendEntries_index handled with steady | ⟨cut, follows, index⟩
    · exact .steady steady
    · exact .cuts args (by simp [appendHandled, present, request]) cut follows index
  | @receiveVote _ call outcome received =>
    exact (Raft.receiveVote_index _ call outcome).elim .steady .starts
  | @receiveAppend i call nextIndexForPeer args reply _ present received =>
    rcases Raft.receiveAppend_index received with
      steady | ⟨value, leads, log, own, index, ⟨success, rfl⟩ | rfl⟩
    · exact .steady steady
    · refine .moves call.peer _ leads log ?_ index
      rw [log]
      simpa [excessAck, present, leads, success, own] using counts
    · obtain ⟨term, noIndex⟩ : args.term = call.savedCurrentTerm ∧
          (reply.term = args.term → reply.conflictIndex = 0) :=
        proper _ (List.mem_of_getElem? present)
      refine .moves call.peer _ leads log ?_ index
      rw [log]
      exact Raft.conflictNext_le (noIndex (own.symm.trans term.symm))
  | submit submitted =>
    rcases Raft.submit_cases submitted with ⟨rfl, -, -⟩ | ⟨rfl, -, -⟩
    · exact .steady (Raft.Steady.refl _)
    · exact .steady ⟨rfl, by simp, fun leads => leads⟩
  | leaderLoop turned =>
    unfold Raft.leaderLoop at turned
    split at turned
    · cases turned
    · cases turned
      exact .steady ⟨rfl, le_rfl, fun leads => leads⟩
    · split_ifs at turned <;> cases turned <;> exact .steady ⟨rfl, le_rfl, fun leads => leads⟩
  | leaderLoopClosed ended =>
    unfold Raft.leaderLoopClosed at ended
    split_ifs at ended
    cases ended
    exact .steady ⟨rfl, le_rfl, fun leads => leads⟩
  | takeReady taken =>
    rcases Raft.takeReady_cases taken with ⟨-, rfl⟩ | ⟨-, -, rfl⟩ <;>
      exact .steady ⟨rfl, le_rfl, fun leads => leads⟩
  | sendReady sent =>
    obtain ⟨rest, -, rfl⟩ := Raft.sendReady_cases sent
    exact .steady ⟨rfl, le_rfl, fun leads => leads⟩
  | kill killed =>
    rcases Raft.kill_cases killed with ⟨-, rfl⟩ | ⟨-, rfl⟩
    · exact .steady (Raft.Steady.refl _)
    · exact .steady ⟨rfl, le_rfl, fun leads => by cases leads⟩
  | restart closed made => cases noRestart
  | _ => exact .steady (Raft.Steady.refl _)

/-! ### Runs -/

/-- The server has a goroutine that has still to build its request to the peer. -/
def Pending (c : Cluster n Command) (s peer : Fin n) : Prop :=
  ∃ call, .appendSpawned call ∈ c.pool ∧ call.leader = s ∧ call.peer = peer

/-- What is read of `nextIndex` now or after the leader's next turn is within the log. -/
structure Bounded (c : Cluster n Command) : Prop where
  named : ∀ s, (c.node s).id = s
  proper : ∀ task ∈ c.pool, Proper task
  within : ∀ s peer, peer ≠ s → (c.node s).state = .leader ∨ c.Pending s peer →
    (c.node s).nextIndex peer ≤ (c.node s).log.length

theorem bounded_start (preload : Option (Preload Command)) : Bounded (start n preload) := by
  refine ⟨fun s => rfl, List.forall_mem_nil _, ?_⟩
  rintro s peer - (leads | ⟨call, member, -, -⟩)
  · cases leads
  · cases member

theorem Born.proper {task : Task n Command} (born : c.Born action task)
    (proper : ∀ task ∈ c.pool, Proper task) : Proper task := by
  cases born with
  | @appendSpawned s position next calls call turned member =>
    obtain ⟨-, -, none | all⟩ := Raft.leaderLoop_cases turned
    · rw [none] at member
      cases member
    · rw [all] at member
      obtain ⟨-, leader, other, -⟩ := Raft.mem_leaderSendHeartbeats member
      exact fun same => other (same.trans leader)
  | @appendSent i call built present isBuilt =>
    obtain ⟨-, term, -, position, -, -⟩ := Raft.appendEntriesArgs_fields isBuilt
    refine ⟨term, ?_⟩
    rw [position]
    omega
  | @appendReplied i call nextIndexForPeer args next reply present handled =>
    obtain ⟨term, -⟩ : args.term = call.savedCurrentTerm ∧ -1 ≤ args.prevLogIndex :=
      proper _ (List.mem_of_getElem? present)
    exact ⟨term, Raft.appendEntries_conflictIndex handled⟩
  | @orphan action task member =>
    have old := proper task member
    cases task with
    | appendSent call nextIndexForPeer args => exact old.2
    | appendLost peer args => exact old
    | _ => exact trivial
  | _ => exact trivial

/-- A goroutine that is new has been spawned by a leader. -/
theorem Pending.step {s peer : Fin n} (named : ∀ s, (c.node s).id = s)
    (taken : c.step action = some c') (pending : c'.Pending s peer) :
    c.Pending s peer ∨
      (c.node s).state = .leader ∧ ∃ position, action = .leaderLoop s position := by
  obtain ⟨call, member, rfl, rfl⟩ := pending
  rcases step_born taken _ member with old | born
  · exact Or.inl ⟨call, old, rfl, rfl⟩
  · generalize isTask : Task.appendSpawned call = task at born
    cases born with
    | @appendSpawned s position next calls call' turned member =>
      cases isTask
      obtain ⟨-, -, none | all⟩ := Raft.leaderLoop_cases turned
      · rw [none] at member
        cases member
      · rw [all] at member
        obtain ⟨leads, leader, -, -⟩ := Raft.mem_leaderSendHeartbeats member
        rw [named] at leader
        subst leader
        exact Or.inr ⟨leads, position, rfl⟩
    | @orphan action task member => cases task <;> cases isTask
    | _ => cases isTask

theorem Bounded.step (bounded : Bounded c) (safe : c.safeReads action = true)
    (taken : c.step action = some c') : Bounded c' := by
  obtain ⟨⟨noRestart, keeps⟩, counts⟩ : (c.restartFree action = true ∧
      c.cutsReader action = false) ∧ c.excessAck action = false := by simpa [safeReads] using safe
  obtain ⟨s, next, events, turn, nodes, -⟩ := step_turn taken
  have indexes := turn.indexes noRestart counts bounded.proper
  refine ⟨?_, ?_, ?_⟩
  · exact forall_turned (P := fun p rf => rf.id = p) nodes (turn.named (bounded.named s))
      fun p _ => bounded.named p
  · intro task member
    exact (step_born taken task member).elim (bounded.proper task)
      fun born => born.proper bounded.proper
  · refine forall_turned (P := fun p rf => ∀ peer, peer ≠ p →
      rf.state = .leader ∨ c'.Pending p peer → rf.nextIndex peer ≤ rf.log.length) nodes ?_ ?_
    · intro peer other reads
      cases indexes with
      | steady steady =>
        refine (steady.index ▸ bounded.within s peer other ?_).trans steady.grows
        refine reads.elim (fun leads => Or.inl (steady.leads leads)) fun pending => ?_
        exact (pending.step bounded.named taken).elim Or.inr fun leads => Or.inl leads.1
      | cuts args handled cut follows index =>
        -- The server follows, and a goroutine that reads would have been there before the cut.
        rcases reads with leads | pending
        · rw [follows] at leads
          cases leads
        · rcases pending.step bounded.named taken with ⟨call, member, leader, -⟩ | ⟨-, _, rfl⟩
          · have reader : c.pool.any (Task.unbuilt s) = true :=
              List.any_eq_true.mpr ⟨_, member, decide_eq_true leader⟩
            simp [cutsReader, handled, cut, reader] at keeps
          · cases handled
      | starts index =>
        exact (index peer (Raft.mem_peerIds.mpr (by rwa [bounded.named s]))).le
      | moves peer' value leads log within index =>
        rw [index, Function.update_apply]
        split_ifs
        · exact within
        · exact log ▸ bounded.within s peer other (Or.inl leads)
    · intro p _ peer other reads
      refine bounded.within p peer other (reads.elim Or.inl fun pending => ?_)
      exact (pending.step bounded.named taken).elim Or.inr fun leads => Or.inl leads.1

/-- What a goroutine of `leaderSendHeartbeats` is about to read is in range, and so is what the
handler of any request reads. -/
structure InBounds (c : Cluster n Command) : Prop where
  reads : ∀ call, .appendSpawned call ∈ c.pool →
    (c.node call.leader).nextIndex call.peer ≤ (c.node call.leader).log.length
  sends : ∀ task ∈ c.pool, ∀ peer args, task.appendRequest = some (peer, args) →
    -1 ≤ args.prevLogIndex ∧
      ∀ rf : Raft n Command, rf.chansClosed = false → (rf.appendEntries args).isSome = true

theorem not_inBounds_of_beyond {i : ℕ} {call : AppendCall n}
    (pending : c.pool[i]? = some (.appendSpawned call))
    (beyond : (c.node call.leader).log.length < (c.node call.leader).nextIndex call.peer) :
    ¬InBounds c := fun bounds =>
  absurd (bounds.reads call (List.mem_of_getElem? pending)) (not_le.mpr beyond)

theorem Bounded.inBounds (bounded : Bounded c) : InBounds c := by
  refine ⟨fun call member => ?_, fun task member peer args request => ?_⟩
  · exact bounded.within _ _ (bounded.proper _ member) (Or.inr ⟨call, member, rfl, rfl⟩)
  · have inRange : -1 ≤ args.prevLogIndex := by
      have proper := bounded.proper task member
      cases task with
      | appendSent call nextIndexForPeer args' =>
        cases request
        exact proper.2
      | appendLost peer' args' =>
        cases request
        exact proper
      | _ => cases request
    exact ⟨inRange, fun rf opened => Raft.appendEntries_isSome opened inRange⟩

end Cluster

theorem in_bounds (preload : Option (Preload Command)) (actions : List (Action n Command))
    {c : Cluster n Command} (taken : run preload actions = some c)
    (safe : along step safeReads (start n preload) actions = true) : InBounds c :=
  (execute_invariant Bounded (fun _ _ _ bounded allowed stepped => bounded.step allowed stepped)
    (bounded_start preload) safe taken).inBounds

theorem in_bounds_replicated : ∃ c, run (some seeded) replication = some c ∧ InBounds c := by
  obtain ⟨c, taken⟩ := Option.isSome_iff_exists.mp
    (by decide +kernel : (run (some seeded) replication).isSome = true)
  exact ⟨c, taken, in_bounds (some seeded) replication taken (by decide +kernel)⟩

/-- Server 0 leads with three entries and spawns its goroutines. Before they run, server 2 wins the
next term with the vote of server 1 and makes server 0 replace its last two entries by one. -/
def deposition : List (Action 3 ℕ) :=
  [timeout s₀ 0, roundTrip 0, roundTrip 1, [.submit s₀ 7, .submit s₀ 8], timeout s₁ 0,
    [.send 2, .handle 2], timeout s₀ 1, roundTrip 4, roundTrip 5, [.leaderLoop s₀ 1],
    timeout s₂ 0, roundTrip 8, roundTrip 9, [.submit s₂ 9, .leaderLoop s₂ 0, .send 10,
    .handle 10]].flatten

/-- The same from empty storages: servers 0 and 2 both lead term 2, and server 2 has won term 3 when
it makes server 0 replace entries. -/
def usurpation : List (Action 3 ℕ) :=
  [timeout s₀ 0, [.send 0, .send 1, .handle 0, .handle 1, .finish 0], timeout s₀ 0, timeout s₂ 0,
    roundTrip 5, roundTrip 4, [.finish 1, .submit s₀ 7, .submit s₀ 8, .submit s₀ 5,
    .leaderLoop s₀ 0], roundTrip 6, [.leaderLoop s₀ 0, .leaderLoop s₀ 0, .submit s₂ 9, .send 7,
    .handle 7], timeout s₂ 0, roundTrip 10, roundTrip 11, [.submit s₂ 6, .leaderLoop s₂ 1,
    .send 12, .handle 12]].flatten

theorem in_bounds_fails :
    (∃ c, run none usurpation = some c ∧ c.step (.send 8) = none ∧ ¬ InBounds c) ∧
    ∃ c, run (some seeded) deposition = some c ∧
      along step safeDelivery (start 3 (some seeded)) deposition = true ∧
      c.step (.send 6) = none ∧ ¬ InBounds c := by
  constructor
  · obtain ⟨c, taken, holds⟩ := (Option.any_eq_true _ _).mp (by decide +kernel :
      (run none usurpation).any (fun c => decide ((c.step (.send 8)).isNone = true ∧
        c.pool[8]? = some (.appendSpawned ⟨s₀, s₁, 2⟩) ∧
        (c.node s₀).log.length < (c.node s₀).nextIndex s₁)) = true)
    obtain ⟨panics, pending, beyond⟩ := of_decide_eq_true holds
    exact ⟨c, taken, Option.isNone_iff_eq_none.mp panics, not_inBounds_of_beyond pending beyond⟩
  · obtain ⟨c, taken, holds⟩ := (Option.any_eq_true _ _).mp (by decide +kernel :
      (run (some seeded) deposition).any (fun c => decide ((c.step (.send 6)).isNone = true ∧
        c.pool[6]? = some (.appendSpawned ⟨s₀, s₁, 4⟩) ∧
        (c.node s₀).log.length < (c.node s₀).nextIndex s₁)) = true)
    obtain ⟨panics, pending, beyond⟩ := of_decide_eq_true holds
    exact ⟨c, taken, by decide +kernel, Option.isNone_iff_eq_none.mp panics,
      not_inBounds_of_beyond pending beyond⟩

end RaftInMotion
