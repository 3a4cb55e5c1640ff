/-
This file settles whether the `matchIndex` of a leader can go back. Each success sets it to the
end of the request it answers, whatever has been counted in the meantime; so it goes back when
the reply to a request is overtaken by the reply to a later and longer one, which may be of a
later leadership of the server. The condition on runs is exact, and it holds of every cluster,
reached from a start or not.
-/

import RaftInMotion.Model.Turns

namespace RaftInMotion

open Cluster Execution

variable {n : Nat} {Command : Type}

namespace Raft

variable {rf next : Raft n Command}

theorem requestVote_matchIndex (args : RequestVoteArgs n) :
    (rf.requestVote args).1.matchIndex = rf.matchIndex := by
  unfold requestVote meetTerm
  dsimp only
  split_ifs <;> rfl

theorem appendEntries_matchIndex {args : AppendEntriesArgs n Command} {reply : AppendEntriesReply}
    (handled : rf.appendEntries args = some (next, reply)) : next.matchIndex = rf.matchIndex := by
  have heeds : (rf.heed args.term).matchIndex = rf.matchIndex := by
    unfold heed
    split_ifs <;> rfl
  cases appendEntries_outcome handled with
  | dead gone => rfl
  | stale alive older _ _ same term fails => rcases same with rfl | rfl <;> rfl
  | reject alive reached _ term fails => exact heeds
  | blank alive reached _ term first empty => exact heeds
  | accept alive reached _ term prevLogIndex position held found same live =>
    unfold store
    dsimp only
    split_ifs <;> exact heeds

/-- An acknowledgement of a term that the leader has not passed is counted, and leaves it in its
role. -/
theorem receiveAppend_counts {call : AppendCall n} {nextIndexForPeer : Nat}
    {args : AppendEntriesArgs n Command} {reply : AppendEntriesReply}
    (received : rf.receiveAppend call nextIndexForPeer args reply = some next)
    (reached : reply.term ≤ rf.currentTerm) (leads : rf.state = .leader)
    (saved : call.savedCurrentTerm = reply.term) (succeeds : reply.success = true) :
    next.state = .leader ∧ next.currentTerm = rf.currentTerm ∧
      next.matchIndex = Function.update rf.matchIndex call.peer
        ((nextIndexForPeer + args.entries.length : Nat) - 1) := by
  unfold receiveAppend at received
  rw [if_neg (not_lt.mpr reached), if_pos ⟨leads, saved⟩, if_pos succeeds] at received
  dsimp only at received
  split_ifs at received with moves
  · unfold notifyCommit at received
    split_ifs at received
    cases received
    exact ⟨leads, rfl, rfl⟩
  · cases received
    exact ⟨leads, rfl, rfl⟩

/-- The server leads the term. -/
structure Leads (rf : Raft n Command) (term : Nat) : Prop where
  state : rf.state = .leader
  currentTerm : rf.currentTerm = term

end Raft

namespace Cluster

variable {c c' : Cluster n Command} {action : Action n Command}

/-- The action brings the leader a reply that it counts, to a request that ends before the index. -/
def Counted (c : Cluster n Command) (action : Action n Command) (s peer : Fin n) (next : Nat) :
    Prop :=
  ∃ i call nextIndexForPeer args reply, action = .finish i ∧
    c.pool[i]? = some (.appendReplied call nextIndexForPeer args reply) ∧ call.leader = s ∧
    call.peer = peer ∧ reply.term ≤ (c.node s).currentTerm ∧ reply.success = true ∧
    call.savedCurrentTerm = reply.term ∧ next = nextIndexForPeer + args.entries.length

/-- What a leader that goes on leading knows of its peers changes by replies only. -/
theorem Turn.counts {s : Fin n} {next : Raft n Command} {events : List (Event n Command)}
    (turn : c.Turn action s next events) (leads : (c.node s).state = .leader)
    (stays : next.state = .leader) :
    next.matchIndex = (c.node s).matchIndex ∨ ∃ peer index, Counted c action s peer index ∧
      next.matchIndex = Function.update (c.node s).matchIndex peer ((index : Int) - 1) := by
  have ofCore : next.core = (c.node s).core → next.matchIndex = (c.node s).matchIndex :=
    fun core => (congrArg Raft.matchIndex core :)
  cases turn with
  | timer fired =>
    rcases Raft.electionTimer_cases fired with ⟨core, -, -⟩ | ⟨runs | follows, -⟩
    · exact Or.inl (ofCore core)
    · cases runs.symm.trans leads
    · cases follows.symm.trans leads
  | handleVote present request => exact Or.inl (Raft.requestVote_matchIndex _)
  | handleAppend present request handled => exact Or.inl (Raft.appendEntries_matchIndex handled)
  | @receiveVote _ call outcome received =>
    have notCandidate : (c.node call.candidate).state ≠ .candidate := by simp [leads]
    have down : outcome.any ((c.node call.candidate).stepsDown call) = false := by
      cases outcome <;> simp [Raft.stepsDown, leads]
    have core := Raft.receiveVote_of_stays down
    rw [if_neg fun wins => notCandidate ((Raft.wins_iff down).mp wins).1] at core
    exact Or.inl (ofCore core)
  | @receiveAppend i call nextIndexForPeer args reply _ present received =>
    rcases Raft.receiveAppend_cases received with ⟨-, rfl⟩ | ⟨-, core, -⟩ |
      ⟨reached, -, saved, succeeds, _, _, rfl, rfl, -⟩
    · cases stays
    · exact Or.inl (ofCore core)
    · exact Or.inr ⟨call.peer, _, ⟨i, call, nextIndexForPeer, args, reply, rfl, present, rfl, rfl,
        reached, succeeds, saved, rfl⟩, rfl⟩
  | submit submitted =>
    rcases Raft.submit_cases submitted with ⟨rfl, -, -⟩ | ⟨rfl, -, -⟩ <;> exact Or.inl rfl
  | leaderLoop turned => exact Or.inl (ofCore (Raft.leaderLoop_cases turned).1)
  | leaderLoopClosed ended => exact Or.inl (ofCore (Raft.leaderLoopClosed_cases ended).1)
  | takeReady taken =>
    rcases Raft.takeReady_cases taken with ⟨-, rfl⟩ | ⟨-, -, rfl⟩ <;> exact Or.inl rfl
  | sendReady sent =>
    obtain ⟨rest, -, rfl⟩ := Raft.sendReady_cases sent
    exact Or.inl rfl
  | kill killed =>
    rcases Raft.kill_cases killed with ⟨-, rfl⟩ | ⟨-, rfl⟩ <;> exact Or.inl rfl
  | restart closed made => cases (Raft.make_cases made).2.1.symm.trans stays
  | _ => exact Or.inl rfl

/-- A counted reply that is not overtaken ends no earlier than what is known of the peer. -/
theorem Counted.forward {s peer : Fin n} {next : Nat} (counted : Counted c action s peer next)
    (leads : (c.node s).state = .leader) (inOrder : c.overtakenAck action = false) :
    (c.node s).matchIndex peer ≤ (next : Int) - 1 := by
  obtain ⟨i, call, nextIndexForPeer, args, reply, rfl, present, rfl, rfl, reached, succeeds, saved,
    rfl⟩ := counted
  have ends : (c.node call.leader).matchIndex call.peer <
      (nextIndexForPeer : Int) + args.entries.length := by
    simpa [overtakenAck, present, leads, reached, succeeds, saved] using inOrder
  push_cast
  omega

theorem step_matchForward (taken : c.step action = some c')
    (inOrder : c.overtakenAck action = false) {s : Fin n} {term : Nat}
    (leads : (c.node s).Leads term) (stays : (c'.node s).Leads term) (peer : Fin n) :
    (c.node s).matchIndex peer ≤ (c'.node s).matchIndex peer := by
  obtain ⟨p, next, events, turn, nodes, -⟩ := step_turn taken
  rw [nodes, Function.update_apply] at stays ⊢
  split_ifs at stays ⊢ with moved
  · subst moved
    rcases turn.counts leads.state stays.state with same | ⟨peer', index, counted, matched⟩
    · exact (congrFun same peer).ge
    · rw [matched, Function.update_apply]
      split_ifs with answered
      · exact answered ▸ counted.forward leads.state inOrder
      · exact le_rfl
  · exact le_rfl

/-- An overtaken reply takes `matchIndex` back, while the server goes on leading its term. -/
theorem step_matchBack (taken : c.step action = some c')
    (overtaken : c.overtakenAck action = true) :
    ∃ s peer, (c.node s).Leads (c.node s).currentTerm ∧
      (c'.node s).Leads (c.node s).currentTerm ∧
      (c'.node s).matchIndex peer < (c.node s).matchIndex peer := by
  cases action with
  | finish i =>
    simp only [overtakenAck] at overtaken
    split at overtaken
    · next call nextIndexForPeer args reply present =>
      simp only [Bool.and_eq_true, decide_eq_true_eq] at overtaken
      obtain ⟨⟨⟨⟨leads, reached⟩, succeeds⟩, saved⟩, ends⟩ := overtaken
      simp only [step, finish, present, finishAppend] at taken
      obtain ⟨moved, isMoved, rfl⟩ := Option.map_eq_some_iff.mp taken
      obtain ⟨next, received, rfl⟩ := Option.map_eq_some_iff.mp isMoved
      refine ⟨call.leader, call.peer, ⟨leads, rfl⟩, ?_⟩
      obtain ⟨state, term, matched⟩ :=
        Raft.receiveAppend_counts received reached leads saved succeeds
      simp only [settle, act, Function.update_self]
      refine ⟨⟨state, term⟩, ?_⟩
      rw [matched, Function.update_self]
      push_cast
      omega
    · cases overtaken
  | _ => cases overtaken

end Cluster

/-! ### Runs -/

variable {c c' : Cluster n Command}

/-- While a server leads one term, what it knows of its peers does not go back, from any state of
the run to any later one. -/
def MatchForward (c : Cluster n Command) (actions : List (Action n Command)) : Prop :=
  ∀ first second rest middle final, actions = first ++ second ++ rest →
    execute step c first = some middle → execute step middle second = some final →
    ∀ s term, (∀ between, Visits step middle second between → (between.node s).Leads term) →
      ∀ peer, (middle.node s).matchIndex peer ≤ (final.node s).matchIndex peer

theorem matchIndex_forward {actions : List (Action n Command)}
    (inOrder : along step (fun c action => !c.overtakenAck action) c actions = true)
    (taken : execute step c actions = some c') {s : Fin n} {term : Nat}
    (leads : ∀ between, Visits step c actions between → (between.node s).Leads term)
    (peer : Fin n) : (c.node s).matchIndex peer ≤ (c'.node s).matchIndex peer := by
  induction actions generalizing c with
  | nil =>
    obtain rfl : c = c' := by simpa [execute] using taken
    exact le_rfl
  | cons action rest inductionHypothesis =>
    obtain ⟨next, moved, taken⟩ := execute_cons.mp taken
    obtain ⟨here, later⟩ := along_cons moved inOrder
    have before : (c.node s).Leads term := leads c ⟨[], action :: rest, rfl, rfl⟩
    have after : (next.node s).Leads term :=
      leads next ⟨[action], rest, rfl, execute_cons.mpr ⟨next, moved, rfl⟩⟩
    refine (step_matchForward moved (by simpa using here) before after peer).trans
      (inductionHypothesis later taken ?_)
    rintro between ⟨first, last, rfl, run⟩
    exact leads between ⟨action :: first, last, rfl, execute_cons.mpr ⟨next, moved, run⟩⟩

/-- The property of a run bounds what one of its steps does. -/
theorem MatchForward.step {first rest : List (Action n Command)} {action : Action n Command}
    {middle next : Cluster n Command} (forward : MatchForward c (first ++ action :: rest))
    (before : execute Cluster.step c first = some middle) (moved : middle.step action = some next)
    {s : Fin n} {term : Nat} (leads : (middle.node s).Leads term)
    (stays : (next.node s).Leads term) (peer : Fin n) :
    (middle.node s).matchIndex peer ≤ (next.node s).matchIndex peer := by
  refine forward first [action] rest middle next (by simp) before
    (execute_cons.mpr ⟨next, moved, rfl⟩) s term (fun between visits => ?_) peer
  rcases visits_one moved visits with rfl | rfl
  · exact leads
  · exact stays

theorem MatchForward.along {actions : List (Action n Command)} (forward : MatchForward c actions)
    (taken : execute Cluster.step c actions = some c') :
    along Cluster.step (fun c action => !c.overtakenAck action) c actions = true := by
  refine along_iff.mpr ?_
  rintro first action rest middle rfl before
  by_contra overtaken
  obtain ⟨_, same, after⟩ := execute_append.mp taken
  obtain rfl := Option.some_inj.mp (before.symm.trans same)
  obtain ⟨next, moved, -⟩ := execute_cons.mp after
  obtain ⟨s, peer, leads, stays, back⟩ := step_matchBack moved (by simpa using overtaken)
  exact not_le.mpr back (forward.step before moved leads stays peer)

theorem match_forward_iff (actions : List (Action n Command))
    (taken : execute step c actions = some c') :
    MatchForward c actions ↔
      along step (fun c action => !c.overtakenAck action) c actions = true := by
  constructor
  · exact fun forward => forward.along taken
  · rintro inOrder first second rest middle final rfl before after s term leads
    rw [List.append_assoc] at inOrder
    exact matchIndex_forward (along_append after (along_append before inOrder).2).1 after leads

theorem match_forward_replicated :
    MatchForward (start 3 (some seeded)) replication := by
  obtain ⟨c, taken⟩ := Option.isSome_iff_exists.mp
    (by decide +kernel : (run (some seeded) replication).isSome = true)
  exact (match_forward_iff replication taken).mpr (by decide +kernel)

/-- Two requests of server 0 are on their way to server 1, the second with one more command. The
reply to the second comes first. -/
def overlapping : List (Action 3 ℕ) :=
  [election, [.submit s₀ 7, .leaderLoop s₀ 0, .send 2, .handle 2, .submit s₀ 8, .leaderLoop s₀ 0,
    .leaderLoop s₀ 0], roundTrip 4].flatten

/-- A request of server 0 in term 2 is answered while server 1 starts an election. Server 0 leads
again in term 4 and has replicated a command when the reply comes. -/
def leadingAgain : List (Action 3 ℕ) :=
  [election, [.leaderLoop s₀ 0, .send 2, .handle 2], timeout s₁ 0, [.send 4, .handle 4],
    timeout s₀ 0, roundTrip 6, roundTrip 7, [.submit s₀ 7, .leaderLoop s₀ 1], roundTrip 8].flatten

/-- What server 0 knows of server 1 goes back in the step, while it leads one term. -/
def goesBack (c : Cluster 3 ℕ) (action : Action 3 ℕ) : Bool :=
  (c.step action).any fun next =>
    (c.node s₀).state = .leader && (next.node s₀).state = .leader &&
      (next.node s₀).currentTerm = (c.node s₀).currentTerm &&
      (next.node s₀).matchIndex s₁ < (c.node s₀).matchIndex s₁

theorem not_matchForward {c : Cluster 3 ℕ} {actions : List (Action 3 ℕ)} {action : Action 3 ℕ}
    (back : (execute step c actions).any (goesBack · action) = true) :
    ¬ MatchForward c (actions ++ [action]) := by
  obtain ⟨middle, before, back⟩ := (Option.any_eq_true _ _).mp back
  obtain ⟨next, moved, lower⟩ := (Option.any_eq_true _ _).mp back
  simp only [Bool.and_eq_true, decide_eq_true_eq] at lower
  obtain ⟨⟨⟨leads, stays⟩, term⟩, lower⟩ := lower
  exact fun forward => absurd (forward.step before moved ⟨leads, rfl⟩ ⟨stays, term⟩ s₁)
    (not_le.mpr lower)

theorem match_forward_fails :
    ¬ MatchForward (start 3 none) (overlapping ++ [.finish 2]) ∧
      ¬ MatchForward (start 3 (some seeded)) (leadingAgain ++ [.finish 2]) :=
  ⟨not_matchForward (by decide +kernel), not_matchForward (by decide +kernel)⟩

end RaftInMotion
