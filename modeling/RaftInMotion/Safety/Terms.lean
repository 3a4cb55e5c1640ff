/-
This file settles whether terms can go back. Every assignment to `currentTerm` but one compares
the new term with the current one. The exception is the reply to a call of `startElection`,
which is compared with the term of its election: a candidate that has started over since then
can be thrown back to a term between the two. The condition on runs is exact.
-/

import RaftInMotion.Model.Turns

namespace RaftInMotion

open Cluster Execution

variable {n : Nat} {Command : Type}

namespace Raft

variable {rf next : Raft n Command}

theorem meetTerm_forward (rf : Raft n Command) (term : Nat) :
    rf.currentTerm ≤ (rf.meetTerm term).currentTerm := by
  unfold meetTerm
  split_ifs with newer
  · exact newer.le
  · exact le_rfl

theorem requestVote_forward (args : RequestVoteArgs n) :
    rf.currentTerm ≤ (rf.requestVote args).1.currentTerm := by
  by_cases alive : rf.state = .dead
  · rw [requestVote_of_dead args alive]
  · have forward := meetTerm_forward rf args.term
    rcases requestVote_cases args alive with refused | ⟨-, -, -, granted⟩
    · rw [refused]
      exact forward
    · rw [granted]
      exact forward

theorem appendEntries_forward {args : AppendEntriesArgs n Command} {reply : AppendEntriesReply}
    (handled : rf.appendEntries args = some (next, reply)) :
    rf.currentTerm ≤ next.currentTerm ∧ reply.term ≤ next.currentTerm := by
  cases appendEntries_outcome handled with
  | dead gone => exact ⟨le_rfl, Nat.zero_le _⟩
  | stale alive older _ _ same term fails => rcases same with rfl | rfl <;> exact ⟨le_rfl, term.le⟩
  | reject alive reached _ term fails =>
    rw [persistToStorage_currentTerm, heed_currentTerm reached]
    exact ⟨reached, term.le⟩
  | blank alive reached _ term first empty =>
    rw [persistToStorage_currentTerm, heed_currentTerm reached]
    exact ⟨reached, term.le⟩
  | accept alive reached _ term prevLogIndex position held found same live =>
    rw [persistToStorage_currentTerm, store_currentTerm, heed_currentTerm reached]
    exact ⟨reached, term.le⟩

theorem receiveAppend_forward {call : AppendCall n} {nextIndexForPeer : Nat}
    {args : AppendEntriesArgs n Command} {reply : AppendEntriesReply}
    (received : rf.receiveAppend call nextIndexForPeer args reply = some next) :
    rf.currentTerm ≤ next.currentTerm := by
  rcases receiveAppend_cases received with ⟨newer, rfl⟩ | ⟨-, core, -⟩ |
    ⟨-, -, -, -, _, _, rfl, rfl, -⟩
  · exact newer.le
  · exact (congrArg Raft.currentTerm core).ge
  · exact le_rfl

end Raft

variable {c c' : Cluster n Command} {action : Action n Command}

/-- A server that takes its turn does not go back, unless a reply to an earlier election makes it
step down. -/
theorem Cluster.Turn.forward_or {s : Fin n} {next : Raft n Command}
    {events : List (Event n Command)} (turn : c.Turn action s next events)
    (noRestart : c.restartFree action = true) :
    (c.node s).currentTerm ≤ next.currentTerm ∨ ∃ call reply,
      c.voteOutcome action = some (call, some reply) ∧ call.candidate = s ∧
        (c.node s).stepsDown call reply = true ∧ next.currentTerm = reply.term := by
  cases turn with
  | timer fired =>
    rcases Raft.electionTimer_cases fired with ⟨core, -, -⟩ | ⟨-, core, -, -⟩
    · exact Or.inl (congrArg Raft.currentTerm core).ge
    · exact Or.inl ((Nat.le_succ _).trans (congrArg Raft.currentTerm core).ge)
  | handleVote present request => exact Or.inl (Raft.requestVote_forward _)
  | handleAppend present request handled => exact Or.inl (Raft.appendEntries_forward handled).1
  | @receiveVote _ call outcome received =>
    by_cases down : outcome.any ((c.node call.candidate).stepsDown call) = false
    · have core := Raft.receiveVote_of_stays down
      split_ifs at core
      · exact Or.inl (congrArg Raft.currentTerm core).ge
      · exact Or.inl (congrArg Raft.currentTerm core).ge
    · obtain ⟨reply, rfl, isDown⟩ := (Option.any_eq_true _ _).mp (by simpa using down)
      exact Or.inr ⟨call, reply, received, rfl, isDown,
        congrArg Raft.currentTerm (Raft.receiveVote_of_stepsDown isDown)⟩
  | receiveAppend present received => exact Or.inl (Raft.receiveAppend_forward received)
  | submit submitted =>
    rcases Raft.submit_cases submitted with ⟨rfl, -, -⟩ | ⟨rfl, -, -⟩ <;> exact Or.inl le_rfl
  | leaderLoop turned =>
    exact Or.inl (congrArg Raft.currentTerm (Raft.leaderLoop_cases turned).1).ge
  | leaderLoopClosed ended =>
    exact Or.inl (congrArg Raft.currentTerm (Raft.leaderLoopClosed_cases ended).1).ge
  | takeReady taken =>
    rcases Raft.takeReady_cases taken with ⟨-, rfl⟩ | ⟨-, -, rfl⟩ <;> exact Or.inl le_rfl
  | sendReady sent =>
    obtain ⟨rest, -, rfl⟩ := Raft.sendReady_cases sent
    exact Or.inl le_rfl
  | kill killed =>
    rcases Raft.kill_cases killed with ⟨-, rfl⟩ | ⟨-, rfl⟩ <;> exact Or.inl le_rfl
  | restart closed made => cases noRestart
  | _ => exact Or.inl le_rfl

theorem Cluster.Turn.forward {s : Fin n} {next : Raft n Command} {events : List (Event n Command)}
    (turn : c.Turn action s next events) (noRestart : c.restartFree action = true)
    (stays : c.staleStepDown action = false) : (c.node s).currentTerm ≤ next.currentTerm := by
  rcases turn.forward_or noRestart with forward | ⟨call, reply, received, rfl, down, term⟩
  · exact forward
  · rw [term]
    simpa [staleStepDown, received, down] using stays

theorem step_forward (taken : c.step action = some c') (noRestart : c.restartFree action = true)
    (stays : c.staleStepDown action = false) (s : Fin n) :
    (c.node s).currentTerm ≤ (c'.node s).currentTerm := by
  obtain ⟨p, next, events, turn, nodes, -⟩ := step_turn taken
  rw [nodes, Function.update_apply]
  split_ifs with moved
  · exact moved ▸ turn.forward noRestart stays
  · exact le_rfl

/-- A stale reply that makes a candidate step down takes it to a lower term. -/
theorem step_backward (stale : c.staleStepDown action = true) : ∃ c' s,
    c.step action = some c' ∧ (c'.node s).currentTerm < (c.node s).currentTerm := by
  unfold staleStepDown at stale
  split at stale
  · next call reply received =>
    obtain ⟨down, lower⟩ := Bool.and_eq_true_iff.mp stale
    obtain ⟨c', taken, moved⟩ := step_voteOutcome received
    refine ⟨c', call.candidate, taken, ?_⟩
    have term := congrArg Raft.currentTerm (Raft.receiveVote_of_stepsDown down)
    simp only [Raft.core_currentTerm, Raft.becomeFollower_currentTerm] at term
    rw [moved, term]
    exact of_decide_eq_true lower
  · cases stale

/-! ### Runs -/

/-- From any state of the run to any later one, no server goes back to a lower term. -/
def TermsForward (c : Cluster n Command) (actions : List (Action n Command)) : Prop :=
  throughout step (fun c c' => ∀ s, (c.node s).currentTerm ≤ (c'.node s).currentTerm) c actions

theorem termsForward_of_along {actions : List (Action n Command)}
    (noRestart : along step restartFree c actions = true)
    (stays : along step (fun c action => !c.staleStepDown action) c actions = true) :
    TermsForward c actions := by
  refine throughout_of_preserved (fun _ => True) _ (fun c _ s => le_rfl)
    (fun _ _ _ forward forward' s => (forward s).trans (forward' s))
    (fun c action c' _ allowed taken => ⟨trivial, ?_⟩) trivial (along_and.mpr ⟨noRestart, stays⟩)
  obtain ⟨restartFree, notStale⟩ := Bool.and_eq_true_iff.mp allowed
  exact step_forward taken restartFree (by simpa using notStale)

theorem TermsForward.along {actions : List (Action n Command)} (forward : TermsForward c actions) :
    along step (fun c action => !c.staleStepDown action) c actions = true := by
  refine along_iff.mpr ?_
  rintro first action rest middle rfl before
  by_contra stale
  obtain ⟨final, s, taken, lower⟩ := step_backward (c := middle) (by simpa using stale)
  have higher := forward first [action] rest middle final (by simp) before
    (execute_cons.mpr ⟨final, taken, rfl⟩) s
  omega

theorem terms_forward_iff (preload : Option (Preload Command)) (actions : List (Action n Command))
    (noRestart : Execution.along step restartFree (start n preload) actions = true) :
    TermsForward (start n preload) actions ↔
      Execution.along step (fun c action => !c.staleStepDown action) (start n preload) actions =
        true :=
  ⟨TermsForward.along, termsForward_of_along noRestart⟩

theorem terms_forward_elected : TermsForward (start 3 none) election :=
  (terms_forward_iff none election (by decide +kernel)).mpr (by decide +kernel)

/-- Server 1 is in term 2 when it refuses its vote to server 0 in term 1. Server 0 starts over
twice, and then the reply takes it from term 3 to term 2. -/
def staleReply : List (Action 3 ℕ) :=
  timeout s₀ 0 ++ timeout s₁ 0 ++ timeout s₁ 0 ++ [.send 0, .handle 0] ++ timeout s₀ 0 ++
    timeout s₀ 0

theorem terms_forward_fails :
    along step restartFree (start 3 none) (staleReply ++ [.finish 0]) = true ∧
      ¬ TermsForward (start 3 none) (staleReply ++ [.finish 0]) := by
  obtain ⟨middle, before, back⟩ := (Option.any_eq_true _ _).mp (by decide +kernel :
    (run none staleReply).any (fun c => (c.step (.finish 0)).any fun c' =>
      decide ((c'.node 0).currentTerm < (c.node 0).currentTerm)) = true)
  obtain ⟨final, taken, lower⟩ := (Option.any_eq_true _ _).mp back
  refine ⟨by decide +kernel, fun forward => ?_⟩
  have higher := forward staleReply [.finish 0] [] middle final (by simp) before
    (execute_cons.mpr ⟨final, taken, rfl⟩) 0
  exact absurd higher (not_le.mpr (of_decide_eq_true lower))

end RaftInMotion
