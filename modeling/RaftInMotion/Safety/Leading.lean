/-
This file settles what a leader does with its log. While a server leads it stays in one term and
deletes or overwrites nothing: its log is the one it was elected with and then the commands that it
has taken, in their order and of its term, whatever requests, replies and errors reach it.
-/

import RaftInMotion.Model.Turns

namespace RaftInMotion

open Execution

variable {n : Nat} {Command : Type}

namespace Raft

variable {rf next other : Raft n Command}

/-- The server is still in its term, and has appended these commands. -/
structure Appends (rf next : Raft n Command) (commands : List Command) : Prop where
  currentTerm : next.currentTerm = rf.currentTerm
  log : next.log = rf.log ++ commands.map fun command => ⟨command, rf.currentTerm⟩

theorem appends_refl (rf : Raft n Command) : Appends rf rf [] :=
  ⟨rfl, (List.append_nil _).symm⟩

theorem Appends.trans {middle : Raft n Command} {commands more : List Command}
    (first : Appends rf middle commands) (second : Appends middle next more) :
    Appends rf next (commands ++ more) := by
  refine ⟨second.currentTerm.trans first.currentTerm, ?_⟩
  rw [second.log, first.log, first.currentTerm, List.append_assoc, List.map_append]

theorem appends_of_core (core : next.core = rf.core) : Appends rf next [] := by
  have currentTerm : next.core.currentTerm = rf.core.currentTerm :=
    congrArg Raft.currentTerm core
  have log : next.core.log = rf.core.log := congrArg Raft.log core
  exact ⟨currentTerm, log.trans (List.append_nil _).symm⟩

/-! ### Steps of a leader that still leads -/

theorem electionTimer_appends {position : Nat} {expired : Bool} {calls : List (VoteCall n)}
    (fired : rf.electionTimer position expired = some (next, calls)) (led : rf.state = .leader) :
    Appends rf next [] := by
  rcases electionTimer_cases fired with ⟨core, -, -⟩ | ⟨runs | follows, -, -, -⟩
  · exact appends_of_core core
  · cases led.symm.trans runs
  · cases led.symm.trans follows

theorem requestVote_appends {args : RequestVoteArgs n} (led : rf.state = .leader)
    (leads : (rf.requestVote args).1.state = .leader) : Appends rf (rf.requestVote args).1 [] := by
  have alive : rf.state ≠ .dead := by simp [led]
  by_cases newer : rf.currentTerm < args.term
  · -- The request would have made it a follower.
    have met : rf.meetTerm args.term = rf.becomeFollower args.term := if_pos newer
    rcases requestVote_cases args alive with refused | ⟨-, -, -, granted⟩
    · rw [refused, met] at leads
      cases leads
    · rw [granted, met] at leads
      cases leads
  · have stays : rf.meetTerm args.term = rf := if_neg newer
    rcases requestVote_cases args alive with refused | ⟨-, -, -, granted⟩
    · rw [refused, stays]
      exact ⟨rfl, (List.append_nil _).symm⟩
    · rw [granted, stays]
      exact ⟨rfl, (List.append_nil _).symm⟩

/-- A request to append that a leader does not turn away as stale makes it a follower. -/
theorem appendEntries_appends {args : AppendEntriesArgs n Command} {reply : AppendEntriesReply}
    (handled : rf.appendEntries args = some (next, reply)) (leads : next.state = .leader) :
    Appends rf next [] := by
  have follows := heed_state rf args.term
  cases appendEntries_outcome handled with
  | dead gone => exact appends_refl rf
  | stale alive older _ _ same term fails =>
    rcases same with rfl | rfl <;> exact ⟨rfl, (List.append_nil _).symm⟩
  | reject alive reached _ term fails => cases leads.symm.trans follows
  | blank alive reached _ term first empty => cases leads.symm.trans follows
  | accept alive reached _ term prevLogIndex position held found same live =>
    cases leads.symm.trans ((store_state args prevLogIndex).trans follows)

theorem receiveVote_appends {call : VoteCall n} {outcome : Option RequestVoteReply}
    (led : rf.state = .leader) : Appends rf (rf.receiveVote call outcome) [] := by
  have stays : outcome.any (rf.stepsDown call) = false := by
    cases outcome <;> simp [stepsDown, led]
  have loses : ¬rf.wins call outcome = true := fun wins => by
    cases led.symm.trans ((wins_iff stays).mp wins).1
  have core := receiveVote_of_stays stays
  rw [if_neg loses] at core
  exact appends_of_core core

theorem receiveAppend_appends {call : AppendCall n} {nextIndexForPeer : Nat}
    {args : AppendEntriesArgs n Command} {reply : AppendEntriesReply}
    (received : rf.receiveAppend call nextIndexForPeer args reply = some next)
    (leads : next.state = .leader) : Appends rf next [] := by
  rcases receiveAppend_cases received with ⟨-, rfl⟩ | ⟨-, core, -⟩ |
    ⟨-, -, -, -, matched, _, rfl, rfl, -⟩
  · cases leads
  · exact appends_of_core core
  · exact ⟨rfl, (List.append_nil _).symm⟩

theorem kill_appends (killed : rf.kill = some next) (led : rf.state = .leader)
    (leads : next.state = .leader) : Appends rf next [] := by
  rcases kill_cases killed with ⟨gone, -⟩ | ⟨-, rfl⟩
  · cases led.symm.trans gone
  · cases leads

end Raft

namespace Cluster

variable {c c' : Cluster n Command} {action : Action n Command}

/-- The command that a step hands to the server. -/
def submittedTo (s : Fin n) : Action n Command → List Command
  | .submit server command => if server = s then [command] else []
  | _ => []

theorem Turn.appends {s : Fin n} {next : Raft n Command} {events : List (Event n Command)}
    (turn : c.Turn action s next events) (led : (c.node s).state = .leader)
    (leads : next.state = .leader) : (c.node s).Appends next (submittedTo s action) := by
  cases turn with
  | timer fired => exact Raft.electionTimer_appends fired led
  | handleVote present request => exact Raft.requestVote_appends led leads
  | handleAppend present request handled => exact Raft.appendEntries_appends handled leads
  | receiveVote received =>
    cases action with
    | finish i => exact Raft.receiveVote_appends led
    | fail i => exact Raft.receiveVote_appends led
    | _ => cases received
  | receiveAppend present received => exact Raft.receiveAppend_appends received leads
  | submit submitted =>
    rcases Raft.submit_cases submitted with ⟨-, follows, -⟩ | ⟨rfl, -, -⟩
    · exact absurd led follows
    · rw [submittedTo, if_pos rfl]
      exact ⟨rfl, rfl⟩
  | leaderLoop turned => exact Raft.appends_of_core (Raft.leaderLoop_cases turned).1
  | leaderLoopClosed ended => exact Raft.appends_of_core (Raft.leaderLoopClosed_cases ended).1
  | takeReady taken =>
    rcases Raft.takeReady_cases taken with ⟨-, rfl⟩ | ⟨-, -, rfl⟩ <;>
      exact ⟨rfl, (List.append_nil _).symm⟩
  | sendReady sent =>
    obtain ⟨rest, -, rfl⟩ := Raft.sendReady_cases sent
    exact ⟨rfl, (List.append_nil _).symm⟩
  | kill killed => exact Raft.kill_appends killed led leads
  | restart closed made => cases leads.symm.trans (Raft.make_cases made).2.1
  | _ => exact Raft.appends_refl _

theorem step_appends {s : Fin n} (taken : c.step action = some c')
    (led : (c.node s).state = .leader) (leads : (c'.node s).state = .leader) :
    (c.node s).Appends (c'.node s) (submittedTo s action) := by
  obtain ⟨p, next, events, turn, nodes, -⟩ := step_turn taken
  rw [nodes] at leads ⊢
  rcases eq_or_ne s p with rfl | other
  · rw [Function.update_self] at leads ⊢
    exact turn.appends led leads
  · rw [Function.update_of_ne other]
    have untouched : submittedTo s action = [] := by
      cases turn with
      | submit submitted => exact if_neg other.symm
      | receiveVote received => cases action <;> first | rfl | cases received
      | _ => rfl
    rw [untouched]
    exact Raft.appends_refl _

/-- A server that leads in every state of a run is in one term throughout, and its log is
extended by the commands it is given, in their order. -/
theorem leader_append_only {s : Fin n} {actions : List (Action n Command)}
    (led : along step (fun c _ => (c.node s).state = .leader) c actions = true)
    (run : execute step c actions = some c') (leads : (c'.node s).state = .leader) :
    (c.node s).Appends (c'.node s) (actions.flatMap (submittedTo s)) := by
  induction actions generalizing c with
  | nil =>
    obtain rfl : c = c' := by simpa [execute] using run
    exact Raft.appends_refl _
  | cons action rest inductionHypothesis =>
    obtain ⟨middle, taken, run⟩ := execute_cons.mp run
    obtain ⟨here, later⟩ := along_cons taken led
    -- The next state is that before another step, or the last one.
    have next : (middle.node s).state = .leader := by
      cases rest with
      | nil =>
        obtain rfl : middle = c' := by simpa [execute] using run
        exact leads
      | cons action' rest' =>
        obtain ⟨final, taken', -⟩ := execute_cons.mp run
        exact of_decide_eq_true (along_cons taken' later).1
    exact (step_appends taken (of_decide_eq_true here) next).trans (inductionHypothesis later run)

/-- Server 0 takes two commands and replicates the first; server 1 turns one away. -/
def taking : List (Action 3 ℕ) :=
  [.submit s₀ 7, .leaderLoop s₀ 0] ++ roundTrip 2 ++ [.submit s₁ 8, .submit s₀ 9]

theorem leader_append_only_taking : ∃ c c', run none election = some c ∧
    execute step c taking = some c' ∧ (c'.node s₀).log = (c.node s₀).log ++ [⟨7, 1⟩, ⟨9, 1⟩] := by
  obtain ⟨c, elected, holds⟩ := (Option.any_eq_true _ _).mp (by decide +kernel :
    (run none election).any (fun c => decide ((c.node s₀).currentTerm = 1 ∧
      along step (fun c _ => (c.node s₀).state = .leader) c taking = true ∧
      (execute step c taking).any (fun c' => decide ((c'.node s₀).state = .leader)) = true)) = true)
  obtain ⟨term, led, ends⟩ := of_decide_eq_true holds
  obtain ⟨c', taken, leads⟩ := (Option.any_eq_true _ _).mp ends
  have appends := leader_append_only led taken (of_decide_eq_true leads)
  refine ⟨c, c', elected, taken, ?_⟩
  rw [appends.log, term]
  rfl

end Cluster

end RaftInMotion
