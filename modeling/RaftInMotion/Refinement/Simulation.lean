/-
This file relates a whole cluster to a configuration of the protocol. A goroutine is grounded
when what it has captured, sent or been told is true of the configuration, in a way that no
later step can make false. Every action of the cluster that avoids the hazards of elections is
then matched by steps of one member: this is the simulation on which the safety results rest.
-/

import RaftInMotion.Refinement.Replicate
import RaftInMotion.Refinement.Tally

namespace RaftInMotion

open Replication Cluster

variable {n : Nat} {Command : Type} {trust late : Prop} {floor : ℕ}

/-! ### The relation -/

/-- A call of an election that its candidate has started. -/
structure Runs (a : Spec n Command) (call : VoteCall n) : Prop where
  other : call.peer ≠ call.candidate
  reached : call.savedCurrentTerm ≤ a.term call.candidate

/-- A call in the name of a term that its sender leads, or has left. -/
structure Leads (a : Spec n Command) (call : AppendCall n) : Prop where
  other : call.peer ≠ call.leader
  led : a.leader call.savedCurrentTerm = some call.leader
  role : a.term call.leader = call.savedCurrentTerm → a.role call.leader = .leader

/-- What a goroutine relies on is true of the configuration. -/
def Grounded (trust : Prop) (a : Spec n Command) : Task n Command → Prop
  | .voteSpawned call => Runs a call
  | .voteSent call args => Runs a call ∧ Asks a call.peer args ∧
      args.candidateId = call.candidate ∧ args.term = call.savedCurrentTerm
  | .voteReplied call reply => Runs a call ∧ (Raft.votes call (some reply) = true →
      a.ballot call.peer call.savedCurrentTerm = some call.candidate)
  | .voteLost peer args => Asks a peer args
  | .appendSpawned call => Leads a call
  | .appendSent call nextIndex args => Leads a call ∧ Sends trust a call.peer nextIndex args ∧
      args.term = call.savedCurrentTerm
  | .appendReplied call nextIndex args reply => Leads a call ∧ (trust → reply.success = true →
      a.term call.leader = call.savedCurrentTerm →
        nextIndex + args.entries.length ≤ a.acked call.peer call.savedCurrentTerm)
  | .appendLost peer args => ∃ nextIndex, Sends trust a peer nextIndex args
  | .finished => True

/-- What has been observed is part of the history of the configuration. -/
def Recorded (trust : Prop) (a : Spec n Command) : Event n Command → Prop
  | .startedLeader s term log => a.leader term = some s ∧ a.electLog term = log
  | .advancedCommit _ term commitIndex log => trust → ∃ part, Chosen a term part ∧
      part <+: log ∧ commitIndex + 1 = part.length
  | _ => True

/-- The call of the goroutine at a position, if it belongs to an election. -/
def Cluster.voteCall (c : Cluster n Command) (i : ℕ) : Option (VoteCall n) :=
  c.pool[i]?.bind Task.voteCall

/-- The cluster is in the state of the configuration. -/
structure Refines (trust : Prop) (c : Cluster n Command) (a : Spec n Command) : Prop where
  node : ∀ s, Mirrors trust a s (c.node s)
  task : ∀ task ∈ c.pool, Grounded trust a task
  tally : ∃ time counted, Tally a (fun s => (c.node s).elections) c.voteCall time counted
  event : ∀ event ∈ c.history, Recorded trust a event

variable {c c' : Cluster n Command} {a a' : Spec n Command} {s p : Fin n}

/-! ### Later configurations -/

theorem Runs.mono {call : VoteCall n} (runs : Runs a call) (grows : Extends a a') : Runs a' call :=
  ⟨runs.other, runs.reached.trans (grows.term _)⟩

theorem Leads.mono {call : AppendCall n} (leads : Leads a call) (invariant : Invariant floor a)
    (steps : Steps late p a a') (stays : call.leader = p → a.role p = .leader →
      a'.term p = a.term p → a'.role p = .leader) : Leads a' call := by
  have frame := steps.frame
  refine ⟨leads.other, (invariant.steps steps).2.leader leads.led, fun same => ?_⟩
  by_cases moved : call.leader = p
  · have reached := (invariant.elections.leader_reached leads.led).2
    have forward := frame.forward
    have role := leads.role
    rw [moved] at same reached role ⊢
    exact stays moved (role (by omega)) (by omega)
  · rw [frame.role moved]
    exact leads.role (frame.term moved ▸ same)

/-- A goroutine stays grounded, except that a server may take its lead from its own. -/
theorem Grounded.mono {task : Task n Command} (grounded : Grounded trust a task)
    (invariant : Invariant floor a) (steps : Steps late p a a')
    (stays : task.caller = some p → a.role p = .leader → a'.term p = a.term p →
      a'.role p = .leader) : Grounded trust a' task := by
  have frame := steps.frame
  have grows := (invariant.steps steps).2
  cases task with
  | voteSpawned call => exact Runs.mono grounded grows
  | voteSent call args =>
    obtain ⟨runs, asks, same⟩ := grounded
    exact ⟨runs.mono grows, asks.mono frame, same⟩
  | voteReplied call reply =>
    obtain ⟨runs, ballot⟩ := grounded
    exact ⟨runs.mono grows, fun granted => (grows.ballot (ballot granted)).1⟩
  | voteLost peer args => exact Asks.mono grounded frame
  | appendSpawned call =>
    exact Leads.mono grounded invariant steps fun same => stays (congrArg some same)
  | appendSent call nextIndex args =>
    obtain ⟨leads, sends, same⟩ := grounded
    exact ⟨leads.mono invariant steps fun same => stays (congrArg some same), sends.mono grows,
      same⟩
  | appendReplied call nextIndex args reply =>
    obtain ⟨leads, acked⟩ := grounded
    refine ⟨leads.mono invariant steps fun same => stays (congrArg some same),
      fun trusted succeeds same => (acked trusted succeeds ?_).trans (grows.acked _ _)⟩
    have reached := (invariant.elections.leader_reached leads.led).2
    have forward := grows.term call.leader
    omega
  | appendLost peer args => exact grounded.imp fun _ sends => Sends.mono sends grows
  | finished => trivial

/-- What is left of a goroutine that stops waiting is grounded and belongs to nobody. -/
theorem Grounded.orphan {task : Task n Command} (grounded : Grounded trust a task) :
    Grounded trust a task.orphan ∧ task.orphan.caller = none ∧ task.orphan.voteCall = none := by
  cases task with
  | voteSent call args => exact ⟨grounded.2.1, rfl, rfl⟩
  | appendSent call nextIndex args => exact ⟨⟨nextIndex, grounded.2.1⟩, rfl, rfl⟩
  | voteLost peer args => exact ⟨grounded, rfl, rfl⟩
  | appendLost peer args => exact ⟨grounded, rfl, rfl⟩
  | _ => exact ⟨trivial, rfl, rfl⟩

theorem Recorded.mono {event : Event n Command} (recorded : Recorded trust a event)
    (grows : Extends a a') : Recorded trust a' event := by
  cases event with
  | startedLeader s term log =>
    exact ⟨grows.leader recorded.1, (grows.electLog recorded.1).trans recorded.2⟩
  | advancedCommit s term commitIndex log =>
    exact fun trusted => (recorded trusted).imp fun _ ⟨chosen, rest⟩ => ⟨chosen.mono grows, rest⟩
  | _ => trivial

/-- One server and its member have moved: what is new has to be checked, and nothing else. -/
theorem Refines.advance (refines : Refines trust c a) (invariant : Invariant floor a)
    (moves : Moves late s a a') (others : ∀ {q}, q ≠ s → c'.node q = c.node q)
    (mirrors : Mirrors trust a' s (c'.node s))
    (pool : ∀ task ∈ c'.pool, task ∈ c.pool ∨ Grounded trust a' task)
    (history : ∀ event ∈ c'.history, event ∈ c.history ∨ Recorded trust a' event)
    (tally : ∃ time counted, Tally a' (fun s => (c'.node s).elections) c'.voteCall time counted) :
    Refines trust c' a' where
  node q := by
    by_cases moved : q = s
    · exact moved ▸ mirrors
    · rw [others moved]
      exact (refines.node q).mono moves.steps.frame (invariant.steps moves.steps).2 moved
  task task member := (pool task member).elim
    (fun old => (refines.task task old).mono invariant moves.steps fun _ => moves.leading)
    fun new => new
  tally := tally
  event event member := (history event member).elim
    (fun old => (refines.event event old).mono (invariant.steps moves.steps).2) fun new => new

/-- The same when no election is touched and no goroutine of one is added. -/
theorem Refines.advance_quiet (refines : Refines trust c a) (invariant : Invariant floor a)
    (moves : Moves late s a a') (others : ∀ {q}, q ≠ s → c'.node q = c.node q)
    (mirrors : Mirrors trust a' s (c'.node s))
    (pool : ∀ task ∈ c'.pool, task ∈ c.pool ∨ Grounded trust a' task)
    (history : ∀ event ∈ c'.history, event ∈ c.history ∨ Recorded trust a' event)
    (elections : (c'.node s).elections = (c.node s).elections)
    (fewer : ∀ {i call}, c'.voteCall i = some call → c.voteCall i = some call) :
    Refines trust c' a' := by
  refine refines.advance invariant moves others mirrors pool history ?_
  obtain ⟨time, counted, tally⟩ := refines.tally
  refine ⟨time, counted, tally.mono (invariant.steps moves.steps).2 (funext fun q => ?_) fewer⟩
  by_cases moved : q = s
  · exact moved ▸ elections
  · rw [others moved]

end RaftInMotion
