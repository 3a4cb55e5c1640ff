/-
This file gives the logs that the instances write while they hold `rf.mu`. Every critical section
of `Model.Raft` has beside it the logs it writes, in their order, and a logged cluster keeps what
all servers have written.

Two logs are left out, since they read `rf.state` after the lock is released:
`electionTimerStarted` and `requestVote`. `Make` writes no log.
-/

import RaftInMotion.Model.Turns

namespace RaftInMotion

open Execution

/-- `String`. -/
def RfState.string : RfState → String
  | .follower => "Follower"
  | .candidate => "Candidate"
  | .leader => "Leader"
  | .dead => "Dead"

/-- `Msg`, with the fields of the log beside `raftID`. -/
inductive Message (n : Nat)
  | stateTransition (oldState newState : RfState)
  | electionTimerStoppedI (term : Nat) (state : RfState)
  | electionTimerStoppedII (term : Nat) (state : RfState)
  | electionTimeout (term : Nat) (state : RfState)
  | recieveVote (term : Nat) (state : RfState) (voteGranted : Bool) (peer : Fin n)
  | termMismatch (term : Nat) (state : RfState) (peer : Fin n)
  | voteFailure (term : Nat) (state : RfState) (peer : Fin n)
  | electionWon (term : Nat) (state : RfState)
  | electionLost (term : Nat) (state : RfState)
deriving DecidableEq, Repr

structure RaftLog (n : Nat) where
  raftID : Fin n
  message : Message n
deriving DecidableEq, Repr

variable {n : Nat} {Command : Type}

namespace Raft

/-- The log of the instance with the message. -/
def info (rf : Raft n Command) (message : Message n) : RaftLog n :=
  ⟨rf.id, message⟩

/-- What `becomeFollower` logs. -/
def becomeFollowerLogs (rf : Raft n Command) : List (RaftLog n) :=
  [rf.info (.stateTransition rf.state .follower)]

/-- What `startLeader` logs; the old state is always the same. -/
def startLeaderLogs (rf : Raft n Command) : List (RaftLog n) :=
  [rf.info (.stateTransition .candidate rf.startLeader.state)]

/-- What `startElection` logs; the old state is always the same. -/
def startElectionLogs (rf : Raft n Command) : List (RaftLog n) :=
  [rf.info (.stateTransition .follower rf.startElection.1.state)]

/-- What a critical section of `runElectionTimer` logs. -/
def electionTimerLogs (rf : Raft n Command) (position : Nat) (expired : Bool) :
    List (RaftLog n) :=
  match rf.timers[position]? with
  | none | some none => []
  | some (some termStarted) =>
    if rf.state ≠ .candidate ∧ rf.state ≠ .follower then
      [rf.info (.electionTimerStoppedI termStarted rf.state)]
    else if termStarted ≠ rf.currentTerm then
      [rf.info (.electionTimerStoppedII termStarted rf.state)]
    else if expired then
      rf.info (.electionTimeout termStarted rf.state) :: rf.startElectionLogs
    else []

/-- What `meetTerm` logs. -/
def meetTermLogs (rf : Raft n Command) (term : Nat) : List (RaftLog n) :=
  if term > rf.currentTerm then rf.becomeFollowerLogs else []

/-- What `RequestVote` logs. -/
def requestVoteLogs (rf : Raft n Command) (args : RequestVoteArgs n) : List (RaftLog n) :=
  if rf.state = .dead then [] else rf.meetTermLogs args.term

/-- What `AppendEntries` logs. -/
def appendEntriesLogs (rf : Raft n Command) (args : AppendEntriesArgs n Command) :
    List (RaftLog n) :=
  if rf.state = .dead then []
  else
    let current := rf.meetTerm args.term
    rf.meetTermLogs args.term ++
      if args.term = current.currentTerm ∧ current.state ≠ .follower then
        current.becomeFollowerLogs
      else []

/-- What `countReply` logs. -/
def countReplyLogs (rf : Raft n Command) (call : VoteCall n) :
    Option RequestVoteReply → List (RaftLog n)
  | some reply =>
    rf.info (.recieveVote reply.term rf.state reply.voteGranted call.peer) ::
      if rf.state = .candidate ∧ reply.term > call.savedCurrentTerm then
        rf.info (.termMismatch call.savedCurrentTerm rf.state call.peer) :: rf.becomeFollowerLogs
      else []
  | none => [rf.info (.voteFailure call.savedCurrentTerm rf.state call.peer)]

/-- What `conclude` logs, with the term of the election. -/
def concludeLogs (rf : Raft n Command) (savedCurrentTerm votesReceived : Nat) :
    List (RaftLog n) :=
  if rf.state = .candidate then
    if votesReceived * 2 > rf.peerIds.length + 1 then
      rf.startLeaderLogs ++ [rf.info (.electionWon savedCurrentTerm rf.startLeader.state)]
    else [rf.info (.electionLost savedCurrentTerm rf.state)]
  else []

/-- What a goroutine of `startElection` logs when its call has its outcome. -/
def receiveVoteLogs (rf : Raft n Command) (call : VoteCall n)
    (outcome : Option RequestVoteReply) : List (RaftLog n) :=
  let election := rf.elections.getD call.election ⟨0, 0⟩
  let (current, votesReceived) := rf.countReply call election.votesReceived outcome
  rf.countReplyLogs call outcome ++
    if election.repliesNeeded - 1 = 0 then
      current.concludeLogs call.savedCurrentTerm (votesReceived + 1)
    else []

/-- What a goroutine of `leaderSendHeartbeats` logs when its call has its reply. -/
def receiveAppendLogs (rf : Raft n Command) (reply : AppendEntriesReply) : List (RaftLog n) :=
  if reply.term > rf.currentTerm then rf.becomeFollowerLogs else []

/-- What `Kill` logs. -/
def killLogs (rf : Raft n Command) : List (RaftLog n) :=
  if rf.state = .dead then [] else [rf.info (.stateTransition rf.state .dead)]

end Raft

namespace Cluster

/-- What is logged in a step. -/
def logs (c : Cluster n Command) : Action n Command → List (RaftLog n)
  | .timer server position expired => (c.node server).electionTimerLogs position expired
  | .handle task =>
    match c.pool[task]? with
    | some (.voteSent call args) => (c.node call.peer).requestVoteLogs args
    | some (.voteLost peer args) => (c.node peer).requestVoteLogs args
    | some (.appendSent call _ args) => (c.node call.peer).appendEntriesLogs args
    | some (.appendLost peer args) => (c.node peer).appendEntriesLogs args
    | _ => []
  | .finish task =>
    match c.pool[task]? with
    | some (.voteReplied call reply) => (c.node call.candidate).receiveVoteLogs call (some reply)
    | some (.appendReplied call _ _ reply) => (c.node call.leader).receiveAppendLogs reply
    | _ => []
  | .fail task =>
    match c.pool[task]? with
    | some (.voteSent call _) | some (.voteReplied call _) =>
      (c.node call.candidate).receiveVoteLogs call none
    | _ => []
  | .kill server => (c.node server).killLogs
  | .send _ | .submit _ _ | .leaderLoop _ _ | .leaderLoopClosed _ _ | .takeReady _ | .sendReady _
  | .restart _ => []

end Cluster

/-- A cluster, and what its servers have logged, in order. -/
structure LoggedCluster (n : Nat) (Command : Type) where
  cluster : Cluster n Command
  logged : List (RaftLog n)

namespace LoggedCluster

def start (preload : Option (Preload Command)) : LoggedCluster n Command :=
  ⟨Cluster.start n preload, []⟩

def step (x : LoggedCluster n Command) (action : Action n Command) :
    Option (LoggedCluster n Command) :=
  (x.cluster.step action).map fun next => ⟨next, x.logged ++ x.cluster.logs action⟩

theorem step_eq {x x' : LoggedCluster n Command} {action : Action n Command} :
    x.step action = some x' ↔
      x.cluster.step action = some x'.cluster ∧
        x'.logged = x.logged ++ x.cluster.logs action := by
  unfold step
  rw [Option.map_eq_some_iff]
  constructor
  · rintro ⟨next, taken, rfl⟩
    exact ⟨taken, rfl⟩
  · rintro ⟨taken, logged⟩
    exact ⟨x'.cluster, taken, by rw [← logged]⟩

/-- Logging changes nothing of what the cluster does. -/
theorem step_cluster (x : LoggedCluster n Command) (action : Action n Command) :
    (x.step action).map cluster = x.cluster.step action := by
  unfold step
  cases x.cluster.step action <;> rfl

end LoggedCluster

end RaftInMotion
