/-
This file runs `n` instances against each other. The cluster holds every instance, the
goroutines that have an RPC call in progress, and the history of what can be observed from
outside. One action is one critical section of one instance, or one event of the network: a
goroutine builds and sends its request, a request reaches its handler, a reply or an error
reaches the goroutine that waits for it. Requests and replies are delivered in any order, at
any later time or never. A call can fail before or after its request was handled, and a
request whose caller has given up can still arrive.

Schedules are run by `Execution.execute`. A cluster starts from empty storages, as the harness
creates them, or from storages that all hold the same term and the same log.
-/

import RaftInMotion.Model.Raft
import RaftInMotion.Library.Execution
import RaftInMotion.Library.TermLog

namespace RaftInMotion

open Execution

/-! ### Goroutines and events -/

/-- A goroutine with an RPC call in progress, or what is left of one. -/
inductive Task (n : Nat) (Command : Type)
  | voteSpawned (call : VoteCall n)
  | voteSent (call : VoteCall n) (args : RequestVoteArgs n)
  | voteReplied (call : VoteCall n) (reply : RequestVoteReply)
  /-- The request of a call that has failed. -/
  | voteLost (peer : Fin n) (args : RequestVoteArgs n)
  | appendSpawned (call : AppendCall n)
  | appendSent (call : AppendCall n) (nextIndexForPeer : Nat) (args : AppendEntriesArgs n Command)
  | appendReplied (call : AppendCall n) (nextIndexForPeer : Nat)
      (args : AppendEntriesArgs n Command) (reply : AppendEntriesReply)
  /-- The request of a call that has failed. -/
  | appendLost (peer : Fin n) (args : AppendEntriesArgs n Command)
  | finished
deriving DecidableEq, Repr

/-- What can be observed of a run. -/
inductive Event (n : Nat) (Command : Type)
  /-- The server votes in the term, for itself in `startElection` or by a reply. -/
  | voted (server : Fin n) (term : Nat) (candidate : Fin n)
  /-- The server executes `startLeader` in the term, with the log. -/
  | startedLeader (server : Fin n) (term : Nat) (log : List (LogEntry Command))
  /-- The leader moves its `commitIndex` forward, with the log. -/
  | advancedCommit (server : Fin n) (term : Nat) (commitIndex : Int) (log : List (LogEntry Command))
  /-- The server sends the entry on its `commitChan`. -/
  | delivered (server : Fin n) (entry : CommitEntry Command)
  /-- The server puts the term in a request or a reply. -/
  | sentTerm (server : Fin n) (term : Nat)
  /-- The server is killed, with the log in its memory. -/
  | killed (server : Fin n) (log : List (LogEntry Command))
  /-- The server is created again from its storage, in the term and with the log. -/
  | restarted (server : Fin n) (term : Nat) (log : List (LogEntry Command))
deriving DecidableEq, Repr

structure Cluster (n : Nat) (Command : Type) where
  node : Fin n → Raft n Command
  pool : List (Task n Command)
  /-- Newest first. -/
  history : List (Event n Command)

inductive Action (n : Nat) (Command : Type)
  | timer (server : Fin n) (position : Nat) (expired : Bool)
  | send (task : Nat)
  | handle (task : Nat)
  | finish (task : Nat)
  | fail (task : Nat)
  | submit (server : Fin n) (command : Command)
  | leaderLoop (server : Fin n) (position : Nat)
  | leaderLoopClosed (server : Fin n) (position : Nat)
  | takeReady (server : Fin n)
  | sendReady (server : Fin n)
  | kill (server : Fin n)
  | restart (server : Fin n)
deriving DecidableEq, Repr

variable {n : Nat} {Command : Type}

/-- The server whose goroutine this is. -/
def Task.caller : Task n Command → Option (Fin n)
  | .voteSpawned call | .voteSent call _ | .voteReplied call _ => some call.candidate
  | .appendSpawned call | .appendSent call _ _ | .appendReplied call _ _ _ => some call.leader
  | .voteLost _ _ | .appendLost _ _ | .finished => none

/-- What is left of a goroutine that stops waiting: at most a request on its way. -/
def Task.orphan : Task n Command → Task n Command
  | .voteSent call args => .voteLost call.peer args
  | .appendSent call _ args => .appendLost call.peer args
  | .voteLost peer args => .voteLost peer args
  | .appendLost peer args => .appendLost peer args
  | .voteSpawned _ | .voteReplied _ _ | .appendSpawned _ | .appendReplied _ _ _ _ | .finished =>
    .finished

/-- The request for a vote that a task still has to deliver. -/
def Task.voteRequest : Task n Command → Option (Fin n × RequestVoteArgs n)
  | .voteSent call args => some (call.peer, args)
  | .voteLost peer args => some (peer, args)
  | _ => none

/-- The request to append that a task still has to deliver. -/
def Task.appendRequest : Task n Command → Option (Fin n × AppendEntriesArgs n Command)
  | .appendSent call _ args => some (call.peer, args)
  | .appendLost peer args => some (peer, args)
  | _ => none

namespace Cluster

/-! ### Steps -/

/-- A server moves to its next state, spawns goroutines and is observed. -/
def act (c : Cluster n Command) (server : Fin n) (next : Raft n Command)
    (spawned : List (Task n Command)) (events : List (Event n Command)) : Cluster n Command where
  node := Function.update c.node server next
  pool := c.pool ++ spawned
  history := events ++ c.history

/-- A goroutine moves on. -/
def settle (c : Cluster n Command) (task : Nat) (moved : Task n Command) : Cluster n Command :=
  { c with pool := c.pool.set task moved }

/-- The peer handles a request for its vote. -/
def handleVote (c : Cluster n Command) (peer : Fin n) (args : RequestVoteArgs n) :
    Cluster n Command × RequestVoteReply :=
  let handled := (c.node peer).requestVote args
  (c.act peer handled.1 [] (.sentTerm peer handled.2.term ::
    if handled.2.voteGranted then [.voted peer handled.2.term args.candidateId] else []),
    handled.2)

/-- The peer handles a request to append. -/
def handleAppend (c : Cluster n Command) (peer : Fin n) (args : AppendEntriesArgs n Command) :
    Option (Cluster n Command × AppendEntriesReply) :=
  ((c.node peer).appendEntries args).map fun handled =>
    (c.act peer handled.1 [] [.sentTerm peer handled.2.term], handled.2)

/-- The candidate receives the outcome of a call. -/
def finishVote (c : Cluster n Command) (call : VoteCall n) (outcome : Option RequestVoteReply) :
    Cluster n Command :=
  let rf := c.node call.candidate
  let next := rf.receiveVote call outcome
  c.act call.candidate next []
    (if rf.state ≠ .leader ∧ next.state = .leader then
      [.startedLeader call.candidate next.currentTerm next.log] else [])

/-- The leader receives the reply to a call. -/
def finishAppend (c : Cluster n Command) (call : AppendCall n) (nextIndexForPeer : Nat)
    (args : AppendEntriesArgs n Command) (reply : AppendEntriesReply) :
    Option (Cluster n Command) :=
  let rf := c.node call.leader
  (rf.receiveAppend call nextIndexForPeer args reply).map fun next =>
    c.act call.leader next []
      (if next.commitIndex ≠ rf.commitIndex then
        [.advancedCommit call.leader next.currentTerm next.commitIndex next.log] else [])

/-- A goroutine builds its request and sends it. -/
def send (c : Cluster n Command) (task : Nat) : Option (Cluster n Command) :=
  match c.pool[task]? with
  | some (.voteSpawned call) =>
    let rf := c.node call.candidate
    let args := rf.requestVoteArgs call
    some ((c.act call.candidate rf [] [.sentTerm call.candidate args.term]).settle task
      (.voteSent call args))
  | some (.appendSpawned call) =>
    let rf := c.node call.leader
    (rf.appendEntriesArgs call).map fun built =>
      (c.act call.leader rf [] [.sentTerm call.leader built.2.term]).settle task
        (.appendSent call built.1 built.2)
  | _ => none

/-- A request reaches its handler. -/
def handle (c : Cluster n Command) (task : Nat) : Option (Cluster n Command) :=
  match c.pool[task]? with
  | some (.voteSent call args) =>
    let handled := c.handleVote call.peer args
    some (handled.1.settle task (.voteReplied call handled.2))
  | some (.voteLost peer args) => some ((c.handleVote peer args).1.settle task .finished)
  | some (.appendSent call nextIndexForPeer args) =>
    (c.handleAppend call.peer args).map fun handled =>
      handled.1.settle task (.appendReplied call nextIndexForPeer args handled.2)
  | some (.appendLost peer args) =>
    (c.handleAppend peer args).map fun handled => handled.1.settle task .finished
  | _ => none

/-- A reply reaches the goroutine that waits for it. -/
def finish (c : Cluster n Command) (task : Nat) : Option (Cluster n Command) :=
  match c.pool[task]? with
  | some (.voteReplied call reply) => some ((c.finishVote call (some reply)).settle task .finished)
  | some (.appendReplied call nextIndexForPeer args reply) =>
    (c.finishAppend call nextIndexForPeer args reply).map fun next => next.settle task .finished
  | _ => none

/-- A call fails at the goroutine that waits for it. -/
def fail (c : Cluster n Command) (task : Nat) : Option (Cluster n Command) :=
  match c.pool[task]? with
  | some (.voteSent call args) =>
    some ((c.finishVote call none).settle task (.voteLost call.peer args))
  | some (.voteReplied call _) => some ((c.finishVote call none).settle task .finished)
  | some (.appendSent call _ args) => some (c.settle task (.appendLost call.peer args))
  | some (.appendReplied _ _ _ _) => some (c.settle task .finished)
  | _ => none

/-- The server is created again from its storage once its last instance has been killed. The
goroutines of that instance are gone; `Model.Incarnations` has them go on. -/
def restart (c : Cluster n Command) (server : Fin n) : Option (Cluster n Command) :=
  if (c.node server).chansClosed then
    (Raft.make server (c.node server).storage).map fun rf =>
      { c.act server rf [] [.restarted server rf.currentTerm rf.log] with
        pool := c.pool.map fun task => if task.caller = some server then task.orphan else task }
  else none

def step (c : Cluster n Command) : Action n Command → Option (Cluster n Command)
  | .timer server position expired =>
    ((c.node server).electionTimer position expired).map fun fired =>
      c.act server fired.1 (fired.2.map .voteSpawned)
        (if fired.1.currentTerm ≠ (c.node server).currentTerm then
          [.voted server fired.1.currentTerm server] else [])
  | .send task => c.send task
  | .handle task => c.handle task
  | .finish task => c.finish task
  | .fail task => c.fail task
  | .submit server command =>
    ((c.node server).submit command).map fun submitted => c.act server submitted.1 [] []
  | .leaderLoop server position =>
    ((c.node server).leaderLoop position).map fun turned =>
      c.act server turned.1 (turned.2.map .appendSpawned) []
  | .leaderLoopClosed server position =>
    ((c.node server).leaderLoopClosed position).map fun next => c.act server next [] []
  | .takeReady server => ((c.node server).takeReady).map fun next => c.act server next [] []
  | .sendReady server =>
    ((c.node server).sendReady).map fun sent => c.act server sent.1 [] [.delivered server sent.2]
  | .kill server =>
    ((c.node server).kill).map fun next =>
      c.act server next [] (if (c.node server).state = .dead then [] else
        [.killed server (c.node server).log])
  | .restart server => c.restart server

end Cluster

/-! ### Starts -/

instance LogEntry.stamped : TermLog.Stamped (LogEntry Command) := ⟨LogEntry.term⟩

/-- What the storages of all servers may hold before a run: one term, no vote, and one log. -/
structure Preload (Command : Type) where
  currentTerm : Nat
  log : List (LogEntry Command)
  sorted : TermLog.Sorted log
  bounded : ∀ entry ∈ log, entry.term ≤ currentTerm

/-- The storage of a server before a run. -/
def Preload.storage (n : Nat) : Option (Preload Command) → Storage n Command
  | none => newMapStorage
  | some preload => ⟨some preload.currentTerm, some none, some preload.log⟩

namespace Cluster

/-- All servers as `Make` creates them, and nothing else yet. -/
def start (n : Nat) (preload : Option (Preload Command)) : Cluster n Command where
  node server :=
    { Raft.blank server (Preload.storage n preload) with
      currentTerm := (preload.map Preload.currentTerm).getD 0
      log := (preload.map Preload.log).getD [] }
  pool := []
  history := []

/-- The state a schedule leads to from a start. -/
abbrev run (preload : Option (Preload Command)) (actions : List (Action n Command)) :
    Option (Cluster n Command) :=
  execute step (start n preload) actions

end Cluster

end RaftInMotion
