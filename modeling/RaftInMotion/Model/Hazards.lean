/-
This file names the steps at which the code departs from the Raft algorithm. Each hazard is a
decidable condition on the cluster before a step and on the action taken; it says which branch
of the source is about to run, and on what. The results about runs hold for the schedules that
avoid the hazards they name, and each comes with a run through one of them that breaks it.
-/

import RaftInMotion.Model.Cluster
import RaftInMotion.Model.Outcomes

namespace RaftInMotion

variable {n : Nat} {Command : Type}

/-- A goroutine of the server that has still to build its request to append. -/
def Task.unbuilt (server : Fin n) : Task n Command → Bool
  | .appendSpawned call => call.leader = server
  | _ => false

/-- A goroutine of the server that has still to build its request. -/
def Task.builds (server : Fin n) : Task n Command → Bool
  | .voteSpawned call => call.candidate = server
  | .appendSpawned call => call.leader = server
  | _ => false

namespace Cluster

/-- The call whose outcome a candidate receives in a step, and the outcome. -/
def voteOutcome (c : Cluster n Command) :
    Action n Command → Option (VoteCall n × Option RequestVoteReply)
  | .finish task =>
    match c.pool[task]? with
    | some (.voteReplied call reply) => some (call, some reply)
    | _ => none
  | .fail task =>
    match c.pool[task]? with
    | some (.voteSent call _) | some (.voteReplied call _) => some (call, none)
    | _ => none
  | _ => none

/-- The request to append that a server handles in a step. -/
def appendHandled (c : Cluster n Command) :
    Action n Command → Option (Fin n × AppendEntriesArgs n Command)
  | .handle task => c.pool[task]?.bind Task.appendRequest
  | _ => none

/-- The request for a vote that a server handles in a step. -/
def voteHandled (c : Cluster n Command) :
    Action n Command → Option (Fin n × RequestVoteArgs n)
  | .handle task => c.pool[task]?.bind Task.voteRequest
  | _ => none

/-- The call to append whose reply a server receives in a step, and the term of the reply. -/
def appendAnswered (c : Cluster n Command) : Action n Command → Option (AppendCall n × Nat)
  | .finish task =>
    match c.pool[task]? with
    | some (.appendReplied call _ _ reply) => some (call, reply.term)
    | _ => none
  | _ => none

/-- The step creates no server again. -/
def restartFree (_ : Cluster n Command) : Action n Command → Bool
  | .restart _ => false
  | _ => true

/-- A reply to an earlier election makes a candidate become a follower in a term that is above
that of the election and below its own. -/
def staleStepDown (c : Cluster n Command) (action : Action n Command) : Bool :=
  match c.voteOutcome action with
  | some (call, some reply) =>
    (c.node call.candidate).stepsDown call reply &&
      reply.term < (c.node call.candidate).currentTerm
  | _ => false

/-- A reply to an earlier election makes a candidate become a follower in a term that is below the
one of its last entry. -/
def fallsBehindLog (c : Cluster n Command) (action : Action n Command) : Bool :=
  match c.voteOutcome action with
  | some (call, some reply) =>
    (c.node call.candidate).stepsDown call reply &&
      reply.term < TermLog.lastTerm (c.node call.candidate).log
  | _ => false

/-- A server accepts a request whose last entry is of a later term than the request. -/
def storesAhead (c : Cluster n Command) (action : Action n Command) : Bool :=
  match c.appendHandled action with
  | some (peer, args) =>
    (c.node peer).accepts args && args.term < TermLog.lastTerm args.entries
  | none => false

/-- The last outcome of an earlier election makes a candidate start to lead another term. -/
def staleVictory (c : Cluster n Command) (action : Action n Command) : Bool :=
  match c.voteOutcome action with
  | some (call, outcome) =>
    (c.node call.candidate).wins call outcome &&
      call.savedCurrentTerm ≠ (c.node call.candidate).currentTerm
  | none => false

/-- `becomeFollower` clears the vote of a server in a term that is not above its own: by a reply
to an earlier election, or by a request to append of the term it is a candidate or leader in. -/
def erasesVote (c : Cluster n Command) (action : Action n Command) : Bool :=
  (match c.voteOutcome action with
  | some (call, some reply) =>
    (c.node call.candidate).stepsDown call reply &&
      reply.term ≤ (c.node call.candidate).currentTerm
  | _ => false) ||
  match c.appendHandled action with
  | some (peer, args) =>
    ((c.node peer).state = .candidate || (c.node peer).state = .leader) &&
      args.term = (c.node peer).currentTerm
  | none => false

/-- A server is created again that has changed its term or its vote since it last called
`persistToStorage`, or that has been revived by a reply after it was killed. -/
def unsavedRestart (c : Cluster n Command) : Action n Command → Bool
  | .restart server =>
    (c.node server).state ≠ .dead ||
      (c.node server).storage.currentTerm.getD 0 ≠ (c.node server).currentTerm ||
      (c.node server).storage.votedFor.getD none ≠ (c.node server).votedFor
  | _ => false

/-- A server with an empty log acknowledges entries that start at the first index; the branch
for `PrevLogIndex = -1` does not store them. -/
def blindAck (c : Cluster n Command) : Action n Command → Bool
  | .handle task =>
    match c.pool[task]? with
    | some (.appendSent call _ args) =>
      (c.node call.peer).state ≠ .dead && (c.node call.peer).currentTerm ≤ args.term &&
        args.prevLogIndex = -1 && (c.node call.peer).log.isEmpty && !args.entries.isEmpty
    | _ => false
  | _ => false

/-- A leader counts an acknowledgement of a request it sent when it led an earlier term. -/
def staleAck (c : Cluster n Command) : Action n Command → Bool
  | .finish task =>
    match c.pool[task]? with
    | some (.appendReplied call _ _ reply) =>
      (c.node call.leader).state = .leader && reply.success &&
        call.savedCurrentTerm = reply.term &&
        call.savedCurrentTerm ≠ (c.node call.leader).currentTerm
    | _ => false
  | _ => false

/-- A request of a term its sender led is built when the sender is in another term. -/
def lateRead (c : Cluster n Command) : Action n Command → Bool
  | .send task =>
    match c.pool[task]? with
    | some (.appendSpawned call) =>
      call.savedCurrentTerm ≠ (c.node call.leader).currentTerm
    | _ => false
  | _ => false

/-- A request to append cuts the log of a server, while one of its goroutines has still to read
the `nextIndex` and the log for its own request. -/
def cutsReader (c : Cluster n Command) (action : Action n Command) : Bool :=
  match c.appendHandled action with
  | some (peer, args) =>
    (c.node peer).cuts args && c.pool.any (Task.unbuilt peer)
  | none => false

/-- A leader counts an acknowledgement of more entries than its log holds. -/
def excessAck (c : Cluster n Command) : Action n Command → Bool
  | .finish task =>
    match c.pool[task]? with
    | some (.appendReplied call nextIndexForPeer args reply) =>
      (c.node call.leader).state = .leader && reply.success &&
        call.savedCurrentTerm = reply.term &&
        (c.node call.leader).log.length < nextIndexForPeer + args.entries.length
    | _ => false
  | _ => false

/-- A leader counts an acknowledgement that ends before what it knows of the peer already. The
request was built when the sender's log was shorter than at the last request counted. -/
def overtakenAck (c : Cluster n Command) : Action n Command → Bool
  | .finish task =>
    match c.pool[task]? with
    | some (.appendReplied call nextIndexForPeer args reply) =>
      (c.node call.leader).state = .leader && reply.term ≤ (c.node call.leader).currentTerm &&
        reply.success && call.savedCurrentTerm = reply.term &&
        (nextIndexForPeer + args.entries.length : Int) ≤ (c.node call.leader).matchIndex call.peer
    | _ => false
  | _ => false

/-- A server times out, is killed, steps down or starts to lead. -/
def leavesRole (c : Cluster n Command) (action : Action n Command) (s : Fin n) : Bool :=
  (match action with
  | .timer server position expired =>
    server = s && expired &&
      (c.node s).timers[position]? = some (some (c.node s).currentTerm) &&
      ((c.node s).state = .candidate || (c.node s).state = .follower)
  | .kill server => server = s && (c.node s).state ≠ .dead
  | _ => false) ||
  (match c.voteHandled action with
  | some (peer, args) =>
    peer = s && (c.node s).state ≠ .dead && (c.node s).currentTerm < args.term
  | none => false) ||
  (match c.appendHandled action with
  | some (peer, args) =>
    peer = s && (c.node s).state ≠ .dead && ((c.node s).currentTerm < args.term ||
      (c.node s).currentTerm = args.term && (c.node s).state ≠ .follower)
  | none => false) ||
  (match c.voteOutcome action with
  | some (call, outcome) =>
    call.candidate = s && ((c.node s).wins call outcome || outcome.any ((c.node s).stepsDown call))
  | none => false) ||
  match c.appendAnswered action with
  | some (call, term) => call.leader = s && (c.node s).currentTerm < term
  | none => false

/-- No outcome of an earlier election decides anything. -/
def promptElections (c : Cluster n Command) (action : Action n Command) : Bool :=
  !c.staleStepDown action && !c.staleVictory action

/-- Every acknowledgement that is counted is of entries that are stored, in the same term. -/
def truthfulAcks (c : Cluster n Command) (action : Action n Command) : Bool :=
  !c.blindAck action && !c.staleAck action

/-! ### Conditions on runs -/

/-- No vote is cleared in a term the server may still vote in. -/
def keepsVotes (c : Cluster n Command) (action : Action n Command) : Bool :=
  c.restartFree action && !c.erasesVote action

/-- Servers are created again from all they have shown. -/
def safeRestarts (c : Cluster n Command) (action : Action n Command) : Bool :=
  !c.erasesVote action && !c.unsavedRestart action

/-- Elections are decided by their own outcomes. -/
def safeElections (c : Cluster n Command) (action : Action n Command) : Bool :=
  c.restartFree action && c.promptElections action

/-- Moreover, acknowledgements are truthful. -/
def safeReplication (c : Cluster n Command) (action : Action n Command) : Bool :=
  c.safeElections action && c.truthfulAcks action

/-- Moreover, requests are built in the term they are sent in. -/
def safeDelivery (c : Cluster n Command) (action : Action n Command) : Bool :=
  c.safeReplication action && !c.lateRead action

/-- What a goroutine reads is within the log. -/
def safeReads (c : Cluster n Command) (action : Action n Command) : Bool :=
  c.restartFree action && !c.cutsReader action && !c.excessAck action

/-- Nothing puts a server into a term below that of its last entry. -/
def keepsTermOrder (c : Cluster n Command) (action : Action n Command) : Bool :=
  !c.fallsBehindLog action && !c.storesAhead action

/-- No server leaves a role while one of its goroutines has still to build its request. -/
def keepsRoles (c : Cluster n Command) (action : Action n Command) : Bool :=
  (List.finRange n).all fun s => !(c.leavesRole action s && c.pool.any (Task.builds s))

/-! ### Fragments of schedules -/

/-- The servers of a cluster of three. -/
def s₀ : Fin 3 := 0

@[inherit_doc s₀] def s₁ : Fin 3 := 1

@[inherit_doc s₀] def s₂ : Fin 3 := 2

/-- A timer reads its term and expires. -/
def timeout (server : Fin n) (position : Nat) : List (Action n Command) :=
  [.timer server position false, .timer server position true]

/-- A call is sent, handled and answered. -/
def roundTrip (task : Nat) : List (Action n Command) :=
  [.send task, .handle task, .finish task]

/-- Server 0 is elected in term 1 by all. -/
def election : List (Action 3 ℕ) :=
  timeout s₀ 0 ++ roundTrip 0 ++ roundTrip 1

/-- All storages hold one entry of term 1. -/
def seeded : Preload ℕ where
  currentTerm := 1
  log := [⟨5, 1⟩]
  sorted := List.pairwise_singleton _ _
  bounded := by simp

/-- Server 0 leads, takes a command, and replicates its log to server 1; both deliver it. -/
def replication : List (Action 3 ℕ) :=
  election ++ [.submit s₀ 7, .leaderLoop s₀ 0] ++ roundTrip 2 ++
    [.takeReady s₀, .sendReady s₀, .sendReady s₀, .leaderLoop s₀ 0, .leaderLoop s₀ 0] ++
    roundTrip 4 ++ [.takeReady s₁, .sendReady s₁, .sendReady s₁]

end Cluster

end RaftInMotion
