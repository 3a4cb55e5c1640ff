/-
This file embeds one Raft instance of `internal/raft`. Every critical section under `rf.mu` is
a function on the state of the instance: the two RPC handlers, the continuations of the two
RPC calls, the ticks of the election timer and of the leader loop, `Submit`, the batches of
`commitChanSender`, and `Kill`. Goroutines that wait between two critical sections are data:
an election timer is the term it has read, an election is the pair of counters its closure
shares, and an RPC call in progress is the values its closure captured.

The value `-1` of `votedFor` is `none`; the other integers that can be `-1` are integers.
Where the code would panic (an index out of range, a send on a closed channel) or call
`log.Fatal`, the function has no result. Slices are values here: a request holds the
entries as they were when it was built, and a batch those it was cut with; the arrays behind
them are in `Model.Memory`. Sends on `newCommitReadyChan` do not block here; a full buffer only
delays them. Log output and wall-clock times are left out.
-/

import Mathlib.Data.List.FinRange
import Mathlib.Logic.Function.Basic
import Mathlib.Tactic.Simps.Basic

namespace RaftInMotion

/-! ### Data -/

/-- `RfState`. -/
inductive RfState
  | follower
  | candidate
  | leader
  | dead
deriving DecidableEq, Repr

structure LogEntry (Command : Type) where
  command : Command
  term : Nat
deriving DecidableEq, Repr

structure CommitEntry (Command : Type) where
  command : Command
  index : Int
  term : Nat
deriving DecidableEq, Repr

structure RequestVoteArgs (n : Nat) where
  term : Nat
  candidateId : Fin n
  lastLogIndex : Int
  lastLogTerm : Int
deriving DecidableEq, Repr

structure RequestVoteReply where
  term : Nat := 0
  voteGranted : Bool := false
deriving DecidableEq, Repr

structure AppendEntriesArgs (n : Nat) (Command : Type) where
  term : Nat
  leaderId : Fin n
  prevLogIndex : Int
  prevLogTerm : Int
  entries : List (LogEntry Command)
  leaderCommit : Int
deriving DecidableEq, Repr

structure AppendEntriesReply where
  term : Nat := 0
  success : Bool := false
  conflictIndex : Nat := 0
  conflictTerm : Int := 0
deriving DecidableEq, Repr

/-- What the three keys of a `Storage` hold, once they have been set. -/
structure Storage (n : Nat) (Command : Type) where
  currentTerm : Option Nat
  votedFor : Option (Option (Fin n))
  log : Option (List (LogEntry Command))
deriving DecidableEq, Repr

/-- The counters that the goroutines of one `startElection` share. -/
structure Election where
  votesReceived : Nat
  repliesNeeded : Int
deriving DecidableEq, Repr

/-- The values captured by a goroutine of `startElection`. -/
structure VoteCall (n : Nat) where
  candidate : Fin n
  peer : Fin n
  savedCurrentTerm : Nat
  election : Nat
deriving DecidableEq, Repr

/-- The values captured by a goroutine of `leaderSendHeartbeats`. -/
structure AppendCall (n : Nat) where
  leader : Fin n
  peer : Fin n
  savedCurrentTerm : Nat
deriving DecidableEq, Repr

/-- Where the goroutine of `startLeader` is: about to call `leaderSendHeartbeats`, or waiting
for its timer or for `triggerAEChan`. -/
inductive LoopPhase
  | sending
  | waiting
deriving DecidableEq, Repr

/-- The state of a `Raft` instance and of its goroutines that have no call in progress. -/
structure Raft (n : Nat) (Command : Type) where
  id : Fin n
  currentTerm : Nat
  votedFor : Option (Fin n)
  log : List (LogEntry Command)
  commitIndex : Int
  lastApplied : Int
  state : RfState
  nextIndex : Fin n → Nat
  matchIndex : Fin n → Int
  storage : Storage n Command
  /-- The number of messages sent on `newCommitReadyChan` and not yet received. -/
  newCommitReady : Nat
  /-- `Kill` has closed `newCommitReadyChan` and `triggerAEChan`. -/
  chansClosed : Bool
  /-- The goroutines in `runElectionTimer`, each with its `termStarted` once it has read it. -/
  timers : List (Option Nat)
  leaderLoops : List LoopPhase
  elections : List Election
  /-- What `commitChanSender` still has to send of the batch it has cut. -/
  readyEntries : List (CommitEntry Command)

variable {n : Nat} {Command : Type}

/-! ### Storage -/

def newMapStorage : Storage n Command :=
  ⟨none, none, none⟩

/-- Some key has been set. -/
def Storage.hasData (storage : Storage n Command) : Bool :=
  storage.currentTerm.isSome || storage.votedFor.isSome || storage.log.isSome

namespace Raft

/-- `persistToStorage`. -/
@[simps] def persistToStorage (rf : Raft n Command) : Raft n Command :=
  { rf with storage := ⟨some rf.currentTerm, some rf.votedFor, some rf.log⟩ }

/-- `restoreFromStorage`; a missing key is fatal. -/
def restoreFromStorage (rf : Raft n Command) : Option (Raft n Command) :=
  match rf.storage with
  | ⟨some currentTerm, some votedFor, some log⟩ =>
    some { rf with currentTerm := currentTerm, votedFor := votedFor, log := log }
  | _ => none

/-- What `Make` sets before it restores from storage. The election timer waits for `ready`. -/
@[simps] def blank (id : Fin n) (storage : Storage n Command) : Raft n Command where
  id := id
  currentTerm := 0
  votedFor := none
  log := []
  commitIndex := -1
  lastApplied := -1
  state := .follower
  nextIndex _ := 0
  matchIndex _ := 0
  storage := storage
  newCommitReady := 0
  chansClosed := false
  timers := [none]
  leaderLoops := []
  elections := []
  readyEntries := []

/-- `Make`. -/
def make (id : Fin n) (storage : Storage n Command) : Option (Raft n Command) :=
  if storage.hasData then (blank id storage).restoreFromStorage else some (blank id storage)

/-! ### Roles -/

/-- `rf.peerIds`: all other servers, as the harness passes them to `Make`. -/
def peerIds (rf : Raft n Command) : List (Fin n) :=
  (List.finRange n).filter (· ≠ rf.id)

/-- `lastLogIndexAndTerm`. -/
def lastLogIndexAndTerm (rf : Raft n Command) : Int × Int :=
  match rf.log.getLast? with
  | some last => (rf.log.length - 1, last.term)
  | none => (-1, -1)

/-- `becomeFollower`. -/
@[simps] def becomeFollower (rf : Raft n Command) (term : Nat) : Raft n Command :=
  { rf with
    state := .follower
    currentTerm := term
    votedFor := none
    timers := rf.timers ++ [none] }

/-- What both handlers do first: a larger term makes the server a follower of it. -/
def meetTerm (rf : Raft n Command) (term : Nat) : Raft n Command :=
  if term > rf.currentTerm then rf.becomeFollower term else rf

/-- `startLeader`. -/
@[simps] def startLeader (rf : Raft n Command) : Raft n Command :=
  { rf with
    state := .leader
    nextIndex := fun peer => if peer ∈ rf.peerIds then rf.log.length else rf.nextIndex peer
    matchIndex := fun peer => if peer ∈ rf.peerIds then -1 else rf.matchIndex peer
    leaderLoops := rf.leaderLoops ++ [.sending] }

/-- `startElection`, with the calls of the goroutines it spawns. -/
def startElection (rf : Raft n Command) : Raft n Command × List (VoteCall n) :=
  ({ rf with
      state := .candidate
      currentTerm := rf.currentTerm + 1
      votedFor := some rf.id
      elections := rf.elections ++ [⟨0, rf.peerIds.length⟩]
      timers := rf.timers ++ [none] },
    rf.peerIds.map fun peer => ⟨rf.id, peer, rf.currentTerm + 1, rf.elections.length⟩)

/-- One critical section of the `runElectionTimer` goroutine at a position: it reads its term,
or wakes up at a tick, which may find the timeout expired. -/
def electionTimer (rf : Raft n Command) (position : Nat) (expired : Bool) :
    Option (Raft n Command × List (VoteCall n)) :=
  match rf.timers[position]? with
  | none => none
  | some none => some ({ rf with timers := rf.timers.set position (some rf.currentTerm) }, [])
  | some (some termStarted) =>
    let stopped := { rf with timers := rf.timers.eraseIdx position }
    if rf.state ≠ .candidate ∧ rf.state ≠ .follower then some (stopped, [])
    else if termStarted ≠ rf.currentTerm then some (stopped, [])
    else if expired then some stopped.startElection
    else some (rf, [])

/-! ### Votes -/

/-- The request that a goroutine of `startElection` builds. -/
def requestVoteArgs (rf : Raft n Command) (call : VoteCall n) : RequestVoteArgs n where
  term := call.savedCurrentTerm
  candidateId := rf.id
  lastLogIndex := rf.lastLogIndexAndTerm.1
  lastLogTerm := rf.lastLogIndexAndTerm.2

/-- The request's log information is at least as up to date as the server's own. -/
def upToDate (rf : Raft n Command) (args : RequestVoteArgs n) : Bool :=
  args.lastLogTerm > rf.lastLogIndexAndTerm.2 ||
    args.lastLogTerm = rf.lastLogIndexAndTerm.2 && args.lastLogIndex ≥ rf.lastLogIndexAndTerm.1

/-- `RequestVote`. -/
def requestVote (rf : Raft n Command) (args : RequestVoteArgs n) :
    Raft n Command × RequestVoteReply :=
  if rf.state = .dead then (rf, {})
  else
    let current := rf.meetTerm args.term
    if current.currentTerm = args.term ∧
        (current.votedFor = none ∨ current.votedFor = some args.candidateId) ∧
        rf.upToDate args then
      ({ current with votedFor := some args.candidateId }.persistToStorage,
        { term := current.currentTerm, voteGranted := true })
    else
      (current.persistToStorage, { term := current.currentTerm, voteGranted := false })

/-- What the outcome of a call changes before the election is decided, and the votes counted
after it; `none` is an error. -/
def countReply (rf : Raft n Command) (call : VoteCall n) (votesReceived : Nat) :
    Option RequestVoteReply → Raft n Command × Nat
  | some reply =>
    if rf.state ≠ .candidate then (rf, votesReceived)
    else if reply.term > call.savedCurrentTerm then (rf.becomeFollower reply.term, votesReceived)
    else if reply.term = call.savedCurrentTerm ∧ reply.voteGranted then (rf, votesReceived + 1)
    else (rf, votesReceived)
  | none => (rf, votesReceived)

/-- What happens once the last call of an election has its outcome: the candidate's own vote
is added, and the server starts to lead or waits for the next timeout. -/
def conclude (rf : Raft n Command) (votesReceived : Nat) : Raft n Command :=
  if rf.state = .candidate ∧ votesReceived * 2 > rf.peerIds.length + 1 then rf.startLeader
  else { rf with timers := rf.timers ++ [none] }

/-- What a goroutine of `startElection` does with the outcome of its call. -/
def receiveVote (rf : Raft n Command) (call : VoteCall n) (outcome : Option RequestVoteReply) :
    Raft n Command :=
  let election := rf.elections.getD call.election ⟨0, 0⟩
  let repliesNeeded := election.repliesNeeded - 1
  let (current, votesReceived) := rf.countReply call election.votesReceived outcome
  if repliesNeeded = 0 then
    { current with elections :=
        current.elections.set call.election ⟨votesReceived + 1, repliesNeeded⟩ }.conclude
      (votesReceived + 1)
  else
    { current with elections :=
        current.elections.set call.election ⟨votesReceived, repliesNeeded⟩ }

/-! ### Replication -/

/-- A send on `newCommitReadyChan`, which panics once `Kill` has closed it. -/
def notifyCommit (rf : Raft n Command) : Option (Raft n Command) :=
  if rf.chansClosed then none else some { rf with newCommitReady := rf.newCommitReady + 1 }

/-- The loop of `AppendEntries` that compares terms: how many of the entries the log already
holds from `logInsertIndex` on. -/
def matchEntries (log : List (LogEntry Command)) : Nat → List (LogEntry Command) → Nat
  | _, [] => 0
  | logInsertIndex, entry :: rest =>
    match log[logInsertIndex]? with
    | none => 0
    | some held =>
      if held.term ≠ entry.term then 0 else matchEntries log (logInsertIndex + 1) rest + 1

/-- The log after the entries have been inserted behind the matching previous one. -/
def insertEntries (log : List (LogEntry Command)) (prevLogIndex : Nat)
    (entries : List (LogEntry Command)) : List (LogEntry Command) :=
  let newEntriesIndex := matchEntries log (prevLogIndex + 1) entries
  let logInsertIndex := prevLogIndex + 1 + newEntriesIndex
  if newEntriesIndex < entries.length then
    log.take logInsertIndex ++ entries.drop newEntriesIndex
  else log

/-- The backward loop of `AppendEntries`: the start of the run of entries of the conflict term
that ends before the position. -/
def conflictStart (log : List (LogEntry Command)) (conflictTerm : Nat) : Nat → Nat
  | 0 => 0
  | position + 1 =>
    if (log[position]?.map LogEntry.term) = some conflictTerm then
      conflictStart log conflictTerm position
    else position + 1

/-- `AppendEntries` for a request of the server's current term. -/
def appendCurrent (rf : Raft n Command) (args : AppendEntriesArgs n Command) :
    Option (Raft n Command × AppendEntriesReply) :=
  let reply : AppendEntriesReply := { term := rf.currentTerm }
  let current := if rf.state ≠ .follower then rf.becomeFollower args.term else rf
  if args.prevLogIndex = -1 then
    match current.log with
    | [] => some (current.persistToStorage, { reply with success := true })
    | first :: _ => some (current.persistToStorage, { reply with conflictTerm := first.term })
  else if args.prevLogIndex < 0 then none
  else
    match current.log[args.prevLogIndex.toNat]? with
    | none => some (current.persistToStorage, reply)
    | some held =>
      if args.prevLogTerm = held.term then
        let inserted := { current with
          log := insertEntries current.log args.prevLogIndex.toNat args.entries }
        if args.leaderCommit > inserted.commitIndex then do
          let notified ← { inserted with
            commitIndex := min args.leaderCommit (inserted.log.length - 1) }.notifyCommit
          some (notified.persistToStorage, { reply with success := true })
        else some (inserted.persistToStorage, { reply with success := true })
      else some (current.persistToStorage, reply)

/-- `AppendEntries` for a request of a term the server has left. -/
def appendStale (rf : Raft n Command) (args : AppendEntriesArgs n Command) :
    Raft n Command × AppendEntriesReply :=
  let reply : AppendEntriesReply := { term := rf.currentTerm }
  if args.prevLogIndex ≥ rf.log.length then
    (rf.persistToStorage, { reply with conflictIndex := rf.log.length, conflictTerm := -1 })
  else if args.prevLogIndex < 0 then (rf, { reply with conflictIndex := rf.log.length })
  else
    let conflictTerm := (rf.log[args.prevLogIndex.toNat]?.map LogEntry.term).getD 0
    (rf.persistToStorage, { reply with
      conflictIndex := conflictStart rf.log conflictTerm args.prevLogIndex.toNat
      conflictTerm := conflictTerm })

/-- `AppendEntries`. -/
def appendEntries (rf : Raft n Command) (args : AppendEntriesArgs n Command) :
    Option (Raft n Command × AppendEntriesReply) :=
  if rf.state = .dead then some (rf, {})
  else
    let current := rf.meetTerm args.term
    if args.term = current.currentTerm then current.appendCurrent args
    else some (current.appendStale args)

/-- `leaderSendHeartbeats`, with the calls of the goroutines it spawns. -/
def leaderSendHeartbeats (rf : Raft n Command) : List (AppendCall n) :=
  if rf.state ≠ .leader then []
  else rf.peerIds.map fun peer => ⟨rf.id, peer, rf.currentTerm⟩

/-- The request that a goroutine of `leaderSendHeartbeats` builds, with its
`nextIndexForPeer`; both slice expressions panic beyond the end of the log. `Machine.encode` reads
its entries once more when they are sent. -/
def appendEntriesArgs (rf : Raft n Command) (call : AppendCall n) :
    Option (Nat × AppendEntriesArgs n Command) :=
  let nextIndexForPeer := rf.nextIndex call.peer
  if nextIndexForPeer ≤ rf.log.length then
    some (nextIndexForPeer, {
      term := call.savedCurrentTerm
      leaderId := rf.id
      prevLogIndex := nextIndexForPeer - 1
      prevLogTerm :=
        match (rf.log.take nextIndexForPeer).getLast? with
        | some previous => previous.term
        | none => -1
      entries := rf.log.drop nextIndexForPeer
      leaderCommit := rf.commitIndex })
  else none

/-- `nextIndex` and `matchIndex` after a success. -/
def acknowledge (rf : Raft n Command) (peer : Fin n) (next : Nat) : Raft n Command :=
  { rf with
    nextIndex := Function.update rf.nextIndex peer next
    matchIndex := Function.update rf.matchIndex peer (next - 1) }

/-- The servers that hold the entry at the index, as far as the leader knows. -/
def matchCount (rf : Raft n Command) (index : Nat) : Nat :=
  1 + (rf.peerIds.filter fun peer => rf.matchIndex peer ≥ index).length

/-- The index may be committed by counting. -/
def countable (rf : Raft n Command) (index : Nat) : Bool :=
  (rf.log[index]?.map LogEntry.term) = some rf.currentTerm &&
    rf.matchCount index * 2 > rf.peerIds.length + 1

/-- The loop of the reply handler that moves `commitIndex` forward. -/
def advanceCommit (rf : Raft n Command) : Int :=
  (List.range rf.log.length).foldl (fun commitIndex (index : Nat) =>
    if rf.commitIndex < (index : Int) && rf.countable index then (index : Int)
    else commitIndex) rf.commitIndex

/-- The backward search of the reply handler for an entry of the term before the position. -/
def lastIndexOfTerm (log : List (LogEntry Command)) (conflictTerm : Int) : Nat → Int
  | 0 => -1
  | position + 1 =>
    if (log[position]?.map fun entry => (entry.term : Int)) = some conflictTerm then position
    else lastIndexOfTerm log conflictTerm position

/-- The `nextIndex` the reply handler sets after a rejection. -/
def conflictNext (rf : Raft n Command) (reply : AppendEntriesReply) : Nat :=
  if reply.conflictTerm ≥ 0 then
    let last := lastIndexOfTerm rf.log reply.conflictTerm rf.log.length
    if last ≥ 0 then (last + 1).toNat else reply.conflictIndex
  else reply.conflictIndex

/-- What a goroutine of `leaderSendHeartbeats` does with the reply to its call. -/
def receiveAppend (rf : Raft n Command) (call : AppendCall n) (nextIndexForPeer : Nat)
    (args : AppendEntriesArgs n Command) (reply : AppendEntriesReply) :
    Option (Raft n Command) :=
  if reply.term > rf.currentTerm then some (rf.becomeFollower reply.term)
  else if rf.state = .leader ∧ call.savedCurrentTerm = reply.term then
    if reply.success then
      let matched := rf.acknowledge call.peer (nextIndexForPeer + args.entries.length)
      if matched.advanceCommit ≠ rf.commitIndex then
        { matched with commitIndex := matched.advanceCommit }.notifyCommit
      else some matched
    else
      some { rf with nextIndex := Function.update rf.nextIndex call.peer (rf.conflictNext reply) }
  else some rf

/-- One turn of the goroutine of `startLeader` at a position; it wakes up by its timer or by
`triggerAEChan`. -/
def leaderLoop (rf : Raft n Command) (position : Nat) :
    Option (Raft n Command × List (AppendCall n)) :=
  match rf.leaderLoops[position]? with
  | none => none
  | some .sending =>
    some ({ rf with leaderLoops := rf.leaderLoops.set position .waiting },
      rf.leaderSendHeartbeats)
  | some .waiting =>
    if rf.state ≠ .leader then
      some ({ rf with leaderLoops := rf.leaderLoops.eraseIdx position }, [])
    else some ({ rf with leaderLoops := rf.leaderLoops.set position .sending }, [])

/-- The goroutine of `startLeader` at a position ends when `triggerAEChan` is closed. -/
def leaderLoopClosed (rf : Raft n Command) (position : Nat) : Option (Raft n Command) :=
  if rf.chansClosed ∧ rf.leaderLoops[position]? = some .waiting then
    some { rf with leaderLoops := rf.leaderLoops.eraseIdx position }
  else none

/-! ### The service side -/

/-- `Submit`, with the index it returns; its send on `triggerAEChan` panics once `Kill` has
closed the channel. -/
def submit (rf : Raft n Command) (command : Command) : Option (Raft n Command × Int) :=
  if rf.state ≠ .leader then some (rf, -1)
  else if rf.chansClosed then none
  else some ({ rf with log := rf.log ++ [LogEntry.mk command rf.currentTerm] }.persistToStorage,
    rf.log.length)

/-- The entries that `commitChanSender` cuts off, as it will send them. -/
def committedBatch (rf : Raft n Command) : List (CommitEntry Command) :=
  ((rf.log.take (rf.commitIndex + 1).toNat).drop (rf.lastApplied + 1).toNat).mapIdx
    fun position entry =>
      { command := entry.command, index := rf.lastApplied + position + 1, term := rf.currentTerm }

/-- `commitChanSender` receives from `newCommitReadyChan` and cuts its next batch. A slice up
to a `commitIndex` beyond the log is left to `Memory.takeReady`: what it holds depends on the array
behind it. -/
def takeReady (rf : Raft n Command) : Option (Raft n Command) :=
  if rf.newCommitReady = 0 ∨ rf.readyEntries ≠ [] then none
  else if rf.commitIndex > rf.lastApplied then
    if rf.commitIndex < rf.log.length then
      some { rf with
        newCommitReady := rf.newCommitReady - 1
        readyEntries := rf.committedBatch
        lastApplied := rf.commitIndex }
    else none
  else some { rf with newCommitReady := rf.newCommitReady - 1 }

/-- `commitChanSender` sends the next entry of its batch on `commitChan`. -/
def sendReady (rf : Raft n Command) : Option (Raft n Command × CommitEntry Command) :=
  match rf.readyEntries with
  | [] => none
  | entry :: rest => some ({ rf with readyEntries := rest }, entry)

/-- `Kill`. -/
def kill (rf : Raft n Command) : Option (Raft n Command) :=
  if rf.state = .dead then some rf
  else if rf.chansClosed then none
  else some { rf with state := .dead, chansClosed := true }

end Raft

end RaftInMotion
