/-
This file runs the goroutines of one Raft instance against each other, with the lock `rf.mu` and
the bounded channels `newCommitReadyChan` and `triggerAEChan`. A critical section that sends on
neither is one step, taken when the lock is free. One that sends is the same function of the
instance up to its send, and then one step for each send, with the lock held in between. `Submit`
sends after it has released the lock, and the goroutines of `startLeader` and `commitChanSender`
receive without it and wait for it afterwards. A send on a closed channel and a second `close` end
the process.

Requests, outcomes of calls and the ends of timeouts come from outside, in any order and with any
content. Building a request and answering one change nothing here and are left out.
-/

import RaftInMotion.Model.Outcomes

namespace RaftInMotion

/-! ### Goroutines -/

/-- What the goroutine that holds `rf.mu` is about to do. -/
inductive Holder
  /-- `AppendEntries` sends on `newCommitReadyChan`. -/
  | appendEntries
  /-- The reply handler of `leaderSendHeartbeats` sends on `newCommitReadyChan`. -/
  | replyCommit
  /-- It sends on `triggerAEChan`. -/
  | replyTrigger
deriving DecidableEq, Repr

/-- Where a goroutine of `startLeader` is. -/
inductive LoopStage
  /-- It waits for the lock in `leaderSendHeartbeats`. -/
  | heartbeat
  /-- It waits for its timer or for `triggerAEChan`. -/
  | select
  /-- It waits for the lock to look at the role. -/
  | check
deriving DecidableEq, Repr

structure Instance (n : Nat) (Command : Type) where
  rf : Raft n Command
  mu : Option Holder
  /-- The number of messages in `triggerAEChan`. -/
  triggerAE : Nat
  /-- The calls of `Submit` that have released the lock and not yet sent. -/
  submits : Nat
  /-- `commitChanSender` has received a message and waits for the lock. -/
  locking : Bool
  /-- The goroutines of `startLeader`, in the order of `rf.leaderLoops`. -/
  loops : List LoopStage
  /-- What has been received from `commitChan`. -/
  delivered : List (CommitEntry Command)
  /-- The process has panicked. -/
  crashed : Bool

inductive InstanceAction (n : Nat) (Command : Type)
  | requestVote (args : RequestVoteArgs n)
  | appendEntries (args : AppendEntriesArgs n Command)
  | receiveVote (call : VoteCall n) (outcome : Option RequestVoteReply)
  | receiveAppend (call : AppendCall n) (nextIndexForPeer : Nat)
      (args : AppendEntriesArgs n Command) (reply : AppendEntriesReply)
  | timer (position : Nat) (expired : Bool)
  | submit (command : Command)
  | kill
  /-- The goroutine that holds the lock sends. -/
  | holderSends
  /-- A call of `Submit` sends. -/
  | submitSends
  /-- A goroutine of `startLeader` gets the lock. -/
  | loopLocks (position : Nat)
  /-- A goroutine of `startLeader` wakes up, by `triggerAEChan` or by its timer. -/
  | loopWakes (position : Nat) (triggered : Bool)
  /-- A goroutine of `startLeader` finds `triggerAEChan` closed and empty. -/
  | loopEnds (position : Nat)
  /-- `commitChanSender` receives from `newCommitReadyChan`. -/
  | senderReceives
  /-- `commitChanSender` gets the lock and cuts its next batch. -/
  | senderCuts
  /-- `commitChanSender` sends the next entry of its batch on `commitChan`. -/
  | senderDelivers
deriving DecidableEq, Repr

variable {n : Nat} {Command : Type}

namespace Instance

/-- The capacity of `newCommitReadyChan`. -/
def newCommitReadyCap : Nat := 16

/-- The capacity of `triggerAEChan`. -/
def triggerAECap : Nat := 1

/-- `Make`. -/
def make (id : Fin n) (storage : Storage n Command) : Option (Instance n Command) :=
  (Raft.make id storage).map fun rf =>
    { rf := rf
      mu := none
      triggerAE := 0
      submits := 0
      locking := false
      loops := []
      delivered := []
      crashed := false }

/-! ### Critical sections -/

/-- The instance with empty and open channels, on which a function runs up to its first send. -/
@[simps] def unsent (i : Instance n Command) : Raft n Command :=
  { i.rf with newCommitReady := 0, chansClosed := false }

/-- What a function has done on the instance with empty and open channels, put back. -/
@[simps] def resume (i : Instance n Command) (next : Raft n Command) : Raft n Command :=
  { next with newCommitReady := i.rf.newCommitReady, chansClosed := i.rf.chansClosed }

/-- A critical section has been left, in which `startLeader` may have been called. -/
def advance (i : Instance n Command) (next : Raft n Command) : Instance n Command :=
  { i with
    rf := next
    loops := i.loops ++
      List.replicate (next.leaderLoops.length - i.rf.leaderLoops.length) .heartbeat }

/-- `AppendEntries`; it calls `persistToStorage` after its send. -/
def appendEntries (i : Instance n Command) (args : AppendEntriesArgs n Command) :
    Option (Instance n Command) :=
  (i.unsent.appendEntries args).map fun handled =>
    let next := i.resume handled.1
    if handled.1.newCommitReady = 0 then i.advance next
    else { i.advance { next with storage := i.rf.storage } with mu := some .appendEntries }

/-- What a goroutine of `leaderSendHeartbeats` does with the reply to its call. -/
def receiveAppend (i : Instance n Command) (call : AppendCall n) (nextIndexForPeer : Nat)
    (args : AppendEntriesArgs n Command) (reply : AppendEntriesReply) :
    Option (Instance n Command) :=
  (i.unsent.receiveAppend call nextIndexForPeer args reply).map fun next =>
    if next.newCommitReady = 0 then i.advance (i.resume next)
    else { i.advance (i.resume next) with mu := some .replyCommit }

/-- `Submit` up to its send. -/
def submit (i : Instance n Command) (command : Command) : Option (Instance n Command) :=
  (i.unsent.submit command).map fun submitted =>
    { i.advance (i.resume submitted.1) with
      submits := if submitted.2 = -1 then i.submits else i.submits + 1 }

/-- `Kill`. -/
def kill (i : Instance n Command) : Instance n Command :=
  match i.rf.kill with
  | some next => i.advance next
  | none => { i with crashed := true }

/-! ### Sends and receives -/

/-- The goroutine that holds the lock sends, and goes on to its next send or releases the lock. -/
def holderSends (i : Instance n Command) : Option (Instance n Command) :=
  match i.mu with
  | none => none
  | some holder =>
    if i.rf.chansClosed then some { i with crashed := true }
    else
      match holder with
      | .appendEntries =>
        if i.rf.newCommitReady < newCommitReadyCap then
          some { i with
            rf := { i.rf with newCommitReady := i.rf.newCommitReady + 1 }.persistToStorage
            mu := none }
        else none
      | .replyCommit =>
        if i.rf.newCommitReady < newCommitReadyCap then
          some { i with
            rf := { i.rf with newCommitReady := i.rf.newCommitReady + 1 }
            mu := some .replyTrigger }
        else none
      | .replyTrigger =>
        if i.triggerAE < triggerAECap then
          some { i with triggerAE := i.triggerAE + 1, mu := none }
        else none

/-- A call of `Submit` sends on `triggerAEChan`. -/
def submitSends (i : Instance n Command) : Option (Instance n Command) :=
  if i.submits = 0 then none
  else if i.rf.chansClosed then some { i with crashed := true }
  else if i.triggerAE < triggerAECap then
    some { i with triggerAE := i.triggerAE + 1, submits := i.submits - 1 }
  else none

/-- A goroutine of `startLeader` runs `leaderSendHeartbeats`, or it looks at the role and goes on
or ends. -/
def loopLocks (i : Instance n Command) (position : Nat) : Option (Instance n Command) :=
  (i.rf.leaderLoop position).bind fun turned =>
    match i.loops[position]? with
    | some .heartbeat => some { i with rf := turned.1, loops := i.loops.set position .select }
    | some .check =>
      some { i with
        rf := turned.1
        loops :=
          if i.rf.state ≠ .leader then i.loops.eraseIdx position
          else i.loops.set position .heartbeat }
    | _ => none

def loopWakes (i : Instance n Command) (position : Nat) (triggered : Bool) :
    Option (Instance n Command) :=
  if i.loops[position]? = some .select then
    if triggered then
      if i.triggerAE = 0 then none
      else some { i with triggerAE := i.triggerAE - 1, loops := i.loops.set position .check }
    else some { i with loops := i.loops.set position .check }
  else none

def loopEnds (i : Instance n Command) (position : Nat) : Option (Instance n Command) :=
  if i.loops[position]? = some .select ∧ i.triggerAE = 0 then
    (i.rf.leaderLoopClosed position).map fun next =>
      { i with rf := next, loops := i.loops.eraseIdx position }
  else none

/-- `commitChanSender` receives when it has sent its last batch. -/
def senderReceives (i : Instance n Command) : Option (Instance n Command) :=
  if i.rf.newCommitReady = 0 ∨ i.locking ∨ i.rf.readyEntries ≠ [] then none
  else some { i with
    rf := { i.rf with newCommitReady := i.rf.newCommitReady - 1 }
    locking := true }

def senderCuts (i : Instance n Command) : Option (Instance n Command) :=
  if i.locking then
    ({ i.rf with newCommitReady := i.rf.newCommitReady + 1 }.takeReady).map fun next =>
      { i with rf := next, locking := false }
  else none

def senderDelivers (i : Instance n Command) : Option (Instance n Command) :=
  (i.rf.sendReady).map fun sent =>
    { i with rf := sent.1, delivered := i.delivered ++ [sent.2] }

/-! ### Steps -/

/-- The steps that take the lock. -/
def locks : InstanceAction n Command → Bool
  | .requestVote _ | .appendEntries _ | .receiveVote _ _ | .receiveAppend _ _ _ _ | .timer _ _
  | .submit _ | .kill | .loopLocks _ | .senderCuts => true
  | .holderSends | .submitSends | .loopWakes _ _ | .loopEnds _ | .senderReceives
  | .senderDelivers => false

/-- What a goroutine does that can go on. -/
def perform (i : Instance n Command) : InstanceAction n Command → Option (Instance n Command)
  | .requestVote args => some (i.advance (i.rf.requestVote args).1)
  | .appendEntries args => i.appendEntries args
  | .receiveVote call outcome => some (i.advance (i.rf.receiveVote call outcome))
  | .receiveAppend call nextIndexForPeer args reply =>
    i.receiveAppend call nextIndexForPeer args reply
  | .timer position expired =>
    (i.rf.electionTimer position expired).map fun fired => i.advance fired.1
  | .submit command => i.submit command
  | .kill => some i.kill
  | .holderSends => i.holderSends
  | .submitSends => i.submitSends
  | .loopLocks position => i.loopLocks position
  | .loopWakes position triggered => i.loopWakes position triggered
  | .loopEnds position => i.loopEnds position
  | .senderReceives => i.senderReceives
  | .senderCuts => i.senderCuts
  | .senderDelivers => i.senderDelivers

def step (i : Instance n Command) (action : InstanceAction n Command) :
    Option (Instance n Command) :=
  if i.crashed ∨ locks action ∧ i.mu.isSome then none else i.perform action

end Instance

end RaftInMotion
