/-
This file puts the RPC servers between the instances of a cluster: the clients that every `Server`
holds for its peers, and its `RPCProxy`, which can be told to drop calls. A goroutine that has built
its request calls `Server.Call`, and only a call that finds a client and is not dropped sends the
request. The sections of a call happen at once here; whether the client is still open when it is
used is left to the action.
-/

import RaftInMotion.Model.Hazards

namespace RaftInMotion

open Execution

variable {n : Nat} {Command : Type}

/-- How far the call of a goroutine is, once its request has been built. -/
inductive CallPhase
  | built
  | sent
  /-- Its client has been closed since: the request may still arrive, but no reply. -/
  | closed
  /-- It has returned an error, and nothing has been sent. -/
  | refused
deriving DecidableEq, Repr

/-- The caller and the peer of a call in progress. -/
def Task.called : Task n Command → Option (Fin n × Fin n)
  | .voteSent call _ | .voteReplied call _ => some (call.candidate, call.peer)
  | .appendSent call _ _ | .appendReplied call _ _ _ => some (call.leader, call.peer)
  | _ => none

/-- The server that a request on its way is for. -/
def Task.addressee : Task n Command → Option (Fin n)
  | .voteSent call _ => some call.peer
  | .voteLost peer _ => some peer
  | .appendSent call _ _ => some call.peer
  | .appendLost peer _ => some peer
  | _ => none

structure Network (n : Nat) (Command : Type) where
  cluster : Cluster n Command
  /-- The client for the second server is not nil in `peerClients` of the first. -/
  peerClients : Fin n → Fin n → Bool
  numCallsBeforeDrop : Fin n → Int
  /-- By the place of the goroutine in the pool. -/
  phases : Nat → CallPhase

inductive NetworkAction (n : Nat) (Command : Type)
  | raft (action : Action n Command)
  /-- The client that is found is still open, or is not. -/
  | call (task : Nat) (opened : Bool)
  /-- Dialling the peer succeeds, or fails. -/
  | connectToPeer (id peerId : Fin n) (dialled : Bool)
  | disconnectPeer (id peerId : Fin n)
  | disconnectAll (id : Fin n)
  | dropCallsAfterN (id : Fin n) (calls : Int)
  | dontDropCalls (id : Fin n)
deriving DecidableEq, Repr

namespace Network

/-- All servers are connected with each other, and drop no calls. -/
def start (preload : Option (Preload Command)) : Network n Command where
  cluster := Cluster.start n preload
  peerClients id peerId := id ≠ peerId
  numCallsBeforeDrop _ := -1
  phases _ := .built

/-- The proxy of the server lets the next call pass. -/
def passes (x : Network n Command) (id peerId : Fin n) : Bool :=
  x.peerClients id peerId && x.numCallsBeforeDrop id ≠ 0

/-- `Server.Call` and `RPCProxy.Call`. -/
def call (x : Network n Command) (task : Nat) (opened : Bool) : Option (Network n Command) :=
  match x.cluster.pool[task]?.bind Task.called with
  | some (id, peerId) =>
    if x.phases task ≠ .built then none
    else if !x.passes id peerId then
      some { x with phases := Function.update x.phases task .refused }
    else
      some { x with
        numCallsBeforeDrop :=
          if x.numCallsBeforeDrop id > 0 then
            Function.update x.numCallsBeforeDrop id (x.numCallsBeforeDrop id - 1)
          else x.numCallsBeforeDrop
        phases := Function.update x.phases task (if opened then .sent else .refused) }
  | none => none

/-- The clients of the server for these peers are closed, and their calls return. -/
def close (x : Network n Command) (id : Fin n) (peers : Fin n → Bool) : Network n Command where
  cluster := x.cluster
  peerClients :=
    Function.update x.peerClients id fun peerId => x.peerClients id peerId && !peers peerId
  numCallsBeforeDrop := x.numCallsBeforeDrop
  phases task :=
    if x.phases task = .sent ∧ ((x.cluster.pool[task]?.bind Task.called).any fun (caller, peerId) =>
        caller = id && peers peerId) then .closed
    else x.phases task

def connectToPeer (x : Network n Command) (id peerId : Fin n) (dialled : Bool) :
    Network n Command :=
  if !x.peerClients id peerId && dialled then
    let clients := Function.update (x.peerClients id) peerId true
    { x with peerClients := Function.update x.peerClients id clients }
  else x

def disconnectPeer (x : Network n Command) (id peerId : Fin n) : Network n Command :=
  x.close id fun peer => peer = peerId

def disconnectAll (x : Network n Command) (id : Fin n) : Network n Command :=
  x.close id fun _ => true

/-- `DropCallsAfterN` and `DontDropCalls`. -/
def setBudget (x : Network n Command) (id : Fin n) (calls : Int) : Network n Command :=
  { x with numCallsBeforeDrop := Function.update x.numCallsBeforeDrop id calls }

/-- A request is handled only when it has been sent, a reply needs an open client, and a call that
is built has not failed yet. -/
def allows (x : Network n Command) : Action n Command → Bool
  | .handle task => x.phases task = .sent || x.phases task = .closed
  | .finish task => x.phases task = .sent
  | .fail task => x.phases task ≠ .built
  | _ => true

/-- A step of the instances. One that is created again has a new `Server`, without clients. -/
def raft (x : Network n Command) (action : Action n Command) : Option (Network n Command) :=
  if x.allows action then
    (x.cluster.step action).map fun next =>
      match action with
      | .send task =>
        { x with cluster := next, phases := Function.update x.phases task .built }
      | .restart server => { (x.disconnectAll server).setBudget server (-1) with cluster := next }
      | _ => { x with cluster := next }
  else none

def step (x : Network n Command) : NetworkAction n Command → Option (Network n Command)
  | .raft action => x.raft action
  | .call task opened => x.call task opened
  | .connectToPeer id peerId dialled => some (x.connectToPeer id peerId dialled)
  | .disconnectPeer id peerId => some (x.disconnectPeer id peerId)
  | .disconnectAll id => some (x.disconnectAll id)
  | .dropCallsAfterN id calls => some (x.setBudget id calls)
  | .dontDropCalls id => some (x.setBudget id (-1))

/-- The step of the instances that an action is, if it is one. -/
def raftAction : NetworkAction n Command → Option (Action n Command)
  | .raft action => some action
  | _ => none

/-- `DisconnectServiceFromPeers` of the harness. -/
def disconnectService (id : Fin n) : List (NetworkAction n Command) :=
  .disconnectAll id ::
    ((List.finRange n).filter fun j => j ≠ id).map fun j => .disconnectPeer j id

/-- The call of a goroutine reaches its peer, which answers. -/
def roundTrip (task : Nat) : List (NetworkAction n Command) :=
  [.raft (.send task), .call task true, .raft (.handle task), .raft (.finish task)]

end Network

end RaftInMotion
