/-
This file keeps the instances that have been replaced, which `Cluster.restart` leaves out. There a
server that is created again takes the place of its last instance, whose goroutines are gone. In the
code they go on: the replies to its calls still reach them, its timers still run, and
`commitChanSender` still has its batch.

An instance that has been replaced is kept in the cluster in which it was left, and only its own
goroutines run there. What it had sent before can still be handled by the others, and is answered.
What it sends later reaches nobody, since its server has been disconnected from all peers. No
request reaches it, and nothing that it does is written to the storage: `Shutdown` has waited for
its handlers, and `Submit` panics after `Kill`.
-/

import RaftInMotion.Model.Logs

namespace RaftInMotion

open Execution

variable {n : Nat} {Command : Type}

/-! ### Replaced instances -/

/-- The action is taken by a goroutine of the server itself, and by none of its handlers. -/
def Cluster.own (c : Cluster n Command) (s : Fin n) : Action n Command → Bool
  | .timer server _ _ | .submit server _ | .leaderLoop server _ | .leaderLoopClosed server _
  | .takeReady server | .sendReady server | .kill server => server = s
  | .send task | .finish task | .fail task => c.pool[task]?.bind Task.caller = some s
  | .handle _ | .restart _ => false

structure Replaced (n : Nat) (Command : Type) where
  server : Fin n
  /-- The cluster in which the instance was left. -/
  cluster : Cluster n Command
  /-- How many goroutines there were when it was left. -/
  spawned : Nat

namespace Replaced

/-- A goroutine of the instance goes on. -/
def step (old : Replaced n Command) (action : Action n Command) : Option (Replaced n Command) :=
  if old.cluster.own old.server action then
    (old.cluster.step action).map fun next => { old with cluster := next }
  else none

/-- A request that was sent before is handled in a cluster, and the goroutine that waits for the
reply gets it. -/
def hears (old : Replaced n Command) (c : Cluster n Command) (task : Nat) : Replaced n Command :=
  if task < old.spawned then
    match { c with pool := old.cluster.pool }.handle task with
    | some next => { old with cluster := { old.cluster with pool := next.pool } }
    | none => old
  else old

/-- A reply to `AppendEntries` with a larger term makes the instance a follower. -/
def revives (old : Replaced n Command) (action : Action n Command) : Bool :=
  match old.cluster.appendAnswered action with
  | some (call, term) => (old.cluster.node call.leader).currentTerm < term
  | none => false

end Replaced

/-! ### All instances -/

/-- A cluster, and the instances that those in it have replaced. -/
structure Incarnations (n : Nat) (Command : Type) where
  cluster : Cluster n Command
  replaced : List (Replaced n Command)

inductive IncarnationAction (n : Nat) (Command : Type)
  | now (action : Action n Command)
  /-- An action of the replaced instance at a position. -/
  | old (position : Nat) (action : Action n Command)
deriving DecidableEq, Repr

namespace Incarnations

def start (n : Nat) (preload : Option (Preload Command)) : Incarnations n Command :=
  ⟨Cluster.start n preload, []⟩

/-- The replaced instances after an action of the cluster. -/
def replacedBy (x : Incarnations n Command) : Action n Command → List (Replaced n Command)
  | .handle task => x.replaced.map fun old => old.hears x.cluster task
  | .restart server => x.replaced ++ [⟨server, x.cluster, x.cluster.pool.length⟩]
  | _ => x.replaced

def step (x : Incarnations n Command) :
    IncarnationAction n Command → Option (Incarnations n Command)
  | .now action => (x.cluster.step action).map fun next => ⟨next, x.replacedBy action⟩
  | .old position action =>
    (x.replaced[position]?.bind fun old => old.step action).map fun old =>
      { x with replaced := x.replaced.set position old }

abbrev run (preload : Option (Preload Command)) (actions : List (IncarnationAction n Command)) :
    Option (Incarnations n Command) :=
  execute step (start n preload) actions

/-- What has been observed of all instances. -/
def observed (x : Incarnations n Command) : List (Event n Command) :=
  x.replaced.flatMap (fun old => old.cluster.history) ++ x.cluster.history

/-! ### Hazards -/

/-- A reply with a larger term brings an instance back that has been replaced. -/
def revived (x : Incarnations n Command) : IncarnationAction n Command → Bool
  | .old position action => x.replaced[position]?.any fun old => old.revives action
  | .now _ => false

/-- The actions of the cluster meet the condition. -/
def meets (allowed : Cluster n Command → Action n Command → Bool) (x : Incarnations n Command) :
    IncarnationAction n Command → Bool
  | .now action => allowed x.cluster action
  | .old _ _ => true

/-- Servers are created again from all they have shown, and their last instances stay dead. -/
def safeRestarts (x : Incarnations n Command) (action : IncarnationAction n Command) : Bool :=
  x.meets Cluster.safeRestarts action && !x.revived action

end Incarnations

/-! ### Logs -/

/-- All instances, and what they have logged, in order. -/
structure LoggedIncarnations (n : Nat) (Command : Type) where
  incarnations : Incarnations n Command
  logged : List (RaftLog n)

namespace LoggedIncarnations

def start (preload : Option (Preload Command)) : LoggedIncarnations n Command :=
  ⟨Incarnations.start n preload, []⟩

/-- What is logged in a step. -/
def logs (x : Incarnations n Command) : IncarnationAction n Command → List (RaftLog n)
  | .now action => x.cluster.logs action
  | .old position action =>
    match x.replaced[position]? with
    | some old => old.cluster.logs action
    | none => []

def step (x : LoggedIncarnations n Command) (action : IncarnationAction n Command) :
    Option (LoggedIncarnations n Command) :=
  (x.incarnations.step action).map fun next => ⟨next, x.logged ++ logs x.incarnations action⟩

end LoggedIncarnations

end RaftInMotion
