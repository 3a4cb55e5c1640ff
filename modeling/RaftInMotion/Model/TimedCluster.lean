/-
This file gives a cluster a clock. A server keeps `electionResetEvent`, and each goroutine in
`runElectionTimer` the `timeoutDuration` it has drawn; a timer that wakes up finds the timeout
expired when the time since the event has reached its duration. Everything else a cluster can do
is taken over, so that a timed run is a run of the cluster in which timers expire only when they
may. Time is counted in milliseconds and passes between two steps; a goroutine can wake up at any
time, which covers the ticks of its ticker.
-/

import RaftInMotion.Model.Hazards

namespace RaftInMotion

open Execution

variable {n : Nat} {Command : Type}

namespace Cluster

/-- A handler or `becomeFollower` sets `electionResetEvent` of the server. -/
def resets (c : Cluster n Command) (action : Action n Command) (s : Fin n) : Bool :=
  (match c.voteHandled action with
  | some (peer, args) =>
    peer = s && (c.node s).state ≠ .dead &&
      ((c.node s).currentTerm < args.term || ((c.node s).requestVote args).2.voteGranted)
  | none => false) ||
  (match c.appendHandled action with
  | some (peer, args) => peer = s && (c.node s).state ≠ .dead && (c.node s).currentTerm ≤ args.term
  | none => false) ||
  (match c.voteOutcome action with
  | some (call, outcome) => call.candidate = s && outcome.any ((c.node s).stepsDown call)
  | none => false) ||
  match c.appendAnswered action with
  | some (call, term) => call.leader = s && (c.node s).currentTerm < term
  | none => false

/-- A timer expires, and its server starts an election. -/
def startsElection (c : Cluster n Command) (action : Action n Command) (s : Fin n) : Bool :=
  match action with
  | .timer server position expired =>
    server = s && expired &&
      (c.node s).timers[position]? = some (some (c.node s).currentTerm) &&
      ((c.node s).state = .candidate || (c.node s).state = .follower)
  | _ => false

end Cluster

structure TimedCluster (n : Nat) (Command : Type) where
  cluster : Cluster n Command
  now : Nat
  /-- `none` is the zero time, which is long past. -/
  electionResetEvent : Fin n → Option Nat
  /-- The goroutine of `Make`, whose timer comes first, waits for `ready`. -/
  waiting : Fin n → Bool
  /-- The `timeoutDuration` of each goroutine in `rf.timers`; 0 before it is drawn. -/
  timeoutDurations : Fin n → List Nat

inductive TimedAction (n : Nat) (Command : Type)
  | tick (milliseconds : Nat)
  /-- The goroutine of `Make` finds `ready` closed. -/
  | ready (server : Fin n)
  /-- A goroutine enters `runElectionTimer` and draws a number below 150. -/
  | enter (server : Fin n) (position : Nat) (draw : Nat)
  /-- A goroutine in `runElectionTimer` receives from its ticker. -/
  | wake (server : Fin n) (position : Nat)
  /-- Anything that is not done by a timer. -/
  | other (action : Action n Command)
deriving DecidableEq, Repr

/-- `electionTimeout`, with what `rand.Intn(150)` returns. -/
def electionTimeout (draw : Nat) : Nat := 150 + draw

namespace TimedCluster

/-- `time.Since(rf.electionResetEvent) >= timeoutDuration`. -/
def expired (t : TimedCluster n Command) (s : Fin n) (timeoutDuration : Nat) : Bool :=
  match t.electionResetEvent s with
  | none => true
  | some event => timeoutDuration ≤ t.now - event

/-- The list with a place for every timer. -/
def extend (durations : List Nat) (timers : List (Option Nat)) : List Nat :=
  durations ++ List.replicate (timers.length - durations.length) 0

def enter (t : TimedCluster n Command) (s : Fin n) (position draw : Nat) :
    Option (TimedCluster n Command) :=
  if draw < 150 ∧ (t.cluster.node s).timers[position]? = some none ∧
      ¬ (t.waiting s = true ∧ position = 0) then
    (t.cluster.step (.timer s position false)).map fun next =>
      { t with
        cluster := next
        timeoutDurations := Function.update t.timeoutDurations s
          ((t.timeoutDurations s).set position (electionTimeout draw)) }
  else none

/-- A timer that goes on keeps its duration; one that ends or starts an election leaves. -/
def wake (t : TimedCluster n Command) (s : Fin n) (position : Nat) :
    Option (TimedCluster n Command) :=
  let rf := t.cluster.node s
  match rf.timers[position]? with
  | some (some termStarted) =>
    let expires := t.expired s ((t.timeoutDurations s).getD position 0)
    let goesOn := (rf.state = .candidate ∨ rf.state = .follower) ∧ termStarted = rf.currentTerm ∧
      expires = false
    (t.cluster.step (.timer s position expires)).map fun next =>
      { t with
        cluster := next
        electionResetEvent :=
          if t.cluster.startsElection (.timer s position expires) s then
            Function.update t.electionResetEvent s (some t.now)
          else t.electionResetEvent
        timeoutDurations :=
          if goesOn then t.timeoutDurations
          else Function.update t.timeoutDurations s
            (extend ((t.timeoutDurations s).eraseIdx position) (next.node s).timers) }
  | _ => none

/-- What happens in a cluster beside its timers; a server that is created again has the zero time
and waits for `ready`. -/
def other (t : TimedCluster n Command) : Action n Command → Option (TimedCluster n Command)
  | .timer _ _ _ => none
  | .restart s =>
    (t.cluster.step (.restart s)).map fun next =>
      { t with
        cluster := next
        electionResetEvent := Function.update t.electionResetEvent s none
        waiting := Function.update t.waiting s true
        timeoutDurations := Function.update t.timeoutDurations s [0] }
  | action =>
    (t.cluster.step action).map fun next =>
      { t with
        cluster := next
        electionResetEvent := fun s =>
          if t.cluster.resets action s then some t.now else t.electionResetEvent s
        timeoutDurations := fun s => extend (t.timeoutDurations s) (next.node s).timers }

def step (t : TimedCluster n Command) : TimedAction n Command → Option (TimedCluster n Command)
  | .tick milliseconds => some { t with now := t.now + milliseconds }
  | .ready s =>
    if t.waiting s then
      some { t with
        electionResetEvent := Function.update t.electionResetEvent s (some t.now)
        waiting := Function.update t.waiting s false }
    else none
  | .enter s position draw => t.enter s position draw
  | .wake s position => t.wake s position
  | .other action => t.other action

/-- All servers as `Make` creates them. -/
def start (n : Nat) (preload : Option (Preload Command)) : TimedCluster n Command where
  cluster := Cluster.start n preload
  now := 0
  electionResetEvent _ := none
  waiting _ := true
  timeoutDurations _ := [0]

end TimedCluster

end RaftInMotion
