/-
This file gives the arrays behind the logs, which `Model.Raft` leaves out. There a request holds the
entries it was built with, and a batch those it was cut with. In the code both are slices of
`rf.log`, and their cells are read after `rf.mu` has been released: those of a request one by one
when `net/rpc` encodes it, those of a batch when `commitChanSender` comes to send them. Until then
`Submit` and `AppendEntries` may write to the same array.

A machine is a system that runs the instances, with these arrays. It does what the system does,
reads the next entry of a request or of a batch in between, and cuts a batch from the array, also
beyond the end of the log. `Machine.projects` says when the two are the same: as long as no entry is
read that has been rewritten since, and no batch goes beyond the log.

An entry is read and written at once. A goroutine whose call has failed encodes no more of its
request, and the arrays of a killed instance stay with its server.
-/

import RaftInMotion.Library.Slices
import RaftInMotion.Model.Turns

namespace RaftInMotion

open Execution Slices

variable {n : Nat} {Command : Type}

/-! ### Writes -/

/-- Where `AppendEntries` appends to the log, and what. -/
def Raft.insertion (rf : Raft n Command) (args : AppendEntriesArgs n Command) :
    Option (Nat × List (LogEntry Command)) :=
  let newEntriesIndex := matchEntries rf.log (args.prevLogIndex.toNat + 1) args.entries
  if rf.accepts args && newEntriesIndex < args.entries.length then
    some (args.prevLogIndex.toNat + 1 + newEntriesIndex, args.entries.drop newEntriesIndex)
  else none

/-- The log whose end an action replaces, from which position on, and by what. -/
def Cluster.writes (c : Cluster n Command) :
    Action n Command → Option (Fin n × Nat × List (LogEntry Command))
  | .submit server command =>
    if (c.node server).state = .leader then
      some (server, (c.node server).log.length, [⟨command, (c.node server).currentTerm⟩])
    else none
  | action =>
    (c.appendHandled action).bind fun (peer, args) =>
      ((c.node peer).insertion args).map fun (position, entries) => (peer, position, entries)

/-! ### Memory -/

structure Memory (n : Nat) (Command : Type) where
  /-- The arrays behind `rf.log`. -/
  arrays : Fin n → Arrays (LogEntry Command)
  /-- The array that the entries of a request are in, by the place of its goroutine. -/
  requested : Nat → Nat
  /-- How many entries of a request have been encoded. -/
  encoded : Nat → Nat
  /-- The array that the batch of `commitChanSender` is in. -/
  batched : Fin n → Nat
  /-- `commitChanSender` has read the entry that it sends next. -/
  loaded : Fin n → Bool

namespace Memory

/-- The logs are all there is, with some room behind each. -/
def start (c : Cluster n Command) (room : Fin n → Nat) : Memory n Command where
  arrays s := Arrays.fresh (c.node s).log (room s)
  requested _ := 0
  encoded _ := 0
  batched _ := 0
  loaded _ := false

/-- A request is handled only when it has been encoded, and an entry is sent only when it has been
read. -/
def permits (memory : Memory n Command) (c : Cluster n Command) : Action n Command → Bool
  | .handle task =>
    match c.pool[task]?.bind Task.appendRequest with
    | some (_, args) => memory.encoded task = args.entries.length
    | none => true
  | .sendReady server => memory.loaded server
  | _ => true

/-- `takeReady` cuts its batch from the array. A cell behind the log that has never been written
holds no command, which `runUpdater` panics on, and beyond the capacity the slice itself does. -/
def takeReady (memory : Memory n Command) (c : Cluster n Command) (server : Fin n) :
    Option (Cluster n Command) :=
  let sliced : Raft n Command := { c.node server with log := (memory.arrays server).cells }
  sliced.takeReady.map fun next =>
    c.act server { next with log := (c.node server).log } [] []

/-- What an action of the instances does to the memory, when the runtime gives a new array this
much room. -/
def after (memory : Memory n Command) (c : Cluster n Command) (action : Action n Command)
    (room : Nat) : Memory n Command :=
  match action with
  | .send task =>
    match c.pool[task]? with
    | some (.appendSpawned call) =>
      { memory with
        requested := Function.update memory.requested task (memory.arrays call.leader).newest
        encoded := Function.update memory.encoded task 0 }
    | _ => memory
  | .takeReady server =>
    { memory with
      batched := Function.update memory.batched server (memory.arrays server).newest }
  | .sendReady server => { memory with loaded := Function.update memory.loaded server false }
  | .restart server =>
    { memory with
      arrays := Function.update memory.arrays server
        ((memory.arrays server).allocate ((c.node server).storage.log.getD []) room)
      loaded := Function.update memory.loaded server false }
  | action =>
    match c.writes action with
    | some (server, position, entries) =>
      { memory with
        arrays := Function.update memory.arrays server
          ((memory.arrays server).append position entries room) }
    | none => memory

/-- The log of every server is what its newest array begins with. -/
def Holds (memory : Memory n Command) (c : Cluster n Command) : Prop :=
  ∀ s, (c.node s).log <+: (memory.arrays s).cells

end Memory

/-! ### Machines -/

/-- A system that the instances are part of. -/
structure Host (n : Nat) (Command State Act : Type) where
  step : State → Act → Option State
  cluster : State → Cluster n Command
  put : State → Cluster n Command → State
  /-- The action of the instances that is part of an action. -/
  raftAction : State → Act → Option (Action n Command)
  put_cluster : ∀ state, put state (cluster state) = state
  step_cluster : ∀ {state action next}, step state action = some next →
    execute Cluster.step (cluster state) (raftAction state action).toList = some (cluster next)
  step_takeReady : ∀ {state action server}, raftAction state action = some (.takeReady server) →
    step state action = ((cluster state).step (.takeReady server)).map (put state)

/-- The cluster by itself. -/
def Cluster.host : Host n Command (Cluster n Command) (Action n Command) where
  step := Cluster.step
  cluster c := c
  put _ c := c
  raftAction _ action := some action
  put_cluster _ := rfl
  step_cluster taken := execute_cons.mpr ⟨_, taken, rfl⟩
  step_takeReady same := by
    cases same
    exact Option.map_id'.symm

structure Machine (n : Nat) (Command State : Type) where
  state : State
  memory : Memory n Command

inductive MachineAction (n : Nat) (Act : Type)
  /-- An action of the system, and the room that a new array gets. -/
  | act (action : Act) (room : Nat)
  /-- The next entry of a request is encoded. -/
  | encode (task : Nat)
  /-- `commitChanSender` reads the next entry of its batch. -/
  | load (server : Fin n)
deriving DecidableEq, Repr

/-- The action of the system that an action is, if it is one. -/
def MachineAction.act? {Act : Type} : MachineAction n Act → Option Act
  | .act action _ => some action
  | _ => none

namespace Machine

variable {State Act : Type} (host : Host n Command State Act)

def start (state : State) (room : Fin n → Nat) : Machine n Command State :=
  ⟨state, Memory.start (host.cluster state) room⟩

/-- The next entry of the request of a goroutine, as its array holds it now. -/
def nextEncoded (x : Machine n Command State) (task : Nat) : Option (LogEntry Command) :=
  match (host.cluster x.state).pool[task]? with
  | some (.appendSent call nextIndexForPeer _) =>
    (x.memory.arrays call.leader).read (x.memory.requested task)
      (nextIndexForPeer + x.memory.encoded task)
  | _ => none

/-- The next entry of the batch of a server, as its array holds it now. -/
def nextLoaded (x : Machine n Command State) (server : Fin n) : Option Command :=
  ((host.cluster x.state).node server).readyEntries.head?.bind fun entry =>
    ((x.memory.arrays server).read (x.memory.batched server) entry.index.toNat).map
      LogEntry.command

/-- The next entry of a request is encoded, and goes out as the array holds it. -/
def encode (x : Machine n Command State) (task : Nat) : Option (Machine n Command State) :=
  let c := host.cluster x.state
  match c.pool[task]? with
  | some (.appendSent call nextIndexForPeer args) =>
    if x.memory.encoded task < args.entries.length then
      (x.nextEncoded host task).map fun entry =>
        { state := host.put x.state (c.settle task (.appendSent call nextIndexForPeer
            { args with entries := args.entries.set (x.memory.encoded task) entry }))
          memory := { x.memory with
            encoded := Function.update x.memory.encoded task (x.memory.encoded task + 1) } }
    else none
  | _ => none

/-- `commitChanSender` reads the next entry of its batch, and sends it as the array holds it. -/
def load (x : Machine n Command State) (server : Fin n) : Option (Machine n Command State) :=
  let c := host.cluster x.state
  match (c.node server).readyEntries with
  | [] => none
  | entry :: rest =>
    if x.memory.loaded server then none
    else (x.nextLoaded host server).map fun command =>
      { state := host.put x.state (c.act server
          { c.node server with readyEntries := { entry with command := command } :: rest } [] [])
        memory := { x.memory with loaded := Function.update x.memory.loaded server true } }

/-- A step of the system, with what it does to the memory. -/
def act (x : Machine n Command State) (action : Act) (room : Nat) :
    Option (Machine n Command State) :=
  match host.raftAction x.state action with
  | none => (host.step x.state action).map fun next => { x with state := next }
  | some raft =>
    let c := host.cluster x.state
    if x.memory.permits c raft then
      (match raft with
        | .takeReady server => (x.memory.takeReady c server).map (host.put x.state)
        | _ => host.step x.state action).map fun next =>
          ⟨next, x.memory.after c raft room⟩
    else none

def step (x : Machine n Command State) : MachineAction n Act → Option (Machine n Command State)
  | .act action room => x.act host action room
  | .encode task => x.encode host task
  | .load server => x.load host server

/-- The state a schedule leads to, from a state of the system and some room behind its logs. -/
abbrev run (state : State) (room : Fin n → Nat) (actions : List (MachineAction n Act)) :
    Option (Machine n Command State) :=
  execute (step host) (start host state room) actions

/-! ### Hazards -/

/-- The next entry of a request is not what it was when the request was built, or the next one of a
batch not what it was when the batch was cut: its cell has been written since. -/
def rewritten [DecidableEq Command] (x : Machine n Command State) : MachineAction n Act → Bool
  | .encode task =>
    match (host.cluster x.state).pool[task]? with
    | some (.appendSent _ _ args) =>
      x.nextEncoded host task ≠ args.entries[x.memory.encoded task]?
    | _ => false
  | .load server =>
    x.nextLoaded host server ≠
      ((host.cluster x.state).node server).readyEntries.head?.map CommitEntry.command
  | .act _ _ => false

/-- `commitChanSender` cuts a batch that goes beyond the end of the log. -/
def overcuts (state : State) (action : Act) : Bool :=
  match host.raftAction state action with
  | some (.takeReady server) =>
    let rf := (host.cluster state).node server
    rf.lastApplied < rf.commitIndex && rf.log.length ≤ rf.commitIndex
  | _ => false

/-- The memory lets the system take the action. -/
def permits (x : Machine n Command State) (action : Act) : Bool :=
  match host.raftAction x.state action with
  | some raft => x.memory.permits (host.cluster x.state) raft
  | none => true

/-- The steps of the system meet the condition. -/
def meets (allowed : State → Act → Bool) (x : Machine n Command State) :
    MachineAction n Act → Bool
  | .act action _ => !x.permits host action || allowed x.state action
  | .encode _ | .load _ => true

/-- Moreover, no entry is read that has been rewritten. -/
def keeps [DecidableEq Command] (allowed : State → Act → Bool) (x : Machine n Command State)
    (action : MachineAction n Act) : Bool :=
  !x.rewritten host action && x.meets host allowed action

/-- Moreover, no batch goes beyond the end of the log. -/
def intact [DecidableEq Command] (allowed : State → Act → Bool) :
    Machine n Command State → MachineAction n Act → Bool :=
  keeps host fun state action => allowed state action && !overcuts host state action

/-! ### Schedules -/

/-- An entry is read right before it is sent. -/
def loads (state : State) (action : Act) : List (MachineAction n Act) :=
  match host.raftAction state action with
  | some (.sendReady server) => [.load server]
  | _ => []

/-- A request is encoded as soon as it is built. -/
def encodes (state next : State) (action : Act) : List (MachineAction n Act) :=
  match host.raftAction state action with
  | some (.send task) =>
    match (host.cluster next).pool[task]? with
    | some (.appendSent _ _ args) => List.replicate args.entries.length (.encode task)
    | _ => []
  | _ => []

/-- A schedule of the system in which everything is read at once. -/
def promptly : State → List Act → List (MachineAction n Act)
  | _, [] => []
  | state, action :: rest =>
    match host.step state action with
    | some next =>
      loads host state action ++ .act action 0 :: encodes host state next action ++
        promptly next rest
    | none => []

/-- The state that it leads to, without room behind the logs. -/
abbrev runPromptly (state : State) (actions : List Act) : Option (Machine n Command State) :=
  run host state (fun _ => 0) (promptly host state actions)

end Machine

end RaftInMotion
