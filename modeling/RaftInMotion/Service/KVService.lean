/-
This file embeds the key-value service of `internal/kv/server`. Each server has a `KVService` on
top of its Raft instance: the map, the subscriptions for log indices, and the entry its updater
goroutine is working on. A request is the state of its HTTP handler, `handlePut` or `handleGet`,
from the decoded body to the answer. Actions on the Raft instances other than `Submit` and the
sends on `commitChan` are taken over as they are.

`net/http` recovers a panic of a handler, so a second subscription for one index ends its request
without an answer and nothing else. A server that is created again starts with an empty map and
no subscriptions, and the handlers of its last instance are gone. Decoding and encoding of JSON
is left out, and so is `CommandInvalid`, which nothing submits.
-/

import RaftInMotion.Model.Hazards
import RaftInMotion.Library.Linearization

namespace RaftInMotion

/-! ### The map -/

/-- `DataStore`. -/
abbrev DataStore := String → Option String

namespace DataStore

/-- `NewDataStore`. -/
def empty : DataStore := fun _ => none

/-- `Get`; a missing key has the empty value. -/
def get (ds : DataStore) (key : String) : String × Bool :=
  ((ds key).getD "", (ds key).isSome)

/-- `Put`, with the previous value. -/
def put (ds : DataStore) (key value : String) : DataStore × (String × Bool) :=
  (Function.update ds key (some value), ds.get key)

end DataStore

/-! ### Data -/

inductive CommandKind
  | get
  | put
deriving DecidableEq, Repr

structure Command (n : Nat) where
  kind : CommandKind
  key : String
  value : String
  resultValue : String := ""
  resultFound : Bool := false
  id : Fin n
  /-- The request whose handler has made the command. The code has no such field, and no
  function reads it. -/
  request : Nat
deriving DecidableEq, Repr

/-- `PutRequest` and `GetRequest`. -/
inductive Operation
  | get (key : String)
  | put (key value : String)
deriving DecidableEq, Repr

/-- `PutResponse` and `GetResponse`, which differ in the name of the value. -/
inductive Response
  | ok (keyFound : Bool) (value : String)
  | notLeader
  | failedCommit
deriving DecidableEq, Repr

/-- How far the handler of a request has come. -/
inductive Phase (n : Nat)
  /-- It is about to call `Submit`. -/
  | received
  /-- `Submit` has returned an index. -/
  | submitted
  /-- It waits for its subscription. -/
  | subscribed
  /-- The channel of its subscription holds the entry. -/
  | notified (entry : CommitEntry (Command n))
  | finished
deriving DecidableEq, Repr

/-- A request and its handler. -/
structure Request (n : Nat) where
  server : Fin n
  operation : Operation
  logIndex : Option Int
  phase : Phase n
deriving DecidableEq, Repr

/-- What clients see of a service. -/
inductive ServiceEvent
  | received (request : Nat)
  | answered (request : Nat) (response : Response)
deriving DecidableEq, Repr

structure KVService (n : Nat) where
  /-- The request that has subscribed for an index. -/
  commitSubs : Int → Option Nat
  ds : DataStore
  /-- The entry the updater has executed and not yet handed over. -/
  executed : Option (CommitEntry (Command n))

variable {n : Nat}

/-- The command that the handler of a request submits. -/
def Request.command (request : Request n) (position : Nat) : Command n :=
  match request.operation with
  | .get key => { kind := .get, key := key, value := "", id := request.server, request := position }
  | .put key value =>
    { kind := .put, key := key, value := value, id := request.server, request := position }

namespace KVService

/-- What `New` creates. -/
def new : KVService n where
  commitSubs _ := none
  ds := DataStore.empty
  executed := none

/-- The updater performs a command. -/
def execute (ds : DataStore) (command : Command n) : DataStore × Command n :=
  match command.kind with
  | .get =>
    let result := ds.get command.key
    (ds, { command with resultValue := result.1, resultFound := result.2 })
  | .put =>
    let (ds, result) := ds.put command.key command.value
    (ds, { command with resultValue := result.1, resultFound := result.2 })

end KVService

/-! ### The service -/

structure Service (n : Nat) where
  cluster : Cluster n (Command n)
  kvs : Fin n → KVService n
  requests : List (Request n)
  /-- Newest first. -/
  history : List ServiceEvent

inductive ServiceAction (n : Nat)
  | receive (server : Fin n) (operation : Operation)
  | submit (request : Nat)
  | subscribe (request : Nat)
  | execute (server : Fin n)
  | handOver (server : Fin n)
  | answer (request : Nat)
  | giveUp (request : Nat)
  | raft (action : Action n (Command n))
deriving DecidableEq, Repr

namespace Service

/-- All servers as `New` creates them. -/
def start (n : Nat) (preload : Option (Preload (Command n))) : Service n where
  cluster := Cluster.start n preload
  kvs _ := KVService.new
  requests := []
  history := []

/-- The handler of a request moves on. -/
def move (v : Service n) (position : Nat) (request : Request n) (phase : Phase n) : Service n :=
  { v with requests := v.requests.set position { request with phase := phase } }

/-- A client sends a request, and its handler starts. -/
def receive (v : Service n) (server : Fin n) (operation : Operation) : Service n :=
  { v with
    requests := v.requests ++ [⟨server, operation, none, .received⟩]
    history := .received v.requests.length :: v.history }

/-- A handler answers its request. -/
def respond (v : Service n) (position : Nat) (request : Request n) (response : Response) :
    Service n :=
  { v.move position request .finished with history := .answered position response :: v.history }

/-- A handler calls `Submit`, and gives the answer for servers that do not lead. -/
def submit (v : Service n) (position : Nat) (request : Request n) : Option (Service n) :=
  ((v.cluster.node request.server).submit (request.command position)).map fun submitted =>
    let next := { v with cluster := v.cluster.act request.server submitted.1 [] [] }
    if submitted.2 < 0 then next.respond position request .notLeader
    else next.move position { request with logIndex := some submitted.2 } .submitted

/-- A handler calls `createCommitSubsciption`, which panics for an index that has one. -/
def subscribe (v : Service n) (position : Nat) (request : Request n) : Option (Service n) :=
  request.logIndex.map fun logIndex =>
    let kvs := v.kvs request.server
    match kvs.commitSubs logIndex with
    | some _ => v.move position request .finished
    | none =>
      { v.move position request .subscribed with
        kvs := Function.update v.kvs request.server
          { kvs with commitSubs := Function.update kvs.commitSubs logIndex (some position) } }

/-- The updater receives the next entry from `commitChan` and performs its command. -/
def execute (v : Service n) (server : Fin n) : Option (Service n) :=
  let kvs := v.kvs server
  if kvs.executed.isSome then none
  else ((v.cluster.node server).sendReady).map fun sent =>
    let (ds, command) := KVService.execute kvs.ds sent.2.command
    { v with
      cluster := v.cluster.act server sent.1 [] [.delivered server sent.2]
      kvs := Function.update v.kvs server
        { kvs with ds := ds, executed := some { sent.2 with command := command } } }

/-- The updater calls `popCommitSubscription` and sends the entry to the handler, if there is
one; a handler that has given up leaves its channel behind. -/
def handOver (v : Service n) (server : Fin n) : Option (Service n) :=
  let kvs := v.kvs server
  kvs.executed.map fun entry =>
    let popped := { v with
      kvs := Function.update v.kvs server { kvs with
        commitSubs := Function.update kvs.commitSubs entry.index none
        executed := none } }
    match kvs.commitSubs entry.index with
    | none => popped
    | some position =>
      match v.requests[position]? with
      | some request =>
        if request.phase = .subscribed then popped.move position request (.notified entry)
        else popped
      | none => popped

/-- A handler receives the entry from its subscription and answers. -/
def answer (v : Service n) (position : Nat) (request : Request n) : Option (Service n) :=
  match request.phase with
  | .notified entry =>
    some (v.respond position request
      (if entry.command.id = request.server then
        .ok entry.command.resultFound entry.command.resultValue
      else .failedCommit))
  | _ => none

/-- A handler stops waiting when its client has gone. -/
def giveUp (v : Service n) (position : Nat) (request : Request n) : Option (Service n) :=
  match request.phase with
  | .subscribed | .notified _ => some (v.move position request .finished)
  | _ => none

/-- A server is created again; the handlers of its last instance are gone. -/
def renew (v : Service n) (server : Fin n) (cluster : Cluster n (Command n)) : Service n :=
  { v with
    cluster := cluster
    kvs := Function.update v.kvs server KVService.new
    requests := v.requests.map fun request =>
      if request.server = server then { request with phase := .finished } else request }

def step (v : Service n) : ServiceAction n → Option (Service n)
  | .receive server operation => some (v.receive server operation)
  | .submit position =>
    (v.requests[position]?).bind fun request =>
      if request.phase = .received then v.submit position request else none
  | .subscribe position =>
    (v.requests[position]?).bind fun request =>
      if request.phase = .submitted then v.subscribe position request else none
  | .execute server => v.execute server
  | .handOver server => v.handOver server
  | .answer position => (v.requests[position]?).bind (v.answer position)
  | .giveUp position => (v.requests[position]?).bind (v.giveUp position)
  | .raft (.submit _ _) | .raft (.sendReady _) => none
  | .raft (.restart server) => (v.cluster.step (.restart server)).map (v.renew server)
  | .raft action => (v.cluster.step action).map fun cluster => { v with cluster := cluster }

/-! ### Conditions on runs -/

/-- The action of the Raft instances that is part of an action of the service. -/
def raftAction (v : Service n) : ServiceAction n → Option (Action n (Command n))
  | .submit position =>
    (v.requests[position]?).map fun request => .submit request.server (request.command position)
  | .execute server => some (.sendReady server)
  | .raft action => some action
  | _ => none

/-- A server gives a request an index that it has given to another one before. The check of
`entryCmd.Id` cannot tell their commands apart. -/
def reusedIndex (v : Service n) : ServiceAction n → Bool
  | .submit position =>
    match v.requests[position]? with
    | some request =>
      (v.cluster.node request.server).state = .leader && v.requests.any fun other =>
        other.server = request.server &&
          other.logIndex = some ((v.cluster.node request.server).log.length : Int)
    | none => false
  | _ => false

/-- Commitment is sound, also when servers are created again. -/
def sound (v : Service n) (action : ServiceAction n) : Bool :=
  match v.raftAction action with
  | some raft =>
    v.cluster.promptElections raft && v.cluster.truthfulAcks raft && !v.cluster.lateRead raft &&
      !v.cluster.unsavedRestart raft
  | none => true

/-- Moreover, no server uses an index twice. -/
def safe (v : Service n) (action : ServiceAction n) : Bool :=
  v.sound action && !v.reusedIndex action

end Service

/-! ### What clients see -/

/-- The answers of a service as answers of an object; any other answer refuses the request. -/
def ServiceEvent.visible : ServiceEvent → Linearization.Event Nat (Bool × String)
  | .received request => .received request
  | .answered request (.ok keyFound value) => .answered request (keyFound, value)
  | .answered request _ => .refused request

/-! ### The sequential map -/

def Operation.writes : Operation → Bool
  | .get _ => false
  | .put _ _ => true

/-- A map that serves one request after another; the answer is as in a `Response`. -/
def DataStore.perform (ds : DataStore) : Operation → DataStore × (Bool × String)
  | .get key => (ds, (ds key).isSome, (ds key).getD "")
  | .put key value => (Function.update ds key (some value), (ds key).isSome, (ds key).getD "")

def Command.operation (command : Command n) : Operation :=
  match command.kind with
  | .get => .get command.key
  | .put => .put command.key command.value

/-- The updater is the sequential map. -/
theorem KVService.execute_eq (ds : DataStore) (command : Command n) :
    KVService.execute ds command = ((ds.perform command.operation).1, { command with
      resultFound := (ds.perform command.operation).2.1
      resultValue := (ds.perform command.operation).2.2 }) := by
  unfold KVService.execute Command.operation
  cases command.kind <;> rfl

theorem Request.command_operation (request : Request n) (position : Nat) :
    (request.command position).operation = request.operation := by
  unfold Request.command
  cases request.operation <;> rfl

theorem Request.command_id (request : Request n) (position : Nat) :
    (request.command position).id = request.server := by
  unfold Request.command
  cases request.operation <;> rfl

theorem Request.command_request (request : Request n) (position : Nat) :
    (request.command position).request = position := by
  unfold Request.command
  cases request.operation <;> rfl

end RaftInMotion
