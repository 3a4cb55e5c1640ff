/-
This file runs calls of `Put` against the service, and settles whether a call takes effect more
than once. An attempt that the client gives up after its 50 ms may have been taken by a leader and
may still be committed, or have been committed already, when a later attempt of the call reaches a
leader; nothing in a `Command` tells that both are one call. Timeouts, losses and answers come in
any order, and so does what the service and other clients do in between.
-/

import RaftInMotion.Client.KVClient
import RaftInMotion.Service.Sharing

namespace RaftInMotion

open Client (KVClient PutResponse Attempt Exchange)
open Cluster Execution

variable {n : Nat}

/-! ### Calls -/

/-- Where a call of `send` is. -/
inductive CallStage
  /-- It is about to call `sendJSONRequest`. -/
  | sending
  /-- `sendJSONRequest` waits; the request may have reached a server. -/
  | waiting (request : Option Nat)
  | returned
deriving DecidableEq, Repr

/-- A call of `Put`. -/
structure PutCall where
  client : KVClient
  key : String
  value : String
  /-- The requests that have reached a server. -/
  attempts : List Nat
  stage : CallStage
deriving DecidableEq, Repr

/-- The call after `sendJSONRequest` has returned: it goes on with the next server, or returns. -/
def PutCall.after (call : PutCall) (attempt : Attempt PutResponse) : PutCall :=
  if attempt.retried then { call with client := call.client.nextLeader, stage := .sending }
  else { call with stage := .returned }

/-- The answer of a handler as the client decodes it. -/
def Response.decoded : Response → PutResponse
  | .ok keyFound value => { respStatus := .ok, keyFound := keyFound, prevValue := value }
  | .notLeader => { respStatus := .notLeader }
  | .failedCommit => { respStatus := .failedCommit }

/-- A service with its clients. -/
structure Clients (n : Nat) where
  service : Service n
  /-- The server that listens on an address. -/
  listens : String → Option (Fin n)
  calls : List PutCall

inductive ClientsAction (n : Nat)
  | put (client : KVClient) (key value : String)
  /-- `sendJSONRequest` is called, and the request arrives or not. -/
  | attempt (call : Nat) (arrives : Bool)
  /-- `sendJSONRequest` returns. -/
  | outcome (call : Nat) (attempt : Attempt PutResponse)
  /-- The service takes a step; a request that it receives is of none of the calls. -/
  | service (action : ServiceAction n)
deriving DecidableEq, Repr

/-- The index that `Submit` has returned for a request. -/
def Service.indexOf (v : Service n) (r : Nat) : Option Int :=
  (v.requests[r]?).bind Request.logIndex

/-- An entry that satisfies the condition is in a log, in a request on its way, cut or sent. -/
def Cluster.holds (c : Cluster n (Command n)) (wanted : Int → Command n → Bool) : Bool :=
  (List.finRange n).any (fun s =>
    (c.node s).log.zipIdx.any (fun found => wanted found.2 found.1.command) ||
      (c.node s).readyEntries.any fun entry => wanted entry.index entry.command) ||
  c.pool.any (fun task => task.appendRequest.any fun request =>
    request.2.entries.zipIdx.any fun found =>
      wanted (request.2.prevLogIndex + 1 + found.2) found.1.command) ||
  c.history.any fun event =>
    match event with
    | .delivered _ entry => wanted entry.index entry.command
    | _ => false

namespace Clients

def start (n : Nat) (preload : Option (Preload (Command n))) (listens : String → Option (Fin n)) :
    Clients n where
  service := Service.start n preload
  listens := listens
  calls := []

/-- What is decoded is an answer to the request. -/
def answered (w : Clients n) (request : Option Nat) : Exchange PutResponse → Bool
  | .decoded answer => request.any fun r => w.service.history.any fun event =>
    match event with
    | .answered r' response => r' = r && response.decoded = answer
    | .received _ => false
  | .failed | .garbled _ => true

/-- A client calls `Put`; an assumed leader out of range panics. -/
def put (w : Clients n) (client : KVClient) (key value : String) : Option (Clients n) :=
  if client.assumedLeader < client.addrs.length then
    some { w with calls := w.calls ++ [⟨client, key, value, [], .sending⟩] }
  else none

/-- The request reaches the server at the address of the assumed leader. -/
def arrive (w : Clients n) (position : Nat) (call : PutCall) : Option (Clients n) :=
  (call.client.addrs[call.client.assumedLeader]?.bind w.listens).map fun server =>
    { w with
      service := w.service.receive server (.put call.key call.value)
      calls := w.calls.set position { call with
        attempts := call.attempts ++ [w.service.requests.length]
        stage := .waiting (some w.service.requests.length) } }

def attempt (w : Clients n) (position : Nat) (call : PutCall) (arrives : Bool) :
    Option (Clients n) :=
  if call.stage = .sending then
    if arrives then w.arrive position call
    else some { w with calls := w.calls.set position { call with stage := .waiting none } }
  else none

def outcome (w : Clients n) (position : Nat) (call : PutCall) (attempt : Attempt PutResponse) :
    Option (Clients n) :=
  match call.stage with
  | .waiting request =>
    if w.answered request attempt.exchange then
      some { w with calls := w.calls.set position (call.after attempt) }
    else none
  | .sending | .returned => none

def step (w : Clients n) : ClientsAction n → Option (Clients n)
  | .put client key value => w.put client key value
  | .attempt position arrives =>
    (w.calls[position]?).bind fun call => w.attempt position call arrives
  | .outcome position attempt =>
    (w.calls[position]?).bind fun call => w.outcome position call attempt
  | .service action => (w.service.step action).map fun service => { w with service := service }

/-! ### Entries of a call -/

/-- The entry at the index is the command of one of the attempts, at the index that `Submit` has
returned for it. -/
def comesFrom (w : Clients n) (call : PutCall) (index : Int) (command : Command n) : Bool :=
  command.request ∈ call.attempts && (w.service.indexOf command.request) = some index

/-- At most one log entry of each call has been applied to the map of a server. -/
def AppliesOnce (w : Clients n) : Prop :=
  ∀ call ∈ w.calls, ∀ s s' entry entry',
    .delivered s entry ∈ w.service.cluster.history →
    .delivered s' entry' ∈ w.service.cluster.history →
    w.comesFrom call entry.index entry.command = true →
    w.comesFrom call entry'.index entry'.command = true →
      entry.index = entry'.index ∧ entry.command.request = entry'.command.request

/-! ### Condition on runs -/

/-- The entry is of another attempt of a call of the request. -/
def fromOther (w : Clients n) (r : Nat) (index : Int) (command : Command n) : Bool :=
  w.calls.any fun call =>
    r ∈ call.attempts && w.comesFrom call index command && command.request ≠ r

/-- A leader takes an attempt of a call, while an entry of another one is in a log or in a request
on its way, or has been cut or applied. -/
def takesAgain (w : Clients n) : ClientsAction n → Bool
  | .service (.submit r) =>
    (w.service.requests[r]?).any fun request =>
      (w.service.cluster.node request.server).state = .leader &&
        w.service.cluster.holds (w.fromOther r)
  | _ => false

end Clients

/-! ### Steps of the service -/

variable {v v' : Service n} {action : ServiceAction n} {c : Cluster n (Command n)}

theorem lacks_of_holds {wanted : Int → Command n → Bool} (none : c.holds wanted = false) :
    Lacks c wanted := by
  simp only [Cluster.holds, Bool.or_eq_false_iff, List.any_eq_false, List.mem_finRange,
    forall_const, Bool.not_eq_true] at none
  obtain ⟨⟨servers, pool⟩, history⟩ := none
  refine ⟨fun s i entry found => ?_, fun task member peer args request k entry found => ?_,
    fun s entry member => (servers s).2 entry member, fun s entry member => ?_⟩
  · exact (servers s).1 (entry, i) (List.mem_zipIdx_iff_getElem?.mpr found)
  · have task := pool task member
    rw [request, Option.any_some, List.any_eq_false] at task
    simpa using task (entry, k) (List.mem_zipIdx_iff_getElem?.mpr found)
  · exact history (.delivered s entry) member

theorem indexOf_set {r : ℕ} {request next : Request n} (found : v.requests[r]? = some request)
    (requests : v'.requests = v.requests.set r next) (r' : ℕ) :
    v'.indexOf r' = if r' = r then next.logIndex else v.indexOf r' := by
  unfold Service.indexOf
  rw [requests]
  split_ifs with self
  · rw [self, List.getElem?_set_self (List.getElem?_eq_some_iff.mp found).1]
    rfl
  · rw [List.getElem?_set_ne (Ne.symm self)]

/-- A handler goes on with its index. -/
theorem indexOf_move {r : ℕ} {request next : Request n} (found : v.requests[r]? = some request)
    (requests : v'.requests = v.requests.set r next) (index : next.logIndex = request.logIndex) :
    v'.indexOf = v.indexOf := by
  funext r'
  rw [indexOf_set found requests]
  split_ifs with self
  · rw [self, Service.indexOf, found, index]
    rfl
  · rfl

theorem indexOf_receive (server : Fin n) (operation : Operation) :
    (v.receive server operation).indexOf = v.indexOf := by
  funext r
  unfold Service.indexOf Service.receive
  dsimp only
  rcases lt_trichotomy r v.requests.length with old | rfl | beyond
  · rw [List.getElem?_append_left old]
  · rw [List.getElem?_concat_length, List.getElem?_eq_none le_rfl]
    rfl
  · rw [List.getElem?_eq_none beyond.le, List.getElem?_eq_none]
    simpa using Nat.succ_le_of_lt beyond

/-- What a step does to the Raft instances and to the indices of requests. -/
inductive Indexes (v : Service n) : ServiceAction n → Service n → Prop
  | still {action : ServiceAction n} {v' : Service n} (cluster : v'.cluster = v.cluster)
      (indexOf : v'.indexOf = v.indexOf) : Indexes v action v'
  | turns {action : ServiceAction n} {v' : Service n} {raft : Action n (Command n)}
      (noSubmit : ∀ s command, raft ≠ .submit s command)
      (taken : v.cluster.step raft = some v'.cluster) (indexOf : v'.indexOf = v.indexOf) :
      Indexes v action v'
  | takes {v' : Service n} {r : ℕ} {request : Request n} (found : v.requests[r]? = some request)
      (leads : (v.cluster.node request.server).state = .leader)
      (taken : v.cluster.step (.submit request.server (request.command r)) = some v'.cluster)
      (others : ∀ r', r' ≠ r → v'.indexOf r' = v.indexOf r') : Indexes v (.submit r) v'

theorem submit_indexes {r : ℕ} {request : Request n} (found : v.requests[r]? = some request)
    (taken : v.submit r request = some v') : Indexes v (.submit r) v' := by
  obtain ⟨⟨next, index⟩, submitted, rfl⟩ := Option.map_eq_some_iff.mp taken
  have stepped : v.cluster.step (.submit request.server (request.command r)) =
      some (v.cluster.act request.server next [] []) := by
    simp only [Cluster.step, submitted, Option.map_some]
  rcases Raft.submit_cases submitted with ⟨rfl, -, rfl⟩ | ⟨-, leads, rfl⟩
  · dsimp only
    rw [if_pos (by omega), act_self]
    exact .still rfl (indexOf_move found rfl rfl)
  · dsimp only
    rw [if_neg (by omega)]
    refine .takes found leads stepped fun r' other => ?_
    rw [indexOf_set (v := v) found rfl, if_neg other]

theorem step_indexes (taken : v.step action = some v') : Indexes v action v' := by
  cases step_moves taken with
  | receives server operation => exact .still rfl (indexOf_receive server operation)
  | submits found received taken => exact submit_indexes found taken
  | subscribes found submitted taken =>
    obtain ⟨i, -, rfl⟩ := Option.map_eq_some_iff.mp taken
    dsimp only
    split <;> exact .still rfl (indexOf_move found rfl rfl)
  | @performs server next entry sent =>
    have stepped : v.cluster.step (.sendReady server) =
        some (v.cluster.act server next [] [.delivered server entry]) := by
      simp only [Cluster.step, sent, Option.map_some]
    exact .turns (fun s command submits => by cases submits) stepped rfl
  | pops executed nobody => exact .still rfl rfl
  | notifies executed sub found subscribed => exact .still rfl (indexOf_move found rfl rfl)
  | answers found notified => exact .still rfl (indexOf_move found rfl rfl)
  | givesUp found waits => exact .still rfl (indexOf_move found rfl rfl)
  | @restarts server cluster stepped =>
    refine .turns (fun s command submits => by cases submits) stepped (funext fun r => ?_)
    unfold Service.indexOf Service.renew
    dsimp only
    rw [List.getElem?_map]
    cases v.requests[r]? with
    | none => rfl
    | some request =>
      dsimp only [Option.map_some, Option.bind_some]
      split_ifs <;> rfl
  | turns noRestart noSubmit noSend stepped => exact .turns noSubmit stepped rfl

/-! ### Owners -/

namespace Clients

variable {w w' : Clients n} {move : ClientsAction n} {own : ℕ → Option ℕ} {least : ℕ}

/-- Whatever comes from a call at the index is of the attempt that owns the call. -/
def Owns (own : ℕ → Option ℕ) (w : Clients n) (index : Int) (command : Command n) : Prop :=
  ∀ (k : ℕ) (call : PutCall), w.calls[k]? = some call → w.comesFrom call index command = true →
    own k = some command.request

/-- All entries of a call are of the attempt that owns it. -/
def Owned (own : ℕ → Option ℕ) (least : ℕ) (w : Clients n) : Prop :=
  Supplied (fun i entry => w.Owns own i entry.command) least w.service.cluster

/-- What comes from a call has come from it before. -/
def Keeps (w w' : Clients n) : Prop :=
  ∀ (k : ℕ) (call : PutCall) (index : Int) (command : Command n), w'.calls[k]? = some call →
    w'.comesFrom call index command = true →
      ∃ before, w.calls[k]? = some before ∧ w.comesFrom before index command = true

theorem Owns.mono {index : Int} {command : Command n} (owns : w.Owns own index command)
    (keeps : Keeps w w') : w'.Owns own index command := by
  intro k call found comes
  obtain ⟨before, found', comes'⟩ := keeps k call index command found comes
  exact owns k before found' comes'

theorem comesFrom_iff {call : PutCall} {index : Int} {command : Command n} :
    w.comesFrom call index command = true ↔
      command.request ∈ call.attempts ∧ w.service.indexOf command.request = some index := by
  simp [comesFrom]

theorem keeps_of_same (calls : w'.calls = w.calls)
    (indexOf : w'.service.indexOf = w.service.indexOf) : Keeps w w' := by
  intro k call index command found comes
  rw [comesFrom_iff, indexOf] at comes
  exact ⟨call, calls ▸ found, comesFrom_iff.mpr comes⟩

/-- A call goes on with the requests it has. -/
theorem keeps_of_set {position : ℕ} {call next : PutCall} (found : w.calls[position]? = some call)
    (attempts : next.attempts = call.attempts) :
    Keeps w { w with calls := w.calls.set position next } := by
  intro k later index command found' comes
  rw [comesFrom_iff] at comes
  dsimp only at found' comes
  by_cases self : k = position
  · subst self
    rw [List.getElem?_set_self (List.getElem?_eq_some_iff.mp found).1, Option.some_inj] at found'
    rw [← found', attempts] at comes
    exact ⟨call, found, comesFrom_iff.mpr comes⟩
  · rw [List.getElem?_set_ne (Ne.symm self)] at found'
    exact ⟨later, found', comesFrom_iff.mpr comes⟩

theorem put_keeps {client : KVClient} {key value : String}
    (taken : w.put client key value = some w') : Keeps w w' := by
  unfold put at taken
  split_ifs at taken
  cases taken
  intro k call index command found comes
  rw [comesFrom_iff] at comes
  dsimp only at found comes
  rcases Nat.lt_or_ge k w.calls.length with old | behind
  · rw [List.getElem?_append_left old] at found
    exact ⟨call, found, comesFrom_iff.mpr comes⟩
  · -- The new call has no request yet.
    rw [List.getElem?_append_right behind, List.getElem?_singleton] at found
    split_ifs at found
    cases found
    cases comes.1

/-- A request that has just arrived has no index yet. -/
theorem indexOf_fresh (v : Service n) : v.indexOf v.requests.length = none := by
  rw [Service.indexOf, List.getElem?_eq_none le_rfl]
  rfl

theorem arrive_keeps {position : ℕ} {call : PutCall} (found : w.calls[position]? = some call)
    (taken : w.arrive position call = some w') : Keeps w w' := by
  obtain ⟨server, -, rfl⟩ := Option.map_eq_some_iff.mp taken
  intro k later index command found' comes
  rw [comesFrom_iff] at comes
  dsimp only at found' comes
  rw [indexOf_receive] at comes
  by_cases self : k = position
  · subst self
    rw [List.getElem?_set_self (List.getElem?_eq_some_iff.mp found).1, Option.some_inj] at found'
    rw [← found'] at comes
    refine ⟨call, found, comesFrom_iff.mpr ⟨?_, comes.2⟩⟩
    refine (List.mem_append.mp comes.1).resolve_right fun new => ?_
    rw [List.mem_singleton.mp new, indexOf_fresh] at comes
    cases comes.2
  · rw [List.getElem?_set_ne (Ne.symm self)] at found'
    exact ⟨later, found', comesFrom_iff.mpr comes⟩

/-- The clients take a step. -/
theorem client_keeps (noService : ∀ action, move ≠ .service action)
    (taken : w.step move = some w') :
    Keeps w w' ∧ w'.service.cluster = w.service.cluster := by
  cases move with
  | put client key value =>
    refine ⟨put_keeps taken, ?_⟩
    simp only [step, put] at taken
    split_ifs at taken
    cases taken
    rfl
  | attempt position arrives =>
    obtain ⟨call, found, taken⟩ := Option.bind_eq_some_iff.mp taken
    unfold attempt at taken
    split_ifs at taken
    · refine ⟨arrive_keeps found taken, ?_⟩
      obtain ⟨server, -, rfl⟩ := Option.map_eq_some_iff.mp taken
      rfl
    · cases taken
      exact ⟨keeps_of_set found rfl, rfl⟩
  | outcome position attempt =>
    obtain ⟨call, found, taken⟩ := Option.bind_eq_some_iff.mp taken
    unfold outcome at taken
    split at taken
    · split_ifs at taken
      cases taken
      refine ⟨keeps_of_set found ?_, rfl⟩
      unfold PutCall.after
      split_ifs <;> rfl
    · cases taken
    · cases taken
  | service action => exact absurd rfl (noService action)

/-- An attempt that a leader takes owns the calls it is of. -/
def owner (w : Clients n) (own : ℕ → Option ℕ) (r k : ℕ) : Option ℕ :=
  if (w.calls[k]?).any fun call => r ∈ call.attempts then some r else own k

/-- What is not of another attempt of a call is owned by the attempt that is taken. -/
theorem Owns.take {service : Service n} {r : ℕ} {index : Int} {command : Command n}
    (others : ∀ r', r' ≠ r → service.indexOf r' = w.service.indexOf r')
    (owns : w.Owns own index command) (fresh : w.fromOther r index command = false) :
    Owns (w.owner own r) { w with service := service } index command := by
  intro k call found comes
  rw [comesFrom_iff] at comes
  dsimp only at found comes
  unfold owner
  rw [found, Option.any_some]
  by_cases same : command.request = r
  · rw [if_pos (by simpa [same] using comes.1), same]
  · rw [others _ same] at comes
    have before : w.comesFrom call index command = true := comesFrom_iff.mpr comes
    rw [if_neg, owns k call found before]
    intro isAttempt
    simp only [fromOther, List.any_eq_false] at fresh
    refine fresh call (List.mem_of_getElem? found) ?_
    simp [of_decide_eq_true isAttempt, before, same]

theorem Owned.service {action : ServiceAction n} {service : Service n} (owned : Owned own least w)
    (once : w.takesAgain (.service action) = false)
    (taken : w.service.step action = some service) :
    ∃ own', Owned own' least { w with service := service } := by
  cases step_indexes taken with
  | still cluster indexOf =>
    refine ⟨own, ?_⟩
    unfold Owned
    dsimp only
    rw [cluster]
    exact owned.sift (lacks_nothing _) fun i entry owns _ => owns.mono (keeps_of_same rfl indexOf)
  | turns noSubmit stepped indexOf =>
    refine ⟨own, ?_⟩
    have kept : Supplied
        (fun i entry => Owns own { w with service := service } i entry.command) least
          w.service.cluster :=
      owned.sift (lacks_nothing _) fun i entry owns _ => owns.mono (keeps_of_same rfl indexOf)
    exact kept.step (fun s command submits => absurd submits (noSubmit s command)) stepped
  | @takes _ r request found leads stepped others =>
    refine ⟨w.owner own r, ?_⟩
    have lacks : Lacks w.service.cluster (w.fromOther r) := by
      refine lacks_of_holds ?_
      simpa [takesAgain, found, leads] using once
    have kept : Supplied _ least w.service.cluster := owned.sift lacks
      fun i entry owns fresh => owns.take others fresh
    refine kept.step (fun s command submits _ => ?_) stepped
    cases submits
    intro k call found' comes
    rw [comesFrom_iff, Request.command_request] at comes
    dsimp only at found' comes
    rw [Request.command_request]
    unfold owner
    rw [found', Option.any_some, if_pos (decide_eq_true comes.1)]

theorem Owned.step (owned : Owned own least w) (once : w.takesAgain move = false)
    (taken : w.step move = some w') : ∃ own', Owned own' least w' := by
  by_cases isService : ∃ action, move = .service action
  · obtain ⟨action, rfl⟩ := isService
    obtain ⟨service, stepped, rfl⟩ := Option.map_eq_some_iff.mp taken
    exact owned.service once stepped
  · obtain ⟨keeps, cluster⟩ := client_keeps (fun action same => isService ⟨action, same⟩) taken
    refine ⟨own, ?_⟩
    unfold Owned
    rw [cluster]
    exact owned.sift (lacks_nothing _) fun i entry owns _ => owns.mono keeps

theorem Owned.appliesOnce (owned : Owned own least w) : w.AppliesOnce := by
  intro call member s s' entry entry' applied applied' comes comes'
  obtain ⟨k, found⟩ := List.mem_iff_getElem?.mp member
  have request : ∀ {s entry}, .delivered s entry ∈ w.service.cluster.history →
      w.comesFrom call entry.index entry.command = true →
      own k = some entry.command.request := by
    intro s entry applied comes
    obtain ⟨i, held, owns, index, command⟩ := owned.delivered s entry applied
    rw [index, command] at comes
    rw [command]
    exact owns k call found comes
  have same : entry.command.request = entry'.command.request :=
    Option.some_inj.mp ((request applied comes).symm.trans (request applied' comes'))
  refine ⟨?_, same⟩
  have index := (comesFrom_iff.mp comes).2
  rw [same] at index
  exact Option.some_inj.mp (index.symm.trans (comesFrom_iff.mp comes').2)

theorem owned_start (preload : Option (Preload (Command n))) (listens : String → Option (Fin n)) :
    Owned (fun _ => none) ((preload.map Preload.log).getD []).length (start n preload listens) :=
  supplied_start preload fun _ _ _ _ _ => nofun

theorem applies_once (preload : Option (Preload (Command n))) (listens : String → Option (Fin n))
    (actions : List (ClientsAction n)) {w : Clients n}
    (taken : execute step (start n preload listens) actions = some w)
    (once : along step (fun w move => !w.takesAgain move) (start n preload listens) actions =
      true) : w.AppliesOnce := by
  obtain ⟨own, owned⟩ := execute_invariant
    (fun w => ∃ own, Owned own ((preload.map Preload.log).getD []).length w)
    (fun w move w' ⟨own, owned⟩ allowed stepped => owned.step (by simpa using allowed) stepped)
    ⟨_, owned_start preload listens⟩ once taken
  exact owned.appliesOnce

/-! ### Schedules -/

/-- The addresses of three servers. -/
def listening (address : String) : Option (Fin 3) :=
  if address = "a" then some s₀ else if address = "b" then some s₁
  else if address = "c" then some s₂ else none

def client : KVClient :=
  KVClient.new ["a", "b", "c"]

/-- The service goes on while the clients do nothing. -/
def meanwhile (actions : List (List (ServiceAction 3))) : List (ClientsAction 3) :=
  actions.flatten.map .service

/-- An attempt reaches a server that leads, and its handler waits for the entry. -/
def reach (call r : ℕ) : List (ClientsAction 3) :=
  .attempt call true :: meanwhile [[.submit r, .subscribe r]]

/-- The 50 ms of an attempt are over. -/
def expire (call : ℕ) : List (ClientsAction 3) :=
  [.outcome call ⟨.failed, false, true⟩]

def decode (call : ℕ) (answer : PutResponse) : List (ClientsAction 3) :=
  [.outcome call ⟨.decoded answer, false, false⟩]

/-- An attempt reaches a server that does not lead. -/
def refuse (call r : ℕ) : List (ClientsAction 3) :=
  .attempt call true :: meanwhile [[.submit r]] ++ decode call { respStatus := .notLeader }

/-- Server 0 leads and takes a put; the client gives the attempt up, and goes on with server 1. -/
def impatient (key value : String) : List (ClientsAction 3) :=
  [meanwhile [elected], [.put client key value], reach 0 0, expire 0, refuse 0 1].flatten

/-- Two entries of one call have been applied. -/
def appliedTwice (w : Clients n) : Bool :=
  w.calls.any fun call => w.service.cluster.history.any fun event =>
    w.service.cluster.history.any fun event' =>
      match event, event' with
      | .delivered _ entry, .delivered _ entry' =>
        w.comesFrom call entry.index entry.command &&
          w.comesFrom call entry'.index entry'.command && entry.index ≠ entry'.index
      | _, _ => false

theorem not_appliesOnce {w : Clients n} (twice : w.appliedTwice = true) : ¬ w.AppliesOnce := by
  intro once
  simp only [appliedTwice, List.any_eq_true] at twice
  obtain ⟨call, member, event, happened, event', happened', both⟩ := twice
  split at both
  · simp only [Bool.and_eq_true, decide_eq_true_eq] at both
    obtain ⟨⟨comes, comes'⟩, differ⟩ := both
    exact differ (once call member _ _ _ _ happened happened' comes comes').1
  · cases both

/-- The entry of the attempt that was given up is applied. Another client then puts the key and
has its answer, but the first call is back at server 0 and puts its value again. -/
def overwriting : List (ClientsAction 3) :=
  [impatient "x" "1", refuse 0 2,
    meanwhile [onRaft (.leaderLoop s₀ 0 :: roundTrip 2 ++ [.takeReady s₀]), performNext s₀,
      performNext s₀],
    [.put client "x" "2"], reach 1 3,
    meanwhile [heartbeat s₀ 0 4, onRaft [.takeReady s₀], performNext s₀, [.answer 3]],
    decode 1 { respStatus := .ok, keyFound := true, prevValue := "1" }, reach 0 4,
    meanwhile [heartbeat s₀ 0 6, onRaft [.takeReady s₀], performNext s₀]].flatten

/-- A key that nobody else puts: the call returns its own value as the previous one. -/
def foundOwn : List (ClientsAction 3) :=
  [impatient "y" "1", refuse 0 2, reach 0 3,
    meanwhile [onRaft (.leaderLoop s₀ 0 :: roundTrip 2 ++ [.takeReady s₀]), performNext s₀,
      performNext s₀, performNext s₀, [.answer 3]],
    decode 0 { respStatus := .ok, keyFound := true, prevValue := "1" }].flatten

theorem applies_once_fails :
    (∃ w, execute step (start 3 (some stored) listening) overwriting = some w ∧
      w.service.history.head? = some (.received 4) ∧
        .answered 3 (.ok true "1") ∈ w.service.history ∧
          (w.service.kvs s₀).ds "x" = some "1" ∧ ¬ w.AppliesOnce) ∧
    ∃ w, execute step (start 3 (some stored) listening) foundOwn = some w ∧
      w.calls.map PutCall.value = ["1"] ∧ w.calls.map PutCall.stage = [.returned] ∧
        .answered 3 (.ok true "1") ∈ w.service.history ∧ ¬ w.AppliesOnce := by
  constructor
  · obtain ⟨w, taken, seen⟩ := (Option.any_eq_true _ _).mp (by decide +kernel :
      (execute step (start 3 (some stored) listening) overwriting).any (fun w => decide (
        w.service.history.head? = some (.received 4) ∧
          .answered 3 (.ok true "1") ∈ w.service.history ∧
            (w.service.kvs s₀).ds "x" = some "1" ∧ w.appliedTwice = true)) = true)
    obtain ⟨last, answered, value, twice⟩ := of_decide_eq_true seen
    exact ⟨w, taken, last, answered, value, not_appliesOnce twice⟩
  · obtain ⟨w, taken, seen⟩ := (Option.any_eq_true _ _).mp (by decide +kernel :
      (execute step (start 3 (some stored) listening) foundOwn).any (fun w => decide (
        w.calls.map PutCall.value = ["1"] ∧ w.calls.map PutCall.stage = [.returned] ∧
          .answered 3 (.ok true "1") ∈ w.service.history ∧ w.appliedTwice = true)) = true)
    obtain ⟨values, stages, answered, twice⟩ := of_decide_eq_true seen
    exact ⟨w, taken, values, stages, answered, not_appliesOnce twice⟩

/-! ### Arrays behind the logs -/

/-- The action of the instances that is part of an action of the clients. -/
def raftAction (w : Clients n) : ClientsAction n → Option (Action n (Command n))
  | .service action => w.service.raftAction action
  | .put _ _ _ | .attempt _ _ | .outcome _ _ => none

theorem clients_step (taken : w.step move = some w') :
    Execution.execute Cluster.step w.service.cluster (w.raftAction move).toList =
      some w'.service.cluster := by
  by_cases isService : ∃ action, move = .service action
  · obtain ⟨action, rfl⟩ := isService
    obtain ⟨service, stepped, rfl⟩ := Option.map_eq_some_iff.mp taken
    exact instances_step stepped
  · have other : ∀ action, move ≠ .service action := fun action same => isService ⟨action, same⟩
    have noAction : w.raftAction move = none := by
      cases move with
      | service action => exact absurd rfl (other action)
      | _ => rfl
    rw [noAction, (client_keeps other taken).2]
    rfl

theorem clients_takeReady {server : Fin n} (takes : w.raftAction move = some (.takeReady server)) :
    w.step move = (w.service.cluster.step (.takeReady server)).map fun cluster =>
      { w with service := { w.service with cluster := cluster } } := by
  cases move with
  | service action =>
    simp only [step, instances_takeReady takes, Option.map_map]
    rfl
  | _ => cases takes

/-- The clients with the instances of their service. -/
def host : Host n (Command n) (Clients n) (ClientsAction n) where
  step := step
  cluster w := w.service.cluster
  put w cluster := { w with service := { w.service with cluster := cluster } }
  raftAction := raftAction
  put_cluster _ := rfl
  step_cluster := clients_step
  step_takeReady := clients_takeReady

theorem applies_once_shared (preload : Option (Preload (Command n)))
    (listens : String → Option (Fin n)) (room : Fin n → ℕ)
    (actions : List (MachineAction n (ClientsAction n))) {x : Machine n (Command n) (Clients n)}
    (taken : Machine.run host (start n preload listens) room actions = some x)
    (once : along (Machine.step host) (Machine.intact host fun w move => !w.takesAgain move)
      (Machine.start host (start n preload listens) room) actions = true) :
    x.state.AppliesOnce := by
  obtain ⟨run, once⟩ := Machine.run_intact once taken
  exact applies_once preload listens _ run once

theorem applies_once_shared_impatient : ∃ x,
    Machine.runPromptly host (start 3 (some stored) listening) (impatient "x" "1" ++ meanwhile
      [onRaft (.leaderLoop s₀ 0 :: roundTrip 2 ++ [.takeReady s₀]), performNext s₀,
        performNext s₀]) = some x ∧
      (x.state.service.kvs s₀).ds "x" = some "1" ∧ x.state.AppliesOnce := by
  obtain ⟨x, taken, value⟩ := (Option.any_eq_true _ _).mp (by decide +kernel :
    (Machine.runPromptly host (start 3 (some stored) listening) (impatient "x" "1" ++ meanwhile
      [onRaft (.leaderLoop s₀ 0 :: roundTrip 2 ++ [.takeReady s₀]), performNext s₀,
        performNext s₀])).any
      (fun x => decide ((x.state.service.kvs s₀).ds "x" = some "1")) = true)
  exact ⟨x, taken, of_decide_eq_true value,
    applies_once_shared (some stored) listening _ _ taken (by decide +kernel)⟩

theorem applies_once_shared_fails :
    (∃ x, Machine.runPromptly host (start 3 (some stored) listening) overwriting = some x ∧
      x.state.service.history.head? = some (.received 4) ∧
        .answered 3 (.ok true "1") ∈ x.state.service.history ∧
          (x.state.service.kvs s₀).ds "x" = some "1" ∧ ¬ x.state.AppliesOnce) ∧
    ∃ x, Machine.runPromptly host (start 3 (some stored) listening) foundOwn = some x ∧
      x.state.calls.map PutCall.value = ["1"] ∧ x.state.calls.map PutCall.stage = [.returned] ∧
        .answered 3 (.ok true "1") ∈ x.state.service.history ∧ ¬ x.state.AppliesOnce := by
  obtain ⟨⟨w, run, last, answered, value, twice⟩, w', run', values, stages, answered', twice'⟩ :=
    applies_once_fails
  constructor
  · obtain ⟨x, taken, rfl⟩ :=
      Machine.runPromptly_eq host run (by decide +kernel) (by decide +kernel)
    exact ⟨x, taken, last, answered, value, twice⟩
  · obtain ⟨x, taken, rfl⟩ :=
      Machine.runPromptly_eq host run' (by decide +kernel) (by decide +kernel)
    exact ⟨x, taken, values, stages, answered', twice'⟩

end Clients

end RaftInMotion
