/-
This file embeds the client limit of `internal/client` and `internal/ws`, and decides when it is
enforced and counted exactly. The state is the package's counter `activeClients` and, for each
client that was built, how far the code has come with it. Every critical section of the mutex is a
step of its own: the check of `CanAcceptNewClient`, the increment and the decrement of
`LogClientConnection`. What a client sends and receives is left out; no step here reads it.
-/

import RaftInMotion.Library.Execution
import Mathlib.Tactic.Cases

namespace RaftInMotion.Websocket

open Execution

/-! ### Clients -/

def MaxClients : Nat := 3

def errMaxClientsReached : String := "maximum number of clients reached"

/-- Where the code is with a client. -/
inductive Stage
  /-- It is built, and `LogClientConnection(true)` is still to come. -/
  | entering
  /-- The connection is logged; the loops and the watcher run. -/
  | served
  /-- A first call of `CleanUp` is inside `Once`; the channel and the connection are closed. -/
  | closing
  /-- The first call of `CleanUp` is over. -/
  | closed
deriving DecidableEq, Repr

/-- The client is being served and is not yet cleaned up. -/
def Stage.isServed : Stage → Bool
  | .served | .closing => true
  | .entering | .closed => false

structure Clients where
  activeClients : Nat
  /-- One for each client that was built, the oldest first. -/
  clients : List Stage
deriving DecidableEq, Repr

namespace Clients

def init : Clients where
  activeClients := 0
  clients := []

def canAcceptNewClient (c : Clients) : Bool :=
  c.activeClients < MaxClients

def logClientConnection (connected : Bool) (activeClients : Nat) : Nat :=
  if connected then
    if MaxClients ≤ activeClients then activeClients else activeClients + 1
  else
    if 0 < activeClients then activeClients - 1 else activeClients

/-- `NewClient`, up to the call of `LogClientConnection`. -/
def newClient (c : Clients) : Except String Clients :=
  if !c.canAcceptNewClient then .error errMaxClientsReached
  else .ok { c with clients := c.clients ++ [.entering] }

/-- The digits of a decimal number. -/
def digits (text : List Char) : Option Nat :=
  if text = [] then none
  else if text.all Char.isDigit then
    some (text.foldl (fun value digit => 10 * value + (digit.toNat - '0'.toNat)) 0)
  else none

/-- `strconv.Atoi`, without its bound: a number outside the range of `int` is an error there. -/
def atoi (text : List Char) : Option Int :=
  match text with
  | '-' :: rest => (digits rest).map fun value => -(value : Int)
  | '+' :: rest => (digits rest).map fun value => (value : Int)
  | rest => (digits rest).map fun value => (value : Int)

/-- The checks of `HandleWebSocket` on the query parameter. -/
def checkSimulate (simulate : String) : Except String Int :=
  if simulate = "" then .error "Missing simulate parameter"
  else
    match atoi simulate.toList with
    | some simulateInt =>
      if simulateInt ≠ 6 then .error "Invalid simulate parameter. Must be between 6"
      else .ok simulateInt
    | none => .error "Invalid simulate parameter. Must be between 6"

/-- `HandleWebSocket`, up to the call of `LogClientConnection`: the simulation runs before it. -/
def handleWebSocket (c : Clients) (simulate : String) (upgraded : Bool) :
    Except String Clients := do
  let simulateInt ← checkSimulate simulate
  if !upgraded then .error "Upgrade error"
  else
    match simulateInt with
    | 6 => .ok { c with clients := c.clients ++ [.entering] }
    | _ => .error "Invalid simulation option"

/-- `CleanUp`, up to the call of `LogClientConnection`: `Once` lets only the first call in, and
the others find the client closed or wait until it is. -/
def cleanUp (c : Clients) (client : Nat) : Option Clients :=
  match c.clients[client]? with
  | some .served => some { c with clients := c.clients.set client .closing }
  | some .closing | some .closed => some c
  | some .entering | none => none

/-- The call of `LogClientConnection` in `HandleWebSocket` and `NewClient`. -/
def logConnected (c : Clients) (client : Nat) : Option Clients :=
  if c.clients[client]? = some .entering then
    some { activeClients := logClientConnection true c.activeClients
           clients := c.clients.set client .served }
  else none

/-- The call of `LogClientConnection` in `CleanUp`. -/
def logDisconnected (c : Clients) (client : Nat) : Option Clients :=
  if c.clients[client]? = some .closing then
    some { activeClients := logClientConnection false c.activeClients
           clients := c.clients.set client .closed }
  else none

end Clients

inductive Action
  | handleWebSocket (simulate : String) (upgraded : Bool)
  | newClient
  | logConnected (client : Nat)
  | cleanUp (client : Nat)
  | logDisconnected (client : Nat)
deriving DecidableEq, Repr

namespace Clients

/-- A request that is refused leaves the clients as they are. -/
def enter (c : Clients) : Except String Clients → Clients
  | .ok next => next
  | .error _ => c

def step (c : Clients) : Action → Option Clients
  | .handleWebSocket simulate upgraded => some (c.enter (c.handleWebSocket simulate upgraded))
  | .newClient => some (c.enter c.newClient)
  | .logConnected client => c.logConnected client
  | .cleanUp client => c.cleanUp client
  | .logDisconnected client => c.logDisconnected client

/-- The clients that are being served and not yet cleaned up. -/
def served (c : Clients) : Nat :=
  c.clients.countP Stage.isServed

/-- The limit is enforced, and the count is exact. -/
def Counted (c : Clients) : Prop :=
  c.activeClients = c.served ∧ c.served ≤ MaxClients

/-- A connection that is logged in this step finds room. -/
def withinLimit (c : Clients) : Action → Bool
  | .logConnected client => c.clients[client]? ≠ some .entering || c.canAcceptNewClient
  | .handleWebSocket _ _ | .newClient | .cleanUp _ | .logDisconnected _ => true

/-! ### Steps -/

/-- The parameter that passes the checks is the one the simulation is for, so that the default
branch of `HandleWebSocket` is never taken. -/
theorem checkSimulate_ok {simulate : String} {simulateInt : Int}
    (checked : checkSimulate simulate = .ok simulateInt) : simulateInt = 6 := by
  unfold checkSimulate at checked
  split at checked
  · simp at checked
  · split at checked
    · split at checked
      · simp at checked
      · rename_i parsed _ is_six
        simp only [Except.ok.injEq] at checked
        omega
    · simp at checked

theorem handleWebSocket_ok {c next : Clients} {simulate : String} {upgraded : Bool}
    (handled : c.handleWebSocket simulate upgraded = .ok next) :
    next = { c with clients := c.clients ++ [.entering] } := by
  unfold handleWebSocket at handled
  rcases checked : checkSimulate simulate with message | simulateInt
  · simp [checked, bind, Except.bind] at handled
  · obtain rfl := checkSimulate_ok checked
    cases upgraded
    · simp [checked, bind, Except.bind] at handled
    · simpa [checked, bind, Except.bind, eq_comm] using handled

theorem newClient_ok {c next : Clients} (created : c.newClient = .ok next) :
    next = { c with clients := c.clients ++ [.entering] } := by
  unfold newClient at created
  split at created
  · simp at created
  · simpa [eq_comm] using created

/-- A client that is only built is not served yet. -/
theorem served_entering (c : Clients) :
    Clients.served { c with clients := c.clients ++ [.entering] } = c.served := by
  simp [served, Stage.isServed]

theorem served_set {c : Clients} {client : Nat} {before : Stage}
    (found : c.clients[client]? = some before) (stage : Stage) (activeClients : Nat) :
    Clients.served ⟨activeClients, c.clients.set client stage⟩ +
        (if before.isServed then 1 else 0) =
      c.served + (if stage.isServed then 1 else 0) := by
  obtain ⟨bound, rfl⟩ := List.getElem?_eq_some_iff.mp found
  have counted : (if c.clients[client].isServed then 1 else 0) ≤
      c.clients.countP Stage.isServed := by
    split
    · exact List.countP_pos_iff.mpr ⟨_, List.getElem_mem bound, by assumption⟩
    · omega
  simp only [served, List.countP_set bound]
  omega

/-- What a step does to the counter and to the number of the clients that are served. -/
theorem step_cases {c next : Clients} {action : Action} (taken : c.step action = some next) :
    (next.activeClients = c.activeClients ∧ next.served = c.served ∧
        c.withinLimit action = true) ∨
    (next.activeClients = logClientConnection true c.activeClients ∧
        next.served = c.served + 1 ∧ c.withinLimit action = c.canAcceptNewClient) ∨
    (next.activeClients = logClientConnection false c.activeClients ∧
        next.served + 1 = c.served ∧ c.withinLimit action = true) := by
  cases action with
  | handleWebSocket simulate upgraded =>
    left
    obtain rfl : c.enter (c.handleWebSocket simulate upgraded) = next := by simpa [step] using taken
    rcases handled : c.handleWebSocket simulate upgraded with message | entered
    · simp [enter, withinLimit]
    · simp [enter, withinLimit, handleWebSocket_ok handled, served_entering]
  | newClient =>
    left
    obtain rfl : c.enter c.newClient = next := by simpa [step] using taken
    rcases created : c.newClient with message | entered
    · simp [enter, withinLimit]
    · simp [enter, withinLimit, newClient_ok created, served_entering]
  | logConnected client =>
    right; left
    simp only [step, logConnected] at taken
    split at taken
    · rename_i found
      obtain rfl := Option.some.inj taken
      have moved := served_set found .served (logClientConnection true c.activeClients)
      refine ⟨rfl, ?_, by simp [withinLimit, found]⟩
      simpa [Stage.isServed] using moved
    · simp at taken
  | cleanUp client =>
    left
    simp only [step, cleanUp] at taken
    split at taken
    · rename_i found
      obtain rfl := Option.some.inj taken
      have moved := served_set found .closing c.activeClients
      exact ⟨rfl, by simpa [Stage.isServed] using moved, rfl⟩
    · obtain rfl := Option.some.inj taken
      exact ⟨rfl, rfl, rfl⟩
    · obtain rfl := Option.some.inj taken
      exact ⟨rfl, rfl, rfl⟩
    · simp at taken
    · simp at taken
  | logDisconnected client =>
    right; right
    simp only [step, logDisconnected] at taken
    split at taken
    · rename_i found
      obtain rfl := Option.some.inj taken
      have moved := served_set found .closed (logClientConnection false c.activeClients)
      exact ⟨rfl, by simpa [Stage.isServed] using moved, rfl⟩
    · simp at taken

theorem logClientConnection_connected (activeClients : Nat) :
    logClientConnection true activeClients =
      if MaxClients ≤ activeClients then activeClients else activeClients + 1 := rfl

theorem logClientConnection_disconnected (activeClients : Nat) :
    logClientConnection false activeClients = activeClients - 1 := by
  simp only [logClientConnection]
  split <;> simp_all

/-! ### The limit -/

/-- The counter itself keeps to the limit, whatever is connected, and it never says more than what
is served. -/
theorem activeClients_le {actions : List Action} {c : Clients}
    (visits : Visits step init actions c) :
    c.activeClients ≤ MaxClients ∧ c.activeClients ≤ c.served := by
  refine visits_always (fun c => c.activeClients ≤ MaxClients ∧ c.activeClients ≤ c.served)
    (fun c action next bounded taken => ?_) (by decide) visits
  rcases step_cases taken with ⟨same, served, -⟩ | ⟨more, served, -⟩ | ⟨fewer, served, -⟩
  · omega
  · rw [logClientConnection_connected] at more
    split at more <;> omega
  · rw [logClientConnection_disconnected] at fewer
    omega

theorem counted_step {c next : Clients} {action : Action} (counted : c.Counted)
    (taken : c.step action = some next) : next.Counted ↔ c.withinLimit action = true := by
  obtain ⟨equal, bounded⟩ := counted
  rcases step_cases taken with
    ⟨same, served, allowed⟩ | ⟨more, served, allowed⟩ | ⟨fewer, served, allowed⟩
  · simp only [Counted, allowed, iff_true]
    omega
  · rw [logClientConnection_connected] at more
    simp only [Counted, allowed, canAcceptNewClient, decide_eq_true_eq]
    split at more <;> omega
  · rw [logClientConnection_disconnected] at fewer
    simp only [Counted, allowed, iff_true]
    omega

/-- The step of a connection that is not there to be logged is not enabled. -/
theorem withinLimit_of_disabled {c : Clients} {action : Action} (disabled : c.step action = none) :
    c.withinLimit action = true := by
  cases action with
  | logConnected client =>
    simp only [step, logConnected] at disabled
    split at disabled
    · simp at disabled
    · rename_i absent
      simp [withinLimit, absent]
  | handleWebSocket simulate upgraded => rfl
  | newClient => rfl
  | cleanUp client => rfl
  | logDisconnected client => rfl

/-- In every state of a run the limit is enforced and the count is exact, when each connection
that the run logs finds room below the limit, and only then. -/
theorem limit_enforced_iff (actions : List Action) :
    (∀ c, Visits step init actions c → c.activeClients = c.served ∧ c.served ≤ MaxClients) ↔
      along step withinLimit init actions = true :=
  visits_iff_along (fun _ => True) Counted (fun _ _ disabled => withinLimit_of_disabled disabled)
    (fun _ _ _ _ counted taken => ⟨fun _ => trivial, counted_step counted taken⟩) trivial
    ⟨rfl, Nat.zero_le _⟩

/-- Four connections, one after the other, and the first of them leaves. -/
def fourConnections : List Action :=
  [.handleWebSocket "6" true, .logConnected 0, .handleWebSocket "6" true, .logConnected 1,
    .handleWebSocket "6" true, .logConnected 2, .handleWebSocket "6" true, .logConnected 3,
    .cleanUp 0, .logDisconnected 0]

/-- `HandleWebSocket` asks for no room: a fourth browser is served beside three others, and the
first that leaves is taken off a count that did not include them all. -/
theorem fourth_client :
    (∃ c, Visits step init fourConnections c ∧ MaxClients < c.served) ∧
      ∃ c, execute step init fourConnections = some c ∧ c.activeClients < c.served := by
  constructor
  · obtain ⟨c, run, served⟩ := (Option.any_eq_true _ _).mp (by decide +kernel :
      (execute step init (fourConnections.take 8)).any
        (fun c => decide (MaxClients < c.served)) = true)
    exact ⟨c, ⟨fourConnections.take 8, fourConnections.drop 8, rfl, run⟩, of_decide_eq_true served⟩
  · obtain ⟨c, run, served⟩ := (Option.any_eq_true _ _).mp (by decide +kernel :
      (execute step init fourConnections).any
        (fun c => decide (c.activeClients < c.served)) = true)
    exact ⟨c, run, of_decide_eq_true served⟩

end Clients

end RaftInMotion.Websocket
