/-
This file embeds the log stream of the visualizer: `parseLog`, `LogsProvider` and the callbacks of
`WebSocketService`. React's state and refs are the fields of one state, and what the browser keeps
for them stands beside it: the sockets created so far, with the events that have been delivered,
and the intervals that are set. A message may come from any socket, since all of them share
`enqueueLog`; an open or a close event belongs to one socket.
-/

import RaftInMotion.Library.Execution
import Mathlib.Tactic.Cases

namespace RaftInMotion.Frontend

open Execution

/-! ### Logs -/

inductive LogMessageType
  | serverListening
  | peerConnected
  | peerDisconnected
  | electionTimerStarted
  | electionTimerStoppedI
  | electionTimerStoppedII
  | electionTimeout
  | stateTransition
  | requestVote
  | receiveVote
  | voteFailure
  | electionWon
  | electionLost
  | putRequestInitiated
  | responseNotLeader
  | foundLeader
  | putRequestCompleted
  | disconnectingLeader
  | serviceDisconnecting
  | reconnectingOriginalLeader
  | serviceReconnected
  | nodeDead
  | shutdownInitialized
  | shutdownComplete
  | disconnectionInitialized
  | disconnectionComplete
deriving DecidableEq, Repr

namespace LogMessageType

def text : LogMessageType → String
  | .serverListening => "serverListening"
  | .peerConnected => "peerConnected"
  | .peerDisconnected => "peerDisconnected"
  | .electionTimerStarted => "electionTimerStarted"
  | .electionTimerStoppedI => "electionTimerStoppedI"
  | .electionTimerStoppedII => "electionTimerStoppedII"
  | .electionTimeout => "electionTimeout"
  | .stateTransition => "stateTransition"
  | .requestVote => "requestVote"
  | .receiveVote => "recieveVote"
  | .voteFailure => "voteFailure"
  | .electionWon => "electionWon"
  | .electionLost => "electionLost"
  | .putRequestInitiated => "putRequestInitiated"
  | .responseNotLeader => "responseNotLeader"
  | .foundLeader => "foundLeader"
  | .putRequestCompleted => "putRequestCompleted"
  | .disconnectingLeader => "disconnectingLeader"
  | .serviceDisconnecting => "serviceDisconnecting"
  | .reconnectingOriginalLeader => "reconnectingOriginalleader"
  | .serviceReconnected => "serviceReconnected"
  | .nodeDead => "nodeDead"
  | .shutdownInitialized => "shutdownInitialized"
  | .shutdownComplete => "shutdownComplete"
  | .disconnectionInitialized => "disconnectionInitialized"
  | .disconnectionComplete => "disconnectionComplete"

/-- The cases of the switch of `parseLog`, in its order. -/
def parsed : List LogMessageType :=
  [.serverListening, .peerConnected, .peerDisconnected, .electionTimerStarted,
    .electionTimerStoppedI, .electionTimerStoppedII, .electionTimeout, .stateTransition,
    .requestVote, .receiveVote, .voteFailure, .electionWon, .electionLost, .putRequestInitiated,
    .responseNotLeader, .foundLeader, .putRequestCompleted, .disconnectingLeader,
    .serviceDisconnecting, .reconnectingOriginalLeader, .serviceReconnected, .shutdownInitialized,
    .shutdownComplete, .nodeDead, .disconnectionInitialized, .disconnectionComplete]

end LogMessageType

/-- What `JSON.parse` makes of a value, as far as the code looks at it. -/
inductive Value
  | null
  | boolean (value : Bool)
  | number (value : Rat)
  | string (value : String)
  /-- An array or an object. -/
  | composite
deriving DecidableEq, Repr

def Value.truthy : Value → Bool
  | .null => false
  | .boolean value => value
  | .number value => value ≠ 0
  | .string value => value ≠ ""
  | .composite => true

/-- An object that was received: two of its properties, which may be absent, and the others. -/
structure Log (Body : Type) where
  message : Option Value
  raftID : Option Value
  body : Body
deriving DecidableEq, Repr

inductive RawLog (Body : Type)
  | object (log : Log Body)
  /-- Not an object, or an array, which has no property `message`. -/
  | other (value : Value)
deriving DecidableEq, Repr

/-- The data of a `message` event. -/
inductive Payload (Body : Type)
  /-- `JSON.parse` throws. -/
  | invalid
  | array (rawLogs : List (RawLog Body))
  | single (rawLog : RawLog Body)
deriving DecidableEq, Repr

variable {Body : Type}

/-- `parseLog`, with the warning where it returns `null`. Every case of the switch returns the
object itself. -/
def parseLog : RawLog Body → Except String (Log Body)
  | .other _ => .error "Invalid log received:"
  | .object rawLog =>
    if !rawLog.message.any Value.truthy then .error "Invalid log received:"
    else
      match rawLog.message with
      | some (.string message) =>
        if LogMessageType.parsed.any fun kind => kind.text = message then .ok rawLog
        else .error "Unknown log message type:"
      | _ => .error "Unknown log message type:"

theorem LogMessageType.mem_parsed (kind : LogMessageType) : kind ∈ parsed := by
  cases kind <;> decide

theorem LogMessageType.text_ne_empty (kind : LogMessageType) : kind.text ≠ "" := by
  cases kind <;> decide

/-- What is accepted is an object whose message is one of the enumeration, and it is accepted as
it is. -/
theorem parseLog_ok {rawLog : RawLog Body} {log : Log Body} :
    parseLog rawLog = .ok log ↔
      rawLog = .object log ∧ ∃ kind : LogMessageType, log.message = some (.string kind.text) := by
  rcases rawLog with object | value
  · constructor
    · intro parsed
      simp only [parseLog] at parsed
      split at parsed
      · simp at parsed
      · split at parsed
        · split at parsed
          · rename_i message found known
            obtain rfl : object = log := by simpa using parsed
            obtain ⟨kind, -, named⟩ := List.any_eq_true.mp known
            exact ⟨rfl, kind, by rw [found, of_decide_eq_true named]⟩
          · simp at parsed
        · simp at parsed
    · rintro ⟨same, kind, found⟩
      obtain rfl : object = log := by simpa using same
      have known : LogMessageType.parsed.any (fun other => other.text = kind.text) = true :=
        List.any_eq_true.mpr ⟨kind, kind.mem_parsed, by simp⟩
      simp [parseLog, found, Value.truthy, kind.text_ne_empty, known]
  · simp [parseLog]

/-! ### The provider -/

inductive ConnectionStatus
  | disconnected
  | connecting
  | connected
deriving DecidableEq, Repr

/-- A socket, with the events that have been delivered. -/
structure Socket where
  opened : Bool
  closed : Bool
  /-- `cleanupResources` has called its `close`. -/
  dropped : Bool
deriving DecidableEq, Repr

structure LogsProvider (Body : Type) where
  /-- The socket of the service, by its place in `sockets`. -/
  wsServiceRef : Option Nat
  logQueueRef : List (Log Body)
  flushIntervalRef : Option Nat
  logs : List (Log Body)
  connectionStatus : ConnectionStatus
  /-- The sockets created so far, the oldest first. -/
  sockets : List Socket
  /-- The intervals that are set and not cleared. -/
  intervals : List Nat
  /-- The number of intervals that were ever set. -/
  setIntervals : Nat
deriving DecidableEq, Repr

namespace LogsProvider

def init : LogsProvider Body where
  wsServiceRef := none
  logQueueRef := []
  flushIntervalRef := none
  logs := []
  connectionStatus := .disconnected
  sockets := []
  intervals := []
  setIntervals := 0

/-- `clearInterval` of the flush interval, when there is one, and the ref set to `null`. -/
def clearFlushInterval (p : LogsProvider Body) : LogsProvider Body :=
  match p.flushIntervalRef with
  | some interval =>
    { p with intervals := p.intervals.filter (· ≠ interval), flushIntervalRef := none }
  | none => p

/-- `close` of the socket of the service, when there is one, and the ref set to `null`. -/
def closeService (p : LogsProvider Body) : LogsProvider Body :=
  match p.wsServiceRef with
  | some socket =>
    { p with
      sockets := p.sockets.modify socket fun socket => { socket with dropped := true }
      wsServiceRef := none }
  | none => p

def cleanupResources (p : LogsProvider Body) : LogsProvider Body :=
  { p.clearFlushInterval.closeService with connectionStatus := .disconnected }

def startFlushing (p : LogsProvider Body) : LogsProvider Body :=
  let p := p.clearFlushInterval
  { p with
    intervals := p.intervals ++ [p.setIntervals]
    flushIntervalRef := some p.setIntervals
    setIntervals := p.setIntervals + 1 }

/-- The callback of the interval. -/
def flush (p : LogsProvider Body) : LogsProvider Body :=
  match p.logQueueRef with
  | [] => p.clearFlushInterval
  | nextLog :: rest => { p with logQueueRef := rest, logs := p.logs ++ [nextLog] }

/-- What `enqueueLog` does with one log. -/
def push (queue : List (Log Body)) (rawLog : RawLog Body) : List (Log Body) :=
  match parseLog rawLog with
  | .ok parsedLog => queue ++ [parsedLog]
  | .error _ => queue

def enqueueLog (p : LogsProvider Body) (rawLogs : List (RawLog Body) ⊕ RawLog Body) :
    LogsProvider Body :=
  let p : LogsProvider Body :=
    match rawLogs with
    | .inl rawLogs => { p with logQueueRef := rawLogs.foldl push p.logQueueRef }
    | .inr rawLog => { p with logQueueRef := push p.logQueueRef rawLog }
  if p.flushIntervalRef = none ∧ 0 < p.logQueueRef.length then p.startFlushing else p

/-- `onmessage`. -/
def onMessage (p : LogsProvider Body) : Payload Body → LogsProvider Body
  | .invalid => p
  | .array rawLogs => p.enqueueLog (.inl rawLogs)
  | .single rawLog => p.enqueueLog (.inr rawLog)

def resetState (p : LogsProvider Body) : LogsProvider Body :=
  LogsProvider.clearFlushInterval { p with logs := [], logQueueRef := [] }

/-- `connect`; the constructor of `WebSocket` may throw. -/
def connect (p : LogsProvider Body) (constructed : Bool) : LogsProvider Body :=
  let p := { p.cleanupResources.resetState with connectionStatus := .connecting }
  if constructed then
    { p with
      sockets := p.sockets ++ [{ opened := false, closed := false, dropped := false }]
      wsServiceRef := some p.sockets.length }
  else { p with connectionStatus := .disconnected }

def clearLogs (p : LogsProvider Body) : LogsProvider Body :=
  p.resetState

def disconnect (p : LogsProvider Body) : LogsProvider Body :=
  p.cleanupResources

/-- The open event of the socket may be delivered: it comes once, and not after the close. -/
def canOpen (p : LogsProvider Body) (socket : Nat) : Bool :=
  p.sockets[socket]?.any fun socket => !socket.opened && !socket.closed

/-- The close event of the socket may be delivered: it comes once. -/
def canClose (p : LogsProvider Body) (socket : Nat) : Bool :=
  p.sockets[socket]?.any fun socket => !socket.closed

/-- `onopen`. -/
def onOpen (p : LogsProvider Body) (socket : Nat) : LogsProvider Body :=
  { p with
    sockets := p.sockets.modify socket fun socket => { socket with opened := true }
    connectionStatus := .connected }

/-- `onclose`. -/
def onClose (p : LogsProvider Body) (socket : Nat) : LogsProvider Body :=
  { p with
    sockets := p.sockets.modify socket fun socket => { socket with closed := true }
    connectionStatus := .disconnected }

end LogsProvider

inductive Action (Body : Type)
  | connect (constructed : Bool)
  | disconnect
  | clearLogs
  | message (payload : Payload Body)
  | tick (interval : Nat)
  | opened (socket : Nat)
  | closed (socket : Nat)
  /-- `onerror` only closes the socket, and its close event is still to come. -/
  | errored (socket : Nat)
deriving DecidableEq, Repr

namespace LogsProvider

def step (p : LogsProvider Body) : Action Body → Option (LogsProvider Body)
  | .connect constructed => some (p.connect constructed)
  | .disconnect => some p.disconnect
  | .clearLogs => some p.clearLogs
  | .message payload => some (p.onMessage payload)
  | .tick interval => if interval ∈ p.intervals then some p.flush else none
  | .opened socket => if p.canOpen socket then some (p.onOpen socket) else none
  | .closed socket => if p.canClose socket then some (p.onClose socket) else none
  | .errored socket => if p.canClose socket then some p else none

/-! ### What the parts of the provider leave alone -/

@[simp] theorem clearFlushInterval_sockets (p : LogsProvider Body) :
    p.clearFlushInterval.sockets = p.sockets := by
  unfold clearFlushInterval
  split <;> rfl

@[simp] theorem clearFlushInterval_wsServiceRef (p : LogsProvider Body) :
    p.clearFlushInterval.wsServiceRef = p.wsServiceRef := by
  unfold clearFlushInterval
  split <;> rfl

@[simp] theorem clearFlushInterval_connectionStatus (p : LogsProvider Body) :
    p.clearFlushInterval.connectionStatus = p.connectionStatus := by
  unfold clearFlushInterval
  split <;> rfl

@[simp] theorem clearFlushInterval_logs (p : LogsProvider Body) :
    p.clearFlushInterval.logs = p.logs := by
  unfold clearFlushInterval
  split <;> rfl

@[simp] theorem clearFlushInterval_logQueueRef (p : LogsProvider Body) :
    p.clearFlushInterval.logQueueRef = p.logQueueRef := by
  unfold clearFlushInterval
  split <;> rfl

@[simp] theorem clearFlushInterval_flushIntervalRef (p : LogsProvider Body) :
    p.clearFlushInterval.flushIntervalRef = none := by
  unfold clearFlushInterval
  split
  · rfl
  · assumption

/-- `close` of a socket touches neither the logs nor the intervals. -/
theorem closeService_replay (p : LogsProvider Body) :
    p.closeService.logs = p.logs ∧ p.closeService.logQueueRef = p.logQueueRef ∧
      p.closeService.flushIntervalRef = p.flushIntervalRef ∧
      p.closeService.intervals = p.intervals := by
  unfold closeService
  split <;> exact ⟨rfl, rfl, rfl, rfl⟩

end LogsProvider

end RaftInMotion.Frontend
