/-
This file embeds what runs for one client of `internal/client`: `ReadLoop`, `WriteLoop` with its
tickers, and the goroutine that asks `WriteLoop` for the ticker of the logs. Every `case` of their
selects is a step, and a loop that returns has called `CleanUp`. The watcher of `HandleWebSocket`
calls it once more, which changes nothing.

Every log of the process goes to the logger of the client. The write loop sends the logs in their
order and in batches of ten, and whatever the goroutines do, a log that waits can be sent as long
as the connection is open. The goroutine that asks for the ticker may stay behind for good.
-/

import RaftInMotion.Logger.MemoryLogger

namespace RaftInMotion.Websocket

open Execution Logger

/-! ### Sessions -/

inductive ClientState
  | active
  | disconnected
  | closed
deriving DecidableEq, Repr

inductive Loop
  | pending
  | running
  | returned
deriving DecidableEq, Repr

/-- Where the goroutine is that asks for the ticker. -/
inductive Checker
  | pending
  | waiting
  /-- `HasLogs` has answered. -/
  | asked (hasLogs : Bool)
  /-- It sends on `tickerControl`. -/
  | offering
  | returned
deriving DecidableEq, Repr

structure Session where
  logger : MemoryLogger
  /-- In milliseconds. -/
  now : Nat
  /-- `none` is the zero time, which `HandleWebSocket` leaves. -/
  lastActivity : Option Nat
  state : ClientState
  /-- The channel `Closed` is closed. -/
  closed : Bool
  reader : Loop
  writer : Loop
  checker : Checker
  tickerActive : Bool
  /-- `logTicker` sends ticks. -/
  logTicker : Bool
  /-- The batches that have been written to the connection, the oldest first. -/
  sent : List (List Logger.LogEntry)
  /-- The batch that could not be written. -/
  unsent : List Logger.LogEntry
deriving DecidableEq, Repr

inductive SessionAction
  | tick (milliseconds : Nat)
  | log (p : List UInt8)
  | startRead
  | startWrite
  | read (msg : List UInt8)
  | readFails
  | idleCheck
  | logTick (delivered : Bool)
  | hasLogs
  | check
  | control
  | writerCloses
  | checkerCloses
deriving DecidableEq, Repr

def IdleTimeout : Nat := 5000

/-- The number of logs in a batch. -/
def batchSize : Nat := 10

namespace Session

/-- The client that `HandleWebSocket` builds. -/
def new : Session where
  logger := MemoryLogger.new 100
  now := 0
  lastActivity := none
  state := .active
  closed := false
  reader := .pending
  writer := .pending
  checker := .pending
  tickerActive := false
  logTicker := false
  sent := []
  unsent := []

/-- `CleanUp`; only the first call does anything. -/
def cleanUp (s : Session) : Session :=
  if s.closed then s else { s with closed := true, state := .closed }

/-- `time.Since(c.LastActivity) >= IdleTimeout`. -/
def idle (s : Session) : Bool :=
  match s.lastActivity with
  | none => true
  | some activity => IdleTimeout ≤ s.now - activity

/-- `ReadLoop` receives a message. -/
def read (s : Session) (msg : List UInt8) : Session :=
  { s with
    lastActivity := some s.now
    logger := (s.logger.write msg).1 }

/-- `WriteLoop` begins; the ticker runs when there are logs. -/
def startWrite (s : Session) : Session :=
  { s with
    writer := .running
    checker := .waiting
    tickerActive := s.logger.hasLogs
    logTicker := s.logger.hasLogs }

/-- `WriteLoop` receives from `idleChecker`. -/
def idleCheck (s : Session) : Session :=
  if s.idle && s.state = .active then { s with writer := .returned }.cleanUp else s

/-- `WriteLoop` receives from `logTicker`. -/
def logTick (s : Session) (delivered : Bool) : Option Session :=
  let (logger, logs) := s.logger.getAndFlushLogs batchSize
  let s := { s with lastActivity := some s.now, logger := logger }
  if logs.length = 0 then some { s with logTicker := false, tickerActive := false }
  else if delivered then
    -- Nothing can be written to a connection that `CleanUp` has closed.
    if s.closed then none else some { s with sent := s.sent ++ [logs] }
  else some { s with writer := .returned, unsent := logs }.cleanUp

/-- `WriteLoop` receives from `tickerControl`. -/
def control (s : Session) : Session :=
  if s.tickerActive then { s with checker := .waiting }
  else { s with checker := .waiting, logTicker := true, tickerActive := true }

def step (s : Session) : SessionAction → Option Session
  | .tick milliseconds => some { s with now := s.now + milliseconds }
  | .log p => some { s with logger := (s.logger.write p).1 }
  | .startRead => if s.reader = .pending then some { s with reader := .running } else none
  | .startWrite => if s.writer = .pending then some s.startWrite else none
  | .read msg => if s.reader = .running then some (s.read msg) else none
  | .readFails =>
    if s.reader = .running then
      some { s with reader := .returned, state := .disconnected }.cleanUp
    else none
  | .idleCheck => if s.writer = .running then some s.idleCheck else none
  | .logTick delivered =>
    if s.writer = .running ∧ s.logTicker = true then s.logTick delivered else none
  | .hasLogs =>
    if s.checker = .waiting then some { s with checker := .asked s.logger.hasLogs } else none
  | .check =>
    match s.checker with
    | .asked hasLogs =>
      some { s with checker := if hasLogs && !s.tickerActive then .offering else .waiting }
    | _ => none
  | .control =>
    if s.writer = .running ∧ s.checker = .offering then some s.control else none
  | .writerCloses =>
    if s.writer = .running ∧ s.closed = true then some { s with writer := .returned } else none
  | .checkerCloses =>
    if s.checker = .waiting ∧ s.closed = true then some { s with checker := .returned } else none

end Session

/-! ### What a logger holds -/

/-- The entries of a logger, the oldest first. -/
def held (logger : MemoryLogger) : List Logger.LogEntry :=
  (Ring.view logger.slots logger.logs).filterMap id

section Held

variable {capacity : Nat} {logger : MemoryLogger} {queue : BoundedQueue Logger.LogEntry capacity}

theorem held_eq (holds : logger.Holds queue) : held logger = queue.items := by
  unfold held
  rw [holds.seen, List.filterMap_append, List.filterMap_map]
  simp

theorem held_write (holds : logger.Holds queue) (p : List UInt8) :
    held (logger.write p).1 =
      (held logger ++ [Logger.LogEntry.mk p]).drop (queue.items.length + 1 - capacity) := by
  rw [held_eq (MemoryLogger.write_holds holds p), held_eq holds, BoundedQueue.push_items]

theorem held_flush (holds : logger.Holds queue) :
    (logger.getAndFlushLogs batchSize).2 = (held logger).take batchSize ∧
      held (logger.getAndFlushLogs batchSize).1 = (held logger).drop batchSize := by
  obtain ⟨left, flushed⟩ := MemoryLogger.getAndFlushLogs_holds holds batchSize
  have count : (min (batchSize : Int) queue.items.length).toNat =
      min batchSize queue.items.length := by omega
  rw [held_eq left, flushed, held_eq holds, count]
  exact ⟨List.take_eq_take_min.symm, List.drop_eq_drop_min.symm⟩

end Held

/-! ### Invariants -/

/-- What an action gives to the logger. -/
def SessionAction.written : SessionAction → List Logger.LogEntry
  | .log p | .read p => [⟨p⟩]
  | _ => []

namespace Session

variable {s s' : Session} {action : SessionAction}

/-- All that has been written to the logger and is not dropped: what has been sent, what could not
be sent, and what waits. -/
def stream (s : Session) : List Logger.LogEntry :=
  s.sent.flatten ++ s.unsent ++ held s.logger

/-- A write meets a logger that is full. -/
def overflows (s : Session) (action : SessionAction) : Bool :=
  action.written ≠ [] && (held s.logger).length = s.logger.maxLogs

/-- The goroutines of a session are where they belong. -/
structure Served (s : Session) : Prop where
  queue : ∃ (capacity : Nat) (queue : BoundedQueue Logger.LogEntry capacity), s.logger.Holds queue
  ticker : s.writer = .running → s.logTicker = s.tickerActive
  begun : s.checker = .pending → s.writer = .pending
  present : s.checker = .returned → s.closed = true
  ended : s.writer = .returned → s.closed = true
  failed : s.unsent ≠ [] → s.writer = .returned
  batches : ∀ batch ∈ s.sent, batch ≠ [] ∧ batch.length ≤ batchSize

theorem served_new : Served new where
  queue := ⟨_, _, MemoryLogger.new_holds 100⟩
  ticker := nofun
  begun _ := rfl
  present := nofun
  ended := nofun
  failed absurd := (absurd rfl).elim
  batches := nofun

theorem cleanUp_eq (s : Session) : s.cleanUp = { s with
    closed := true
    state := if s.closed then s.state else .closed } := by
  unfold cleanUp
  cases closed : s.closed with
  | false => simp
  | true =>
    cases s
    simp_all

/-- What a step does, with what it needs of the goroutine that takes it. -/
inductive Moves (s : Session) : SessionAction → Session → Prop
  | tick {milliseconds : Nat} : Moves s (.tick milliseconds) { s with now := s.now + milliseconds }
  | log {p : List UInt8} : Moves s (.log p) { s with logger := (s.logger.write p).1 }
  | startRead : Moves s .startRead { s with reader := .running }
  | startWrite (pending : s.writer = .pending) : Moves s .startWrite s.startWrite
  | read {msg : List UInt8} : Moves s (.read msg) (s.read msg)
  | readFails : Moves s .readFails { s with
      reader := .returned
      closed := true
      state := if s.closed then .disconnected else .closed }
  | stays (runs : s.writer = .running) : Moves s .idleCheck s
  | leaves (runs : s.writer = .running) : Moves s .idleCheck { s with
      writer := .returned
      closed := true
      state := if s.closed then s.state else .closed }
  | logTick {delivered : Bool} {next : Session} (runs : s.writer = .running)
      (ticked : s.logTick delivered = some next) : Moves s (.logTick delivered) next
  | hasLogs (waits : s.checker = .waiting) :
      Moves s .hasLogs { s with checker := .asked s.logger.hasLogs }
  | check {hasLogs : Bool} (asked : s.checker = .asked hasLogs) : Moves s .check
      { s with checker := if hasLogs && !s.tickerActive then .offering else .waiting }
  | ticks (runs : s.writer = .running) (active : s.tickerActive = true) :
      Moves s .control { s with checker := .waiting }
  | starts (runs : s.writer = .running) (inactive : s.tickerActive = false) :
      Moves s .control { s with checker := .waiting, logTicker := true, tickerActive := true }
  | writerCloses (runs : s.writer = .running) (closed : s.closed = true) :
      Moves s .writerCloses { s with writer := .returned }
  | checkerCloses (waits : s.checker = .waiting) (closed : s.closed = true) :
      Moves s .checkerCloses { s with checker := .returned }

theorem step_moves (taken : s.step action = some s') : Moves s action s' := by
  cases action with
  | tick milliseconds =>
    cases taken
    exact .tick
  | log p =>
    cases taken
    exact .log
  | startRead =>
    simp only [Session.step] at taken
    split_ifs at taken
    cases taken
    exact .startRead
  | startWrite =>
    simp only [Session.step] at taken
    split_ifs at taken with pending
    cases taken
    exact .startWrite pending
  | read msg =>
    simp only [Session.step] at taken
    split_ifs at taken
    cases taken
    exact .read
  | readFails =>
    simp only [Session.step, cleanUp_eq] at taken
    split at taken
    · cases taken
      exact .readFails
    · cases taken
  | idleCheck =>
    simp only [Session.step, Session.idleCheck] at taken
    split_ifs at taken with runs idle
    · cases taken
      rw [cleanUp_eq]
      exact .leaves runs
    · cases taken
      exact .stays runs
  | logTick delivered =>
    simp only [Session.step] at taken
    split_ifs at taken with runs
    exact .logTick runs.1 taken
  | hasLogs =>
    simp only [Session.step] at taken
    split_ifs at taken with waits
    cases taken
    exact .hasLogs waits
  | check =>
    simp only [Session.step] at taken
    split at taken
    · next hasLogs asked =>
      cases taken
      exact .check asked
    · cases taken
  | control =>
    simp only [Session.step, Session.control] at taken
    split_ifs at taken with runs active
    · cases taken
      exact .ticks runs.1 active
    · cases taken
      exact .starts runs.1 (Bool.eq_false_iff.mpr active)
  | writerCloses =>
    simp only [Session.step] at taken
    split_ifs at taken with runs
    cases taken
    exact .writerCloses runs.1 runs.2
  | checkerCloses =>
    simp only [Session.step] at taken
    split_ifs at taken with waits
    cases taken
    exact .checkerCloses waits.1 waits.2

/-- A write is behind what waits, or takes the place of the oldest entry. -/
theorem Served.write (served : Served s) (p : List UInt8) :
    (∃ (capacity : Nat) (queue : BoundedQueue Logger.LogEntry capacity),
      (s.logger.write p).1.Holds queue) ∧
    (held (s.logger.write p).1).Sublist (held s.logger ++ [⟨p⟩]) ∧
      ((held s.logger).length ≠ s.logger.maxLogs →
        held (s.logger.write p).1 = held s.logger ++ [⟨p⟩]) := by
  obtain ⟨capacity, queue, holds⟩ := served.queue
  have isHeld := held_write holds p
  refine ⟨⟨_, _, MemoryLogger.write_holds holds p⟩, ?_, fun room => ?_⟩
  · rw [isHeld]
    exact List.drop_sublist _ _
  · have bounded := queue.bounded
    rw [held_eq holds, holds.maxLogs] at room
    rw [isHeld, show queue.items.length + 1 - capacity = 0 by omega, List.drop_zero]

/-- A tick of `logTicker` flushes a batch, which is sent or lost. -/
inductive Ticks (s : Session) : Bool → Session → Prop
  | empty {delivered : Bool} {logger : MemoryLogger} (nothing : held s.logger = [])
      (rest : held logger = []) : Ticks s delivered
        { s with
          lastActivity := some s.now
          logger := logger
          logTicker := false
          tickerActive := false }
  | sends {logger : MemoryLogger} (waiting : held s.logger ≠ []) (opened : s.closed = false)
      (rest : held logger = (held s.logger).drop batchSize) : Ticks s true
        { s with
          lastActivity := some s.now
          logger := logger
          sent := s.sent ++ [(held s.logger).take batchSize] }
  | loses {logger : MemoryLogger} (waiting : held s.logger ≠ [])
      (rest : held logger = (held s.logger).drop batchSize) : Ticks s false
        { s with
          lastActivity := some s.now
          logger := logger
          writer := .returned
          unsent := (held s.logger).take batchSize
          closed := true
          state := if s.closed then s.state else .closed }

theorem logTick_ticks (served : Served s) {delivered : Bool}
    (ticked : s.logTick delivered = some s') : Ticks s delivered s' ∧
      ∃ (capacity : Nat) (queue : BoundedQueue Logger.LogEntry capacity),
        s'.logger.Holds queue := by
  obtain ⟨capacity, queue, holds⟩ := served.queue
  obtain ⟨flushed, rest⟩ := held_flush holds
  have left := (MemoryLogger.getAndFlushLogs_holds holds batchSize).1
  unfold logTick at ticked
  dsimp only at ticked
  rw [flushed] at ticked
  have empty : ((held s.logger).take batchSize).length = 0 ↔ held s.logger = [] := by
    rw [List.length_take, batchSize, ← List.length_eq_zero_iff]
    omega
  split_ifs at ticked with nothing sends closed
  · cases ticked
    rw [empty] at nothing
    exact ⟨.empty nothing (by rw [rest, nothing, List.drop_nil]), _, _, left⟩
  · cases ticked
    subst sends
    exact ⟨.sends (nothing ∘ empty.mpr) (by simpa using closed) rest, _, _, left⟩
  · cases ticked
    obtain rfl : delivered = false := by simpa using sends
    rw [cleanUp_eq]
    exact ⟨.loses (nothing ∘ empty.mpr) rest, _, _, left⟩

/-- The write loop runs while nothing is lost. -/
theorem Served.unsent (served : Served s) (runs : s.writer = .running) : s.unsent = [] := by
  by_contra some
  cases runs.symm.trans (served.failed some)

theorem Served.step (served : Served s) (taken : s.step action = some s') : Served s' := by
  have ⟨queue, ticker, begun, present, ended, failed, batches⟩ := served
  cases step_moves taken with
  | tick => exact ⟨queue, ticker, begun, present, ended, failed, batches⟩
  | @log p => exact ⟨(served.write p).1, ticker, begun, present, ended, failed, batches⟩
  | startRead => exact ⟨queue, ticker, begun, present, ended, failed, batches⟩
  | startWrite pending =>
    exact ⟨queue, fun _ => rfl, nofun, nofun, nofun,
      fun some => (by cases pending.symm.trans (failed some)), batches⟩
  | @read msg => exact ⟨(served.write msg).1, ticker, begun, present, ended, failed, batches⟩
  | readFails => exact ⟨queue, ticker, begun, fun _ => rfl, fun _ => rfl, failed, batches⟩
  | stays runs => exact served
  | leaves runs =>
    exact ⟨queue, nofun, fun pending => (by cases runs.symm.trans (begun pending)),
      fun _ => rfl, fun _ => rfl, fun _ => rfl, batches⟩
  | logTick runs ticked =>
    obtain ⟨ticks, queue⟩ := logTick_ticks served ticked
    cases ticks with
    | empty nothing rest => exact ⟨queue, fun _ => rfl, begun, present, ended, failed, batches⟩
    | sends waiting opened rest =>
      refine ⟨queue, ticker, begun, present, ended, failed, fun batch member => ?_⟩
      rcases List.mem_append.mp member with old | new
      · exact batches batch old
      · rw [List.mem_singleton.mp new]
        exact ⟨by simp [waiting, batchSize], List.length_take_le _ _⟩
    | loses waiting rest =>
      exact ⟨queue, nofun, fun pending => (by cases runs.symm.trans (begun pending)),
        fun _ => rfl, fun _ => rfl, fun _ => rfl, batches⟩
  | hasLogs waits => exact ⟨queue, ticker, nofun, nofun, ended, failed, batches⟩
  | check asked =>
    refine ⟨queue, ticker, fun pending => ?_, fun returned => ?_, ended, failed, batches⟩
    · dsimp only at pending
      split_ifs at pending
    · dsimp only at returned
      split_ifs at returned
  | ticks runs active => exact ⟨queue, ticker, nofun, nofun, ended, failed, batches⟩
  | starts runs inactive => exact ⟨queue, fun _ => rfl, nofun, nofun, ended, failed, batches⟩
  | writerCloses runs closed =>
    exact ⟨queue, nofun, fun pending => (by cases runs.symm.trans (begun pending)), present,
      fun _ => closed, fun _ => rfl, batches⟩
  | checkerCloses waits closed =>
    exact ⟨queue, ticker, nofun, fun _ => closed, ended, failed, batches⟩

/-! ### The stream -/

theorem stream_same (sent : s'.sent = s.sent) (unsent : s'.unsent = s.unsent)
    (logger : s'.logger = s.logger) : s'.stream = s.stream := by
  unfold stream
  rw [sent, unsent, logger]

/-- A write goes to the end of the stream; a logger that is full drops an entry. -/
theorem Served.stream_write (served : Served s) {p : List UInt8}
    (writes : action.written = [⟨p⟩]) (sent : s'.sent = s.sent) (unsent : s'.unsent = s.unsent)
    (logger : s'.logger = (s.logger.write p).1) :
    s'.stream.Sublist (s.stream ++ action.written) ∧
      (s.overflows action = false → s'.stream = s.stream ++ action.written) := by
  obtain ⟨-, part, whole⟩ := served.write p
  unfold stream overflows
  rw [sent, unsent, logger, writes, List.append_assoc (s.sent.flatten ++ s.unsent)]
  refine ⟨part.append_left _, fun room => by rw [whole (by simpa using room)]⟩

theorem Ticks.stream {delivered : Bool} (whole : s.unsent = []) (ticks : Ticks s delivered s') :
    s'.stream = s.stream := by
  unfold Session.stream
  cases ticks with
  | empty nothing rest => rw [nothing, rest]
  | sends waiting opened rest =>
    dsimp only
    rw [rest, whole, List.flatten_concat, List.append_nil, List.append_nil, List.append_assoc,
      List.take_append_drop]
  | loses waiting rest =>
    dsimp only
    rw [rest, whole, List.append_nil, List.append_assoc, List.take_append_drop]

/-- A step adds what it writes. -/
theorem Served.stream (served : Served s) (taken : s.step action = some s') :
    s'.stream.Sublist (s.stream ++ action.written) ∧
      (s.overflows action = false → s'.stream = s.stream ++ action.written) := by
  have quiet : action.written = [] → s'.stream = s.stream →
      s'.stream.Sublist (s.stream ++ action.written) ∧
        (s.overflows action = false → s'.stream = s.stream ++ action.written) := by
    intro nothing same
    rw [nothing, same, List.append_nil]
    exact ⟨List.Sublist.refl _, fun _ => rfl⟩
  cases step_moves taken with
  | log => exact served.stream_write rfl rfl rfl rfl
  | read => exact served.stream_write rfl rfl rfl rfl
  | logTick runs ticked =>
    exact quiet rfl ((logTick_ticks served ticked).1.stream (served.unsent runs))
  | _ => exact quiet rfl (stream_same rfl rfl rfl)

/-- What the actions give to the logger, the oldest first. -/
def written (actions : List SessionAction) : List Logger.LogEntry :=
  actions.flatMap SessionAction.written

theorem served_run {actions : List SessionAction} (run : execute step new actions = some s) :
    Served s :=
  execute_invariant Served (fun _ _ _ served _ taken => served.step taken) served_new along_always
    run

theorem Served.streams (served : Served s) {actions : List SessionAction}
    (run : execute Session.step s actions = some s') :
    s'.stream.Sublist (s.stream ++ written actions) ∧
      (along Session.step (fun s action => !s.overflows action) s actions = true →
        s'.stream = s.stream ++ written actions) := by
  induction actions generalizing s with
  | nil =>
    obtain rfl : s = s' := by simpa [execute] using run
    exact ⟨by simp [written], fun _ => by simp [written]⟩
  | cons action rest inductionHypothesis =>
    obtain ⟨middle, taken, run⟩ := execute_cons.mp run
    obtain ⟨part, whole⟩ := served.stream taken
    obtain ⟨parts, wholes⟩ := inductionHypothesis (served.step taken) run
    have split : s.stream ++ written (action :: rest) =
        s.stream ++ action.written ++ written rest := by
      simp [written]
    rw [split]
    refine ⟨parts.trans (part.append_right _), fun room => ?_⟩
    obtain ⟨here, later⟩ := along_cons taken room
    rw [wholes later, whole (by simpa using here)]

/-- What is sent, lost at the end or still waits is what was written, in its order and without
what a full logger drops; and no batch is empty or too long. -/
theorem stream_in_order {actions : List SessionAction} (run : execute step new actions = some s) :
    (s.sent.flatten ++ s.unsent ++ held s.logger).Sublist (written actions) ∧
      (along step (fun s action => !s.overflows action) new actions = true →
        s.sent.flatten ++ s.unsent ++ held s.logger = written actions) ∧
      (s.unsent ≠ [] → s.writer = .returned) ∧
      ∀ batch ∈ s.sent, batch ≠ [] ∧ batch.length ≤ batchSize := by
  obtain ⟨part, whole⟩ := served_new.streams run
  have served := served_run run
  exact ⟨part, whole, served.failed, served.batches⟩

/-- Eleven logs are written before the loops start, and two ticks send them. -/
def elevenLogs : List SessionAction :=
  List.replicate 11 (.log [112]) ++ [.startWrite, .logTick true, .logTick true]

theorem stream_in_order_eleven : ∃ s, execute step new elevenLogs = some s ∧
    s.sent.map List.length = [10, 1] ∧
      s.sent.flatten ++ s.unsent ++ held s.logger = written elevenLogs := by
  obtain ⟨s, run, lengths⟩ := (Option.any_eq_true _ _).mp (by decide +kernel :
    (execute step new elevenLogs).any (fun s => decide (s.sent.map List.length = [10, 1])) = true)
  exact ⟨s, run, of_decide_eq_true lengths, (stream_in_order run).2.1 (by decide +kernel)⟩

/-! ### Logs that wait -/

theorem Served.hasLogs (served : Served s) (waiting : held s.logger ≠ []) :
    s.logger.hasLogs = true := by
  obtain ⟨capacity, queue, holds⟩ := served.queue
  rw [held_eq holds] at waiting
  exact (MemoryLogger.hasLogs_iff holds).mpr waiting

/-- The steps of the two goroutines in which the ticker of the logs is started. -/
def arming (s : Session) : List SessionAction :=
  if s.logTicker then []
  else
    match s.checker with
    | .offering => [.control]
    | .asked true => [.check, .control]
    | .asked false => [.check, .hasLogs, .check, .control]
    | _ => [.hasLogs, .check, .control]

/-- The ticker of the logs is started, if it has stopped. -/
theorem Served.arms (served : Served s) (runs : s.writer = .running) (opened : s.closed = false)
    (waiting : held s.logger ≠ []) : ∃ checker, execute Session.step s s.arming =
      some { s with checker := checker, logTicker := true, tickerActive := true } := by
  have logs := served.hasLogs waiting
  have same := served.ticker runs
  unfold arming
  cases active : s.tickerActive with
  | true =>
    rw [same, active, if_pos rfl]
    refine ⟨s.checker, congrArg some ?_⟩
    cases s
    simp_all
  | false =>
    rw [same, active, if_neg Bool.false_ne_true]
    cases stands : s.checker with
    | pending => cases runs.symm.trans (served.begun stands)
    | returned => cases opened.symm.trans (served.present stands)
    | offering =>
      exact ⟨.waiting, by simp [execute, Session.step, control, runs, stands, active]⟩
    | asked hasLogs =>
      cases hasLogs <;>
        exact ⟨.waiting, by simp [execute, Session.step, control, runs, stands, active, logs]⟩
    | waiting =>
      exact ⟨.waiting, by simp [execute, Session.step, control, runs, stands, active, logs]⟩

/-- The next batch can be sent. -/
theorem Served.sends (served : Served s) (runs : s.writer = .running) (opened : s.closed = false)
    (waiting : held s.logger ≠ []) : ∃ s',
      execute Session.step s (s.arming ++ [.logTick true]) = some s' ∧ s'.writer = .running ∧
        s'.closed = false ∧ s'.sent = s.sent ++ [(held s.logger).take batchSize] ∧
          held s'.logger = (held s.logger).drop batchSize := by
  obtain ⟨checker, armed⟩ := served.arms runs opened waiting
  have later := execute_invariant Served (fun _ _ _ served _ taken => served.step taken) served
    along_always armed
  obtain ⟨s', ticked⟩ : ∃ s', logTick { s with
      checker := checker, logTicker := true, tickerActive := true } true = some s' := by
    simp only [logTick, opened, if_true, Bool.false_eq_true, if_false]
    split_ifs <;> exact ⟨_, rfl⟩
  refine ⟨s', execute_concat.mpr ⟨_, armed, ?_⟩, ?_⟩
  · simpa only [Session.step, runs, and_self, if_true] using ticked
  · cases (logTick_ticks later ticked).1 with
    | empty nothing => exact absurd nothing waiting
    | sends _ _ rest => exact ⟨runs, opened, rfl, rest⟩

theorem written_arming (s : Session) : written s.arming = [] := by
  unfold arming
  split_ifs
  · rfl
  · split <;> rfl

/-- While the connection is open, all that waits can be sent, whatever the goroutines have done,
and without another write. -/
theorem Served.drains (served : Served s) (runs : s.writer = .running)
    (opened : s.closed = false) : ∃ later s', execute Session.step s later = some s' ∧
      written later = [] ∧ held s'.logger = [] ∧
        s'.sent.flatten = s.sent.flatten ++ held s.logger := by
  induction isCount : (held s.logger).length using Nat.strong_induction_on generalizing s with
  | h count inductionHypothesis =>
    by_cases waiting : held s.logger = []
    · exact ⟨[], s, rfl, rfl, waiting, by rw [waiting, List.append_nil]⟩
    obtain ⟨middle, first, runs', opened', sent, rest⟩ := served.sends runs opened waiting
    have served' := execute_invariant Served (fun _ _ _ served _ taken => served.step taken) served
      along_always first
    have less : (held middle.logger).length < count := by
      have := List.length_pos_iff.mpr waiting
      rw [rest, List.length_drop, batchSize]
      omega
    obtain ⟨later, s', second, quiet, empty, all⟩ :=
      inductionHypothesis _ less served' runs' opened' rfl
    refine ⟨_, s', execute_append.mpr ⟨middle, first, second⟩, ?_, empty, ?_⟩
    · unfold written at quiet ⊢
      rw [List.flatMap_append, quiet, List.append_nil, List.flatMap_append]
      have := written_arming s
      unfold written at this
      rw [this]
      rfl
    · rw [all, sent, rest, List.flatten_concat, List.append_assoc, List.take_append_drop]

/-- In every state of a run in which the write loop has not returned and the connection is open,
the logs that wait can still all be sent. -/
theorem waiting_logs_sent {actions : List SessionAction} (run : execute step new actions = some s)
    (runs : s.writer = .running) (opened : s.closed = false) :
    ∃ later s', execute step s later = some s' ∧ written later = [] ∧
      held s'.logger = [] ∧ s'.sent.flatten = s.sent.flatten ++ held s.logger :=
  (served_run run).drains runs opened

/-- A put request is logged, and a ticker that has stopped is asked for. -/
def offered : List SessionAction :=
  [.startRead, .startWrite, .log [112], .hasLogs, .check]

theorem waiting_logs_sent_offered : ∃ s later s', execute step new offered = some s ∧
    s.sent = [] ∧ execute step s later = some s' ∧ s'.sent.flatten = [⟨[112]⟩] := by
  obtain ⟨s, run, holds⟩ := (Option.any_eq_true _ _).mp (by decide +kernel :
    (execute step new offered).any (fun s => decide (s.writer = .running ∧ s.closed = false ∧
      s.sent = [] ∧ held s.logger = [⟨[112]⟩])) = true)
  obtain ⟨runs, opened, nothing, waits⟩ := of_decide_eq_true holds
  obtain ⟨later, s', taken, -, -, all⟩ := waiting_logs_sent run runs opened
  exact ⟨s, later, s', run, nothing, taken, by rw [all, nothing, waits]; rfl⟩

/-! ### The goroutine that asks for the ticker -/

/-- The goroutine sends on `tickerControl`, or is about to, and nobody receives. -/
def Deserted (s : Session) : Prop :=
  s.writer = .returned ∧
    (s.checker = .offering ∨ s.checker = .asked true ∧ s.tickerActive = false)

theorem Deserted.step (deserted : Deserted s) (taken : s.step action = some s') :
    Deserted s' := by
  obtain ⟨ended, stands⟩ := deserted
  have loops : s.writer ≠ .running := fun runs => by cases runs.symm.trans ended
  have busy : s.checker ≠ .waiting := by
    intro waits
    rcases stands with offers | ⟨asked, -⟩
    · cases waits.symm.trans offers
    · cases waits.symm.trans asked
  cases step_moves taken with
  | tick => exact ⟨ended, stands⟩
  | log => exact ⟨ended, stands⟩
  | startRead => exact ⟨ended, stands⟩
  | startWrite pending => cases pending.symm.trans ended
  | read => exact ⟨ended, stands⟩
  | readFails => exact ⟨ended, stands⟩
  | check asked =>
    rcases stands with offers | ⟨asked', inactive⟩
    · cases asked.symm.trans offers
    · cases asked.symm.trans asked'
      exact ⟨ended, Or.inl (by simp [inactive])⟩
  | hasLogs waits => exact absurd waits busy
  | checkerCloses waits closed => exact absurd waits busy
  | stays runs | leaves runs | logTick runs | ticks runs | starts runs | writerCloses runs =>
    exact absurd runs loops

/-- Once the write loop has returned, the goroutine that asks for the ticker can still return
unless it sends on `tickerControl`, or has seen that it must. -/
theorem checker_returns_iff {actions : List SessionAction}
    (run : execute step new actions = some s) (ended : s.writer = .returned) :
    (∃ later s', execute step s later = some s' ∧ s'.checker = .returned) ↔
      ¬ (s.checker = .offering ∨ s.checker = .asked true ∧ s.tickerActive = false) := by
  have served := served_run run
  have closed := served.ended ended
  constructor
  · rintro ⟨later, s', taken, returned⟩ stands
    have deserted : Deserted s' := execute_invariant Deserted
      (fun _ _ _ deserted _ taken => deserted.step taken) ⟨ended, stands⟩ along_always taken
    rcases deserted.2 with offers | ⟨asked, -⟩
    · cases returned.symm.trans offers
    · cases returned.symm.trans asked
  · intro free
    cases stands : s.checker with
    | pending => cases ended.symm.trans (served.begun stands)
    | returned => exact ⟨[], s, rfl, stands⟩
    | offering => exact absurd (Or.inl stands) free
    | waiting =>
      exact ⟨[.checkerCloses], { s with checker := .returned },
        by simp [execute, step, stands, closed], rfl⟩
    | asked hasLogs =>
      have waits : (hasLogs && !s.tickerActive) = false := by
        cases hasLogs with
        | false => rfl
        | true =>
          cases active : s.tickerActive with
          | true => rfl
          | false => exact absurd (Or.inr ⟨stands, active⟩) free
      exact ⟨[.check, .checkerCloses], { s with checker := .returned },
        by simp [execute, step, stands, closed, waits], rfl⟩

/-- The client has been idle for five seconds when a log is written and the ticker is asked for. -/
theorem checker_returns_iff_offered : ∃ s, execute step new (offered ++ [.idleCheck]) = some s ∧
    ¬ ∃ later s', execute step s later = some s' ∧ s'.checker = .returned := by
  obtain ⟨s, run, holds⟩ := (Option.any_eq_true _ _).mp (by decide +kernel :
    (execute step new (offered ++ [.idleCheck])).any (fun s => decide (s.writer = .returned ∧
      s.checker = .offering)) = true)
  obtain ⟨ended, offers⟩ := of_decide_eq_true holds
  exact ⟨s, run, fun returns => (checker_returns_iff run ended).mp returns (Or.inl offers)⟩

end Session

end RaftInMotion.Websocket
