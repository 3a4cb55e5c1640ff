/-
This file proves that the replay queue of `LogsProvider` neither loses, duplicates, reorders nor
stalls. What the inputs of a run amount to is read off the inputs alone: the logs accepted since
the last reset, and whether `disconnect` was called after the last of them.
-/

import RaftInMotion.Frontend.LogsContext

namespace RaftInMotion.Frontend

open Execution

variable {Body : Type}

/-! ### Inputs -/

/-- The logs of a message that `parseLog` accepts, in their order. -/
def Payload.accepted : Payload Body → List (Log Body)
  | .invalid => []
  | .array rawLogs => rawLogs.filterMap fun rawLog => (parseLog rawLog).toOption
  | .single rawLog => (parseLog rawLog).toOption.toList

structure History (Body : Type) where
  /-- The logs accepted since the last `connect` or `clearLogs`. -/
  accepted : List (Log Body)
  /-- `disconnect` was called after the last accepted log. -/
  disconnected : Bool
deriving DecidableEq, Repr

namespace History

def record (history : History Body) : Action Body → History Body
  | .connect _ | .clearLogs => { history with accepted := [] }
  | .disconnect => { history with disconnected := true }
  | .message payload =>
    { accepted := history.accepted ++ payload.accepted
      disconnected := history.disconnected && payload.accepted.isEmpty }
  | .tick _ | .opened _ | .closed _ | .errored _ => history

def of (actions : List (Action Body)) : History Body :=
  actions.foldl record { accepted := [], disconnected := false }

end History

namespace LogsProvider

/-- What the provider holds of a history: its logs are displayed or wait in the queue, the one
interval that is set is the flush interval, and none is missing. -/
structure Replays (p : LogsProvider Body) (history : History Body) : Prop where
  contents : p.logs ++ p.logQueueRef = history.accepted
  intervals : p.intervals = p.flushIntervalRef.toList
  armed : p.logQueueRef ≠ [] → p.flushIntervalRef ≠ none ∨ history.disconnected = true

/-! ### The parts of the provider -/

theorem clearFlushInterval_intervals {p : LogsProvider Body}
    (one : p.intervals = p.flushIntervalRef.toList) : p.clearFlushInterval.intervals = [] := by
  unfold clearFlushInterval
  split
  · rename_i interval found
    simp [one, found]
  · rename_i found
    simp [one, found]

theorem push_eq (queue : List (Log Body)) (rawLog : RawLog Body) :
    push queue rawLog = queue ++ (parseLog rawLog).toOption.toList := by
  unfold push
  split
  · rename_i parsed
    simp [parsed, Except.toOption]
  · rename_i refused
    simp [refused, Except.toOption]

theorem foldl_push (queue : List (Log Body)) (rawLogs : List (RawLog Body)) :
    rawLogs.foldl push queue =
      queue ++ rawLogs.filterMap fun rawLog => (parseLog rawLog).toOption := by
  induction rawLogs generalizing queue with
  | nil => simp
  | cons rawLog rest inductionHypothesis =>
    rw [List.foldl_cons, inductionHypothesis, push_eq]
    rcases parsed : (parseLog rawLog).toOption with _ | log
    · simp [parsed]
    · simp [parsed]

/-! ### Steps -/

theorem Replays.cleanup {p : LogsProvider Body} {history : History Body}
    (replays : p.Replays history) :
    p.cleanupResources.Replays { history with disconnected := true } := by
  obtain ⟨logs, queue, ref, intervals⟩ := closeService_replay p.clearFlushInterval
  constructor
  · simpa [cleanupResources, logs, queue] using replays.contents
  · simp [cleanupResources, ref, intervals, clearFlushInterval_intervals replays.intervals]
  · exact fun _ => Or.inr rfl

theorem Replays.reset {p : LogsProvider Body} {history : History Body}
    (replays : p.Replays history) : p.resetState.Replays { history with accepted := [] } := by
  constructor
  · simp [resetState]
  · have one : ({ p with logs := [], logQueueRef := [] } : LogsProvider Body).intervals =
        p.flushIntervalRef.toList := replays.intervals
    simp [resetState, clearFlushInterval_intervals one]
  · simp [resetState]

theorem Replays.flush {p : LogsProvider Body} {history : History Body}
    (replays : p.Replays history) : p.flush.Replays history := by
  unfold LogsProvider.flush
  split
  · rename_i empty
    constructor
    · simpa using replays.contents
    · simp [clearFlushInterval_intervals replays.intervals]
    · simp [empty]
  · rename_i nextLog rest queue
    constructor
    · simpa [queue] using replays.contents
    · exact replays.intervals
    · exact fun _ => replays.armed (by simp [queue])

/-- The interval is set when it is not and a log waits, whatever has joined the queue. -/
theorem replays_of_waiting {p : LogsProvider Body} {accepted : List (Log Body)}
    (contents : p.logs ++ p.logQueueRef = accepted)
    (intervals : p.intervals = p.flushIntervalRef.toList) (disconnected : Bool) :
    (if p.flushIntervalRef = none ∧ 0 < p.logQueueRef.length then p.startFlushing else p).Replays
      { accepted := accepted, disconnected := disconnected } := by
  split
  · constructor
    · simpa [startFlushing] using contents
    · simp [startFlushing, clearFlushInterval_intervals intervals]
    · simp [startFlushing]
  · rename_i armed
    refine ⟨contents, intervals, fun waiting => Or.inl fun unarmed => armed ⟨unarmed, ?_⟩⟩
    exact List.length_pos_iff.mpr waiting

theorem Replays.message {p : LogsProvider Body} {history : History Body}
    (replays : p.Replays history) (payload : Payload Body) :
    (p.onMessage payload).Replays (history.record (.message payload)) := by
  cases payload with
  | invalid => simpa [onMessage, History.record, Payload.accepted] using replays
  | array rawLogs =>
    refine replays_of_waiting (p := { p with logQueueRef := rawLogs.foldl push p.logQueueRef })
      ?_ replays.intervals _
    simp only [foldl_push, ← List.append_assoc, replays.contents]
    rfl
  | single rawLog =>
    refine replays_of_waiting (p := { p with logQueueRef := push p.logQueueRef rawLog })
      ?_ replays.intervals _
    simp only [push_eq, ← List.append_assoc, replays.contents]
    rfl

theorem step_replays {p next : LogsProvider Body} {history : History Body} {action : Action Body}
    (replays : p.Replays history) (taken : p.step action = some next) :
    next.Replays (history.record action) := by
  cases action with
  | connect constructed =>
    obtain rfl := Option.some.inj taken
    have fresh := replays.cleanup.reset
    have empty : (p.connect constructed).logQueueRef = [] := by
      cases constructed <;> simp [connect, resetState]
    cases constructed <;>
      exact ⟨fresh.contents, fresh.intervals, fun waiting => absurd empty waiting⟩
  | disconnect =>
    obtain rfl := Option.some.inj taken
    exact replays.cleanup
  | clearLogs =>
    obtain rfl := Option.some.inj taken
    exact replays.reset
  | message payload =>
    obtain rfl := Option.some.inj taken
    exact replays.message payload
  | tick interval =>
    simp only [step] at taken
    split at taken
    · obtain rfl := Option.some.inj taken
      exact replays.flush
    · simp at taken
  | opened socket =>
    simp only [step] at taken
    split at taken
    · obtain rfl := Option.some.inj taken
      exact ⟨replays.contents, replays.intervals, replays.armed⟩
    · simp at taken
  | closed socket =>
    simp only [step] at taken
    split at taken
    · obtain rfl := Option.some.inj taken
      exact ⟨replays.contents, replays.intervals, replays.armed⟩
    · simp at taken
  | errored socket =>
    simp only [step] at taken
    split at taken
    · obtain rfl := Option.some.inj taken
      exact replays
    · simp at taken

theorem replays_of_run {actions : List (Action Body)} {p : LogsProvider Body}
    (run : execute step init actions = some p) : p.Replays (History.of actions) :=
  execute_history History.record Replays (fun _ _ _ _ held taken => step_replays held taken)
    ⟨rfl, rfl, fun waiting => absurd rfl waiting⟩ run

/-- After every run the displayed logs and the queue are together the logs accepted since the last
reset, in their order, and a log that waits will be displayed unless `disconnect` has stopped it. -/
theorem replay_queue {actions : List (Action Body)} {p : LogsProvider Body}
    (run : execute step init actions = some p) :
    p.logs ++ p.logQueueRef = (History.of actions).accepted ∧
      (p.logQueueRef ≠ [] →
        (∃ interval, p.flushIntervalRef = some interval ∧ interval ∈ p.intervals) ∨
          (History.of actions).disconnected = true) := by
  have replays := replays_of_run run
  refine ⟨replays.contents, fun waiting => (replays.armed waiting).imp_left fun set => ?_⟩
  obtain ⟨interval, found⟩ := Option.ne_none_iff_exists'.mp set
  exact ⟨interval, found, by simp [replays.intervals, found]⟩

/-- At most one interval is set at a time, so that the pace of the replay does not change. -/
theorem one_interval {actions : List (Action Body)} {p : LogsProvider Body}
    (run : execute step init actions = some p) : p.intervals = p.flushIntervalRef.toList :=
  (replays_of_run run).intervals

/-- A message of two logs with one between them that is not known, and one tick. -/
def twoLogs : List (Action Unit) :=
  [.connect true, .opened 0,
    .message (.array [.object ⟨some (.string "electionWon"), some (.number 1), ()⟩,
      .object ⟨some (.string "unknown"), none, ()⟩,
      .object ⟨some (.string "nodeDead"), some (.number 2), ()⟩]),
    .tick 0]

theorem replay_queue_twoLogs :
    ∃ p, execute step init twoLogs = some p ∧
      p.logs ++ p.logQueueRef =
        [⟨some (.string "electionWon"), some (.number 1), ()⟩,
          ⟨some (.string "nodeDead"), some (.number 2), ()⟩] ∧
      p.logQueueRef ≠ [] ∧
      ∃ interval, p.flushIntervalRef = some interval ∧ interval ∈ p.intervals := by
  obtain ⟨p, run, waiting⟩ := (Option.any_eq_true _ _).mp (by decide +kernel :
    (execute step init twoLogs).any (fun p => decide (p.logQueueRef ≠ [])) = true)
  have waits : p.logQueueRef ≠ [] := of_decide_eq_true waiting
  obtain ⟨contents, armed⟩ := replay_queue run
  refine ⟨p, run, contents.trans (by decide +kernel), waits, (armed waits).resolve_right ?_⟩
  decide +kernel

end LogsProvider

end RaftInMotion.Frontend
