/-
This file embeds the header of `ServerInstance`: the state and the term that it shows, and how
`processLog` and `LogProcessorService` change them. A visualizer is the provider of the logs, the
dispatcher and the headers together; its steps are the commits of React.

Only the latest log of a server is processed when its logs have changed. When every commit brings
at most one log, the header is nevertheless what all the displayed logs make of it.
-/

import RaftInMotion.Frontend.LogsDispatcher
import RaftInMotion.Frontend.Status

namespace RaftInMotion.Frontend

open Execution

/-! ### Headers -/

inductive RaftState
  | follower
  | candidate
  | leader
  | dead
  | disconnected
deriving DecidableEq, Repr

def RaftState.text : RaftState → String
  | .follower => "Follower"
  | .candidate => "Candidate"
  | .leader => "Leader"
  | .dead => "Dead"
  | .disconnected => "Disconnected"

/-- The properties of a log that the header takes over, which may be absent. -/
structure Fields where
  newState : Option Value
  state : Option Value
  term : Option Value
deriving DecidableEq, Repr

/-- The case of `processLog` that a log meets. -/
def Log.kind {Body : Type} (log : Log Body) : Option LogMessageType :=
  match log.message with
  | some (.string message) => LogMessageType.parsed.find? fun kind => kind.text = message
  | _ => none

structure Header where
  currentState : Option Value
  currentTerm : Option Value
deriving DecidableEq, Repr

namespace Header

/-- A follower, as `ServerInstance` begins with term 0 and a new connection with term 1. -/
def follower (term : Nat) : Header :=
  ⟨some (.string RaftState.follower.text), some (.number term)⟩

def processStateTransition (header : Header) (log : Log Fields) : Header :=
  { header with currentState := log.body.newState }

def processElectionWon (_ : Header) (log : Log Fields) : Header :=
  { currentState := log.body.state, currentTerm := log.body.term }

def processLeaderConnection (header : Header) : Header :=
  { header with currentState := some (.string RaftState.follower.text) }

def processDisconnection (header : Header) : Header :=
  { header with currentState := some (.string RaftState.disconnected.text) }

def processLog (header : Header) (log : Log Fields) : Header :=
  match log.kind with
  | some .stateTransition => header.processStateTransition log
  | some .electionWon => header.processElectionWon log
  | some .disconnectingLeader | some .serviceDisconnecting | some .reconnectingOriginalLeader
  | some .serviceReconnected => header.processLeaderConnection
  | some .disconnectionInitialized | some .disconnectionComplete => header.processDisconnection
  | _ => header

/-- `getStateName`. -/
def getStateName (state : Option Value) : String :=
  if state = some (.string RaftState.follower.text) then "Follower"
  else if state = some (.string RaftState.candidate.text) then "Candidate"
  else if state = some (.string RaftState.leader.text) then "Leader"
  else if state = some (.string RaftState.dead.text) then "Dead"
  else if state = some (.string RaftState.disconnected.text) then "Disconnected"
  else "Unknown"

/-- The state that a log makes the header show. -/
def shows (log : Log Fields) : Option (Option Value) :=
  match log.kind with
  | some .stateTransition => some log.body.newState
  | some .electionWon => some log.body.state
  | some .disconnectingLeader | some .serviceDisconnecting | some .reconnectingOriginalLeader
  | some .serviceReconnected => some (some (.string RaftState.follower.text))
  | some .disconnectionInitialized | some .disconnectionComplete =>
    some (some (.string RaftState.disconnected.text))
  | _ => none

theorem processLog_currentState (header : Header) (log : Log Fields) :
    (header.processLog log).currentState = (shows log).getD header.currentState := by
  unfold processLog shows
  split <;> rfl

/-- To process a log again changes nothing. -/
theorem processLog_again (header : Header) (log : Log Fields) :
    (header.processLog log).processLog log = header.processLog log := by
  unfold processLog
  rcases log.kind with _ | kind
  · rfl
  · cases kind <;> rfl

theorem foldl_processLog_again (header : Header) {logs : List (Log Fields)} {log : Log Fields}
    (last : logs.getLast? = some log) :
    (logs.foldl processLog header).processLog log = logs.foldl processLog header := by
  obtain ⟨earlier, rfl⟩ := List.getLast?_eq_some_iff.mp last
  rw [List.foldl_append, List.foldl_cons, List.foldl_nil, processLog_again]

/-- The header shows what the last log makes it show. -/
theorem foldl_processLog_currentState (header : Header) (logs : List (Log Fields)) :
    (logs.foldl processLog header).currentState =
      (logs.filterMap shows).getLast?.getD header.currentState := by
  induction logs using List.reverseRecOn with
  | nil => rfl
  | append_singleton logs log inductionHypothesis =>
    rw [List.foldl_append, List.foldl_cons, List.foldl_nil, processLog_currentState,
      inductionHypothesis, List.filterMap_append, List.filterMap_cons, List.filterMap_nil]
    rcases shows log with _ | state
    · rw [List.append_nil]
      rfl
    · rw [List.getLast?_append]
      rfl

end Header

/-! ### The visualizer -/

structure Visualizer where
  provider : LogsProvider Fields
  dispatcher : LogDispatcher Fields
  header : Rat → Header

namespace Visualizer

def init (servers : List Rat) : Visualizer where
  provider := LogsProvider.init
  dispatcher := LogDispatcher.init servers
  header := fun _ => .follower 0

/-- The effects of `ServerInstance` in a commit: that of a new connection, and that of the logs of
the server, which are another list when it is emptied or has grown. -/
def effects (before after : LogDispatcher Fields) (raftID : Rat) (header : Header) : Header :=
  let statusChanged := decide (after.connectionStatus ≠ before.connectionStatus)
  let header :=
    if statusChanged && after.connectionStatus = .connecting then .follower 1 else header
  if statusChanged || after.serverLogs raftID ≠ before.serverLogs raftID then
    match (after.serverLogs raftID).getLast? with
    | some latestLog => header.processLog latestLog
    | none => header
  else header

/-- One commit, of a batch of steps of the provider. -/
def step (servers : List Rat) (v : Visualizer) (batch : List (Action Fields)) :
    Option Visualizer :=
  (execute LogsProvider.step v.provider batch).map fun next =>
    let dispatcher := v.dispatcher.commit servers (v.provider.commitOf batch next)
    { provider := next
      dispatcher := dispatcher
      header := fun raftID => effects v.dispatcher dispatcher raftID (v.header raftID) }

/-- The commit brings at most one log, leaves none that it has appended in the list when it changes
the status, and clears the list only for a new connection. -/
def steady (v : Visualizer) (batch : List (Action Fields)) : Bool :=
  match execute LogsProvider.step v.provider batch with
  | some next =>
    let commit := v.provider.commitOf batch next
    v.dispatcher.keepsIndex commit && (commit.updates.filter LogsUpdate.isAppend).length ≤ 1 &&
      (!commit.clears ||
        commit.connectionStatus ≠ v.dispatcher.connectionStatus &&
          commit.connectionStatus = .connecting)
  | none => true

end Visualizer

/-! ### New connections -/

namespace LogsProvider

/-- Only `connect` makes the status one of a new connection, and it clears the list. -/
theorem step_connecting {p next : LogsProvider Fields} {action : Action Fields}
    (taken : p.step action = some next) (connecting : next.connectionStatus = .connecting) :
    p.connectionStatus = .connecting ∨ LogsUpdate.clear ∈ p.updates action := by
  cases action with
  | connect constructed => exact Or.inr (List.mem_singleton.mpr rfl)
  | clearLogs => exact Or.inr (List.mem_singleton.mpr rfl)
  | disconnect =>
    obtain rfl := Option.some.inj taken
    cases connecting
  | message payload =>
    obtain rfl := Option.some.inj taken
    exact Or.inl ((onMessage_sockets p payload).2.2 ▸ connecting)
  | tick interval =>
    simp only [step] at taken
    split at taken
    · obtain rfl := Option.some.inj taken
      exact Or.inl ((flush_sockets p).2.2 ▸ connecting)
    · cases taken
  | opened socket =>
    simp only [step] at taken
    split at taken
    · obtain rfl := Option.some.inj taken
      cases connecting
    · cases taken
  | closed socket =>
    simp only [step] at taken
    split at taken
    · obtain rfl := Option.some.inj taken
      cases connecting
    · cases taken
  | errored socket =>
    simp only [step] at taken
    split at taken
    · obtain rfl := Option.some.inj taken
      exact Or.inl connecting
    · cases taken

theorem commitOf_clears {p next : LogsProvider Fields} {batch : List (Action Fields)}
    (run : execute step p batch = some next) (before : p.connectionStatus ≠ .connecting)
    (after : next.connectionStatus = .connecting) : (p.commitOf batch next).clears = true := by
  have cleared : LogsUpdate.clear ∈ (p.commitOf batch next).updates := by
    unfold commitOf
    dsimp only
    induction batch generalizing p with
    | nil =>
      obtain rfl : p = next := by simpa [execute] using run
      exact absurd after before
    | cons action rest inductionHypothesis =>
      obtain ⟨middle, taken, run⟩ := execute_cons.mp run
      simp only [observed, taken, Option.toList_some, List.flatten_append, List.flatten_singleton,
        List.mem_append]
      by_cases still : middle.connectionStatus = .connecting
      · exact Or.inl ((step_connecting taken still).resolve_left before)
      · exact Or.inr (inductionHypothesis run still)
  exact List.any_eq_true.mpr ⟨_, cleared, rfl⟩

end LogsProvider

/-! ### Steps -/

namespace Visualizer

variable {servers : List Rat} {v v' : Visualizer} {batch : List (Action Fields)}

/-- The dispatcher has the list and the status of the provider, and every header is what the
displayed logs of its server make of a follower. -/
structure Folds (servers : List Rat) (v : Visualizer) : Prop where
  logs : v.dispatcher.logs = v.provider.logs
  status : v.dispatcher.connectionStatus = v.provider.connectionStatus
  synced : v.dispatcher.Synced servers
  headers : ∀ raftID ∈ servers, ∃ term ≤ 1, v.header raftID =
    (LogDispatcher.own raftID v.dispatcher.logs).foldl Header.processLog (.follower term)

/-- A commit that clears nothing and appends at most one log appends it, or does nothing. -/
theorem updates_cases {commit : Commit Fields} (keeps : commit.clears = false)
    (one : (commit.updates.filter LogsUpdate.isAppend).length ≤ 1) :
    commit.updates = [] ∨ ∃ log, commit.updates = [.append log] := by
  have all : commit.updates.filter LogsUpdate.isAppend = commit.updates := by
    refine List.filter_eq_self.mpr fun update member => ?_
    simpa using List.any_eq_false.mp keeps update member
  rw [all] at one
  rcases found : commit.updates with _ | ⟨first, rest⟩
  · exact Or.inl rfl
  · obtain rfl : rest = [] := by
      rw [found, List.length_cons] at one
      exact List.length_eq_zero_iff.mp (by omega)
    cases first with
    | append log => exact Or.inr ⟨log, rfl⟩
    | clear => simp [Commit.clears, found, LogsUpdate.isAppend] at keeps

/-- A new log of the server is the latest of those that are shown; where none is new, the latest
has been processed before. -/
theorem effects_same {d after : LogDispatcher Fields} {raftID : Rat} {header base : Header}
    {log : Log Fields} (same : after.connectionStatus = d.connectionStatus)
    (shown : d.serverLogs raftID <+: LogDispatcher.own raftID d.logs)
    (shows : after.serverLogs raftID = LogDispatcher.own raftID (d.logs ++ [log]))
    (folds : header = (LogDispatcher.own raftID d.logs).foldl Header.processLog base) :
    effects d after raftID header =
      (LogDispatcher.own raftID (d.logs ++ [log])).foldl Header.processLog base := by
  unfold effects
  rw [LogDispatcher.own_append] at shows ⊢
  simp only [same, ne_eq, not_true_eq_false, decide_false, Bool.false_and, Bool.false_or,
    Bool.false_eq_true, if_false, decide_eq_true_eq]
  by_cases mine : log.server = some raftID
  · have single : LogDispatcher.own raftID [log] = [log] := by
      simp [LogDispatcher.own, mine]
    rw [single] at shows ⊢
    have longer : after.serverLogs raftID ≠ d.serverLogs raftID := by
      intro equal
      have bound := shown.length_le
      rw [← equal, shows, List.length_append, List.length_singleton] at bound
      omega
    rw [if_pos longer, shows, List.getLast?_append, List.getLast?_singleton, List.foldl_append,
      folds]
    rfl
  · have other : LogDispatcher.own raftID [log] = [] := by
      simp [LogDispatcher.own, mine]
    rw [other, List.append_nil] at shows ⊢
    split_ifs
    · exact folds
    · rw [shows]
      split
      · rename_i latestLog last
        rw [folds, Header.foldl_processLog_again base last]
      · exact folds

/-- The instances are emptied by a new status, and the header begins anew for a new connection. -/
theorem effects_changed {d after : LogDispatcher Fields} {raftID : Rat} (header : Header)
    (changed : after.connectionStatus ≠ d.connectionStatus) (empty : after.serverLogs raftID = []) :
    effects d after raftID header =
      if after.connectionStatus = .connecting then .follower 1 else header := by
  unfold effects
  simp [changed, empty]

theorem effects_idle {d after : LogDispatcher Fields} {raftID : Rat} (header : Header)
    (same : after.connectionStatus = d.connectionStatus)
    (shown : after.serverLogs raftID = d.serverLogs raftID) :
    effects d after raftID header = header := by
  unfold effects
  simp [same, shown]

/-- After a commit that changes the status the instances show nothing. -/
theorem commit_new_status_shows {d : LogDispatcher Fields} {commit : Commit Fields}
    (synced : d.Synced servers) (changed : commit.connectionStatus ≠ d.connectionStatus)
    (keeps : d.keepsIndex commit = true) {raftID : Rat} (member : raftID ∈ servers) :
    (d.commit servers commit).serverLogs raftID = [] := by
  have shown := (LogDispatcher.commit_new_status synced changed keeps).1.shown raftID member
  have index : (d.commit servers commit).lastProcessedIndexRef = -1 := by
    rw [LogDispatcher.commit_of_changed changed]
    rfl
  rw [shown, index]
  rfl

theorem Folds.step (folds : Folds servers v) (steady : v.steady batch = true)
    (taken : v.step servers batch = some v') : Folds servers v' := by
  obtain ⟨next, run, rfl⟩ := Option.map_eq_some_iff.mp taken
  unfold Visualizer.steady at steady
  rw [run] at steady
  simp only [Bool.and_eq_true, decide_eq_true_eq, Bool.or_eq_true, Bool.not_eq_true'] at steady
  obtain ⟨⟨keeps, one⟩, renews⟩ := steady
  have follows : (v.dispatcher.commit servers (v.provider.commitOf batch next)).logs = next.logs ∧
      _ := LogDispatcher.commit_follows folds.logs run
  obtain ⟨logs, status⟩ := follows
  have list := (LogDispatcher.commit_list servers v.dispatcher (v.provider.commitOf batch next)).1
  obtain ⟨synced, whole⟩ := LogDispatcher.commit_synced folds.synced keeps
  refine ⟨logs, status, synced, fun raftID member => ?_⟩
  obtain ⟨term, bound, before⟩ := folds.headers raftID member
  dsimp only
  by_cases same : (v.provider.commitOf batch next).connectionStatus =
      v.dispatcher.connectionStatus
  · -- The status stays, so that nothing is cleared.
    have cleared : (v.provider.commitOf batch next).clears = false :=
      renews.resolve_right fun changed => changed.1 same
    refine ⟨term, bound, ?_⟩
    rcases updates_cases cleared one with nothing | ⟨log, appended⟩
    · have idle : v.dispatcher.commit servers (v.provider.commitOf batch next) =
          v.dispatcher.received (v.provider.commitOf batch next) := by
        rw [LogDispatcher.commit_of_same same, if_neg (not_not.mpr nothing)]
      rw [effects_idle _ (status.trans same) (by rw [idle]; rfl), list, nothing]
      exact before
    · have shown := LogDispatcher.synced_shown_all synced (whole (by simp [appended])) member
      rw [list, appended] at shown ⊢
      refine effects_same (status.trans same) ?_ shown before
      rw [folds.synced.shown raftID member]
      exact (List.take_prefix _ _).filter _
  · -- The list is empty for a new connection, and otherwise stays.
    have empty := commit_new_status_shows folds.synced same keeps member
    have kept : (v.provider.commitOf batch next).kept = [] := by
      simpa [LogDispatcher.keepsIndex, same] using keeps
    rw [effects_changed _ (by rw [status]; exact same) empty, list,
      LogDispatcher.foldl_apply_of_kept_nil kept, status]
    by_cases connecting : next.connectionStatus = .connecting
    · have cleared := LogsProvider.commitOf_clears run
        (fun before => same (connecting.trans (folds.status.trans before).symm)) connecting
      have updated : (v.provider.commitOf batch next).updates ≠ [] := by
        intro nothing
        simp [Commit.clears, nothing] at cleared
      rw [if_pos connecting, if_neg updated]
      exact ⟨1, Nat.le_refl 1, rfl⟩
    · have cleared : (v.provider.commitOf batch next).clears = false :=
        renews.resolve_right fun changed => connecting changed.2
      have nothing : (v.provider.commitOf batch next).updates = [] := by
        refine (updates_cases cleared one).resolve_right ?_
        rintro ⟨log, appended⟩
        simp [Commit.kept, appended, LogsUpdate.apply] at kept
      rw [if_neg connecting, if_pos nothing]
      exact ⟨term, bound, before⟩

theorem init_folds (servers : List Rat) : Folds servers (init servers) :=
  ⟨rfl, rfl, LogDispatcher.init_synced servers, fun _ _ => ⟨0, Nat.zero_le 1, rfl⟩⟩

theorem folds_of_run {batches : List (List (Action Fields))}
    (run : execute (Visualizer.step servers) (init servers) batches = some v)
    (steady : along (Visualizer.step servers) Visualizer.steady (init servers) batches = true) :
    Folds servers v :=
  execute_invariant (Folds servers) (fun _ _ _ folds steady taken => folds.step steady taken)
    (init_folds servers) steady run

/-- While the commits are steady, the header of every server is what all its displayed logs make of
a follower, although only the latest log of a commit is processed, and after a change of the status
some are processed again. -/
theorem header_folds_logs {batches : List (List (Action Fields))}
    (run : execute (Visualizer.step servers) (init servers) batches = some v)
    (steady : along (Visualizer.step servers) Visualizer.steady (init servers) batches = true) :
    ∀ raftID ∈ servers, ∃ term ≤ 1, v.header raftID =
      (v.provider.logs.filter fun log => log.server = some raftID).foldl Header.processLog
        (.follower term) := by
  intro raftID member
  have folds := folds_of_run run steady
  obtain ⟨term, bound, header⟩ := folds.headers raftID member
  rw [folds.logs] at header
  exact ⟨term, bound, header⟩

/-- A log that makes the header show a state. -/
def transitionTo (raftID : Rat) (state : RaftState) : Log Fields where
  message := some (.string LogMessageType.stateTransition.text)
  raftID := some (.number raftID)
  body := ⟨some (.string state.text), none, none⟩

/-- A connection with two logs, one after the other. -/
def twoTransitions : List (List (Action Fields)) :=
  [[.connect true], [.opened 0],
    [.message (.array [.object (transitionTo 1 .candidate), .object (transitionTo 2 .leader)])],
    [.tick 0], [.tick 0]]

theorem header_folds_logs_two : ∃ v,
    execute (Visualizer.step [1, 2]) (init [1, 2]) twoTransitions = some v ∧
      v.provider.logs.length = 2 ∧
      ∀ raftID ∈ ([1, 2] : List Rat), ∃ term ≤ 1, v.header raftID =
        (v.provider.logs.filter fun log => log.server = some raftID).foldl Header.processLog
          (.follower term) := by
  obtain ⟨v, run, two⟩ := (Option.any_eq_true _ _).mp (by decide +kernel :
    (execute (Visualizer.step [1, 2]) (init [1, 2]) twoTransitions).any (fun v =>
      decide (v.provider.logs.length = 2)) = true)
  exact ⟨v, run, of_decide_eq_true two, header_folds_logs run (by decide +kernel)⟩

end Visualizer

end RaftInMotion.Frontend
