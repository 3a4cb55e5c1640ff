/-
This file embeds `LogDispatcherProvider` and `useServerLogs`, and gives the condition under which
each server instance shows exactly its own logs. A step is one commit of React: the updates of the
log list that it applies, in their order, and the status it ends with. Its effects run child first
and in the order of their declaration, each when what it depends on has changed; an update always
gives the list a new identity.
-/

import RaftInMotion.Frontend.LogsContext
import Mathlib.Data.List.Induction

namespace RaftInMotion.Frontend

open Execution

variable {Body : Type}

/-! ### Commits -/

/-- An update of the log list; `setLogs` takes a function of the list before. -/
inductive LogsUpdate (Body : Type)
  | append (log : Log Body)
  | clear
deriving DecidableEq, Repr

def LogsUpdate.apply (logs : List (Log Body)) : LogsUpdate Body → List (Log Body)
  | .append log => logs ++ [log]
  | .clear => []

def LogsUpdate.isAppend : LogsUpdate Body → Bool
  | .append _ => true
  | .clear => false

structure Commit (Body : Type) where
  updates : List (LogsUpdate Body)
  connectionStatus : ConnectionStatus
deriving DecidableEq, Repr

namespace Commit

/-- The commit appends a log. -/
def appends (commit : Commit Body) : Bool :=
  commit.updates.any LogsUpdate.isAppend

/-- The commit clears the list. -/
def clears (commit : Commit Body) : Bool :=
  commit.updates.any fun update => !update.isAppend

/-- The logs that the commit appends and does not clear again. -/
def kept (commit : Commit Body) : List (Log Body) :=
  commit.updates.foldl LogsUpdate.apply []

end Commit

/-- What a step of the provider does to the log list. -/
def LogsProvider.updates (p : LogsProvider Body) : Action Body → List (LogsUpdate Body)
  | .connect _ | .clearLogs => [.clear]
  | .tick _ => (p.logQueueRef.head?.map LogsUpdate.append).toList
  | .disconnect | .message _ | .opened _ | .closed _ | .errored _ => []

/-! ### The dispatcher -/

/-- The server a log belongs to: its `raftID`, when that is a number. -/
def Log.server (log : Log Body) : Option Rat :=
  match log.raftID with
  | some (.number raftID) => some raftID
  | _ => none

structure LogDispatcher (Body : Type) where
  logs : List (Log Body)
  connectionStatus : ConnectionStatus
  lastProcessedIndexRef : Int
  /-- The keys of the map of the callbacks. -/
  serverCallbacksRef : List Rat
  /-- What `useServerLogs` keeps for a server. -/
  serverLogs : Rat → List (Log Body)

namespace LogDispatcher

/-- The state after the first commit, in which the instances of the servers register. -/
def init (servers : List Rat) : LogDispatcher Body where
  logs := []
  connectionStatus := .disconnected
  lastProcessedIndexRef := -1
  serverCallbacksRef := servers
  serverLogs := fun _ => []

def registerServer (d : LogDispatcher Body) (raftId : Rat) : LogDispatcher Body :=
  if raftId ∈ d.serverCallbacksRef then d
  else { d with serverCallbacksRef := d.serverCallbacksRef ++ [raftId] }

def unregisterServer (d : LogDispatcher Body) (raftId : Rat) : LogDispatcher Body :=
  { d with serverCallbacksRef := d.serverCallbacksRef.filter (· ≠ raftId) }

def setServerLogs (d : LogDispatcher Body) (raftId : Rat)
    (update : List (Log Body) → List (Log Body)) : LogDispatcher Body :=
  { d with serverLogs := fun other =>
      if other = raftId then update (d.serverLogs raftId) else d.serverLogs other }

/-- The effects of `useServerLogs` when the status has changed. -/
def serverEffects (d : LogDispatcher Body) (raftId : Rat) : LogDispatcher Body :=
  (d.setServerLogs raftId fun _ => []).registerServer raftId

/-- The callback of the server of a log, when there is one. -/
def deliver (d : LogDispatcher Body) (log : Log Body) : LogDispatcher Body :=
  match log.server with
  | some raftID =>
    if raftID ∈ d.serverCallbacksRef then d.setServerLogs raftID fun prev => prev ++ [log] else d
  | none => d

/-- The effect of `LogDispatcherProvider` when the list has changed. -/
def dispatch (d : LogDispatcher Body) : LogDispatcher Body :=
  if (d.logs.length : Int) - 1 ≤ d.lastProcessedIndexRef then d
  else
    let unprocessedLogs := (d.logs.drop (d.lastProcessedIndexRef + 1).toNat).filter
      fun log => log.server.isSome
    if unprocessedLogs.length = 0 then
      { d with lastProcessedIndexRef := d.logs.length - 1 }
    else
      { unprocessedLogs.foldl deliver d with lastProcessedIndexRef := d.logs.length - 1 }

def resetLogProcessing (d : LogDispatcher Body) : LogDispatcher Body :=
  { d with lastProcessedIndexRef := -1 }

/-- One commit: the cleanups, the effects of the instances and those of the provider. -/
def commit (servers : List Rat) (d : LogDispatcher Body) (commit : Commit Body) :
    LogDispatcher Body :=
  let statusChanged := decide (commit.connectionStatus ≠ d.connectionStatus)
  let d := { d with
    logs := commit.updates.foldl LogsUpdate.apply d.logs
    connectionStatus := commit.connectionStatus }
  let d := if statusChanged then servers.foldl unregisterServer d else d
  let d := if statusChanged then servers.foldl serverEffects d else d
  let d := if commit.updates ≠ [] then d.dispatch else d
  if statusChanged then d.resetLogProcessing else d

def step (servers : List Rat) (d : LogDispatcher Body) (commit : Commit Body) :
    Option (LogDispatcher Body) :=
  some (d.commit servers commit)

/-- The commit does not leave the index beside the list: it keeps no appended log when it changes
the status, and clears no list of which the index says that it is processed when it does not. -/
def keepsIndex (d : LogDispatcher Body) (commit : Commit Body) : Bool :=
  if commit.connectionStatus ≠ d.connectionStatus then commit.kept.isEmpty
  else !commit.clears || d.lastProcessedIndexRef = -1

/-! ### The list of a commit -/

/-- A commit keeps the list and adds what it appends, or, when it clears, has only that. -/
theorem foldl_apply (updates : List (LogsUpdate Body)) (logs : List (Log Body)) :
    updates.foldl LogsUpdate.apply logs =
      (if updates.any fun update => !update.isAppend then [] else logs) ++
        updates.foldl LogsUpdate.apply [] := by
  induction updates using List.reverseRecOn with
  | nil => simp
  | append_singleton updates update inductionHypothesis =>
    rw [List.foldl_append, List.foldl_append, inductionHypothesis]
    cases update <;> simp [LogsUpdate.apply, LogsUpdate.isAppend]

/-- A commit that keeps nothing leaves the list as it is, or clears it. -/
theorem foldl_apply_of_kept_nil {commit : Commit Body} (kept : commit.kept = [])
    (logs : List (Log Body)) :
    commit.updates.foldl LogsUpdate.apply logs = if commit.updates = [] then logs else [] := by
  rw [foldl_apply, show commit.updates.foldl LogsUpdate.apply [] = [] from kept, List.append_nil]
  rcases List.eq_nil_or_concat commit.updates with empty | ⟨earlier, last, split⟩
  · simp [empty]
  · have cleared : last.isAppend = false := by
      rcases last with log | _
      · simp [Commit.kept, split, LogsUpdate.apply] at kept
      · rfl
    simp [split, cleared]

/-! ### What the effects leave alone -/

/-- The effects change neither the list, nor the status, nor the index. -/
def SameList (d next : LogDispatcher Body) : Prop :=
  next.logs = d.logs ∧ next.connectionStatus = d.connectionStatus ∧
    next.lastProcessedIndexRef = d.lastProcessedIndexRef

theorem foldl_sameList {Item : Type} {effect : LogDispatcher Body → Item → LogDispatcher Body}
    (same : ∀ d item, SameList d (effect d item)) (items : List Item) (d : LogDispatcher Body) :
    SameList d (items.foldl effect d) := by
  induction items generalizing d with
  | nil => exact ⟨rfl, rfl, rfl⟩
  | cons item rest inductionHypothesis =>
    obtain ⟨logs, status, index⟩ := inductionHypothesis (effect d item)
    obtain ⟨logs', status', index'⟩ := same d item
    exact ⟨logs.trans logs', status.trans status', index.trans index'⟩

theorem registerServer_sameList (d : LogDispatcher Body) (raftId : Rat) :
    SameList d (d.registerServer raftId) := by
  unfold registerServer
  split <;> exact ⟨rfl, rfl, rfl⟩

theorem deliver_sameList (d : LogDispatcher Body) (log : Log Body) :
    SameList d (d.deliver log) := by
  unfold deliver
  split
  · split <;> exact ⟨rfl, rfl, rfl⟩
  · exact ⟨rfl, rfl, rfl⟩

/-! ### The effects of the instances -/

/-- The server is registered and shows nothing. -/
def Emptied (d : LogDispatcher Body) (raftId : Rat) : Prop :=
  raftId ∈ d.serverCallbacksRef ∧ d.serverLogs raftId = []

theorem serverEffects_self (d : LogDispatcher Body) (raftId : Rat) :
    (d.serverEffects raftId).Emptied raftId := by
  unfold serverEffects registerServer
  split
  · rename_i found
    exact ⟨found, by simp [setServerLogs]⟩
  · exact ⟨by simp [setServerLogs], by simp [setServerLogs]⟩

theorem Emptied.serverEffects {d : LogDispatcher Body} {raftId : Rat} (emptied : d.Emptied raftId)
    (other : Rat) : (d.serverEffects other).Emptied raftId := by
  obtain ⟨registered, shown⟩ := emptied
  unfold LogDispatcher.serverEffects registerServer
  split
  · refine ⟨registered, ?_⟩
    simp only [setServerLogs]
    split <;> simp [shown]
  · refine ⟨List.mem_append_left _ registered, ?_⟩
    simp only [setServerLogs]
    split <;> simp [shown]

theorem foldl_serverEffects {servers : List Rat} {d : LogDispatcher Body} {raftId : Rat}
    (member : raftId ∈ servers ∨ d.Emptied raftId) :
    (servers.foldl serverEffects d).Emptied raftId := by
  induction servers generalizing d with
  | nil => exact member.resolve_left List.not_mem_nil
  | cons first rest inductionHypothesis =>
    refine inductionHypothesis ?_
    rcases member with member | emptied
    · rcases List.mem_cons.mp member with rfl | inRest
      · exact Or.inr (serverEffects_self d raftId)
      · exact Or.inl inRest
    · exact Or.inr (emptied.serverEffects first)

/-! ### Dispatching -/

/-- The logs of a server. -/
def own (raftId : Rat) (logs : List (Log Body)) : List (Log Body) :=
  logs.filter fun log => log.server = some raftId

theorem own_append (raftId : Rat) (first second : List (Log Body)) :
    own raftId (first ++ second) = own raftId first ++ own raftId second :=
  List.filter_append _ _

/-- The logs without a number belong to no server. -/
theorem own_numbered (raftId : Rat) (logs : List (Log Body)) :
    own raftId (logs.filter fun log => log.server.isSome) = own raftId logs := by
  unfold own
  rw [List.filter_filter]
  congr 1
  funext log
  rcases log.server with _ | server <;> simp

theorem deliver_serverCallbacksRef (d : LogDispatcher Body) (log : Log Body) :
    (d.deliver log).serverCallbacksRef = d.serverCallbacksRef := by
  unfold deliver
  split
  · split <;> rfl
  · rfl

theorem deliver_serverLogs {d : LogDispatcher Body} {raftId : Rat}
    (registered : raftId ∈ d.serverCallbacksRef) (log : Log Body) :
    (d.deliver log).serverLogs raftId = d.serverLogs raftId ++ own raftId [log] := by
  unfold deliver own
  rcases found : log.server with _ | server
  · simp [found]
  · by_cases same : raftId = server
    · obtain rfl := same
      simp [found, registered, setServerLogs]
    · have other : ¬ server = raftId := fun equal => same equal.symm
      simp only [List.filter_cons, found, Option.some.injEq, other]
      split <;> simp [setServerLogs, same]

theorem foldl_deliver {d : LogDispatcher Body} (logs : List (Log Body)) :
    (logs.foldl deliver d).serverCallbacksRef = d.serverCallbacksRef ∧
      ∀ raftId ∈ d.serverCallbacksRef,
        (logs.foldl deliver d).serverLogs raftId = d.serverLogs raftId ++ own raftId logs := by
  induction logs generalizing d with
  | nil => exact ⟨rfl, fun raftId _ => by simp [own]⟩
  | cons log rest inductionHypothesis =>
    obtain ⟨callbacks, delivered⟩ := inductionHypothesis (d := d.deliver log)
    rw [deliver_serverCallbacksRef] at callbacks delivered
    refine ⟨callbacks, fun raftId registered => ?_⟩
    rw [List.foldl_cons, delivered raftId registered, deliver_serverLogs registered,
      List.append_assoc, ← own_append, List.singleton_append]

/-- The index is not beyond the list, and each server has registered and shows its logs of the part
that is processed. -/
structure Synced (servers : List Rat) (d : LogDispatcher Body) : Prop where
  started : -1 ≤ d.lastProcessedIndexRef
  within : d.lastProcessedIndexRef < d.logs.length
  registered : ∀ raftId ∈ servers, raftId ∈ d.serverCallbacksRef
  shown : ∀ raftId ∈ servers, d.serverLogs raftId =
    own raftId (d.logs.take (d.lastProcessedIndexRef + 1).toNat)

/-- The logs that are still to be processed. -/
def unprocessed (d : LogDispatcher Body) : List (Log Body) :=
  (d.logs.drop (d.lastProcessedIndexRef + 1).toNat).filter fun log => log.server.isSome

theorem dispatch_of_lt {d : LogDispatcher Body}
    (behind : d.lastProcessedIndexRef < d.logs.length - 1) :
    d.dispatch = { d.unprocessed.foldl deliver d with
      lastProcessedIndexRef := d.logs.length - 1 } := by
  unfold dispatch
  rw [if_neg (by omega)]
  change (if d.unprocessed.length = 0 then _ else _) = _
  split
  · rename_i empty
    have nothing : d.unprocessed = [] := List.length_eq_zero_iff.mp empty
    rw [nothing]
    rfl
  · rfl

/-- After the effect the whole list is processed. -/
theorem dispatch_synced {servers : List Rat} {d : LogDispatcher Body} (synced : d.Synced servers) :
    d.dispatch.Synced servers ∧ d.dispatch.lastProcessedIndexRef = d.dispatch.logs.length - 1 := by
  by_cases behind : d.lastProcessedIndexRef < d.logs.length - 1
  · rw [dispatch_of_lt behind]
    obtain ⟨logs, -, -⟩ := foldl_sameList deliver_sameList d.unprocessed d
    obtain ⟨callbacks, delivered⟩ := foldl_deliver (d := d) d.unprocessed
    refine ⟨⟨by simp only; omega, by simp only [logs]; omega, fun raftId member => ?_,
      fun raftId member => ?_⟩, by simp only [logs]⟩
    · exact callbacks ▸ synced.registered raftId member
    · have everything : (d.logs.length - 1 + 1 : Int).toNat = d.logs.length := by omega
      simp only [logs, everything, List.take_length]
      rw [delivered raftId (synced.registered raftId member), synced.shown raftId member,
        unprocessed, own_numbered, ← own_append, List.take_append_drop]
  · have same : d.dispatch = d := if_pos (by omega)
    have within := synced.within
    rw [same]
    exact ⟨synced, by omega⟩

theorem synced_shown_all {servers : List Rat} {d : LogDispatcher Body} (synced : d.Synced servers)
    (whole : d.lastProcessedIndexRef = d.logs.length - 1) {raftId : Rat}
    (member : raftId ∈ servers) : d.serverLogs raftId = own raftId d.logs := by
  rw [synced.shown raftId member, whole,
    show (d.logs.length - 1 + 1 : Int).toNat = d.logs.length by omega, List.take_length]

/-! ### Commits of the dispatcher -/

/-- The state of a commit when its effects begin. -/
def received (d : LogDispatcher Body) (commit : Commit Body) : LogDispatcher Body :=
  { d with
    logs := commit.updates.foldl LogsUpdate.apply d.logs
    connectionStatus := commit.connectionStatus }

/-- The instances after the effects of a new status. -/
def restarted (servers : List Rat) (d : LogDispatcher Body) : LogDispatcher Body :=
  servers.foldl serverEffects (servers.foldl unregisterServer d)

theorem restarted_sameList (servers : List Rat) (d : LogDispatcher Body) :
    SameList d (restarted servers d) := by
  obtain ⟨logs, status, index⟩ :=
    foldl_sameList (fun d raftId => (⟨rfl, rfl, rfl⟩ : SameList d (d.unregisterServer raftId)))
      servers d
  obtain ⟨logs', status', index'⟩ := foldl_sameList
    (fun d raftId => (registerServer_sameList (d.setServerLogs raftId fun _ => []) raftId :
      SameList d (d.serverEffects raftId))) servers (servers.foldl unregisterServer d)
  exact ⟨logs'.trans logs, status'.trans status, index'.trans index⟩

theorem commit_of_same {servers : List Rat} {d : LogDispatcher Body} {commit : Commit Body}
    (same : commit.connectionStatus = d.connectionStatus) :
    d.commit servers commit =
      if commit.updates ≠ [] then (d.received commit).dispatch else d.received commit := by
  simp [LogDispatcher.commit, same, received]

theorem commit_of_changed {servers : List Rat} {d : LogDispatcher Body} {commit : Commit Body}
    (changed : commit.connectionStatus ≠ d.connectionStatus) :
    d.commit servers commit =
      (if commit.updates ≠ [] then (restarted servers (d.received commit)).dispatch
        else restarted servers (d.received commit)).resetLogProcessing := by
  simp [LogDispatcher.commit, changed, received, restarted]

theorem dispatch_list (d : LogDispatcher Body) :
    d.dispatch.logs = d.logs ∧ d.dispatch.connectionStatus = d.connectionStatus := by
  by_cases behind : d.lastProcessedIndexRef < d.logs.length - 1
  · rw [dispatch_of_lt behind]
    obtain ⟨logs, status, -⟩ := foldl_sameList deliver_sameList d.unprocessed d
    exact ⟨logs, status⟩
  · rw [show d.dispatch = d from if_pos (by omega)]
    exact ⟨rfl, rfl⟩

/-- No effect changes the list or the status that the commit has brought. -/
theorem commit_list (servers : List Rat) (d : LogDispatcher Body) (commit : Commit Body) :
    (d.commit servers commit).logs = commit.updates.foldl LogsUpdate.apply d.logs ∧
      (d.commit servers commit).connectionStatus = commit.connectionStatus := by
  by_cases same : commit.connectionStatus = d.connectionStatus
  · rw [commit_of_same same]
    split
    · exact dispatch_list (d.received commit)
    · exact ⟨rfl, rfl⟩
  · rw [commit_of_changed same]
    obtain ⟨logs, status, -⟩ := restarted_sameList servers (d.received commit)
    split
    · obtain ⟨logs', status'⟩ := dispatch_list (restarted servers (d.received commit))
      exact ⟨logs'.trans logs, status'.trans status⟩
    · exact ⟨logs, status⟩

/-- A commit that does not change the status appends to the list or, where nothing is processed,
may begin it anew. -/
theorem received_synced {servers : List Rat} {d : LogDispatcher Body} {commit : Commit Body}
    (synced : d.Synced servers) (keeps : commit.clears = true → d.lastProcessedIndexRef = -1) :
    (d.received commit).Synced servers := by
  have started := synced.started
  have within := synced.within
  have list : (d.received commit).logs = (if commit.clears then [] else d.logs) ++ commit.kept :=
    foldl_apply commit.updates d.logs
  cases cleared : commit.clears
  · have longer : (d.received commit).logs = d.logs ++ commit.kept := by simp [list, cleared]
    refine ⟨started, ?_, synced.registered, fun raftId member => ?_⟩
    · have index : (d.received commit).lastProcessedIndexRef = d.lastProcessedIndexRef := rfl
      rw [longer, List.length_append, index]
      omega
    · rw [longer, List.take_append_of_le_length (by simp only [received]; omega)]
      exact synced.shown raftId member
  · have nothing := keeps cleared
    refine ⟨started, ?_, synced.registered, fun raftId member => ?_⟩
    · have index : (d.received commit).lastProcessedIndexRef = -1 := nothing
      rw [index]
      omega
    · have shown := synced.shown raftId member
      have index : (d.received commit).lastProcessedIndexRef = -1 := nothing
      rw [nothing] at shown
      rw [index]
      exact shown

/-- Then the provider catches up with the list. -/
theorem commit_same_status {servers : List Rat} {d : LogDispatcher Body} {commit : Commit Body}
    (synced : d.Synced servers) (same : commit.connectionStatus = d.connectionStatus)
    (keeps : d.keepsIndex commit = true) :
    (d.commit servers commit).Synced servers ∧
      (commit.updates ≠ [] → (d.commit servers commit).lastProcessedIndexRef =
        (d.commit servers commit).logs.length - 1) := by
  have begins : (d.received commit).Synced servers := received_synced synced fun cleared => by
    simpa [keepsIndex, same, cleared] using keeps
  rw [commit_of_same same]
  split
  · exact ⟨(dispatch_synced begins).1, fun _ => (dispatch_synced begins).2⟩
  · rename_i none_left
    exact ⟨begins, fun some_left => absurd some_left none_left⟩

/-- A commit that changes the status keeps no new log: the instances are emptied, and the list
waits to be processed from its start. -/
theorem commit_new_status {servers : List Rat} {d : LogDispatcher Body} {commit : Commit Body}
    (synced : d.Synced servers) (changed : commit.connectionStatus ≠ d.connectionStatus)
    (keeps : d.keepsIndex commit = true) :
    (d.commit servers commit).Synced servers ∧
      (commit.updates ≠ [] → (d.commit servers commit).lastProcessedIndexRef =
        (d.commit servers commit).logs.length - 1) := by
  have kept : commit.kept = [] := by simpa [keepsIndex, changed] using keeps
  have list := foldl_apply_of_kept_nil kept d.logs
  have same := restarted_sameList servers (d.received commit)
  have empty : commit.updates ≠ [] → (restarted servers (d.received commit)).logs = [] := by
    intro updated
    rw [same.1]
    exact list.trans (if_neg updated)
  have quiet : (if commit.updates ≠ [] then (restarted servers (d.received commit)).dispatch
      else restarted servers (d.received commit)) = restarted servers (d.received commit) := by
    split
    · rename_i updated
      have started : -1 ≤ (restarted servers (d.received commit)).lastProcessedIndexRef := by
        rw [same.2.2]
        exact synced.started
      exact if_pos (by simpa [empty updated] using started)
    · rfl
  have each : ∀ raftId ∈ servers, (restarted servers (d.received commit)).Emptied raftId :=
    fun raftId member => foldl_serverEffects (Or.inl member)
  rw [commit_of_changed changed, quiet]
  refine ⟨⟨Int.le_refl _, ?_, fun raftId member => (each raftId member).1,
    fun raftId member => (each raftId member).2⟩, fun updated => ?_⟩
  · simp only [resetLogProcessing]
    omega
  · simp [resetLogProcessing, empty updated]

theorem commit_synced {servers : List Rat} {d : LogDispatcher Body} {commit : Commit Body}
    (synced : d.Synced servers) (keeps : d.keepsIndex commit = true) :
    (d.commit servers commit).Synced servers ∧
      (commit.updates ≠ [] → (d.commit servers commit).lastProcessedIndexRef =
        (d.commit servers commit).logs.length - 1) := by
  by_cases same : commit.connectionStatus = d.connectionStatus
  · exact commit_same_status synced same keeps
  · exact commit_new_status synced same keeps

theorem init_synced (servers : List Rat) : (init servers : LogDispatcher Body).Synced servers :=
  ⟨Int.le_refl _, by simp [init], fun _ member => member, fun _ _ => rfl⟩

/-- After a commit that appends a log each server shows exactly its own logs, when no commit so far
has left the index beside the list. -/
theorem shows_own_logs {servers : List Rat} {commits : List (Commit Body)} {last : Commit Body}
    {d : LogDispatcher Body}
    (keeps : along (step servers) keepsIndex (init servers) (commits ++ [last]) = true)
    (run : execute (step servers) (init servers) (commits ++ [last]) = some d)
    (appends : last.appends = true) :
    ∀ raftId ∈ servers,
      d.serverLogs raftId = d.logs.filter fun log => log.server = some raftId := by
  obtain ⟨before, run, taken⟩ := execute_append.mp run
  obtain ⟨keeps, here⟩ := along_append run keeps
  have synced : before.Synced servers :=
    execute_invariant (Synced servers) (fun d commit next synced keeps taken =>
      Option.some.inj taken ▸ (commit_synced synced keeps).1) (init_synced servers) keeps run
  obtain rfl : before.commit servers last = d := by simpa [execute, step] using taken
  have kept : before.keepsIndex last = true := by simpa [along, step] using here
  obtain ⟨after, whole⟩ := commit_synced synced kept
  have updated : last.updates ≠ [] := by
    intro empty
    simp [Commit.appends, empty] at appends
  exact fun raftId member => synced_shown_all after (whole updated) member

/-- A log of the server. -/
def logOf (raftID : Rat) (message : LogMessageType) : Log Unit where
  message := some (.string message.text)
  raftID := some (.number raftID)
  body := ()

/-- A connection with two logs. -/
def connected : List (Commit Unit) :=
  [⟨[.clear], .connecting⟩, ⟨[], .connected⟩, ⟨[.append (logOf 1 .stateTransition)], .connected⟩,
    ⟨[.append (logOf 2 .electionWon)], .connected⟩]

theorem shows_own_logs_connected :
    ∃ d, execute (step [1, 2]) (init [1, 2]) connected = some d ∧ d.logs.length = 2 ∧
      ∀ raftId ∈ [1, 2],
        d.serverLogs raftId = d.logs.filter fun log => log.server = some raftId := by
  obtain ⟨d, run, two⟩ := (Option.any_eq_true _ _).mp (by decide +kernel :
    (execute (step [1, 2]) (init [1, 2]) connected).any
      (fun d => decide (d.logs.length = 2)) = true)
  have keeps : along (step [1, 2]) keepsIndex (init [1, 2])
      (connected.take 3 ++ [⟨[.append (logOf 2 .electionWon)], .connected⟩]) = true := by
    decide +kernel
  exact ⟨d, run, of_decide_eq_true two, shows_own_logs keeps run rfl⟩

/-- `clearLogs` while the status stays: the index stays behind the list that is cleared, the next
log is lost, and the old one is still on display. -/
def clearedAlone : List (Commit Unit) :=
  [⟨[.append (logOf 1 .stateTransition)], .disconnected⟩, ⟨[.clear], .disconnected⟩,
    ⟨[.append (logOf 1 .electionWon)], .disconnected⟩]

/-- A log in the commit that changes the status: the index is reset after the log is processed, and
the next commit delivers it again. -/
def statusWithLog : List (Commit Unit) :=
  [⟨[.append (logOf 1 .stateTransition)], .connected⟩,
    ⟨[.append (logOf 1 .electionWon)], .connected⟩]

theorem log_lost_or_repeated :
    (∃ d, execute (step [1]) (init [1]) clearedAlone = some d ∧
      d.logs = [logOf 1 .electionWon] ∧ d.serverLogs 1 = [logOf 1 .stateTransition]) ∧
      ∃ d, execute (step [1]) (init [1]) statusWithLog = some d ∧
        d.logs = [logOf 1 .stateTransition, logOf 1 .electionWon] ∧
        d.serverLogs 1 =
          [logOf 1 .stateTransition, logOf 1 .stateTransition, logOf 1 .electionWon] := by
  constructor
  · obtain ⟨d, run, wrong⟩ := (Option.any_eq_true _ _).mp (by decide +kernel :
      (execute (step [1]) (init [1]) clearedAlone).any
        (fun d => decide (d.logs = [logOf 1 .electionWon] ∧
          d.serverLogs 1 = [logOf 1 .stateTransition])) = true)
    exact ⟨d, run, of_decide_eq_true wrong⟩
  · obtain ⟨d, run, wrong⟩ := (Option.any_eq_true _ _).mp (by decide +kernel :
      (execute (step [1]) (init [1]) statusWithLog).any
        (fun d => decide (d.logs = [logOf 1 .stateTransition, logOf 1 .electionWon] ∧
          d.serverLogs 1 =
            [logOf 1 .stateTransition, logOf 1 .stateTransition, logOf 1 .electionWon])) = true)
    exact ⟨d, run, of_decide_eq_true wrong⟩

end LogDispatcher

/-! ### Commits of the provider -/

namespace LogsProvider

/-- A step of the provider does to the list what its updates say. -/
theorem step_updates {p next : LogsProvider Body} {action : Action Body}
    (taken : p.step action = some next) :
    next.logs = (p.updates action).foldl LogsUpdate.apply p.logs := by
  cases action with
  | connect constructed =>
    obtain rfl := Option.some.inj taken
    cases constructed <;> simp [connect, resetState, updates, LogsUpdate.apply]
  | disconnect =>
    obtain rfl := Option.some.inj taken
    simp [disconnect, cleanupResources, closeService_replay, updates]
  | clearLogs =>
    obtain rfl := Option.some.inj taken
    simp [clearLogs, resetState, updates, LogsUpdate.apply]
  | message payload =>
    obtain rfl := Option.some.inj taken
    rcases payload with _ | rawLogs | rawLog
    · rfl
    · simp only [onMessage, enqueueLog]
      split <;> simp [startFlushing, updates]
    · simp only [onMessage, enqueueLog]
      split <;> simp [startFlushing, updates]
  | tick interval =>
    simp only [step] at taken
    split at taken
    · obtain rfl := Option.some.inj taken
      unfold flush
      split
      · rename_i empty
        simp [updates, empty]
      · rename_i nextLog rest queue
        simp [updates, queue, LogsUpdate.apply]
    · simp at taken
  | opened socket =>
    simp only [step] at taken
    split at taken
    · obtain rfl := Option.some.inj taken
      rfl
    · simp at taken
  | closed socket =>
    simp only [step] at taken
    split at taken
    · obtain rfl := Option.some.inj taken
      rfl
    · simp at taken
  | errored socket =>
    simp only [step] at taken
    split at taken
    · obtain rfl := Option.some.inj taken
      rfl
    · simp at taken

/-- The commit of a batch of steps that ends in a state. -/
def commitOf (p : LogsProvider Body) (batch : List (Action Body)) (next : LogsProvider Body) :
    Commit Body where
  updates := (observed step (fun p action => some (p.updates action)) p batch).flatten
  connectionStatus := next.connectionStatus

theorem commitOf_list {p next : LogsProvider Body} {batch : List (Action Body)}
    (run : execute step p batch = some next) :
    (p.commitOf batch next).updates.foldl LogsUpdate.apply p.logs = next.logs := by
  unfold commitOf
  induction batch generalizing p with
  | nil =>
    obtain rfl : p = next := by simpa [execute] using run
    rfl
  | cons action rest inductionHypothesis =>
    obtain ⟨middle, taken, run⟩ := execute_cons.mp run
    have later := inductionHypothesis run
    rw [step_updates taken] at later
    simpa [observed, taken, List.foldl_append] using later

end LogsProvider

/-- The dispatcher that is given the commit of a batch of the provider has the list and the status
of the provider again. -/
theorem LogDispatcher.commit_follows {servers : List Rat} {d : LogDispatcher Body}
    {p next : LogsProvider Body} {batch : List (Action Body)} (logs : d.logs = p.logs)
    (run : execute LogsProvider.step p batch = some next) :
    (d.commit servers (p.commitOf batch next)).logs = next.logs ∧
      (d.commit servers (p.commitOf batch next)).connectionStatus = next.connectionStatus := by
  obtain ⟨list, status⟩ := commit_list servers d (p.commitOf batch next)
  rw [list, status, logs, LogsProvider.commitOf_list run]
  exact ⟨rfl, rfl⟩

end RaftInMotion.Frontend
