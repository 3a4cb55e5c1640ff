/-
This file decides when the connection status follows the current socket. All sockets share the
setter of the status, and a socket that is closed still has its events to deliver. The status
follows the current socket exactly while no event of an earlier one says something else than the
current one has said.
-/

import RaftInMotion.Frontend.LogsContext

namespace RaftInMotion.Frontend

open Execution

variable {Body : Type}

namespace LogsProvider

/-! ### The current socket -/

/-- The socket that was created last, when the code has not dropped it. -/
def current (p : LogsProvider Body) : Option Socket :=
  p.sockets.getLast?.filter fun socket => !socket.dropped

/-- The current socket has had its open event, and not its close event. -/
def isOpen (p : LogsProvider Body) : Bool :=
  p.current.any fun socket => socket.opened && !socket.closed

/-- The current socket has had neither its open event nor its close event. -/
def isPending (p : LogsProvider Body) : Bool :=
  p.current.any fun socket => !socket.opened && !socket.closed

/-- The socket is the current one. -/
def isCurrent (p : LogsProvider Body) (socket : Nat) : Bool :=
  p.current.isSome && socket + 1 = p.sockets.length

/-- The status says of the current socket what its events have said. -/
def FollowsCurrent (p : LogsProvider Body) : Prop :=
  (p.connectionStatus = .connected ↔ p.isOpen = true) ∧
    (p.connectionStatus = .connecting ↔ p.isPending = true)

/-- The event is of the current socket, or it says what the status has to be anyway. -/
def ownEvent (p : LogsProvider Body) : Action Body → Bool
  | .opened socket => !p.canOpen socket || p.isCurrent socket || p.isOpen
  | .closed socket => !p.canClose socket || p.isCurrent socket || !p.isOpen && !p.isPending
  | .connect _ | .disconnect | .clearLogs | .message _ | .tick _ | .errored _ => true

/-- The service holds the socket that was created last, or that one is dropped. -/
def Attached (p : LogsProvider Body) : Prop :=
  match p.wsServiceRef with
  | some socket => socket + 1 = p.sockets.length
  | none => p.current = none

/-- The status a socket is entitled to. -/
def statusOf : Option Socket → ConnectionStatus
  | none => .disconnected
  | some socket =>
    if socket.closed then .disconnected else if socket.opened then .connected else .connecting

theorem followsCurrent_iff (p : LogsProvider Body) :
    p.FollowsCurrent ↔ p.connectionStatus = statusOf p.current := by
  unfold FollowsCurrent isOpen isPending
  rcases p.current with _ | ⟨opened, closed, dropped⟩
  · cases p.connectionStatus <;> simp [statusOf]
  · cases p.connectionStatus <;> cases opened <;> cases closed <;> simp [statusOf]

theorem isOpen_iff (p : LogsProvider Body) :
    p.isOpen = true ↔ statusOf p.current = .connected := by
  unfold isOpen
  rcases p.current with _ | ⟨opened, closed, dropped⟩
  · simp [statusOf]
  · cases opened <;> cases closed <;> simp [statusOf]

theorem isSettled_iff (p : LogsProvider Body) :
    (!p.isOpen && !p.isPending) = true ↔ statusOf p.current = .disconnected := by
  unfold isOpen isPending
  rcases p.current with _ | ⟨opened, closed, dropped⟩
  · simp [statusOf]
  · cases opened <;> cases closed <;> simp [statusOf]

/-! ### Events -/

theorem getLast?_modify {Item : Type} (items : List Item) (index : Nat) (change : Item → Item) :
    (items.modify index change).getLast? =
      if index + 1 = items.length then items.getLast?.map change else items.getLast? := by
  rcases items with _ | ⟨first, rest⟩
  · simp
  · rw [List.getLast?_eq_getElem?, List.getLast?_eq_getElem?, List.length_modify,
      List.getElem?_modify, List.length_cons, Nat.add_sub_cancel]
    by_cases last : index = rest.length
    · simp [last]
    · simp [last]

theorem isCurrent_getElem? {p : LogsProvider Body} {socket : Nat}
    (is_current : p.isCurrent socket = true) : p.sockets[socket]? = p.current := by
  simp only [isCurrent, Bool.and_eq_true, decide_eq_true_eq] at is_current
  obtain ⟨exists_current, last⟩ := is_current
  obtain ⟨latest, found⟩ := Option.isSome_iff_exists.mp exists_current
  rw [found]
  obtain ⟨found, -⟩ := Option.filter_eq_some_iff.mp found
  rw [List.getLast?_eq_getElem?, show p.sockets.length - 1 = socket by omega] at found
  exact found

/-- What an event does to the current socket: nothing, unless it is its own. -/
theorem current_modify {p next : LogsProvider Body} {socket : Nat} {change : Socket → Socket}
    (changed : next.sockets = p.sockets.modify socket change)
    (keeps : ∀ socket, (change socket).dropped = socket.dropped) :
    next.current = if p.isCurrent socket then p.current.map change else p.current := by
  unfold isCurrent current
  rw [changed, getLast?_modify]
  by_cases last : socket + 1 = p.sockets.length
  · rcases p.sockets.getLast? with _ | latest
    · simp
    · cases dropped : latest.dropped <;> simp [last, keeps, dropped, Option.filter]
  · simp [last]

theorem Attached.modify {p next : LogsProvider Body} {socket : Nat} {change : Socket → Socket}
    (attached : p.Attached) (changed : next.sockets = p.sockets.modify socket change)
    (keeps : ∀ socket, (change socket).dropped = socket.dropped)
    (held : next.wsServiceRef = p.wsServiceRef) : next.Attached := by
  have event := current_modify changed keeps
  unfold Attached at attached ⊢
  rw [held]
  split
  · rename_i found
    rw [found] at attached
    rw [changed, List.length_modify]
    exact attached
  · rename_i found
    rw [found] at attached
    simp only at attached
    rw [event, attached]
    split <;> rfl

/-- A socket that the service lets go of is current no longer. -/
theorem closeService_current {p : LogsProvider Body} (attached : p.Attached) :
    p.closeService.current = none := by
  unfold Attached at attached
  unfold closeService
  split
  · rename_i socket held
    rw [held] at attached
    simp only [current, getLast?_modify, if_pos attached]
    rcases p.sockets.getLast? with _ | latest <;> simp [Option.filter]
  · rename_i free
    rwa [free] at attached

theorem closeService_wsServiceRef (p : LogsProvider Body) :
    p.closeService.wsServiceRef = none := by
  unfold closeService
  split
  · rfl
  · assumption

/-! ### Steps -/

/-- Two states agree in what the status and the sockets are. -/
def SameSockets (p next : LogsProvider Body) : Prop :=
  next.sockets = p.sockets ∧ next.wsServiceRef = p.wsServiceRef ∧
    next.connectionStatus = p.connectionStatus

theorem onMessage_sockets (p : LogsProvider Body) (payload : Payload Body) :
    SameSockets p (p.onMessage payload) := by
  rcases payload with _ | rawLogs | rawLog
  · exact ⟨rfl, rfl, rfl⟩
  · simp only [onMessage, enqueueLog]
    split <;> simp [SameSockets, startFlushing]
  · simp only [onMessage, enqueueLog]
    split <;> simp [SameSockets, startFlushing]

theorem flush_sockets (p : LogsProvider Body) : SameSockets p p.flush := by
  unfold flush
  split <;> simp [SameSockets]

theorem SameSockets.current {p next : LogsProvider Body} (same : SameSockets p next) :
    next.current = p.current := by
  rw [LogsProvider.current, same.1, LogsProvider.current]

theorem SameSockets.attached {p next : LogsProvider Body} (same : SameSockets p next)
    (attached : p.Attached) : next.Attached := by
  unfold Attached
  rw [same.2.1, same.current, same.1]
  exact attached

theorem cleanupResources_attached {p : LogsProvider Body} (attached : p.Attached) :
    p.cleanupResources.Attached ∧ p.cleanupResources.current = none := by
  have cleared : p.clearFlushInterval.Attached :=
    SameSockets.attached ⟨by simp, by simp, by simp⟩ attached
  have gone : p.cleanupResources.current = none := closeService_current cleared
  refine ⟨?_, gone⟩
  have free : p.cleanupResources.wsServiceRef = none := closeService_wsServiceRef _
  unfold Attached
  rw [free]
  exact gone

theorem resetState_sockets (p : LogsProvider Body) : SameSockets p p.resetState := by
  simp [SameSockets, resetState]

/-- A new socket is pending, and without one nothing is current. -/
theorem connect_status {p : LogsProvider Body} (attached : p.Attached) (constructed : Bool) :
    (p.connect constructed).Attached ∧
      (p.connect constructed).connectionStatus = statusOf (p.connect constructed).current := by
  have gone : p.cleanupResources.resetState.current = none :=
    (resetState_sockets _).current.trans (cleanupResources_attached attached).2
  have free : p.cleanupResources.resetState.wsServiceRef = none :=
    (resetState_sockets _).2.1.trans (closeService_wsServiceRef _)
  cases constructed
  · have none_left : (p.connect false).current = none := gone
    refine ⟨?_, ?_⟩
    · simp only [Attached, connect, free]
      exact gone
    · rw [none_left]
      rfl
  · have newest : (p.connect true).current =
        some { opened := false, closed := false, dropped := false } := by
      simp [connect, current, Option.filter]
    refine ⟨by simp [Attached, connect], ?_⟩
    rw [newest]
    rfl

/-- An open event is right for its own socket, and for another one when the current is open. -/
theorem onOpen_status {p : LogsProvider Body} {socket : Nat} (enabled : p.canOpen socket = true) :
    (p.onOpen socket).connectionStatus = statusOf (p.onOpen socket).current ↔
      p.ownEvent (.opened socket) = true := by
  have event : (p.onOpen socket).current =
      if p.isCurrent socket then p.current.map _ else p.current :=
    current_modify rfl fun _ => rfl
  have connected : (p.onOpen socket).connectionStatus = .connected := rfl
  rw [event, connected]
  cases own : p.isCurrent socket
  · have verdict : p.ownEvent (.opened socket) = p.isOpen := by simp [ownEvent, own, enabled]
    rw [verdict, isOpen_iff]
    exact eq_comm
  · obtain ⟨latest, found, fresh⟩ := (Option.any_eq_true _ _).mp enabled
    simp only [Bool.and_eq_true, Bool.not_eq_true'] at fresh
    rw [isCurrent_getElem? own] at found
    simp [found, statusOf, fresh.2, ownEvent, own]

/-- A close event is right for its own socket, and for another one when the current is closed. -/
theorem onClose_status {p : LogsProvider Body} {socket : Nat}
    (enabled : p.canClose socket = true) :
    (p.onClose socket).connectionStatus = statusOf (p.onClose socket).current ↔
      p.ownEvent (.closed socket) = true := by
  have event : (p.onClose socket).current =
      if p.isCurrent socket then p.current.map _ else p.current :=
    current_modify rfl fun _ => rfl
  have disconnected : (p.onClose socket).connectionStatus = .disconnected := rfl
  rw [event, disconnected]
  cases own : p.isCurrent socket
  · have verdict : p.ownEvent (.closed socket) = (!p.isOpen && !p.isPending) := by
      simp [ownEvent, own, enabled]
    rw [verdict, isSettled_iff]
    exact eq_comm
  · obtain ⟨latest, found, fresh⟩ := (Option.any_eq_true _ _).mp enabled
    rw [isCurrent_getElem? own] at found
    simp [found, statusOf, ownEvent, own]

/-- What a step does to the current socket and to the status. -/
theorem step_status {p next : LogsProvider Body} {action : Action Body} (attached : p.Attached)
    (follows : p.connectionStatus = statusOf p.current) (taken : p.step action = some next) :
    next.Attached ∧
      (next.connectionStatus = statusOf next.current ↔ p.ownEvent action = true) := by
  have unchanged : ∀ {next : LogsProvider Body}, SameSockets p next →
      next.Attached ∧ (next.connectionStatus = statusOf next.current ↔ true = true) := by
    intro next same
    refine ⟨same.attached attached, ?_⟩
    rw [same.current, same.2.2, follows]
    simp
  cases action with
  | connect constructed =>
    obtain rfl := Option.some.inj taken
    obtain ⟨attached, status⟩ := connect_status attached constructed
    exact ⟨attached, iff_of_true status rfl⟩
  | disconnect =>
    obtain rfl := Option.some.inj taken
    obtain ⟨attached, gone⟩ := cleanupResources_attached attached
    have none_left : p.disconnect.current = none := gone
    refine ⟨attached, ?_⟩
    rw [none_left]
    exact iff_of_true rfl rfl
  | clearLogs =>
    obtain rfl := Option.some.inj taken
    exact unchanged (resetState_sockets p)
  | message payload =>
    obtain rfl := Option.some.inj taken
    exact unchanged (onMessage_sockets p payload)
  | tick interval =>
    simp only [step] at taken
    split at taken
    · obtain rfl := Option.some.inj taken
      exact unchanged (flush_sockets p)
    · simp at taken
  | opened socket =>
    simp only [step] at taken
    split at taken
    · rename_i enabled
      obtain rfl := Option.some.inj taken
      exact ⟨attached.modify rfl (fun _ => rfl) rfl, onOpen_status enabled⟩
    · simp at taken
  | closed socket =>
    simp only [step] at taken
    split at taken
    · rename_i enabled
      obtain rfl := Option.some.inj taken
      exact ⟨attached.modify rfl (fun _ => rfl) rfl, onClose_status enabled⟩
    · simp at taken
  | errored socket =>
    simp only [step] at taken
    split at taken
    · obtain rfl := Option.some.inj taken
      exact unchanged ⟨rfl, rfl, rfl⟩
    · simp at taken

theorem ownEvent_of_disabled {p : LogsProvider Body} {action : Action Body}
    (disabled : p.step action = none) : p.ownEvent action = true := by
  cases action with
  | opened socket =>
    simp only [step] at disabled
    split at disabled
    · simp at disabled
    · rename_i absent
      simp [ownEvent, absent]
  | closed socket =>
    simp only [step] at disabled
    split at disabled
    · simp at disabled
    · rename_i absent
      simp [ownEvent, absent]
  | connect constructed => rfl
  | disconnect => rfl
  | clearLogs => rfl
  | message payload => rfl
  | tick interval => rfl
  | errored socket => rfl

/-- In every state of a run the status follows the current socket, when no event of an earlier
socket contradicts it, and only then. -/
theorem follows_current_iff (actions : List (Action Body)) :
    (∀ p, Visits step init actions p →
      (p.connectionStatus = .connected ↔ p.isOpen = true) ∧
        (p.connectionStatus = .connecting ↔ p.isPending = true)) ↔
      along step ownEvent init actions = true := by
  refine visits_iff_along Attached FollowsCurrent
    (fun _ _ disabled => ownEvent_of_disabled disabled)
    (fun p action next attached follows taken => ?_) rfl
    ⟨by simp [init, isOpen, current], by simp [init, isPending, current]⟩
  obtain ⟨attached, exactly⟩ := step_status attached ((followsCurrent_iff p).mp follows) taken
  exact ⟨fun _ => attached, (followsCurrent_iff next).trans exactly⟩

/-- A second connection while the first socket is open: its close event comes when the new socket
is pending, and the status says that there is no connection. -/
theorem late_close :
    ∃ p, execute step (init : LogsProvider Unit)
        [.connect true, .opened 0, .connect true, .closed 0] = some p ∧
      p.isPending = true ∧ p.connectionStatus = .disconnected := by
  obtain ⟨p, run, wrong⟩ := (Option.any_eq_true _ _).mp (by decide +kernel :
    (execute step (init : LogsProvider Unit)
      [.connect true, .opened 0, .connect true, .closed 0]).any
        (fun p => p.isPending && p.connectionStatus = .disconnected) = true)
  simp only [Bool.and_eq_true, decide_eq_true_eq] at wrong
  exact ⟨p, run, wrong⟩

end LogsProvider

end RaftInMotion.Frontend
