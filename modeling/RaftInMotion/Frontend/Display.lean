/-
This file joins the whole way from a server to its header. A log that an instance writes is sent by
the session of the client, is displayed by the provider, and is handed by the dispatcher to the
instance of the server, which takes the state over. What a header shows then lags behind the
server, but it is a state that the server was in.
-/

import RaftInMotion.Frontend.Header
import RaftInMotion.Frontend.Stream
import RaftInMotion.Safety.Logging

namespace RaftInMotion.Frontend

open Execution Websocket

variable {n : Nat} {Command : Type}

/-! ### Logs of the servers -/

/-- `int(rf.state)`. -/
def stateNumber : RfState → Nat
  | .follower => 0
  | .candidate => 1
  | .leader => 2
  | .dead => 3

/-- The text of `Msg`. -/
def text : RaftInMotion.Message n → String
  | .stateTransition _ _ => "stateTransition"
  | .electionTimerStoppedI _ _ => "electionTimerStoppedI"
  | .electionTimerStoppedII _ _ => "electionTimerStoppedII"
  | .electionTimeout _ _ => "electionTimeout"
  | .recieveVote _ _ _ _ => "recieveVote"
  | .termMismatch _ _ _ => "termMismatch"
  | .voteFailure _ _ _ => "voteFailure"
  | .electionWon _ _ => "electionWon"
  | .electionLost _ _ => "electionLost"

def fields : RaftInMotion.Message n → Fields
  | .stateTransition _ newState => ⟨some (.string newState.string), none, none⟩
  | .electionTimerStoppedI term state | .electionTimerStoppedII term state
  | .electionTimeout term state => ⟨none, some (.number (stateNumber state)), some (.number term)⟩
  | .recieveVote term state _ _ | .termMismatch term state _ | .voteFailure term state _
  | .electionWon term state | .electionLost term state =>
    ⟨none, some (.string state.string), some (.number term)⟩

/-- The object that is read from a log, once it has been written and parsed. -/
def render (log : RaftLog n) : Log Fields where
  message := some (.string (text log.message))
  raftID := some (.number (log.raftID : Nat))
  body := fields log.message

/-- The log of the server is one that its header takes over. -/
def concerns (raftID : Rat) (log : Log Fields) : Bool :=
  log.server = some raftID && (Header.shows log).isSome

/-- The header takes over the states that the logs tell, and no other ones. -/
theorem shows_render (log : RaftLog n) :
    Header.shows (render log) =
      log.message.reached.map fun state => some (.string state.string) := by
  rcases log with ⟨raftID, message⟩
  cases message <;> rfl

theorem server_render (log : RaftLog n) : (render log).server = some ((log.raftID : Nat) : Rat) :=
  rfl

theorem getStateName_string (state : RfState) :
    Header.getStateName (some (.string state.string)) = state.string := by
  cases state <;> decide +kernel

/-! ### Headers and servers -/

/-- The header takes over only logs of its server that show a state. -/
theorem filterMap_shows_own (raftID : Rat) (logs : List (Log Fields)) :
    (LogDispatcher.own raftID logs).filterMap Header.shows =
      (logs.filter (concerns raftID)).filterMap Header.shows := by
  unfold LogDispatcher.own
  rw [List.filterMap_filter, List.filterMap_filter]
  refine congrArg (fun read => logs.filterMap read) (funext fun log => ?_)
  unfold concerns
  cases shown : Header.shows log <;> simp

theorem filterMap_shows_render (s : Fin n) (logs : List (RaftLog n)) :
    (((logs.map render).filter (concerns (s : Nat))).filterMap Header.shows) =
      (toldBy RaftInMotion.Message.reached s logs).map
        fun state => some (Value.string state.string) := by
  rw [← filterMap_shows_own]
  unfold LogDispatcher.own toldBy told
  rw [List.filterMap_filter, List.filterMap_map, List.map_filterMap, List.filterMap_filter]
  refine congrArg (fun read => logs.filterMap read) (funext fun log => ?_)
  simp only [Function.comp, shows_render, server_render, Option.some.injEq, Rat.natCast_inj,
    Fin.val_inj, decide_eq_true_eq]

/-- The provider of a visualizer has taken the steps of all batches. -/
theorem Visualizer.execute_provider {servers : List Rat} {v v' : Visualizer}
    {batches : List (List (Action Fields))}
    (run : execute (Visualizer.step servers) v batches = some v') :
    execute LogsProvider.step v.provider batches.flatten = some v'.provider := by
  induction batches generalizing v with
  | nil =>
    obtain rfl : v = v' := by simpa [execute] using run
    rfl
  | cons batch rest inductionHypothesis =>
    obtain ⟨middle, taken, run⟩ := execute_cons.mp run
    obtain ⟨next, moved, rfl⟩ := Option.map_eq_some_iff.mp taken
    exact execute_append.mpr ⟨next, moved, inductionHypothesis run⟩

/-- Without a gap at the start, what is displayed is a first part of what is written. -/
theorem displayed_first (unmarshal : List UInt8 → Option (Log Fields))
    {actions : List SessionAction} {s : Session}
    (served : execute Session.step Session.new actions = some s)
    (room : along Session.step (fun s action => !s.overflows action) Session.new actions = true)
    {inputs : List (Action Fields)} {p : LogsProvider Fields}
    (shown : execute LogsProvider.step LogsProvider.init inputs = some p)
    (delivered : received inputs <+: s.sent.map (message unmarshal)) :
    p.logs <+: (Session.written actions).filterMap (accept unmarshal) := by
  have contents : p.logs ++ p.logQueueRef = (received inputs).flatMap Payload.accepted :=
    (LogsProvider.replays_of_run shown).contents.trans (accepted_received inputs)
  have sent : p.logs ++ p.logQueueRef <+: s.sent.flatten.filterMap (accept unmarshal) := by
    obtain ⟨after, split⟩ := delivered
    rw [contents, ← accepted_messages, ← split, List.flatMap_append]
    exact List.prefix_append _ _
  have front : s.sent.flatten <+: Session.written actions := by
    have whole : s.stream = Session.written actions := (Session.served_new.streams served).2 room
    rw [← whole, Session.stream, List.append_assoc]
    exact List.prefix_append _ _
  exact (List.prefix_append _ _).trans (sent.trans (front.filterMap _))

/-- The header of a server shows a state that the server was in. The session and the visualizer may
be in any state, while the logger has not overflown and the commits are steady; of the logs that
the header takes over, those of the instance alone have reached the logger. -/
theorem header_shows_state {preload : Option (Preload Command)}
    {actions : List (RaftInMotion.Action n Command)} {x : LoggedCluster n Command}
    (ran : execute LoggedCluster.step (LoggedCluster.start preload) actions = some x)
    (unmarshal : List UInt8 → Option (Log Fields)) {sessionActions : List SessionAction}
    {session : Session} (served : execute Session.step Session.new sessionActions = some session)
    (room : along Session.step (fun s action => !s.overflows action) Session.new sessionActions =
      true)
    {servers : List Rat} {batches : List (List (Action Fields))} {v : Visualizer}
    (shown : execute (Visualizer.step servers) (Visualizer.init servers) batches = some v)
    (steady : along (Visualizer.step servers) Visualizer.steady (Visualizer.init servers) batches =
      true)
    (delivered : received batches.flatten <+: session.sent.map (message unmarshal)) {s : Fin n}
    (member : ((s : Nat) : Rat) ∈ servers)
    (written : ((Session.written sessionActions).filterMap (accept unmarshal)).filter
      (concerns (s : Nat)) <+: (x.logged.map render).filter (concerns (s : Nat))) :
    ∃ y, Visits LoggedCluster.step (LoggedCluster.start preload) actions y ∧
      Header.getStateName (v.header (s : Nat)).currentState = (y.cluster.node s).state.string := by
  have folds := Visualizer.folds_of_run shown steady
  obtain ⟨term, -, header⟩ := folds.headers _ member
  rw [folds.logs] at header
  have displayed := displayed_first unmarshal served room (Visualizer.execute_provider shown)
    delivered
  have states : (LogDispatcher.own (s : Nat) v.provider.logs).filterMap Header.shows <+:
      (toldBy RaftInMotion.Message.reached s x.logged).map
        fun state => some (Value.string state.string) := by
    rw [filterMap_shows_own, ← filterMap_shows_render]
    exact ((displayed.filter _).trans written).filterMap _
  obtain ⟨part, front, same⟩ := List.prefix_map_iff.mp states
  obtain ⟨y, visits, state⟩ := LoggedCluster.visits_told ran front
  refine ⟨y, visits, ?_⟩
  rw [header, Header.foldl_processLog_currentState, same, state, List.getLast?_map]
  rcases part.getLast? with _ | last
  · exact getStateName_string .follower
  · exact getStateName_string last

/-- The two logs of a timeout. -/
def timeoutLogs : List (RaftLog 3) :=
  [⟨Cluster.s₀, .electionTimeout 0 .follower⟩,
    ⟨Cluster.s₀, .stateTransition .follower .candidate⟩]

/-- The logs are numbered. -/
def unmarshalTimeout : List UInt8 → Option (Log Fields)
  | [index] => (timeoutLogs[index.toNat]?).map render
  | _ => none

/-- A browser connects, and both logs are written and sent. -/
def timeoutSent : List SessionAction :=
  [.startRead, .read [54, 54], .log [0], .log [1], .startWrite, .logTick true]

/-- The browser displays them one by one. -/
def timeoutShown : List (List (Action Fields)) :=
  [[.connect true], [.opened 0],
    [.message (.array (.other .null :: timeoutLogs.map fun log => .object (render log)))],
    [.tick 0], [.tick 0]]

theorem header_shows_state_candidate : ∃ (v : Visualizer) (y : LoggedCluster 3 ℕ),
    execute (Visualizer.step [0, 1, 2]) (Visualizer.init [0, 1, 2]) timeoutShown = some v ∧
      Header.getStateName (v.header (Cluster.s₀ : Nat)).currentState = "Candidate" ∧
      Visits LoggedCluster.step (LoggedCluster.start none) (Cluster.timeout Cluster.s₀ 0) y ∧
      (y.cluster.node Cluster.s₀).state.string = "Candidate" := by
  obtain ⟨x, ran, logged⟩ := (Option.any_eq_true _ _).mp (by decide +kernel :
    (execute LoggedCluster.step (LoggedCluster.start none : LoggedCluster 3 ℕ)
      (Cluster.timeout Cluster.s₀ 0)).any (fun x => decide (x.logged = timeoutLogs)) = true)
  obtain ⟨session, served, sent⟩ := (Option.any_eq_true _ _).mp (by decide +kernel :
    (execute Session.step Session.new timeoutSent).any (fun session => decide
      (received timeoutShown.flatten = session.sent.map (message unmarshalTimeout))) = true)
  obtain ⟨v, shown, candidate⟩ := (Option.any_eq_true _ _).mp (by decide +kernel :
    (execute (Visualizer.step [0, 1, 2]) (Visualizer.init [0, 1, 2]) timeoutShown).any (fun v =>
      decide (Header.getStateName (v.header (Cluster.s₀ : Nat)).currentState = "Candidate")) =
        true)
  have written : ((Session.written timeoutSent).filterMap (accept unmarshalTimeout)).filter
      (concerns (Cluster.s₀ : Nat)) <+:
        (x.logged.map render).filter (concerns (Cluster.s₀ : Nat)) := by
    rw [of_decide_eq_true logged]
    decide +kernel
  obtain ⟨y, visits, state⟩ := header_shows_state ran unmarshalTimeout served (by decide +kernel)
    shown (by decide +kernel) (of_decide_eq_true sent ▸ List.prefix_refl _) (by decide +kernel)
    written
  exact ⟨v, y, shown, of_decide_eq_true candidate, visits,
    state.symm.trans (of_decide_eq_true candidate)⟩

end RaftInMotion.Frontend
