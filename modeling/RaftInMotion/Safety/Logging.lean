/-
This file proves what the logs say of the servers. A critical section logs at most one transition,
to the state in which it leaves the server, and one that changes the state logs it; so the last
transition that a server has logged leads to the state it is in, unless the server is created
again. What else a log says of a transition or of an election that is won need not be true: an
election that follows another one names a wrong old state, and a late reply a wrong term.
-/

import RaftInMotion.Model.Logs
import RaftInMotion.Model.TimedCluster

namespace RaftInMotion

open Execution

variable {n : Nat} {Command : Type}

/-! ### What a log tells -/

namespace Message

/-- The old and the new state. -/
def transition : Message n → Option (RfState × RfState)
  | .stateTransition oldState newState => some (oldState, newState)
  | _ => none

/-- The state to which the server has come. -/
def reached : Message n → Option RfState
  | .stateTransition _ newState => some newState
  | .electionWon _ state => some state
  | _ => none

/-- The term of an election that is won. -/
def won : Message n → Option Nat
  | .electionWon term _ => some term
  | _ => none

end Message

section Told

variable {Item : Type} (part : Message n → Option Item)

/-- What a part of the logs tells. -/
def told (logs : List (RaftLog n)) : List Item :=
  logs.filterMap fun log => part log.message

/-- What a part of the logs of a server tells. -/
def toldBy (s : Fin n) (logs : List (RaftLog n)) : List Item :=
  told part (logs.filter fun log => log.raftID = s)

theorem told_append (first second : List (RaftLog n)) :
    told part (first ++ second) = told part first ++ told part second :=
  List.filterMap_append

theorem toldBy_append (s : Fin n) (first second : List (RaftLog n)) :
    toldBy part s (first ++ second) = toldBy part s first ++ toldBy part s second := by
  simp [toldBy, told]

theorem toldBy_self {s : Fin n} {logs : List (RaftLog n)}
    (own : ∀ log ∈ logs, log.raftID = s) : toldBy part s logs = told part logs := by
  unfold toldBy
  rw [List.filter_eq_self.mpr fun log member => decide_eq_true (own log member)]

theorem toldBy_other {s p : Fin n} {logs : List (RaftLog n)}
    (own : ∀ log ∈ logs, log.raftID = s) (other : p ≠ s) : toldBy part p logs = [] := by
  have none_left : (logs.filter fun log => log.raftID = p) = [] := by
    refine List.filter_eq_nil_iff.mpr fun log member => ?_
    rw [own log member, decide_eq_true_eq]
    exact other.symm
  rw [toldBy, none_left]
  rfl

end Told

/-- The state to which a server has come, as far as its logs tell; it begins as a follower. -/
def reachedState (s : Fin n) (logs : List (RaftLog n)) : RfState :=
  (toldBy Message.reached s logs).getLast?.getD .follower

/-- The state in which the last transition ends. -/
def endState (state : RfState) (transitions : List (RfState × RfState)) : RfState :=
  (transitions.getLast?.map Prod.snd).getD state

/-- Every transition begins where the one before it ends. -/
def chained (state : RfState) : List (RfState × RfState) → Bool
  | [] => true
  | (oldState, newState) :: rest => oldState = state && chained newState rest

theorem chained_append_one (state oldState newState : RfState)
    (transitions : List (RfState × RfState)) :
    chained state (transitions ++ [(oldState, newState)]) =
      (chained state transitions && decide (oldState = endState state transitions)) := by
  induction transitions generalizing state with
  | nil => exact (Bool.and_comm _ _).trans (congrArg _ (decide_eq_decide.mpr Iff.rfl))
  | cons first rest inductionHypothesis =>
    have ends : endState state (first :: rest) = endState first.2 rest := by
      unfold endState
      rw [List.getLast?_cons]
      cases rest.getLast? <;> rfl
    rw [List.cons_append, chained, inductionHypothesis, chained, ends, Bool.and_assoc]

/-! ### Critical sections -/

/-- What the logs of a critical section tell of the instance before and after it; `repeats` says
that a candidate begins another election, and `stale` that an earlier election is won. -/
inductive Tells (rf next : Raft n Command) (logs : List (RaftLog n)) (repeats stale : Bool) : Prop
  | quiet (silent : told Message.reached logs = []) (same : next.state = rf.state)
      (stays : next.state = .leader → next.currentTerm = rf.currentTerm)
      (first : repeats = false) (fresh : stale = false)
  | moves (oldState : RfState) (ends : next.state ≠ .leader)
      (moved : told Message.transition logs = [(oldState, next.state)])
      (said : told Message.reached logs = [next.state]) (silent : told Message.won logs = [])
      (begins : oldState = rf.state ↔ repeats = false) (fresh : stale = false)
  | leads (term : Nat) (runs : rf.state = .candidate) (starts : next.state = .leader)
      (moved : told Message.transition logs = [(.candidate, .leader)])
      (said : told Message.reached logs = [.leader, .leader])
      (won : told Message.won logs = [term]) (first : repeats = false)
      (current : some term = some next.currentTerm ↔ stale = false)

/-- Where no state is told, no transition and no election are. -/
theorem told_of_silent {logs : List (RaftLog n)} (silent : told Message.reached logs = []) :
    told Message.transition logs = [] ∧ told Message.won logs = [] := by
  have none_left := List.filterMap_eq_nil_iff.mp silent
  constructor
  · refine List.filterMap_eq_nil_iff.mpr fun log member => ?_
    have nothing := none_left log member
    rcases log with ⟨raftID, message⟩
    cases message <;> first | rfl | cases nothing
  · refine List.filterMap_eq_nil_iff.mpr fun log member => ?_
    have nothing := none_left log member
    rcases log with ⟨raftID, message⟩
    cases message <;> first | rfl | cases nothing

namespace Raft

variable {rf next : Raft n Command}

theorem tells_becomeFollower (follows : next.state = .follower) :
    Tells rf next rf.becomeFollowerLogs false false := by
  refine .moves rf.state (by simp [follows]) ?_ ?_ rfl (iff_of_true rfl rfl) rfl
  · rw [follows]
    rfl
  · rw [follows]
    rfl

/-- A critical section that neither logs a state nor changes it. -/
theorem tells_same {logs : List (RaftLog n)} (silent : told Message.reached logs = [])
    (same : next.state = rf.state) (term : next.currentTerm = rf.currentTerm) :
    Tells rf next logs false false :=
  .quiet silent same (fun _ => term) rfl rfl

theorem tells_of_core {logs : List (RaftLog n)} (silent : told Message.reached logs = [])
    (core : next.core = rf.core) : Tells rf next logs false false :=
  tells_same silent (congrArg Raft.state core : next.core.state = rf.core.state)
    (congrArg Raft.currentTerm core : next.core.currentTerm = rf.core.currentTerm)

theorem electionTimer_tells {position : Nat} {expired : Bool} {calls : List (VoteCall n)}
    (fired : rf.electionTimer position expired = some (next, calls)) :
    Tells rf next (rf.electionTimerLogs position expired)
      (expired && rf.timers[position]? = some (some rf.currentTerm) && rf.state = .candidate)
      false := by
  unfold electionTimer at fired
  unfold electionTimerLogs
  rcases reads : rf.timers[position]? with _ | _ | termStarted
  · simp [reads] at fired
  · rw [reads] at fired
    cases fired
    have first : (expired && decide (some none = some (some rf.currentTerm)) &&
      decide (rf.state = .candidate)) = false := by simp
    rw [first]
    exact tells_same rfl rfl rfl
  · rw [reads] at fired
    dsimp only at fired ⊢
    split_ifs at fired with stopped outdated expires
    · cases fired
      rw [if_pos stopped, decide_eq_false stopped.1, Bool.and_false]
      exact tells_same rfl rfl rfl
    · cases fired
      have other : some (some termStarted) ≠ some (some rf.currentTerm) := by simpa using outdated
      rw [if_neg stopped, if_pos outdated, decide_eq_false other, Bool.and_false, Bool.false_and]
      exact tells_same rfl rfl rfl
    · cases fired
      rw [if_neg stopped, if_neg outdated, if_pos expires]
      refine .moves .follower nofun rfl rfl rfl ?_ rfl
      have current : termStarted = rf.currentTerm := not_not.mp outdated
      rcases eq_or_ne rf.state .candidate with runs | waits
      · simp [runs, expires, current]
      · have follows : rf.state = .follower := not_not.mp fun other => stopped ⟨waits, other⟩
        simp [follows]
    · cases fired
      rw [if_neg stopped, if_neg outdated, if_neg expires, Bool.eq_false_iff.mpr expires]
      exact tells_same rfl rfl rfl

theorem requestVote_tells (args : RequestVoteArgs n) :
    Tells rf (rf.requestVote args).1 (rf.requestVoteLogs args) false false := by
  by_cases dead : rf.state = .dead
  · rw [requestVote_of_dead args dead]
    exact tells_same (by rw [requestVoteLogs, if_pos dead]; rfl) rfl rfl
  · have moved : (rf.requestVote args).1.state = (rf.meetTerm args.term).state ∧
        (rf.requestVote args).1.currentTerm = (rf.meetTerm args.term).currentTerm := by
      rcases requestVote_cases args dead with refused | ⟨-, -, -, granted⟩
      · rw [refused]
        exact ⟨rfl, rfl⟩
      · rw [granted]
        exact ⟨rfl, rfl⟩
    rw [requestVoteLogs, if_neg dead, meetTermLogs]
    unfold meetTerm at moved
    split_ifs with above
    · rw [if_pos above] at moved
      exact tells_becomeFollower moved.1
    · rw [if_neg above] at moved
      exact tells_same rfl moved.1 moved.2

/-- A request of a term that the server has reached makes it a follower of that term. -/
theorem appendEntriesLogs_of_reached {args : AppendEntriesArgs n Command}
    (alive : rf.state ≠ .dead) (reached : rf.currentTerm ≤ args.term) :
    rf.appendEntriesLogs args =
      if rf.currentTerm < args.term ∨ rf.state ≠ .follower then rf.becomeFollowerLogs else [] := by
  unfold appendEntriesLogs meetTermLogs meetTerm
  rw [if_neg alive]
  by_cases above : args.term > rf.currentTerm
  · simp [above, becomeFollower]
  · have current : args.term = rf.currentTerm := by omega
    simp [current]

theorem appendEntries_tells {args : AppendEntriesArgs n Command} {reply : AppendEntriesReply}
    (handled : rf.appendEntries args = some (next, reply)) :
    Tells rf next (rf.appendEntriesLogs args) false false := by
  -- A request that is not stale leaves a follower of its term.
  have heeded : rf.state ≠ .dead → rf.currentTerm ≤ args.term → next.state = .follower →
      next.currentTerm = args.term → Tells rf next (rf.appendEntriesLogs args) false false := by
    intro alive reached follows term
    rw [appendEntriesLogs_of_reached alive reached]
    split_ifs with changes
    · exact tells_becomeFollower follows
    · simp only [not_or, not_lt, not_not] at changes
      exact tells_same rfl (follows.trans changes.2.symm) (by omega)
  cases appendEntries_outcome handled with
  | dead gone => exact tells_same (by rw [appendEntriesLogs, if_pos gone]; rfl) rfl rfl
  | stale alive older _ _ same term fails =>
    have nothing : rf.appendEntriesLogs args = [] := by
      unfold appendEntriesLogs meetTermLogs meetTerm
      rw [if_neg alive, if_neg (by omega), if_neg (by omega)]
      simp only [List.nil_append]
      exact if_neg fun current => by omega
    rw [nothing]
    rcases same with rfl | rfl <;> exact tells_same rfl rfl rfl
  | reject alive reached _ term fails =>
    exact heeded alive reached (heed_state rf args.term) (heed_currentTerm reached)
  | blank alive reached _ term first empty =>
    exact heeded alive reached (heed_state rf args.term) (heed_currentTerm reached)
  | accept alive reached _ term prevLogIndex position held found same live =>
    refine heeded alive reached ?_ ?_
    · exact (store_state args prevLogIndex).trans (heed_state rf args.term)
    · exact (store_currentTerm args prevLogIndex).trans (heed_currentTerm reached)

/-- A reply or an error that does not make the candidate step down tells no state. -/
theorem countReplyLogs_silent {call : VoteCall n} {outcome : Option RequestVoteReply}
    (stays : outcome.any (rf.stepsDown call) = false) :
    told Message.reached (rf.countReplyLogs call outcome) = [] ∧
      told Message.transition (rf.countReplyLogs call outcome) = [] ∧
      told Message.won (rf.countReplyLogs call outcome) = [] := by
  cases outcome with
  | none => exact ⟨rfl, rfl, rfl⟩
  | some reply =>
    have notAbove : ¬ (rf.state = .candidate ∧ reply.term > call.savedCurrentTerm) := by
      simpa [stepsDown] using stays
    rw [countReplyLogs, if_neg notAbove]
    exact ⟨rfl, rfl, rfl⟩

theorem receiveVoteLogs_of_stepsDown {call : VoteCall n} {reply : RequestVoteReply}
    (down : rf.stepsDown call reply = true) :
    rf.receiveVoteLogs call (some reply) = rf.countReplyLogs call (some reply) := by
  simp only [receiveVoteLogs, countReply_of_stepsDown down]
  split_ifs with last
  · have follows : ¬ (rf.becomeFollower reply.term).state = .candidate := nofun
    rw [concludeLogs, if_neg follows, List.append_nil]
  · exact List.append_nil _

/-- Beside what the outcome tells, the last one of an election tells whether it is won. -/
theorem receiveVoteLogs_of_stays {call : VoteCall n} {outcome : Option RequestVoteReply}
    (stays : outcome.any (rf.stepsDown call) = false) : ∃ concluded,
    rf.receiveVoteLogs call outcome = rf.countReplyLogs call outcome ++ concluded ∧
      if rf.wins call outcome then
        concluded = [rf.info (.stateTransition .candidate .leader),
          rf.info (.electionWon call.savedCurrentTerm .leader)]
      else told Message.reached concluded = [] := by
  have winning := wins_iff stays
  unfold votesAfter at winning
  simp only [receiveVoteLogs, countReply_of_stays stays]
  refine ⟨_, rfl, ?_⟩
  by_cases last : (rf.elections.getD call.election ⟨0, 0⟩).repliesNeeded = 1
  · rw [if_pos (by omega : _ - 1 = (0 : Int)), concludeLogs]
    by_cases runs : rf.state = .candidate
    · have count := winning.trans ⟨fun won => won.2.2, fun enough => ⟨runs, last, enough⟩⟩
      have same : (if rf.state = .candidate ∧ votes call outcome = true then 1 else 0) =
          if votes call outcome = true then 1 else 0 := by simp [runs]
      rw [if_pos runs, same]
      by_cases wins : rf.wins call outcome = true
      · rw [if_pos wins, if_pos (count.mp wins)]
        rfl
      · rw [if_neg wins, if_neg fun enough => wins (count.mpr enough)]
        rfl
    · rw [if_neg runs, if_neg fun wins => runs (winning.mp wins).1]
      rfl
  · rw [if_neg (by omega : ¬ _ - 1 = (0 : Int)), if_neg fun wins => last (winning.mp wins).2.1]
    rfl

theorem receiveVote_tells (call : VoteCall n) (outcome : Option RequestVoteReply) :
    Tells rf (rf.receiveVote call outcome) (rf.receiveVoteLogs call outcome) false
      (rf.wins call outcome && call.savedCurrentTerm ≠ rf.currentTerm) := by
  by_cases stays : outcome.any (rf.stepsDown call) = false
  · have core := receiveVote_of_stays stays
    obtain ⟨silent, still, lost⟩ := countReplyLogs_silent stays
    obtain ⟨concluded, logs, concludes⟩ := receiveVoteLogs_of_stays stays
    rw [logs]
    split_ifs at core concludes with wins
    · subst concludes
      have leads : (rf.receiveVote call outcome).state = .leader := congrArg Raft.state core
      have term : (rf.receiveVote call outcome).core.currentTerm =
          rf.startLeader.core.currentTerm := congrArg Raft.currentTerm core
      refine .leads call.savedCurrentTerm ((wins_iff stays).mp wins).1 leads ?_ ?_ ?_ rfl ?_
      · rw [told_append, still]
        rfl
      · rw [told_append, silent]
        rfl
      · rw [told_append, lost]
        rfl
      · simp [wins, show (rf.receiveVote call outcome).currentTerm = rf.currentTerm from term]
    · have ordinary : rf.wins call outcome = false := Bool.eq_false_iff.mpr wins
      rw [ordinary]
      exact tells_of_core (by rw [told_append, silent, concludes]; rfl) core
  · obtain ⟨reply, rfl, down⟩ := (Option.any_eq_true _ _).mp (by simpa using stays)
    have follows : (rf.receiveVote call (some reply)).state = .follower :=
      congrArg Raft.state (receiveVote_of_stepsDown down)
    have above : rf.state = .candidate ∧ reply.term > call.savedCurrentTerm := by
      simpa [stepsDown] using down
    rw [receiveVoteLogs_of_stepsDown down, countReplyLogs, if_pos above]
    refine .moves rf.state (by simp [follows]) ?_ ?_ rfl (iff_of_true rfl rfl) ?_
    · rw [follows]
      rfl
    · rw [follows]
      rfl
    · simp [wins, down]

theorem receiveAppend_tells {call : AppendCall n} {nextIndexForPeer : Nat}
    {args : AppendEntriesArgs n Command} {reply : AppendEntriesReply}
    (received : rf.receiveAppend call nextIndexForPeer args reply = some next) :
    Tells rf next (rf.receiveAppendLogs reply) false false := by
  unfold receiveAppendLogs
  rcases receiveAppend_cases received with ⟨above, rfl⟩ | ⟨below, core, -⟩ |
    ⟨below, -, -, -, _, _, rfl, rfl, -⟩
  · rw [if_pos above]
    exact tells_becomeFollower rfl
  · rw [if_neg (by omega)]
    exact tells_of_core rfl core
  · rw [if_neg (by omega)]
    exact tells_same rfl rfl rfl

theorem kill_tells (killed : rf.kill = some next) : Tells rf next rf.killLogs false false := by
  unfold killLogs
  rcases kill_cases killed with ⟨dead, rfl⟩ | ⟨alive, rfl⟩
  · rw [if_pos dead]
    exact tells_same rfl rfl rfl
  · rw [if_neg alive]
    exact .moves rf.state nofun rfl rfl rfl (iff_of_true rfl rfl) rfl

/-! ### Writers -/

/-- The logs are those of the instance. -/
def Writes (rf : Raft n Command) (logs : List (RaftLog n)) : Prop :=
  ∀ log ∈ logs, log.raftID = rf.id

theorem writes_nil : rf.Writes [] :=
  List.forall_mem_nil _

theorem Writes.append {first second : List (RaftLog n)} (writes : rf.Writes first)
    (writes' : rf.Writes second) : rf.Writes (first ++ second) :=
  fun log member => (List.mem_append.mp member).elim (writes log) (writes' log)

theorem electionTimerLogs_writes (position : Nat) (expired : Bool) :
    rf.Writes (rf.electionTimerLogs position expired) := by
  unfold electionTimerLogs
  split
  · exact writes_nil
  · exact writes_nil
  · split_ifs <;> simp [Writes, info, startElectionLogs]

theorem meetTermLogs_writes (term : Nat) : rf.Writes (rf.meetTermLogs term) := by
  unfold meetTermLogs
  split_ifs <;> simp [Writes, info, becomeFollowerLogs]

theorem requestVoteLogs_writes (args : RequestVoteArgs n) :
    rf.Writes (rf.requestVoteLogs args) := by
  unfold requestVoteLogs
  split_ifs
  · exact writes_nil
  · exact meetTermLogs_writes _

theorem appendEntriesLogs_writes (args : AppendEntriesArgs n Command) :
    rf.Writes (rf.appendEntriesLogs args) := by
  have same : (rf.meetTerm args.term).id = rf.id := by
    unfold meetTerm
    split_ifs <;> rfl
  unfold appendEntriesLogs
  split_ifs
  · exact writes_nil
  · refine (meetTermLogs_writes _).append ?_
    split_ifs <;> simp [Writes, info, becomeFollowerLogs, same]

theorem receiveVoteLogs_writes (call : VoteCall n) (outcome : Option RequestVoteReply) :
    rf.Writes (rf.receiveVoteLogs call outcome) := by
  have counted : rf.Writes (rf.countReplyLogs call outcome) := by
    unfold countReplyLogs
    split
    · split_ifs <;> simp [Writes, info, becomeFollowerLogs]
    · simp [Writes, info]
  by_cases stays : outcome.any (rf.stepsDown call) = false
  · simp only [receiveVoteLogs, countReply_of_stays stays]
    refine counted.append ?_
    unfold concludeLogs
    split_ifs <;> simp [Writes, info, startLeaderLogs]
  · obtain ⟨reply, rfl, down⟩ := (Option.any_eq_true _ _).mp (by simpa using stays)
    rw [receiveVoteLogs_of_stepsDown down]
    exact counted

theorem receiveAppendLogs_writes (reply : AppendEntriesReply) :
    rf.Writes (rf.receiveAppendLogs reply) := by
  unfold receiveAppendLogs
  split_ifs <;> simp [Writes, info, becomeFollowerLogs]

theorem killLogs_writes : rf.Writes rf.killLogs := by
  unfold killLogs
  split_ifs <;> simp [Writes, info]

end Raft

/-! ### Steps -/

namespace Cluster

variable {c c' : Cluster n Command} {action : Action n Command}

/-- A timer expires at a candidate, which begins another election. -/
def repeatsCandidacy (c : Cluster n Command) : Action n Command → Bool
  | .timer server position expired =>
    c.startsElection (.timer server position expired) server &&
      (c.node server).state = .candidate
  | _ => false

/-- A server is created again, and is a follower, while its last log tells another state. -/
def silentRestart (c : Cluster n Command) : Action n Command → Bool
  | .restart server => (c.restart server).isSome && (c.node server).state ≠ .follower
  | _ => false

theorem repeatsCandidacy_timer (c : Cluster n Command) (s : Fin n) (position : Nat)
    (expired : Bool) : c.repeatsCandidacy (.timer s position expired) =
      (expired && (c.node s).timers[position]? = some (some (c.node s).currentTerm) &&
        (c.node s).state = .candidate) := by
  unfold repeatsCandidacy startsElection
  rcases eq_or_ne (c.node s).state .candidate with runs | other
  · simp [runs]
  · simp [other]

theorem logs_of_voteOutcome {call : VoteCall n} {outcome : Option RequestVoteReply}
    (received : c.voteOutcome action = some (call, outcome)) :
    c.logs action = (c.node call.candidate).receiveVoteLogs call outcome ∧
      c.repeatsCandidacy action = false := by
  cases action with
  | finish i =>
    simp only [voteOutcome] at received
    split at received
    · rename_i call' reply present
      cases received
      exact ⟨by simp only [logs, present], rfl⟩
    · cases received
  | fail i =>
    simp only [voteOutcome] at received
    split at received
    · rename_i call' args present
      cases received
      exact ⟨by simp only [logs, present], rfl⟩
    · rename_i call' reply present
      cases received
      exact ⟨by simp only [logs, present], rfl⟩
    · cases received
  | _ => cases received

theorem logs_of_voteRequest {i : Nat} {task : Task n Command} {peer : Fin n}
    {args : RequestVoteArgs n} (present : c.pool[i]? = some task)
    (request : task.voteRequest = some (peer, args)) :
    c.logs (.handle i) = (c.node peer).requestVoteLogs args := by
  cases task <;> cases request <;> simp only [logs, present]

theorem logs_of_appendRequest {i : Nat} {task : Task n Command} {peer : Fin n}
    {args : AppendEntriesArgs n Command} (present : c.pool[i]? = some task)
    (request : task.appendRequest = some (peer, args)) :
    c.logs (.handle i) = (c.node peer).appendEntriesLogs args := by
  cases task <;> cases request <;> simp only [logs, present]

/-- A goroutine that receives no outcome of a vote writes the logs of its turn. -/
theorem Turn.tells {s : Fin n} {next : Raft n Command} {events : List (Event n Command)}
    (turn : c.Turn action s next events) (noRestart : c.restartFree action = true)
    (noVote : c.voteOutcome action = none) :
    Tells (c.node s) next (c.logs action) (c.repeatsCandidacy action) (c.staleVictory action) ∧
      (c.node s).Writes (c.logs action) := by
  have still : Tells (c.node s) (c.node s) [] false false := Raft.tells_same rfl rfl rfl
  have fresh : c.staleVictory action = false := by simp only [staleVictory, noVote]
  rw [fresh]
  cases turn with
  | @timer _ position expired _ _ fired =>
    rw [repeatsCandidacy_timer]
    exact ⟨Raft.electionTimer_tells fired, Raft.electionTimerLogs_writes position expired⟩
  | sendVote present => exact ⟨still, Raft.writes_nil⟩
  | sendAppend present => exact ⟨still, Raft.writes_nil⟩
  | handleVote present request =>
    rw [logs_of_voteRequest present request]
    exact ⟨Raft.requestVote_tells _, Raft.requestVoteLogs_writes _⟩
  | handleAppend present request handled =>
    rw [logs_of_appendRequest present request]
    exact ⟨Raft.appendEntries_tells handled, Raft.appendEntriesLogs_writes _⟩
  | receiveVote received => simp [noVote] at received
  | @receiveAppend i call _ _ reply _ present received =>
    have logs : c.logs (.finish i) = (c.node call.leader).receiveAppendLogs reply := by
      simp only [logs, present]
    rw [logs]
    exact ⟨Raft.receiveAppend_tells received, Raft.receiveAppendLogs_writes _⟩
  | @failAppend i =>
    have nothing : c.logs (.fail i) = [] := by
      simp only [voteOutcome] at noVote
      simp only [logs]
      rcases present : c.pool[i]? with _ | task
      · rfl
      · cases task <;> simp_all
    rw [nothing]
    exact ⟨still, Raft.writes_nil⟩
  | submit submitted =>
    refine ⟨?_, Raft.writes_nil⟩
    rcases Raft.submit_cases submitted with ⟨rfl, -, -⟩ | ⟨rfl, -, -⟩ <;>
      exact Raft.tells_same rfl rfl rfl
  | leaderLoop turned =>
    exact ⟨Raft.tells_of_core rfl (Raft.leaderLoop_cases turned).1, Raft.writes_nil⟩
  | leaderLoopClosed ended =>
    exact ⟨Raft.tells_of_core rfl (Raft.leaderLoopClosed_cases ended).1, Raft.writes_nil⟩
  | takeReady taken =>
    refine ⟨?_, Raft.writes_nil⟩
    rcases Raft.takeReady_cases taken with ⟨-, rfl⟩ | ⟨-, -, rfl⟩ <;>
      exact Raft.tells_same rfl rfl rfl
  | sendReady sent =>
    obtain ⟨rest, -, rfl⟩ := Raft.sendReady_cases sent
    exact ⟨Raft.tells_same rfl rfl rfl, Raft.writes_nil⟩
  | kill killed => exact ⟨Raft.kill_tells killed, Raft.killLogs_writes⟩
  | restart closed made => cases noRestart

theorem step_receives {call : VoteCall n} {outcome : Option RequestVoteReply}
    (received : c.voteOutcome action = some (call, outcome)) (taken : c.step action = some c') :
    c'.node = Function.update c.node call.candidate
      ((c.node call.candidate).receiveVote call outcome) := by
  cases action with
  | finish i =>
    simp only [voteOutcome] at received
    split at received
    · rename_i call' reply present
      cases received
      simp only [step, finish, present] at taken
      cases taken
      rfl
    · cases received
  | fail i =>
    simp only [voteOutcome] at received
    split at received
    · rename_i call' args present
      cases received
      simp only [step, fail, present] at taken
      cases taken
      rfl
    · rename_i call' reply present
      cases received
      simp only [step, fail, present] at taken
      cases taken
      rfl
    · cases received
  | _ => cases received

/-- A step other than the creation of a server writes the logs of the server that moves. -/
theorem step_tells (taken : c.step action = some c') (noRestart : c.restartFree action = true) :
    ∃ s next, c'.node = Function.update c.node s next ∧
      Tells (c.node s) next (c.logs action) (c.repeatsCandidacy action)
        (c.staleVictory action) ∧ (c.node s).Writes (c.logs action) := by
  rcases received : c.voteOutcome action with _ | ⟨call, outcome⟩
  · obtain ⟨s, next, events, turn, nodes, -⟩ := step_turn taken
    exact ⟨s, next, nodes, turn.tells noRestart received⟩
  · obtain ⟨logs, first⟩ := logs_of_voteOutcome received
    have stale : c.staleVictory action = ((c.node call.candidate).wins call outcome &&
        call.savedCurrentTerm ≠ (c.node call.candidate).currentTerm) := by
      simp only [staleVictory, received]
    rw [logs, first, stale]
    exact ⟨call.candidate, _, step_receives received taken, Raft.receiveVote_tells _ _,
      Raft.receiveVoteLogs_writes _ _⟩

theorem step_named (named : ∀ s, (c.node s).id = s) (taken : c.step action = some c') (s : Fin n) :
    (c'.node s).id = s := by
  obtain ⟨p, next, events, turn, nodes, -⟩ := step_turn taken
  exact forall_turned (P := fun q rf => rf.id = q) nodes (turn.named (named p))
    (fun q _ => named q) s

end Cluster

namespace LoggedCluster

variable {x x' : LoggedCluster n Command} {action : Action n Command}

/-- An instance has the id of its place. -/
def Named (x : LoggedCluster n Command) : Prop :=
  ∀ s, (x.cluster.node s).id = s

theorem Named.step (named : x.Named) (taken : x.step action = some x') : x'.Named :=
  Cluster.step_named named (step_eq.mp taken).1

/-- What a step logs: nothing, when it creates a server; otherwise what the logs of the one server
that moves tell of it. -/
inductive Logs (x : LoggedCluster n Command) (action : Action n Command)
    (x' : LoggedCluster n Command) : Prop
  | restart (s : Fin n) (next : Raft n Command) (restarts : action = .restart s)
      (created : (x.cluster.restart s).isSome = true) (follows : next.state = .follower)
      (nodes : x'.cluster.node = Function.update x.cluster.node s next)
      (logged : x'.logged = x.logged)
  | tells (s : Fin n) (next : Raft n Command) (noRestart : x.cluster.restartFree action = true)
      (nodes : x'.cluster.node = Function.update x.cluster.node s next)
      (tells : Tells (x.cluster.node s) next (x.cluster.logs action)
        (x.cluster.repeatsCandidacy action) (x.cluster.staleVictory action))
      (mine : ∀ {Item : Type} (part : Message n → Option Item),
        toldBy part s x'.logged = toldBy part s x.logged ++ told part (x.cluster.logs action))
      (others : ∀ {Item : Type} (part : Message n → Option Item), ∀ p, p ≠ s →
        toldBy part p x'.logged = toldBy part p x.logged)

theorem step_logs (named : x.Named) (taken : x.step action = some x') : x.Logs action x' := by
  obtain ⟨moved, logged⟩ := step_eq.mp taken
  by_cases noRestart : x.cluster.restartFree action = true
  · obtain ⟨s, next, nodes, tells, writes⟩ := Cluster.step_tells moved noRestart
    have own : ∀ log ∈ x.cluster.logs action, log.raftID = s := fun log member =>
      (writes log member).trans (named s)
    refine .tells s next noRestart nodes tells (fun part => ?_) fun part p other => ?_
    · rw [logged, toldBy_append, toldBy_self part own]
    · rw [logged, toldBy_append, toldBy_other part own other, List.append_nil]
  · cases action with
    | restart s =>
      have created : (x.cluster.restart s).isSome = true := Option.isSome_of_eq_some moved
      simp only [Cluster.step, Cluster.restart] at moved
      split_ifs at moved with closed
      obtain ⟨next, made, moved⟩ := Option.map_eq_some_iff.mp moved
      exact .restart s next rfl created (Raft.make_cases made).2.1 (by rw [← moved]; rfl)
        (logged.trans (List.append_nil _))
    | _ => exact absurd rfl noRestart

/-! ### States -/

/-- The last log of the server that tells a state tells its own. -/
def TellsState (x : LoggedCluster n Command) (s : Fin n) : Prop :=
  reachedState s x.logged = (x.cluster.node s).state

/-- A server that does not move keeps its state and its logs. -/
theorem Logs.tellsState (logs : x.Logs action x') (before : ∀ s, x.TellsState s) :
    (∀ s, x'.TellsState s) ↔ x.cluster.silentRestart action = false := by
  cases logs with
  | restart s next restarts created follows nodes logged =>
    subst restarts
    have others : ∀ p, p ≠ s → x'.TellsState p := by
      intro p other
      unfold TellsState
      rw [logged, nodes, Function.update_of_ne other]
      exact before p
    have here : x'.TellsState s ↔ (x.cluster.node s).state = .follower := by
      unfold TellsState
      rw [logged, nodes, Function.update_self, before s, follows]
    have silent : x.cluster.silentRestart (.restart s) = false ↔
        (x.cluster.node s).state = .follower := by
      simp [Cluster.silentRestart, created]
    rw [silent, ← here]
    refine ⟨fun each => each s, fun mine p => ?_⟩
    rcases eq_or_ne p s with rfl | other
    · exact mine
    · exact others p other
  | tells s next noRestart nodes tells mine others =>
    have quiet : x.cluster.silentRestart action = false := by
      cases action <;> first | rfl | cases noRestart
    refine iff_of_true (fun p => ?_) quiet
    unfold TellsState reachedState
    rcases eq_or_ne p s with rfl | other
    · rw [mine, nodes, Function.update_self]
      cases tells with
      | quiet silent same stays first fresh =>
        rw [silent, List.append_nil, same]
        exact before p
      | moves oldState ends moved said silent begins fresh => simp [said]
      | leads term runs starts moved said won first current => simp [said, starts]
    · rw [others _ p other, nodes, Function.update_of_ne other]
      exact before p

theorem start_named (preload : Option (Preload Command)) :
    (start preload : LoggedCluster n Command).Named :=
  fun _ => rfl

/-- What the logs told at some time was so at some time. -/
theorem visits_told {preload : Option (Preload Command)} {actions : List (Action n Command)}
    {x : LoggedCluster n Command} (run : execute step (start preload) actions = some x) {s : Fin n}
    {part : List RfState} (front : part <+: toldBy Message.reached s x.logged) :
    ∃ y, Visits step (start preload) actions y ∧
      (y.cluster.node s).state = part.getLast?.getD .follower := by
  induction actions using List.reverseRecOn generalizing x part with
  | nil =>
    obtain rfl : start preload = x := by simpa [execute] using run
    obtain rfl : part = [] := List.prefix_nil.mp front
    exact ⟨start preload, visits_start, rfl⟩
  | append_singleton actions action inductionHypothesis =>
    obtain ⟨middle, before, last⟩ := execute_append.mp run
    obtain ⟨_, taken, reached⟩ := execute_cons.mp last
    obtain rfl : _ = x := by simpa [execute] using reached
    have earlier : ∀ {part}, part <+: toldBy Message.reached s middle.logged →
        ∃ y, Visits step (start preload) (actions ++ [action]) y ∧
          (y.cluster.node s).state = part.getLast?.getD .follower := by
      intro part front
      obtain ⟨y, ⟨first, rest, split, run⟩, state⟩ := inductionHypothesis before front
      exact ⟨y, ⟨first, rest ++ [action], by rw [split, List.append_assoc], run⟩, state⟩
    have named : middle.Named := visits_always Named (fun _ _ _ named taken => named.step taken)
      (start_named preload) (visits_end before)
    cases step_logs named taken with
    | restart p next restarts created follows nodes logged => exact earlier (logged ▸ front)
    | tells p next noRestart nodes tells mine others =>
      rcases eq_or_ne s p with rfl | other
      · rw [mine] at front
        rcases List.prefix_or_prefix_of_prefix front (List.prefix_append _ _) with old | longer
        · exact earlier old
        · obtain ⟨new, rfl⟩ := longer
          have newFront := (List.prefix_append_right_inj _).mp front
          rcases List.eq_nil_or_concat new with rfl | ⟨_, state, rfl⟩
          · exact earlier (by rw [List.append_nil])
          · -- Every state that the step has told is the one it leads to.
            have told : ∀ told ∈ RaftInMotion.told Message.reached (middle.cluster.logs action),
                told = next.state := by
              cases tells with
              | quiet silent same stays first fresh => simp [silent]
              | moves oldState ends moved said silent begins fresh => simp [said]
              | leads term runs starts moved said won first current => simp [said, starts]
            have here := told state (newFront.subset (by simp))
            refine ⟨_, visits_end run, ?_⟩
            rw [nodes, Function.update_self]
            simp [here]
      · exact earlier (others _ s other ▸ front)

/-! ### Terms -/

/-- Every transition of the server begins where the one before it ends. -/
def TellsChain (x : LoggedCluster n Command) (s : Fin n) : Prop :=
  chained .follower (toldBy Message.transition s x.logged) = true

/-- The last transition of a server ends in its state. -/
def EndsInState (x : LoggedCluster n Command) (s : Fin n) : Prop :=
  endState .follower (toldBy Message.transition s x.logged) = (x.cluster.node s).state

theorem Logs.endsInState (logs : x.Logs action x') (before : ∀ s, x.EndsInState s)
    (given : x.cluster.silentRestart action = false) (s : Fin n) : x'.EndsInState s := by
  unfold EndsInState
  cases logs with
  | restart p next restarts created follows nodes logged =>
    subst restarts
    have followed : (x.cluster.node p).state = .follower := by
      simpa [Cluster.silentRestart, created] using given
    rw [logged, before s, nodes]
    rcases eq_or_ne s p with rfl | other
    · rw [Function.update_self, follows, followed]
    · rw [Function.update_of_ne other]
  | tells p next noRestart nodes tells mine others =>
    rcases eq_or_ne s p with rfl | other
    · rw [mine, nodes, Function.update_self]
      cases tells with
      | quiet silent same stays first fresh =>
        rw [(told_of_silent silent).1, List.append_nil, same]
        exact before s
      | moves oldState ends moved said silent begins fresh => simp [endState, moved]
      | leads term runs starts moved said won first current => simp [endState, moved, starts]
    · rw [others _ s other, nodes, Function.update_of_ne other]
      exact before s

theorem Logs.tellsChain (logs : x.Logs action x') (ends : ∀ s, x.EndsInState s)
    (before : ∀ s, x.TellsChain s) :
    (∀ s, x'.TellsChain s) ↔ x.cluster.repeatsCandidacy action = false := by
  unfold TellsChain
  cases logs with
  | restart s next restarts created follows nodes logged =>
    subst restarts
    exact iff_of_true (fun p => logged ▸ before p) rfl
  | tells s next noRestart nodes tells mine others =>
    have whole : (∀ p, chained .follower (toldBy Message.transition p x'.logged) = true) ↔
        chained .follower (toldBy Message.transition s x'.logged) = true := by
      refine ⟨fun each => each s, fun here p => ?_⟩
      rcases eq_or_ne p s with rfl | other
      · exact here
      · rw [others _ p other]
        exact before p
    rw [whole, mine]
    cases tells with
    | quiet silent same stays first fresh =>
      rw [(told_of_silent silent).1, List.append_nil]
      exact iff_of_true (before s) first
    | moves oldState ends' moved said silent begins fresh =>
      rw [moved, chained_append_one, before s, ends s, Bool.true_and, decide_eq_true_eq]
      exact begins
    | leads term runs starts moved said won first current =>
      rw [moved, chained_append_one, before s, ends s, runs]
      exact iff_of_true rfl first

/-- While no log is out of date by the creation of a server, the transitions of every server make a
chain exactly when no candidate begins another election. -/
theorem transitions_chained (preload : Option (Preload Command))
    (actions : List (Action n Command))
    (told : along Cluster.step (fun c action => !c.silentRestart action) (Cluster.start n preload)
      actions = true) :
    (∀ x, Visits step (start preload) actions x →
      ∀ s, chained .follower (toldBy Message.transition s x.logged) = true) ↔
      along Cluster.step (fun c action => !c.repeatsCandidacy action) (Cluster.start n preload)
        actions = true := by
  rw [show Cluster.start n preload = (start preload).cluster from rfl,
    ← along_projected step_cluster] at told ⊢
  refine visits_iff_along_of_given (fun x => x.Named ∧ ∀ s, x.EndsInState s)
    (fun x => ∀ s, x.TellsChain s) (fun x action disabled => ?_)
    (fun x action x' held before given taken => ?_) ⟨start_named preload, fun _ => rfl⟩
    (fun _ => rfl) told
  · cases action with
    | timer s position expired =>
      have absent := step_cluster x (.timer s position expired)
      rw [disabled] at absent
      have idle : (x.cluster.node s).electionTimer position expired = none :=
        Option.map_eq_none_iff.mp absent.symm
      rw [Cluster.repeatsCandidacy_timer]
      rcases reads : (x.cluster.node s).timers[position]? with _ | timer
      · simp
      · have fired : ((x.cluster.node s).electionTimer position expired).isSome = true := by
          unfold Raft.electionTimer
          rw [reads]
          cases timer with
          | none => rfl
          | some term =>
            dsimp only
            split_ifs <;> rfl
        simp [idle] at fired
    | _ => rfl
  · have logs := step_logs held.1 taken
    refine ⟨fun _ => ⟨held.1.step taken, fun s => ?_⟩, ?_⟩
    · exact logs.endsInState held.2 ((Bool.not_eq_true' _).mp given) s
    · rw [logs.tellsChain held.2 before, Bool.not_eq_true']

/-- One server becomes a candidate and then the leader. -/
theorem transitions_chained_elected : ∃ x, execute step (start none) Cluster.election = some x ∧
    toldBy Message.transition Cluster.s₀ x.logged =
      [(.follower, .candidate), (.candidate, .leader)] ∧
    chained .follower (toldBy Message.transition Cluster.s₀ x.logged) = true := by
  obtain ⟨x, run, moved⟩ := (Option.any_eq_true _ _).mp (by decide +kernel :
    (execute step (start none) Cluster.election).any (fun x => decide
      (toldBy Message.transition Cluster.s₀ x.logged =
        [(.follower, .candidate), (.candidate, .leader)])) = true)
  exact ⟨x, run, of_decide_eq_true moved,
    (transitions_chained none Cluster.election (by decide +kernel)).mpr (by decide +kernel) x
      (visits_end run) Cluster.s₀⟩

end LoggedCluster

end RaftInMotion
