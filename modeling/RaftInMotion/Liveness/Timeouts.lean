/-
This file settles when elections are started. A server that has just set its `electionResetEvent`
starts none in the next 150 milliseconds, whatever happens in between, also when it is killed and
created again; and a follower or candidate that has not set it for 300 milliseconds has a timer
that starts one as soon as it wakes up. A timer is only a goroutine with the duration it has drawn,
so the argument follows both through the positions that appear, move up and disappear.
-/

import RaftInMotion.Instance.Drivers
import RaftInMotion.Model.TimedCluster
import RaftInMotion.Model.Turns

namespace RaftInMotion

open Execution

variable {n : Nat} {Command : Type}

/-! ### New timers -/

namespace Raft

variable {rf next : Raft n Command}

/-- Timers are only added. -/
def StartsTimers (rf next : Raft n Command) (count : Nat) : Prop :=
  next.timers = rf.timers ++ List.replicate count none

theorem startsTimers_none (same : next.timers = rf.timers) : StartsTimers rf next 0 := by
  simp [StartsTimers, same]

theorem startsTimers_one (added : next.timers = rf.timers ++ [none]) : StartsTimers rf next 1 :=
  added

theorem StartsTimers.trans {middle : Raft n Command} {count more : Nat}
    (first : StartsTimers rf middle count) (second : StartsTimers middle next more) :
    StartsTimers rf next (count + more) := by
  unfold StartsTimers at first second ⊢
  rw [second, first, List.append_assoc, List.replicate_append_replicate]

theorem startElection_timers (rf : Raft n Command) : StartsTimers rf rf.startElection.1 1 :=
  startsTimers_one rfl

theorem requestVote_timers (args : RequestVoteArgs n) :
    ∃ count, StartsTimers rf (rf.requestVote args).1 count ∧
      (rf.state = .dead ∨ args.term ≤ rf.currentTerm → count = 0) := by
  unfold requestVote
  by_cases dead : rf.state = .dead
  · rw [if_pos dead]
    exact ⟨0, startsTimers_none rfl, fun _ => rfl⟩
  rw [if_neg dead]
  unfold meetTerm
  dsimp only
  by_cases newer : rf.currentTerm < args.term
  · rw [if_pos newer]
    refine ⟨1, ?_, fun past => past.elim (absurd · dead) (by omega)⟩
    split_ifs <;> exact startsTimers_one rfl
  · rw [if_neg newer]
    refine ⟨0, ?_, fun _ => rfl⟩
    split_ifs <;> exact startsTimers_none rfl

theorem heed_timers (rf : Raft n Command) (term : Nat) :
    ∃ count, StartsTimers rf (rf.heed term) count := by
  unfold heed
  split_ifs
  · exact ⟨1, startsTimers_one rfl⟩
  · exact ⟨0, startsTimers_none rfl⟩

theorem store_timers (args : AppendEntriesArgs n Command) (prevLogIndex : Nat) :
    (rf.store args prevLogIndex).timers = rf.timers := by
  unfold store
  dsimp only
  split_ifs <;> rfl

theorem appendEntries_timers {args : AppendEntriesArgs n Command} {reply : AppendEntriesReply}
    (handled : rf.appendEntries args = some (next, reply)) :
    ∃ count, StartsTimers rf next count ∧
      (rf.state = .dead ∨ args.term < rf.currentTerm → count = 0) := by
  obtain ⟨count, heeds⟩ := heed_timers rf args.term
  cases appendEntries_outcome handled with
  | dead gone => exact ⟨0, startsTimers_none rfl, fun _ => rfl⟩
  | stale alive older _ _ same term fails =>
    rcases same with rfl | rfl <;> exact ⟨0, startsTimers_none rfl, fun _ => rfl⟩
  | reject alive reached _ term fails =>
    exact ⟨count, heeds, fun past => past.elim (absurd · alive) (by omega)⟩
  | blank alive reached _ term first empty =>
    exact ⟨count, heeds, fun past => past.elim (absurd · alive) (by omega)⟩
  | accept alive reached _ term prevLogIndex position held found same live =>
    exact ⟨count, (store_timers args prevLogIndex).trans heeds,
      fun past => past.elim (absurd · alive) (by omega)⟩

/-- The last outcome of an election adds a timer when the server does not start to lead. -/
theorem conclude_timers (rf : Raft n Command) (votesReceived : Nat) :
    ∃ count, StartsTimers rf (rf.conclude votesReceived) count := by
  unfold conclude
  split_ifs
  · exact ⟨0, startsTimers_none rfl⟩
  · exact ⟨1, startsTimers_one rfl⟩

theorem countReply_timers (call : VoteCall n) (votesReceived : Nat)
    (outcome : Option RequestVoteReply) :
    ∃ count, StartsTimers rf (rf.countReply call votesReceived outcome).1 count ∧
      (outcome.any (rf.stepsDown call) = false → count = 0) := by
  by_cases stays : outcome.any (rf.stepsDown call) = false
  · rw [countReply_of_stays stays]
    exact ⟨0, startsTimers_none rfl, fun _ => rfl⟩
  · obtain ⟨reply, rfl, down⟩ := (Option.any_eq_true _ _).mp (by simpa using stays)
    rw [countReply_of_stepsDown down]
    exact ⟨1, startsTimers_one rfl, fun same => absurd same stays⟩

theorem receiveVote_timers (call : VoteCall n) (outcome : Option RequestVoteReply) :
    ∃ count, StartsTimers rf (rf.receiveVote call outcome) count ∧
      (outcome.any (rf.stepsDown call) = false → rf.elections = [] → count = 0) := by
  obtain ⟨count, counted, quiet⟩ := rf.countReply_timers call
    (rf.elections.getD call.election ⟨0, 0⟩).votesReceived outcome
  unfold receiveVote
  dsimp only
  split_ifs with last
  · refine ⟨count + _, counted.trans (conclude_timers _ _).choose_spec, fun _ none => ?_⟩
    -- An instance without elections waits for no outcome.
    simp [none] at last
  · exact ⟨count, counted, fun stays _ => quiet stays⟩

theorem receiveAppend_timers {call : AppendCall n} {nextIndexForPeer : Nat}
    {args : AppendEntriesArgs n Command} {reply : AppendEntriesReply}
    (received : rf.receiveAppend call nextIndexForPeer args reply = some next) :
    ∃ count, StartsTimers rf next count ∧ (reply.term ≤ rf.currentTerm → count = 0) := by
  unfold receiveAppend at received
  dsimp only at received
  split_ifs at received with newer leads succeeds moves
  · cases received
    exact ⟨1, startsTimers_one rfl, fun past => by omega⟩
  · unfold notifyCommit at received
    split_ifs at received
    cases received
    exact ⟨0, startsTimers_none rfl, fun _ => rfl⟩
  all_goals
    cases received
    exact ⟨0, startsTimers_none rfl, fun _ => rfl⟩

/-- A timer that has read a term waits on, starts an election or leaves. -/
theorem electionTimer_wakes {position termStarted : Nat} {expired : Bool}
    {calls : List (VoteCall n)} (read : rf.timers[position]? = some (some termStarted))
    (fired : rf.electionTimer position expired = some (next, calls)) :
    ((rf.state = .candidate ∨ rf.state = .follower) ∧ termStarted = rf.currentTerm ∧
      (expired = false ∧ next = rf ∨ expired = true ∧
        next = { rf with timers := rf.timers.eraseIdx position }.startElection.1)) ∨
    ¬ ((rf.state = .candidate ∨ rf.state = .follower) ∧ termStarted = rf.currentTerm) ∧
      next = { rf with timers := rf.timers.eraseIdx position } := by
  unfold electionTimer at fired
  rw [read] at fired
  dsimp only at fired
  split_ifs at fired with stopped outdated expires
  · cases fired
    exact Or.inr ⟨fun runs => not_or.mpr stopped runs.1, rfl⟩
  · cases fired
    exact Or.inr ⟨fun runs => outdated runs.2, rfl⟩
  · cases fired
    exact Or.inl ⟨by tauto, not_not.mp outdated, Or.inr ⟨expires, rfl⟩⟩
  · cases fired
    exact Or.inl ⟨by tauto, not_not.mp outdated, Or.inl ⟨by simpa using expires, rfl⟩⟩

end Raft

open Raft (StartsTimers)

namespace Cluster

variable {c c' : Cluster n Command} {action : Action n Command}

/-- A step that is no timer's only adds timers; where it adds one it resets the event, unless an
election comes to its end. -/
theorem Turn.startsTimers {s : Fin n} {next : Raft n Command} {events : List (Event n Command)}
    (turn : c.Turn action s next events)
    (noTimer : ∀ position expired, action ≠ .timer s position expired)
    (noRestart : c.restartFree action = true) :
    ∃ count, StartsTimers (c.node s) next count ∧
      (c.resets action s = false → (c.node s).elections = [] →
        count = 0 ∧ next.elections = []) := by
  cases turn with
  | timer fired => exact absurd rfl (noTimer _ _)
  | @handleVote i task _ args present request =>
    obtain ⟨count, starts, quiet⟩ := (c.node s).requestVote_timers args
    refine ⟨count, starts, fun keeps none => ⟨quiet ?_, ?_⟩⟩
    · simp only [resets, voteHandled, present, Option.bind_some, request] at keeps
      by_contra above
      obtain ⟨alive, newer⟩ := not_or.mp above
      simp [alive, not_le.mp newer] at keeps
    · rw [Raft.requestVote_elections, none]
  | @handleAppend i task _ args _ reply present request handled =>
    obtain ⟨count, starts, quiet⟩ := Raft.appendEntries_timers handled
    refine ⟨count, starts, fun keeps none => ⟨quiet ?_, ?_⟩⟩
    · simp only [resets, appendHandled, present, Option.bind_some, request] at keeps
      by_contra above
      obtain ⟨alive, reached⟩ := not_or.mp above
      simp [alive, not_lt.mp reached] at keeps
    · rw [Raft.appendEntries_elections handled, none]
  | @receiveVote _ call outcome received =>
    obtain ⟨count, starts, quiet⟩ := (c.node call.candidate).receiveVote_timers call outcome
    refine ⟨count, starts, fun keeps none => ⟨quiet ?_ none, ?_⟩⟩
    · simp only [resets, received] at keeps
      by_contra down
      simp [down] at keeps
    · obtain ⟨count, counted, -⟩ := (c.node call.candidate).receiveVote_elections call outcome
      rw [counted, none, List.set_nil]
  | @receiveAppend i call _ _ reply _ present received =>
    obtain ⟨count, starts, quiet⟩ := Raft.receiveAppend_timers received
    refine ⟨count, starts, fun keeps none => ⟨quiet ?_, ?_⟩⟩
    · simp only [resets, appendAnswered, present] at keeps
      by_contra newer
      simp [not_le.mp newer] at keeps
    · rw [Raft.receiveAppend_elections received, none]
  | submit submitted =>
    rcases Raft.submit_cases submitted with ⟨rfl, -, -⟩ | ⟨rfl, -, -⟩ <;>
      exact ⟨0, Raft.startsTimers_none rfl, fun _ none => ⟨rfl, none⟩⟩
  | leaderLoop turned =>
    refine ⟨0, Raft.startsTimers_none ?_, fun _ none =>
      ⟨rfl, (Raft.leaderLoop_cases turned).2.1.trans none⟩⟩
    unfold Raft.leaderLoop at turned
    split at turned
    · cases turned
    · cases turned
      rfl
    · split_ifs at turned <;> cases turned <;> rfl
  | leaderLoopClosed ended =>
    refine ⟨0, Raft.startsTimers_none ?_, fun _ none =>
      ⟨rfl, (Raft.leaderLoopClosed_cases ended).2.trans none⟩⟩
    unfold Raft.leaderLoopClosed at ended
    split_ifs at ended
    cases ended
    rfl
  | takeReady taken =>
    rcases Raft.takeReady_cases taken with ⟨-, rfl⟩ | ⟨-, -, rfl⟩ <;>
      exact ⟨0, Raft.startsTimers_none rfl, fun _ none => ⟨rfl, none⟩⟩
  | sendReady sent =>
    obtain ⟨rest, -, rfl⟩ := Raft.sendReady_cases sent
    exact ⟨0, Raft.startsTimers_none rfl, fun _ none => ⟨rfl, none⟩⟩
  | kill killed =>
    rcases Raft.kill_cases killed with ⟨-, rfl⟩ | ⟨-, rfl⟩ <;>
      exact ⟨0, Raft.startsTimers_none rfl, fun _ none => ⟨rfl, none⟩⟩
  | restart closed made => cases noRestart
  | _ => exact ⟨0, Raft.startsTimers_none rfl, fun _ none => ⟨rfl, none⟩⟩

/-- Whoever ends a timer starts the next one. -/
theorem Turn.timed {s : Fin n} {next : Raft n Command} {events : List (Event n Command)}
    (turn : c.Turn action s next events) (timed : (c.node s).Timed) : next.Timed := by
  cases turn with
  | timer fired => exact (Raft.electionTimer_handover fired).timed timed
  | handleVote present request => exact (Raft.requestVote_handover _ _).timed timed
  | handleAppend present request handled => exact (Raft.appendEntries_handover handled).timed timed
  | receiveVote received => exact (Raft.receiveVote_handover _ _ _).timed timed
  | receiveAppend present received => exact (Raft.receiveAppend_handover received).timed timed
  | submit submitted => exact (Raft.submit_handover submitted).timed timed
  | leaderLoop turned =>
    unfold Raft.leaderLoop at turned
    split at turned
    · cases turned
    · cases turned
      exact timed
    · split_ifs at turned <;> cases turned <;> exact timed
  | leaderLoopClosed ended =>
    unfold Raft.leaderLoopClosed at ended
    split_ifs at ended
    cases ended
    exact timed
  | takeReady taken =>
    rcases Raft.takeReady_cases taken with ⟨-, rfl⟩ | ⟨-, -, rfl⟩ <;> exact timed
  | sendReady sent =>
    obtain ⟨rest, -, rfl⟩ := Raft.sendReady_cases sent
    exact timed
  | kill killed =>
    rcases Raft.kill_cases killed with ⟨-, rfl⟩ | ⟨-, rfl⟩
    · exact timed
    · rintro (follows | runs) <;> contradiction
  | restart closed made =>
    unfold Raft.make Raft.restoreFromStorage at made
    split_ifs at made
    · split at made <;> cases made
      exact .of_started (by simp)
    · cases made
      exact .of_started (by simp)
  | _ => exact timed

end Cluster

/-! ### Timers and their durations -/

namespace TimedCluster

/-- The timers of a server and what it keeps for them. While no event is set the server has the
timer of `Make` only, which waits. -/
structure OnTime (rf : Raft n Command) (durations : List Nat) (event : Option Nat)
    (waiting : Bool) (now : Nat) : Prop where
  aligned : durations.length = rf.timers.length
  drawn : ∀ (position term duration : Nat), rf.timers[position]? = some (some term) →
    durations[position]? = some duration → 150 ≤ duration ∧ duration < 300
  unset : event = none → waiting = true ∧ rf.timers = [none] ∧ rf.elections = []
  first : waiting = true → rf.timers[0]? = some none
  past : ∀ reset, event = some reset → reset ≤ now

variable {rf next : Raft n Command} {durations : List Nat} {event : Option Nat} {waiting : Bool}
  {now : Nat}

theorem OnTime.later (onTime : OnTime rf durations event waiting now) {later : Nat}
    (passes : now ≤ later) : OnTime rf durations event waiting later :=
  { onTime with past := fun reset set => (onTime.past reset set).trans passes }

/-- The goroutine of `Make` goes on. -/
theorem OnTime.ready (onTime : OnTime rf durations event waiting now) :
    OnTime rf durations (some now) false now where
  aligned := onTime.aligned
  drawn := onTime.drawn
  unset := nofun
  first := nofun
  past _ set := (Option.some.inj set).ge

theorem extend_length {timers : List (Option Nat)} (fits : durations.length ≤ timers.length) :
    (extend durations timers).length = timers.length := by
  simp only [extend, List.length_append, List.length_replicate]
  omega

/-- Timers are added, and the event is set if there was none. -/
theorem OnTime.starts (onTime : OnTime rf durations event waiting now) {count : Nat}
    (resets : Bool) (starts : StartsTimers rf next count)
    (quiet : resets = false → rf.elections = [] → count = 0 ∧ next.elections = []) :
    OnTime next (extend durations next.timers) (if resets then some now else event) waiting
      now := by
  have fits : durations.length ≤ next.timers.length := by
    rw [onTime.aligned, starts, List.length_append]
    omega
  refine ⟨extend_length fits, fun position term duration read drawn => ?_, fun none => ?_,
    fun waits => ?_, fun reset set => ?_⟩
  · have old : position < rf.timers.length := by
      by_contra new
      rw [starts, List.getElem?_append_right (not_lt.mp new), List.getElem?_replicate] at read
      split_ifs at read
      cases read
    rw [starts, List.getElem?_append_left old] at read
    rw [extend, List.getElem?_append_left (onTime.aligned ▸ old)] at drawn
    exact onTime.drawn position term duration read drawn
  · cases resets with
    | true => cases none
    | false =>
      obtain ⟨waits, single, noElections⟩ := onTime.unset none
      obtain ⟨rfl, still⟩ := quiet rfl noElections
      exact ⟨waits, by simpa [StartsTimers, single] using starts, still⟩
  · have head := onTime.first waits
    rw [starts, List.getElem?_append_left (List.getElem?_eq_some_iff.mp head).1, head]
  · cases resets with
    | true => exact (Option.some.inj set).ge
    | false => exact onTime.past reset set

/-- A goroutine draws its duration and reads the term. -/
theorem OnTime.enters (onTime : OnTime rf durations event waiting now) {position draw : Nat}
    (bound : draw < 150) (unread : rf.timers[position]? = some none)
    (free : ¬ (waiting = true ∧ position = 0)) :
    OnTime { rf with timers := rf.timers.set position (some rf.currentTerm) }
      (durations.set position (electionTimeout draw)) event waiting now := by
  refine ⟨by simp [onTime.aligned], fun other term duration read drawn => ?_, fun none => ?_,
    fun waits => ?_, onTime.past⟩
  · rw [List.getElem?_set] at drawn
    dsimp only at read
    rw [List.getElem?_set] at read
    split_ifs at drawn with same within
    · cases drawn
      unfold electionTimeout
      omega
    · rw [if_neg same] at read
      exact onTime.drawn other term duration read drawn
  · -- Before the event is set there is no other goroutine than the one that waits.
    obtain ⟨waits, single, -⟩ := onTime.unset none
    rw [single] at unread
    obtain ⟨within, -⟩ := List.getElem?_eq_some_iff.mp unread
    exact absurd ⟨waits, by simpa using within⟩ free
  · have other : position ≠ 0 := fun first => free ⟨waits, first⟩
    dsimp only
    rw [List.getElem?_set_ne other, onTime.first waits]

/-- A timer that has read a term is not the one that waits, and it leaves. -/
theorem OnTime.leaves (onTime : OnTime rf durations event waiting now) {position term : Nat}
    (read : rf.timers[position]? = some (some term)) :
    OnTime { rf with timers := rf.timers.eraseIdx position } (durations.eraseIdx position) event
      waiting now := by
  have notFirst : waiting = true → position ≠ 0 := by
    rintro waits rfl
    cases (onTime.first waits).symm.trans read
  obtain ⟨within, -⟩ := List.getElem?_eq_some_iff.mp read
  refine ⟨?_, fun other term' duration read' drawn => ?_, fun none => ?_, fun waits => ?_,
    onTime.past⟩
  · dsimp only
    rw [List.length_eraseIdx_of_lt within,
      List.length_eraseIdx_of_lt (by rw [onTime.aligned]; exact within), onTime.aligned]
  · dsimp only at read'
    rw [List.getElem?_eraseIdx] at read' drawn
    split_ifs at read' drawn with before
    · exact onTime.drawn _ term' duration read' drawn
    · exact onTime.drawn _ term' duration read' drawn
  · obtain ⟨waits, single, -⟩ := onTime.unset none
    rw [single, List.length_singleton] at within
    exact absurd (by omega) (notFirst waits)
  · have behind := Nat.pos_of_ne_zero (notFirst waits)
    dsimp only
    rw [List.getElem?_eraseIdx_of_lt behind, onTime.first waits]

/-! ### Steps -/

variable {t t' : TimedCluster n Command} {action : TimedAction n Command}

/-- Every server is on time. -/
def Clocked (t : TimedCluster n Command) : Prop :=
  ∀ s, OnTime (t.cluster.node s) (t.timeoutDurations s) (t.electionResetEvent s) (t.waiting s) t.now

theorem start_clocked (preload : Option (Preload Command)) : (start n preload).Clocked := by
  intro s
  refine ⟨rfl, fun position term duration read _ => ?_, fun _ => ⟨rfl, rfl, rfl⟩, fun _ => rfl,
    nofun⟩
  obtain ⟨within, same⟩ := List.getElem?_eq_some_iff.mp read
  have first : position = 0 := by simpa [start, Cluster.start] using within
  subst first
  cases same

/-- A server whose timer wakes up: how the timer, its duration and the event move together. -/
inductive Wakes (t : TimedCluster n Command) (s : Fin n) (position : Nat) (rf : Raft n Command)
    (durations : List Nat) (event : Option Nat) : Prop
  | waits (pending : t.expired s ((t.timeoutDurations s).getD position 0) = false)
      (same : rf = t.cluster.node s) (kept : durations = t.timeoutDurations s)
      (unset : event = t.electionResetEvent s)
  | starts (runs : (t.cluster.node s).state = .candidate ∨ (t.cluster.node s).state = .follower)
      (reads : (t.cluster.node s).timers[position]? = some (some (t.cluster.node s).currentTerm))
      (expired : t.expired s ((t.timeoutDurations s).getD position 0) = true)
      (moved : rf = { t.cluster.node s with
        timers := (t.cluster.node s).timers.eraseIdx position }.startElection.1)
      (left : durations = extend ((t.timeoutDurations s).eraseIdx position) rf.timers)
      (set : event = some t.now)
  | stops (termStarted : Nat)
      (reads : (t.cluster.node s).timers[position]? = some (some termStarted))
      (stopped : ¬ (((t.cluster.node s).state = .candidate ∨
        (t.cluster.node s).state = .follower) ∧ termStarted = (t.cluster.node s).currentTerm))
      (moved : rf = { t.cluster.node s with
        timers := (t.cluster.node s).timers.eraseIdx position })
      (left : durations = extend ((t.timeoutDurations s).eraseIdx position) rf.timers)
      (unset : event = t.electionResetEvent s)

theorem wake_cases {s : Fin n} {position : Nat} (woken : t.wake s position = some t') :
    t'.now = t.now ∧ t'.waiting = t.waiting ∧
      (∃ expires, expires = t.expired s ((t.timeoutDurations s).getD position 0) ∧
        t.cluster.step (.timer s position expires) = some t'.cluster) ∧
      Wakes t s position (t'.cluster.node s) (t'.timeoutDurations s) (t'.electionResetEvent s) ∧
      ∀ p, p ≠ s → t'.cluster.node p = t.cluster.node p ∧
        t'.timeoutDurations p = t.timeoutDurations p ∧
        t'.electionResetEvent p = t.electionResetEvent p := by
  obtain ⟨expires, isExpired⟩ :
      ∃ expires, expires = t.expired s ((t.timeoutDurations s).getD position 0) := ⟨_, rfl⟩
  unfold wake at woken
  dsimp only at woken
  rw [← isExpired] at woken
  split at woken
  · next termStarted read =>
    obtain ⟨next, taken, rfl⟩ := Option.map_eq_some_iff.mp woken
    obtain ⟨⟨moved, calls⟩, fired, rfl⟩ := Option.map_eq_some_iff.mp taken
    refine ⟨rfl, rfl, ⟨expires, isExpired, taken⟩, ?_, fun p other => ?_⟩
    · dsimp only [Cluster.act]
      rw [Function.update_self]
      rcases Raft.electionTimer_wakes read fired with
        ⟨runs, current, ⟨waits, rfl⟩ | ⟨expired, moves⟩⟩ | ⟨stops, moves⟩
      · refine .waits (isExpired ▸ waits) rfl ?_ ?_
        · rw [if_pos ⟨runs, current, waits⟩]
        · rw [if_neg (by simp [Cluster.startsElection, waits])]
      · refine .starts runs (current ▸ read) (isExpired ▸ expired) moves ?_ ?_
        · rw [if_neg (by simp [expired]), Function.update_self]
        · rw [if_pos (by simpa [Cluster.startsElection, expired, read, current] using runs),
            Function.update_self]
      · refine .stops termStarted read stops moves ?_ ?_
        · rw [if_neg fun goesOn => stops ⟨goesOn.1, goesOn.2.1⟩, Function.update_self]
        · rw [if_neg fun starts => stops ?_]
          simp only [Cluster.startsElection, read, Bool.and_eq_true, decide_eq_true_eq,
            Bool.or_eq_true, Option.some.injEq] at starts
          exact ⟨starts.2, starts.1.2⟩
    · dsimp only [Cluster.act]
      refine ⟨Function.update_of_ne other _ _, ?_, ?_⟩
      · split_ifs
        · rfl
        · exact Function.update_of_ne other _ _
      · split_ifs
        · exact Function.update_of_ne other _ _
        · rfl
  · cases woken

/-- What a step of the cluster that no timer takes leaves of the clock. -/
theorem other_cases {raft : Action n Command} (taken : t.other raft = some t') :
    t.cluster.step raft = some t'.cluster ∧ t'.now = t.now ∧
      (∀ s position expired, raft ≠ .timer s position expired) ∧
      ((∃ s, raft = .restart s ∧
          t'.electionResetEvent = Function.update t.electionResetEvent s none ∧
          t'.waiting = Function.update t.waiting s true ∧
          t'.timeoutDurations = Function.update t.timeoutDurations s [0]) ∨
        t.cluster.restartFree raft = true ∧ t'.waiting = t.waiting ∧
          (∀ s, t'.electionResetEvent s =
            if t.cluster.resets raft s then some t.now else t.electionResetEvent s) ∧
          ∀ s, t'.timeoutDurations s =
            extend (t.timeoutDurations s) (t'.cluster.node s).timers) := by
  unfold other at taken
  split at taken
  · cases taken
  · next s =>
    obtain ⟨next, moved, rfl⟩ := Option.map_eq_some_iff.mp taken
    exact ⟨moved, rfl, nofun, Or.inl ⟨s, rfl, rfl, rfl, rfl⟩⟩
  · next noTimer noRestart =>
    obtain ⟨next, moved, rfl⟩ := Option.map_eq_some_iff.mp taken
    refine ⟨moved, rfl, noTimer, Or.inr ⟨?_, rfl, fun s => rfl, fun s => rfl⟩⟩
    cases raft <;> first | rfl | exact absurd rfl (noRestart _)

theorem Clocked.wake (clocked : t.Clocked) {s : Fin n} {position : Nat}
    (woken : t.wake s position = some t') : t'.Clocked := by
  obtain ⟨now, waiting, -, wakes, others⟩ := wake_cases woken
  intro p
  rw [now, waiting]
  by_cases moved : p = s
  · subst moved
    cases wakes with
    | waits _ same kept unset =>
      rw [same, kept, unset]
      exact clocked p
    | starts runs reads expired moved left set =>
      rw [left, set, moved]
      exact ((clocked p).leaves reads).starts true (Raft.startElection_timers _) nofun
    | stops termStarted reads _ moved left unset =>
      rw [left, unset, moved]
      exact ((clocked p).leaves reads).starts false (Raft.startsTimers_none rfl)
        fun _ still => ⟨rfl, still⟩
  · obtain ⟨node, durations, event⟩ := others p moved
    rw [node, durations, event]
    exact clocked p

/-- A server is created again, with the timer of `Make`. -/
theorem onTime_made {s : Fin n} {storage : Storage n Command}
    (made : Raft.make s storage = some rf) : OnTime rf [0] none true now := by
  have fresh : rf.timers = [none] ∧ rf.elections = [] := by
    unfold Raft.make Raft.restoreFromStorage at made
    split_ifs at made
    · split at made <;> cases made
      exact ⟨rfl, rfl⟩
    · cases made
      exact ⟨rfl, rfl⟩
  refine ⟨by simp [fresh], fun position term duration read _ => ?_, fun _ => ⟨rfl, fresh⟩,
    fun _ => by simp [fresh], nofun⟩
  obtain ⟨within, same⟩ := List.getElem?_eq_some_iff.mp read
  simp [fresh] at same

theorem Clocked.other (clocked : t.Clocked) {raft : Action n Command}
    (taken : t.other raft = some t') : t'.Clocked := by
  obtain ⟨stepped, now, noTimer, rest⟩ := other_cases taken
  obtain ⟨s, next, events, turn, nodes, -⟩ := Cluster.step_turn stepped
  intro p
  rw [now]
  rcases rest with ⟨q, rfl, event, waiting, durations⟩ | ⟨noRestart, waiting, event, durations⟩
  · cases turn with
    | restart closed made =>
      rw [nodes, event, waiting, durations]
      by_cases moved : p = s
      · subst moved
        simp only [Function.update_self]
        exact onTime_made made
      · simp only [Function.update_of_ne moved]
        exact clocked p
    | receiveVote received => cases received
  · rw [waiting, event, durations, nodes]
    by_cases moved : p = s
    · subst moved
      rw [Function.update_self]
      obtain ⟨count, starts, quiet⟩ := turn.startsTimers (fun _ _ => noTimer _ _ _) noRestart
      exact (clocked p).starts _ starts quiet
    · rw [Function.update_of_ne moved]
      exact (clocked p).starts _ (Raft.startsTimers_none rfl) fun _ still => ⟨rfl, still⟩

theorem Clocked.enter (clocked : t.Clocked) {s : Fin n} {position draw : Nat}
    (entered : t.enter s position draw = some t') : t'.Clocked := by
  unfold TimedCluster.enter at entered
  split_ifs at entered with free
  obtain ⟨bound, unread, free⟩ := free
  obtain ⟨next, taken, rfl⟩ := Option.map_eq_some_iff.mp entered
  obtain ⟨⟨moved, calls⟩, fired, rfl⟩ := Option.map_eq_some_iff.mp taken
  intro p
  dsimp only [Cluster.act]
  by_cases same : p = s
  · subst same
    simp only [Function.update_self]
    unfold Raft.electionTimer at fired
    rw [unread] at fired
    cases fired
    exact (clocked p).enters bound unread free
  · simp only [Function.update_of_ne same]
    exact clocked p

theorem Clocked.step (clocked : t.Clocked) (taken : t.step action = some t') : t'.Clocked := by
  cases action with
  | tick milliseconds =>
    cases taken
    exact fun s => (clocked s).later (Nat.le_add_right _ _)
  | ready s =>
    simp only [TimedCluster.step] at taken
    split_ifs at taken
    cases taken
    intro p
    dsimp only
    by_cases same : p = s
    · subst same
      simp only [Function.update_self]
      exact (clocked p).ready
    · simp only [Function.update_of_ne same]
      exact clocked p
  | enter s position draw => exact clocked.enter taken
  | wake s position => exact clocked.wake taken
  | other raft => exact clocked.other taken

/-! ### Elections are paced -/

/-- The step sets `electionResetEvent` of the server. -/
def sets (t : TimedCluster n Command) (action : TimedAction n Command) (s : Fin n) : Bool :=
  match action with
  | .ready server => server = s && t.waiting s
  | .wake server position => t.cluster.startsElection
      (.timer server position (t.expired server ((t.timeoutDurations server).getD position 0))) s
  | .other raft => t.cluster.restartFree raft && t.cluster.resets raft s
  | _ => false

/-- A timer of the server wakes up and starts an election. -/
def startsElection (t : TimedCluster n Command) (action : TimedAction n Command) (s : Fin n) :
    Bool :=
  match action with
  | .wake server position => t.cluster.startsElection
      (.timer server position (t.expired server ((t.timeoutDurations server).getD position 0))) s
  | _ => false

/-- What it takes for an election to start. -/
theorem startsElection_iff {s : Fin n} : t.startsElection action s = true ↔
    ∃ position, action = .wake s position ∧
      t.expired s ((t.timeoutDurations s).getD position 0) = true ∧
      (t.cluster.node s).timers[position]? = some (some (t.cluster.node s).currentTerm) ∧
      ((t.cluster.node s).state = .candidate ∨ (t.cluster.node s).state = .follower) := by
  constructor
  · intro starts
    cases action with
    | wake server position =>
      simp only [startsElection, Cluster.startsElection, Bool.and_eq_true, Bool.or_eq_true,
        decide_eq_true_eq] at starts
      obtain ⟨⟨⟨rfl, expired⟩, reads⟩, runs⟩ := starts
      exact ⟨position, rfl, expired, reads, runs⟩
    | _ => cases starts
  · rintro ⟨position, rfl, expired, reads, runs⟩
    simp only [startsElection, Cluster.startsElection, Bool.and_eq_true, Bool.or_eq_true,
      decide_eq_true_eq]
    exact ⟨⟨⟨trivial, expired⟩, reads⟩, runs⟩

/-- A step of a timed run is a step of the cluster, or the cluster stays as it is. -/
theorem step_cluster (taken : t.step action = some t') :
    t'.cluster = t.cluster ∨ ∃ raft, t.cluster.step raft = some t'.cluster ∧
      (∀ s, t.cluster.startsElection raft s = t.startsElection action s) ∧
      ∀ s, raft = .kill s → action = .other (.kill s) := by
  cases action with
  | tick milliseconds =>
    cases taken
    exact Or.inl rfl
  | ready s =>
    simp only [TimedCluster.step] at taken
    split_ifs at taken
    cases taken
    exact Or.inl rfl
  | enter s position draw =>
    simp only [TimedCluster.step, TimedCluster.enter] at taken
    split_ifs at taken
    obtain ⟨next, moved, rfl⟩ := Option.map_eq_some_iff.mp taken
    exact Or.inr ⟨_, moved, fun p => by simp [Cluster.startsElection, startsElection], nofun⟩
  | wake s position =>
    obtain ⟨-, -, ⟨expires, rfl, moved⟩, -⟩ := wake_cases taken
    exact Or.inr ⟨_, moved, fun p => rfl, nofun⟩
  | other raft =>
    obtain ⟨moved, -, noTimer, -⟩ := other_cases taken
    refine Or.inr ⟨raft, moved, fun p => ?_, fun p kills => kills ▸ rfl⟩
    cases raft with
    | timer => exact absurd rfl (noTimer _ _ _)
    | _ => rfl

/-- An election starts at least 150 milliseconds after the event, which is then set. -/
theorem Clocked.elapsed (clocked : t.Clocked) {s : Fin n}
    (starts : t.startsElection action s = true) :
    ∃ event, t.electionResetEvent s = some event ∧ event + 150 ≤ t.now := by
  obtain ⟨position, rfl, expired, reads, -⟩ := startsElection_iff.mp starts
  have onTime := clocked s
  cases set : t.electionResetEvent s with
  | none =>
    obtain ⟨-, single, -⟩ := onTime.unset set
    obtain ⟨within, same⟩ := List.getElem?_eq_some_iff.mp reads
    simp [single] at same
  | some event =>
    refine ⟨event, rfl, ?_⟩
    obtain ⟨within, -⟩ := List.getElem?_eq_some_iff.mp reads
    have drawn := List.getElem?_eq_getElem (onTime.aligned ▸ within)
    have bound := (onTime.drawn position _ _ reads drawn).1
    simp only [TimedCluster.expired, set, List.getD_eq_getElem?_getD, drawn, Option.getD_some,
      decide_eq_true_eq] at expired
    omega

/-- Since a moment the server has set the event, or it has been created again. -/
def Rested (since : Nat) (s : Fin n) (t : TimedCluster n Command) : Prop :=
  since ≤ t.now ∧ ∀ event, t.electionResetEvent s = some event → since ≤ event

theorem Rested.step {since : Nat} {s : Fin n} (rested : Rested since s t)
    (taken : t.step action = some t') : Rested since s t' := by
  obtain ⟨passed, held⟩ := rested
  cases action with
  | tick milliseconds =>
    cases taken
    exact ⟨passed.trans (Nat.le_add_right _ _), held⟩
  | ready server =>
    simp only [TimedCluster.step] at taken
    split_ifs at taken
    cases taken
    refine ⟨passed, fun event set => ?_⟩
    dsimp only at set
    rw [Function.update_apply] at set
    split_ifs at set
    · exact Option.some.inj set ▸ passed
    · exact held event set
  | enter server position draw =>
    simp only [TimedCluster.step, TimedCluster.enter] at taken
    split_ifs at taken
    obtain ⟨next, -, rfl⟩ := Option.map_eq_some_iff.mp taken
    exact ⟨passed, held⟩
  | wake server position =>
    obtain ⟨now, -, -, wakes, others⟩ := wake_cases taken
    refine ⟨now ▸ passed, fun event set => ?_⟩
    by_cases same : s = server
    · subst same
      cases wakes with
      | waits _ _ _ unset => exact held event (unset ▸ set)
      | starts _ _ _ _ _ isSet => exact Option.some.inj (isSet.symm.trans set) ▸ passed
      | stops _ _ _ _ _ unset => exact held event (unset ▸ set)
    · exact held event ((others s same).2.2 ▸ set)
  | other raft =>
    obtain ⟨-, now, -, rest⟩ := other_cases taken
    refine ⟨now ▸ passed, fun event set => ?_⟩
    rcases rest with ⟨q, -, isEvent, -⟩ | ⟨-, -, isEvent, -⟩
    · rw [isEvent, Function.update_apply] at set
      split_ifs at set
      exact held event set
    · rw [isEvent] at set
      split_ifs at set
      · exact Option.some.inj set ▸ passed
      · exact held event set

/-- A step that sets the event sets it to the present. -/
theorem rested_of_sets {s : Fin n} (sets : t.sets action s = true)
    (taken : t.step action = some t') : Rested t.now s t' := by
  cases action with
  | ready server =>
    simp only [TimedCluster.step] at taken
    split_ifs at taken
    cases taken
    obtain ⟨same, -⟩ := Bool.and_eq_true_iff.mp sets
    refine ⟨le_rfl, fun event set => ?_⟩
    simp only [of_decide_eq_true same, Function.update_self] at set
    exact (Option.some.inj set).le
  | wake server position =>
    obtain ⟨now, -, -, wakes, -⟩ := wake_cases taken
    obtain ⟨position', isWake, expired, reads, runs⟩ :=
      startsElection_iff.mp (show t.startsElection (.wake server position) s = true from sets)
    cases isWake
    refine ⟨now.ge, fun event set => ?_⟩
    cases wakes with
    | waits pending => cases pending.symm.trans expired
    | starts _ _ _ _ _ isSet => exact (Option.some.inj (isSet.symm.trans set)).le
    | stops termStarted read stopped =>
      exact absurd ⟨runs, Option.some.inj (Option.some.inj (read.symm.trans reads))⟩ stopped
  | other raft =>
    obtain ⟨-, now, -, rest⟩ := other_cases taken
    obtain ⟨noRestart, resets⟩ := Bool.and_eq_true_iff.mp sets
    refine ⟨now.ge, fun event set => ?_⟩
    rcases rest with ⟨q, rfl, -⟩ | ⟨-, -, isEvent, -⟩
    · cases noRestart
    · rw [isEvent, if_pos resets] at set
      exact (Option.some.inj set).le
  | _ => cases sets

theorem clocked_run (preload : Option (Preload Command)) {actions : List (TimedAction n Command)}
    (run : execute step (start n preload) actions = some t) : t.Clocked :=
  execute_invariant Clocked (fun _ _ _ clocked _ taken => clocked.step taken)
    (start_clocked preload) along_always run

theorem elections_paced (preload : Option (Preload Command))
    {before between : List (TimedAction n Command)} {action action' : TimedAction n Command}
    {t t₁ t₂ : TimedCluster n Command} {s : Fin n}
    (run : execute step (start n preload) before = some t) (sets : t.sets action s = true)
    (taken : t.step action = some t₁) (later : execute step t₁ between = some t₂)
    (starts : t₂.startsElection action' s = true) : t.now + 150 ≤ t₂.now := by
  have clocked : t₂.Clocked :=
    clocked_run preload (execute_append.mpr ⟨t, run, execute_cons.mpr ⟨t₁, taken, later⟩⟩)
  have rested : Rested t.now s t₂ :=
    execute_invariant (Rested t.now s) (fun _ _ _ rested _ taken => rested.step taken)
      (rested_of_sets sets taken) along_always later
  obtain ⟨event, set, elapsed⟩ := clocked.elapsed starts
  exact (Nat.add_le_add_right (rested.2 event set) 150).trans elapsed

open Cluster (s₀ s₁ s₂)

/-- Three servers start, and the timer of server 0 expires. -/
def firstElection : List (TimedAction 3 ℕ) :=
  [.ready s₀, .ready s₁, .ready s₂, .enter s₀ 0 0, .enter s₁ 0 70, .enter s₂ 0 149, .tick 150,
    .wake s₀ 0]

/-- The new candidate is not answered, and its next timer is up to 150 milliseconds later. -/
def secondElection : List (TimedAction 3 ℕ) :=
  [.enter s₀ 0 0, .tick 150]

theorem elections_paced_twice : ∃ t t₁ t₂ : TimedCluster 3 ℕ,
    execute step (start 3 none) firstElection.dropLast = some t ∧
      t.step (.wake s₀ 0) = some t₁ ∧ execute step t₁ secondElection = some t₂ ∧
      t₂.startsElection (.wake s₀ 0) s₀ = true ∧ t.now + 150 ≤ t₂.now := by
  obtain ⟨t, run, holds⟩ := (Option.any_eq_true _ _).mp (by decide +kernel :
    (execute step (start 3 none) firstElection.dropLast).any (fun t =>
      t.sets (.wake s₀ 0) s₀ && (t.step (.wake s₀ 0)).any fun t₁ =>
        (execute step t₁ secondElection).any fun t₂ =>
          t₂.startsElection (.wake s₀ 0) s₀) = true)
  obtain ⟨sets, later⟩ := Bool.and_eq_true_iff.mp holds
  obtain ⟨t₁, taken, later⟩ := (Option.any_eq_true _ _).mp later
  obtain ⟨t₂, later, starts⟩ := (Option.any_eq_true _ _).mp later
  exact ⟨t, t₁, t₂, run, taken, later, starts, elections_paced none run sets taken later starts⟩

/-! ### Silence starts an election -/

/-- Every server that is no leader and has not been killed has a timer for its term. -/
theorem timed_step {c c' : Cluster n Command} {raft : Action n Command}
    (timed : ∀ s, (c.node s).Timed) (taken : c.step raft = some c') :
    ∀ s, (c'.node s).Timed := by
  obtain ⟨s, next, events, turn, nodes, -⟩ := Cluster.step_turn taken
  exact Cluster.forall_turned (P := fun _ rf => rf.Timed) nodes (turn.timed (timed s))
    fun p _ => timed p

theorem timed_run (preload : Option (Preload Command)) {actions : List (TimedAction n Command)}
    (run : execute step (start n preload) actions = some t) (s : Fin n) :
    (t.cluster.node s).Timed := by
  refine execute_invariant (fun t => ∀ s, (t.cluster.node s).Timed)
    (fun t action t' timed _ taken => ?_) (fun s => .of_started (by simp [start, Cluster.start]))
    along_always run s
  rcases step_cluster taken with same | ⟨raft, stepped, -⟩
  · rw [same]
    exact timed
  · exact timed_step timed stepped

/-- The goroutine enters `runElectionTimer` if it has not done so yet, and wakes up. -/
def wakeUp (t : TimedCluster n Command) (s : Fin n) (position draw : Nat) :
    List (TimedAction n Command) :=
  if (t.cluster.node s).timers[position]? = some none then
    [.enter s position draw, .wake s position]
  else [.wake s position]

/-- A timer of the current term that finds its timeout expired starts an election. -/
theorem wake_fires {s : Fin n} {position : Nat}
    (runs : (t.cluster.node s).state = .follower ∨ (t.cluster.node s).state = .candidate)
    (reads : (t.cluster.node s).timers[position]? = some (some (t.cluster.node s).currentTerm))
    (expires : t.expired s ((t.timeoutDurations s).getD position 0) = true) :
    ∃ t', t.wake s position = some t' ∧ t'.now = t.now ∧ t'.electionResetEvent s = some t.now ∧
      (t'.cluster.node s).state = .candidate ∧
      (t'.cluster.node s).currentTerm = (t.cluster.node s).currentTerm + 1 ∧
      t'.cluster.pool =
        t.cluster.pool ++ (t.cluster.node s).startElection.2.map Task.voteSpawned := by
  have goesOn : ¬ ((t.cluster.node s).state ≠ .candidate ∧ (t.cluster.node s).state ≠ .follower) :=
    fun stopped => runs.elim stopped.2 stopped.1
  have fires : (t.cluster.node s).electionTimer position true =
      some { t.cluster.node s with
        timers := (t.cluster.node s).timers.eraseIdx position }.startElection := by
    simp only [Raft.electionTimer, reads, if_neg goesOn, ne_eq, not_true, if_false, if_true]
  obtain ⟨t', woken⟩ : ∃ t', t.wake s position = some t' := by
    refine Option.isSome_iff_exists.mp ?_
    simp only [wake, reads, expires, Cluster.step, fires, Option.map_some, Option.isSome_some]
  obtain ⟨now, -, ⟨expired, isExpired, stepped⟩, wakes, -⟩ := wake_cases woken
  rw [expires] at isExpired
  subst isExpired
  simp only [Cluster.step, fires, Option.map_some, Option.some.injEq] at stepped
  refine ⟨t', woken, now, ?_⟩
  cases wakes with
  | waits pending => cases pending.symm.trans expires
  | starts _ _ _ moved _ isSet =>
    refine ⟨isSet, ?_, ?_, ?_⟩
    · rw [moved]
      rfl
    · rw [moved]
      rfl
    · rw [← stepped]
      rfl
  | stops termStarted read stopped =>
    exact absurd ⟨runs.symm, Option.some.inj (Option.some.inj (read.symm.trans reads))⟩ stopped

/-- A goroutine that enters has drawn its duration and read the term. -/
theorem enter_draws {s : Fin n} {position draw : Nat} (bound : draw < 150)
    (unread : (t.cluster.node s).timers[position]? = some none) (ready : t.waiting s = false) :
    ∃ t', t.enter s position draw = some t' ∧ t'.now = t.now ∧
      t'.electionResetEvent = t.electionResetEvent ∧ t'.cluster.pool = t.cluster.pool ∧
      t'.cluster.node s = { t.cluster.node s with
        timers := (t.cluster.node s).timers.set position (some (t.cluster.node s).currentTerm) } ∧
      t'.timeoutDurations s = (t.timeoutDurations s).set position (electionTimeout draw) := by
  obtain ⟨next, stepped, pool, node⟩ : ∃ next,
      t.cluster.step (.timer s position false) = some next ∧ next.pool = t.cluster.pool ∧
        next.node s = { t.cluster.node s with
          timers := (t.cluster.node s).timers.set position
            (some (t.cluster.node s).currentTerm) } := by
    rw [Cluster.step, Raft.electionTimer, unread]
    exact ⟨_, rfl, List.append_nil _, Function.update_self ..⟩
  refine ⟨{ t with
    cluster := next
    timeoutDurations := Function.update t.timeoutDurations s
      ((t.timeoutDurations s).set position (electionTimeout draw)) }, ?_, rfl, rfl, pool, node,
    Function.update_self ..⟩
  unfold enter
  rw [if_pos ⟨bound, unread, by simp [ready]⟩, stepped]
  rfl

theorem silence_starts_election (preload : Option (Preload Command))
    {actions : List (TimedAction n Command)} {s : Fin n}
    (run : execute step (start n preload) actions = some t)
    (runs : (t.cluster.node s).state = .follower ∨ (t.cluster.node s).state = .candidate)
    (ready : t.waiting s = false)
    (silent : ∀ event, t.electionResetEvent s = some event → event + 300 ≤ t.now) :
    ∃ position, ∀ draw < 150, ∃ t', execute step t (t.wakeUp s position draw) = some t' ∧
      t'.now = t.now ∧ t'.electionResetEvent s = some t.now ∧
      (t'.cluster.node s).state = .candidate ∧
      (t'.cluster.node s).currentTerm = (t.cluster.node s).currentTerm + 1 ∧
      t'.cluster.pool =
        t.cluster.pool ++ (t.cluster.node s).startElection.2.map Task.voteSpawned := by
  have onTime := clocked_run preload run s
  obtain ⟨event, isSet⟩ : ∃ event, t.electionResetEvent s = some event := by
    cases set : t.electionResetEvent s with
    | none => cases ready.symm.trans (onTime.unset set).1
    | some event => exact ⟨event, rfl⟩
  have passed := silent event isSet
  have expires : ∀ duration, duration < 300 → t.expired s duration = true := by
    intro duration short
    simp only [expired, isSet, decide_eq_true_eq]
    omega
  obtain ⟨timer, member, reads⟩ := timed_run preload run s runs
  obtain ⟨position, within, atPosition⟩ := List.mem_iff_getElem.mp member
  have read : (t.cluster.node s).timers[position]? = some timer := by
    rw [List.getElem?_eq_getElem within, atPosition]
  have drawn := List.getElem?_eq_getElem (onTime.aligned ▸ within)
  refine ⟨position, fun draw bound => ?_⟩
  unfold wakeUp
  rcases reads with rfl | rfl
  · rw [if_pos read]
    obtain ⟨t₁, entered, now, event, pool, node, durations⟩ := enter_draws bound read ready
    obtain ⟨t', woken, holds⟩ := wake_fires (by rw [node]; exact runs)
      (by rw [node]; exact List.getElem?_set_self within) (by
        rw [durations, List.getD_eq_getElem?_getD,
          List.getElem?_set_self (onTime.aligned ▸ within), Option.getD_some, expired, event, now]
        exact expires _ (by unfold electionTimeout; omega))
    rw [node, pool, now] at holds
    exact ⟨t', execute_cons.mpr ⟨t₁, entered, execute_cons.mpr ⟨t', woken, rfl⟩⟩, holds⟩
  · rw [if_neg (by simp [read])]
    obtain ⟨t', woken, holds⟩ := wake_fires runs read (by
      rw [List.getD_eq_getElem?_getD, drawn, Option.getD_some]
      exact expires _ (onTime.drawn position _ _ read drawn).2)
    exact ⟨t', execute_cons.mpr ⟨t', woken, rfl⟩, holds⟩

/-- Server 0 is ready, and hears nothing. -/
def silence : List (TimedAction 3 ℕ) :=
  [.ready s₀, .tick 300]

theorem silence_starts_election_unheard : ∃ t : TimedCluster 3 ℕ,
    execute step (start 3 none) silence = some t ∧ ∃ position, ∀ draw < 150, ∃ t',
      execute step t (t.wakeUp s₀ position draw) = some t' ∧ t'.now = 300 ∧
        (t'.cluster.node s₀).state = .candidate ∧ (t'.cluster.node s₀).currentTerm = 1 := by
  obtain ⟨t, run, holds⟩ := (Option.any_eq_true _ _).mp (by decide +kernel :
    (execute step (start 3 none) silence).any (fun t : TimedCluster 3 ℕ =>
      decide ((t.cluster.node s₀).state = .follower ∧ t.waiting s₀ = false ∧
        t.electionResetEvent s₀ = some 0 ∧ t.now = 300 ∧
        (t.cluster.node s₀).currentTerm = 0)) = true)
  obtain ⟨follows, ready, event, now, term⟩ := of_decide_eq_true holds
  obtain ⟨position, starts⟩ := silence_starts_election none run (Or.inl follows) ready
    (fun _ set => by rw [event] at set; cases set; exact now.ge)
  refine ⟨t, run, position, fun draw bound => ?_⟩
  obtain ⟨t', taken, later, -, runs, newTerm, -⟩ := starts draw bound
  exact ⟨t', taken, later.trans now, runs, by rw [newTerm, term]⟩

end TimedCluster

end RaftInMotion
