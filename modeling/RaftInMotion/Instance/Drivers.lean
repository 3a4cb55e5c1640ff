/-
This file settles that a server is never left without a driver. Whoever makes it a follower or a
candidate, or moves its term, starts an election timer, and a timer that ends has read a term that
has passed; whoever makes it lead starts a goroutine, and such a goroutine ends only when it sees
another role. Timers and goroutines of earlier terms may still be there.
-/

import Mathlib.Data.List.InsertIdx
import RaftInMotion.Instance.Moves

namespace RaftInMotion

open Execution

variable {n : Nat} {Command : Type}

namespace Raft

variable {rf next other : Raft n Command}

/-! ### Critical sections -/

/-- A follower or candidate has an election timer that has still to read its term, or has read the
current one. -/
def Timed (rf : Raft n Command) : Prop :=
  rf.state = .follower ∨ rf.state = .candidate →
    ∃ timer ∈ rf.timers, timer = none ∨ timer = some rf.currentTerm

theorem Timed.of_started (started : none ∈ rf.timers) : rf.Timed :=
  fun _ => ⟨none, started, Or.inl rfl⟩

/-- What a critical section may do to the drivers of an instance: a follower or candidate keeps a
timer, goroutines of `startLeader` are only added, and one is added when the role is taken. -/
structure Handover (rf next : Raft n Command) : Prop where
  timed : rf.Timed → next.Timed
  loops : ∃ count, next.leaderLoops = rf.leaderLoops ++ List.replicate count .sending
  leads : next.state = .leader → rf.state = .leader ∨ next.leaderLoops ≠ []

theorem handover_of_same (state : next.state = rf.state)
    (currentTerm : next.currentTerm = rf.currentTerm) (timers : next.timers = rf.timers)
    (leaderLoops : next.leaderLoops = rf.leaderLoops) : Handover rf next := by
  refine ⟨fun timed => ?_, ⟨0, by simp [leaderLoops]⟩, fun leads => Or.inl (state.symm.trans leads)⟩
  unfold Timed at timed ⊢
  rwa [state, currentTerm, timers]

theorem Handover.refl (rf : Raft n Command) : Handover rf rf :=
  handover_of_same rfl rfl rfl rfl

theorem Handover.trans (left : Handover rf next) (right : Handover next other) :
    Handover rf other := by
  obtain ⟨count, loops⟩ := left.loops
  obtain ⟨count', loops'⟩ := right.loops
  refine ⟨right.timed ∘ left.timed, ⟨count + count', ?_⟩, fun leads => ?_⟩
  · rw [loops', loops, List.append_assoc, List.replicate_append_replicate]
  · rcases right.leads leads with before | new
    · refine (left.leads before).imp_right fun new => ?_
      rw [loops']
      exact List.append_ne_nil_of_left_ne_nil new _
    · exact Or.inr new

/-- A timer is started, and the instance does not lead. -/
theorem handover_of_started (started : none ∈ next.timers)
    (leaderLoops : next.leaderLoops = rf.leaderLoops)
    (leads : next.state = .leader → rf.state = .leader) : Handover rf next :=
  ⟨fun _ => .of_started started, ⟨0, by simp [leaderLoops]⟩, fun now => Or.inl (leads now)⟩

theorem becomeFollower_handover (rf : Raft n Command) (term : Nat) :
    Handover rf (rf.becomeFollower term) :=
  handover_of_started (by simp) rfl (by rintro ⟨⟩)

theorem meetTerm_handover (rf : Raft n Command) (term : Nat) : Handover rf (rf.meetTerm term) := by
  unfold meetTerm
  split_ifs
  · exact becomeFollower_handover rf term
  · exact Handover.refl rf

theorem startLeader_handover (rf : Raft n Command) : Handover rf rf.startLeader :=
  ⟨fun _ => by rintro (follows | runs) <;> contradiction, ⟨1, rfl⟩,
    fun _ => Or.inr (by simp)⟩

/-- A timer ends when the term it has read has passed, so it is not the one that counts. -/
theorem electionTimer_handover {position : Nat} {expired : Bool} {calls : List (VoteCall n)}
    (fired : rf.electionTimer position expired = some (next, calls)) : Handover rf next := by
  unfold electionTimer at fired
  split at fired
  · cases fired
  · next reads =>
    cases fired
    refine ⟨fun _ _ => ⟨some rf.currentTerm, ?_, Or.inr rfl⟩, ⟨0, by simp⟩, Or.inl⟩
    obtain ⟨within, -⟩ := List.getElem?_eq_some_iff.mp reads
    exact List.mem_set within _
  · next termStarted read =>
    split_ifs at fired with role outdated
    · cases fired
      exact ⟨fun _ runs => absurd runs (by tauto), ⟨0, by simp⟩, Or.inl⟩
    · cases fired
      refine ⟨fun timed runs => ?_, ⟨0, by simp⟩, Or.inl⟩
      obtain ⟨timer, member, current⟩ := timed runs
      refine ⟨timer, ?_, current⟩
      obtain ⟨i, found⟩ := List.mem_iff_getElem?.mp member
      refine List.mem_eraseIdx_iff_getElem?.mpr ⟨i, ?_, found⟩
      rintro rfl
      obtain rfl := Option.some_inj.mp (read.symm.trans found)
      simp [outdated] at current
    · cases fired
      exact handover_of_started (List.mem_append_right _ (List.mem_singleton_self _)) rfl
        (by rintro ⟨⟩)
    · cases fired
      exact Handover.refl rf

theorem requestVote_handover (rf : Raft n Command) (args : RequestVoteArgs n) :
    Handover rf (rf.requestVote args).1 := by
  unfold requestVote
  dsimp only
  split_ifs
  · exact Handover.refl rf
  · exact (meetTerm_handover rf args.term).trans (handover_of_same rfl rfl rfl rfl)
  · exact (meetTerm_handover rf args.term).trans (handover_of_same rfl rfl rfl rfl)

theorem countReply_handover (rf : Raft n Command) (call : VoteCall n) (votesReceived : Nat)
    (outcome : Option RequestVoteReply) :
    Handover rf (rf.countReply call votesReceived outcome).1 := by
  cases outcome with
  | none => exact Handover.refl rf
  | some reply =>
    dsimp only [countReply]
    split_ifs
    · exact Handover.refl rf
    · exact becomeFollower_handover rf reply.term
    · exact Handover.refl rf
    · exact Handover.refl rf

theorem conclude_handover (rf : Raft n Command) (votesReceived : Nat) :
    Handover rf (rf.conclude votesReceived) := by
  unfold conclude
  split_ifs
  · exact startLeader_handover rf
  · exact handover_of_started (List.mem_append_right _ (List.mem_singleton_self _)) rfl
      fun leads => leads

theorem receiveVote_handover (rf : Raft n Command) (call : VoteCall n)
    (outcome : Option RequestVoteReply) : Handover rf (rf.receiveVote call outcome) := by
  have counted := countReply_handover rf call
    (rf.elections.getD call.election ⟨0, 0⟩).votesReceived outcome
  unfold receiveVote
  dsimp only
  split_ifs
  · refine counted.trans (Handover.trans ?_ (conclude_handover _ _))
    exact handover_of_same rfl rfl rfl rfl
  · exact counted.trans (handover_of_same rfl rfl rfl rfl)

theorem appendEntries_handover {args : AppendEntriesArgs n Command} {reply : AppendEntriesReply}
    (handled : rf.appendEntries args = some (next, reply)) : Handover rf next := by
  have heeds : Handover rf (rf.heed args.term) := by
    unfold heed
    split_ifs
    · exact becomeFollower_handover rf args.term
    · exact Handover.refl rf
  cases appendEntries_outcome handled with
  | dead gone => exact Handover.refl rf
  | stale alive older _ _ same term fails =>
    rcases same with rfl | rfl <;> exact handover_of_same rfl rfl rfl rfl
  | reject alive reached _ term fails => exact heeds.trans (handover_of_same rfl rfl rfl rfl)
  | blank alive reached _ term first empty =>
    exact heeds.trans (handover_of_same rfl rfl rfl rfl)
  | accept alive reached _ term prevLogIndex position held found same live =>
    refine heeds.trans ?_
    unfold store
    dsimp only
    split_ifs <;> exact handover_of_same rfl rfl rfl rfl

theorem receiveAppend_handover {call : AppendCall n} {nextIndexForPeer : Nat}
    {args : AppendEntriesArgs n Command} {reply : AppendEntriesReply}
    (received : rf.receiveAppend call nextIndexForPeer args reply = some next) :
    Handover rf next := by
  unfold receiveAppend at received
  dsimp only at received
  split_ifs at received with newer leads succeeds moves
  · cases received
    exact becomeFollower_handover rf reply.term
  · unfold notifyCommit at received
    split_ifs at received
    cases received
    exact handover_of_same rfl rfl rfl rfl
  all_goals
    cases received
    exact handover_of_same rfl rfl rfl rfl

theorem submit_handover {command : Command} {index : Int}
    (submitted : rf.submit command = some (next, index)) : Handover rf next := by
  rcases submit_cases submitted with ⟨rfl, -, -⟩ | ⟨rfl, -, -⟩ <;>
    exact handover_of_same rfl rfl rfl rfl

end Raft

/-- The phase of a goroutine of `startLeader`, as the instance without its channels knows it. -/
def LoopStage.phase : LoopStage → LoopPhase
  | .heartbeat => .sending
  | .select | .check => .waiting

namespace Instance

variable {i i' : Instance n Command} {action : InstanceAction n Command}

/-- A follower or candidate has a timer that is not outdated, and a leader that has not been killed
has a goroutine of `startLeader`. -/
structure Driven (i : Instance n Command) : Prop where
  timed : i.rf.Timed
  loop : i.rf.state = .leader → i.rf.chansClosed = false → i.loops ≠ []
  phases : i.rf.leaderLoops = i.loops.map LoopStage.phase

theorem Driven.advance {next : Raft n Command} (driven : i.Driven)
    (handover : Raft.Handover i.rf next)
    (closes : i.rf.chansClosed = true → next.chansClosed = true) : (i.advance next).Driven := by
  obtain ⟨count, loops⟩ := handover.loops
  have phases : next.leaderLoops = (i.advance next).loops.map LoopStage.phase := by
    simp [Instance.advance, loops, driven.phases, LoopStage.phase]
  refine ⟨handover.timed driven.timed, fun leads opened => ?_, phases⟩
  rcases handover.leads leads with before | new
  · refine List.append_ne_nil_of_left_ne_nil (driven.loop before ?_) _
    by_contra closed
    exact Bool.false_ne_true (opened.symm.trans (closes (by simpa using closed)))
  · rintro empty
    rw [phases, empty] at new
    exact new rfl

/-- A section that runs on empty and open channels hands over like one that does not. -/
theorem handover_resume {next : Raft n Command} (handover : Raft.Handover i.unsent next) :
    Raft.Handover i.rf (i.resume next) :=
  ⟨handover.timed, handover.loops, handover.leads⟩

/-- A goroutine of `startLeader` goes on, or it ends when it sees another role. -/
theorem Driven.loopLocks {position : Nat} (driven : i.Driven)
    (locked : i.loopLocks position = some i') : i'.Driven := by
  obtain ⟨⟨next, calls⟩, turned, locked⟩ := Option.bind_eq_some_iff.mp locked
  have phase := congrArg (·[position]?) driven.phases
  unfold Raft.leaderLoop at turned
  split at locked
  · next stage =>
    simp only [List.getElem?_map, stage, Option.map_some, LoopStage.phase] at phase
    rw [phase] at turned
    cases turned
    cases locked
    refine ⟨driven.timed, fun leads opened => ?_, ?_⟩
    · simpa using driven.loop leads opened
    · simp [driven.phases, List.map_set, LoopStage.phase]
  · next stage =>
    simp only [List.getElem?_map, stage, Option.map_some, LoopStage.phase] at phase
    rw [phase] at turned
    dsimp only at turned
    split_ifs at turned with role
    · cases turned
      cases locked
      refine ⟨driven.timed, fun leads => absurd leads role, ?_⟩
      simp [driven.phases, role, List.eraseIdx_map]
    · cases turned
      cases locked
      refine ⟨driven.timed, fun leads opened => ?_, ?_⟩
      · simpa [role] using driven.loop leads opened
      · simp [driven.phases, role, List.map_set, LoopStage.phase]
  · cases locked

theorem Driven.loopWakes {position : Nat} {triggered : Bool} (driven : i.Driven)
    (woken : i.loopWakes position triggered = some i') : i'.Driven := by
  have wakes : i.loops[position]? = some .select →
      i.rf.leaderLoops = (i.loops.set position .check).map LoopStage.phase := by
    intro stage
    obtain ⟨within, same⟩ := List.getElem?_eq_some_iff.mp stage
    have phase : LoopStage.phase .check = LoopStage.phase i.loops[position] := by rw [same]; rfl
    rw [driven.phases, List.map_set, phase, ← List.map_set, List.set_getElem_self]
  unfold Instance.loopWakes at woken
  split_ifs at woken with stage
  all_goals
    cases woken
    refine ⟨driven.timed, fun leads opened => ?_, wakes stage⟩
    simpa using driven.loop leads opened

theorem Driven.loopEnds {position : Nat} (driven : i.Driven)
    (ended : i.loopEnds position = some i') : i'.Driven := by
  unfold Instance.loopEnds at ended
  split_ifs at ended
  obtain ⟨next, closes, rfl⟩ := Option.map_eq_some_iff.mp ended
  unfold Raft.leaderLoopClosed at closes
  split_ifs at closes with closed
  cases closes
  refine ⟨driven.timed, fun _ opened => ?_, ?_⟩
  · exact absurd closed.1 (by simpa using opened)
  · simp [driven.phases, List.eraseIdx_map]

theorem Driven.step (driven : i.Driven) (taken : i.step action = some i') : i'.Driven := by
  obtain ⟨-, -, performed⟩ := step_performs taken
  cases action with
  | requestVote args =>
    cases performed
    exact driven.advance (Raft.requestVote_handover _ args) fun closed =>
      (Raft.requestVote_calm _ args).chansClosed.trans closed
  | appendEntries args =>
    obtain ⟨⟨next, reply⟩, handled, rfl⟩ := Option.map_eq_some_iff.mp performed
    have handover := handover_resume (Raft.appendEntries_handover handled)
    dsimp only
    split_ifs
    · exact driven.advance handover fun closed => closed
    · have held : (i.advance { i.resume next with storage := i.rf.storage }).Driven :=
        driven.advance (handover.trans (Raft.handover_of_same rfl rfl rfl rfl)) fun closed => closed
      exact ⟨held.timed, held.loop, held.phases⟩
  | receiveVote call outcome =>
    cases performed
    exact driven.advance (Raft.receiveVote_handover _ call outcome) fun closed =>
      (Raft.receiveVote_calm _ call outcome).chansClosed.trans closed
  | receiveAppend call nextIndexForPeer args reply =>
    obtain ⟨next, received, rfl⟩ := Option.map_eq_some_iff.mp performed
    have held := driven.advance (handover_resume (Raft.receiveAppend_handover received))
      fun closed => closed
    split_ifs
    · exact held
    · exact ⟨held.timed, held.loop, held.phases⟩
  | timer position expired =>
    obtain ⟨⟨next, calls⟩, fired, rfl⟩ := Option.map_eq_some_iff.mp performed
    exact driven.advance (Raft.electionTimer_handover fired) fun closed =>
      (Raft.electionTimer_calm fired).chansClosed.trans closed
  | submit command =>
    obtain ⟨⟨next, index⟩, submitted, rfl⟩ := Option.map_eq_some_iff.mp performed
    have held := driven.advance (handover_resume (Raft.submit_handover submitted))
      fun closed => closed
    exact ⟨held.timed, held.loop, held.phases⟩
  | kill =>
    cases performed
    unfold kill Raft.kill
    split_ifs
    · exact driven.advance (Raft.Handover.refl i.rf) fun closed => closed
    · exact ⟨driven.timed, driven.loop, driven.phases⟩
    · refine driven.advance ⟨fun _ => ?_, ⟨0, by simp⟩, ?_⟩ fun _ => rfl
      · rintro (follows | runs) <;> contradiction
      · rintro ⟨⟩
  | holderSends =>
    simp only [perform, holderSends] at performed
    split at performed
    · cases performed
    · next holder holds =>
      cases holder <;> dsimp only at performed <;> split_ifs at performed <;> cases performed <;>
        exact ⟨driven.timed, driven.loop, driven.phases⟩
  | submitSends =>
    simp only [perform, submitSends] at performed
    split_ifs at performed
    all_goals
      cases performed
      exact ⟨driven.timed, driven.loop, driven.phases⟩
  | loopLocks position => exact driven.loopLocks performed
  | loopWakes position triggered => exact driven.loopWakes performed
  | loopEnds position => exact driven.loopEnds performed
  | senderReceives =>
    simp only [perform, senderReceives] at performed
    split_ifs at performed
    cases performed
    exact ⟨driven.timed, driven.loop, driven.phases⟩
  | senderCuts =>
    simp only [perform, senderCuts] at performed
    split_ifs at performed
    obtain ⟨next, cut, rfl⟩ := Option.map_eq_some_iff.mp performed
    rcases Raft.takeReady_cases cut with ⟨-, rfl⟩ | ⟨-, -, rfl⟩ <;>
      exact ⟨driven.timed, driven.loop, driven.phases⟩
  | senderDelivers =>
    obtain ⟨⟨next, entry⟩, sent, rfl⟩ := Option.map_eq_some_iff.mp performed
    obtain ⟨rest, -, rfl⟩ := Raft.sendReady_cases sent
    exact ⟨driven.timed, driven.loop, driven.phases⟩

/-- An instance begins with the timer that `Make` starts. -/
theorem make_driven {id : Fin n} {storage : Storage n Command} (made : make id storage = some i) :
    i.Driven := by
  obtain ⟨rf, created, rfl⟩ := Option.map_eq_some_iff.mp made
  have drivers : rf.timers = [none] ∧ rf.leaderLoops = [] := by
    unfold Raft.make Raft.restoreFromStorage at created
    split_ifs at created
    · split at created <;> cases created
      exact ⟨rfl, rfl⟩
    · cases created
      exact ⟨rfl, rfl⟩
  refine ⟨.of_started (by simp [drivers.1]), fun leads => ?_, drivers.2⟩
  exact absurd ((make_fresh made).state.symm.trans leads) nofun

theorem driver_runs (id : Fin n) (storage : Storage n Command)
    (actions : List (InstanceAction n Command)) {i i' : Instance n Command}
    (made : make id storage = some i) (taken : execute step i actions = some i') : i'.Driven :=
  execute_invariant Driven (fun _ _ _ driven _ stepped => driven.step stepped) (make_driven made)
    (along_iff.mpr fun _ _ _ _ _ _ => rfl : along step (fun _ _ => true) i actions = true) taken

open Cluster (s₀ s₁ s₂)

/-- Server 0 follows a leader of term 3, starts over and leads term 4, before the goroutine of its
first term has looked at the role. -/
def reelected : List (InstanceAction 3 ℕ) :=
  elected ++ [.appendEntries ⟨3, s₁, -1, -1, [], -1⟩, .timer 1 false, .timer 1 true,
    .receiveVote ⟨s₀, s₁, 4, 1⟩ (some ⟨4, true⟩), .receiveVote ⟨s₀, s₂, 4, 1⟩ (some ⟨4, true⟩)]

theorem driver_runs_reelected : ∃ i i', make s₀ newMapStorage = some i ∧
    execute step i reelected = some i' ∧ i'.loops = [.select, .heartbeat] ∧ i'.Driven := by
  obtain ⟨i, made, holds⟩ := (Option.any_eq_true _ _).mp (by decide +kernel :
    (make s₀ newMapStorage).any (fun i => (execute step i reelected).any fun i' =>
      decide (i'.loops = [.select, .heartbeat])) = true)
  obtain ⟨i', taken, loops⟩ := (Option.any_eq_true _ _).mp holds
  exact ⟨i, i', made, taken, of_decide_eq_true loops,
    driver_runs s₀ newMapStorage reelected made taken⟩

end Instance

end RaftInMotion
