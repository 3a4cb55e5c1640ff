/-
This file inverts the steps of a cluster once, for all results that follow one server or one
goroutine through a run. A step is the turn of one server, which moves by one function of its
instance and is observed; and every goroutine after the step was there before or has one of a
few origins.
-/

import RaftInMotion.Model.Hazards

namespace RaftInMotion

variable {n : Nat} {Command : Type}

namespace Cluster

/-- What an action makes one server do: its next state, and what is observed. -/
inductive Turn (c : Cluster n Command) :
    Action n Command → Fin n → Raft n Command → List (Event n Command) → Prop
  | timer {s : Fin n} {position : Nat} {expired : Bool} {next : Raft n Command}
      {calls : List (VoteCall n)}
      (fired : (c.node s).electionTimer position expired = some (next, calls)) :
      Turn c (.timer s position expired) s next
        (if next.currentTerm ≠ (c.node s).currentTerm then [.voted s next.currentTerm s] else [])
  | sendVote {i : Nat} {call : VoteCall n} (present : c.pool[i]? = some (.voteSpawned call)) :
      Turn c (.send i) call.candidate (c.node call.candidate)
        [.sentTerm call.candidate call.savedCurrentTerm]
  | sendAppend {i : Nat} {call : AppendCall n}
      (present : c.pool[i]? = some (.appendSpawned call)) :
      Turn c (.send i) call.leader (c.node call.leader)
        [.sentTerm call.leader call.savedCurrentTerm]
  | handleVote {i : Nat} {task : Task n Command} {peer : Fin n} {args : RequestVoteArgs n}
      (present : c.pool[i]? = some task) (request : task.voteRequest = some (peer, args)) :
      Turn c (.handle i) peer ((c.node peer).requestVote args).1
        (.sentTerm peer ((c.node peer).requestVote args).2.term ::
          if ((c.node peer).requestVote args).2.voteGranted then
            [.voted peer ((c.node peer).requestVote args).2.term args.candidateId] else [])
  | handleAppend {i : Nat} {task : Task n Command} {peer : Fin n}
      {args : AppendEntriesArgs n Command} {next : Raft n Command} {reply : AppendEntriesReply}
      (present : c.pool[i]? = some task) (request : task.appendRequest = some (peer, args))
      (handled : (c.node peer).appendEntries args = some (next, reply)) :
      Turn c (.handle i) peer next [.sentTerm peer reply.term]
  | receiveVote {action : Action n Command} {call : VoteCall n}
      {outcome : Option RequestVoteReply} (received : c.voteOutcome action = some (call, outcome)) :
      Turn c action call.candidate ((c.node call.candidate).receiveVote call outcome)
        (if (c.node call.candidate).state ≠ .leader ∧
            ((c.node call.candidate).receiveVote call outcome).state = .leader then
          [.startedLeader call.candidate
            ((c.node call.candidate).receiveVote call outcome).currentTerm
            ((c.node call.candidate).receiveVote call outcome).log] else [])
  | receiveAppend {i : Nat} {call : AppendCall n} {nextIndexForPeer : Nat}
      {args : AppendEntriesArgs n Command} {reply : AppendEntriesReply} {next : Raft n Command}
      (present : c.pool[i]? = some (.appendReplied call nextIndexForPeer args reply))
      (received : (c.node call.leader).receiveAppend call nextIndexForPeer args reply = some next) :
      Turn c (.finish i) call.leader next
        (if next.commitIndex ≠ (c.node call.leader).commitIndex then
          [.advancedCommit call.leader next.currentTerm next.commitIndex next.log] else [])
  | failAppend {i : Nat} (s : Fin n) : Turn c (.fail i) s (c.node s) []
  | submit {s : Fin n} {command : Command} {next : Raft n Command} {index : Int}
      (submitted : (c.node s).submit command = some (next, index)) :
      Turn c (.submit s command) s next []
  | leaderLoop {s : Fin n} {position : Nat} {next : Raft n Command} {calls : List (AppendCall n)}
      (turned : (c.node s).leaderLoop position = some (next, calls)) :
      Turn c (.leaderLoop s position) s next []
  | leaderLoopClosed {s : Fin n} {position : Nat} {next : Raft n Command}
      (ended : (c.node s).leaderLoopClosed position = some next) :
      Turn c (.leaderLoopClosed s position) s next []
  | takeReady {s : Fin n} {next : Raft n Command} (taken : (c.node s).takeReady = some next) :
      Turn c (.takeReady s) s next []
  | sendReady {s : Fin n} {next : Raft n Command} {entry : CommitEntry Command}
      (sent : (c.node s).sendReady = some (next, entry)) :
      Turn c (.sendReady s) s next [.delivered s entry]
  | kill {s : Fin n} {next : Raft n Command} (killed : (c.node s).kill = some next) :
      Turn c (.kill s) s next
        (if (c.node s).state = .dead then [] else [.killed s (c.node s).log])
  | restart {s : Fin n} {next : Raft n Command} (closed : (c.node s).chansClosed = true)
      (made : Raft.make s (c.node s).storage = some next) :
      Turn c (.restart s) s next [.restarted s next.currentTerm next.log]

/-- Where a goroutine can come from in a step. -/
inductive Born (c : Cluster n Command) : Action n Command → Task n Command → Prop
  | voteSpawned {s : Fin n} {position : Nat} {expired : Bool} {next : Raft n Command}
      {calls : List (VoteCall n)} {call : VoteCall n}
      (fired : (c.node s).electionTimer position expired = some (next, calls))
      (member : call ∈ calls) : Born c (.timer s position expired) (.voteSpawned call)
  | voteSent {i : Nat} {call : VoteCall n} (present : c.pool[i]? = some (.voteSpawned call)) :
      Born c (.send i) (.voteSent call ((c.node call.candidate).requestVoteArgs call))
  | voteReplied {i : Nat} {call : VoteCall n} {args : RequestVoteArgs n}
      (present : c.pool[i]? = some (.voteSent call args)) :
      Born c (.handle i) (.voteReplied call ((c.node call.peer).requestVote args).2)
  | appendSpawned {s : Fin n} {position : Nat} {next : Raft n Command}
      {calls : List (AppendCall n)} {call : AppendCall n}
      (turned : (c.node s).leaderLoop position = some (next, calls)) (member : call ∈ calls) :
      Born c (.leaderLoop s position) (.appendSpawned call)
  | appendSent {i : Nat} {call : AppendCall n} {built : Nat × AppendEntriesArgs n Command}
      (present : c.pool[i]? = some (.appendSpawned call))
      (isBuilt : (c.node call.leader).appendEntriesArgs call = some built) :
      Born c (.send i) (.appendSent call built.1 built.2)
  | appendReplied {i : Nat} {call : AppendCall n} {nextIndexForPeer : Nat}
      {args : AppendEntriesArgs n Command} {next : Raft n Command} {reply : AppendEntriesReply}
      (present : c.pool[i]? = some (.appendSent call nextIndexForPeer args))
      (handled : (c.node call.peer).appendEntries args = some (next, reply)) :
      Born c (.handle i) (.appendReplied call nextIndexForPeer args reply)
  | orphan {action : Action n Command} {task : Task n Command} (member : task ∈ c.pool) :
      Born c action task.orphan
  | finished {action : Action n Command} : Born c action .finished

variable {c c' : Cluster n Command} {action : Action n Command}

/-- A goroutine that moves is the only one that differs. -/
theorem mem_settle {i : Nat} {moved task : Task n Command}
    (member : task ∈ (c.settle i moved).pool) :
    task ∈ c.pool ∨ task = moved :=
  List.mem_or_eq_of_mem_set member

theorem mem_act {s : Fin n} {next : Raft n Command} {spawned : List (Task n Command)}
    {events : List (Event n Command)} {task : Task n Command}
    (member : task ∈ (c.act s next spawned events).pool) : task ∈ c.pool ∨ task ∈ spawned :=
  List.mem_append.mp member

theorem act_self (c : Cluster n Command) (s : Fin n) : c.act s (c.node s) [] [] = c := by
  simp [act]

/-- What holds of the server whose turn it is, and of all others as they were, holds of every
server after the turn. -/
theorem forall_turned {P : Fin n → Raft n Command → Prop} {s : Fin n} {next : Raft n Command}
    (nodes : c'.node = Function.update c.node s next) (mine : P s next)
    (others : ∀ p, p ≠ s → P p (c.node p)) (p : Fin n) : P p (c'.node p) := by
  rw [nodes]
  exact (Function.forall_update_iff c.node P).mpr ⟨mine, others⟩ p

theorem step_turn (taken : c.step action = some c') : ∃ s next events,
    c.Turn action s next events ∧ c'.node = Function.update c.node s next ∧
      c'.history = events ++ c.history := by
  cases action with
  | timer s position expired =>
    obtain ⟨⟨next, calls⟩, fired, rfl⟩ := Option.map_eq_some_iff.mp taken
    exact ⟨s, next, _, .timer fired, rfl, rfl⟩
  | send i =>
    simp only [step, send] at taken
    split at taken
    · next call present =>
      cases taken
      exact ⟨_, _, _, .sendVote present, rfl, rfl⟩
    · next call present =>
      obtain ⟨built, isBuilt, rfl⟩ := Option.map_eq_some_iff.mp taken
      have term : built.2.term = call.savedCurrentTerm := by
        unfold Raft.appendEntriesArgs at isBuilt
        dsimp only at isBuilt
        split_ifs at isBuilt
        cases isBuilt
        rfl
      refine ⟨_, _, _, .sendAppend present, rfl, ?_⟩
      rw [← term]
      rfl
    · cases taken
  | handle i =>
    simp only [step, handle] at taken
    split at taken
    · next call args present =>
      cases taken
      exact ⟨_, _, _, .handleVote present rfl, rfl, rfl⟩
    · next peer args present =>
      cases taken
      exact ⟨_, _, _, .handleVote present rfl, rfl, rfl⟩
    · next call nextIndex args present =>
      obtain ⟨moved, isMoved, rfl⟩ := Option.map_eq_some_iff.mp taken
      obtain ⟨⟨next, reply⟩, handled, rfl⟩ := Option.map_eq_some_iff.mp isMoved
      exact ⟨_, _, _, .handleAppend present rfl handled, rfl, rfl⟩
    · next peer args present =>
      obtain ⟨moved, isMoved, rfl⟩ := Option.map_eq_some_iff.mp taken
      obtain ⟨⟨next, reply⟩, handled, rfl⟩ := Option.map_eq_some_iff.mp isMoved
      exact ⟨_, _, _, .handleAppend present rfl handled, rfl, rfl⟩
    · cases taken
  | finish i =>
    simp only [step, finish] at taken
    split at taken
    · next call reply present =>
      cases taken
      exact ⟨_, _, _, .receiveVote (by simp only [voteOutcome, present]), rfl, rfl⟩
    · next call nextIndex args reply present =>
      obtain ⟨moved, isMoved, rfl⟩ := Option.map_eq_some_iff.mp taken
      obtain ⟨next, received, rfl⟩ := Option.map_eq_some_iff.mp isMoved
      exact ⟨_, _, _, .receiveAppend present received, rfl, rfl⟩
    · cases taken
  | fail i =>
    simp only [step, fail] at taken
    split at taken
    · next call args present =>
      cases taken
      exact ⟨_, _, _, .receiveVote (by simp only [voteOutcome, present]), rfl, rfl⟩
    · next call reply present =>
      cases taken
      exact ⟨_, _, _, .receiveVote (by simp only [voteOutcome, present]), rfl, rfl⟩
    · next call nextIndex args present =>
      cases taken
      exact ⟨_, _, _, .failAppend call.leader, (Function.update_eq_self ..).symm, rfl⟩
    · next call nextIndex args reply present =>
      cases taken
      exact ⟨_, _, _, .failAppend call.leader, (Function.update_eq_self ..).symm, rfl⟩
    · cases taken
  | submit s command =>
    obtain ⟨⟨next, index⟩, submitted, rfl⟩ := Option.map_eq_some_iff.mp taken
    exact ⟨s, next, _, .submit submitted, rfl, rfl⟩
  | leaderLoop s position =>
    obtain ⟨⟨next, calls⟩, turned, rfl⟩ := Option.map_eq_some_iff.mp taken
    exact ⟨s, next, _, .leaderLoop turned, rfl, rfl⟩
  | leaderLoopClosed s position =>
    obtain ⟨next, ended, rfl⟩ := Option.map_eq_some_iff.mp taken
    exact ⟨s, next, _, .leaderLoopClosed ended, rfl, rfl⟩
  | takeReady s =>
    obtain ⟨next, ready, rfl⟩ := Option.map_eq_some_iff.mp taken
    exact ⟨s, next, _, .takeReady ready, rfl, rfl⟩
  | sendReady s =>
    obtain ⟨⟨next, entry⟩, sent, rfl⟩ := Option.map_eq_some_iff.mp taken
    exact ⟨s, next, _, .sendReady sent, rfl, rfl⟩
  | kill s =>
    obtain ⟨next, killed, rfl⟩ := Option.map_eq_some_iff.mp taken
    exact ⟨s, next, _, .kill killed, rfl, rfl⟩
  | restart s =>
    simp only [step, restart] at taken
    split_ifs at taken with closed
    obtain ⟨next, made, rfl⟩ := Option.map_eq_some_iff.mp taken
    exact ⟨s, next, _, .restart closed made, rfl, rfl⟩

/-- What a turn does with the batch of `commitChanSender`: nothing, or it is cut or sent from. -/
theorem Turn.serves {s : Fin n} {next : Raft n Command} {events : List (Event n Command)}
    (turn : c.Turn action s next events) (noRestart : c.restartFree action = true) :
    (Raft.Aside (c.node s) next ∧ ∀ p entry, .delivered p entry ∉ events) ∨
    (action = .takeReady s ∧ events = [] ∧ (c.node s).takeReady = some next) ∨
    ∃ entry, action = .sendReady s ∧ events = [.delivered s entry] ∧
      (c.node s).sendReady = some (next, entry) := by
  have still : Raft.Aside (c.node s) (c.node s) := ⟨rfl, rfl, rfl⟩
  cases turn with
  | timer fired =>
    refine Or.inl ⟨?_, fun p entry => by split_ifs <;> simp⟩
    rcases Raft.electionTimer_cases fired with ⟨core, -, -⟩ | ⟨-, core, -, -⟩
    · exact Raft.aside_of_core core still
    · exact Raft.aside_of_core core ⟨rfl, rfl, rfl⟩
  | handleVote present request =>
    exact Or.inl ⟨Raft.requestVote_aside _, fun p entry => by split_ifs <;> simp⟩
  | handleAppend present request handled =>
    exact Or.inl ⟨Raft.appendEntries_aside handled, fun p entry => by simp⟩
  | @receiveVote _ call outcome received =>
    refine Or.inl ⟨?_, fun p entry => by split_ifs <;> simp⟩
    by_cases down : outcome.any ((c.node call.candidate).stepsDown call) = false
    · have core := Raft.receiveVote_of_stays down
      split_ifs at core
      · exact Raft.aside_of_core core ⟨rfl, rfl, rfl⟩
      · exact Raft.aside_of_core core still
    · obtain ⟨reply, rfl, isDown⟩ := (Option.any_eq_true _ _).mp (by simpa using down)
      exact Raft.aside_of_core (Raft.receiveVote_of_stepsDown isDown) ⟨rfl, rfl, rfl⟩
  | receiveAppend present received =>
    refine Or.inl ⟨?_, fun p entry => by split_ifs <;> simp⟩
    rcases Raft.receiveAppend_cases received with ⟨-, rfl⟩ | ⟨-, core, -⟩ |
      ⟨-, -, -, -, _, _, rfl, rfl, -⟩
    · exact ⟨rfl, rfl, rfl⟩
    · exact Raft.aside_of_core core still
    · exact ⟨rfl, rfl, rfl⟩
  | submit submitted =>
    refine Or.inl ⟨?_, fun p entry => List.not_mem_nil⟩
    rcases Raft.submit_cases submitted with ⟨rfl, -, -⟩ | ⟨rfl, -, -⟩ <;> exact ⟨rfl, rfl, rfl⟩
  | leaderLoop turned =>
    exact Or.inl ⟨Raft.aside_of_core (Raft.leaderLoop_cases turned).1 still,
      fun p entry => List.not_mem_nil⟩
  | leaderLoopClosed ended =>
    exact Or.inl ⟨Raft.aside_of_core (Raft.leaderLoopClosed_cases ended).1 still,
      fun p entry => List.not_mem_nil⟩
  | takeReady taken => exact Or.inr (Or.inl ⟨rfl, rfl, taken⟩)
  | sendReady sent => exact Or.inr (Or.inr ⟨_, rfl, rfl, sent⟩)
  | kill killed =>
    refine Or.inl ⟨?_, fun p entry => by split_ifs <;> simp⟩
    rcases Raft.kill_cases killed with ⟨-, rfl⟩ | ⟨-, rfl⟩ <;> exact ⟨rfl, rfl, rfl⟩
  | restart closed made => cases noRestart
  | _ => exact Or.inl ⟨still, fun p entry => by simp⟩

/-- What a turn does to the log and to `commitIndex`. -/
inductive Replicates (c : Cluster n Command) (action : Action n Command) (s : Fin n)
    (next : Raft n Command) : Prop
  | quiet (log : next.log = (c.node s).log) (commit : next.commitIndex = (c.node s).commitIndex)
  | appends (command : Command) (submitted : action = .submit s command)
      (leads : (c.node s).state = .leader)
      (log : next.log = (c.node s).log ++ [⟨command, (c.node s).currentTerm⟩])
      (commit : next.commitIndex = (c.node s).commitIndex)
  | counts (log : next.log = (c.node s).log) (more : (c.node s).commitIndex < next.commitIndex)
      (within : next.commitIndex < next.log.length)
  | accepts (task : Task n Command) (args : AppendEntriesArgs n Command) (prevLogIndex : Nat)
      (held : LogEntry Command) (member : task ∈ c.pool)
      (request : task.appendRequest = some (s, args)) (position : args.prevLogIndex = prevLogIndex)
      (found : (c.node s).log[prevLogIndex]? = some held) (same : args.prevLogTerm = held.term)
      (log : next.log = Raft.insertEntries (c.node s).log prevLogIndex args.entries)
      (commit : next.commitIndex = (c.node s).commitIndex ∨
        (c.node s).commitIndex < args.leaderCommit ∧
          next.commitIndex = min args.leaderCommit (next.log.length - 1))

theorem replicates_of_core {s : Fin n} {next other : Raft n Command}
    (core : next.core = other.core) (log : other.log = (c.node s).log)
    (commit : other.commitIndex = (c.node s).commitIndex) : c.Replicates action s next := by
  have sameLog : next.core.log = other.core.log := congrArg Raft.log core
  have sameCommit : next.core.commitIndex = other.core.commitIndex := congrArg Raft.commitIndex core
  exact .quiet (sameLog.trans log) (sameCommit.trans commit)

theorem Turn.replicates {s : Fin n} {next : Raft n Command} {events : List (Event n Command)}
    (turn : c.Turn action s next events) (noRestart : c.restartFree action = true) :
    c.Replicates action s next := by
  cases turn with
  | timer fired =>
    rcases Raft.electionTimer_cases fired with ⟨core, -, -⟩ | ⟨-, core, -, -⟩ <;>
      exact replicates_of_core core rfl rfl
  | @handleVote i task _ args present request =>
    have same : ((c.node s).requestVote args).1.log = (c.node s).log ∧
        ((c.node s).requestVote args).1.commitIndex = (c.node s).commitIndex := by
      unfold Raft.requestVote Raft.meetTerm
      dsimp only
      split_ifs <;> exact ⟨rfl, rfl⟩
    exact .quiet same.1 same.2
  | @handleAppend i task _ args _ reply present request handled =>
    have log := (c.node s).heed_log args.term
    have commit := (c.node s).heed_commitIndex args.term
    cases Raft.appendEntries_outcome handled with
    | dead gone => exact .quiet rfl rfl
    | stale alive older _ _ same term fails => rcases same with rfl | rfl <;> exact .quiet rfl rfl
    | reject alive reached _ term fails => exact .quiet log commit
    | blank alive reached _ term first empty => exact .quiet log commit
    | accept alive reached _ term prevLogIndex position held found same live =>
      refine .accepts task args prevLogIndex held (List.mem_of_getElem? present) request position
        found same ?_ ?_
      · rw [← log]
        exact Raft.store_log args prevLogIndex
      · rw [← commit]
        exact Raft.store_commitIndex args prevLogIndex
  | @receiveVote _ call outcome received =>
    by_cases down : outcome.any ((c.node call.candidate).stepsDown call) = false
    · have core := Raft.receiveVote_of_stays down
      split_ifs at core <;> exact replicates_of_core core rfl rfl
    · obtain ⟨reply, rfl, isDown⟩ := (Option.any_eq_true _ _).mp (by simpa using down)
      exact replicates_of_core (Raft.receiveVote_of_stepsDown isDown) rfl rfl
  | receiveAppend present received =>
    rcases Raft.receiveAppend_cases received with ⟨-, rfl⟩ | ⟨-, core, -⟩ |
      ⟨-, -, -, -, matched, _, isMatched, rfl, -⟩
    · exact .quiet rfl rfl
    · exact replicates_of_core core rfl rfl
    · rcases matched.advanceCommit_cases with same | ⟨index, isIndex, more, within, -⟩
      · exact .quiet (by rw [isMatched]; rfl) (by dsimp only; rw [same, isMatched]; rfl)
      · refine .counts (by rw [isMatched]; rfl) ?_ ?_
        · dsimp only
          rw [isIndex]
          rwa [isMatched] at more
        · dsimp only
          rw [isIndex]
          exact_mod_cast within
  | submit submitted =>
    rcases Raft.submit_cases submitted with ⟨rfl, -, -⟩ | ⟨rfl, leads, -⟩
    · exact .quiet rfl rfl
    · exact .appends _ rfl leads rfl rfl
  | leaderLoop turned => exact replicates_of_core (Raft.leaderLoop_cases turned).1 rfl rfl
  | leaderLoopClosed ended => exact replicates_of_core (Raft.leaderLoopClosed_cases ended).1 rfl rfl
  | takeReady taken =>
    rcases Raft.takeReady_cases taken with ⟨-, rfl⟩ | ⟨-, -, rfl⟩ <;> exact .quiet rfl rfl
  | sendReady sent =>
    obtain ⟨rest, -, rfl⟩ := Raft.sendReady_cases sent
    exact .quiet rfl rfl
  | kill killed =>
    rcases Raft.kill_cases killed with ⟨-, rfl⟩ | ⟨-, rfl⟩ <;> exact .quiet rfl rfl
  | restart closed made => cases noRestart
  | _ => exact .quiet rfl rfl

/-- An instance keeps its id, which is that of its place. -/
theorem Turn.named {s : Fin n} {next : Raft n Command} {events : List (Event n Command)}
    (turn : c.Turn action s next events) (named : (c.node s).id = s) : next.id = s := by
  by_cases noRestart : c.restartFree action = true
  · refine Eq.trans ?_ named
    rcases turn.serves noRestart with ⟨aside, -⟩ | ⟨-, -, taken⟩ | ⟨_, -, -, sent⟩
    · exact aside.id
    · rcases Raft.takeReady_cases taken with ⟨-, rfl⟩ | ⟨-, -, rfl⟩ <;> rfl
    · obtain ⟨rest, -, rfl⟩ := Raft.sendReady_cases sent
      rfl
  · cases turn with
    | restart closed made => exact (Raft.make_cases made).1
    | receiveVote received => cases action <;> first | cases received | exact absurd rfl noRestart
    | _ => exact absurd rfl noRestart

/-- An outcome that can be received is received. -/
theorem step_voteOutcome {call : VoteCall n} {outcome : Option RequestVoteReply}
    (received : c.voteOutcome action = some (call, outcome)) : ∃ c',
    c.step action = some c' ∧
      c'.node call.candidate = (c.node call.candidate).receiveVote call outcome := by
  cases action with
  | finish i =>
    simp only [voteOutcome] at received
    split at received
    · next call' reply present =>
      cases received
      exact ⟨(c.finishVote call (some reply)).settle i .finished,
        by simp only [step, finish, present], Function.update_self ..⟩
    · cases received
  | fail i =>
    simp only [voteOutcome] at received
    split at received
    · next call' args present =>
      cases received
      exact ⟨(c.finishVote call none).settle i (.voteLost call.peer args),
        by simp only [step, fail, present], Function.update_self ..⟩
    · next call' reply present =>
      cases received
      exact ⟨(c.finishVote call none).settle i .finished, by simp only [step, fail, present],
        Function.update_self ..⟩
    · cases received
  | _ => cases received

/-- A request that a server can handle is handled. -/
theorem step_appendHandled {s : Fin n} {args : AppendEntriesArgs n Command}
    {next : Raft n Command} {reply : AppendEntriesReply}
    (request : c.appendHandled action = some (s, args))
    (handled : (c.node s).appendEntries args = some (next, reply)) :
    ∃ c', c.step action = some c' ∧ c'.node s = next := by
  cases action with
  | handle i =>
    obtain ⟨task, present, isRequest⟩ := Option.bind_eq_some_iff.mp request
    cases task with
    | appendSent call nextIndexForPeer args' =>
      cases isRequest
      refine ⟨(c.act call.peer next [] [.sentTerm call.peer reply.term]).settle i
        (.appendReplied call nextIndexForPeer args reply), ?_, Function.update_self ..⟩
      simp only [step, handle, present, handleAppend, handled, Option.map_some]
    | appendLost peer args' =>
      cases isRequest
      refine ⟨(c.act s next [] [.sentTerm s reply.term]).settle i .finished, ?_,
        Function.update_self ..⟩
      simp only [step, handle, present, handleAppend, handled, Option.map_some]
    | _ => cases isRequest
  | _ => cases request

theorem step_born (taken : c.step action = some c') :
    ∀ task ∈ c'.pool, task ∈ c.pool ∨ c.Born action task := by
  -- A goroutine that moves on becomes a task of known origin; the others are as before.
  have settled : ∀ {c₁ : Cluster n Command} {i moved}, c₁.pool = c.pool → c.Born action moved →
      ∀ task ∈ (c₁.settle i moved).pool, task ∈ c.pool ∨ c.Born action task := by
    intro c₁ i moved same born task member
    rcases mem_settle member with old | rfl
    · exact Or.inl (same ▸ old)
    · exact Or.inr born
  have still : ∀ s next events, (c.act s next [] events).pool = c.pool :=
    fun s next events => List.append_nil _
  cases action with
  | timer s position expired =>
    obtain ⟨⟨next, calls⟩, fired, rfl⟩ := Option.map_eq_some_iff.mp taken
    intro task member
    refine (mem_act member).imp_right fun new => ?_
    obtain ⟨call, isCall, rfl⟩ := List.mem_map.mp new
    exact .voteSpawned fired isCall
  | send i =>
    simp only [step, send] at taken
    split at taken
    · next call present =>
      cases taken
      exact settled (still _ _ _) (.voteSent present)
    · next call present =>
      obtain ⟨built, isBuilt, rfl⟩ := Option.map_eq_some_iff.mp taken
      exact settled (still _ _ _) (.appendSent present isBuilt)
    · cases taken
  | handle i =>
    simp only [step, handle] at taken
    split at taken
    · next call args present =>
      cases taken
      exact settled (still _ _ _) (.voteReplied present)
    · next peer args present =>
      cases taken
      exact settled (still _ _ _) .finished
    · next call nextIndex args present =>
      obtain ⟨moved, isMoved, rfl⟩ := Option.map_eq_some_iff.mp taken
      obtain ⟨⟨next, reply⟩, handled, rfl⟩ := Option.map_eq_some_iff.mp isMoved
      exact settled (still _ _ _) (.appendReplied present handled)
    · next peer args present =>
      obtain ⟨moved, isMoved, rfl⟩ := Option.map_eq_some_iff.mp taken
      obtain ⟨⟨next, reply⟩, handled, rfl⟩ := Option.map_eq_some_iff.mp isMoved
      exact settled (still _ _ _) .finished
    · cases taken
  | finish i =>
    simp only [step, finish] at taken
    split at taken
    · next call reply present =>
      cases taken
      exact settled (still _ _ _) .finished
    · next call nextIndex args reply present =>
      obtain ⟨moved, isMoved, rfl⟩ := Option.map_eq_some_iff.mp taken
      obtain ⟨next, received, rfl⟩ := Option.map_eq_some_iff.mp isMoved
      exact settled (still _ _ _) .finished
    · cases taken
  | fail i =>
    simp only [step, fail] at taken
    split at taken
    · next call args present =>
      cases taken
      exact settled (still _ _ _) (.orphan (List.mem_of_getElem? present))
    · next call reply present =>
      cases taken
      exact settled (still _ _ _) .finished
    · next call nextIndex args present =>
      cases taken
      exact settled rfl (.orphan (List.mem_of_getElem? present))
    · next call nextIndex args reply present =>
      cases taken
      exact settled rfl .finished
    · cases taken
  | leaderLoop s position =>
    obtain ⟨⟨next, calls⟩, turned, rfl⟩ := Option.map_eq_some_iff.mp taken
    intro task member
    refine (mem_act member).imp_right fun new => ?_
    obtain ⟨call, isCall, rfl⟩ := List.mem_map.mp new
    exact .appendSpawned turned isCall
  | restart s =>
    simp only [step, restart] at taken
    split_ifs at taken with closed
    obtain ⟨next, made, rfl⟩ := Option.map_eq_some_iff.mp taken
    intro task member
    obtain ⟨before, old, rfl⟩ := List.mem_map.mp member
    split_ifs
    · exact Or.inr (.orphan old)
    · exact Or.inl old
  | _ =>
    obtain ⟨next, -, rfl⟩ := Option.map_eq_some_iff.mp taken
    intro task member
    exact Or.inl (by simpa [act] using member)

end Cluster

end RaftInMotion
