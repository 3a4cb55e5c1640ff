/-
This file says once what each step of an instance does to the lock, to the channels and to what
`commitChanSender` reads. The results about one instance go through the moves and do not look at
the handlers again.
-/

import RaftInMotion.Model.Instance
import RaftInMotion.Model.Hazards
import RaftInMotion.Library.Execution

namespace RaftInMotion

open Execution

variable {n : Nat} {Command : Type}

namespace Raft

variable {rf next other : Raft n Command}

/-! ### Sections without a send -/

/-- Nothing has been sent, received or cut. -/
structure Silent (rf next : Raft n Command) : Prop where
  newCommitReady : next.newCommitReady = rf.newCommitReady
  chansClosed : next.chansClosed = rf.chansClosed
  lastApplied : next.lastApplied = rf.lastApplied
  readyEntries : next.readyEntries = rf.readyEntries

/-- A dead instance has not moved, and none of its timers has started an election. -/
structure Rests (rf next : Raft n Command) : Prop where
  state : next.state = .dead
  currentTerm : next.currentTerm = rf.currentTerm
  votedFor : next.votedFor = rf.votedFor
  log : next.log = rf.log
  storage : next.storage = rf.storage
  elections : next.elections.length = rf.elections.length

/-- Moreover, nothing has been written or committed, and a dead instance is where it was. -/
structure Calm (rf next : Raft n Command) : Prop extends Silent rf next where
  log : next.log = rf.log
  commitIndex : next.commitIndex = rf.commitIndex
  alive : rf.state ≠ .dead → next.state ≠ .dead
  dead : rf.state = .dead → Rests rf next

theorem Silent.refl (rf : Raft n Command) : Silent rf rf :=
  ⟨rfl, rfl, rfl, rfl⟩

theorem Rests.refl (dead : rf.state = .dead) : Rests rf rf :=
  ⟨dead, rfl, rfl, rfl, rfl, rfl⟩

theorem Rests.trans (left : Rests rf next) (right : Rests next other) : Rests rf other :=
  ⟨right.state, right.currentTerm.trans left.currentTerm, right.votedFor.trans left.votedFor,
    right.log.trans left.log, right.storage.trans left.storage,
    right.elections.trans left.elections⟩

theorem Calm.refl (rf : Raft n Command) : Calm rf rf :=
  ⟨Silent.refl rf, rfl, rfl, fun alive => alive, Rests.refl⟩

theorem calm_of_core (core : next.core = other.core)
    (elections : next.elections.length = other.elections.length) (calm : Calm rf other) :
    Calm rf next := by
  have same : ∀ {Field : Type} (field : Raft n Command → Field),
      field next.core = field other.core := fun field => congrArg field core
  refine ⟨⟨(same newCommitReady).trans calm.newCommitReady,
    (same chansClosed).trans calm.chansClosed, (same lastApplied).trans calm.lastApplied,
    (same readyEntries).trans calm.readyEntries⟩, (same Raft.log).trans calm.log,
    (same commitIndex).trans calm.commitIndex,
    fun alive => (same state).trans_ne (calm.alive alive), fun dead => ?_⟩
  have rests := calm.dead dead
  exact ⟨(same state).trans rests.state, (same currentTerm).trans rests.currentTerm,
    (same votedFor).trans rests.votedFor, (same Raft.log).trans rests.log,
    (same storage).trans rests.storage, elections.trans rests.elections⟩

theorem electionTimer_calm {position : Nat} {expired : Bool} {calls : List (VoteCall n)}
    (fired : rf.electionTimer position expired = some (next, calls)) : Calm rf next := by
  rcases electionTimer_cases fired with ⟨core, elections, -⟩ | ⟨runs, core, elections, -⟩
  · exact calm_of_core core (congrArg List.length elections) (Calm.refl rf)
  · refine calm_of_core core (congrArg List.length elections) ⟨⟨rfl, rfl, rfl, rfl⟩, rfl, rfl,
      fun _ dead => (by cases dead), fun dead => ?_⟩
    rw [dead] at runs
    rcases runs with runs | runs <;> cases runs

theorem requestVote_calm (rf : Raft n Command) (args : RequestVoteArgs n) :
    Calm rf (rf.requestVote args).1 := by
  by_cases dead : rf.state = .dead
  · rw [requestVote_of_dead args dead]
    exact Calm.refl rf
  · unfold requestVote meetTerm
    dsimp only
    split_ifs <;> refine ⟨⟨rfl, rfl, rfl, rfl⟩, rfl, rfl, fun alive => ?_,
      fun gone => absurd gone dead⟩ <;> first | exact alive | nofun

theorem receiveVote_calm (rf : Raft n Command) (call : VoteCall n)
    (outcome : Option RequestVoteReply) : Calm rf (rf.receiveVote call outcome) := by
  have length : (rf.receiveVote call outcome).elections.length = rf.elections.length := by
    obtain ⟨count, set, -⟩ := receiveVote_elections rf call outcome
    rw [set, List.length_set]
  have runs : rf.state = .candidate → rf.state ≠ .dead := fun runs dead => by
    rw [runs] at dead
    cases dead
  by_cases down : outcome.any (rf.stepsDown call) = false
  · have core := receiveVote_of_stays down
    split_ifs at core with wins
    · refine calm_of_core core length ⟨⟨rfl, rfl, rfl, rfl⟩, rfl, rfl,
        fun _ dead => (by cases dead), fun dead => ?_⟩
      exact absurd dead (runs ((wins_iff down).mp wins).1)
    · exact calm_of_core core length (Calm.refl rf)
  · obtain ⟨reply, rfl, isDown⟩ := (Option.any_eq_true _ _).mp (by simpa using down)
    have candidate : rf.state = .candidate ∧ call.savedCurrentTerm < reply.term := by
      simpa [stepsDown] using isDown
    refine calm_of_core (receiveVote_of_stepsDown isDown) length ⟨⟨rfl, rfl, rfl, rfl⟩, rfl, rfl,
      fun _ dead => (by cases dead), fun dead => ?_⟩
    exact absurd dead (runs candidate.1)

/-! ### Handlers that may send -/

/-- The request makes `AppendEntries` move `commitIndex`. -/
def takesCommit (rf : Raft n Command) (args : AppendEntriesArgs n Command) : Bool :=
  rf.state ≠ .dead && rf.currentTerm ≤ args.term && 0 ≤ args.prevLogIndex &&
    (rf.log[args.prevLogIndex.toNat]?.map fun held => (held.term : Int)) = some args.prevLogTerm &&
    rf.commitIndex < args.leaderCommit

/-- The reply makes the leader move `commitIndex`. -/
def movesCommit (rf : Raft n Command) (call : AppendCall n) (nextIndexForPeer : Nat)
    (args : AppendEntriesArgs n Command) (reply : AppendEntriesReply) : Bool :=
  rf.state = .leader && reply.term ≤ rf.currentTerm && call.savedCurrentTerm = reply.term &&
    reply.success &&
    (rf.acknowledge call.peer (nextIndexForPeer + args.entries.length)).advanceCommit ≠
      rf.commitIndex

/-- What `AppendEntries` does on empty and open channels to an instance that is alive. -/
theorem unsent_appendEntries {i : Instance n Command} {args : AppendEntriesArgs n Command}
    {reply : AppendEntriesReply}
    (handled : i.unsent.appendEntries args = some (next, reply)) :
    i.rf.state = .dead ∧ next = i.unsent ∨
    i.rf.state ≠ .dead ∧ next.state ≠ .dead ∧ next.lastApplied = i.rf.lastApplied ∧
      next.readyEntries = i.rf.readyEntries ∧
      (next.newCommitReady = 0 ∧ next.commitIndex = i.rf.commitIndex ∨
        next.newCommitReady = 1 ∧ i.rf.takesCommit args = true ∧
          next.commitIndex = min args.leaderCommit (next.log.length - 1)) := by
  have aside := appendEntries_aside handled
  have heeds : ∀ term, (i.unsent.heed term).newCommitReady = 0 := by
    intro term
    unfold heed
    split_ifs <;> rfl
  have commit := i.unsent.heed_commitIndex args.term
  have follows := i.unsent.heed_state args.term
  cases appendEntries_outcome handled with
  | dead gone => exact Or.inl ⟨gone, rfl⟩
  | stale alive older _ _ same term fails =>
    have still : next.state = i.rf.state := by rcases same with rfl | rfl <;> rfl
    refine Or.inr ⟨alive, still.trans_ne alive, aside.lastApplied, aside.readyEntries, Or.inl ?_⟩
    rcases same with rfl | rfl <;> exact ⟨rfl, rfl⟩
  | reject alive reached _ term fails =>
    exact Or.inr ⟨alive, follows.trans_ne nofun, aside.lastApplied, aside.readyEntries,
      Or.inl ⟨heeds _, commit⟩⟩
  | blank alive reached _ term first empty =>
    exact Or.inr ⟨alive, follows.trans_ne nofun, aside.lastApplied, aside.readyEntries,
      Or.inl ⟨heeds _, commit⟩⟩
  | accept alive reached _ term prevLogIndex position held found same live =>
    have still : ((i.unsent.heed args.term).store args prevLogIndex).persistToStorage.state =
        .follower := by
      unfold store
      dsimp only
      split_ifs <;> exact follows
    refine Or.inr ⟨alive, still.trans_ne nofun, aside.lastApplied, aside.readyEntries, ?_⟩
    simp only [persistToStorage_newCommitReady, persistToStorage_commitIndex,
      persistToStorage_log]
    unfold store
    dsimp only
    rw [commit]
    split_ifs with more
    · refine Or.inr ⟨congrArg (· + 1) (heeds _), ?_, rfl⟩
      simp only [takesCommit, Bool.and_eq_true, decide_eq_true_eq]
      refine ⟨⟨⟨⟨alive, reached⟩, by omega⟩, ?_⟩, more⟩
      rw [position, Int.toNat_natCast, same]
      exact congrArg (Option.map fun held => (held.term : Int)) found
    · exact Or.inl ⟨heeds _, rfl⟩

/-- What the reply handler does on empty and open channels. -/
theorem unsent_receiveAppend {i : Instance n Command} {call : AppendCall n} {nextIndexForPeer : Nat}
    {args : AppendEntriesArgs n Command} {reply : AppendEntriesReply}
    (received : i.unsent.receiveAppend call nextIndexForPeer args reply = some next) :
    i.rf.currentTerm < reply.term ∧ next = i.unsent.becomeFollower reply.term ∨
    reply.term ≤ i.rf.currentTerm ∧ next.newCommitReady = 0 ∧ Calm i.unsent next ∨
    i.rf.movesCommit call nextIndexForPeer args reply = true ∧ next.newCommitReady = 1 ∧
      next.state ≠ .dead ∧ next.log = i.rf.log ∧ next.lastApplied = i.rf.lastApplied ∧
      next.readyEntries = i.rf.readyEntries ∧ i.rf.commitIndex < next.commitIndex ∧
      next.commitIndex < next.log.length := by
  unfold receiveAppend at received
  dsimp only at received
  split_ifs at received with newer leads succeeds moves
  · cases received
    exact Or.inl ⟨newer, rfl⟩
  · have advanced := advanceCommit_cases
      (i.unsent.acknowledge call.peer (nextIndexForPeer + args.entries.length))
    obtain ⟨index, isIndex, above, within, -⟩ := advanced.resolve_left moves
    unfold notifyCommit at received
    split_ifs at received
    cases received
    refine Or.inr (Or.inr ⟨?_, rfl, leads.1.trans_ne nofun, rfl, rfl, rfl, ?_, ?_⟩)
    · simp only [movesCommit, Bool.and_eq_true, decide_eq_true_eq]
      exact ⟨⟨⟨⟨leads.1, not_lt.mp newer⟩, leads.2⟩, succeeds⟩, moves⟩
    · dsimp only
      rw [isIndex]
      exact above
    · dsimp only
      rw [isIndex]
      exact_mod_cast within
  · cases received
    refine Or.inr (Or.inl ⟨not_lt.mp newer, rfl, ⟨rfl, rfl, rfl, rfl⟩, rfl, rfl,
      fun alive => alive, fun dead => ?_⟩)
    cases leads.1.symm.trans dead
  · cases received
    refine Or.inr (Or.inl ⟨not_lt.mp newer, rfl, ⟨rfl, rfl, rfl, rfl⟩, rfl, rfl,
      fun alive => alive, fun dead => ?_⟩)
    cases leads.1.symm.trans dead
  · cases received
    exact Or.inr (Or.inl ⟨not_lt.mp newer, rfl, Calm.refl _⟩)

end Raft

namespace Instance

variable {i i' : Instance n Command} {action : InstanceAction n Command}

/-! ### Creation -/

/-- What `Make` creates, whatever the storage holds. -/
structure Fresh (i : Instance n Command) : Prop where
  mu : i.mu = none
  submits : i.submits = 0
  locking : i.locking = false
  delivered : i.delivered = []
  state : i.rf.state = .follower
  commitIndex : i.rf.commitIndex = -1
  lastApplied : i.rf.lastApplied = -1
  readyEntries : i.rf.readyEntries = []
  newCommitReady : i.rf.newCommitReady = 0
  chansClosed : i.rf.chansClosed = false
  crashed : i.crashed = false

theorem make_fresh {id : Fin n} {storage : Storage n Command} (made : make id storage = some i) :
    Fresh i := by
  obtain ⟨rf, created, rfl⟩ := Option.map_eq_some_iff.mp made
  obtain ⟨-, state, commitIndex, lastApplied, -, readyEntries⟩ := Raft.make_cases created
  have channels : rf.newCommitReady = 0 ∧ rf.chansClosed = false := by
    unfold Raft.make Raft.restoreFromStorage at created
    split_ifs at created
    · split at created <;> cases created
      exact ⟨rfl, rfl⟩
    · cases created
      exact ⟨rfl, rfl⟩
  exact ⟨rfl, rfl, rfl, rfl, state, commitIndex, lastApplied, readyEntries, channels.1,
    channels.2, rfl⟩

/-! ### Moves -/

/-- What a step can do. -/
inductive Moves (i : Instance n Command) : InstanceAction n Command → Instance n Command → Prop
  | calm {action : InstanceAction n Command} {next : Raft n Command} (free : i.mu = none)
      (calm : Raft.Calm i.rf next) : Moves i action (i.advance next)
  | stepsDown {call : AppendCall n} {nextIndexForPeer : Nat} {args : AppendEntriesArgs n Command}
      {reply : AppendEntriesReply} (free : i.mu = none) (newer : i.rf.currentTerm < reply.term) :
      Moves i (.receiveAppend call nextIndexForPeer args reply)
        (i.advance (i.rf.becomeFollower reply.term))
  | stores {args : AppendEntriesArgs n Command} {next : Raft n Command} (free : i.mu = none)
      (alive : i.rf.state ≠ .dead) (lives : next.state ≠ .dead) (silent : Raft.Silent i.rf next)
      (commitIndex : next.commitIndex = i.rf.commitIndex) :
      Moves i (.appendEntries args) (i.advance next)
  | notifies {args : AppendEntriesArgs n Command} {next : Raft n Command} (free : i.mu = none)
      (takes : i.rf.takesCommit args = true) (lives : next.state ≠ .dead)
      (silent : Raft.Silent i.rf next)
      (commitIndex : next.commitIndex = min args.leaderCommit (next.log.length - 1)) :
      Moves i (.appendEntries args) { i.advance next with mu := some .appendEntries }
  | commits {call : AppendCall n} {nextIndexForPeer : Nat} {args : AppendEntriesArgs n Command}
      {reply : AppendEntriesReply} {next : Raft n Command} (free : i.mu = none)
      (moves : i.rf.movesCommit call nextIndexForPeer args reply = true)
      (lives : next.state ≠ .dead) (silent : Raft.Silent i.rf next) (log : next.log = i.rf.log)
      (more : i.rf.commitIndex < next.commitIndex) (within : next.commitIndex < next.log.length) :
      Moves i (.receiveAppend call nextIndexForPeer args reply)
        { i.advance next with mu := some .replyCommit }
  | submits {command : Command} (free : i.mu = none) (leads : i.rf.state = .leader) :
      Moves i (.submit command)
        { i.advance { i.rf with
            log := i.rf.log ++ [LogEntry.mk command i.rf.currentTerm] }.persistToStorage with
          submits := i.submits + 1 }
  | kills (free : i.mu = none) (alive : i.rf.state ≠ .dead) (opened : i.rf.chansClosed = false) :
      Moves i .kill (i.advance { i.rf with state := .dead, chansClosed := true })
  | crashes {action : InstanceAction n Command} (closed : i.rf.chansClosed = true)
      (uses : i.mu ≠ none ∨ 0 < i.submits ∨ i.rf.state ≠ .dead) :
      Moves i action { i with crashed := true }
  | persists (holds : i.mu = some .appendEntries)
      (room : i.rf.newCommitReady < newCommitReadyCap) :
      Moves i .holderSends { i with
        rf := { i.rf with newCommitReady := i.rf.newCommitReady + 1 }.persistToStorage
        mu := none }
  | announces (holds : i.mu = some .replyCommit) (room : i.rf.newCommitReady < newCommitReadyCap) :
      Moves i .holderSends { i with
        rf := { i.rf with newCommitReady := i.rf.newCommitReady + 1 }
        mu := some .replyTrigger }
  | triggers (holds : i.mu = some .replyTrigger) (room : i.triggerAE < triggerAECap) :
      Moves i .holderSends { i with triggerAE := i.triggerAE + 1, mu := none }
  | submitSends (waits : 0 < i.submits) (room : i.triggerAE < triggerAECap) :
      Moves i .submitSends { i with triggerAE := i.triggerAE + 1, submits := i.submits - 1 }
  | loops {action : InstanceAction n Command} {next : Raft n Command} {stages : List LoopStage}
      {messages : Nat} (calm : Raft.Calm i.rf next) (fewer : messages ≤ i.triggerAE) :
      Moves i action { i with rf := next, triggerAE := messages, loops := stages }
  | receives (ready : 0 < i.rf.newCommitReady) (idle : i.locking = false)
      (sent : i.rf.readyEntries = []) :
      Moves i .senderReceives { i with
        rf := { i.rf with newCommitReady := i.rf.newCommitReady - 1 }
        locking := true }
  | skips (free : i.mu = none) (locked : i.locking = true)
      (done : i.rf.commitIndex ≤ i.rf.lastApplied) :
      Moves i .senderCuts { i with locking := false }
  | cuts (free : i.mu = none) (locked : i.locking = true) (idle : i.rf.readyEntries = [])
      (more : i.rf.lastApplied < i.rf.commitIndex) (within : i.rf.commitIndex < i.rf.log.length) :
      Moves i .senderCuts { i with
        rf := { i.rf with
          readyEntries := i.rf.committedBatch
          lastApplied := i.rf.commitIndex }
        locking := false }
  | delivers {entry : CommitEntry Command} {rest : List (CommitEntry Command)}
      (ready : i.rf.readyEntries = entry :: rest) :
      Moves i .senderDelivers { i with
        rf := { i.rf with readyEntries := rest }
        delivered := i.delivered ++ [entry] }

theorem appendEntries_moves {args : AppendEntriesArgs n Command} (free : i.mu = none)
    (performed : i.appendEntries args = some i') : Moves i (.appendEntries args) i' := by
  obtain ⟨⟨next, reply⟩, handled, rfl⟩ := Option.map_eq_some_iff.mp performed
  rcases Raft.unsent_appendEntries handled with
    ⟨dead, rfl⟩ | ⟨alive, lives, lastApplied, readyEntries, ⟨none, commit⟩ | ⟨one, takes, commit⟩⟩
  · exact .calm free (Raft.Calm.refl i.rf)
  · dsimp only
    rw [if_pos none]
    exact .stores free alive lives ⟨rfl, rfl, lastApplied, readyEntries⟩ commit
  · dsimp only
    rw [if_neg (by omega)]
    exact .notifies free takes lives ⟨rfl, rfl, lastApplied, readyEntries⟩ commit

theorem receiveAppend_moves {call : AppendCall n} {nextIndexForPeer : Nat}
    {args : AppendEntriesArgs n Command} {reply : AppendEntriesReply} (free : i.mu = none)
    (performed : i.receiveAppend call nextIndexForPeer args reply = some i') :
    Moves i (.receiveAppend call nextIndexForPeer args reply) i' := by
  obtain ⟨next, received, rfl⟩ := Option.map_eq_some_iff.mp performed
  rcases Raft.unsent_receiveAppend received with ⟨newer, rfl⟩ | ⟨-, none, calm⟩ |
    ⟨moves, one, alive, log, lastApplied, readyEntries, more, within⟩
  · exact .stepsDown free newer
  · rw [if_pos none]
    refine .calm free ⟨⟨rfl, rfl, calm.lastApplied, calm.readyEntries⟩, calm.log,
      calm.commitIndex, calm.alive, fun dead => ?_⟩
    have rests := calm.dead dead
    exact ⟨rests.state, rests.currentTerm, rests.votedFor, rests.log, rests.storage,
      rests.elections⟩
  · rw [if_neg (by omega)]
    exact .commits free moves alive ⟨rfl, rfl, lastApplied, readyEntries⟩ log more within

theorem submit_moves {command : Command} (free : i.mu = none)
    (performed : i.submit command = some i') : Moves i (.submit command) i' := by
  obtain ⟨⟨next, index⟩, submitted, rfl⟩ := Option.map_eq_some_iff.mp performed
  rcases Raft.submit_cases submitted with ⟨rfl, -, rfl⟩ | ⟨rfl, leads, rfl⟩
  · exact .calm free (Raft.Calm.refl i.rf)
  · dsimp only
    rw [if_neg (by omega)]
    exact .submits free leads

theorem kill_moves (free : i.mu = none) : Moves i .kill i.kill := by
  unfold kill Raft.kill
  split_ifs with dead closed
  · exact .calm free (Raft.Calm.refl i.rf)
  · exact .crashes closed (Or.inr (Or.inr dead))
  · exact .kills free dead (by simpa using closed)

theorem holderSends_moves (performed : i.holderSends = some i') : Moves i .holderSends i' := by
  unfold holderSends at performed
  split at performed
  · cases performed
  · next holder holds =>
    by_cases closed : i.rf.chansClosed = true
    · rw [if_pos closed] at performed
      cases performed
      exact .crashes closed (Or.inl (by simp [holds]))
    · rw [if_neg closed] at performed
      cases holder <;> dsimp only at performed <;> split_ifs at performed with room <;>
        cases performed
      · exact .persists holds room
      · exact .announces holds room
      · exact .triggers holds room

theorem submitSends_moves (performed : i.submitSends = some i') : Moves i .submitSends i' := by
  unfold submitSends at performed
  split_ifs at performed with none closed room
  · cases performed
    exact .crashes closed (Or.inr (Or.inl (Nat.pos_of_ne_zero none)))
  · cases performed
    exact .submitSends (Nat.pos_of_ne_zero none) room

theorem loopLocks_moves {position : Nat} (performed : i.loopLocks position = some i') :
    Moves i (.loopLocks position) i' := by
  obtain ⟨⟨next, calls⟩, turned, performed⟩ := Option.bind_eq_some_iff.mp performed
  obtain ⟨core, elections, -⟩ := Raft.leaderLoop_cases turned
  have calm := Raft.calm_of_core core (congrArg List.length elections) (Raft.Calm.refl i.rf)
  split at performed
  · cases performed
    exact .loops calm le_rfl
  · cases performed
    exact .loops calm le_rfl
  · cases performed

theorem loopWakes_moves {position : Nat} {triggered : Bool}
    (performed : i.loopWakes position triggered = some i') :
    Moves i (.loopWakes position triggered) i' := by
  unfold loopWakes at performed
  split_ifs at performed
  · cases performed
    exact .loops (Raft.Calm.refl i.rf) (Nat.sub_le _ _)
  · cases performed
    exact .loops (Raft.Calm.refl i.rf) le_rfl

theorem loopEnds_moves {position : Nat} (performed : i.loopEnds position = some i') :
    Moves i (.loopEnds position) i' := by
  unfold loopEnds at performed
  split_ifs at performed
  obtain ⟨next, ended, rfl⟩ := Option.map_eq_some_iff.mp performed
  obtain ⟨core, elections⟩ := Raft.leaderLoopClosed_cases ended
  exact .loops (Raft.calm_of_core core (congrArg List.length elections) (Raft.Calm.refl i.rf))
    le_rfl

/-- A step is taken by a process that runs, and it waits for the lock if it takes it. -/
theorem step_performs (taken : i.step action = some i') : i.crashed = false ∧
    (locks action = true → i.mu = none) ∧ i.perform action = some i' := by
  unfold step at taken
  split_ifs at taken with waits
  rw [not_or, not_and] at waits
  refine ⟨by simpa using waits.1, fun takes => ?_, taken⟩
  simpa using waits.2 takes

theorem step_moves (taken : i.step action = some i') : Moves i action i' := by
  obtain ⟨-, free, performed⟩ := step_performs taken
  cases action with
  | requestVote args =>
    cases performed
    exact .calm (free rfl) (Raft.requestVote_calm _ args)
  | appendEntries args => exact appendEntries_moves (free rfl) performed
  | receiveVote call outcome =>
    cases performed
    exact .calm (free rfl) (Raft.receiveVote_calm _ call outcome)
  | receiveAppend call nextIndexForPeer args reply =>
    exact receiveAppend_moves (free rfl) performed
  | timer position expired =>
    obtain ⟨⟨next, calls⟩, fired, rfl⟩ := Option.map_eq_some_iff.mp performed
    exact .calm (free rfl) (Raft.electionTimer_calm fired)
  | submit command => exact submit_moves (free rfl) performed
  | kill =>
    cases performed
    exact kill_moves (free rfl)
  | holderSends => exact holderSends_moves performed
  | submitSends => exact submitSends_moves performed
  | loopLocks position => exact loopLocks_moves performed
  | loopWakes position triggered => exact loopWakes_moves performed
  | loopEnds position => exact loopEnds_moves performed
  | senderReceives =>
    simp only [perform, senderReceives] at performed
    split_ifs at performed with waits
    simp only [not_or, Bool.not_eq_true, not_not] at waits
    cases performed
    exact .receives (Nat.pos_of_ne_zero waits.1) waits.2.1 waits.2.2
  | senderCuts =>
    simp only [perform, senderCuts] at performed
    split_ifs at performed with locked
    obtain ⟨next, cut, rfl⟩ := Option.map_eq_some_iff.mp performed
    have idle := Raft.takeReady_idle cut
    rcases Raft.takeReady_cases cut with ⟨done, rfl⟩ | ⟨more, within, rfl⟩
    · exact .skips (free rfl) locked done
    · exact .cuts (free rfl) locked idle more within
  | senderDelivers =>
    obtain ⟨⟨next, entry⟩, sent, rfl⟩ := Option.map_eq_some_iff.mp performed
    obtain ⟨rest, ready, rfl⟩ := Raft.sendReady_cases sent
    exact .delivers ready

/-! ### Fragments of runs -/

open Cluster (s₀ s₁ s₂)

/-- What the goroutines of an instance do from `Make` with this storage on. -/
def runFrom (id : Fin n) (storage : Storage n Command) (actions : List (InstanceAction n Command)) :
    Option (Instance n Command) :=
  (make id storage).bind fun i => execute step i actions

/-- Server 0 is elected in term 1, and its goroutine has sent the first requests. -/
def elected : List (InstanceAction 3 Command) :=
  [.timer 0 false, .timer 0 true, .receiveVote ⟨s₀, s₁, 1, 0⟩ (some ⟨1, true⟩),
    .receiveVote ⟨s₀, s₂, 1, 0⟩ (some ⟨1, true⟩), .loopLocks 0]

/-- A command is appended, and the goroutine of `startLeader` sends the next requests. -/
def submitted (command : Command) : List (InstanceAction 3 Command) :=
  [.submit command, .submitSends, .loopWakes 0 true, .loopLocks 0, .loopLocks 0]

/-- Server 1 has stored the first entries of the log. -/
def acknowledged (commands : List Command) : InstanceAction 3 Command :=
  .receiveAppend ⟨s₀, s₁, 1⟩ 0 ⟨1, s₀, -1, -1, commands.map fun command => ⟨command, 1⟩, -1⟩
    ⟨1, true, 0, 0⟩

end Instance

end RaftInMotion
