/-
This file says once what each function of an instance can do. Most proofs need to know how a
call changed the protocol state and nothing of the goroutines it started, so the outcomes are
stated on the core of an instance, which leaves the goroutines out.
-/

import Mathlib.Data.Finset.Card
import Mathlib.Data.Fintype.Basic
import RaftInMotion.Model.Raft

namespace RaftInMotion

namespace Raft

variable {n : Nat} {Command : Type} {rf next : Raft n Command}

/-- The instance without its goroutines and without `nextIndex`. -/
@[simps] def core (rf : Raft n Command) : Raft n Command :=
  { rf with
    nextIndex := fun _ => 0
    timers := []
    leaderLoops := []
    elections := [] }

/-- What only `Make` and `commitChanSender` set is the same. -/
structure Aside (rf next : Raft n Command) : Prop where
  id : next.id = rf.id
  lastApplied : next.lastApplied = rf.lastApplied
  readyEntries : next.readyEntries = rf.readyEntries

theorem aside_of_core {other : Raft n Command} (core : next.core = other.core)
    (aside : Aside rf other) : Aside rf next := by
  have id : next.core.id = other.core.id := congrArg Raft.id core
  have lastApplied : next.core.lastApplied = other.core.lastApplied :=
    congrArg Raft.lastApplied core
  have readyEntries : next.core.readyEntries = other.core.readyEntries :=
    congrArg Raft.readyEntries core
  exact ⟨id.trans aside.id, lastApplied.trans aside.lastApplied,
    readyEntries.trans aside.readyEntries⟩

/-! ### Peers -/

theorem mem_peerIds {peer : Fin n} : peer ∈ rf.peerIds ↔ peer ≠ rf.id := by
  simp [peerIds]

theorem nodup_peerIds (rf : Raft n Command) : rf.peerIds.Nodup :=
  (List.nodup_finRange n).filter _

theorem peerIds_length (rf : Raft n Command) : rf.peerIds.length + 1 = n := by
  have same : rf.peerIds = (List.finRange n).erase rf.id := by
    rw [(List.nodup_finRange n).erase_eq_filter rf.id]
    exact List.filter_congr fun peer _ => by rw [bne, beq_eq_decide, decide_not]
  rw [same, List.length_erase_of_mem (List.mem_finRange rf.id), List.length_finRange]
  have := rf.id.pos
  omega

/-- The leader counts itself and the peers that hold the entry as far as it knows. -/
theorem matchCount_eq (rf : Raft n Command) (index : Nat) : rf.matchCount index =
    (Finset.univ.filter fun s => s = rf.id ∨ (index : Int) ≤ rf.matchIndex s).card := by
  have holders : Finset.univ.filter (fun s => s = rf.id ∨ (index : Int) ≤ rf.matchIndex s) =
      insert rf.id (rf.peerIds.filter fun peer => rf.matchIndex peer ≥ index).toFinset := by
    ext s
    by_cases self : s = rf.id <;> simp [self, mem_peerIds]
  have other : rf.id ∉ (rf.peerIds.filter fun peer => rf.matchIndex peer ≥ index).toFinset := by
    simp [mem_peerIds]
  rw [holders, Finset.card_insert_of_notMem other,
    List.toFinset_card_of_nodup ((nodup_peerIds rf).filter _), matchCount, Nat.add_comm]

/-! ### Creation -/

/-- Whatever the storage holds, an instance begins as a follower that has committed nothing. -/
theorem make_cases {s : Fin n} {storage : Storage n Command} (made : make s storage = some rf) :
    rf.id = s ∧ rf.state = .follower ∧ rf.commitIndex = -1 ∧ rf.lastApplied = -1 ∧
      rf.elections = [] ∧ rf.readyEntries = [] := by
  unfold make restoreFromStorage at made
  split_ifs at made with hasData
  · split at made
    · cases made
      exact ⟨rfl, rfl, rfl, rfl, rfl, rfl⟩
    · cases made
  · cases made
    exact ⟨rfl, rfl, rfl, rfl, rfl, rfl⟩

/-- What an instance that is created from a storage takes over from it. -/
theorem make_saved {s : Fin n} {storage : Storage n Command}
    (made : make s storage = some next) :
    next.currentTerm = storage.currentTerm.getD 0 ∧ next.votedFor = storage.votedFor.getD none ∧
      next.log = storage.log.getD [] ∧ next.storage = storage := by
  unfold make restoreFromStorage at made
  split_ifs at made with hasData
  · split at made
    · next held =>
      cases made
      simp only [blank_storage] at held
      rw [held]
      exact ⟨rfl, rfl, rfl, rfl⟩
    · cases made
  · cases made
    obtain ⟨term, vote, log⟩ : storage.currentTerm = none ∧ storage.votedFor = none ∧
        storage.log = none := by
      simpa [Storage.hasData, and_assoc] using hasData
    rw [term, vote, log]
    exact ⟨rfl, rfl, rfl, rfl⟩

/-! ### Timers and loops -/

theorem electionTimer_cases {position : Nat} {expired : Bool} {calls : List (VoteCall n)}
    (fired : rf.electionTimer position expired = some (next, calls)) :
    (next.core = rf.core ∧ next.elections = rf.elections ∧ calls = []) ∨
      ((rf.state = .candidate ∨ rf.state = .follower) ∧
        next.core = rf.startElection.1.core ∧
        next.elections = rf.startElection.1.elections ∧ calls = rf.startElection.2) := by
  unfold electionTimer at fired
  split at fired
  · cases fired
  · cases fired
    exact Or.inl ⟨rfl, rfl, rfl⟩
  · split_ifs at fired with stopped outdated expires
    · cases fired
      exact Or.inl ⟨rfl, rfl, rfl⟩
    · cases fired
      exact Or.inl ⟨rfl, rfl, rfl⟩
    · cases fired
      refine Or.inr ⟨?_, rfl, rfl, rfl⟩
      by_contra neither
      exact stopped (not_or.mp neither)
    · cases fired
      exact Or.inl ⟨rfl, rfl, rfl⟩

theorem leaderLoop_cases {position : Nat} {calls : List (AppendCall n)}
    (turned : rf.leaderLoop position = some (next, calls)) :
    next.core = rf.core ∧ next.elections = rf.elections ∧
      (calls = [] ∨ calls = rf.leaderSendHeartbeats) := by
  unfold leaderLoop at turned
  split at turned
  · cases turned
  · cases turned
    exact ⟨rfl, rfl, Or.inr rfl⟩
  · split_ifs at turned <;> cases turned <;> exact ⟨rfl, rfl, Or.inl rfl⟩

theorem leaderLoopClosed_cases {position : Nat}
    (ended : rf.leaderLoopClosed position = some next) :
    next.core = rf.core ∧ next.elections = rf.elections := by
  unfold leaderLoopClosed at ended
  split_ifs at ended
  cases ended
  exact ⟨rfl, rfl⟩

/-! ### Votes -/

/-- The reply makes the candidate become a follower in the term of the reply. -/
def stepsDown (rf : Raft n Command) (call : VoteCall n) (reply : RequestVoteReply) : Bool :=
  rf.state = .candidate && call.savedCurrentTerm < reply.term

/-- The outcome is a vote of the term of the election. -/
def votes (call : VoteCall n) (outcome : Option RequestVoteReply) : Bool :=
  outcome.any fun reply => reply.term = call.savedCurrentTerm && reply.voteGranted

/-- The votes of an election once an outcome is counted, with the candidate's own. -/
def votesAfter (rf : Raft n Command) (call : VoteCall n) (outcome : Option RequestVoteReply) :
    Nat :=
  (rf.elections.getD call.election ⟨0, 0⟩).votesReceived + (if votes call outcome then 1 else 0) + 1

/-- The outcome is the last one of its election, and it makes the candidate start to lead. -/
def wins (rf : Raft n Command) (call : VoteCall n) (outcome : Option RequestVoteReply) : Bool :=
  rf.state = .candidate && !outcome.any (rf.stepsDown call) &&
    (rf.elections.getD call.election ⟨0, 0⟩).repliesNeeded = 1 &&
    rf.votesAfter call outcome * 2 > rf.peerIds.length + 1

theorem countReply_of_stepsDown {call : VoteCall n} {reply : RequestVoteReply} {votes : Nat}
    (down : rf.stepsDown call reply = true) :
    rf.countReply call votes (some reply) = (rf.becomeFollower reply.term, votes) := by
  obtain ⟨runs, above⟩ : rf.state = .candidate ∧ call.savedCurrentTerm < reply.term := by
    simpa [stepsDown] using down
  simp [countReply, runs, above]

/-- A vote is counted while the server is a candidate and does not step down. -/
theorem countReply_of_stays {call : VoteCall n} {outcome : Option RequestVoteReply} {count : Nat}
    (stays : outcome.any (rf.stepsDown call) = false) :
    rf.countReply call count outcome =
      (rf, count + if rf.state = .candidate ∧ votes call outcome then 1 else 0) := by
  cases outcome with
  | none => simp [countReply, votes]
  | some reply =>
    by_cases runs : rf.state = .candidate
    · have notAbove : ¬ call.savedCurrentTerm < reply.term := by
        simpa [stepsDown, runs] using stays
      by_cases counts : reply.term = call.savedCurrentTerm ∧ reply.voteGranted = true <;>
        simp [countReply, votes, runs, notAbove, counts]
    · simp [countReply, runs]

theorem conclude_core (votesReceived : Nat) : (rf.conclude votesReceived).core =
    if rf.state = .candidate ∧ votesReceived * 2 > rf.peerIds.length + 1 then rf.startLeader.core
    else rf.core := by
  unfold conclude
  split_ifs <;> rfl

theorem conclude_elections (votesReceived : Nat) :
    (rf.conclude votesReceived).elections = rf.elections := by
  unfold conclude
  split_ifs <;> rfl

theorem receiveVote_of_stepsDown {call : VoteCall n} {reply : RequestVoteReply}
    (down : rf.stepsDown call reply = true) :
    (rf.receiveVote call (some reply)).core = (rf.becomeFollower reply.term).core := by
  simp only [receiveVote, countReply_of_stepsDown down]
  split_ifs with last
  · rw [conclude_core, if_neg fun won => by cases won.1]
    rfl
  · rfl

theorem wins_iff {call : VoteCall n} {outcome : Option RequestVoteReply}
    (stays : outcome.any (rf.stepsDown call) = false) :
    rf.wins call outcome = true ↔ rf.state = .candidate ∧
      (rf.elections.getD call.election ⟨0, 0⟩).repliesNeeded = 1 ∧
      rf.peerIds.length + 1 < rf.votesAfter call outcome * 2 := by
  simp [wins, stays, and_assoc]

/-- A candidate that does not step down starts to lead when the outcome wins the election. -/
theorem receiveVote_of_stays {call : VoteCall n} {outcome : Option RequestVoteReply}
    (stays : outcome.any (rf.stepsDown call) = false) :
    (rf.receiveVote call outcome).core =
      if rf.wins call outcome then rf.startLeader.core else rf.core := by
  have winning := wins_iff stays
  unfold votesAfter at winning
  unfold receiveVote
  dsimp only
  rw [countReply_of_stays stays]
  dsimp only
  by_cases last : (rf.elections.getD call.election ⟨0, 0⟩).repliesNeeded = 1
  · rw [if_pos (by omega), conclude_core]
    refine if_congr ⟨fun won => ?_, fun wins => ?_⟩ rfl rfl
    · have runs : rf.state = .candidate := won.1
      exact winning.mpr ⟨runs, last, by simpa [runs, peerIds] using won.2⟩
    · obtain ⟨runs, -, enough⟩ := winning.mp wins
      exact ⟨runs, by simpa [runs, peerIds] using enough⟩
  · rw [if_neg (by omega), if_neg fun wins => last (winning.mp wins).2.1]
    rfl

/-- The counters of the election the outcome belongs to move, and no other ones. -/
theorem receiveVote_elections (rf : Raft n Command) (call : VoteCall n)
    (outcome : Option RequestVoteReply) :
    ∃ count, (rf.receiveVote call outcome).elections = rf.elections.set call.election
        ⟨count, (rf.elections.getD call.election ⟨0, 0⟩).repliesNeeded - 1⟩ ∧
      (1 < (rf.elections.getD call.election ⟨0, 0⟩).repliesNeeded →
        count = (rf.elections.getD call.election ⟨0, 0⟩).votesReceived ∨
          votes call outcome = true ∧
          count = (rf.elections.getD call.election ⟨0, 0⟩).votesReceived + 1) := by
  have counted : ∀ count, (rf.countReply call count outcome).1.elections = rf.elections ∧
      ((rf.countReply call count outcome).2 = count ∨ votes call outcome = true ∧
        (rf.countReply call count outcome).2 = count + 1) := by
    intro count
    by_cases stays : outcome.any (rf.stepsDown call) = false
    · rw [countReply_of_stays stays]
      refine ⟨rfl, ?_⟩
      split_ifs with counts
      · exact Or.inr ⟨counts.2, rfl⟩
      · exact Or.inl rfl
    · obtain ⟨reply, rfl, down⟩ := (Option.any_eq_true _ _).mp (by simpa using stays)
      rw [countReply_of_stepsDown down]
      exact ⟨rfl, Or.inl rfl⟩
  obtain ⟨same, counts⟩ := counted (rf.elections.getD call.election ⟨0, 0⟩).votesReceived
  unfold receiveVote
  dsimp only
  split_ifs with last
  · rw [conclude_elections, same]
    exact ⟨_, rfl, fun more => by omega⟩
  · rw [same]
    exact ⟨_, rfl, fun _ => counts⟩

/-- What a request for a vote does to a server that is alive. -/
theorem requestVote_cases (args : RequestVoteArgs n) (alive : rf.state ≠ .dead) :
    (rf.requestVote args = ((rf.meetTerm args.term).persistToStorage,
      { term := (rf.meetTerm args.term).currentTerm, voteGranted := false })) ∨
    (rf.meetTerm args.term).currentTerm = args.term ∧
      ((rf.meetTerm args.term).votedFor = none ∨
        (rf.meetTerm args.term).votedFor = some args.candidateId) ∧
      rf.upToDate args = true ∧
      rf.requestVote args =
        ({ rf.meetTerm args.term with votedFor := some args.candidateId }.persistToStorage,
          { term := args.term, voteGranted := true }) := by
  unfold requestVote
  rw [if_neg alive]
  dsimp only
  split_ifs with grants
  · refine Or.inr ⟨grants.1, grants.2.1, grants.2.2, ?_⟩
    rw [grants.1]
  · exact Or.inl rfl

theorem requestVote_of_dead (args : RequestVoteArgs n) (dead : rf.state = .dead) :
    rf.requestVote args = (rf, {}) := by
  simp [requestVote, dead]

theorem requestVote_elections (args : RequestVoteArgs n) :
    (rf.requestVote args).1.elections = rf.elections := by
  unfold requestVote meetTerm
  dsimp only
  split_ifs <;> rfl

theorem requestVote_aside (args : RequestVoteArgs n) : Aside rf (rf.requestVote args).1 := by
  unfold requestVote meetTerm
  dsimp only
  split_ifs <;> exact ⟨rfl, rfl, rfl⟩

/-! ### Requests to append -/

/-- The server as a follower of a term it has reached. -/
def heed (rf : Raft n Command) (term : Nat) : Raft n Command :=
  if rf.currentTerm < term ∨ rf.state ≠ .follower then rf.becomeFollower term else rf

/-- The entries of a request are stored, and its `LeaderCommit` is taken over. -/
def store (rf : Raft n Command) (args : AppendEntriesArgs n Command) (prevLogIndex : Nat) :
    Raft n Command :=
  let log := insertEntries rf.log prevLogIndex args.entries
  if args.leaderCommit > rf.commitIndex then
    { rf with
      log := log
      commitIndex := min args.leaderCommit (log.length - 1)
      newCommitReady := rf.newCommitReady + 1 }
  else { rf with log := log }

/-- The request is accepted and makes the log shorter. -/
def cuts (rf : Raft n Command) (args : AppendEntriesArgs n Command) : Bool :=
  rf.state ≠ .dead && rf.currentTerm ≤ args.term && 0 ≤ args.prevLogIndex &&
    (rf.log[args.prevLogIndex.toNat]?.map fun held => (held.term : Int)) = some args.prevLogTerm &&
    (insertEntries rf.log args.prevLogIndex.toNat args.entries).length < rf.log.length

/-- The request is of a term the server has not left and starts behind an entry that the server
holds, and its notification does not panic. -/
def accepts (rf : Raft n Command) (args : AppendEntriesArgs n Command) : Bool :=
  rf.state ≠ .dead && rf.currentTerm ≤ args.term && 0 ≤ args.prevLogIndex &&
    (rf.log[args.prevLogIndex.toNat]?.map fun held => (held.term : Int)) = some args.prevLogTerm &&
    !(rf.commitIndex < args.leaderCommit && rf.chansClosed)

/-- What a request to append can do. -/
inductive AppendOutcome (rf : Raft n Command) (args : AppendEntriesArgs n Command) :
    Raft n Command → AppendEntriesReply → Prop
  | dead (gone : rf.state = .dead) : AppendOutcome rf args rf {}
  | stale (alive : rf.state ≠ .dead) (older : args.term < rf.currentTerm) (next : Raft n Command)
      (reply : AppendEntriesReply) (same : next = rf ∨ next = rf.persistToStorage)
      (term : reply.term = rf.currentTerm) (fails : reply.success = false) :
      AppendOutcome rf args next reply
  | reject (alive : rf.state ≠ .dead) (reached : rf.currentTerm ≤ args.term)
      (reply : AppendEntriesReply) (term : reply.term = args.term)
      (fails : reply.success = false) :
      AppendOutcome rf args (rf.heed args.term).persistToStorage reply
  | blank (alive : rf.state ≠ .dead) (reached : rf.currentTerm ≤ args.term)
      (reply : AppendEntriesReply) (term : reply.term = args.term)
      (first : args.prevLogIndex = -1) (empty : rf.log = []) :
      AppendOutcome rf args (rf.heed args.term).persistToStorage reply
  | accept (alive : rf.state ≠ .dead) (reached : rf.currentTerm ≤ args.term)
      (reply : AppendEntriesReply) (term : reply.term = args.term)
      (prevLogIndex : Nat) (position : args.prevLogIndex = prevLogIndex)
      (held : LogEntry Command) (found : rf.log[prevLogIndex]? = some held)
      (same : args.prevLogTerm = held.term)
      (live : args.leaderCommit > rf.commitIndex → rf.chansClosed = false) :
      AppendOutcome rf args ((rf.heed args.term).store args prevLogIndex).persistToStorage reply

theorem heed_currentTerm {term : Nat} (reached : rf.currentTerm ≤ term) :
    (rf.heed term).currentTerm = term := by
  unfold heed
  split_ifs with follows
  · rfl
  · simp only [not_or, not_lt] at follows
    omega

theorem heed_state (rf : Raft n Command) (term : Nat) : (rf.heed term).state = .follower := by
  unfold heed
  split_ifs with follows
  · rfl
  · simpa using (not_or.mp follows).2

theorem heed_log (rf : Raft n Command) (term : Nat) : (rf.heed term).log = rf.log := by
  unfold heed
  split_ifs <;> rfl

theorem heed_commitIndex (rf : Raft n Command) (term : Nat) :
    (rf.heed term).commitIndex = rf.commitIndex := by
  unfold heed
  split_ifs <;> rfl

theorem heed_chansClosed (rf : Raft n Command) (term : Nat) :
    (rf.heed term).chansClosed = rf.chansClosed := by
  unfold heed
  split_ifs <;> rfl

theorem heed_id (rf : Raft n Command) (term : Nat) : (rf.heed term).id = rf.id := by
  unfold heed
  split_ifs <;> rfl

theorem heed_nextIndex (rf : Raft n Command) (term : Nat) :
    (rf.heed term).nextIndex = rf.nextIndex := by
  unfold heed
  split_ifs <;> rfl

theorem store_id (args : AppendEntriesArgs n Command) (prevLogIndex : Nat) :
    (rf.store args prevLogIndex).id = rf.id := by
  unfold store
  dsimp only
  split_ifs <;> rfl

theorem store_state (args : AppendEntriesArgs n Command) (prevLogIndex : Nat) :
    (rf.store args prevLogIndex).state = rf.state := by
  unfold store
  dsimp only
  split_ifs <;> rfl

theorem store_nextIndex (args : AppendEntriesArgs n Command) (prevLogIndex : Nat) :
    (rf.store args prevLogIndex).nextIndex = rf.nextIndex := by
  unfold store
  dsimp only
  split_ifs <;> rfl

theorem store_chansClosed (args : AppendEntriesArgs n Command) (prevLogIndex : Nat) :
    (rf.store args prevLogIndex).chansClosed = rf.chansClosed := by
  unfold store
  dsimp only
  split_ifs <;> rfl

theorem store_currentTerm (args : AppendEntriesArgs n Command) (prevLogIndex : Nat) :
    (rf.store args prevLogIndex).currentTerm = rf.currentTerm := by
  unfold store
  dsimp only
  split_ifs <;> rfl

theorem store_votedFor (args : AppendEntriesArgs n Command) (prevLogIndex : Nat) :
    (rf.store args prevLogIndex).votedFor = rf.votedFor := by
  unfold store
  dsimp only
  split_ifs <;> rfl

theorem store_log (args : AppendEntriesArgs n Command) (prevLogIndex : Nat) :
    (rf.store args prevLogIndex).log = insertEntries rf.log prevLogIndex args.entries := by
  unfold store
  dsimp only
  split_ifs <;> rfl

/-- The `commitIndex` of a request is taken over as far as the log reaches. -/
theorem store_commitIndex (args : AppendEntriesArgs n Command) (prevLogIndex : Nat) :
    (rf.store args prevLogIndex).commitIndex = rf.commitIndex ∨
      rf.commitIndex < args.leaderCommit ∧ (rf.store args prevLogIndex).commitIndex =
        min args.leaderCommit ((rf.store args prevLogIndex).log.length - 1) := by
  unfold store
  dsimp only
  split_ifs with more
  · exact Or.inr ⟨more, rfl⟩
  · exact Or.inl rfl

theorem meetTerm_of_reached {term : Nat} (reached : rf.currentTerm ≤ term) :
    (rf.meetTerm term).currentTerm = term ∧
      (if (rf.meetTerm term).state ≠ .follower then (rf.meetTerm term).becomeFollower term
        else rf.meetTerm term) = rf.heed term := by
  unfold meetTerm heed
  by_cases newer : rf.currentTerm < term
  · simp [newer]
  · simp only [newer, if_false, false_or, and_true]
    omega

/-- A request of the term of the server, or of a later one, is not turned away. -/
theorem appendEntries_of_reached {args : AppendEntriesArgs n Command} (alive : rf.state ≠ .dead)
    (reached : rf.currentTerm ≤ args.term) :
    rf.appendEntries args = (rf.meetTerm args.term).appendCurrent args := by
  simp [appendEntries, alive, (meetTerm_of_reached reached).1]

theorem appendStale_cases (rf : Raft n Command) (args : AppendEntriesArgs n Command) :
    ((rf.appendStale args).1 = rf ∨ (rf.appendStale args).1 = rf.persistToStorage) ∧
      (rf.appendStale args).2.term = rf.currentTerm ∧ (rf.appendStale args).2.success = false := by
  unfold appendStale
  dsimp only
  split_ifs <;> simp

theorem appendCurrent_outcome {args : AppendEntriesArgs n Command} {reply : AppendEntriesReply}
    (alive : rf.state ≠ .dead) (reached : rf.currentTerm ≤ args.term)
    (handled : (rf.meetTerm args.term).appendCurrent args = some (next, reply)) :
    AppendOutcome rf args next reply := by
  obtain ⟨same, heeds⟩ := meetTerm_of_reached reached
  unfold appendCurrent at handled
  dsimp only at handled
  rw [heeds, same] at handled
  by_cases first : args.prevLogIndex = -1
  · rw [if_pos first] at handled
    split at handled
    · next empty =>
      cases handled
      exact .blank alive reached _ rfl first ((heed_log rf args.term).symm.trans empty)
    · cases handled
      exact .reject alive reached _ rfl rfl
  by_cases negative : args.prevLogIndex < 0
  · rw [if_neg first, if_pos negative] at handled
    cases handled
  rw [if_neg first, if_neg negative] at handled
  have position : args.prevLogIndex = args.prevLogIndex.toNat := by omega
  split at handled
  · cases handled
    exact .reject alive reached _ rfl rfl
  next held found =>
  rw [heed_log] at found
  split_ifs at handled with matching more
  · rw [heed_commitIndex] at more
    simp only [notifyCommit, heed_chansClosed, Option.bind_eq_bind, Option.bind_eq_some_iff]
      at handled
    obtain ⟨notified, opened, handled⟩ := handled
    split_ifs at opened with closed
    cases opened
    cases handled
    have live : rf.chansClosed = false := by simpa using closed
    have stored := AppendOutcome.accept alive reached { term := args.term, success := true } rfl _
      position held found matching (fun _ => live)
    simpa [store, heed_commitIndex, heed_chansClosed, more] using stored
  · rw [heed_commitIndex] at more
    cases handled
    have stored := AppendOutcome.accept alive reached { term := args.term, success := true } rfl _
      position held found matching (fun above => absurd above more)
    simpa [store, heed_commitIndex, more] using stored
  · cases handled
    exact .reject alive reached _ rfl rfl

theorem appendEntries_outcome {args : AppendEntriesArgs n Command} {reply : AppendEntriesReply}
    (handled : rf.appendEntries args = some (next, reply)) : AppendOutcome rf args next reply := by
  unfold appendEntries at handled
  dsimp only at handled
  split_ifs at handled with gone current
  · cases handled
    exact .dead gone
  · refine appendCurrent_outcome gone ?_ handled
    unfold meetTerm at current
    split_ifs at current with newer
    · exact newer.le
    · exact current.ge
  · -- The request is of a term the server has left.
    obtain ⟨same, older⟩ : rf.meetTerm args.term = rf ∧ args.term < rf.currentTerm := by
      unfold meetTerm at current ⊢
      split_ifs at current ⊢ with newer
      · exact absurd rfl current
      · exact ⟨rfl, by omega⟩
    rw [same, Option.some_inj] at handled
    obtain ⟨kept, term, fails⟩ := rf.appendStale_cases args
    rw [handled] at kept term fails
    exact .stale gone older _ _ kept term fails

theorem appendEntries_elections {args : AppendEntriesArgs n Command}
    {reply : AppendEntriesReply} (handled : rf.appendEntries args = some (next, reply)) :
    next.elections = rf.elections := by
  have heeds : (rf.heed args.term).elections = rf.elections := by
    unfold heed
    split_ifs <;> rfl
  cases appendEntries_outcome handled with
  | dead gone => rfl
  | stale alive older _ _ same term fails => rcases same with rfl | rfl <;> rfl
  | reject alive reached _ term fails => exact heeds
  | blank alive reached _ term first empty => exact heeds
  | accept alive reached _ term prevLogIndex position held found same live =>
    rw [persistToStorage_elections, store]
    split_ifs <;> exact heeds

theorem appendEntries_aside {args : AppendEntriesArgs n Command} {reply : AppendEntriesReply}
    (handled : rf.appendEntries args = some (next, reply)) : Aside rf next := by
  have heeds : Aside rf (rf.heed args.term) := by
    unfold heed
    split_ifs <;> exact ⟨rfl, rfl, rfl⟩
  cases appendEntries_outcome handled with
  | dead gone => exact ⟨rfl, rfl, rfl⟩
  | stale alive older _ _ same term fails => rcases same with rfl | rfl <;> exact ⟨rfl, rfl, rfl⟩
  | reject alive reached _ term fails => exact ⟨heeds.id, heeds.lastApplied, heeds.readyEntries⟩
  | blank alive reached _ term first empty =>
    exact ⟨heeds.id, heeds.lastApplied, heeds.readyEntries⟩
  | accept alive reached _ term prevLogIndex position held found same live =>
    unfold store
    dsimp only
    split_ifs <;> exact ⟨heeds.id, heeds.lastApplied, heeds.readyEntries⟩

/-- No index of the handler is out of range. -/
theorem appendEntries_isSome {args : AppendEntriesArgs n Command} (opened : rf.chansClosed = false)
    (bounded : -1 ≤ args.prevLogIndex) : (rf.appendEntries args).isSome = true := by
  by_cases alive : rf.state = .dead
  · simp [appendEntries, alive]
  by_cases older : args.term < rf.currentTerm
  · have stays : rf.meetTerm args.term = rf := if_neg (by omega)
    simp [appendEntries, alive, stays, older.ne]
  have reached := not_lt.mp older
  obtain ⟨current, heeds⟩ := meetTerm_of_reached reached
  rw [appendEntries_of_reached alive reached, appendCurrent, heeds, current]
  dsimp only
  split_ifs with first negative more
  · split <;> rfl
  · omega
  · split
    · rfl
    · split_ifs
      · simp [notifyCommit, heed_chansClosed, opened]
      · rfl
  · split
    · rfl
    · split_ifs <;> rfl

theorem appendEntries_first (args : AppendEntriesArgs n Command) (alive : rf.state ≠ .dead)
    (reached : rf.currentTerm ≤ args.term) (first : args.prevLogIndex = -1) :
    rf.appendEntries args = some ((rf.heed args.term).persistToStorage,
      match rf.log with
      | [] => { term := args.term, success := true }
      | entry :: _ => { term := args.term, conflictTerm := entry.term }) := by
  obtain ⟨same, heeds⟩ := meetTerm_of_reached reached
  rw [appendEntries_of_reached alive reached, appendCurrent, heeds, same]
  dsimp only
  rw [if_pos first, heed_log]
  cases rf.log <;> rfl

theorem appendEntries_refuses (args : AppendEntriesArgs n Command) {index : Nat}
    (alive : rf.state ≠ .dead) (reached : rf.currentTerm ≤ args.term)
    (position : args.prevLogIndex = index)
    (differs : ∀ entry, rf.log[index]? = some entry → args.prevLogTerm ≠ entry.term) :
    rf.appendEntries args = some ((rf.heed args.term).persistToStorage, { term := args.term }) := by
  obtain ⟨same, heeds⟩ := meetTerm_of_reached reached
  rw [appendEntries_of_reached alive reached, appendCurrent, heeds, same]
  dsimp only
  rw [if_neg (by omega), if_neg (by omega), heed_log, position, Int.toNat_natCast]
  cases found : rf.log[index]? with
  | none => rfl
  | some entry => simp [differs entry found]

/-- Behind a matching previous entry the entries are stored, unless the notification panics. -/
theorem appendEntries_matches (args : AppendEntriesArgs n Command) {index : Nat}
    {entry : LogEntry Command} (alive : rf.state ≠ .dead) (reached : rf.currentTerm ≤ args.term)
    (position : args.prevLogIndex = index) (found : rf.log[index]? = some entry)
    (same : args.prevLogTerm = entry.term) :
    rf.appendEntries args =
      if rf.commitIndex < args.leaderCommit ∧ rf.chansClosed = true then none
      else some (((rf.heed args.term).store args index).persistToStorage,
        { term := args.term, success := true }) := by
  obtain ⟨current, heeds⟩ := meetTerm_of_reached reached
  rw [appendEntries_of_reached alive reached, appendCurrent, heeds, current]
  dsimp only
  rw [if_neg (by omega), if_neg (by omega), heed_log, position, Int.toNat_natCast, found]
  dsimp only
  rw [if_pos same, heed_commitIndex]
  by_cases more : rf.commitIndex < args.leaderCommit
  · cases closed : rf.chansClosed <;>
      simp [more, notifyCommit, heed_chansClosed, closed, store, heed_log, heed_commitIndex]
  · simp [more, store, heed_log, heed_commitIndex]

theorem appendEntries_accepts (args : AppendEntriesArgs n Command) {index : Nat}
    {entry : LogEntry Command} (alive : rf.state ≠ .dead) (reached : rf.currentTerm ≤ args.term)
    (opened : rf.commitIndex < args.leaderCommit → rf.chansClosed = false)
    (position : args.prevLogIndex = index) (found : rf.log[index]? = some entry)
    (same : args.prevLogTerm = entry.term) :
    rf.appendEntries args = some (((rf.heed args.term).store args index).persistToStorage,
      { term := args.term, success := true }) := by
  rw [appendEntries_matches args alive reached position found same, if_neg]
  rintro ⟨more, closed⟩
  rw [opened more] at closed
  cases closed

theorem appendEntries_of_accepts {args : AppendEntriesArgs n Command}
    (accepts : rf.accepts args = true) : ∃ held next reply,
      rf.log[args.prevLogIndex.toNat]? = some held ∧
        rf.appendEntries args = some (next, reply) ∧
        next.log = insertEntries rf.log args.prevLogIndex.toNat args.entries ∧
        next.currentTerm = args.term := by
  simp only [Raft.accepts, Bool.and_eq_true, decide_eq_true_eq, Bool.not_eq_true',
    Option.map_eq_some_iff] at accepts
  obtain ⟨⟨⟨⟨alive, reached⟩, behind⟩, held, found, same⟩, live⟩ := accepts
  refine ⟨held, _, _, found, appendEntries_accepts args alive reached ?_
    (Int.toNat_of_nonneg behind).symm found same.symm, ?_, ?_⟩
  · intro more
    simpa [more] using live
  · rw [persistToStorage_log, store_log, heed_log]
  · rw [persistToStorage_currentTerm, store_currentTerm, heed_currentTerm reached]

/-! ### Replies to requests to append -/

/-- The leader either keeps its `commitIndex` or moves it forward to a countable index. -/
theorem advanceCommit_cases (rf : Raft n Command) :
    rf.advanceCommit = rf.commitIndex ∨ ∃ index : Nat, rf.advanceCommit = index ∧
      rf.commitIndex < index ∧ index < rf.log.length ∧ rf.countable index = true := by
  refine List.foldlRecOn (motive := fun commitIndex => commitIndex = rf.commitIndex ∨
    ∃ index : Nat, commitIndex = index ∧ rf.commitIndex < index ∧ index < rf.log.length ∧
      rf.countable index = true) (List.range rf.log.length) _ (Or.inl rfl) ?_
  intro commitIndex old index member
  split_ifs with counts
  · obtain ⟨above, counted⟩ : rf.commitIndex < index ∧ rf.countable index = true := by
      simpa using counts
    exact Or.inr ⟨index, rfl, above, List.mem_range.mp member, counted⟩
  · exact old

theorem receiveAppend_cases {call : AppendCall n} {nextIndexForPeer : Nat}
    {args : AppendEntriesArgs n Command} {reply : AppendEntriesReply}
    (received : rf.receiveAppend call nextIndexForPeer args reply = some next) :
    rf.currentTerm < reply.term ∧ next = rf.becomeFollower reply.term ∨
    reply.term ≤ rf.currentTerm ∧ next.core = rf.core ∧ next.elections = rf.elections ∨
    reply.term ≤ rf.currentTerm ∧ rf.state = .leader ∧ call.savedCurrentTerm = reply.term ∧
      reply.success = true ∧ ∃ matched ready,
        matched = rf.acknowledge call.peer (nextIndexForPeer + args.entries.length) ∧
        next = { matched with commitIndex := matched.advanceCommit, newCommitReady := ready } ∧
        (matched.advanceCommit ≠ rf.commitIndex → rf.chansClosed = false) := by
  unfold receiveAppend at received
  dsimp only at received
  split_ifs at received with newer leads succeeds moves
  · cases received
    exact Or.inl ⟨newer, rfl⟩
  · unfold notifyCommit at received
    split_ifs at received with closed
    cases received
    exact Or.inr (Or.inr ⟨by omega, leads.1, leads.2, succeeds, _, _, rfl, rfl,
      fun _ => by simpa [acknowledge] using closed⟩)
  · cases received
    refine Or.inr (Or.inr ⟨by omega, leads.1, leads.2, succeeds, _, rf.newCommitReady, rfl, ?_,
      fun moved => absurd moved moves⟩)
    rw [not_not.mp moves]
    rfl
  · cases received
    exact Or.inr (Or.inl ⟨by omega, rfl, rfl⟩)
  · cases received
    exact Or.inr (Or.inl ⟨by omega, rfl, rfl⟩)

theorem receiveAppend_elections {call : AppendCall n} {nextIndexForPeer : Nat}
    {args : AppendEntriesArgs n Command} {reply : AppendEntriesReply}
    (received : rf.receiveAppend call nextIndexForPeer args reply = some next) :
    next.elections = rf.elections := by
  rcases receiveAppend_cases received with ⟨-, rfl⟩ | ⟨-, -, same⟩ | ⟨-, -, -, -, _, _, rfl, rfl, -⟩
  · rfl
  · exact same
  · rfl

/-- A request carries the log of its sender from the index behind `PrevLogIndex` on. -/
theorem appendEntriesArgs_fields {call : AppendCall n}
    {built : Nat × AppendEntriesArgs n Command}
    (isBuilt : rf.appendEntriesArgs call = some built) :
    built.1 ≤ rf.log.length ∧ built.2.term = call.savedCurrentTerm ∧ built.2.leaderId = rf.id ∧
      built.2.prevLogIndex = built.1 - 1 ∧ built.2.entries = rf.log.drop built.1 ∧
      built.2.leaderCommit = rf.commitIndex := by
  unfold appendEntriesArgs at isBuilt
  dsimp only at isBuilt
  split_ifs at isBuilt with within
  cases isBuilt
  exact ⟨within, rfl, rfl, rfl, rfl, rfl⟩

/-- A request that starts behind an entry carries the term of an entry of the sender. -/
theorem appendEntriesArgs_previous {call : AppendCall n}
    {built : Nat × AppendEntriesArgs n Command} (isBuilt : rf.appendEntriesArgs call = some built)
    (behind : 0 ≤ built.2.prevLogIndex) :
    ∃ entry ∈ rf.log, built.2.prevLogTerm = entry.term := by
  unfold appendEntriesArgs at isBuilt
  dsimp only at isBuilt
  split_ifs at isBuilt with within
  cases isBuilt
  dsimp only at behind ⊢
  split
  · next previous last =>
    exact ⟨previous, List.mem_of_mem_take (List.mem_of_getLast? last), rfl⟩
  · next empty =>
    have length := congrArg List.length (List.getLast?_eq_none_iff.mp empty)
    rw [List.length_take] at length
    simp only [List.length_nil] at length
    omega

theorem mem_leaderSendHeartbeats {call : AppendCall n} (member : call ∈ rf.leaderSendHeartbeats) :
    rf.state = .leader ∧ call.leader = rf.id ∧ call.peer ≠ rf.id ∧
      call.savedCurrentTerm = rf.currentTerm := by
  unfold leaderSendHeartbeats at member
  split_ifs at member with follows
  · cases member
  · obtain ⟨peer, isPeer, rfl⟩ := List.mem_map.mp member
    exact ⟨not_not.mp follows, rfl, mem_peerIds.mp isPeer, rfl⟩

/-! ### The service side -/

theorem submit_cases {command : Command} {index : Int}
    (submitted : rf.submit command = some (next, index)) :
    next = rf ∧ rf.state ≠ .leader ∧ index = -1 ∨
    next = { rf with log := rf.log ++ [LogEntry.mk command rf.currentTerm] }.persistToStorage ∧
      rf.state = .leader ∧ index = rf.log.length := by
  unfold submit at submitted
  split_ifs at submitted with follows closed
  · cases submitted
    exact Or.inl ⟨rfl, follows, rfl⟩
  · cases submitted
    exact Or.inr ⟨rfl, not_not.mp follows, rfl⟩

theorem takeReady_cases (taken : rf.takeReady = some next) :
    rf.commitIndex ≤ rf.lastApplied ∧
      next = { rf with newCommitReady := rf.newCommitReady - 1 } ∨
    rf.lastApplied < rf.commitIndex ∧ rf.commitIndex < rf.log.length ∧
      next = { rf with
        newCommitReady := rf.newCommitReady - 1
        readyEntries := rf.committedBatch
        lastApplied := rf.commitIndex } := by
  unfold takeReady at taken
  split_ifs at taken with waits more within
  · cases taken
    exact Or.inr ⟨more, within, rfl⟩
  · cases taken
    exact Or.inl ⟨by omega, rfl⟩

/-- A batch is cut only when the last one has been sent. -/
theorem takeReady_idle (taken : rf.takeReady = some next) : rf.readyEntries = [] := by
  unfold takeReady at taken
  split_ifs at taken with waits
  all_goals exact not_not.mp (not_or.mp waits).2

theorem committedBatch_length (within : rf.commitIndex < rf.log.length) :
    rf.committedBatch.length = (rf.commitIndex + 1).toNat - (rf.lastApplied + 1).toNat := by
  unfold committedBatch
  rw [List.length_mapIdx, List.length_drop, List.length_take, Nat.min_eq_left (by omega)]

/-- A batch goes on from what has been applied. -/
theorem committedBatch_spec {position : Nat} {entry : CommitEntry Command}
    (found : rf.committedBatch[position]? = some entry) :
    ∃ held, (rf.log.take (rf.commitIndex + 1).toNat)[(rf.lastApplied + 1).toNat + position]? =
        some held ∧
      entry.command = held.command ∧ entry.index = rf.lastApplied + position + 1 := by
  unfold committedBatch at found
  rw [List.getElem?_mapIdx, List.getElem?_drop] at found
  obtain ⟨held, inLog, rfl⟩ := Option.map_eq_some_iff.mp found
  exact ⟨held, inLog, rfl, rfl⟩

theorem sendReady_cases {entry : CommitEntry Command} (sent : rf.sendReady = some (next, entry)) :
    ∃ rest, rf.readyEntries = entry :: rest ∧ next = { rf with readyEntries := rest } := by
  unfold sendReady at sent
  split at sent
  · cases sent
  · next rest split =>
    cases sent
    exact ⟨rest, split, rfl⟩

theorem kill_cases (killed : rf.kill = some next) :
    rf.state = .dead ∧ next = rf ∨
      rf.state ≠ .dead ∧ next = { rf with state := .dead, chansClosed := true } := by
  unfold kill at killed
  split_ifs at killed with gone closed
  · cases killed
    exact Or.inl ⟨gone, rfl⟩
  · cases killed
    exact Or.inr ⟨gone, rfl⟩

theorem mem_startElection {call : VoteCall n} (member : call ∈ rf.startElection.2) :
    call.candidate = rf.id ∧ call.peer ≠ rf.id ∧ call.savedCurrentTerm = rf.currentTerm + 1 ∧
      call.election = rf.elections.length := by
  obtain ⟨peer, isPeer, rfl⟩ := List.mem_map.mp member
  exact ⟨rfl, mem_peerIds.mp isPeer, rfl, rfl⟩

/-- The calls of an election go to different peers. -/
theorem startElection_distinct {i j : Nat} {call call' : VoteCall n}
    (found : rf.startElection.2[i]? = some call) (found' : rf.startElection.2[j]? = some call')
    (same : call.peer = call'.peer) : i = j := by
  simp only [startElection, List.getElem?_map, Option.map_eq_some_iff] at found found'
  obtain ⟨peer, isPeer, rfl⟩ := found
  obtain ⟨peer', isPeer', rfl⟩ := found'
  dsimp only at same
  subst same
  exact (List.getElem?_inj (List.getElem?_eq_some_iff.mp isPeer).1 (nodup_peerIds rf)).mp
    (isPeer.trans isPeer'.symm)

end Raft

end RaftInMotion
