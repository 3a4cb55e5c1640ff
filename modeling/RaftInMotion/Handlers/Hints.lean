/-
This file settles what the fields `ConflictIndex` and `ConflictTerm` of a reply are worth. One
backward loop of `AppendEntries` computes them and another one in the leader's reply handler reads
them. The first loop stands in the branch for requests of a term the server has left, whose
replies the leader does not use: there it gives the start of the run of the conflicting term. In
the branch for requests of the server's own term both fields keep their zero values, and a
rejection sends the leader back to the first index.
-/

import RaftInMotion.Handlers.Insertion
import RaftInMotion.Model.Hazards

namespace RaftInMotion

namespace Raft

variable {n : Nat} {Command : Type} {rf next : Raft n Command} {log : List (LogEntry Command)}
  {prevLogIndex : Nat}

/-! ### What the hints are meant to say -/

/-- The index is the first one of the run of entries of the term that ends at the position. -/
structure StartsRun (log : List (LogEntry Command)) (position term start : Nat) : Prop where
  before : start ≤ position
  run : ∀ i, start ≤ i → i ≤ position → termAt log i = some term
  first : ∀ i, start = i + 1 → termAt log i ≠ some term

/-- What a rejection is meant to tell the leader about the log at `PrevLogIndex`. -/
structure HintsRight (log : List (LogEntry Command)) (prevLogIndex : Nat)
    (reply : AppendEntriesReply) : Prop where
  short : log.length ≤ prevLogIndex → reply.conflictIndex = log.length ∧ reply.conflictTerm = -1
  differs : ∀ term, termAt log prevLogIndex = some term →
    reply.conflictTerm = term ∧ StartsRun log prevLogIndex term reply.conflictIndex

/-- Where the leader is meant to go on: behind its last entry of the conflicting term, at the start
of the run of that term, or at the end of a log that is too short. -/
structure ResumesRight (log held : List (LogEntry Command)) (prevLogIndex nextIndex : Nat) :
    Prop where
  short : held.length ≤ prevLogIndex → nextIndex = held.length
  shared : ∀ term index, termAt held prevLogIndex = some term → termAt log index = some term →
    (∀ later > index, termAt log later ≠ some term) → nextIndex = index + 1
  foreign : ∀ term, termAt held prevLogIndex = some term → (∀ index, termAt log index ≠ some term) →
    StartsRun held prevLogIndex term nextIndex

/-! ### The loop of the leader -/

/-- The backward search finds the last entry of the term, if there is one. -/
theorem lastIndexOfTerm_cases (log : List (LogEntry Command)) (term position : Nat) :
    lastIndexOfTerm log term position = -1 ∧ (∀ index < position, termAt log index ≠ some term) ∨
      ∃ index < position, lastIndexOfTerm log term position = index ∧
        termAt log index = some term ∧
        ∀ later > index, later < position → termAt log later ≠ some term := by
  induction position with
  | zero => exact Or.inl ⟨rfl, fun index below => absurd below (Nat.not_lt_zero index)⟩
  | succ position inductionHypothesis =>
    have reads : (log[position]?.map fun entry => (entry.term : Int)) = some (term : Int) ↔
        termAt log position = some term := by
      unfold termAt
      cases log[position]? with
      | none => simp
      | some entry => exact Option.some_inj.trans (Int.ofNat_inj.trans Option.some_inj.symm)
    unfold lastIndexOfTerm
    by_cases found : termAt log position = some term
    · rw [if_pos (reads.mpr found)]
      exact Or.inr ⟨position, Nat.lt_succ_self _, rfl, found, fun later above below => by omega⟩
    · rw [if_neg (reads.not.mpr found)]
      have last : ∀ index, index < position + 1 → termAt log index = some term →
          index < position := by
        intro index below holds
        refine lt_of_le_of_ne (Nat.lt_succ_iff.mp below) ?_
        rintro rfl
        exact found holds
      rcases inductionHypothesis with ⟨missing, none⟩ | ⟨index, below, is, holds, later⟩
      · exact Or.inl ⟨missing, fun index below holds => none index (last index below holds) holds⟩
      · refine Or.inr ⟨index, below.trans (Nat.lt_succ_self _), is, holds, ?_⟩
        exact fun other above within holds' => later other above (last other within holds') holds'

theorem lastIndexOfTerm_eq {index term : Nat} (found : termAt log index = some term)
    (last : ∀ later > index, termAt log later ≠ some term) :
    lastIndexOfTerm log term log.length = index := by
  have within := lt_length_of_termAt found
  rcases lastIndexOfTerm_cases log term log.length with ⟨-, missing⟩ | ⟨other, -, is, holds, later⟩
  · exact absurd found (missing index within)
  · rcases lt_trichotomy other index with before | rfl | behind
    · exact absurd found (later index before within)
    · exact is
    · exact absurd holds (last other behind)

theorem lastIndexOfTerm_zero (positive : ∀ entry ∈ log, 1 ≤ entry.term) (position : Nat) :
    lastIndexOfTerm log 0 position = -1 := by
  rcases lastIndexOfTerm_cases log 0 position with ⟨missing, -⟩ | ⟨index, -, -, holds, -⟩
  · exact missing
  · obtain ⟨entry, found, zero⟩ := Option.map_eq_some_iff.mp holds
    have := positive entry (List.mem_of_getElem? found)
    omega

/-- A hint leads to the entry behind the last one of its term, and no hint to the first one. -/
theorem conflictNext_of_term (rf : Raft n Command) (term : Nat) {reply : AppendEntriesReply}
    (hint : reply.conflictTerm = term) (index : reply.conflictIndex = 0) :
    rf.conflictNext reply = (lastIndexOfTerm rf.log term rf.log.length + 1).toNat := by
  unfold conflictNext
  rw [if_pos (by omega), hint, index]
  dsimp only
  rcases lastIndexOfTerm_cases rf.log term rf.log.length with ⟨missing, -⟩ | ⟨found, -, is, -⟩
  · simp [missing]
  · simp [is]

/-- A leader handles a rejection of its own term. -/
theorem receiveAppend_failure (call : AppendCall n) (nextIndexForPeer : Nat)
    (args : AppendEntriesArgs n Command) {reply : AppendEntriesReply}
    (leads : rf.state = .leader) (own : call.savedCurrentTerm = rf.currentTerm)
    (term : reply.term = rf.currentTerm) (fails : reply.success = false) :
    rf.receiveAppend call nextIndexForPeer args reply =
      some { rf with
        nextIndex := Function.update rf.nextIndex call.peer (rf.conflictNext reply) } := by
  unfold receiveAppend
  rw [if_neg (by omega), if_pos ⟨leads, own.trans term.symm⟩]
  simp [fails]

/-! ### The loop of the server -/

/-- The loop goes back to the first entry of the run. -/
theorem conflictStart_startsRun {term position : Nat} (found : termAt log position = some term) :
    StartsRun log position term (conflictStart log term position) := by
  have walk : ∀ position, conflictStart log term position ≤ position ∧
      (∀ i, conflictStart log term position ≤ i → i < position → termAt log i = some term) ∧
      ∀ i, conflictStart log term position = i + 1 → termAt log i ≠ some term := by
    intro position
    induction position with
    | zero =>
      exact ⟨le_rfl, fun i _ below => absurd below (Nat.not_lt_zero i),
        fun i equal => absurd equal.symm (Nat.succ_ne_zero i)⟩
    | succ position inductionHypothesis =>
      obtain ⟨before, run, first⟩ := inductionHypothesis
      unfold conflictStart
      split_ifs with same
      · refine ⟨before.trans (Nat.le_succ _), fun i from' below => ?_, first⟩
        rcases Nat.lt_succ_iff_lt_or_eq.mp below with inside | rfl
        · exact run i from' inside
        · exact same
      · refine ⟨le_rfl, fun i from' below => by omega, fun i equal => ?_⟩
        obtain rfl : position = i := Nat.succ_inj.mp equal
        exact same
  obtain ⟨before, run, first⟩ := walk position
  refine ⟨before, fun i from' upTo => ?_, first⟩
  rcases Nat.lt_or_eq_of_le upTo with inside | rfl
  · exact run i from' inside
  · exact found

/-- A request of a term the server has left is answered with the right hints. -/
theorem appendStale_hints (rf : Raft n Command) {args : AppendEntriesArgs n Command}
    (position : args.prevLogIndex = prevLogIndex) :
    HintsRight rf.log prevLogIndex (rf.appendStale args).2 := by
  unfold appendStale
  dsimp only
  rw [position]
  split_ifs with short negative
  · refine ⟨fun _ => ⟨rfl, rfl⟩, fun term found => ?_⟩
    have := lt_length_of_termAt found
    omega
  · omega
  · refine ⟨fun _ => by omega, fun term found => ?_⟩
    have reads : (rf.log[(prevLogIndex : Int).toNat]?.map LogEntry.term).getD 0 = term := by
      rw [Int.toNat_natCast]
      exact congrArg (Option.getD · 0) found
    rw [reads, Int.toNat_natCast]
    exact ⟨rfl, conflictStart_startsRun found⟩

/-! ### Rejections -/

/-- A request of the server's own term that starts behind an entry is rejected without a hint. -/
theorem appendEntries_rejection {args : AppendEntriesArgs n Command} {reply : AppendEntriesReply}
    (own : args.term = rf.currentTerm) (position : args.prevLogIndex = prevLogIndex)
    (handled : rf.appendEntries args = some (next, reply)) (fails : reply.success = false) :
    reply.conflictIndex = 0 ∧ reply.conflictTerm = 0 := by
  by_cases alive : rf.state = .dead
  · simp only [appendEntries, alive, if_true, Option.some.injEq, Prod.mk.injEq] at handled
    obtain ⟨-, rfl⟩ := handled
    exact ⟨rfl, rfl⟩
  by_cases agrees : ∃ entry, rf.log[prevLogIndex]? = some entry ∧ args.prevLogTerm = entry.term
  · obtain ⟨entry, found, same⟩ := agrees
    rw [appendEntries_matches args alive own.ge position found same] at handled
    split_ifs at handled
    cases handled
    cases fails
  · have refused := appendEntries_refuses args alive own.ge position
      fun entry found same => agrees ⟨entry, found, same⟩
    rw [refused] at handled
    cases handled
    exact ⟨rfl, rfl⟩

/-- The leader that is rejected without a hint begins again at the first index. -/
theorem conflictNext_zero {reply : AppendEntriesReply} (index : reply.conflictIndex = 0)
    (term : reply.conflictTerm = 0) (positive : ∀ entry ∈ rf.log, 1 ≤ entry.term) :
    rf.conflictNext reply = 0 := by
  have last : lastIndexOfTerm rf.log ((0 : Nat) : Int) rf.log.length = -1 :=
    lastIndexOfTerm_zero positive rf.log.length
  rw [conflictNext_of_term rf 0 term index, last]
  rfl

/-- The leader makes the right use of hints that are right. -/
theorem conflictNext_resumes (rf : Raft n Command) {held : List (LogEntry Command)}
    {reply : AppendEntriesReply} (right : HintsRight held prevLogIndex reply) :
    ResumesRight rf.log held prevLogIndex (rf.conflictNext reply) := by
  refine ⟨fun short => ?_, fun term index found shared last => ?_, fun term found foreign => ?_⟩
  · obtain ⟨index, hint⟩ := right.short short
    simp [conflictNext, hint, index]
  · have hint := (right.differs term found).1
    simp [conflictNext, hint, lastIndexOfTerm_eq shared last]
  · obtain ⟨hint, starts⟩ := right.differs term found
    have missing : lastIndexOfTerm rf.log term rf.log.length = -1 := by
      rcases lastIndexOfTerm_cases rf.log term rf.log.length with ⟨is, -⟩ | ⟨index, -, -, holds, -⟩
      · exact is
      · exact absurd holds (foreign index)
    simpa [conflictNext, hint, missing] using starts

/-- Whatever the log is, the rejected request of the server's own term gets a wrong hint, and the
leader of the term begins again at the first index. -/
theorem hints_wrong (rf : Raft n Command) (args : AppendEntriesArgs n Command)
    {next : Raft n Command} {reply : AppendEntriesReply} {prevLogIndex : Nat}
    (positive : ∀ entry ∈ rf.log, 1 ≤ entry.term) (own : args.term = rf.currentTerm)
    (position : args.prevLogIndex = prevLogIndex)
    (handled : rf.appendEntries args = some (next, reply)) (fails : reply.success = false) :
    ¬HintsRight rf.log prevLogIndex reply ∧
      ∀ (leader : Raft n Command) (call : AppendCall n) (nextIndexForPeer : Nat),
        leader.state = .leader → call.savedCurrentTerm = leader.currentTerm →
        reply.term = leader.currentTerm → (∀ entry ∈ leader.log, 1 ≤ entry.term) →
        (leader.receiveAppend call nextIndexForPeer args reply).any (fun leader' =>
          leader'.nextIndex call.peer = 0) = true := by
  obtain ⟨index, hint⟩ := appendEntries_rejection own position handled fails
  refine ⟨fun right => ?_, fun leader call nextIndexForPeer leads saved term above => ?_⟩
  · rcases Nat.lt_or_ge prevLogIndex rf.log.length with within | short
    · have found := List.getElem?_eq_getElem within
      have told := (right.differs _ (termAt_of_getElem? found)).1
      have := positive _ (List.getElem_mem within)
      omega
    · have told := (right.short short).2
      omega
  · rw [receiveAppend_failure call nextIndexForPeer args leads saved term fails]
    simp [conflictNext_zero index hint above]

open Cluster (s₀ s₁)

/-- Server 0 after it has won an election of term 3 with a log. -/
def elect (log : List (LogEntry ℕ)) : Raft 3 ℕ :=
  { blank s₀ newMapStorage with currentTerm := 3, log := log }.startLeader

/-- Server 1 with a log, in term 3. -/
def voter (log : List (LogEntry ℕ)) : Raft 3 ℕ :=
  { blank s₁ newMapStorage with currentTerm := 3, log := log }

/-- A request of server 0 in term 3 that starts behind the index. -/
def behind (prevLogIndex prevLogTerm : Nat) : AppendEntriesArgs 3 ℕ where
  term := 3
  leaderId := s₀
  prevLogIndex := prevLogIndex
  prevLogTerm := prevLogTerm
  entries := []
  leaderCommit := -1

theorem hints_wrong_short : ∃ next, (voter [⟨5, 1⟩]).appendEntries (behind 4 3) =
    some (next, { term := 3 }) ∧ ¬HintsRight (voter [⟨5, 1⟩]).log 4 { term := 3 } :=
  ⟨_, rfl, (hints_wrong (voter [⟨5, 1⟩]) (behind 4 3) (by decide) rfl rfl rfl rfl).1⟩

/-- The entries of term 2 begin at index 1, and the leader has none of that term; it is not told. -/
theorem hints_wrong_differs : ∃ next reply leader',
    (voter [⟨5, 1⟩, ⟨6, 2⟩, ⟨8, 2⟩]).appendEntries (behind 2 3) = some (next, reply) ∧
      reply.success = false ∧ ¬HintsRight (voter [⟨5, 1⟩, ⟨6, 2⟩, ⟨8, 2⟩]).log 2 reply ∧
      (elect [⟨5, 1⟩, ⟨7, 3⟩, ⟨9, 3⟩]).receiveAppend ⟨s₀, s₁, 3⟩ 3 (behind 2 3) reply =
        some leader' ∧
      ¬ResumesRight (elect [⟨5, 1⟩, ⟨7, 3⟩, ⟨9, 3⟩]).log (voter [⟨5, 1⟩, ⟨6, 2⟩, ⟨8, 2⟩]).log 2
        (leader'.nextIndex s₁) := by
  refine ⟨_, _, _, rfl, rfl, fun right => ?_, rfl, fun resumes => ?_⟩
  · exact absurd (right.differs 2 rfl).1 (by decide)
  · have starts := resumes.foreign 2 rfl fun index found => by
      have within := lt_length_of_termAt found
      have none : ∀ index < 3, termAt (elect [⟨5, 1⟩, ⟨7, 3⟩, ⟨9, 3⟩]).log index ≠ some 2 := by
        decide
      exact none index within found
    -- At index 0 the log has an entry of term 1.
    exact absurd (starts.run 0 (Nat.zero_le _) (Nat.zero_le _)) (by decide)

end Raft

end RaftInMotion
