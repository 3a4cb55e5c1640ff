/-
This file settles when replication to one follower converges. A round is a request of the leader,
its handling and its reply, with nothing in between. What a round does to the follower's log and
to `nextIndex` is `negotiate`. From the `nextIndex` that `startLeader` sets, the rounds end with
the leader's log at the follower when both logs are empty, when the follower holds the leader's
last entry, or when it holds the last entry of the leader's log that has the term of the
follower's first entry. Otherwise no round ever stores an entry: a follower of the leader's own
term gives no conflict hint, and the branch for `PrevLogIndex = -1` does not append.
-/

import RaftInMotion.Handlers.Hints
import RaftInMotion.Model.Hazards
import RaftInMotion.Refinement.Merge

namespace RaftInMotion

open TermLog

variable {n : Nat} {Command : Type}

namespace Raft

/-! ### Rounds -/

/-- The leader builds its request, the follower handles it, and the leader handles the reply. -/
def round (pair : Raft n Command × Raft n Command) :
    Option ((Raft n Command × Raft n Command) × AppendEntriesReply) := do
  let call : AppendCall n := ⟨pair.1.id, pair.2.id, pair.1.currentTerm⟩
  let (nextIndexForPeer, args) ← pair.1.appendEntriesArgs call
  let (follower, reply) ← pair.2.appendEntries args
  let leader ← pair.1.receiveAppend call nextIndexForPeer args reply
  some ((leader, follower), reply)

/-- Any number of rounds. -/
def rounds : Nat → Raft n Command × Raft n Command → Option (Raft n Command × Raft n Command)
  | 0, pair => some pair
  | count + 1, pair => (round pair).bind fun (next, _) => rounds count next

/-- After some round all rounds succeed, the follower's log extends the leader's, and it does not
change any more. -/
def Converges (leader follower : Raft n Command) : Prop :=
  ∃ count, ∀ more, ∃ before after reply, rounds (count + more) (leader, follower) = some before ∧
    round before = some (after, reply) ∧ reply.success = true ∧
      leader.log <+: after.2.log ∧ (0 < more → after.2.log = before.2.log)

/-! ### What a round negotiates -/

/-- What a round does to the follower's log and to the `nextIndex` of the leader, and whether it
succeeds. -/
def negotiate (log held : List (LogEntry Command)) :
    Nat → Bool × List (LogEntry Command) × Nat
  | 0 =>
    match held with
    | [] => (true, held, log.length)
    | first :: _ => (false, held, (lastIndexOfTerm log first.term log.length + 1).toNat)
  | index + 1 =>
    if termAt held index = termAt log index then
      (true, insertEntries held index (log.drop (index + 1)), log.length)
    else (false, held, 0)

/-- The follower holds an entry from which the rounds can go on. -/
def Reconcilable (log held : List (LogEntry Command)) : Prop :=
  log = [] ∧ held = [] ∨
  (∃ index, log.length = index + 1 ∧ termAt held index = termAt log index) ∨
  ∃ first rest index, held = first :: rest ∧ termAt log index = some first.term ∧
    termAt held index = some first.term ∧ ∀ later > index, termAt log later ≠ some first.term

/-! ### One round -/

variable {rf : Raft n Command} {log held : List (LogEntry Command)}

/-- The request for a follower of which the leader knows nothing carries the whole log. -/
theorem appendEntriesArgs_zero {call : AppendCall n} (next : rf.nextIndex call.peer = 0) :
    rf.appendEntriesArgs call = some (0, {
      term := call.savedCurrentTerm
      leaderId := rf.id
      prevLogIndex := -1
      prevLogTerm := -1
      entries := rf.log
      leaderCommit := rf.commitIndex }) := by
  simp [appendEntriesArgs, next]

theorem appendEntriesArgs_succ {call : AppendCall n} {index : Nat} {previous : LogEntry Command}
    (next : rf.nextIndex call.peer = index + 1) (found : rf.log[index]? = some previous) :
    rf.appendEntriesArgs call = some (index + 1, {
      term := call.savedCurrentTerm
      leaderId := rf.id
      prevLogIndex := index
      prevLogTerm := previous.term
      entries := rf.log.drop (index + 1)
      leaderCommit := rf.commitIndex }) := by
  have within := (List.getElem?_eq_some_iff.mp found).1
  simp [appendEntriesArgs, next, Nat.succ_le_of_lt within, take_succ_of_getElem? found]

/-- The leader and the follower between two rounds, with their logs and the `nextIndex`. -/
structure Paired (log held : List (LogEntry Command)) (next : Nat)
    (pair : Raft n Command × Raft n Command) : Prop where
  leads : pair.1.state = .leader
  live : pair.1.chansClosed = false
  alive : pair.2.state ≠ .dead
  opened : pair.2.chansClosed = false
  reached : pair.2.currentTerm ≤ pair.1.currentTerm
  log : pair.1.log = log
  held : pair.2.log = held
  next : pair.1.nextIndex pair.2.id = next

/-- A leader handles an acknowledgement of its own term. -/
theorem receiveAppend_success (call : AppendCall n) (nextIndexForPeer : Nat)
    (args : AppendEntriesArgs n Command) {reply : AppendEntriesReply}
    (leads : rf.state = .leader) (live : rf.chansClosed = false)
    (own : call.savedCurrentTerm = rf.currentTerm) (term : reply.term = rf.currentTerm)
    (success : reply.success = true) :
    ∃ next, rf.receiveAppend call nextIndexForPeer args reply = some next ∧
      next.state = rf.state ∧ next.chansClosed = rf.chansClosed ∧
      next.currentTerm = rf.currentTerm ∧ next.log = rf.log ∧
      next.nextIndex call.peer = nextIndexForPeer + args.entries.length := by
  unfold receiveAppend
  rw [if_neg (by omega), if_pos ⟨leads, own.trans term.symm⟩, if_pos success]
  dsimp only
  split_ifs with moves
  · unfold notifyCommit
    rw [if_neg (by simp [acknowledge, live])]
    exact ⟨_, rfl, rfl, rfl, rfl, rfl, by simp [acknowledge]⟩
  · exact ⟨_, rfl, rfl, rfl, rfl, rfl, by simp [acknowledge]⟩

/-- A round goes on from how its request is handled. -/
theorem round_of_handled {next : Nat} {leader follower after : Raft n Command}
    (paired : Paired log held next (leader, follower)) {args : AppendEntriesArgs n Command}
    (built : leader.appendEntriesArgs ⟨leader.id, follower.id, leader.currentTerm⟩ =
      some (next, args))
    {reply : AppendEntriesReply} (handled : follower.appendEntries args = some (after, reply))
    (term : reply.term = leader.currentTerm) (state : after.state = .follower)
    (opened : after.chansClosed = false) (reached : after.currentTerm = leader.currentTerm)
    (id : after.id = follower.id) :
    ∃ leader', round (leader, follower) = some ((leader', after), reply) ∧
      Paired log after.log
        (if reply.success then next + args.entries.length else leader.conflictNext reply)
        (leader', after) := by
  have alive : after.state ≠ .dead := by simp [state]
  cases success : reply.success with
  | true =>
    obtain ⟨leader', received, leads, live, same, log, index⟩ := receiveAppend_success
      ⟨leader.id, follower.id, leader.currentTerm⟩ next args paired.leads paired.live rfl term
      success
    refine ⟨leader', by simp [round, built, handled, received], ?_⟩
    exact ⟨leads.trans paired.leads, live.trans paired.live, alive, opened,
      (reached.trans same.symm).le, log.trans paired.log, rfl, by simpa [id] using index⟩
  | false =>
    have received := receiveAppend_failure ⟨leader.id, follower.id, leader.currentTerm⟩ next args
      paired.leads rfl term success
    refine ⟨_, by simp [round, built, handled, received]; rfl, ?_⟩
    exact ⟨paired.leads, paired.live, alive, opened, reached.le, paired.log, rfl, by simp [id]⟩

section

variable {next : Nat} {leader follower : Raft n Command}

/-- The requests the leader can build for the follower. -/
abbrev requestTo (leader : Raft n Command) (prevLogIndex prevLogTerm : Int)
    (entries : List (LogEntry Command)) : AppendEntriesArgs n Command :=
  ⟨leader.currentTerm, leader.id, prevLogIndex, prevLogTerm, entries, leader.commitIndex⟩

theorem round_zero (paired : Paired log held 0 (leader, follower)) : ∃ after reply,
    round (leader, follower) = some (after, reply) ∧ reply.success = (negotiate log held 0).1 ∧
      Paired log (negotiate log held 0).2.1 (negotiate log held 0).2.2 after := by
  have same : leader.log = log := paired.log
  have before : follower.log = held := paired.held
  have opened := heed_chansClosed follower leader.currentTerm
  have id := heed_id follower leader.currentTerm
  have handled := appendEntries_first (requestTo leader (-1) (-1) leader.log)
    paired.alive paired.reached rfl
  rw [before] at handled
  obtain ⟨leader', rounds, after⟩ := round_of_handled paired (appendEntriesArgs_zero paired.next)
    handled (by cases held <;> rfl) (heed_state follower _) (opened.trans paired.opened)
    (heed_currentTerm paired.reached) id
  rw [persistToStorage_log, heed_log, before] at after
  refine ⟨_, _, rounds, by cases held <;> rfl, ?_⟩
  cases held with
  | nil => simpa [negotiate, same] using after
  | cons first rest =>
    simpa [negotiate, conflictNext_of_term leader first.term, same] using after

theorem round_agrees {index : Nat} {previous entry : LogEntry Command}
    (paired : Paired log held (index + 1) (leader, follower))
    (found : log[index]? = some previous) (foundHeld : held[index]? = some entry)
    (agrees : entry.term = previous.term) : ∃ after reply,
    round (leader, follower) = some (after, reply) ∧ reply.success = true ∧
      Paired log (insertEntries held index (log.drop (index + 1))) log.length after := by
  obtain rfl : leader.log = log := paired.log
  have before : follower.log = held := paired.held
  have opened := heed_chansClosed follower leader.currentTerm
  have id := heed_id follower leader.currentTerm
  have handled := appendEntries_accepts
    (requestTo leader index previous.term (leader.log.drop (index + 1)))
    paired.alive paired.reached (fun _ => paired.opened) rfl (before.symm ▸ foundHeld)
    (by simp [agrees])
  obtain ⟨leader', rounds, after⟩ := round_of_handled paired
    (appendEntriesArgs_succ paired.next found) handled rfl
    ((store_state _ index).trans (heed_state follower _))
    (((store_chansClosed _ index).trans opened).trans paired.opened)
    ((store_currentTerm _ index).trans (heed_currentTerm paired.reached))
    ((store_id _ index).trans id)
  rw [persistToStorage_log, store_log, heed_log, before] at after
  have within := (List.getElem?_eq_some_iff.mp found).1
  refine ⟨_, _, rounds, rfl, ?_⟩
  simpa [Nat.add_sub_cancel' (Nat.succ_le_of_lt within)] using after

theorem round_differs {index : Nat} {previous : LogEntry Command}
    (paired : Paired log held (index + 1) (leader, follower))
    (positive : ∀ entry ∈ log, 1 ≤ entry.term) (found : log[index]? = some previous)
    (differs : termAt held index ≠ some previous.term) : ∃ after reply,
    round (leader, follower) = some (after, reply) ∧ reply.success = false ∧
      Paired log held 0 after := by
  obtain rfl : leader.log = log := paired.log
  have before : follower.log = held := paired.held
  have opened := heed_chansClosed follower leader.currentTerm
  have id := heed_id follower leader.currentTerm
  have handled := appendEntries_refuses
    (requestTo leader index previous.term (leader.log.drop (index + 1)))
    paired.alive paired.reached rfl (fun entry there same => differs (by
      rw [before] at there
      simp only [termAt, there, Option.map_some]
      exact congrArg some (Int.ofNat_inj.mp same).symm))
  obtain ⟨leader', rounds, after⟩ := round_of_handled paired
    (appendEntriesArgs_succ paired.next found) handled rfl (heed_state follower _)
    (opened.trans paired.opened) (heed_currentTerm paired.reached) id
  rw [persistToStorage_log, heed_log, before] at after
  refine ⟨_, _, rounds, rfl, ?_⟩
  simpa [conflictNext_of_term leader 0, lastIndexOfTerm_zero positive] using after

end

/-- A round does what `negotiate` says. -/
theorem round_negotiates {next : Nat} {pair : Raft n Command × Raft n Command}
    (paired : Paired log held next pair) (within : next ≤ log.length)
    (positive : ∀ entry ∈ log, 1 ≤ entry.term) : ∃ after reply,
      round pair = some (after, reply) ∧ reply.success = (negotiate log held next).1 ∧
        Paired log (negotiate log held next).2.1 (negotiate log held next).2.2 after := by
  cases next with
  | zero => exact round_zero paired
  | succ index =>
    obtain ⟨previous, found⟩ : ∃ previous, log[index]? = some previous :=
      ⟨_, List.getElem?_eq_getElem (Nat.lt_of_succ_le within)⟩
    have term : termAt log index = some previous.term := by simp [termAt, found]
    by_cases agrees : termAt held index = termAt log index
    · simp only [negotiate, if_pos agrees]
      obtain ⟨entry, foundHeld, same⟩ := Option.map_eq_some_iff.mp (agrees.trans term)
      exact round_agrees paired found foundHeld same
    · simp only [negotiate, if_neg agrees]
      exact round_differs paired positive found (term ▸ agrees)

/-! ### Rounds that settle -/

/-- The rounds have nothing left to do. -/
def Settled (log held : List (LogEntry Command)) : Prop :=
  log = [] ∧ held = [] ∨ log ≠ [] ∧ log <+: held

theorem Settled.log_prefix (settled : Settled log held) : log <+: held := by
  rcases settled with ⟨rfl, rfl⟩ | ⟨-, inHeld⟩
  · exact List.prefix_refl _
  · exact inHeld

/-- A round after which the follower holds the leader's log, or both logs are empty. -/
theorem round_settled {pair : Raft n Command × Raft n Command} (settled : Settled log held)
    (paired : Paired log held log.length pair) : ∃ after reply,
      round pair = some (after, reply) ∧ reply.success = true ∧
        Paired log held log.length after := by
  obtain ⟨leader, follower⟩ := pair
  rcases settled with ⟨rfl, rfl⟩ | ⟨nonempty, inHeld⟩
  · exact round_zero paired
  · obtain ⟨front, last, rfl⟩ := (List.eq_nil_or_concat' log).resolve_left nonempty
    have found : (front ++ [last])[front.length]? = some last := by simp
    rw [List.length_append] at paired
    obtain ⟨after, reply, runs, success, next⟩ := round_agrees paired found
      ((getElem?_of_part inHeld (by simp)).trans found) rfl
    refine ⟨after, reply, runs, success, ?_⟩
    simpa [insertEntries, matchEntries] using next

theorem rounds_settled {pair : Raft n Command × Raft n Command} (settled : Settled log held)
    (paired : Paired log held log.length pair) (count : Nat) :
    ∃ before, rounds count pair = some before ∧ Paired log held log.length before := by
  induction count generalizing pair with
  | zero => exact ⟨pair, rfl, paired⟩
  | succ count inductionHypothesis =>
    obtain ⟨after, reply, runs, -, next⟩ := round_settled settled paired
    obtain ⟨before, more, last⟩ := inductionHypothesis next
    exact ⟨before, by simp [rounds, runs, more], last⟩

theorem rounds_add (count more : Nat) (pair : Raft n Command × Raft n Command) :
    rounds (count + more) pair = (rounds count pair).bind (rounds more) := by
  induction count generalizing pair with
  | zero => simp [rounds]
  | succ count inductionHypothesis =>
    simp only [Nat.succ_add, rounds]
    cases round pair with
    | none => rfl
    | some result => exact inductionHypothesis result.1

/-- Replication converges once a round has settled the logs. -/
theorem converges_of_settled {leader follower : Raft n Command} (count : Nat)
    {before after : Raft n Command × Raft n Command} {reply : AppendEntriesReply}
    (reaches : rounds count (leader, follower) = some before)
    (last : round before = some (after, reply)) (success : reply.success = true)
    (settled : Settled leader.log held)
    (paired : Paired leader.log held leader.log.length after) : Converges leader follower := by
  refine ⟨count, fun more => ?_⟩
  cases more with
  | zero =>
    refine ⟨before, after, reply, reaches, last, success, ?_, fun no => absurd no (lt_irrefl 0)⟩
    exact paired.held ▸ settled.log_prefix
  | succ more =>
    obtain ⟨before', runs, pairedBefore⟩ := rounds_settled settled paired more
    obtain ⟨after', reply', goes, success', pairedAfter⟩ := round_settled settled pairedBefore
    refine ⟨before', after', reply', ?_, goes, success', ?_, fun _ => ?_⟩
    · rw [rounds_add, reaches]
      simp [rounds, last, runs]
    · exact pairedAfter.held ▸ settled.log_prefix
    · exact pairedAfter.held.trans pairedBefore.held.symm

/-! ### Rounds that never settle -/

/-- The values `nextIndex` takes. -/
def Offered (log held : List (LogEntry Command)) (next : Nat) : Prop :=
  next = 0 ∨ next = log.length ∨ ∃ first rest, held = first :: rest ∧
    next = (lastIndexOfTerm log first.term log.length + 1).toNat

theorem Offered.within {next : Nat} (offered : Offered log held next) : next ≤ log.length := by
  rcases offered with rfl | rfl | ⟨first, rest, -, rfl⟩
  · exact Nat.zero_le _
  · exact le_rfl
  · rcases lastIndexOfTerm_cases log first.term log.length with ⟨is, -⟩ | ⟨index, below, is, -⟩
    · simp [is]
    · rw [is]
      omega

/-- At no value of `nextIndex` the logs agree. -/
theorem Offered.differs {index : Nat} (offered : Offered log held (index + 1))
    (apart : ¬Reconcilable log held) : termAt held index ≠ termAt log index := by
  intro agrees
  refine apart (Or.inr ?_)
  rcases offered with zero | length | ⟨first, rest, split, next⟩
  · cases zero
  · exact Or.inl ⟨index, length.symm, agrees⟩
  · rcases lastIndexOfTerm_cases log first.term log.length with
      ⟨is, -⟩ | ⟨last, below, is, holds, later⟩
    · rw [is] at next
      simp at next
    · obtain rfl : last = index := by
        rw [is] at next
        omega
      refine Or.inr ⟨first, rest, last, split, holds, agrees.trans holds, fun other above => ?_⟩
      by_cases within : other < log.length
      · exact later other above within
      · simp [termAt, List.getElem?_eq_none (not_lt.mp within)]

/-- Without a common entry the follower's log stays as it is, and a round succeeds only when it
does not store the entries it is sent. -/
theorem negotiate_apart {next : Nat} (offered : Offered log held next)
    (apart : ¬Reconcilable log held) :
    (negotiate log held next).2.1 = held ∧ Offered log held (negotiate log held next).2.2 ∧
      ((negotiate log held next).1 = true → ¬log <+: held) := by
  cases next with
  | zero =>
    cases held with
    | nil =>
      refine ⟨rfl, Or.inr (Or.inl rfl), fun _ inHeld => ?_⟩
      exact apart (Or.inl ⟨List.prefix_nil.mp inHeld, rfl⟩)
    | cons first rest => exact ⟨rfl, Or.inr (Or.inr ⟨first, rest, rfl, rfl⟩), fun no => by cases no⟩
  | succ index =>
    rw [show negotiate log held (index + 1) = (false, held, 0) from
      if_neg (offered.differs apart)]
    exact ⟨rfl, Or.inl rfl, fun no => by cases no⟩

theorem rounds_apart {next count : Nat} {pair before : Raft n Command × Raft n Command}
    (positive : ∀ entry ∈ log, 1 ≤ entry.term) (apart : ¬Reconcilable log held)
    (paired : Paired log held next pair) (offered : Offered log held next)
    (reaches : rounds count pair = some before) :
    ∃ next', Paired log held next' before ∧ Offered log held next' := by
  induction count generalizing pair next with
  | zero =>
    cases reaches
    exact ⟨next, paired, offered⟩
  | succ count inductionHypothesis =>
    obtain ⟨after, reply, runs, -, pairedAfter⟩ :=
      round_negotiates paired offered.within positive
    obtain ⟨same, offeredAfter, -⟩ := negotiate_apart offered apart
    rw [same] at pairedAfter
    exact inductionHypothesis pairedAfter offeredAfter (by simpa [rounds, runs] using reaches)

/-! ### Convergence -/

/-- Rounds that meet a common entry store the leader's log. -/
theorem round_adopts {index : Nat} {pair : Raft n Command × Raft n Command}
    (paired : Paired log held (index + 1) pair) (matching : Matching log held)
    (within : index < log.length) (agrees : termAt held index = termAt log index) :
    ∃ after reply stored, round pair = some (after, reply) ∧ reply.success = true ∧
      Settled log stored ∧ Paired log stored log.length after := by
  obtain ⟨leader, follower⟩ := pair
  have found := List.getElem?_eq_getElem within
  have term : termAt log index = some log[index].term := by simp [termAt, found]
  obtain ⟨entry, foundHeld, same⟩ := Option.map_eq_some_iff.mp (agrees.trans term)
  obtain ⟨after, reply, runs, success, next⟩ := round_agrees paired found foundHeld same
  have inStored :=
    TermLog.Adopts.sent_part (insertEntries_adopts matching.symm foundHeld found same)
  exact ⟨after, reply, _, runs, success,
    Or.inr ⟨List.ne_nil_of_length_pos (by omega), inStored⟩, next⟩

/-- When the logs have a common entry where the code looks for one, at most three rounds store
the leader's log. -/
theorem converges_of_reconcilable {leader follower : Raft n Command}
    (paired : Paired leader.log follower.log leader.log.length (leader, follower))
    (matching : Matching leader.log follower.log)
    (positive : ∀ entry ∈ leader.log, 1 ≤ entry.term)
    (reconcilable : Reconcilable leader.log follower.log) : Converges leader follower := by
  by_cases both : leader.log = [] ∧ follower.log = []
  · obtain ⟨after, reply, runs, success, next⟩ := round_settled (Or.inl both) paired
    exact converges_of_settled 0 rfl runs success (Or.inl both) next
  obtain ⟨last, length⟩ : ∃ last, leader.log.length = last + 1 := by
    refine Nat.exists_eq_add_one.mpr (Nat.pos_of_ne_zero fun empty => ?_)
    have nil := List.eq_nil_of_length_eq_zero empty
    rcases reconcilable with both' | ⟨index, length, -⟩ | ⟨first, rest, index, -, found, -⟩
    · exact both both'
    · omega
    · simp [nil, termAt] at found
  rw [length] at paired
  by_cases agrees : termAt follower.log last = termAt leader.log last
  · obtain ⟨after, reply, stored, runs, success, settled, next⟩ :=
      round_adopts paired matching (by omega) agrees
    exact converges_of_settled 0 rfl runs success settled next
  obtain ⟨first, rest, index, split, found, foundHeld, later⟩ :=
    (reconcilable.resolve_left both).resolve_left (by
      rintro ⟨index, length', agrees'⟩
      obtain rfl : index = last := by omega
      exact agrees agrees')
  -- The first round fails and the second one returns the hint.
  obtain ⟨pair₁, reply₁, runs₁, -, next₁⟩ := round_negotiates paired (by omega) positive
  simp only [negotiate, if_neg agrees] at next₁
  obtain ⟨pair₂, reply₂, runs₂, -, next₂⟩ := round_negotiates next₁ (Nat.zero_le _) positive
  simp only [split, negotiate] at next₂
  rw [lastIndexOfTerm_eq found later, ← split] at next₂
  obtain ⟨after, reply, stored, runs, success, settled, next⟩ :=
    round_adopts next₂ matching (lt_length_of_termAt found) (foundHeld.trans found.symm)
  exact converges_of_settled 2 (by simp [rounds, runs₁, runs₂]) runs success settled next

theorem reconcilable_of_converges {leader follower : Raft n Command}
    (paired : Paired leader.log follower.log leader.log.length (leader, follower))
    (positive : ∀ entry ∈ leader.log, 1 ≤ entry.term) (converges : Converges leader follower) :
    Reconcilable leader.log follower.log := by
  obtain ⟨count, each⟩ := converges
  by_contra apart
  obtain ⟨before, after, reply, reaches, last, success, inAfter, -⟩ := each 0
  obtain ⟨next, pairedBefore, offered⟩ :=
    rounds_apart positive apart paired (Or.inr (Or.inl rfl)) reaches
  obtain ⟨same, -, fails⟩ := negotiate_apart offered apart
  obtain ⟨after', reply', runs, result, pairedAfter⟩ :=
    round_negotiates pairedBefore offered.within positive
  obtain ⟨rfl, rfl⟩ : after' = after ∧ reply' = reply := by simpa [last] using runs.symm
  refine fails (result.symm.trans success) ?_
  rw [pairedAfter.held, same] at inAfter
  exact inAfter

/-- Starting from the `nextIndex` that `startLeader` sets, replication to a follower converges
exactly when the logs are reconcilable. -/
theorem converges_iff (leader follower : Raft n Command) (leads : leader.state = .leader)
    (live : leader.chansClosed = false) (alive : follower.state ≠ .dead)
    (opened : follower.chansClosed = false) (reached : follower.currentTerm ≤ leader.currentTerm)
    (started : leader.nextIndex follower.id = leader.log.length)
    (matching : Matching leader.log follower.log)
    (positive : ∀ entry ∈ leader.log, 1 ≤ entry.term) :
    Converges leader follower ↔ Reconcilable leader.log follower.log := by
  have paired : Paired leader.log follower.log leader.log.length (leader, follower) :=
    ⟨leads, live, alive, opened, reached, rfl, rfl, started⟩
  exact ⟨reconcilable_of_converges paired positive,
    converges_of_reconcilable paired matching positive⟩

/-- The logs part behind their first entry, and the first entries are common. -/
theorem converges_behind_first :
    Converges (elect [⟨5, 1⟩, ⟨7, 3⟩]) (voter [⟨5, 1⟩, ⟨6, 2⟩]) := by
  refine (converges_iff _ _ rfl rfl (by decide) rfl (by decide) (by decide) ?_ (by decide)).mpr
    (Or.inr (Or.inr ⟨⟨5, 1⟩, [⟨6, 2⟩], 0, rfl, rfl, rfl, ?_⟩))
  · rintro (_ | _ | index) entry entry' found found' same
    · rfl
    · cases found
      cases found'
      cases same
    · cases found
  · rintro (_ | _ | later) above found
    · cases above
    · cases found
    · cases found

/-- An empty follower never gets the first entry of a leader. -/
theorem empty_follower_never_converges :
    (elect [⟨7, 1⟩]).state = .leader ∧ (elect [⟨7, 1⟩]).nextIndex 1 = 1 ∧
      Matching (elect [⟨7, 1⟩]).log (voter []).log ∧
      ¬Converges (elect [⟨7, 1⟩]) (voter []) := by
  refine ⟨rfl, rfl, fun _ _ _ _ found => (by cases found), fun converges => ?_⟩
  rcases reconcilable_of_converges ⟨rfl, rfl, by decide, rfl, by decide, rfl, rfl, rfl⟩ (by decide)
    converges with ⟨empty, -⟩ | ⟨index, length, agrees⟩ | ⟨first, rest, index, split, -⟩
  · cases empty
  · obtain rfl : index = 0 := by simpa [elect] using length
    cases agrees
  · cases split

end Raft

end RaftInMotion
