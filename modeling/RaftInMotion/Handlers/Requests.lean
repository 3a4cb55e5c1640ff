/-
This file settles what one request to append does to a follower. A request carries the log of its
sender from an index on, so that the handler merges two matching logs and leaves either of them;
the `commitIndex` it takes over is one of the sender, whose whole log the follower then holds,
unless the committed entries were written over before they were sent. A request that has been
handled, or overtaken by a later one of the same log, changes nothing.
-/

import RaftInMotion.Handlers.Hints
import RaftInMotion.Refinement.Merge

namespace RaftInMotion

open TermLog

variable {n : Nat} {Command : Type}

/-- The request carries the log from an index on, as `leaderSendHeartbeats` cuts it off. -/
structure AppendEntriesArgs.Brings (args : AppendEntriesArgs n Command)
    (log : List (LogEntry Command)) (nextIndex : Nat) : Prop where
  within : nextIndex ≤ log.length
  prevLogIndex : args.prevLogIndex = nextIndex - 1
  prevLogTerm : args.prevLogTerm = lastTerm (log.take nextIndex)
  entries : args.entries = log.drop nextIndex

/-- Behind a matching previous entry the log of the request is merged in. -/
theorem AppendEntriesArgs.Brings.adopts {args : AppendEntriesArgs n Command} {nextIndex : Nat}
    {log sent : List (LogEntry Command)} (brings : args.Brings sent nextIndex)
    (matching : Matching log sent)
    {prevLogIndex : Nat} (position : args.prevLogIndex = prevLogIndex) {held : LogEntry Command}
    (found : log[prevLogIndex]? = some held) (same : args.prevLogTerm = held.term) :
    Adopts log sent (Raft.insertEntries log prevLogIndex args.entries) := by
  have isNext := brings.prevLogIndex
  obtain rfl : nextIndex = prevLogIndex + 1 := by omega
  obtain ⟨previous, foundSent⟩ : ∃ previous, sent[prevLogIndex]? = some previous :=
    ⟨_, List.getElem?_eq_getElem brings.within⟩
  have sameTerm : held.term = previous.term := by
    have term := brings.prevLogTerm
    rw [take_succ_of_getElem? foundSent, lastTerm_concat] at term
    exact Int.ofNat_inj.mp (same.symm.trans term)
  rw [brings.entries]
  exact insertEntries_adopts matching found foundSent sameTerm

namespace Raft

variable {rf next : Raft n Command} {args : AppendEntriesArgs n Command}
  {reply : AppendEntriesReply} {sent : List (LogEntry Command)} {nextIndex : Nat}

theorem appendEntriesArgs_brings {call : AppendCall n}
    (built : rf.appendEntriesArgs call = some (nextIndex, args)) :
    args.Brings rf.log nextIndex ∧ args.leaderCommit = rf.commitIndex := by
  obtain ⟨within, -, -, position, entries, commit⟩ := appendEntriesArgs_fields built
  exact ⟨⟨within, position, appendEntriesArgs_lastTerm built, entries⟩, commit⟩

/-! ### The log and the committed index -/

/-- The handler keeps the log and `commitIndex`, or it merges the two logs. -/
theorem appendEntries_merges (matching : Matching rf.log sent)
    (brings : args.Brings sent nextIndex) (handled : rf.appendEntries args = some (next, reply)) :
    next.log = rf.log ∧ next.commitIndex = rf.commitIndex ∨
      Adopts rf.log sent next.log ∧ (next.commitIndex = rf.commitIndex ∨
        rf.commitIndex < args.leaderCommit ∧
          next.commitIndex = min args.leaderCommit (next.log.length - 1)) := by
  have log := heed_log rf args.term
  have commit := heed_commitIndex rf args.term
  cases appendEntries_outcome handled with
  | dead gone => exact Or.inl ⟨rfl, rfl⟩
  | stale alive older _ _ same term fails => rcases same with rfl | rfl <;> exact Or.inl ⟨rfl, rfl⟩
  | reject alive reached _ term fails => exact Or.inl ⟨log, commit⟩
  | blank alive reached _ term first empty => exact Or.inl ⟨log, commit⟩
  | accept alive reached _ term prevLogIndex position held found same live =>
    refine Or.inr ⟨?_, ?_⟩
    · rw [persistToStorage_log, store_log, log]
      exact brings.adopts matching position found same
    · rw [← commit]
      exact store_commitIndex args prevLogIndex

open Cluster (s₀ s₁)

/-- A leader whose log parts from that of its follower behind their first entry. -/
def parted : Raft 3 ℕ × Raft 3 ℕ :=
  ({ elect [⟨5, 1⟩, ⟨7, 3⟩] with commitIndex := 1, nextIndex := fun _ => 1 },
    voter [⟨5, 1⟩, ⟨6, 2⟩])

/-- The request of the leader for all but the first entry. -/
def parting : AppendEntriesArgs 3 ℕ where
  term := 3
  leaderId := s₀
  prevLogIndex := 0
  prevLogTerm := 1
  entries := [⟨7, 3⟩]
  leaderCommit := 1

theorem parted_matching : Matching parted.2.log parted.1.log := by
  rintro (_ | _ | index) entry entry' found found' same
  · rfl
  · cases found
    cases found'
    cases same
  · cases found

theorem parting_brings : parting.Brings parted.1.log 1 :=
  ⟨by decide, rfl, rfl, rfl⟩

/-- `AppendEntries` leaves the follower's log or the sender's, and it keeps what they share. -/
theorem appendEntries_yields (matching : Matching rf.log sent)
    (brings : args.Brings sent nextIndex) :
    (rf.chansClosed = false → (rf.appendEntries args).isSome = true) ∧
    ∀ next reply, rf.appendEntries args = some (next, reply) →
      (next.log = rf.log ∨ next.log = sent) ∧
      (sent <+: rf.log → next.log = rf.log) ∧
      (∀ part, part <+: rf.log → part <+: sent → part <+: next.log) ∧
      ∀ third, Matching third rf.log → Matching third sent → Matching third next.log := by
  refine ⟨fun opened => appendEntries_isSome opened ?_, fun next reply handled => ?_⟩
  · have := brings.prevLogIndex
    omega
  rcases appendEntries_merges matching brings handled with ⟨same, -⟩ | ⟨adopts, -⟩
  · rw [same]
    exact ⟨Or.inl rfl, fun _ => rfl, fun part inLog _ => inLog, fun third left _ => left⟩
  · refine ⟨adopts.eq_or_eq, fun inside => ?_, fun part inLog inSent =>
      adopts.keeps inLog (Or.inl inSent), fun third left right => ?_⟩
    · rcases adopts with ⟨-, same⟩ | ⟨diverges, -⟩
      · exact same
      · exact absurd inside diverges
    · rcases adopts.eq_or_eq with same | same
      · exact same ▸ left
      · exact same ▸ right

theorem appendEntries_yields_parted : ∃ next reply,
    parted.2.appendEntries parting = some (next, reply) ∧
      (next.log = parted.2.log ∨ next.log = parted.1.log) :=
  ⟨_, _, rfl, ((appendEntries_yields parted_matching parting_brings).2 _ _ rfl).1⟩

/-! ### Entries that have been written over -/

theorem store_commitIndex_eq (args : AppendEntriesArgs n Command) (prevLogIndex : Nat) :
    (rf.store args prevLogIndex).commitIndex =
      if rf.commitIndex < args.leaderCommit then
        min args.leaderCommit ((rf.store args prevLogIndex).log.length - 1)
      else rf.commitIndex := by
  unfold store
  dsimp only
  split_ifs <;> rfl

/-- Up to where the entries are those of a matching log, so is the log they are inserted in. -/
theorem insertEntries_agrees {log entries : List (LogEntry Command)} {prevLogIndex bound : Nat}
    {held previous : LogEntry Command} (matching : Matching log sent)
    (found : log[prevLogIndex]? = some held) (foundSent : sent[prevLogIndex]? = some previous)
    (same : held.term = previous.term) (within : bound ≤ sent.length)
    (agree : ∀ index, prevLogIndex < index → index < bound →
      entries[index - (prevLogIndex + 1)]? = sent[index]?) {index : Nat}
    (below : index < bound) :
    (insertEntries log prevLogIndex entries)[index]? = sent[index]? := by
  have first := matching prevLogIndex held previous found foundSent same
  -- As far as the terms are those of the entries, the two logs agree.
  have shared : ∀ count, (∀ k < count, termAt log (prevLogIndex + 1 + k) = termAt entries k) →
      index < prevLogIndex + 1 + count → log[index]? = sent[index]? := by
    intro count terms before
    have agreed : log.take (prevLogIndex + 1 + (index - prevLogIndex)) =
        sent.take (prevLogIndex + 1 + (index - prevLogIndex)) := by
      by_cases early : index ≤ prevLogIndex
      · rwa [Nat.sub_eq_zero_of_le early]
      refine take_of_terms matching first (by omega) fun k passed => ?_
      have at' := agree (prevLogIndex + 1 + k) (by omega) (by omega)
      rw [Nat.add_sub_cancel_left] at at'
      rw [terms k (by omega), termAt, termAt, at', List.getElem?_drop]
    have equal := congrArg (·[index]?) agreed
    simpa [List.getElem?_take, show index < prevLogIndex + 1 + (index - prevLogIndex) by omega]
      using equal
  rcases insertEntries_split found entries with
    ⟨kept, terms⟩ | ⟨count, more, whole, terms, -, split⟩
  · rw [kept]
    refine shared entries.length terms ?_
    by_contra beyond
    have missing := agree index (by omega) below
    rw [List.getElem?_eq_none (by omega), eq_comm, List.getElem?_eq_none_iff] at missing
    omega
  · rw [split]
    by_cases before : index < prevLogIndex + 1 + count
    · rw [List.getElem?_append_left (by rw [List.length_take]; omega), List.getElem?_take,
        if_pos before]
      exact shared count terms before
    · rw [List.getElem?_append_right (by rw [List.length_take]; omega), List.length_take,
        Nat.min_eq_left whole, List.getElem?_drop, ← agree index (by omega) below]
      congr 1
      omega

theorem appendEntriesArgs_previous_eq {sender : Raft n Command} {call : AppendCall n}
    (built : sender.appendEntriesArgs call = some (nextIndex, args)) (behind : nextIndex ≠ 0) :
    ∃ prevLogIndex previous, nextIndex = prevLogIndex + 1 ∧
      args.prevLogIndex = prevLogIndex ∧ sender.log[prevLogIndex]? = some previous ∧
      args.prevLogTerm = previous.term := by
  obtain ⟨brings, -⟩ := appendEntriesArgs_brings built
  obtain ⟨prevLogIndex, rfl⟩ := Nat.exists_eq_succ_of_ne_zero behind
  have found := List.getElem?_eq_getElem (Nat.lt_of_succ_le brings.within)
  have term := brings.prevLogTerm
  rw [Nat.succ_eq_add_one, take_succ_of_getElem? found, lastTerm_concat] at term
  have position := brings.prevLogIndex
  exact ⟨prevLogIndex, _, rfl, by omega, found, term⟩

/-- A follower commits what the sender has committed, where the entries that arrive are the
sender's. -/
theorem commits_of_agrees {sender : Raft n Command} {call : AppendCall n}
    {entries : List (LogEntry Command)}
    (within : sender.commitIndex < sender.log.length)
    (built : sender.appendEntriesArgs call = some (nextIndex, args))
    (agree : nextIndex = 0 ∨ ∀ index : Nat, nextIndex ≤ index →
      (index : Int) ≤ sender.commitIndex → entries[index - nextIndex]? = sender.log[index]?)
    (matching : Matching rf.log sender.log)
    (handled : rf.appendEntries { args with entries := entries } = some (next, reply))
    (raised : rf.commitIndex < next.commitIndex) :
    next.commitIndex ≤ sender.commitIndex ∧
      ∀ index : Nat, (index : Int) ≤ next.commitIndex →
        ∃ entry, next.log[index]? = some entry ∧ sender.log[index]? = some entry := by
  have commit := heed_commitIndex rf args.term
  obtain ⟨-, leaderCommit⟩ := appendEntriesArgs_brings built
  cases appendEntries_outcome handled with
  | dead gone => omega
  | stale alive older _ _ same term fails =>
    rcases same with rfl | rfl <;> exact absurd raised (lt_irrefl _)
  | reject alive reached _ term fails => exact absurd raised (by simp [commit])
  | blank alive reached _ term first empty => exact absurd raised (by simp [commit])
  | accept alive reached _ term prevLogIndex position held found same live =>
    obtain ⟨brings, -⟩ := appendEntriesArgs_brings built
    have isNext := brings.prevLogIndex
    obtain ⟨index', previous, rfl, position', foundSent, prevLogTerm⟩ :=
      appendEntriesArgs_previous_eq built (fun first => by dsimp only at position; omega)
    obtain rfl : index' = prevLogIndex := by dsimp only at position; omega
    have agree := agree.resolve_left (Nat.succ_ne_zero _)
    have log : (((rf.heed args.term).store { args with entries := entries }
        index').persistToStorage).log = insertEntries rf.log index' entries := by
      rw [persistToStorage_log, store_log, heed_log]
    rw [log]
    rw [persistToStorage_commitIndex, store_commitIndex_eq, commit, leaderCommit, store_log,
      heed_log] at raised ⊢
    dsimp only at raised ⊢
    split_ifs at raised ⊢ with more
    · refine ⟨min_le_left _ _, fun index below => ?_⟩
      have inSender : index < sender.log.length := by omega
      have here : index < (sender.commitIndex + 1).toNat := by omega
      have sameTerm : held.term = previous.term := Int.ofNat_inj.mp (same.symm.trans prevLogTerm)
      exact ⟨sender.log[index], (insertEntries_agrees matching found foundSent sameTerm (by omega)
        (fun later after before => agree later (by omega) (by omega)) here).trans
          (List.getElem?_eq_getElem inSender), List.getElem?_eq_getElem inSender⟩
    · omega

/-- A server with nothing but what comes before the entries of a request stores and commits them
all. -/
theorem appendEntries_fills {sender : Raft n Command} {call : AppendCall n}
    {entries : List (LogEntry Command)}
    (within : sender.commitIndex < sender.log.length)
    (built : sender.appendEntriesArgs call = some (nextIndex, args)) (behind : nextIndex ≠ 0)
    (committed : nextIndex ≤ sender.commitIndex)
    (length : entries.length = args.entries.length) : ∃ rf next : Raft n Command, ∃ reply,
      Matching rf.log sender.log ∧
      rf.appendEntries { args with entries := entries } = some (next, reply) ∧
      rf.commitIndex < next.commitIndex ∧ next.commitIndex = sender.commitIndex ∧
      next.log = sender.log.take nextIndex ++ entries := by
  obtain ⟨brings, leaderCommit⟩ := appendEntriesArgs_brings built
  obtain ⟨prevLogIndex, previous, rfl, position, found, prevLogTerm⟩ :=
    appendEntriesArgs_previous_eq built behind
  have whole : (sender.log.take (prevLogIndex + 1)).length = prevLogIndex + 1 := by
    rw [List.length_take, Nat.min_eq_left brings.within]
  have rest : entries.length = sender.log.length - (prevLogIndex + 1) := by
    rw [length, brings.entries, List.length_drop]
  let rf : Raft n Command :=
    { blank sender.id newMapStorage with log := sender.log.take (prevLogIndex + 1) }
  have held : rf.log[prevLogIndex]? = some previous := by
    simp [rf, found]
  have log : insertEntries rf.log prevLogIndex entries = rf.log ++ entries := by
    have none := matchEntries_le rf.log (prevLogIndex + 1) entries
    have isLength : rf.log.length = prevLogIndex + 1 := whole
    have zero : matchEntries rf.log (prevLogIndex + 1) entries = 0 := by omega
    simp only [insertEntries, zero, rest]
    rw [if_pos (by omega), Nat.add_zero, ← isLength, List.take_length, List.drop_zero]
  have handled : rf.appendEntries { args with entries := entries } = some (_, _) :=
    appendEntries_accepts { args with entries := entries } (by simp [rf]) (Nat.zero_le _)
      (fun _ => rfl) position held prevLogTerm
  refine ⟨rf, _, _, ?_, handled, ?_⟩
  · intro index entry entry' isHeld _ _
    have below : index < prevLogIndex + 1 := by
      have inLog := (List.getElem?_eq_some_iff.mp isHeld).1
      exact whole ▸ inLog
    exact (List.take_take ..).trans (by rw [Nat.min_eq_left below])
  · have length' : (insertEntries rf.log prevLogIndex entries).length = sender.log.length := by
      rw [log, List.length_append, whole, rest]
      omega
    have fresh : rf.commitIndex = -1 := rfl
    rw [persistToStorage_commitIndex, persistToStorage_log, store_commitIndex_eq, store_log,
      heed_log, heed_commitIndex, leaderCommit, length', log, fresh]
    rw [if_pos (by omega), min_eq_left (by omega)]
    exact ⟨by omega, rfl, rfl⟩

/-- A follower commits only what the sender has committed, exactly if nothing else has been written
to the committed entries of the request by the time they are sent. -/
theorem appendEntries_commits_iff {sender : Raft n Command} {call : AppendCall n}
    {entries : List (LogEntry Command)} (within : sender.commitIndex < sender.log.length)
    (built : sender.appendEntriesArgs call = some (nextIndex, args))
    (length : entries.length = args.entries.length) :
    (∀ (rf next : Raft n Command) (reply : AppendEntriesReply), Matching rf.log sender.log →
      rf.appendEntries { args with entries := entries } = some (next, reply) →
      rf.commitIndex < next.commitIndex →
      next.commitIndex ≤ sender.commitIndex ∧
        ∀ index : Nat, (index : Int) ≤ next.commitIndex →
          ∃ entry, next.log[index]? = some entry ∧ sender.log[index]? = some entry) ↔
      nextIndex = 0 ∨ ∀ index : Nat, nextIndex ≤ index → (index : Int) ≤ sender.commitIndex →
        entries[index - nextIndex]? = sender.log[index]? := by
  refine ⟨fun verified => or_iff_not_imp_left.mpr fun behind index after below => ?_,
    fun agree rf next reply matching handled raised =>
      commits_of_agrees within built agree matching handled raised⟩
  obtain ⟨rf, next, reply, matching, handled, raised, commit, log⟩ :=
    appendEntries_fills within built behind (by omega) length
  obtain ⟨entry, stored, inSender⟩ :=
    (verified rf next reply matching handled raised).2 index (by omega)
  have whole : (sender.log.take nextIndex).length = nextIndex :=
    List.length_take_of_le (appendEntriesArgs_brings built).1.within
  rw [log, List.getElem?_append_right (whole.trans_le after), whole] at stored
  exact stored.trans inSender.symm

theorem appendEntries_commits_iff_parted : ∃ next reply,
    parted.2.appendEntries parting = some (next, reply) ∧ next.commitIndex ≤ 1 ∧
      ∃ entry, next.log[1]? = some entry ∧ parted.1.log[1]? = some entry := by
  have built : parted.1.appendEntriesArgs ⟨s₀, s₁, 3⟩ = some (1, parting) := rfl
  have length : [LogEntry.mk 7 3].length = parting.entries.length := rfl
  have verified := (appendEntries_commits_iff (by decide) built length).mpr
    (Or.inr fun index after below => by
      have committed : (index : Int) ≤ 1 := below
      obtain rfl : index = 1 := by omega
      rfl)
  obtain ⟨bound, same⟩ := verified parted.2 _ _ parted_matching rfl (by decide)
  exact ⟨_, _, rfl, bound, same 1 (by decide)⟩

/-! ### Repeated requests -/

/-- What a follower shows of its log and its votes is the same. -/
structure Unmoved (rf next : Raft n Command) : Prop where
  log : next.log = rf.log
  currentTerm : next.currentTerm = rf.currentTerm
  votedFor : next.votedFor = rf.votedFor
  commitIndex : next.commitIndex = rf.commitIndex

theorem heed_of_follower {term : Nat} (follows : rf.state = .follower)
    (current : rf.currentTerm = term) : rf.heed term = rf :=
  if_neg (not_or.mpr ⟨by omega, not_not.mpr follows⟩)

/-- A request of a term that the server has left. -/
theorem appendEntries_of_left (alive : rf.state ≠ .dead) (older : args.term < rf.currentTerm) :
    rf.appendEntries args = some (rf.appendStale args) := by
  have stays : rf.meetTerm args.term = rf := if_neg (by omega)
  simp [appendEntries, alive, stays, older.ne]

theorem appendStale_again (rf : Raft n Command) (args : AppendEntriesArgs n Command) :
    ((rf.appendStale args).1.appendStale args).2 = (rf.appendStale args).2 := by
  rcases (rf.appendStale_cases args).1 with same | same
  · rw [same]
  · rw [same]
    unfold appendStale
    simp only [persistToStorage_log, persistToStorage_currentTerm]
    split_ifs <;> rfl

/-- A follower that holds what a request of its term carries is left as it is. -/
theorem appendEntries_settled {prevLogIndex : Nat} {held : LogEntry Command}
    (follows : rf.state = .follower) (current : rf.currentTerm = args.term)
    (position : args.prevLogIndex = prevLogIndex) (found : rf.log[prevLogIndex]? = some held)
    (same : args.prevLogTerm = held.term)
    (kept : insertEntries rf.log prevLogIndex args.entries = rf.log)
    (settled : rf.commitIndex < args.leaderCommit →
      rf.chansClosed = false ∧ rf.commitIndex = min args.leaderCommit (rf.log.length - 1)) :
    ∃ next, rf.appendEntries args = some (next, { term := args.term, success := true }) ∧
      Unmoved rf next := by
  have log : (rf.store args prevLogIndex).log = rf.log := (store_log args prevLogIndex).trans kept
  refine ⟨(rf.store args prevLogIndex).persistToStorage, ?_, log, store_currentTerm args _,
    store_votedFor args _, ?_⟩
  · rw [appendEntries_accepts args (by simp [follows]) current.le (fun more => (settled more).1)
      position found same, heed_of_follower follows current]
  · rw [persistToStorage_commitIndex, store_commitIndex_eq, log]
    split_ifs with more
    · exact (settled more).2.symm
    · rfl

/-- A follower that does not hold the previous entry of a request of its term is left as it is. -/
theorem appendEntries_unsettled {prevLogIndex : Nat} (follows : rf.state = .follower)
    (current : rf.currentTerm = args.term) (position : args.prevLogIndex = prevLogIndex)
    (differs : ∀ entry, rf.log[prevLogIndex]? = some entry → args.prevLogTerm ≠ entry.term) :
    ∃ next, rf.appendEntries args = some (next, { term := args.term }) ∧ Unmoved rf next := by
  refine ⟨rf.persistToStorage, ?_, rfl, rfl, rfl, rfl⟩
  rw [appendEntries_refuses args (by simp [follows]) current.le position differs,
    heed_of_follower follows current]

/-- A request of a left term leaves the server in its term. -/
theorem appendStale_repeats (alive : rf.state ≠ .dead) (older : args.term < rf.currentTerm)
    (handled : rf.appendStale args = (next, reply)) :
    ∃ next', next.appendEntries args = some (next', reply) ∧ Unmoved next next' := by
  have kept := (rf.appendStale_cases args).1
  have again := appendStale_again rf args
  rw [handled] at kept again
  have left : next.state ≠ .dead ∧ args.term < next.currentTerm := by
    rcases kept with rfl | rfl <;> exact ⟨alive, older⟩
  refine ⟨(next.appendStale args).1, ?_, ?_⟩
  · rw [appendEntries_of_left left.1 left.2]
    exact congrArg (fun answer => some ((next.appendStale args).1, answer)) again
  · rcases (next.appendStale_cases args).1 with same | same <;> rw [same] <;>
      exact ⟨rfl, rfl, rfl, rfl⟩

/-- What has been stored is there when the request comes again, and so is `commitIndex`. -/
theorem store_repeats {index : Nat} {entry : LogEntry Command} (follows : rf.state = .follower)
    (current : rf.currentTerm = args.term) (position : args.prevLogIndex = index)
    (found : rf.log[index]? = some entry) (same : args.prevLogTerm = entry.term)
    (opened : rf.commitIndex < args.leaderCommit → rf.chansClosed = false) :
    ∃ next', (rf.store args index).persistToStorage.appendEntries args =
        some (next', { term := args.term, success := true }) ∧
      Unmoved (rf.store args index).persistToStorage next' := by
  have log : (rf.store args index).log = _ := store_log args index
  have commit : (rf.store args index).commitIndex = _ := store_commitIndex_eq args index
  have held : (rf.store args index).persistToStorage.log[index]? = some entry := by
    rw [persistToStorage_log, log, insertEntries_keeps found args.entries le_rfl, found]
  refine appendEntries_settled ((store_state args index).trans follows)
    ((store_currentTerm args index).trans current) position held same ?_ fun more => ?_
  · rw [persistToStorage_log, log, insertEntries_again found args.entries]
  · rw [persistToStorage_commitIndex] at more ⊢
    rw [persistToStorage_chansClosed, persistToStorage_log, store_chansClosed]
    split_ifs at commit with above
    · exact ⟨opened above, commit⟩
    · omega

/-- A request that comes again right after it has been handled changes nothing and is answered in
the same way. -/
theorem appendEntries_repeats (bounded : -1 ≤ args.prevLogIndex)
    (handled : rf.appendEntries args = some (next, reply)) :
    ∃ next', next.appendEntries args = some (next', reply) ∧ Unmoved next next' := by
  by_cases gone : rf.state = .dead
  · have stays : rf.appendEntries args = some (rf, {}) := by simp [appendEntries, gone]
    rw [stays] at handled
    cases handled
    exact ⟨rf, stays, rfl, rfl, rfl, rfl⟩
  by_cases older : args.term < rf.currentTerm
  · rw [appendEntries_of_left gone older] at handled
    exact appendStale_repeats gone older (Option.some_inj.mp handled)
  have reached := not_lt.mp older
  have follows := heed_state rf args.term
  have current := heed_currentTerm reached
  have log := heed_log rf args.term
  rcases bounded.eq_or_lt with first | behind
  · rw [appendEntries_first args gone reached first.symm] at handled
    cases handled
    refine ⟨(rf.heed args.term).persistToStorage, ?_, rfl, rfl, rfl, rfl⟩
    have again : (rf.heed args.term).persistToStorage.appendEntries args = _ :=
      appendEntries_first args (by simp [follows]) current.le first.symm
    have settled : (rf.heed args.term).persistToStorage.heed args.term = _ :=
      heed_of_follower follows current
    rw [settled, persistToStorage_log, log] at again
    exact again
  obtain ⟨index, position⟩ : ∃ index : Nat, args.prevLogIndex = index :=
    ⟨args.prevLogIndex.toNat, by omega⟩
  by_cases agrees : ∃ entry, rf.log[index]? = some entry ∧ args.prevLogTerm = entry.term
  · obtain ⟨entry, found, same⟩ := agrees
    rw [appendEntries_matches args gone reached position found same] at handled
    split_ifs at handled with panics
    cases handled
    refine store_repeats follows current position (log.symm ▸ found) same fun more => ?_
    rw [heed_commitIndex] at more
    rw [heed_chansClosed]
    simpa [more] using panics
  · have differs : ∀ entry, rf.log[index]? = some entry → args.prevLogTerm ≠ entry.term :=
      fun entry found same => agrees ⟨entry, found, same⟩
    rw [appendEntries_refuses args gone reached position differs] at handled
    cases handled
    have follows : (rf.heed args.term).persistToStorage.state = .follower := follows
    exact appendEntries_unsettled follows current position (log.symm ▸ differs)

/-- What a follower is like once it has accepted a request: it has the log of the request and as
much of its `LeaderCommit` as it can, or it has ignored the entries because its log was empty. -/
theorem appendEntries_accepted (matching : Matching rf.log sent)
    (brings : args.Brings sent nextIndex) (handled : rf.appendEntries args = some (next, reply))
    (success : reply.success = true) :
    next.state = .follower ∧ next.currentTerm = args.term ∧ (next.log = [] ∨ sent <+: next.log ∧
      (next.commitIndex < args.leaderCommit →
        next.chansClosed = false ∧ next.commitIndex = next.log.length - 1)) := by
  have follows := heed_state rf args.term
  have log := heed_log rf args.term
  cases appendEntries_outcome handled with
  | dead gone => cases success
  | stale alive older _ _ same term fails => simp [fails] at success
  | reject alive reached _ term fails => simp [fails] at success
  | blank alive reached _ term first empty =>
    exact ⟨follows, heed_currentTerm reached, Or.inl (log.trans empty)⟩
  | accept alive reached _ term prevLogIndex position held found same live =>
    refine ⟨(store_state args _).trans follows,
      (store_currentTerm args _).trans (heed_currentTerm reached), Or.inr ⟨?_, fun more => ?_⟩⟩
    · rw [persistToStorage_log, store_log, log]
      exact (brings.adopts matching position found same).sent_part
    · have commit : ((rf.heed args.term).store args prevLogIndex).commitIndex = _ :=
        store_commitIndex_eq args prevLogIndex
      rw [persistToStorage_commitIndex] at more ⊢
      rw [persistToStorage_chansClosed, persistToStorage_log, store_chansClosed, heed_chansClosed]
      rw [heed_commitIndex] at commit
      split_ifs at commit with above
      · exact ⟨live above, by omega⟩
      · omega

/-- A request that has been overtaken by a later one of the same log changes nothing. -/
theorem appendEntries_overtaken {early late : AppendEntriesArgs n Command}
    {first second : List (LogEntry Command)} {firstIndex secondIndex : Nat}
    (part : first <+: second) (matching : Matching rf.log second)
    (bringsFirst : early.Brings first firstIndex) (bringsSecond : late.Brings second secondIndex)
    (term : early.term = late.term) (commit : early.leaderCommit ≤ late.leaderCommit)
    (handled : rf.appendEntries late = some (next, reply)) (success : reply.success = true) :
    ∃ next' reply', next.appendEntries early = some (next', reply') ∧ Unmoved next next' := by
  obtain ⟨follows, current, holds⟩ :=
    appendEntries_accepted matching bringsSecond handled success
  rw [← term] at current
  have isFirst := bringsFirst.prevLogIndex
  cases firstIndex with
  | zero =>
    have whole := appendEntries_first early (by simp [follows]) current.le (by omega)
    rw [heed_of_follower follows current] at whole
    exact ⟨_, _, whole, rfl, rfl, rfl, rfl⟩
  | succ index =>
    have position : early.prevLogIndex = index := by omega
    rcases holds with empty | ⟨inside, settled⟩
    · obtain ⟨next', again, unmoved⟩ := appendEntries_unsettled follows current position
        fun entry found => by simp [empty] at found
      exact ⟨next', _, again, unmoved⟩
    · -- The follower holds the log of the earlier request as well.
      have inLog := part.trans inside
      obtain ⟨previous, found⟩ : ∃ previous, first[index]? = some previous :=
        ⟨_, List.getElem?_eq_getElem bringsFirst.within⟩
      have foundHere := (getElem?_of_part inLog bringsFirst.within).trans found
      have same : early.prevLogTerm = previous.term := by
        have isTerm := bringsFirst.prevLogTerm
        rwa [take_succ_of_getElem? found, lastTerm_concat] at isTerm
      have kept : insertEntries next.log index early.entries = next.log := by
        refine insertEntries_of_terms fun k below => ?_
        rw [bringsFirst.entries] at below ⊢
        unfold termAt
        rw [List.getElem?_drop, getElem?_of_part inLog]
        rw [List.length_drop] at below
        omega
      obtain ⟨next', again, unmoved⟩ := appendEntries_settled follows current position foundHere
        same kept fun more => by
          obtain ⟨opened, whole⟩ := settled (by omega)
          exact ⟨opened, by omega⟩
      exact ⟨next', _, again, unmoved⟩

/-- Neither an overtaken nor a repeated request changes anything. -/
theorem appendEntries_harmless :
    (∀ (rf next : Raft n Command) (reply : AppendEntriesReply)
      (early late : AppendEntriesArgs n Command) (first second : List (LogEntry Command))
      (firstIndex secondIndex : Nat), first <+: second → Matching rf.log second →
      early.Brings first firstIndex → late.Brings second secondIndex → early.term = late.term →
      early.leaderCommit ≤ late.leaderCommit → rf.appendEntries late = some (next, reply) →
      reply.success = true →
      ∃ next' reply', next.appendEntries early = some (next', reply') ∧ Unmoved next next') ∧
    ∀ (rf next : Raft n Command) (reply : AppendEntriesReply) (args : AppendEntriesArgs n Command),
      -1 ≤ args.prevLogIndex → rf.appendEntries args = some (next, reply) →
      ∃ next', next.appendEntries args = some (next', reply) ∧ Unmoved next next' :=
  ⟨fun _ _ _ _ _ _ _ _ _ part matching bringsFirst bringsSecond term commit handled success =>
    appendEntries_overtaken part matching bringsFirst bringsSecond term commit handled success,
    fun _ _ _ _ bounded handled => appendEntries_repeats bounded handled⟩

/-- An earlier request of the leader, which had only one entry. -/
def overtaken : AppendEntriesArgs 3 ℕ where
  term := 3
  leaderId := s₀
  prevLogIndex := 0
  prevLogTerm := 1
  entries := []
  leaderCommit := 0

theorem appendEntries_harmless_parted : ∃ next reply,
    parted.2.appendEntries parting = some (next, reply) ∧
      (∃ next' reply', next.appendEntries overtaken = some (next', reply') ∧ Unmoved next next') ∧
      ∃ next', next.appendEntries parting = some (next', reply) ∧ Unmoved next next' := by
  have part : [⟨5, 1⟩] <+: parted.1.log := ⟨[⟨7, 3⟩], rfl⟩
  refine ⟨_, _, rfl, ?_, appendEntries_harmless.2 parted.2 _ _ parting (by decide) rfl⟩
  exact appendEntries_harmless.1 parted.2 _ _ overtaken parting _ _ 1 1 part parted_matching
    ⟨by decide, rfl, rfl, rfl⟩ parting_brings rfl (by decide) rfl rfl

end Raft

end RaftInMotion
