/-
This file is about `AppendEntries` on matching logs. Its loop compares terms only; on such logs
equal terms mean equal prefixes, and then what it stores merges the two logs: the server keeps its
own log when that already extends the leader's, and ends up with the leader's log otherwise.
-/

import RaftInMotion.Handlers.Insertion
import RaftInMotion.Model.Cluster

namespace RaftInMotion

open TermLog

variable {Command : Type} {log sent : List (LogEntry Command)}

/-- Logs that agree up to an index agree as far as they have the same terms behind it. -/
theorem take_of_terms (matching : Matching log sent) {index count : ℕ}
    (agree : log.take index = sent.take index) (within : index + count ≤ sent.length)
    (terms : ∀ k < count, Raft.termAt log (index + k) = Raft.termAt (sent.drop index) k) :
    log.take (index + count) = sent.take (index + count) := by
  cases count with
  | zero => exact agree
  | succ count =>
    obtain ⟨entry, foundSent⟩ : ∃ entry, sent[index + count]? = some entry :=
      ⟨_, List.getElem?_eq_getElem within⟩
    have term : Raft.termAt (sent.drop index) count = some entry.term :=
      Raft.termAt_of_getElem? (by rw [List.getElem?_drop, foundSent])
    obtain ⟨held, found, same⟩ :=
      Option.map_eq_some_iff.mp ((terms count (Nat.lt_succ_self count)).trans term)
    exact matching (index + count) held entry found foundSent same

/-- Behind a previous entry of the same term, the entries of a matching log are merged in. -/
theorem insertEntries_adopts (matching : Matching log sent) {prevLogIndex : ℕ}
    {held previous : LogEntry Command} (found : log[prevLogIndex]? = some held)
    (foundSent : sent[prevLogIndex]? = some previous) (same : held.term = previous.term) :
    Adopts log sent (Raft.insertEntries log prevLogIndex (sent.drop (prevLogIndex + 1))) := by
  have agree := matching prevLogIndex held previous found foundSent same
  obtain ⟨within, -⟩ := List.getElem?_eq_some_iff.mp foundSent
  rcases Raft.insertEntries_split found (sent.drop (prevLogIndex + 1)) with
    ⟨kept, terms⟩ | ⟨count, more, -, terms, parts, split⟩
  · rw [List.length_drop] at terms
    have whole := take_of_terms matching agree (by omega) terms
    rw [Nat.add_sub_cancel' within, List.take_length] at whole
    exact Or.inl ⟨whole ▸ List.take_prefix _ _, kept⟩
  · rw [List.length_drop] at more
    have inside : prevLogIndex + 1 + count < sent.length := by omega
    refine Or.inr ⟨fun inLog => parts ?_, ?_⟩
    · -- The log would hold the entry at which the loop has stopped.
      unfold Raft.termAt
      rw [List.getElem?_drop, getElem?_of_part inLog inside]
    · rw [split, take_of_terms matching agree inside.le terms, List.drop_drop,
        List.take_append_drop]

/-- `PrevLogTerm` is the last term of what comes before the entries. -/
theorem appendEntriesArgs_lastTerm {n : ℕ} {rf : Raft n Command} {call : AppendCall n}
    {built : ℕ × AppendEntriesArgs n Command} (isBuilt : rf.appendEntriesArgs call = some built) :
    built.2.prevLogTerm = lastTerm (rf.log.take built.1) := by
  unfold Raft.appendEntriesArgs at isBuilt
  dsimp only at isBuilt
  split_ifs at isBuilt
  cases isBuilt
  unfold lastTerm
  dsimp only
  cases (rf.log.take (rf.nextIndex call.peer)).getLast? <;> rfl

end RaftInMotion
