/-
This file is about what `AppendEntries` stores of the entries of a request, whatever the two logs
hold. The loop compares terms only; behind it the log is either kept, or cut off and continued
with the rest of the entries. A second insertion of the same entries changes nothing.
-/

import RaftInMotion.Library.TermLog
import RaftInMotion.Model.Outcomes

namespace RaftInMotion

variable {n : Nat} {Command : Type}

namespace Raft

variable {log entries : List (LogEntry Command)} {index prevLogIndex : Nat}

/-- The term of the entry at an index. -/
def termAt (log : List (LogEntry Command)) (index : Nat) : Option Nat :=
  log[index]?.map LogEntry.term

theorem lt_length_of_termAt {term : Nat} (found : termAt log index = some term) :
    index < log.length := by
  obtain ⟨entry, there, -⟩ := Option.map_eq_some_iff.mp found
  exact (List.getElem?_eq_some_iff.mp there).1

theorem termAt_of_getElem? {entry : LogEntry Command} (found : log[index]? = some entry) :
    termAt log index = some entry.term := by
  unfold termAt
  rw [found, Option.map_some]

/-! ### The loop -/

theorem matchEntries_le (log : List (LogEntry Command)) (index : Nat)
    (entries : List (LogEntry Command)) : matchEntries log index entries ≤ log.length - index := by
  induction entries generalizing index with
  | nil => exact Nat.zero_le _
  | cons entry rest inductionHypothesis =>
    unfold matchEntries
    split
    · exact Nat.zero_le _
    · next held found =>
      have within := (List.getElem?_eq_some_iff.mp found).1
      have bound := inductionHypothesis (index + 1)
      split_ifs <;> omega

theorem matchEntries_le_length (log : List (LogEntry Command)) (index : Nat)
    (entries : List (LogEntry Command)) : matchEntries log index entries ≤ entries.length := by
  induction entries generalizing index with
  | nil => exact Nat.zero_le _
  | cons entry rest inductionHypothesis =>
    have bound := inductionHypothesis (index + 1)
    unfold matchEntries
    split
    · exact Nat.zero_le _
    · split_ifs
      · exact Nat.zero_le _
      · exact Nat.succ_le_succ bound

/-- The loop has passed entries of equal terms only. -/
theorem matchEntries_terms {k : Nat} (passed : k < matchEntries log index entries) :
    termAt log (index + k) = termAt entries k := by
  induction entries generalizing index k with
  | nil => exact absurd passed (Nat.not_lt_zero k)
  | cons entry rest inductionHypothesis =>
    unfold matchEntries at passed
    split at passed
    · exact absurd passed (Nat.not_lt_zero k)
    · next held found =>
      split_ifs at passed with differs
      · exact absurd passed (Nat.not_lt_zero k)
      · cases k with
        | zero =>
          rw [Nat.add_zero, termAt_of_getElem? found, not_not.mp differs]
          rfl
        | succ k =>
          have tail := inductionHypothesis (Nat.lt_of_succ_lt_succ passed)
          rw [show index + (k + 1) = index + 1 + k by omega, tail]
          rfl

/-- The loop stops at an entry whose term the log does not have there. -/
theorem matchEntries_stops (stops : matchEntries log index entries < entries.length) :
    termAt log (index + matchEntries log index entries) ≠
      termAt entries (matchEntries log index entries) := by
  induction entries generalizing index with
  | nil => exact absurd stops (Nat.not_lt_zero _)
  | cons entry rest inductionHypothesis =>
    unfold matchEntries at stops ⊢
    split at stops
    · next ends =>
      simp [termAt, ends]
    · next held found =>
      split_ifs at stops ⊢ with differs
      · simpa [termAt, found] using differs
      · have further := inductionHypothesis (Nat.lt_of_succ_lt_succ stops)
        rwa [Nat.add_right_comm, Nat.add_assoc] at further

/-- The loop passes all entries whose terms the log already has. -/
theorem matchEntries_eq_length
    (same : ∀ k < entries.length, termAt log (index + k) = termAt entries k) :
    matchEntries log index entries = entries.length := by
  induction entries generalizing index with
  | nil => rfl
  | cons entry rest inductionHypothesis =>
    have first : termAt log index = some entry.term := same 0 (Nat.succ_pos _)
    obtain ⟨held, found, equal⟩ := Option.map_eq_some_iff.mp first
    unfold matchEntries
    rw [found]
    dsimp only
    rw [if_neg (not_not.mpr equal), inductionHypothesis, List.length_cons]
    intro k below
    have next := same (k + 1) (Nat.succ_lt_succ below)
    rw [show index + 1 + k = index + (k + 1) by omega, next]
    rfl

/-! ### The log behind the loop -/

/-- Either all terms of the entries are there already and the log is kept, or the log ends with
the entries behind those it has the terms of. -/
theorem insertEntries_split {held : LogEntry Command} (inside : log[prevLogIndex]? = some held)
    (entries : List (LogEntry Command)) :
    insertEntries log prevLogIndex entries = log ∧
        (∀ k < entries.length, termAt log (prevLogIndex + 1 + k) = termAt entries k) ∨
      ∃ count < entries.length, prevLogIndex + 1 + count ≤ log.length ∧
        (∀ k < count, termAt log (prevLogIndex + 1 + k) = termAt entries k) ∧
        termAt log (prevLogIndex + 1 + count) ≠ termAt entries count ∧
        insertEntries log prevLogIndex entries =
          log.take (prevLogIndex + 1 + count) ++ entries.drop count := by
  have within := (List.getElem?_eq_some_iff.mp inside).1
  have bound := matchEntries_le log (prevLogIndex + 1) entries
  have short := matchEntries_le_length log (prevLogIndex + 1) entries
  have terms := fun k => @matchEntries_terms Command log entries (prevLogIndex + 1) k
  have stops := @matchEntries_stops Command log entries (prevLogIndex + 1)
  unfold insertEntries
  dsimp only
  generalize matchEntries log (prevLogIndex + 1) entries = count at bound short terms stops ⊢
  split_ifs with more
  · exact Or.inr ⟨count, more, by omega, terms, stops more, rfl⟩
  · obtain rfl : count = entries.length := by omega
    exact Or.inl ⟨rfl, terms⟩

/-- An entry after an insertion was there before, or it is one of the inserted ones. -/
theorem insertEntries_cases {i : Nat} {held entry : LogEntry Command}
    (inside : log[prevLogIndex]? = some held)
    (found : (insertEntries log prevLogIndex entries)[i]? = some entry) :
    log[i]? = some entry ∨ ∃ k, i = prevLogIndex + 1 + k ∧ entries[k]? = some entry := by
  rcases insertEntries_split inside entries with ⟨same, -⟩ | ⟨count, -, within, -, -, split⟩
  · exact Or.inl (same ▸ found)
  · have length := List.length_take_of_le within
    rw [split] at found
    rcases Nat.lt_or_ge i (prevLogIndex + 1 + count) with before | behind
    · rw [List.getElem?_append_left (by omega), List.getElem?_take, if_pos before] at found
      exact Or.inl found
    · rw [List.getElem?_append_right (by omega), List.getElem?_drop, length] at found
      refine Or.inr ⟨i - (prevLogIndex + 1), by omega, ?_⟩
      rwa [show count + (i - (prevLogIndex + 1 + count)) = i - (prevLogIndex + 1) by omega] at found

theorem insertEntries_length {log : List (LogEntry Command)} (entries : List (LogEntry Command))
    {prevLogIndex : Nat} {held : LogEntry Command} (inside : log[prevLogIndex]? = some held) :
    (insertEntries log prevLogIndex entries).length = log.length ∨
      (insertEntries log prevLogIndex entries).length = prevLogIndex + 1 + entries.length := by
  rcases insertEntries_split inside entries with ⟨same, -⟩ | ⟨count, more, within, -, -, split⟩
  · exact Or.inl (congrArg List.length same)
  · refine Or.inr ?_
    rw [split, List.length_append, List.length_take_of_le within, List.length_drop]
    omega

theorem insertEntries_of_terms
    (same : ∀ k < entries.length, termAt log (prevLogIndex + 1 + k) = termAt entries k) :
    insertEntries log prevLogIndex entries = log := by
  unfold insertEntries
  dsimp only
  rw [matchEntries_eq_length same, if_neg (Nat.lt_irrefl _)]

/-- What the log holds up to the previous entry stays. -/
theorem insertEntries_keeps {held : LogEntry Command} (inside : log[prevLogIndex]? = some held)
    (entries : List (LogEntry Command)) {i : Nat} (before : i ≤ prevLogIndex) :
    (insertEntries log prevLogIndex entries)[i]? = log[i]? := by
  rcases insertEntries_split inside entries with ⟨same, -⟩ | ⟨count, -, within, -, -, split⟩
  · rw [same]
  · have length := List.length_take_of_le within
    rw [split, List.getElem?_append_left (by omega), List.getElem?_take, if_pos (by omega)]

/-- Afterwards the log has the terms of the entries. -/
theorem insertEntries_terms {held : LogEntry Command} (inside : log[prevLogIndex]? = some held)
    {k : Nat} (below : k < entries.length) :
    termAt (insertEntries log prevLogIndex entries) (prevLogIndex + 1 + k) = termAt entries k := by
  rcases insertEntries_split inside entries with
    ⟨same, terms⟩ | ⟨count, -, within, terms, -, split⟩
  · rw [same]
    exact terms k below
  · have length := List.length_take_of_le within
    rw [split]
    unfold termAt at terms ⊢
    rcases Nat.lt_or_ge k count with passed | inserted
    · rw [List.getElem?_append_left (by omega), List.getElem?_take, if_pos (by omega)]
      exact terms k passed
    · rw [List.getElem?_append_right (by omega), List.getElem?_drop, length,
        show count + (prevLogIndex + 1 + k - (prevLogIndex + 1 + count)) = k by omega]

/-- The same entries are not inserted twice. -/
theorem insertEntries_again {held : LogEntry Command} (inside : log[prevLogIndex]? = some held)
    (entries : List (LogEntry Command)) :
    insertEntries (insertEntries log prevLogIndex entries) prevLogIndex entries =
      insertEntries log prevLogIndex entries :=
  insertEntries_of_terms fun _ below => insertEntries_terms inside below

end Raft

end RaftInMotion
