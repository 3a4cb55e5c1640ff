/-
This file settles that the loop of the leader's reply handler is the commit rule of Raft. The loop
overwrites `commitIndex` while it goes through the log, and positions that are eligible may lie
among others that are not; what it leaves is the greatest eligible one. A position is eligible
when its entry is of the leader's own term and more than half of the servers hold it, the leader
among them.
-/

import Mathlib.Order.Bounds.Defs
import RaftInMotion.Handlers.Hints

namespace RaftInMotion

variable {n : Nat} {Command : Type}

/-- A forward loop that overwrites its result leaves the last position that qualifies, if any. -/
theorem foldl_range_last (start : Int) (qualifies : Nat → Bool) (length : Nat) :
    let last := (List.range length).foldl (fun best (index : Nat) =>
      if start < (index : Int) && qualifies index then (index : Int) else best) start
    (∃ N : Nat, last = N ∧
      IsGreatest {index : Nat | index < length ∧ start < index ∧ qualifies index = true} N) ∨
    last = start ∧ ∀ index < length, start < index → qualifies index = false := by
  induction length with
  | zero => exact Or.inr ⟨rfl, fun index below => absurd below (Nat.not_lt_zero index)⟩
  | succ length inductionHypothesis =>
    dsimp only at inductionHypothesis ⊢
    rw [List.range_succ, List.foldl_append, List.foldl_cons, List.foldl_nil]
    by_cases here : start < (length : Int) ∧ qualifies length = true
    · rw [if_pos (by simpa using here)]
      exact Or.inl ⟨length, rfl, ⟨Nat.lt_succ_self _, here⟩,
        fun index among => Nat.lt_succ_iff.mp among.1⟩
    · rw [if_neg (by simpa using here)]
      rcases inductionHypothesis with ⟨N, last, among, greatest⟩ | ⟨last, none⟩
      · refine Or.inl ⟨N, last, ⟨among.1.trans (Nat.lt_succ_self _), among.2⟩,
          fun index among' => ?_⟩
        rcases Nat.lt_succ_iff_lt_or_eq.mp among'.1 with below | rfl
        · exact greatest ⟨below, among'.2⟩
        · exact absurd among'.2 here
      · refine Or.inr ⟨last, fun index below above => ?_⟩
        rcases Nat.lt_succ_iff_lt_or_eq.mp below with inside | rfl
        · exact none index inside above
        · exact Bool.eq_false_iff.mpr fun holds => here ⟨above, holds⟩

namespace Raft

variable {rf next : Raft n Command}

/-! ### The rule -/

/-- The entry at the index is of the term of the leader, and more than half of the servers hold it,
as far as the leader knows. -/
def Eligible (rf : Raft n Command) (index : Nat) : Prop :=
  termAt rf.log index = some rf.currentTerm ∧
    n < 2 * (Finset.univ.filter fun s => s = rf.id ∨ (index : Int) ≤ rf.matchIndex s).card

/-- The new `commitIndex` is the greatest eligible one above the old, or the old one if there is
none. -/
def CommitRule (rf : Raft n Command) (old : Int) : Prop :=
  (∃ N : Nat, rf.commitIndex = N ∧
    IsGreatest {index : Nat | old < index ∧ rf.Eligible index} N) ∨
  rf.commitIndex = old ∧ ∀ index : Nat, old < index → ¬rf.Eligible index

theorem countable_iff (rf : Raft n Command) (index : Nat) :
    rf.countable index = true ↔ rf.Eligible index := by
  have servers := peerIds_length rf
  unfold countable Eligible
  rw [Bool.and_eq_true, decide_eq_true_eq, decide_eq_true_eq, ← matchCount_eq]
  exact and_congr_right fun _ => by omega

theorem advanceCommit_rule (rf : Raft n Command) :
    CommitRule { rf with commitIndex := rf.advanceCommit } rf.commitIndex := by
  have within : ∀ index, rf.Eligible index → index < rf.log.length :=
    fun index eligible => lt_length_of_termAt eligible.1
  rcases foldl_range_last rf.commitIndex rf.countable rf.log.length with
    ⟨N, last, among, greatest⟩ | ⟨last, none⟩
  · refine Or.inl ⟨N, last, ⟨among.2.1, (countable_iff rf N).mp among.2.2⟩, fun index among' => ?_⟩
    exact greatest ⟨within index among'.2, among'.1, (countable_iff rf index).mpr among'.2⟩
  · refine Or.inr ⟨last, fun index above eligible => ?_⟩
    have counts := (countable_iff rf index).mpr eligible
    rw [none index (within index eligible) above] at counts
    cases counts

theorem CommitRule.forward {old : Int} (rule : rf.CommitRule old) : old ≤ rf.commitIndex := by
  rcases rule with ⟨N, commit, among, -⟩ | ⟨commit, -⟩
  · exact commit ▸ among.1.le
  · exact commit.ge

/-! ### The reply handler -/

/-- A successful reply to a request of the leader's own term moves `commitIndex` by the rule, and
announces it when it has moved. -/
theorem receiveAppend_commits (rf : Raft n Command) (call : AppendCall n) (nextIndexForPeer : Nat)
    (args : AppendEntriesArgs n Command) (reply : AppendEntriesReply) (leads : rf.state = .leader)
    (own : call.savedCurrentTerm = reply.term) (reached : reply.term ≤ rf.currentTerm)
    (success : reply.success = true) :
    (rf.chansClosed = false →
      (rf.receiveAppend call nextIndexForPeer args reply).isSome = true) ∧
    ∀ next, rf.receiveAppend call nextIndexForPeer args reply = some next →
      next.log = rf.log ∧ next.currentTerm = rf.currentTerm ∧
      next.matchIndex = Function.update rf.matchIndex call.peer
        ((nextIndexForPeer + args.entries.length : Nat) - 1) ∧
      next.CommitRule rf.commitIndex ∧ rf.commitIndex ≤ next.commitIndex ∧
      next.newCommitReady =
        rf.newCommitReady + if next.commitIndex = rf.commitIndex then 0 else 1 := by
  have rule := advanceCommit_rule
    (rf.acknowledge call.peer (nextIndexForPeer + args.entries.length))
  unfold receiveAppend
  rw [if_neg (by omega), if_pos ⟨leads, own⟩, if_pos success]
  dsimp only
  split_ifs with moves
  · refine ⟨fun opened => ?_, fun next notified => ?_⟩
    · simp [notifyCommit, acknowledge, opened]
    · unfold notifyCommit at notified
      split_ifs at notified
      cases notified
      exact ⟨rfl, rfl, rfl, rule, CommitRule.forward rule, by rw [if_neg moves]; rfl⟩
  · refine ⟨fun _ => rfl, fun next same => ?_⟩
    cases same
    rw [not_not.mp moves] at rule
    exact ⟨rfl, rfl, rfl, rule, le_rfl, by simp [acknowledge]⟩

open Cluster (s₀ s₁)

/-- A leader of term 3 with an entry of its own, one of an older term before it, and one of a term
that is not its own behind it; server 1 is about to acknowledge all three. -/
def counting : Raft 3 ℕ :=
  elect [⟨5, 1⟩, ⟨7, 3⟩, ⟨8, 2⟩]

theorem receiveAppend_commits_counting : ∃ next,
    counting.receiveAppend ⟨s₀, s₁, 3⟩ 0 ⟨3, s₀, -1, -1, counting.log, -1⟩
        { term := 3, success := true } = some next ∧
      next.commitIndex = 1 ∧ next.CommitRule (-1) := by
  have commits := receiveAppend_commits counting ⟨s₀, s₁, 3⟩ 0 ⟨3, s₀, -1, -1, counting.log, -1⟩
    { term := 3, success := true } rfl rfl le_rfl rfl
  exact ⟨_, rfl, by decide, (commits.2 _ rfl).2.2.2.1⟩

end Raft

end RaftInMotion
