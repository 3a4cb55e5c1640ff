/-
This file settles what acknowledgements and commitment are worth. In a run in which, moreover,
no server acknowledges entries it has not stored and no leader counts an acknowledgement of an
earlier term, what a leader counts as matched is matched, and every later leader starts with
all entries that were ever committed by counting. The branch of `AppendEntries` for
`PrevLogIndex = -1` breaks both: a server with an empty log answers that the request succeeded
and stores nothing.
-/

import RaftInMotion.Safety.Elections

namespace RaftInMotion

open Replication Cluster Execution TermLog

variable {n : Nat} {Command : Type} {c : Cluster n Command}

theorem safeReplication_spec (c : Cluster n Command) (action : Action n Command)
    (safe : c.safeReplication action = true) :
    (c.restartFree action = true ∧ c.promptElections action = true) ∧
      c.truthfulAcks action = true := by
  simpa [safeReplication, safeElections] using safe

/-- A run with truthful acknowledgements refines the protocol with its commitments. -/
theorem refines_replication (preload : Option (Preload Command))
    (actions : List (Action n Command)) (taken : run preload actions = some c)
    (safe : along step safeReplication (start n preload) actions = true) :
    ∃ a, Invariant ((preload.map Preload.currentTerm).getD 0) a ∧ Refines True c a :=
  refines_run True (fun c action allows => (safeReplication_spec c action allows).1)
    (fun _ c action allows => (safeReplication_spec c action allows).2) taken safe

/-! ### Acknowledgements -/

/-- A peer in the leader's term holds what the leader counts as matched. -/
def TruthfulMatchIndex (c : Cluster n Command) : Prop :=
  ∀ leader peer (m : ℕ), (c.node leader).state = .leader → peer ≠ leader →
    (c.node peer).currentTerm = (c.node leader).currentTerm →
    (c.node leader).matchIndex peer = m → m + 1 ≤ (c.node peer).log.length ∧
      ∀ i ≤ m, (c.node peer).log[i]? = (c.node leader).log[i]?

theorem Refines.truthfulMatchIndex {floor : ℕ} {a : Spec n Command} (refines : Refines True c a)
    (invariant : Invariant floor a) : TruthfulMatchIndex c := by
  intro leader peer m leads other sameTerm isMatch
  have mirrors := refines.node leader
  have mirrorsPeer := refines.node peer
  have led := invariant.elections.leading (mirrors.leader leads)
  have acked := mirrors.matched trivial leads peer other
  have whole := invariant.logs.leading led
  have bounded := invariant.confirmed.bounded peer (a.term leader)
  have retained := invariant.confirmed.retained led rfl
    (mirrorsPeer.term.trans (sameTerm.trans mirrors.term.symm))
  rw [whole, mirrors.log, mirrors.term] at bounded retained
  rw [mirrorsPeer.log] at retained
  rw [isMatch] at acked
  have long : m + 1 ≤ a.acked peer (c.node leader).currentTerm := by omega
  have part : (c.node leader).log.take (m + 1) <+: (c.node peer).log :=
    ((List.take_prefix_take_left long).trans retained)
  have length : ((c.node leader).log.take (m + 1)).length = m + 1 := by
    rw [List.length_take]
    omega
  refine ⟨length ▸ part.length_le, fun i within => ?_⟩
  rw [getElem?_of_part part (by omega), List.getElem?_take, if_pos (by omega)]

theorem truthful_matchIndex (preload : Option (Preload Command))
    (actions : List (Action n Command)) (taken : run preload actions = some c)
    (safe : along step safeReplication (start n preload) actions = true) :
    TruthfulMatchIndex c := by
  obtain ⟨a, invariant, refines⟩ := refines_replication preload actions taken safe
  exact refines.truthfulMatchIndex invariant

/-- Server 0 leads, takes a command, and counts the acknowledgement of server 1, whose log was
and stays empty. -/
def blindRun : List (Action 3 ℕ) :=
  election ++ [.submit s₀ 7, .leaderLoop s₀ 0] ++ roundTrip 2

theorem truthful_matchIndex_fails : ∃ c, run none blindRun = some c ∧
    along step restartFree (start 3 none) blindRun = true ∧ ¬ TruthfulMatchIndex c := by
  obtain ⟨c, taken, facts⟩ := (Option.any_eq_true _ _).mp (by decide +kernel :
    (run none blindRun).any (fun c => decide ((c.node 0).state = .leader ∧
      (c.node 1).currentTerm = (c.node 0).currentTerm ∧ (c.node 0).matchIndex 1 = ((0 : ℕ) : ℤ) ∧
      (c.node 1).log = [])) = true)
  obtain ⟨leads, sameTerm, isMatch, empty⟩ := of_decide_eq_true facts
  refine ⟨c, taken, by decide +kernel, fun holds => ?_⟩
  have long := (holds 0 1 0 leads (by decide) sameTerm isMatch).1
  rw [empty] at long
  exact absurd long (by decide)

/-! ### Leader completeness -/

/-- A server that starts to lead later holds what a leader has committed in a lower term. -/
def LeaderCompleteness (c : Cluster n Command) : Prop :=
  ∀ s term commitIndex log s' term' log',
    [.startedLeader s' term' log', .advancedCommit s term commitIndex log].Sublist c.history →
      term < term' → ∀ i : ℕ, i ≤ commitIndex →
        ∃ entry, log[i]? = some entry ∧ log'[i]? = some entry

theorem Refines.leaderCompleteness {floor : ℕ} {a : Spec n Command} (refines : Refines True c a)
    (invariant : Invariant floor a) : LeaderCompleteness c := by
  intro s term commitIndex log s' term' log' happened above i within
  have advanced : Recorded True a (.advancedCommit s term commitIndex log) :=
    refines.event _ (happened.subset (by simp))
  obtain ⟨led, electLog⟩ : Recorded True a (.startedLeader s' term' log') :=
    refines.event _ (happened.subset (by simp))
  obtain ⟨part, chosen, inLog, length⟩ := advanced trivial
  have inLater := invariant.chosen_prefix_electLog chosen above led
  rw [electLog] at inLater
  have inside : i < part.length := by omega
  exact ⟨part[i], (getElem?_of_part inLog inside).trans (List.getElem?_eq_getElem inside),
    (getElem?_of_part inLater inside).trans (List.getElem?_eq_getElem inside)⟩

theorem leader_completeness (preload : Option (Preload Command))
    (actions : List (Action n Command)) (taken : run preload actions = some c)
    (safe : along step safeReplication (start n preload) actions = true) :
    LeaderCompleteness c := by
  obtain ⟨a, invariant, refines⟩ := refines_replication preload actions taken safe
  exact refines.leaderCompleteness invariant

/-- The leader has committed on the acknowledgement of server 1, which is then elected by
server 2 with an empty log. -/
theorem leader_completeness_fails : ∃ c,
    run none (blindRun ++ timeout s₁ 1 ++ roundTrip 5 ++ roundTrip 4) = some c ∧
      along step restartFree (start 3 none)
        (blindRun ++ timeout s₁ 1 ++ roundTrip 5 ++ roundTrip 4) = true ∧
      ¬ LeaderCompleteness c := by
  obtain ⟨c, taken, happened⟩ := (Option.any_eq_true _ _).mp (by decide +kernel :
    (run none (blindRun ++ timeout s₁ 1 ++ roundTrip 5 ++ roundTrip 4)).any (fun c => decide
      ([.startedLeader 1 2 [], .advancedCommit 0 1 0 [⟨7, 1⟩]].Sublist c.history)) = true)
  refine ⟨c, taken, by decide +kernel, fun holds => ?_⟩
  obtain ⟨entry, -, missing⟩ :=
    holds 0 1 0 [⟨7, 1⟩] 1 2 [] (of_decide_eq_true happened) (by decide) 0 (by decide)
  cases missing

end RaftInMotion
