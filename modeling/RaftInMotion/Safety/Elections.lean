/-
This file settles who leads a term and what logs may hold. In a run in which no outcome of an
earlier election decides anything, a term has at most one leader, and equal terms at one index
of two logs mean equal logs up to it. The counters of an election are shared only by its own
goroutines, but the state they decide on is shared with all later elections of the server. A
run of three servers in which the last reply of the first election arrives during the second
one ends with two leaders of one term, who then append different commands.
-/

import RaftInMotion.Refinement.Actions

namespace RaftInMotion

open Replication Cluster Execution TermLog

variable {n : Nat} {Command : Type} {c : Cluster n Command}

/-! ### One leader for each term -/

/-- At most one server starts to lead in a term. -/
def ElectionSafety (c : Cluster n Command) : Prop :=
  ∀ term s s' log log', .startedLeader s term log ∈ c.history →
    .startedLeader s' term log' ∈ c.history → s = s'

theorem Refines.electionSafety {trust : Prop} {a : Spec n Command} (refines : Refines trust c a) :
    ElectionSafety c := by
  intro term s s' log log' started started'
  obtain ⟨led, -⟩ : Recorded trust a (.startedLeader s term log) := refines.event _ started
  obtain ⟨led', -⟩ : Recorded trust a (.startedLeader s' term log') := refines.event _ started'
  exact Option.some.inj (led.symm.trans led')

theorem safeElections_spec (c : Cluster n Command) (action : Action n Command)
    (safe : c.safeElections action = true) :
    c.restartFree action = true ∧ c.promptElections action = true := by
  simpa [safeElections] using safe

theorem election_safety (preload : Option (Preload Command)) (actions : List (Action n Command))
    (taken : run preload actions = some c)
    (safe : along step safeElections (start n preload) actions = true) : ElectionSafety c := by
  obtain ⟨a, -, refines⟩ := refines_run False safeElections_spec (fun absurd => absurd.elim) taken
    safe
  exact refines.electionSafety

theorem election_safety_elected : ∃ c, run none election = some c ∧
    .startedLeader 0 1 [] ∈ c.history ∧ ElectionSafety c := by
  obtain ⟨c, taken, started⟩ := (Option.any_eq_true _ _).mp (by decide +kernel :
    (run none election).any (fun c => decide (.startedLeader 0 1 [] ∈ c.history)) = true)
  exact ⟨c, taken, of_decide_eq_true started, election_safety none election taken
    (by decide +kernel)⟩

/-- Server 0 has one vote of term 1 when it starts over in term 2. Server 2 wins term 2 with
the vote of server 1, and then the other reply of term 1 reaches server 0. -/
def staleElection : List (Action 3 ℕ) :=
  timeout s₀ 0 ++ [.send 0, .send 1, .handle 0, .handle 1, .finish 0] ++
    timeout s₀ 0 ++ timeout s₂ 0 ++ roundTrip 5 ++ roundTrip 4 ++ [.finish 1]

theorem election_safety_fails : ∃ c, run none staleElection = some c ∧
    along step restartFree (start 3 none) staleElection = true ∧ ¬ ElectionSafety c := by
  obtain ⟨c, taken, both⟩ := (Option.any_eq_true _ _).mp (by decide +kernel :
    (run none staleElection).any (fun c => decide (.startedLeader 0 2 [] ∈ c.history ∧
      .startedLeader 2 2 [] ∈ c.history)) = true)
  obtain ⟨first, second⟩ := of_decide_eq_true both
  refine ⟨c, taken, by decide +kernel, fun safe => ?_⟩
  exact absurd (safe 2 0 2 [] [] first second) (by decide)

/-! ### Log matching -/

/-- Equal terms at one index of two logs mean equal entries up to it. -/
def LogMatching (c : Cluster n Command) : Prop :=
  ∀ p q (i : ℕ) entry entry', (c.node p).log[i]? = some entry → (c.node q).log[i]? = some entry' →
    entry.term = entry'.term → ∀ j ≤ i, (c.node p).log[j]? = (c.node q).log[j]?

theorem Refines.logMatching {trust : Prop} {floor : ℕ} {a : Spec n Command}
    (refines : Refines trust c a) (invariant : Invariant floor a) : LogMatching c := by
  intro p q i entry entry' found found' same j within
  have rooted := (invariant.logs.held p).rooted
  have rooted' := (invariant.logs.held q).rooted
  rw [(refines.node p).log] at rooted
  rw [(refines.node q).log] at rooted'
  have equal := congrArg (·[j]?) (rooted.matching rooted' found found' same)
  simpa [List.getElem?_take, Nat.lt_succ_of_le within] using equal

theorem log_matching (preload : Option (Preload Command)) (actions : List (Action n Command))
    (taken : run preload actions = some c)
    (safe : along step safeElections (start n preload) actions = true) : LogMatching c := by
  obtain ⟨a, invariant, refines⟩ := refines_run False safeElections_spec
    (fun absurd => absurd.elim) taken safe
  exact refines.logMatching invariant

/-- The two leaders of term 2 append different commands. -/
theorem log_matching_fails : ∃ c,
    run none (staleElection ++ [.submit s₀ 7, .submit s₂ 8]) = some c ∧
      along step restartFree (start 3 none) (staleElection ++ [.submit s₀ 7, .submit s₂ 8]) = true ∧
      ¬ LogMatching c := by
  obtain ⟨c, taken, both⟩ := (Option.any_eq_true _ _).mp (by decide +kernel :
    (run none (staleElection ++ [.submit s₀ 7, .submit s₂ 8])).any (fun c => decide
      ((c.node 0).log = [⟨7, 2⟩] ∧ (c.node 2).log = [⟨8, 2⟩])) = true)
  obtain ⟨first, second⟩ := of_decide_eq_true both
  refine ⟨c, taken, by decide +kernel, fun holds => ?_⟩
  have equal := holds 0 2 0 ⟨7, 2⟩ ⟨8, 2⟩ (by rw [first]; rfl) (by rw [second]; rfl) rfl 0 le_rfl
  rw [first, second] at equal
  exact absurd equal (by decide)

end RaftInMotion
