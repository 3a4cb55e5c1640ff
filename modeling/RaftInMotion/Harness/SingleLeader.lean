/-
This file embeds `CheckSingleLeader` of `internal/harness`, by which the simulations find out who
leads. It asks one server after the other, each under the lock of that server alone, while the
cluster goes on: what it answers has been true of each server when it was asked, and need never
have been true of all of them at once. In particular two leaders that make it give up may be one
that has been voted out since it was asked and its successor; while elections are safe, they never
lead one term.
-/

import RaftInMotion.Safety.Elections

namespace RaftInMotion

open Cluster Execution Replication

variable {n : Nat} {Command : Type}

/-- `Report`. -/
def Raft.report (rf : Raft n Command) : Fin n × Nat × Bool :=
  (rf.id, rf.currentTerm, rf.state = .leader)

/-- `IsLeader` of the service, which asks its server. -/
def Cluster.isLeader (c : Cluster n Command) (s : Fin n) : Bool :=
  (c.node s).report.2.2

/-! ### The loops of the check -/

/-- The variables of `CheckSingleLeader`, and what it has returned. -/
structure Check where
  r : Nat
  leaderId : Int
  i : Nat
  result : Option Int
deriving DecidableEq, Repr

namespace Check

def new : Check :=
  ⟨0, -1, 0, none⟩

/-- One turn of the loop over the servers, or what follows its last one. -/
def step (connected isLeader : Fin n → Bool) (check : Check) : Option Check :=
  if check.result.isSome then none
  else if inside : check.i < n then
    let i : Fin n := ⟨check.i, inside⟩
    if connected i && isLeader i then
      if check.leaderId < 0 then some { check with leaderId := check.i, i := check.i + 1 }
      else some { check with result := some (-1) }
    else some { check with i := check.i + 1 }
  else if 0 ≤ check.leaderId then some { check with result := some check.leaderId }
  else if check.r + 1 < 8 then some { check with r := check.r + 1, leaderId := -1, i := 0 }
  else some { check with r := check.r + 1, result := some (-1) }

variable {connected isLeader : Fin n → Bool} {check next : Check}

/-- What a turn of the check does. -/
inductive Turn (connected isLeader : Fin n → Bool) (check : Check) : Check → Prop
  | passes {s : Fin n} (asks : check.i = s) (no : (connected s && isLeader s) = false) :
      Turn connected isLeader check { check with i := check.i + 1 }
  | finds {s : Fin n} (asks : check.i = s) (yes : (connected s && isLeader s) = true)
      (first : check.leaderId < 0) :
      Turn connected isLeader check { check with leaderId := s, i := check.i + 1 }
  | givesUp {s : Fin n} (asks : check.i = s) (yes : (connected s && isLeader s) = true)
      (second : 0 ≤ check.leaderId) :
      Turn connected isLeader check { check with result := some (-1) }
  | returns (all : n ≤ check.i) (found : 0 ≤ check.leaderId) :
      Turn connected isLeader check { check with result := some check.leaderId }
  | again (all : n ≤ check.i) (unfound : check.leaderId < 0) (more : check.r + 1 < 8) :
      Turn connected isLeader check { check with r := check.r + 1, leaderId := -1, i := 0 }
  | ends (all : n ≤ check.i) (unfound : check.leaderId < 0) (last : ¬ check.r + 1 < 8) :
      Turn connected isLeader check { check with r := check.r + 1, result := some (-1) }

theorem step_cases (taken : check.step connected isLeader = some next) :
    check.result = none ∧ Turn connected isLeader check next := by
  unfold Check.step at taken
  by_cases returned : check.result.isSome = true
  · rw [if_pos returned] at taken
    cases taken
  rw [if_neg returned] at taken
  refine ⟨Option.not_isSome_iff_eq_none.mp returned, ?_⟩
  by_cases inside : check.i < n
  · rw [dif_pos inside] at taken
    dsimp only at taken
    split_ifs at taken with leads first
    · cases taken
      exact .finds (s := ⟨check.i, inside⟩) rfl leads first
    · cases taken
      exact .givesUp (s := ⟨check.i, inside⟩) rfl leads (not_lt.mp first)
    · cases taken
      exact .passes (s := ⟨check.i, inside⟩) rfl (Bool.eq_false_iff.mpr leads)
  · rw [dif_neg inside] at taken
    have all := not_lt.mp inside
    split_ifs at taken with found more
    · cases taken
      exact .returns all found
    · cases taken
      exact .again all (not_le.mp found) more
    · cases taken
      exact .ends all (not_le.mp found) more

/-! ### What the check has been told -/

variable {told told' : Nat → Fin n → Bool → Prop}

/-- What an answer of the check rests on, when it has been told in a round whether servers lead. -/
inductive Verdict (connected : Fin n → Bool) (told : Nat → Fin n → Bool → Prop) (r : Nat) :
    Int → Prop
  | leader {s : Fin n} (isConnected : connected s = true) (leads : told r s true)
      (others : ∀ q, q ≠ s → connected q = true → told r q false) : Verdict connected told r s
  | leaders {p q : Fin n} (order : p < q) (first : connected p = true) (leads : told r p true)
      (second : connected q = true) (alsoLeads : told r q true) : Verdict connected told r (-1)
  | leaderless (nobody : ∀ r < 8, ∀ q, connected q = true → told r q false) :
      Verdict connected told r (-1)

/-- The check goes by what it has been told. -/
structure Follows (connected : Fin n → Bool) (told : Nat → Fin n → Bool → Prop) (check : Check) :
    Prop where
  earlier : ∀ r < check.r, ∀ q, connected q = true → told r q false
  within : check.result = none → check.r < 8 ∧ check.i ≤ n
  unfound : check.result = none → check.leaderId < 0 →
    ∀ q : Fin n, q < check.i → connected q = true → told check.r q false
  found : check.result = none → 0 ≤ check.leaderId → ∃ s : Fin n, check.leaderId = s ∧
    s < check.i ∧ connected s = true ∧ told check.r s true ∧
      ∀ q : Fin n, q < check.i → q ≠ s → connected q = true → told check.r q false
  verdict : ∀ answer, check.result = some answer → Verdict connected told check.r answer

theorem follows_new : Follows connected told new where
  earlier := nofun
  within _ := ⟨by decide, Nat.zero_le _⟩
  unfound _ _ q before := absurd before (Nat.not_lt_zero _)
  found _ absurd := by cases absurd
  verdict := nofun

theorem Verdict.mono (more : ∀ r s leads, told r s leads → told' r s leads) {r : Nat}
    {answer : Int} (verdict : Verdict connected told r answer) :
    Verdict connected told' r answer := by
  cases verdict with
  | leader isConnected leads others =>
    exact .leader isConnected (more _ _ _ leads)
      fun q other live => more _ _ _ (others q other live)
  | leaders order first leads second alsoLeads =>
    exact .leaders order first (more _ _ _ leads) second (more _ _ _ alsoLeads)
  | leaderless nobody => exact .leaderless fun r few q live => more _ _ _ (nobody r few q live)

theorem Follows.mono (more : ∀ r s leads, told r s leads → told' r s leads)
    (follows : Follows connected told check) : Follows connected told' check where
  earlier r before q live := more _ _ _ (follows.earlier r before q live)
  within := follows.within
  unfound running unfound q before live :=
    more _ _ _ (follows.unfound running unfound q before live)
  found running found := by
    obtain ⟨s, isFound, before, live, leads, others⟩ := follows.found running found
    exact ⟨s, isFound, before, live, more _ _ _ leads,
      fun q before other live => more _ _ _ (others q before other live)⟩
  verdict answer returned := (follows.verdict answer returned).mono more

/-- The server that is asked answers, and the check goes on or returns. -/
theorem Follows.step (follows : Follows connected told check)
    (asked : ∀ s : Fin n, check.i = s → told check.r s (isLeader s))
    (taken : check.step connected isLeader = some next) : Follows connected told next := by
  obtain ⟨running, turn⟩ := step_cases taken
  obtain ⟨few, inside⟩ := follows.within running
  have last : ∀ {s q : Fin n}, check.i = s → q < check.i + 1 → q < check.i ∨ q = s :=
    fun asks before => (Nat.lt_succ_iff_lt_or_eq.mp before).imp_right
      fun same => Fin.ext (same.trans asks)
  cases turn with
  | @passes s asks no =>
    have here : connected s = true → told check.r s false := by
      intro live
      rw [live, Bool.true_and] at no
      exact no ▸ asked s asks
    refine ⟨follows.earlier, fun _ => ⟨few, asks ▸ s.isLt⟩, fun _ unfound q before live => ?_,
      fun _ found => ?_, fun answer absurd => by cases running.symm.trans absurd⟩
    · rcases last asks before with earlier | rfl
      · exact follows.unfound running unfound q earlier live
      · exact here live
    · obtain ⟨p, isFound, before, live, leads, others⟩ := follows.found running found
      refine ⟨p, isFound, before.trans (Nat.lt_succ_self _), live, leads,
        fun q before' other live => ?_⟩
      rcases last asks before' with earlier | rfl
      · exact others q earlier other live
      · exact here live
  | @finds s asks yes first =>
    obtain ⟨live, leads⟩ := Bool.and_eq_true_iff.mp yes
    refine ⟨follows.earlier, fun _ => ⟨few, asks ▸ s.isLt⟩, fun _ absurd => ?_, fun _ _ => ?_,
      fun answer absurd => by cases running.symm.trans absurd⟩
    · exact (Int.not_lt.mpr (Int.natCast_nonneg _) absurd).elim
    · refine ⟨s, rfl, asks ▸ Nat.lt_succ_self _, live, leads ▸ asked s asks,
        fun q before other live => ?_⟩
      exact follows.unfound running first q ((last asks before).resolve_right other) live
  | @givesUp s asks yes second =>
    obtain ⟨live, leads⟩ := Bool.and_eq_true_iff.mp yes
    obtain ⟨p, -, before, first, led, -⟩ := follows.found running second
    refine ⟨follows.earlier, nofun, nofun, nofun, fun answer isAnswer => ?_⟩
    obtain rfl : -1 = answer := Option.some_inj.mp isAnswer
    exact .leaders (Fin.lt_def.mpr (before.trans_eq asks)) first led live (leads ▸ asked s asks)
  | returns all found =>
    obtain ⟨s, isFound, -, live, leads, others⟩ := follows.found running found
    refine ⟨follows.earlier, nofun, nofun, nofun, fun answer isAnswer => ?_⟩
    obtain rfl : check.leaderId = answer := Option.some_inj.mp isAnswer
    exact isFound ▸ .leader live leads fun q => others q (q.isLt.trans_le all)
  | again all unfound more =>
    have nobody := fun q : Fin n => follows.unfound running unfound q (q.isLt.trans_le all)
    refine ⟨fun r before => ?_, fun _ => ⟨more, Nat.zero_le _⟩,
      fun _ _ q before => absurd before (Nat.not_lt_zero _), fun _ absurd => (by cases absurd),
      fun answer absurd => by cases running.symm.trans absurd⟩
    rcases Nat.lt_succ_iff_lt_or_eq.mp before with earlier | rfl
    · exact follows.earlier r earlier
    · exact nobody
  | ends all unfound last =>
    have nobody := fun q : Fin n => follows.unfound running unfound q (q.isLt.trans_le all)
    have each : ∀ r < check.r + 1, ∀ q, connected q = true → told r q false := by
      intro r before
      rcases Nat.lt_succ_iff_lt_or_eq.mp before with earlier | rfl
      · exact follows.earlier r earlier
      · exact nobody
    refine ⟨each, nofun, nofun, nofun, fun answer isAnswer => ?_⟩
    obtain rfl : -1 = answer := Option.some_inj.mp isAnswer
    exact .leaderless fun r few => each r (few.trans_le (not_lt.mp last))

/-- How many turns the check has taken. -/
def turns (n : Nat) (check : Check) : Nat :=
  check.r * (n + 1) + check.i

theorem turns_step (taken : check.step connected isLeader = some next)
    (within : check.i ≤ n) (running : next.result = none) :
    next.turns n = check.turns n + 1 := by
  obtain ⟨-, turn⟩ := step_cases taken
  cases turn with
  | passes asks no => rfl
  | finds asks yes first => rfl
  | givesUp asks yes second => cases running
  | returns all found => cases running
  | again all unfound more =>
    have full : check.i = n := le_antisymm within all
    unfold turns
    rw [full, Nat.succ_mul]
    rfl
  | ends all unfound last => cases running

theorem Follows.turns_lt (follows : Follows connected told check) (running : check.result = none) :
    check.turns n < 8 * (n + 1) := by
  obtain ⟨few, inside⟩ := follows.within running
  have rounds : check.r * (n + 1) ≤ 7 * (n + 1) := Nat.mul_le_mul_right _ (by omega)
  unfold turns
  omega

end Check

/-! ### The check beside the cluster -/

structure Checked (n : Nat) (Command : Type) where
  cluster : Cluster n Command
  check : Check

inductive CheckedAction (n : Nat) (Command : Type)
  | raft (action : Action n Command)
  | check

def CheckedAction.isCheck : CheckedAction n Command → Bool
  | .raft _ => false
  | .check => true

namespace Checked

variable {connected : Fin n → Bool} {preload : Option (Preload Command)}
  {actions : List (CheckedAction n Command)} {x x' : Checked n Command}

def start (preload : Option (Preload Command)) : Checked n Command :=
  ⟨Cluster.start n preload, .new⟩

/-- The cluster takes a step, or the check a turn; only the harness changes `connected`, which does
nothing else before the check returns. -/
def step (connected : Fin n → Bool) (x : Checked n Command) :
    CheckedAction n Command → Option (Checked n Command)
  | .raft action => (x.cluster.step action).map fun cluster => { x with cluster := cluster }
  | .check => (x.check.step connected x.cluster.isLeader).map fun check => { x with check := check }

/-- The steps of the cluster keep elections safe. -/
def safe (x : Checked n Command) : CheckedAction n Command → Bool
  | .raft action => x.cluster.safeElections action
  | .check => true

/-- In a state of the run the check asks in a round whether the server leads. -/
structure Asks (connected : Fin n → Bool) (preload : Option (Preload Command))
    (actions : List (CheckedAction n Command)) (r : Nat) (s : Fin n) (y : Checked n Command) :
    Prop where
  now : ∃ before rest, actions = before ++ .check :: rest ∧
    execute (step connected) (start preload) before = some y
  running : y.check.result = none
  round : y.check.r = r
  server : y.check.i = s

/-- What the server says when it is asked. -/
def Told (connected : Fin n → Bool) (preload : Option (Preload Command))
    (actions : List (CheckedAction n Command)) (r : Nat) (s : Fin n) (leads : Bool) : Prop :=
  ∃ y, Asks connected preload actions r s y ∧ y.cluster.isLeader s = leads

theorem Told.concat {r : Nat} {s : Fin n} {leads : Bool}
    (told : Told connected preload actions r s leads) (action : CheckedAction n Command) :
    Told connected preload (actions ++ [action]) r s leads := by
  obtain ⟨y, ⟨⟨before, rest, rfl, reached⟩, running, round, server⟩, answered⟩ := told
  exact ⟨y, ⟨⟨before, rest ++ [action], by simp, reached⟩, running, round, server⟩, answered⟩

/-- In any run the check goes by what it has been told up to then. -/
theorem follows_run (ran : execute (step connected) (start preload) actions = some x) :
    x.check.Follows connected (Told connected preload actions) := by
  induction actions using List.reverseRecOn generalizing x with
  | nil =>
    obtain rfl : start preload = x := by simpa [execute] using ran
    exact Check.follows_new
  | append_singleton actions action inductionHypothesis =>
    obtain ⟨middle, before, taken⟩ := execute_concat.mp ran
    have follows := (inductionHypothesis before).mono fun _ _ _ told => told.concat action
    cases action with
    | raft action =>
      obtain ⟨cluster, -, rfl⟩ := Option.map_eq_some_iff.mp taken
      exact follows
    | check =>
      obtain ⟨check, turned, rfl⟩ := Option.map_eq_some_iff.mp taken
      have running := (Check.step_cases turned).1
      exact follows.step (fun s asks =>
        ⟨middle, ⟨⟨actions, [], rfl, before⟩, running, rfl, asks⟩, rfl⟩) turned

/-! ### Leaders at different moments -/

theorem safe_step {floor : Nat} {action : CheckedAction n Command} {a : Spec n Command}
    (invariant : Invariant floor a) (refines : Refines False x.cluster a)
    (allowed : x.safe action = true) (taken : x.step connected action = some x') :
    ∃ a', Invariant floor a' ∧ Refines False x'.cluster a' ∧ Extends a a' := by
  cases action with
  | raft action =>
    obtain ⟨cluster, moved, rfl⟩ := Option.map_eq_some_iff.mp taken
    obtain ⟨noRestart, prompt⟩ := safeElections_spec x.cluster action allowed
    obtain ⟨s, a', steps, refines'⟩ := refines.step True invariant prompt
      (fun absurd => absurd.elim) (Or.inl trivial)
      (fun s rf same => by rw [same] at noRestart; cases noRestart) moved
    obtain ⟨invariant', extends'⟩ := invariant.steps steps
    exact ⟨a', invariant', refines', extends'⟩
  | check =>
    obtain ⟨check, -, rfl⟩ := Option.map_eq_some_iff.mp taken
    exact ⟨a, invariant, refines, .refl a⟩

theorem led_of_isLeader {floor : Nat} {a : Spec n Command} (invariant : Invariant floor a)
    (refines : Refines False x.cluster a) {s : Fin n} (leads : x.cluster.isLeader s = true) :
    a.leader (x.cluster.node s).currentTerm = some s := by
  have mirrors := refines.node s
  rw [← mirrors.term]
  exact invariant.elections.leading (mirrors.leader (of_decide_eq_true leads))

/-- Whoever leads a term that has been led is who led it. -/
theorem leads_later (holds : along (step connected) safe (start preload) actions = true)
    {y y' : Checked n Command} (visits : Visits (step connected) (start preload) actions y)
    {p q : Fin n} (leads : y.cluster.isLeader p = true)
    {between : List (CheckedAction n Command)}
    (allowed : along (step connected) safe y between = true)
    (ran : execute (step connected) y between = some y') (alsoLeads : y'.cluster.isLeader q = true)
    (same : (y.cluster.node p).currentTerm = (y'.cluster.node q).currentTerm) : p = q := by
  obtain ⟨a, invariant, refines⟩ := visits_invariant
    (fun x : Checked n Command => ∃ a, Invariant ((preload.map Preload.currentTerm).getD 0) a ∧
      Refines False x.cluster a)
    (fun x action next ⟨a, invariant, refines⟩ allowed taken =>
      (safe_step invariant refines allowed taken).imp fun _ kept => ⟨kept.1, kept.2.1⟩)
    ⟨_, (refines_start False preload).2, (refines_start False preload).1⟩ holds visits
  have led := led_of_isLeader invariant refines leads
  obtain ⟨a', invariant', refines', stillLed⟩ := execute_invariant
    (fun x : Checked n Command => ∃ a', Invariant ((preload.map Preload.currentTerm).getD 0) a' ∧
      Refines False x.cluster a' ∧ a'.leader (y.cluster.node p).currentTerm = some p)
    (fun x action next ⟨a, invariant, refines, led⟩ allowed taken =>
      (safe_step invariant refines allowed taken).imp fun _ kept =>
        ⟨kept.1, kept.2.1, kept.2.2.leader led⟩)
    ⟨a, invariant, refines, led⟩ allowed ran
  have ledAgain := led_of_isLeader invariant' refines' alsoLeads
  rw [← same] at ledAgain
  exact Option.some_inj.mp (stillLed.symm.trans ledAgain)

/-- Two servers that lead at any two moments of the run lead different terms. -/
theorem leaders_apart
    (holds : along (step connected) safe (start preload) actions = true) {y y' : Checked n Command}
    (visits : Visits (step connected) (start preload) actions y)
    (visits' : Visits (step connected) (start preload) actions y') {p q : Fin n}
    (leads : y.cluster.isLeader p = true) (alsoLeads : y'.cluster.isLeader q = true)
    (same : (y.cluster.node p).currentTerm = (y'.cluster.node q).currentTerm) : p = q := by
  rcases visits_ordered holds visits visits' with ⟨between, allowed, ran⟩ | ⟨between, allowed, ran⟩
  · exact leads_later holds visits leads allowed ran alsoLeads same
  · exact (leads_later holds visits' alsoLeads allowed ran leads same.symm).symm

/-! ### Answers of the check -/

/-- What an answer of the check is worth: a server that it returns led when it was asked, and the
other ones did not when they were asked in the same round. Where it returns -1, either nobody that
it asked has led, or two servers have led, in different terms as long as elections are safe. -/
theorem check_single_leader
    (ran : execute (step connected) (start preload) actions = some x) {answer : Int}
    (returned : x.check.result = some answer) :
    (∃ s : Fin n, answer = s ∧ connected s = true ∧
      Told connected preload actions x.check.r s true ∧
      ∀ q, q ≠ s → connected q = true → Told connected preload actions x.check.r q false) ∨
    (answer = -1 ∧ ∃ p q y y', connected p = true ∧ connected q = true ∧
      Asks connected preload actions x.check.r p y ∧ y.cluster.isLeader p = true ∧
      Asks connected preload actions x.check.r q y' ∧ y'.cluster.isLeader q = true ∧ p < q ∧
      (along (step connected) safe (start preload) actions = true →
        (y.cluster.node p).currentTerm ≠ (y'.cluster.node q).currentTerm)) ∨
    (answer = -1 ∧ ∀ r < 8, ∀ q, connected q = true →
      Told connected preload actions r q false) := by
  cases (follows_run ran).verdict answer returned with
  | @leader s isConnected leads others => exact Or.inl ⟨s, rfl, isConnected, leads, others⟩
  | @leaders p q order first leads second alsoLeads =>
    obtain ⟨y, asks, leads⟩ := leads
    obtain ⟨y', asks', alsoLeads⟩ := alsoLeads
    refine Or.inr (Or.inl ⟨rfl, p, q, y, y', first, second, asks, leads, asks', alsoLeads, order,
      fun holds same => order.ne (leaders_apart holds ?_ ?_ leads alsoLeads same)⟩)
    · obtain ⟨before, rest, split, reached⟩ := asks.now
      exact ⟨before, _, split, reached⟩
    · obtain ⟨before, rest, split, reached⟩ := asks'.now
      exact ⟨before, _, split, reached⟩
  | leaderless nobody => exact Or.inr (Or.inr ⟨rfl, nobody⟩)

/-- Server 0 is elected, and the check asks all servers and returns. -/
def foundElected : List (CheckedAction 3 ℕ) :=
  election.map .raft ++ List.replicate 4 .check

theorem check_single_leader_elected : ∃ x : Checked 3 ℕ,
    execute (step fun _ => true) (start none) foundElected = some x ∧
      x.check.result = some 0 ∧ ∃ s : Fin 3, (0 : Int) = s ∧
        Told (fun _ => true) none foundElected x.check.r s true ∧
        ∀ q, q ≠ s → Told (fun _ => true) none foundElected x.check.r q false := by
  obtain ⟨x, ran, returned⟩ := (Option.any_eq_true _ _).mp (by decide +kernel :
    (execute (step fun _ => true) (start none) foundElected).any (fun x => decide
      (x.check.result = some 0)) = true)
  have returned := of_decide_eq_true returned
  refine ⟨x, ran, returned, ?_⟩
  rcases check_single_leader ran returned with ⟨s, same, -, leads, others⟩ | ⟨absurd, -⟩ |
    ⟨absurd, -⟩
  · exact ⟨s, same, leads, fun q other => others q other rfl⟩
  · cases absurd
  · cases absurd

/-- The turns of the check in a run. -/
def turns (actions : List (CheckedAction n Command)) : Nat :=
  actions.countP CheckedAction.isCheck

theorem turns_run (ran : execute (step connected) (start preload) actions = some x)
    (running : x.check.result = none) : x.check.turns n = turns actions := by
  induction actions using List.reverseRecOn generalizing x with
  | nil =>
    obtain rfl : start preload = x := by simpa [execute] using ran
    simp [turns, Check.turns, start, Check.new]
  | append_singleton actions action inductionHypothesis =>
    obtain ⟨middle, before, taken⟩ := execute_concat.mp ran
    unfold turns
    rw [List.countP_append]
    cases action with
    | raft action =>
      obtain ⟨cluster, -, rfl⟩ := Option.map_eq_some_iff.mp taken
      exact inductionHypothesis (x := middle) before running
    | check =>
      obtain ⟨check, turned, rfl⟩ := Option.map_eq_some_iff.mp taken
      have went := (Check.step_cases turned).1
      have within := ((follows_run before).within went).2
      exact (Check.turns_step turned within running).trans
        (congrArg (· + 1) (inductionHypothesis before went))

/-- The check always comes to an end, and when one server alone leads whenever servers are asked, it
is found in the first round. -/
theorem check_finds_leader (ran : execute (step connected) (start preload) actions = some x) :
    (8 * (n + 1) ≤ turns actions → x.check.result ≠ none) ∧
      ∀ s : Fin n, connected s = true → n + 1 ≤ turns actions →
        (∀ r q y, Asks connected preload actions r q y → connected q = true →
          (y.cluster.isLeader q = true ↔ q = s)) → x.check.result = some (s : Int) := by
  have follows := follows_run ran
  refine ⟨fun enough running => ?_, fun s isConnected enough alone => ?_⟩
  · exact ((follows.turns_lt running).trans_le enough).ne (turns_run ran running)
  have told : ∀ {r q leads}, Told connected preload actions r q leads → connected q = true →
      (leads = true ↔ q = s) := by
    rintro r q leads ⟨y, asks, rfl⟩ live
    exact alone r q y asks live
  cases isResult : x.check.result with
  | none =>
    exfalso
    have counted := turns_run ran isResult
    obtain ⟨few, inside⟩ := follows.within isResult
    have first : x.check.r = 0 := by
      by_contra further
      have silent := follows.earlier 0 (Nat.pos_of_ne_zero further) s isConnected
      exact Bool.false_ne_true ((told silent isConnected).mpr rfl)
    unfold Check.turns at counted
    rw [first] at counted
    omega
  | some answer =>
    cases follows.verdict answer isResult with
    | leader live leads others => rw [(told leads live).mp rfl]
    | leaders order live leads live' alsoLeads =>
      exact absurd (((told leads live).mp rfl).trans ((told alsoLeads live').mp rfl).symm) order.ne
    | leaderless nobody =>
      exact absurd ((told (nobody 0 (by decide) s isConnected) isConnected).mpr rfl)
        Bool.false_ne_true

/-- Whenever a server is asked in the run, server 0 alone leads. -/
theorem foundElected_alone {r : Nat} {q : Fin 3} {y : Checked 3 ℕ}
    (asks : Asks (fun _ => true) none foundElected r q y) :
    y.cluster.isLeader q = true ↔ q = s₀ := by
  obtain ⟨⟨before, rest, split, reached⟩, -⟩ := asks
  have each : ∀ i < foundElected.length, foundElected[i]?.any CheckedAction.isCheck = true →
      (execute (step fun _ => true) (start none) (foundElected.take i)).all fun y =>
        decide (∀ q : Fin 3, y.cluster.isLeader q = true ↔ q = s₀) := by
    decide +kernel
  have taken : foundElected.take before.length = before := by simp [split]
  have here := each before.length (by simp [split]) (by simp [split, CheckedAction.isCheck])
  rw [taken, reached] at here
  exact of_decide_eq_true here q

theorem check_finds_leader_elected : ∃ x : Checked 3 ℕ,
    execute (step fun _ => true) (start none) foundElected = some x ∧
      x.check.result = some 0 := by
  obtain ⟨x, ran⟩ := Option.isSome_iff_exists.mp (by decide +kernel :
    (execute (step fun _ => true) (start none) foundElected).isSome = true)
  exact ⟨x, ran, (check_finds_leader ran).2 s₀ rfl (by decide) fun _ _ _ asks _ =>
    foundElected_alone asks⟩

end Checked

end RaftInMotion
