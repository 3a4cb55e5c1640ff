/-
This file restates the results about logs for machines, whose requests and batches are read from the
arrays behind the logs. Each of them holds under its condition when no entry is read that has been
rewritten; where the argument does not tell that a batch ends within the log, that is a condition
too. A run that meets every other condition, and in which `AppendEntries` writes over the entries of
a request that is about to be encoded, breaks log matching.
-/

import RaftInMotion.Handlers.Requests
import RaftInMotion.Refinement.Machine
import RaftInMotion.Safety.Prefix
import RaftInMotion.Safety.Roles
import RaftInMotion.Safety.Sorted

namespace RaftInMotion

open Cluster Execution TermLog

variable {n : Nat} {Command : Type} {preload : Option (Preload Command)} {room : Fin n → Nat}
  {actions : List (MachineAction n (Action n Command))} {x : Machine n Command (Cluster n Command)}

/-! ### Logs -/

theorem log_matching_shared [DecidableEq Command] (preload : Option (Preload Command))
    (room : Fin n → Nat) (actions : List (MachineAction n (Action n Command)))
    (taken : Machine.run host (start n preload) room actions = some x)
    (safe : along (Machine.step host) (Machine.intact host safeElections)
      (Machine.start host (start n preload) room) actions = true) : LogMatching x.state := by
  obtain ⟨run, safe⟩ := Machine.run_intact safe taken
  exact log_matching preload _ run safe

theorem log_matching_shared_replicated : ∃ x,
    Machine.runPromptly host (start 3 (some seeded)) replication = some x ∧
      (x.state.node 1).log = [⟨5, 1⟩, ⟨7, 2⟩] ∧ LogMatching x.state := by
  obtain ⟨x, taken, log⟩ := (Option.any_eq_true _ _).mp (by decide +kernel :
    (Machine.runPromptly host (start 3 (some seeded)) replication).any
      (fun x => decide ((x.state.node 1).log = [⟨5, 1⟩, ⟨7, 2⟩])) = true)
  exact ⟨x, taken, of_decide_eq_true log, log_matching_shared (some seeded) _ _ taken
    (by decide +kernel)⟩

/-- Of five servers, server 0 leads term 2; server 1 holds the first of its two commands, and a
request with the second one is about to be built. -/
def behindOne : List (Action 5 ℕ) :=
  [timeout 0 0, roundTrip 0, roundTrip 1, [.send 2, .fail 2, .send 3, .fail 3, .submit 0 7,
    .leaderLoop 0 0], roundTrip 4, [.submit 0 8, .leaderLoop 0 0, .leaderLoop 0 0]].flatten

/-- That request is built. Server 2 wins term 3 without the other two, and builds a request with two
commands for server 0. -/
def otherTail : List (Action 5 ℕ) :=
  [[.send 8], timeout 2 0, [.send 12, .fail 12, .send 13, .fail 13], roundTrip 14, roundTrip 15,
    [.submit 2 9, .submit 2 4, .leaderLoop 2 0, .send 16]].flatten

/-- Server 0 stores what server 2 sends, and only then is its own request encoded. Server 1 stores
the second command of server 2 behind the first of server 0. -/
def overwritten : List (MachineAction 5 (Action 5 ℕ)) :=
  Machine.promptly host (start 5 (some seeded)) behindOne ++
    otherTail.map (MachineAction.act · 0) ++
    [.encode 16, .encode 16, .act (.handle 16) 0, .encode 8, .act (.handle 8) 0]

theorem log_matching_shared_fails :
    (∃ x, Machine.runPromptly host (start 3 none)
        (staleElection ++ [.submit s₀ 7, .submit s₂ 8]) = some x ∧
      along step restartFree (start 3 none)
        (staleElection ++ [.submit s₀ 7, .submit s₂ 8]) = true ∧ ¬ LogMatching x.state) ∧
    ∃ x, Machine.run host (start 5 (some seeded)) (fun _ => 0) overwritten = some x ∧
      along (Machine.step host)
        (Machine.meets host fun c action =>
          c.safeElections action && !Machine.overcuts host c action)
        (Machine.start host (start 5 (some seeded)) fun _ => 0) overwritten = true ∧
      ¬ LogMatching x.state := by
  constructor
  · obtain ⟨c, run, safe, fails⟩ := log_matching_fails
    obtain ⟨x, taken, rfl⟩ :=
      Machine.runPromptly_eq host run (by decide +kernel) (by decide +kernel)
    exact ⟨x, taken, safe, fails⟩
  · obtain ⟨x, taken, both⟩ := (Option.any_eq_true _ _).mp (by decide +kernel :
      (Machine.run host (start 5 (some seeded)) (fun _ => 0) overwritten).any (fun x => decide
        ((x.state.node 0).log = [⟨5, 1⟩, ⟨9, 3⟩, ⟨4, 3⟩] ∧
          (x.state.node 1).log = [⟨5, 1⟩, ⟨7, 2⟩, ⟨4, 3⟩])) = true)
    obtain ⟨first, second⟩ := of_decide_eq_true both
    refine ⟨x, taken, by decide +kernel, fun holds => ?_⟩
    have equal := holds 0 1 2 ⟨4, 3⟩ ⟨4, 3⟩ (by rw [first]; rfl) (by rw [second]; rfl) rfl 1
      (by decide)
    rw [first, second] at equal
    exact absurd equal (by decide)

/-- Server 0 has committed its log, and server 1 holds the first entry of it. Server 2 leads the
next term with another second entry. -/
def deposed : Cluster 3 ℕ where
  node s :=
    if s = s₀ then { Raft.elect [⟨7, 2⟩, ⟨8, 2⟩] with
      currentTerm := 2, commitIndex := 1, nextIndex := fun _ => 1 }
    else if s = s₁ then { Raft.voter [⟨7, 2⟩] with currentTerm := 2 }
    else { Raft.elect [⟨7, 2⟩, ⟨6, 3⟩] with id := s₂, nextIndex := fun _ => 1 }
  pool := [.appendSpawned ⟨s₀, s₁, 2⟩, .appendSpawned ⟨s₂, s₀, 3⟩]
  history := []

/-- Server 0 builds its request for server 1 and stores what server 2 sends, and only then is its
own request encoded. -/
def encodedLate : List (MachineAction 3 (Action 3 ℕ)) :=
  [.act (.send 0) 0, .act (.send 1) 0, .encode 1, .act (.handle 1) 0, .encode 0, .act (.handle 0) 0]

theorem appendEntries_commits_fails :
    ∃ x, Machine.run host deposed (fun _ => 0) encodedLate = some x ∧
      (deposed.node 0).commitIndex < (deposed.node 0).log.length ∧
      (∃ args, (deposed.node 0).appendEntriesArgs ⟨s₀, s₁, 2⟩ = some (1, args)) ∧
      Matching (deposed.node 1).log (deposed.node 0).log ∧
      (deposed.node 1).commitIndex < (x.state.node 1).commitIndex ∧
      ¬ ∀ index : ℕ, (index : ℤ) ≤ (x.state.node 1).commitIndex →
        ∃ entry, (x.state.node 1).log[index]? = some entry ∧
          (deposed.node 0).log[index]? = some entry := by
  obtain ⟨x, taken, both⟩ := (Option.any_eq_true _ _).mp (by decide +kernel :
    (Machine.run host deposed (fun _ => 0) encodedLate).any (fun x => decide
      ((x.state.node 1).commitIndex = 1 ∧ (x.state.node 1).log[1]? = some ⟨6, 3⟩)) = true)
  obtain ⟨commit, stored⟩ := of_decide_eq_true both
  refine ⟨x, taken, by decide, ⟨_, rfl⟩, ?_, commit ▸ (by decide), fun same => ?_⟩
  · rintro (_ | index) entry entry' found found' sameTerm
    · rfl
    · cases found
  · obtain ⟨entry, found, inSender⟩ := same 1 commit.ge
    cases found.symm.trans stored
    exact absurd inSender (by decide)

theorem truthful_matchIndex_shared [DecidableEq Command] (preload : Option (Preload Command))
    (room : Fin n → Nat) (actions : List (MachineAction n (Action n Command)))
    (taken : Machine.run host (start n preload) room actions = some x)
    (safe : along (Machine.step host) (Machine.intact host safeReplication)
      (Machine.start host (start n preload) room) actions = true) :
    TruthfulMatchIndex x.state := by
  obtain ⟨run, safe⟩ := Machine.run_intact safe taken
  exact truthful_matchIndex preload _ run safe

theorem truthful_matchIndex_shared_replicated : ∃ x,
    Machine.runPromptly host (start 3 (some seeded)) replication = some x ∧
      (x.state.node 0).matchIndex 1 = 1 ∧ TruthfulMatchIndex x.state := by
  obtain ⟨x, taken, isMatch⟩ := (Option.any_eq_true _ _).mp (by decide +kernel :
    (Machine.runPromptly host (start 3 (some seeded)) replication).any
      (fun x => decide ((x.state.node 0).matchIndex 1 = 1)) = true)
  exact ⟨x, taken, of_decide_eq_true isMatch, truthful_matchIndex_shared (some seeded) _ _ taken
    (by decide +kernel)⟩

theorem truthful_matchIndex_shared_fails : ∃ x,
    Machine.runPromptly host (start 3 none) blindRun = some x ∧
      along step restartFree (start 3 none) blindRun = true ∧ ¬ TruthfulMatchIndex x.state := by
  obtain ⟨c, run, safe, fails⟩ := truthful_matchIndex_fails
  obtain ⟨x, taken, rfl⟩ := Machine.runPromptly_eq host run (by decide +kernel) (by decide +kernel)
  exact ⟨x, taken, safe, fails⟩

theorem leader_completeness_shared [DecidableEq Command] (preload : Option (Preload Command))
    (room : Fin n → Nat) (actions : List (MachineAction n (Action n Command)))
    (taken : Machine.run host (start n preload) room actions = some x)
    (safe : along (Machine.step host) (Machine.intact host safeReplication)
      (Machine.start host (start n preload) room) actions = true) :
    LeaderCompleteness x.state := by
  obtain ⟨run, safe⟩ := Machine.run_intact safe taken
  exact leader_completeness preload _ run safe

/-- After the replication server 1 is elected in term 3. -/
def succession : List (Action 3 ℕ) :=
  replication ++ timeout s₁ 1 ++ roundTrip 7 ++ roundTrip 6

theorem leader_completeness_shared_succession : ∃ x,
    Machine.runPromptly host (start 3 (some seeded)) succession = some x ∧
      [.startedLeader 1 3 [⟨5, 1⟩, ⟨7, 2⟩], .advancedCommit 0 2 1 [⟨5, 1⟩, ⟨7, 2⟩]].Sublist
        x.state.history ∧ LeaderCompleteness x.state := by
  obtain ⟨x, taken, happened⟩ := (Option.any_eq_true _ _).mp (by decide +kernel :
    (Machine.runPromptly host (start 3 (some seeded)) succession).any (fun x => decide
      ([.startedLeader 1 3 [⟨5, 1⟩, ⟨7, 2⟩], .advancedCommit 0 2 1 [⟨5, 1⟩, ⟨7, 2⟩]].Sublist
        x.state.history)) = true)
  exact ⟨x, taken, of_decide_eq_true happened,
    leader_completeness_shared (some seeded) _ _ taken (by decide +kernel)⟩

theorem leader_completeness_shared_fails : ∃ x,
    Machine.runPromptly host (start 3 none)
        (blindRun ++ timeout s₁ 1 ++ roundTrip 5 ++ roundTrip 4) = some x ∧
      along step restartFree (start 3 none)
        (blindRun ++ timeout s₁ 1 ++ roundTrip 5 ++ roundTrip 4) = true ∧
      ¬ LeaderCompleteness x.state := by
  obtain ⟨c, run, safe, fails⟩ := leader_completeness_fails
  obtain ⟨x, taken, rfl⟩ := Machine.runPromptly_eq host run (by decide +kernel) (by decide +kernel)
  exact ⟨x, taken, safe, fails⟩

/-! ### Commitment -/

/-- What has been committed in the runs of the cluster is in the log, and so are the batches. -/
theorem within_of_fixed {allowed : Cluster n Command → Action n Command → Bool}
    (fixed : ∀ actions, along step allowed (start n preload) actions = true →
      CommittedPrefixFixed (start n preload) actions) (c : Cluster n Command)
    (action : Action n Command) (reached : Machine.Reached host allowed (start n preload) c)
    (_ : allowed c action = true) : Machine.overcuts host c action = false := by
  obtain ⟨first, run, allows⟩ := reached
  have range := fun s => (fixed first allows first [] [] c c (by simp) run rfl s).range
  cases action with
  | takeReady s =>
    have committed := (range s).committed
    exact Bool.and_eq_false_iff.mpr (Or.inr (decide_eq_false (by dsimp only [host]; omega)))
  | _ => rfl

theorem state_machine_safety_shared [DecidableEq Command] (preload : Option (Preload Command))
    (room : Fin n → Nat) (actions : List (MachineAction n (Action n Command)))
    (taken : Machine.run host (start n preload) room actions = some x)
    (safe : along (Machine.step host) (Machine.keeps host safeDelivery)
      (Machine.start host (start n preload) room) actions = true) :
    StateMachineSafety x.state := by
  have fixed := fun actions (safe : along step safeDelivery (start n preload) actions = true) =>
    committed_prefix_fixed preload actions (Or.inr safe)
  obtain ⟨run, safe⟩ := Machine.run_projects (within_of_fixed fixed) safe taken
  exact state_machine_safety preload _ run safe

theorem state_machine_safety_shared_replicated : ∃ x,
    Machine.runPromptly host (start 3 (some seeded)) replication = some x ∧
      .delivered 0 ⟨7, 1, 2⟩ ∈ x.state.history ∧ .delivered 1 ⟨7, 1, 2⟩ ∈ x.state.history ∧
        StateMachineSafety x.state := by
  obtain ⟨x, taken, both⟩ := (Option.any_eq_true _ _).mp (by decide +kernel :
    (Machine.runPromptly host (start 3 (some seeded)) replication).any (fun x => decide
      (.delivered 0 ⟨7, 1, 2⟩ ∈ x.state.history ∧
        .delivered 1 ⟨7, 1, 2⟩ ∈ x.state.history)) = true)
  obtain ⟨first, second⟩ := of_decide_eq_true both
  exact ⟨x, taken, first, second, state_machine_safety_shared (some seeded) _ _ taken
    (by decide +kernel)⟩

theorem state_machine_safety_shared_fails : ∃ x,
    Machine.runPromptly host (start 3 none) blindDelivery = some x ∧
      along step restartFree (start 3 none) blindDelivery = true ∧
      ¬ StateMachineSafety x.state := by
  obtain ⟨c, run, safe, fails⟩ := state_machine_safety_fails
  obtain ⟨x, taken, rfl⟩ := Machine.runPromptly_eq host run (by decide +kernel) (by decide +kernel)
  exact ⟨x, taken, safe, fails⟩

/-- A machine fixes the committed prefix under the condition under which the cluster does. -/
theorem prefixFixed_shared [DecidableEq Command]
    {allowed : Cluster n Command → Action n Command → Bool}
    (fixed : ∀ actions, along step allowed (start n preload) actions = true →
      CommittedPrefixFixed (start n preload) actions)
    (safe : along (Machine.step host) (Machine.keeps host allowed)
      (Machine.start host (start n preload) room) actions = true) :
    throughout (Machine.step host) (fun x y => ∀ s, PrefixFixed (x.state.node s) (y.state.node s))
      (Machine.start host (start n preload) room) actions := by
  rintro first second rest middle final rfl before after
  rw [List.append_assoc] at safe
  obtain ⟨safeFirst, safeRest⟩ := along_append before safe
  have whole := execute_append.mpr ⟨middle, before, after⟩
  have within := within_of_fixed fixed
  obtain ⟨run, -⟩ := Machine.run_projects within safeFirst before
  obtain ⟨runBoth, allows⟩ := Machine.run_projects within
    (along_join before safeFirst (along_append after safeRest).1) whole
  rw [List.filterMap_append] at runBoth allows
  obtain ⟨middle', run', runSecond⟩ := execute_append.mp runBoth
  obtain rfl := Option.some.inj (run.symm.trans run')
  exact fixed _ allows _ _ [] _ _ (by simp) run runSecond

theorem committed_prefix_fixed_shared [DecidableEq Command] (preload : Option (Preload Command))
    (room : Fin n → Nat) (actions : List (MachineAction n (Action n Command)))
    (safe : preload = none ∧ along (Machine.step host) (Machine.keeps host safeElections)
        (Machine.start host (start n preload) room) actions = true ∨
      along (Machine.step host) (Machine.keeps host safeDelivery)
        (Machine.start host (start n preload) room) actions = true) :
    throughout (Machine.step host) (fun x y => ∀ s, PrefixFixed (x.state.node s) (y.state.node s))
      (Machine.start host (start n preload) room) actions := by
  rcases safe with ⟨rfl, safe⟩ | safe
  · exact prefixFixed_shared (fun actions safe =>
      committed_prefix_fixed none actions (Or.inl ⟨rfl, safe⟩)) safe
  · exact prefixFixed_shared (fun actions safe =>
      committed_prefix_fixed preload actions (Or.inr safe)) safe

theorem committed_prefix_fixed_shared_replicated :
    throughout (Machine.step host) (fun x y => ∀ s, PrefixFixed (x.state.node s) (y.state.node s))
        (Machine.start host (start 3 (some seeded)) fun _ => 0)
        (Machine.promptly host (start 3 (some seeded)) replication) ∧
      throughout (Machine.step host)
        (fun x y => ∀ s, PrefixFixed (x.state.node s) (y.state.node s))
        (Machine.start host (start 3 none) fun _ => 0)
        (Machine.promptly host (start 3 none) blindDelivery) :=
  ⟨committed_prefix_fixed_shared (some seeded) _ _ (Or.inr (by decide +kernel)),
    committed_prefix_fixed_shared none _ _ (Or.inl ⟨rfl, by decide +kernel⟩)⟩

/-- Servers 0 and 2 both lead term 2. Server 0 commits two commands on the word of server 1.
Server 2 takes one in term 2 and another one in term 3, which it wins with the vote of server 1,
and sends the second one as the successor of an entry of term 2. -/
def overwriting : List (Action 3 ℕ) :=
  staleElection ++ [.submit s₀ 7, .submit s₀ 8, .leaderLoop s₀ 0] ++ roundTrip 6 ++
    [.submit s₂ 9, .send 7, .handle 7] ++ timeout s₂ 0 ++ roundTrip 8 ++ roundTrip 9 ++
    [.submit s₂ 6, .leaderLoop s₂ 1, .send 10]

theorem committed_prefix_fixed_shared_fails :
    along step restartFree (start 3 none) (overwriting ++ [.handle 10]) = true ∧
      ¬ throughout (Machine.step host)
        (fun x y => ∀ s, PrefixFixed (x.state.node s) (y.state.node s))
        (Machine.start host (start 3 none) fun _ => 0)
        (Machine.promptly host (start 3 none) overwriting ++ [.act (.handle 10) 0]) := by
  obtain ⟨middle, before, after⟩ := (Option.any_eq_true _ _).mp (by decide +kernel :
    (Machine.runPromptly host (start 3 none) overwriting).any (fun x =>
      decide ((x.state.node 0).commitIndex = 1 ∧ (x.state.node 0).log[1]? = some ⟨8, 2⟩) &&
        (x.step host (.act (.handle 10) 0)).any fun y =>
          decide ((y.state.node 0).log[1]? = some ⟨6, 3⟩)) = true)
  obtain ⟨held, moved⟩ := Bool.and_eq_true_iff.mp after
  obtain ⟨commit, old⟩ := of_decide_eq_true held
  obtain ⟨final, taken, new⟩ := (Option.any_eq_true _ _).mp moved
  refine ⟨by decide +kernel, fun fixed => ?_⟩
  have same := (fixed _ [.act (.handle 10) 0] [] middle final (by simp) before
    (execute_cons.mpr ⟨final, taken, rfl⟩) 0).log 1 (by rw [commit]; rfl)
  rw [old, of_decide_eq_true new] at same
  exact absurd same (by decide)

/-! ### Requests -/

theorem requests_in_role_shared [DecidableEq Command] (preload : Option (Preload Command))
    (room : Fin n → Nat) (actions : List (MachineAction n (Action n Command)))
    (taken : Machine.run host (start n preload) room actions = some x)
    (safe : along (Machine.step host) (Machine.intact host keepsRoles)
      (Machine.start host (start n preload) room) actions = true) :
    RequestsInRole (fun c => ∃ y, Visits (Machine.step host)
      (Machine.start host (start n preload) room) actions y ∧ y.state = c) x.state := by
  obtain ⟨run, allows⟩ := Machine.run_intact safe taken
  exact (requests_in_role preload _ run allows).mono fun c visits =>
    Machine.visits_intact safe taken visits

theorem requests_in_role_shared_replicated : ∃ x,
    Machine.runPromptly host (start 3 (some seeded)) replication = some x ∧
      RequestsInRole (fun c => ∃ y, Visits (Machine.step host)
        (Machine.start host (start 3 (some seeded)) fun _ => 0)
        (Machine.promptly host (start 3 (some seeded)) replication) y ∧ y.state = c) x.state := by
  obtain ⟨x, taken⟩ := Option.isSome_iff_exists.mp (by decide +kernel :
    (Machine.runPromptly host (start 3 (some seeded)) replication).isSome = true)
  exact ⟨x, taken, requests_in_role_shared (some seeded) _ _ taken (by decide +kernel)⟩

/-- Where everything is read at once, a machine passes through the states of the cluster. -/
theorem visits_promptly [DecidableEq Command] {c final : Cluster n Command}
    {actions : List (Action n Command)} (run : execute step c actions = some final)
    (intact : along (Machine.step host) (Machine.intact host fun _ _ => true)
      (Machine.start host c fun _ => 0) (Machine.promptly host c actions) = true)
    (middle : Cluster n Command)
    (visits : ∃ y, Visits (Machine.step host) (Machine.start host c fun _ => 0)
      (Machine.promptly host c actions) y ∧ y.state = middle) : Visits step c actions middle := by
  obtain ⟨y, visits, rfl⟩ := visits
  have acts : (Machine.promptly host c actions).filterMap MachineAction.act? = actions :=
    Machine.promptly_acts run
  have visited := Machine.visits_state intact visits
  rwa [acts] at visited

theorem requests_in_role_shared_fails :
    (∃ x, Machine.runPromptly host (start 3 none) lateElection = some x ∧
      ∃ task ∈ x.state.pool, ∃ peer args, task.voteRequest = some (peer, args) ∧
        ¬ FromCandidate (fun c => ∃ y, Visits (Machine.step host)
          (Machine.start host (start 3 none) fun _ => 0)
          (Machine.promptly host (start 3 none) lateElection) y ∧ y.state = c) args) ∧
    ∃ x, Machine.runPromptly host (start 3 (some seeded)) lateHeartbeat = some x ∧
      ∃ task ∈ x.state.pool, ∃ peer args, task.appendRequest = some (peer, args) ∧
        ¬ FromLeader (fun c => ∃ y, Visits (Machine.step host)
          (Machine.start host (start 3 (some seeded)) fun _ => 0)
          (Machine.promptly host (start 3 (some seeded)) lateHeartbeat) y ∧ y.state = c) peer
          args := by
  obtain ⟨⟨c, run, task, member, peer, args, request, fails⟩,
    c', run', task', member', peer', args', request', fails'⟩ := requests_in_role_fails
  constructor
  · obtain ⟨x, taken, rfl⟩ :=
      Machine.runPromptly_eq host run (by decide +kernel) (by decide +kernel)
    exact ⟨x, taken, task, member, peer, args, request,
      fun built => fails (built.mono (visits_promptly run (by decide +kernel)))⟩
  · obtain ⟨x, taken, rfl⟩ :=
      Machine.runPromptly_eq host run' (by decide +kernel) (by decide +kernel)
    exact ⟨x, taken, task', member', peer', args', request',
      fun built => fails' (built.mono (visits_promptly run' (by decide +kernel)))⟩

/-! ### Order -/

/-- A step that the memory allows and that leaves a log out of order is taken. -/
theorem act_unordered {action : Action n Command} {room : ℕ}
    (permitted : x.permits host action = true) (loses : x.state.keepsTermOrder action = false) :
    ∃ y, x.act host action room = some y ∧ ∃ s, ¬ (y.state.node s).TermsOrdered := by
  obtain ⟨c, s, taken, unordered⟩ := step_unordered loses
  have other : ∀ server, action ≠ .takeReady server := by
    rintro server rfl
    cases loses
  exact ⟨_, Machine.act_of_step rfl other permitted taken, s, unordered⟩

theorem logs_ordered_shared [DecidableEq Command] (preload : Option (Preload Command))
    (room : Fin n → Nat) (actions : List (MachineAction n (Action n Command)))
    (positive : ∀ entry ∈ (preload.map Preload.log).getD [], 1 ≤ entry.term)
    (intact : along (Machine.step host) (Machine.intact host restartFree)
      (Machine.start host (start n preload) room) actions = true) :
    (∀ y, Visits (Machine.step host) (Machine.start host (start n preload) room) actions y →
        ∀ s, (y.state.node s).TermsOrdered) ↔
      along (Machine.step host) (Machine.meets host keepsTermOrder)
        (Machine.start host (start n preload) room) actions = true := by
  refine visits_iff_along_of_given
    (fun x => x.memory.Holds x.state ∧ LogsOrdered x.state) _ ?_ ?_
    ⟨Memory.holds_start _ room, logsOrdered_start preload positive⟩
    (fun s => ((logsOrdered_start preload positive).nodes s).toTermsOrdered) intact
  · -- A step that is not taken is allowed.
    intro x action disabled
    cases action with
    | act action room =>
      by_contra loses
      obtain ⟨permitted, loses⟩ : x.permits host action = true ∧
          x.state.keepsTermOrder action = false := by
        simpa [Machine.meets] using loses
      obtain ⟨y, taken, -⟩ := act_unordered permitted loses
      cases taken.symm.trans disabled
    | _ => rfl
  · rintro x action y ⟨holds, ordered⟩ inOrder given taken
    obtain ⟨⟨holds', -⟩, run, noRestart⟩ := Machine.projects (fun _ => True)
      (fun _ _ _ allows => Machine.within_of_intact allows) (fun _ _ _ _ _ _ => trivial)
      x action y ⟨holds, trivial⟩ given taken
    cases action with
    | act action room =>
      obtain ⟨c, stepped, same⟩ := execute_cons.mp run
      obtain rfl : c = y.state := by simpa [execute] using same
      have allows := (Bool.and_eq_true_iff.mp (along_cons stepped noRestart).1).1
      have permitted : x.permits host action = true :=
        Machine.permits_of_act (taken : x.act host action room = some y)
      have meets : x.meets host keepsTermOrder (.act action room) =
          x.state.keepsTermOrder action := by
        simp [Machine.meets, permitted]
      have keeps : x.state.keepsTermOrder action = true → LogsOrdered y.state :=
        fun keeps => ordered.step allows keeps stepped
      rw [meets]
      refine ⟨fun kept => ⟨holds', keeps kept⟩, fun later => ?_,
        fun kept s => ((keeps kept).nodes s).toTermsOrdered⟩
      by_contra loses
      obtain ⟨c', s, taken', unordered⟩ := step_unordered (by simpa using loses)
      obtain rfl := Option.some.inj (stepped.symm.trans taken')
      exact unordered (later s)
    | _ =>
      have same : x.state = y.state := Option.some.inj run
      exact ⟨fun _ => ⟨holds', same ▸ ordered⟩, fun _ => rfl, fun _ => same ▸ inOrder⟩

theorem logs_ordered_shared_replicated :
    (Machine.runPromptly host (start 3 (some seeded)) replication).isSome = true ∧
      ∀ y, Visits (Machine.step host) (Machine.start host (start 3 (some seeded)) fun _ => 0)
        (Machine.promptly host (start 3 (some seeded)) replication) y →
          ∀ s, (y.state.node s).TermsOrdered :=
  ⟨by decide +kernel,
    (logs_ordered_shared (some seeded) _ _ (by simp [seeded]) (by decide +kernel)).mpr
      (by decide +kernel)⟩

/-- A machine whose logs are in order is one of a cluster whose logs are. -/
theorem logsStayOrdered_promptly [DecidableEq Command] {c final : Cluster n Command}
    {actions : List (Action n Command)} (run : execute step c actions = some final)
    (goes : (Machine.runPromptly host c actions).isSome = true)
    (intact : along (Machine.step host) (Machine.intact host fun _ _ => true)
      (Machine.start host c fun _ => 0) (Machine.promptly host c actions) = true)
    (ordered : ∀ y, Visits (Machine.step host) (Machine.start host c fun _ => 0)
      (Machine.promptly host c actions) y → ∀ s, (y.state.node s).TermsOrdered) :
    LogsStayOrdered c actions := by
  intro middle visits
  obtain ⟨x, taken⟩ := Option.isSome_iff_exists.mp goes
  have acts : (Machine.promptly host c actions).filterMap MachineAction.act? = actions :=
    Machine.promptly_acts run
  rw [← acts] at visits
  obtain ⟨y, visited, rfl⟩ := Machine.visits_intact intact taken visits
  exact ordered y visited

theorem logs_ordered_shared_fails :
    (along step restartFree (start 3 none) oldRefusal = true ∧
      ¬ ∀ y, Visits (Machine.step host) (Machine.start host (start 3 none) fun _ => 0)
        (Machine.promptly host (start 3 none) oldRefusal) y → ∀ s, (y.state.node s).TermsOrdered) ∧
    along step restartFree (start 3 (some seeded)) newerLog = true ∧
      ¬ ∀ y, Visits (Machine.step host) (Machine.start host (start 3 (some seeded)) fun _ => 0)
        (Machine.promptly host (start 3 (some seeded)) newerLog) y →
          ∀ s, (y.state.node s).TermsOrdered := by
  obtain ⟨⟨safe, fails⟩, safe', fails'⟩ := logs_ordered_fails
  obtain ⟨c, run⟩ := Option.isSome_iff_exists.mp
    (by decide +kernel : (execute step (start 3 none) oldRefusal).isSome = true)
  obtain ⟨c', run'⟩ := Option.isSome_iff_exists.mp
    (by decide +kernel : (execute step (start 3 (some seeded)) newerLog).isSome = true)
  exact ⟨⟨safe, fun ordered => fails
      (logsStayOrdered_promptly run (by decide +kernel) (by decide +kernel) ordered)⟩, safe',
    fun ordered => fails'
      (logsStayOrdered_promptly run' (by decide +kernel) (by decide +kernel) ordered)⟩

end RaftInMotion
