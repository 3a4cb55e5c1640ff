/-
This file settles that requests carry the data of the role they claim. The term of a request is
saved when its goroutine is spawned, and the log is read when the goroutine gets the lock again,
without a look at the role. The two belong together as long as no server leaves its role, by any
of its handlers or timers, before its goroutines have built their requests.
-/

import RaftInMotion.Model.Turns

namespace RaftInMotion

open Cluster Execution

variable {n : Nat} {Command : Type}

/-! ### Turns that keep a role -/

namespace Raft

variable {rf next : Raft n Command}

/-- The server is as it was, as far as its role goes. -/
structure SameRole (rf next : Raft n Command) : Prop where
  state : next.state = rf.state
  currentTerm : next.currentTerm = rf.currentTerm

theorem sameRole_of_core {other : Raft n Command} (core : next.core = other.core)
    (same : SameRole rf other) : SameRole rf next := by
  have state : next.core.state = other.core.state := congrArg Raft.state core
  have currentTerm : next.core.currentTerm = other.core.currentTerm :=
    congrArg Raft.currentTerm core
  exact ⟨state.trans same.state, currentTerm.trans same.currentTerm⟩

theorem electionTimer_sameRole {position : Nat} {expired : Bool} {calls : List (VoteCall n)}
    (fired : rf.electionTimer position expired = some (next, calls))
    (quiet : ¬(expired = true ∧ rf.timers[position]? = some (some rf.currentTerm) ∧
      (rf.state = .candidate ∨ rf.state = .follower))) : SameRole rf next := by
  unfold electionTimer at fired
  split at fired
  · cases fired
  · cases fired
    exact ⟨rfl, rfl⟩
  · next termStarted reads =>
    split_ifs at fired with stopped outdated expires
    · cases fired
      exact ⟨rfl, rfl⟩
    · cases fired
      exact ⟨rfl, rfl⟩
    · refine absurd ⟨expires, not_not.mp outdated ▸ reads, ?_⟩ quiet
      by_contra neither
      exact stopped (not_or.mp neither)
    · cases fired
      exact ⟨rfl, rfl⟩

theorem requestVote_sameRole {args : RequestVoteArgs n}
    (quiet : rf.state ≠ .dead → ¬rf.currentTerm < args.term) :
    SameRole rf (rf.requestVote args).1 := by
  by_cases alive : rf.state = .dead
  · rw [requestVote_of_dead args alive]
    exact ⟨rfl, rfl⟩
  · have stays : rf.meetTerm args.term = rf := if_neg (quiet alive)
    rcases requestVote_cases args alive with refused | ⟨-, -, -, granted⟩
    · rw [refused, stays]
      exact ⟨rfl, rfl⟩
    · rw [granted, stays]
      exact ⟨rfl, rfl⟩

theorem receiveVote_sameRole {call : VoteCall n} {outcome : Option RequestVoteReply}
    (loses : rf.wins call outcome = false) (stays : outcome.any (rf.stepsDown call) = false) :
    SameRole rf (rf.receiveVote call outcome) := by
  have core := receiveVote_of_stays stays
  rw [if_neg (by simp [loses])] at core
  exact sameRole_of_core core ⟨rfl, rfl⟩

theorem store_sameRole (args : AppendEntriesArgs n Command) (prevLogIndex : Nat) :
    SameRole rf (rf.store args prevLogIndex) :=
  ⟨store_state args prevLogIndex, store_currentTerm args prevLogIndex⟩

theorem appendEntries_sameRole {args : AppendEntriesArgs n Command} {reply : AppendEntriesReply}
    (handled : rf.appendEntries args = some (next, reply))
    (quiet : rf.state ≠ .dead → ¬rf.currentTerm < args.term ∧
      (rf.currentTerm = args.term → rf.state = .follower)) : SameRole rf next := by
  have heeds : rf.state ≠ .dead → rf.currentTerm ≤ args.term → rf.heed args.term = rf := by
    intro alive reached
    obtain ⟨notNewer, follows⟩ := quiet alive
    refine if_neg (not_or.mpr ⟨notNewer, not_not.mpr (follows ?_)⟩)
    omega
  cases appendEntries_outcome handled with
  | dead gone => exact ⟨rfl, rfl⟩
  | stale alive older _ _ same term fails => rcases same with rfl | rfl <;> exact ⟨rfl, rfl⟩
  | reject alive reached _ term fails =>
    rw [heeds alive reached]
    exact ⟨rfl, rfl⟩
  | blank alive reached _ term first empty =>
    rw [heeds alive reached]
    exact ⟨rfl, rfl⟩
  | accept alive reached _ term prevLogIndex position held found same live =>
    rw [heeds alive reached]
    exact ⟨(store_sameRole args prevLogIndex).state, (store_sameRole args prevLogIndex).currentTerm⟩

theorem receiveAppend_sameRole {call : AppendCall n} {nextIndexForPeer : Nat}
    {args : AppendEntriesArgs n Command} {reply : AppendEntriesReply}
    (received : rf.receiveAppend call nextIndexForPeer args reply = some next)
    (quiet : ¬rf.currentTerm < reply.term) : SameRole rf next := by
  rcases receiveAppend_cases received with ⟨newer, -⟩ | ⟨-, core, -⟩ |
    ⟨-, -, -, -, _, _, rfl, rfl, -⟩
  · exact absurd newer quiet
  · exact sameRole_of_core core ⟨rfl, rfl⟩
  · exact ⟨rfl, rfl⟩

end Raft

namespace Cluster

variable {c c' : Cluster n Command} {action : Action n Command}

theorem Turn.sameRole {s : Fin n} {next : Raft n Command} {events : List (Event n Command)}
    (turn : c.Turn action s next events) (noRestart : c.restartFree action = true)
    (stays : c.leavesRole action s = false) : (c.node s).SameRole next := by
  simp only [leavesRole, Bool.or_eq_false_iff] at stays
  obtain ⟨⟨⟨⟨own, vote⟩, append⟩, outcome⟩, answer⟩ := stays
  cases turn with
  | timer fired =>
    refine Raft.electionTimer_sameRole fired ?_
    rintro ⟨expires, reads, runs⟩
    simp only [expires, reads, decide_true, Bool.true_and, Bool.or_eq_false_iff,
      decide_eq_false_iff_not] at own
    exact runs.elim own.1 own.2
  | handleVote present request =>
    refine Raft.requestVote_sameRole fun alive newer => ?_
    simp [voteHandled, present, request, alive, newer] at vote
  | handleAppend present request handled =>
    refine Raft.appendEntries_sameRole handled fun alive => ?_
    simp only [appendHandled, present, Option.bind_some, request, decide_true, alive, ne_eq,
      not_false_eq_true, Bool.true_and, Bool.or_eq_false_iff, decide_eq_false_iff_not,
      Bool.and_eq_false_iff, not_not] at append
    exact ⟨append.1, fun same => append.2.resolve_left (not_not.mpr same)⟩
  | receiveVote received =>
    obtain ⟨loses, stays⟩ : (c.node _).wins _ _ = false ∧ _ := by simpa [received] using outcome
    exact Raft.receiveVote_sameRole loses (by simpa using stays)
  | receiveAppend present received =>
    refine Raft.receiveAppend_sameRole received fun newer => ?_
    simp [appendAnswered, present, newer] at answer
  | submit submitted =>
    rcases Raft.submit_cases submitted with ⟨rfl, -, -⟩ | ⟨rfl, -, -⟩ <;> exact ⟨rfl, rfl⟩
  | leaderLoop turned =>
    exact Raft.sameRole_of_core (Raft.leaderLoop_cases turned).1 ⟨rfl, rfl⟩
  | leaderLoopClosed ended =>
    exact Raft.sameRole_of_core (Raft.leaderLoopClosed_cases ended).1 ⟨rfl, rfl⟩
  | takeReady taken =>
    rcases Raft.takeReady_cases taken with ⟨-, rfl⟩ | ⟨-, -, rfl⟩ <;> exact ⟨rfl, rfl⟩
  | sendReady sent =>
    obtain ⟨rest, -, rfl⟩ := Raft.sendReady_cases sent
    exact ⟨rfl, rfl⟩
  | kill killed =>
    rcases Raft.kill_cases killed with ⟨-, rfl⟩ | ⟨alive, -⟩
    · exact ⟨rfl, rfl⟩
    · simp [alive] at own
  | restart closed made => cases noRestart
  | _ => exact ⟨rfl, rfl⟩

/-! ### Goroutines that have still to build their requests -/

/-- A goroutine that has still to build its request belongs to the role its server has. -/
def InRole (c : Cluster n Command) : Task n Command → Prop
  | .voteSpawned call =>
    (c.node call.candidate).state = .candidate ∧
      (c.node call.candidate).currentTerm = call.savedCurrentTerm
  | .appendSpawned call =>
    (c.node call.leader).state = .leader ∧ (c.node call.leader).currentTerm = call.savedCurrentTerm
  | _ => True

/-- The request was built by a server that was a candidate in its term. -/
def FromCandidate (visited : Cluster n Command → Prop) (args : RequestVoteArgs n) : Prop :=
  ∃ c, visited c ∧ (c.node args.candidateId).state = .candidate ∧
    (c.node args.candidateId).currentTerm = args.term ∧
    (args.lastLogIndex, args.lastLogTerm) = (c.node args.candidateId).lastLogIndexAndTerm

/-- The request was built by a server that led its term. -/
def FromLeader (visited : Cluster n Command → Prop) (peer : Fin n)
    (args : AppendEntriesArgs n Command) : Prop :=
  ∃ c next, visited c ∧ (c.node args.leaderId).state = .leader ∧
    (c.node args.leaderId).currentTerm = args.term ∧
    (c.node args.leaderId).appendEntriesArgs ⟨args.leaderId, peer, args.term⟩ = some (next, args)

/-- Every request in flight carries the data of the role it claims. -/
structure RequestsInRole (visited : Cluster n Command → Prop) (c : Cluster n Command) : Prop where
  votes : ∀ task ∈ c.pool, ∀ peer args, task.voteRequest = some (peer, args) →
    FromCandidate visited args
  appends : ∀ task ∈ c.pool, ∀ peer args, task.appendRequest = some (peer, args) →
    FromLeader visited peer args

variable {visited visited' : Cluster n Command → Prop}

theorem FromCandidate.mono {args : RequestVoteArgs n} (built : FromCandidate visited args)
    (wider : ∀ c, visited c → visited' c) : FromCandidate visited' args := by
  obtain ⟨c, here, role⟩ := built
  exact ⟨c, wider c here, role⟩

theorem FromLeader.mono {peer : Fin n} {args : AppendEntriesArgs n Command}
    (built : FromLeader visited peer args) (wider : ∀ c, visited c → visited' c) :
    FromLeader visited' peer args := by
  obtain ⟨c, next, here, role⟩ := built
  exact ⟨c, next, wider c here, role⟩

theorem RequestsInRole.mono (inRole : RequestsInRole visited c)
    (wider : ∀ c, visited c → visited' c) : RequestsInRole visited' c where
  votes task member peer args request := (inRole.votes task member peer args request).mono wider
  appends task member peer args request :=
    (inRole.appends task member peer args request).mono wider

structure RolesKept (visited : Cluster n Command → Prop) (c : Cluster n Command) : Prop where
  named : ∀ s, (c.node s).id = s
  pending : ∀ task ∈ c.pool, c.InRole task
  requests : RequestsInRole visited c

theorem rolesKept_start (preload : Option (Preload Command))
    (visited : Cluster n Command → Prop) : RolesKept visited (start n preload) :=
  ⟨fun _ => rfl, List.forall_mem_nil _, List.forall_mem_nil _, List.forall_mem_nil _⟩

/-- The server that a goroutine waits for to build its request keeps its role in an allowed step,
or it is created again. -/
theorem sameRole_step (taken : c.step action = some c') (safe : c.keepsRoles action = true)
    {s : Fin n} {task : Task n Command} (member : task ∈ c.pool) (builds : task.builds s = true)
    (stays : action ≠ .restart s) : (c.node s).SameRole (c'.node s) := by
  obtain ⟨p, next, events, turn, nodes, -⟩ := step_turn taken
  rw [nodes, Function.update_apply]
  split_ifs with moved
  · subst moved
    have builder : c.pool.any (Task.builds s) = true := List.any_eq_true.mpr ⟨task, member, builds⟩
    have kept := List.all_eq_true.mp safe s (List.mem_finRange s)
    rw [builder, Bool.and_true, Bool.not_eq_true'] at kept
    refine turn.sameRole ?_ kept
    cases action with
    | restart s' =>
      cases turn with
      | receiveVote received => cases received
      | restart closed made => exact absurd rfl stays
    | _ => rfl
  · exact ⟨rfl, rfl⟩

/-- A goroutine that is spawned is in the role of its server. -/
theorem Born.inRole {task : Task n Command} (born : c.Born action task)
    (taken : c.step action = some c') (named : ∀ s, (c.node s).id = s) : c'.InRole task := by
  cases born with
  | @voteSpawned s position expired next calls call fired member =>
    obtain ⟨c₁, isFired, rfl⟩ := Option.map_eq_some_iff.mp taken
    obtain rfl : (next, calls) = c₁ := Option.some_inj.mp (fired.symm.trans isFired)
    rcases Raft.electionTimer_cases fired with ⟨-, -, none⟩ | ⟨-, core, -, all⟩
    · rw [none] at member
      cases member
    · rw [all] at member
      obtain ⟨candidate, -, saved, -⟩ := Raft.mem_startElection member
      rw [named] at candidate
      subst candidate
      have state : next.core.state = .candidate := congrArg Raft.state core
      have term : next.core.currentTerm = (c.node call.candidate).currentTerm + 1 :=
        congrArg Raft.currentTerm core
      simp only [InRole, act, Function.update_self]
      exact ⟨state, term.trans saved.symm⟩
  | @appendSpawned s position next calls call turned member =>
    obtain ⟨c₁, isTurned, rfl⟩ := Option.map_eq_some_iff.mp taken
    obtain rfl : (next, calls) = c₁ := Option.some_inj.mp (turned.symm.trans isTurned)
    obtain ⟨core, -, none | all⟩ := Raft.leaderLoop_cases turned
    · rw [none] at member
      cases member
    · rw [all] at member
      obtain ⟨leads, leader, -, saved⟩ := Raft.mem_leaderSendHeartbeats member
      rw [named] at leader
      subst leader
      have same := Raft.sameRole_of_core core ⟨rfl, rfl⟩
      simp only [InRole, act, Function.update_self]
      exact ⟨same.state.trans leads, same.currentTerm.trans saved.symm⟩
  | @orphan action task member => cases task <;> exact trivial
  | _ => exact trivial

/-- The goroutines of a server that is created again are gone. -/
theorem restart_builds {s : Fin n} (taken : c.step (.restart s) = some c') :
    ∀ task ∈ c'.pool, task.builds s = false := by
  simp only [Cluster.step, restart] at taken
  split_ifs at taken
  obtain ⟨rf, -, rfl⟩ := Option.map_eq_some_iff.mp taken
  intro task member
  obtain ⟨before, -, rfl⟩ := List.mem_map.mp member
  by_cases mine : before.caller = some s
  · rw [if_pos mine]
    cases before <;> rfl
  · rw [if_neg mine]
    cases before with
    | voteSpawned call => exact decide_eq_false fun same => mine (congrArg some same)
    | appendSpawned call => exact decide_eq_false fun same => mine (congrArg some same)
    | _ => rfl

theorem InRole.step {task : Task n Command} (inRole : c.InRole task)
    (taken : c.step action = some c') (safe : c.keepsRoles action = true) (old : task ∈ c.pool)
    (member : task ∈ c'.pool) : c'.InRole task := by
  have kept : ∀ s, task.builds s = true → (c.node s).SameRole (c'.node s) := by
    intro s builds
    refine sameRole_step taken safe old builds ?_
    rintro rfl
    rw [restart_builds taken task member] at builds
    cases builds
  cases task with
  | voteSpawned call =>
    have same := kept call.candidate (decide_eq_true rfl)
    exact ⟨same.state.trans inRole.1, same.currentTerm.trans inRole.2⟩
  | appendSpawned call =>
    have same := kept call.leader (decide_eq_true rfl)
    exact ⟨same.state.trans inRole.1, same.currentTerm.trans inRole.2⟩
  | _ => exact trivial

theorem Born.fromCandidate {task : Task n Command} {peer : Fin n} {args : RequestVoteArgs n}
    (born : c.Born action task) (here : visited c) (kept : RolesKept visited c)
    (request : task.voteRequest = some (peer, args)) : FromCandidate visited args := by
  cases born with
  | @voteSent i call present =>
    cases request
    obtain ⟨state, term⟩ : (c.node call.candidate).state = .candidate ∧
        (c.node call.candidate).currentTerm = call.savedCurrentTerm :=
      kept.pending _ (List.mem_of_getElem? present)
    have sender : ((c.node call.candidate).requestVoteArgs call).candidateId = call.candidate :=
      kept.named call.candidate
    exact ⟨c, here, sender.symm ▸ state, sender.symm ▸ term, by rw [sender]; rfl⟩
  | @orphan action task member =>
    refine kept.requests.votes task member peer args ?_
    cases task <;> exact request
  | _ => cases request

theorem Born.fromLeader {task : Task n Command} {peer : Fin n}
    {args : AppendEntriesArgs n Command} (born : c.Born action task) (here : visited c)
    (kept : RolesKept visited c) (request : task.appendRequest = some (peer, args)) :
    FromLeader visited peer args := by
  cases born with
  | @appendSent i call built present isBuilt =>
    cases request
    obtain ⟨state, term⟩ : (c.node call.leader).state = .leader ∧
        (c.node call.leader).currentTerm = call.savedCurrentTerm :=
      kept.pending _ (List.mem_of_getElem? present)
    obtain ⟨-, saved, leaderId, -⟩ := Raft.appendEntriesArgs_fields isBuilt
    have sender : built.2.leaderId = call.leader := leaderId.trans (kept.named call.leader)
    refine ⟨c, built.1, here, sender.symm ▸ state, ?_, ?_⟩
    · rw [sender, saved]
      exact term
    · rw [sender, saved]
      exact isBuilt
  | @orphan action task member =>
    refine kept.requests.appends task member peer args ?_
    cases task <;> exact request
  | _ => cases request

theorem RolesKept.step (kept : RolesKept visited c) (here : visited c)
    (safe : c.keepsRoles action = true) (taken : c.step action = some c') :
    RolesKept visited c' := by
  refine ⟨?_, ?_, ?_, ?_⟩
  · obtain ⟨s, next, events, turn, nodes, -⟩ := step_turn taken
    exact forall_turned (P := fun p rf => rf.id = p) nodes (turn.named (kept.named s))
      fun p _ => kept.named p
  · intro task member
    rcases step_born taken task member with old | born
    · exact InRole.step (kept.pending task old) taken safe old member
    · exact born.inRole taken kept.named
  · intro task member peer args request
    rcases step_born taken task member with old | born
    · exact kept.requests.votes task old peer args request
    · exact born.fromCandidate here kept request
  · intro task member peer args request
    rcases step_born taken task member with old | born
    · exact kept.requests.appends task old peer args request
    · exact born.fromLeader here kept request

end Cluster

theorem requests_in_role (preload : Option (Preload Command)) (actions : List (Action n Command))
    {c : Cluster n Command} (taken : run preload actions = some c)
    (safe : along step keepsRoles (start n preload) actions = true) :
    RequestsInRole (Visits step (start n preload) actions) c :=
  (execute_invariant_visits (RolesKept (Visits step (start n preload) actions))
    (fun _ _ _ here kept allowed stepped => kept.step here allowed stepped)
    (rolesKept_start preload _) safe taken).requests

/-- Server 0 starts over in term 2, wins it and takes a command, before a goroutine of its election
in term 1 builds its request. -/
def lateElection : List (Action 3 ℕ) :=
  [timeout s₀ 0, timeout s₀ 0, roundTrip 2, roundTrip 3, [.submit s₀ 7, .send 0]].flatten

/-- A goroutine of server 0, which has led term 2, builds its request when server 2 leads term 3 and
has replaced the last entry of server 0. -/
def lateHeartbeat : List (Action 3 ℕ) :=
  [timeout s₀ 0, roundTrip 0, roundTrip 1, [.submit s₀ 7, .leaderLoop s₀ 0], timeout s₂ 0,
    roundTrip 4, roundTrip 5, [.submit s₂ 9, .leaderLoop s₂ 0, .send 6, .handle 6,
    .send 2]].flatten

theorem requests_in_role_fails :
    (∃ c, run none lateElection = some c ∧ ∃ task ∈ c.pool, ∃ peer args,
      task.voteRequest = some (peer, args) ∧
        ¬FromCandidate (Visits step (start 3 none) lateElection) args) ∧
    ∃ c, run (some seeded) lateHeartbeat = some c ∧ ∃ task ∈ c.pool, ∃ peer args,
      task.appendRequest = some (peer, args) ∧
        ¬FromLeader (Visits step (start 3 (some seeded)) lateHeartbeat) peer args := by
  constructor
  · obtain ⟨c, taken, sent⟩ := (Option.any_eq_true _ _).mp (by decide +kernel :
      (run none lateElection).any (fun c => decide
        (c.pool[0]? = some (.voteSent ⟨s₀, s₁, 1, 0⟩ ⟨1, s₀, 0, 2⟩))) = true)
    refine ⟨c, taken, _, List.mem_of_getElem? (of_decide_eq_true sent), _, _, rfl, ?_⟩
    rintro ⟨middle, visits, -, term, reads⟩
    obtain ⟨count, within, before⟩ := visits.take_part
    have never : ∀ count ≤ lateElection.length,
        (run none (lateElection.take count)).all (fun c => decide
          ((c.node s₀).currentTerm = 1 → (c.node s₀).lastLogIndexAndTerm ≠ (0, 2))) = true := by
      decide +kernel
    have kept := never count within
    rw [run, before] at kept
    exact of_decide_eq_true kept term reads.symm
  · obtain ⟨c, taken, sent⟩ := (Option.any_eq_true _ _).mp (by decide +kernel :
      (run (some seeded) lateHeartbeat).any (fun c => decide
        (c.pool[2]? = some (.appendSent ⟨s₀, s₁, 2⟩ 1 ⟨2, s₀, 0, 1, [⟨9, 3⟩], -1⟩))) = true)
    refine ⟨c, taken, _, List.mem_of_getElem? (of_decide_eq_true sent), _, _, rfl, ?_⟩
    rintro ⟨middle, next, visits, -, term, reads⟩
    obtain ⟨count, within, before⟩ := visits.take_part
    have never : ∀ count ≤ lateHeartbeat.length,
        (run (some seeded) (lateHeartbeat.take count)).all (fun c => decide
          ((c.node s₀).currentTerm = 2 → ((c.node s₀).appendEntriesArgs ⟨s₀, s₁, 2⟩).all
            fun built => built.2.entries ≠ [⟨9, 3⟩])) = true := by
      decide +kernel
    have kept := never count within
    rw [run, before] at kept
    have differs := of_decide_eq_true kept term
    simp [reads] at differs

end RaftInMotion
