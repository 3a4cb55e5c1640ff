/-
This file settles crash recovery and what the logs tell of the servers where the instances that have
been replaced go on. An instance that is dead when it is replaced takes no part in anything any
more, unless a late reply to `AppendEntries` brings it back. It then votes again, beside the one
that has taken its place, and both log under one id.
-/

import RaftInMotion.Model.Incarnations
import RaftInMotion.Safety.Logging
import RaftInMotion.Safety.Recovery

namespace RaftInMotion

open Cluster Execution

variable {n : Nat} {Command : Type}

namespace Cluster

variable {c c' : Cluster n Command} {action : Action n Command} {s : Fin n}

/-! ### Goroutines of a dead instance -/

theorem own_of_voteOutcome {call : VoteCall n} {outcome : Option RequestVoteReply}
    (received : c.voteOutcome action = some (call, outcome)) (own : c.own s action = true) :
    call.candidate = s := by
  cases action with
  | finish i =>
    simp only [voteOutcome] at received
    split at received
    · rename_i present
      cases received
      simpa [Cluster.own, present, Task.caller] using own
    · cases received
  | fail i =>
    simp only [voteOutcome] at received
    split at received
    · rename_i present
      cases received
      simpa [Cluster.own, present, Task.caller] using own
    · rename_i present
      cases received
      simpa [Cluster.own, present, Task.caller] using own
    · cases received
  | _ => cases received

/-- A goroutine of a server moves no other one. -/
theorem Turn.own {p : Fin n} {next : Raft n Command} {events : List (Event n Command)}
    (turn : c.Turn action p next events) (own : c.own s action = true) :
    p = s ∨ next = c.node p := by
  cases turn with
  | receiveVote received => exact Or.inl (own_of_voteOutcome received own)
  | receiveAppend present received =>
    exact Or.inl (by simpa [Cluster.own, present, Task.caller] using own)
  | handleVote present request | handleAppend present request handled | restart closed made =>
    cases own
  | sendVote present | sendAppend present | failAppend => exact Or.inr rfl
  | _ => exact Or.inl (of_decide_eq_true own)

/-- While no reply brings it back, a dead instance stays dead, in its term. -/
theorem Turn.rests {next : Raft n Command} {events : List (Event n Command)}
    (turn : c.Turn action s next events) (own : c.own s action = true)
    (dead : (c.node s).state = .dead)
    (early : ∀ call term, c.appendAnswered action = some (call, term) →
      term ≤ (c.node call.leader).currentTerm) :
    next.state = .dead ∧ next.currentTerm = (c.node s).currentTerm := by
  have of_core : ∀ {other : Raft n Command}, other.core = (c.node s).core →
      other.state = .dead ∧ other.currentTerm = (c.node s).currentTerm := by
    intro other core
    exact ⟨(congrArg Raft.state core : other.core.state = (c.node s).core.state).trans dead,
      (congrArg Raft.currentTerm core : other.core.currentTerm = (c.node s).core.currentTerm)⟩
  cases turn with
  | timer fired =>
    rcases Raft.electionTimer_cases fired with ⟨core, -, -⟩ | ⟨runs | follows, -⟩
    · exact of_core core
    · cases runs.symm.trans dead
    · cases follows.symm.trans dead
  | handleVote present request | handleAppend present request handled | restart closed made =>
    cases own
  | @receiveVote _ call outcome received =>
    have stays : outcome.any ((c.node call.candidate).stepsDown call) = false := by
      cases outcome <;> simp [Raft.stepsDown, dead]
    have core := Raft.receiveVote_of_stays stays
    rw [if_neg (by simp [Raft.wins, dead])] at core
    exact of_core core
  | @receiveAppend i call _ _ reply _ present received =>
    have answered : c.appendAnswered (.finish i) = some (call, reply.term) := by
      simp only [appendAnswered, present]
    rcases Raft.receiveAppend_cases received with ⟨newer, -⟩ | ⟨-, core, -⟩ | ⟨-, leads, -⟩
    · exact absurd newer (early _ _ answered).not_gt
    · exact of_core core
    · cases leads.symm.trans dead
  | submit submitted =>
    rcases Raft.submit_cases submitted with ⟨rfl, -, -⟩ | ⟨-, leads, -⟩
    · exact ⟨dead, rfl⟩
    · cases leads.symm.trans dead
  | leaderLoop turned => exact of_core (Raft.leaderLoop_cases turned).1
  | leaderLoopClosed ended => exact of_core (Raft.leaderLoopClosed_cases ended).1
  | takeReady taken =>
    rcases Raft.takeReady_cases taken with ⟨-, rfl⟩ | ⟨-, -, rfl⟩ <;> exact ⟨dead, rfl⟩
  | sendReady sent =>
    obtain ⟨rest, -, rfl⟩ := Raft.sendReady_cases sent
    exact ⟨dead, rfl⟩
  | kill killed =>
    rcases Raft.kill_cases killed with ⟨-, rfl⟩ | ⟨alive, -⟩
    · exact ⟨dead, rfl⟩
    · exact absurd dead alive
  | _ => exact ⟨dead, rfl⟩

/-- It casts no vote. -/
theorem Turn.votes_none {p q candidate : Fin n} {term : Nat} {next : Raft n Command}
    {events : List (Event n Command)} (turn : c.Turn action p next events)
    (own : c.own s action = true) (dead : (c.node s).state = .dead) :
    .voted q term candidate ∉ events := by
  intro votes
  cases turn with
  | timer fired =>
    obtain rfl := of_decide_eq_true own
    rcases Raft.electionTimer_cases fired with ⟨core, -, -⟩ | ⟨runs | follows, -⟩
    · have same := congrArg Raft.currentTerm core
      simp only [Raft.core_currentTerm] at same
      simp [same] at votes
    · cases runs.symm.trans dead
    · cases follows.symm.trans dead
  | handleVote present request | handleAppend present request handled => cases own
  | receiveVote received | receiveAppend present received | kill killed =>
    split_ifs at votes <;> simp at votes
  | _ => simp at votes

/-- What it does is safe. -/
theorem safeRestarts_of_own (own : c.own s action = true) (dead : (c.node s).state = .dead) :
    c.safeRestarts action = true := by
  have stands : c.erasesVote action = false := by
    unfold erasesVote
    refine Bool.or_eq_false_iff.mpr ⟨?_, ?_⟩
    · split
      · rename_i received
        rw [own_of_voteOutcome received own]
        simp [Raft.stepsDown, dead]
      · rfl
    · cases action <;> first | rfl | cases own
  have saved : c.unsavedRestart action = false := by
    cases action <;> first | rfl | cases own
  simp [safeRestarts, stands, saved]

theorem dead_of_safeRestart (safe : c.safeRestarts (.restart s) = true) :
    (c.node s).state = .dead := by
  have saved : c.unsavedRestart (.restart s) = false := by
    simpa using (Bool.and_eq_true_iff.mp safe).2
  simp only [unsavedRestart, ne_eq, Bool.or_eq_false_iff, decide_eq_false_iff_not, not_not] at saved
  exact saved.1.1

end Cluster

/-! ### Replaced instances -/

/-- A replaced instance rests: it is dead, no server is below the term in which it was left there,
and every vote that was cast there is known. -/
structure Replaced.Rests (old : Replaced n Command) (c : Cluster n Command) : Prop where
  saved : Saved old.cluster
  dead : (old.cluster.node old.server).state = .dead
  term : ∀ s, (old.cluster.node s).currentTerm ≤ (c.node s).currentTerm
  votes : ∀ s term candidate, .voted s term candidate ∈ old.cluster.history →
    .voted s term candidate ∈ c.history

namespace Replaced

variable {old old' : Replaced n Command} {c c' : Cluster n Command} {action : Action n Command}

theorem Rests.forward (rests : old.Rests c)
    (forward : ∀ s, (c.node s).currentTerm ≤ (c'.node s).currentTerm)
    (grows : c.history <:+ c'.history) : old.Rests c' :=
  ⟨rests.saved, rests.dead, fun s => (rests.term s).trans (forward s),
    fun s term candidate member => grows.subset (rests.votes s term candidate member)⟩

/-- A reply changes only what the goroutine that waits for it is going to do. -/
theorem Rests.hears (rests : old.Rests c) (other : Cluster n Command) (task : Nat) :
    (old.hears other task).Rests c := by
  unfold Replaced.hears
  split_ifs
  · split
    · rename_i next handled
      have reached : ∀ moved ∈ next.pool, moved.Reached old.cluster := by
        intro moved member
        have stepped : ({ other with pool := old.cluster.pool } : Cluster n Command).step
            (.handle task) = some next := handled
        rcases step_born stepped moved member with known | born
        · exact rests.saved.reached moved known
        · cases born with
          | @orphan _ task known => cases task <;> trivial
          | _ => trivial
      have votes := rests.saved.votes
      exact ⟨⟨⟨votes.named, votes.reached, votes.held, votes.single⟩, reached, rests.saved.sent,
        rests.saved.log, rests.saved.killed⟩, rests.dead, rests.term, rests.votes⟩
    · exact rests
  · exact rests

theorem Rests.step (rests : old.Rests c) (early : old.revives action = false)
    (taken : old.step action = some old') : old'.Rests c := by
  unfold Replaced.step at taken
  split_ifs at taken with own
  obtain ⟨next, moved, rfl⟩ := Option.map_eq_some_iff.mp taken
  have saved := rests.saved.step (safeRestarts_of_own own rests.dead) moved
  have inTerm : ∀ call term, old.cluster.appendAnswered action = some (call, term) →
      term ≤ (old.cluster.node call.leader).currentTerm := by
    intro call term answered
    simpa [revives, answered] using early
  obtain ⟨p, node, events, turn, nodes, history⟩ := step_turn moved
  -- Only the instance itself moves, and it rests.
  have stays : node.state = (old.cluster.node p).state ∧
      node.currentTerm = (old.cluster.node p).currentTerm := by
    rcases turn.own own with rfl | same
    · obtain ⟨dead, term⟩ := turn.rests own rests.dead inTerm
      exact ⟨dead.trans rests.dead.symm, term⟩
    · exact ⟨congrArg Raft.state same, congrArg Raft.currentTerm same⟩
  have kept : ∀ s, (next.node s).state = (old.cluster.node s).state ∧
      (next.node s).currentTerm = (old.cluster.node s).currentTerm :=
    forall_turned (P := fun s rf => rf.state = (old.cluster.node s).state ∧
      rf.currentTerm = (old.cluster.node s).currentTerm) nodes stays fun _ _ => ⟨rfl, rfl⟩
  refine ⟨saved, (kept _).1.trans rests.dead, fun s => (kept s).2.trans_le (rests.term s),
    fun s term candidate member => ?_⟩
  rw [history] at member
  rcases List.mem_append.mp member with new | known
  · exact absurd new (turn.votes_none own rests.dead)
  · exact rests.votes s term candidate known

end Replaced

/-! ### Crash recovery -/

namespace Incarnations

variable {x x' : Incarnations n Command} {action : IncarnationAction n Command}

/-- After every restart a server has the log it was killed with. No instance of it has sent a term
above the one it is in, and all its instances vote for one candidate in a term. -/
structure Remembered (x : Incarnations n Command) : Prop where
  recovered : Recovered x.cluster
  term : ∀ s sent, .sentTerm s sent ∈ x.observed → sent ≤ (x.cluster.node s).currentTerm
  vote : ∀ s term candidate candidate', .voted s term candidate ∈ x.observed →
    .voted s term candidate' ∈ x.observed → candidate = candidate'

/-- What holds between restarts. -/
structure Kept (x : Incarnations n Command) : Prop where
  saved : Saved x.cluster
  recovered : Recovered x.cluster
  rests : ∀ old ∈ x.replaced, old.Rests x.cluster

theorem Kept.remembered (kept : x.Kept) : x.Remembered := by
  have known : ∀ {s term candidate}, .voted s term candidate ∈ x.observed →
      .voted s term candidate ∈ x.cluster.history := by
    intro s term candidate member
    rcases List.mem_append.mp member with member | here
    · obtain ⟨old, isOld, member⟩ := List.mem_flatMap.mp member
      exact (kept.rests old isOld).votes s term candidate member
    · exact here
  refine ⟨kept.recovered, fun s sent member => ?_, fun s term candidate candidate' member member' =>
    kept.recovered.vote s term _ _ (known member) (known member')⟩
  rcases List.mem_append.mp member with member | here
  · obtain ⟨old, isOld, member⟩ := List.mem_flatMap.mp member
    have rests := kept.rests old isOld
    exact (rests.saved.sent s sent member).trans (rests.term s)
  · exact kept.saved.sent s sent here

theorem Kept.step (kept : x.Kept) (safe : x.safeRestarts action = true)
    (taken : x.step action = some x') : x'.Kept := by
  obtain ⟨safe, early⟩ := Bool.and_eq_true_iff.mp safe
  cases action with
  | now action =>
    obtain ⟨next, moved, rfl⟩ := Option.map_eq_some_iff.mp taken
    have forward := step_forward_of_safe safe moved
    obtain ⟨_, _, events, turn, -, history⟩ := step_turn moved
    have grows : x.cluster.history <:+ next.history := ⟨events, history.symm⟩
    refine ⟨kept.saved.step safe moved, kept.recovered.step kept.saved safe moved, ?_⟩
    intro old member
    cases action with
    | handle task =>
      obtain ⟨left, isLeft, rfl⟩ := List.mem_map.mp member
      exact ((kept.rests left isLeft).forward forward grows).hears x.cluster task
    | restart s =>
      rcases List.mem_append.mp member with known | new
      · exact (kept.rests old known).forward forward grows
      · cases List.mem_singleton.mp new
        have dead := dead_of_safeRestart safe
        exact ⟨kept.saved, dead, forward, fun _ _ _ voted => grows.subset voted⟩
    | _ => exact (kept.rests old member).forward forward grows
  | old position action =>
    obtain ⟨old, moved, rfl⟩ := Option.map_eq_some_iff.mp taken
    obtain ⟨before, present, stepped⟩ := Option.bind_eq_some_iff.mp moved
    refine ⟨kept.saved, kept.recovered, fun left member => ?_⟩
    rcases List.mem_or_eq_of_mem_set member with known | rfl
    · exact kept.rests left known
    · have early : before.revives action = false := by
        simpa [revived, present] using early
      exact (kept.rests before (List.mem_of_getElem? present)).step early stepped

theorem crash_recovery_replaced (preload : Option (Preload Command))
    (actions : List (IncarnationAction n Command)) (taken : run preload actions = some x)
    (safe : along step safeRestarts (start n preload) actions = true) : x.Remembered := by
  refine (execute_invariant Kept (fun _ _ _ kept safe taken => kept.step safe taken) ?_ safe
    taken).remembered
  exact ⟨saved_start preload, recovered_start preload, fun _ member => nomatch member⟩

/-- Server 0 leads term 2. Server 1, which has gone on to term 3, answers its second request, and
server 0 is killed and created again. -/
def replacedLeader : List (IncarnationAction 3 ℕ) :=
  [replication, [.leaderLoop s₀ 0, .leaderLoop s₀ 0, .send 6], timeout s₁ 0,
    [.handle 6, .kill s₀, .restart s₀]].flatten.map .now

theorem crash_recovery_replaced_restarted : ∃ x,
    run (some seeded) (replacedLeader ++ [.old 0 (.fail 6)]) = some x ∧
      .restarted 0 2 [⟨5, 1⟩, ⟨7, 2⟩] ∈ x.cluster.history ∧ x.Remembered := by
  obtain ⟨x, taken, restarted⟩ := (Option.any_eq_true _ _).mp (by decide +kernel :
    (run (some seeded) (replacedLeader ++ [.old 0 (.fail 6)])).any
      (fun x => decide (.restarted 0 2 [⟨5, 1⟩, ⟨7, 2⟩] ∈ x.cluster.history)) = true)
  exact ⟨x, taken, of_decide_eq_true restarted,
    crash_recovery_replaced (some seeded) _ taken (by decide +kernel)⟩

/-- Server 0 asks for votes in term 1 and is killed; nothing has been saved. -/
def unsavedElection : List (IncarnationAction 3 ℕ) :=
  [timeout s₀ 0, [.send 0, .kill s₀, .restart s₀]].flatten.map .now

/-- The answer of server 1 reaches the old instance of server 0, which times out and votes for
itself in term 4. There the new one votes for server 1. -/
def revivedLeader : List (IncarnationAction 3 ℕ) :=
  replacedLeader ++ [.old 0 (.finish 6), .old 0 (.timer s₀ 1 false), .old 0 (.timer s₀ 1 true)] ++
    [timeout s₁ 1, [.send 10, .handle 10]].flatten.map .now

theorem crash_recovery_replaced_fails :
    (∃ x, run none unsavedElection = some x ∧ ¬ x.Remembered) ∧
      ∃ x, run (some seeded) revivedLeader = some x ∧
        along step (meets Cluster.safeRestarts) (start 3 (some seeded)) revivedLeader = true ∧
        ¬ x.Remembered := by
  constructor
  · obtain ⟨x, taken, lost⟩ := (Option.any_eq_true _ _).mp (by decide +kernel :
      (run none unsavedElection).any (fun x => decide (x.cluster.history =
        [.restarted 0 0 [], .killed 0 [], .sentTerm 0 1, .voted 0 1 0])) = true)
    refine ⟨x, taken, fun remembered => ?_⟩
    have reached := remembered.recovered.term [] _ 0 0 [] (of_decide_eq_true lost) 1 (by simp)
    exact absurd reached (by decide)
  · obtain ⟨x, taken, both⟩ := (Option.any_eq_true _ _).mp (by decide +kernel :
      (run (some seeded) revivedLeader).any (fun x => decide (.voted 0 4 0 ∈ x.observed ∧
        .voted 0 4 1 ∈ x.observed)) = true)
    obtain ⟨own, granted⟩ := of_decide_eq_true both
    refine ⟨x, taken, by decide +kernel, fun remembered => ?_⟩
    exact absurd (remembered.vote 0 4 0 1 own granted) (by decide)

end Incarnations

/-! ### Logs -/

theorem Cluster.logs_own {c : Cluster n Command} {action : Action n Command} {s : Fin n}
    (own : c.own s action = true) (named : (c.node s).id = s) :
    ∀ log ∈ c.logs action, log.raftID = s := by
  have writes : (c.node s).Writes (c.logs action) := by
    cases action with
    | timer p position expired =>
      obtain rfl := of_decide_eq_true own
      exact Raft.electionTimerLogs_writes position expired
    | finish i =>
      simp only [Cluster.own] at own
      simp only [Cluster.logs]
      split
      · rename_i call reply present
        obtain rfl : call.candidate = s := by simpa [present, Task.caller] using own
        exact Raft.receiveVoteLogs_writes call _
      · rename_i call _ _ reply present
        obtain rfl : call.leader = s := by simpa [present, Task.caller] using own
        exact Raft.receiveAppendLogs_writes reply
      · exact Raft.writes_nil
    | fail i =>
      simp only [Cluster.own] at own
      simp only [Cluster.logs]
      split
      · rename_i call _ present
        obtain rfl : call.candidate = s := by simpa [present, Task.caller] using own
        exact Raft.receiveVoteLogs_writes call _
      · rename_i call _ present
        obtain rfl : call.candidate = s := by simpa [present, Task.caller] using own
        exact Raft.receiveVoteLogs_writes call _
      · exact Raft.writes_nil
    | kill p =>
      obtain rfl := of_decide_eq_true own
      exact Raft.killLogs_writes
    | handle i => cases own
    | _ => exact Raft.writes_nil
  exact fun log member => (writes log member).trans named

namespace Incarnations

/-- A server is created again, and is a follower, while its last log tells another state. -/
def silentRestart (x : Incarnations n Command) : IncarnationAction n Command → Bool
  | .now action => x.cluster.silentRestart action
  | .old _ _ => false

/-- A replaced instance logs that it has come to a state in which the one that has taken its place
is not. -/
def speaksForOther (x : Incarnations n Command) : IncarnationAction n Command → Bool
  | .old position action =>
    match x.replaced[position]? with
    | some old => (old.step action).isSome &&
      (told Message.reached (old.cluster.logs action)).getLast?.any fun state =>
        state ≠ (x.cluster.node old.server).state
    | none => false
  | .now _ => false

end Incarnations

/-- All instances have the ids of their places. -/
def Incarnations.Named (x : Incarnations n Command) : Prop :=
  (∀ s, (x.cluster.node s).id = s) ∧ ∀ old ∈ x.replaced, ∀ s, (old.cluster.node s).id = s

theorem Replaced.hears_node (old : Replaced n Command) (c : Cluster n Command) (task : Nat) :
    (old.hears c task).cluster.node = old.cluster.node := by
  unfold Replaced.hears
  split_ifs
  · split <;> rfl
  · rfl

theorem Incarnations.Named.step {x x' : Incarnations n Command}
    {action : IncarnationAction n Command} (named : x.Named) (taken : x.step action = some x') :
    x'.Named := by
  cases action with
  | now action =>
    obtain ⟨next, moved, rfl⟩ := Option.map_eq_some_iff.mp taken
    refine ⟨step_named named.1 moved, fun old member => ?_⟩
    cases action with
    | handle task =>
      obtain ⟨left, isLeft, rfl⟩ := List.mem_map.mp member
      rw [left.hears_node]
      exact named.2 left isLeft
    | restart s =>
      rcases List.mem_append.mp member with known | new
      · exact named.2 old known
      · cases List.mem_singleton.mp new
        exact named.1
    | _ => exact named.2 old member
  | old position action =>
    obtain ⟨old, moved, rfl⟩ := Option.map_eq_some_iff.mp taken
    obtain ⟨before, present, stepped⟩ := Option.bind_eq_some_iff.mp moved
    refine ⟨named.1, fun left member => ?_⟩
    rcases List.mem_or_eq_of_mem_set member with known | rfl
    · exact named.2 left known
    · unfold Replaced.step at stepped
      split_ifs at stepped
      obtain ⟨next, ran, rfl⟩ := Option.map_eq_some_iff.mp stepped
      exact step_named (named.2 before (List.mem_of_getElem? present)) ran

namespace LoggedIncarnations

variable {x x' : LoggedIncarnations n Command} {action : IncarnationAction n Command}

/-- The cluster with all that has been logged. -/
def current (x : LoggedIncarnations n Command) : LoggedCluster n Command :=
  ⟨x.incarnations.cluster, x.logged⟩

theorem step_incarnations (x : LoggedIncarnations n Command)
    (action : IncarnationAction n Command) :
    (x.step action).map incarnations = x.incarnations.step action := by
  unfold step
  cases x.incarnations.step action <;> rfl

theorem step_current {action : Action n Command} (taken : x.step (.now action) = some x') :
    x.current.step action = some x'.current := by
  obtain ⟨next, moved, rfl⟩ := Option.map_eq_some_iff.mp taken
  obtain ⟨c, ran, rfl⟩ := Option.map_eq_some_iff.mp moved
  exact LoggedCluster.step_eq.mpr ⟨ran, rfl⟩

theorem reachedState_append (s : Fin n) (first second : List (RaftLog n)) :
    reachedState s (first ++ second) =
      (toldBy Message.reached s second).getLast?.getD (reachedState s first) := by
  unfold reachedState
  rw [toldBy_append, List.getLast?_append]
  cases (toldBy Message.reached s second).getLast? <;> rfl

/-- The logs still tell the states after a step of a replaced instance, unless it tells another. -/
theorem step_old {position : Nat} {action : Action n Command} (named : x.incarnations.Named)
    (before : ∀ s, x.current.TellsState s) (taken : x.step (.old position action) = some x') :
    (∀ s, x'.current.TellsState s) ↔
      x.incarnations.speaksForOther (.old position action) = false := by
  obtain ⟨next, moved, rfl⟩ := Option.map_eq_some_iff.mp taken
  obtain ⟨new, left, rfl⟩ := Option.map_eq_some_iff.mp moved
  obtain ⟨old, present, stepped⟩ := Option.bind_eq_some_iff.mp left
  have own : old.cluster.own old.server action = true := by
    by_contra other
    simp [Replaced.step, other] at stepped
  have ids := logs_own own (named.2 old (List.mem_of_getElem? present) old.server)
  have logged : logs x.incarnations (.old position action) = old.cluster.logs action := by
    simp only [logs, present]
  have whole : (∀ s, reachedState s (x.logged ++ old.cluster.logs action) =
      (x.incarnations.cluster.node s).state) ↔
      (told Message.reached (old.cluster.logs action)).getLast?.getD
        (x.incarnations.cluster.node old.server).state =
          (x.incarnations.cluster.node old.server).state := by
    have here := before old.server
    have mine : reachedState old.server (x.logged ++ old.cluster.logs action) =
        (told Message.reached (old.cluster.logs action)).getLast?.getD
          (x.incarnations.cluster.node old.server).state := by
      rw [reachedState_append, toldBy_self _ ids]
      exact congrArg _ here
    refine ⟨fun each => mine.symm.trans (each old.server), fun same s => ?_⟩
    rcases eq_or_ne s old.server with rfl | other
    · exact mine.trans same
    · rw [reachedState_append, toldBy_other _ ids other]
      exact before s
  rw [← logged] at whole
  refine whole.trans ?_
  rw [logged]
  simp only [Incarnations.speaksForOther, present, stepped, Option.isSome_some, Bool.true_and]
  cases (told Message.reached (old.cluster.logs action)).getLast? <;> simp

/-- In every state of a run every server is in the state that its last log tells, or a follower
that has told none, exactly when no server is created again after a log that tells another state,
and no instance that has been replaced tells a state that is not its successor's. -/
theorem logs_tell_states (preload : Option (Preload Command))
    (actions : List (IncarnationAction n Command)) :
    (∀ x, Visits step (start preload) actions x →
      ∀ s, reachedState s x.logged = (x.incarnations.cluster.node s).state) ↔
      along Incarnations.step
        (fun x action => !x.silentRestart action && !x.speaksForOther action)
        (Incarnations.start n preload) actions = true := by
  rw [show Incarnations.start n preload = (start preload).incarnations from rfl,
    ← along_projected step_incarnations]
  refine visits_iff_along (fun x : LoggedIncarnations n Command => x.incarnations.Named)
    (fun x => ∀ s, x.current.TellsState s) (fun x action disabled => ?_)
    (fun x action x' named before taken => ?_) ⟨fun _ => rfl, fun _ member => nomatch member⟩
    fun _ => rfl
  · have absent := step_incarnations x action
    rw [disabled] at absent
    cases action with
    | now action =>
      cases action with
      | restart s =>
        have none_left : x.incarnations.cluster.restart s = none :=
          Option.map_eq_none_iff.mp absent.symm
        simp [Incarnations.silentRestart, Cluster.silentRestart, none_left,
          Incarnations.speaksForOther]
      | _ => rfl
    | old position action =>
      have none_left := Option.map_eq_none_iff.mp absent.symm
      simp only [Incarnations.silentRestart, Incarnations.speaksForOther, Bool.not_false,
        Bool.true_and, Bool.not_eq_true']
      split
      · rename_i old present
        rw [present, Option.bind_some] at none_left
        simp [none_left]
      · rfl
  · have moved : x.incarnations.step action = some x'.incarnations := by
      rw [← step_incarnations, taken]
      rfl
    refine ⟨fun _ => named.step moved, ?_⟩
    cases action with
    | now action =>
      have logs := LoggedCluster.step_logs (x := x.current) named.1 (step_current taken)
      rw [logs.tellsState before]
      simp [Incarnations.silentRestart, Incarnations.speaksForOther, current]
    | old position action =>
      rw [step_old named before taken]
      simp [Incarnations.silentRestart]

end LoggedIncarnations

end RaftInMotion
