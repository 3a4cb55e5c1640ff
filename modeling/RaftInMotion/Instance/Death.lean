/-
This file settles whether a killed instance rests. Every handler, every timer and the goroutines
of `startLeader` look at the state first, with one exception: a reply to `AppendEntries` with a
larger term makes the instance a follower, whatever it was. Such a reply may arrive after `Kill`.
The condition on runs is exact.
-/

import RaftInMotion.Instance.Moves

namespace RaftInMotion

open Execution

variable {n : Nat} {Command : Type}

namespace Instance

variable {i i' : Instance n Command} {action : InstanceAction n Command}
  {actions : List (InstanceAction n Command)}

/-- A goroutine of `leaderSendHeartbeats` hears of a larger term after `Kill`. -/
def lateReply (i : Instance n Command) : InstanceAction n Command → Bool
  | .receiveAppend _ _ _ reply => i.rf.state = .dead && i.rf.currentTerm < reply.term
  | _ => false

/-! ### Steps -/

/-- A goroutine that sends with the lock held has found the instance alive, and `Kill` waits for
the lock. -/
def HeldAlive (i : Instance n Command) : Prop :=
  i.mu ≠ none → i.rf.state ≠ .dead

theorem HeldAlive.of_free (free : i.mu = none) : HeldAlive i :=
  fun held => absurd free held

theorem HeldAlive.step (alive : HeldAlive i) (taken : i.step action = some i') : HeldAlive i' := by
  cases step_moves taken with
  | calm free calm => exact .of_free free
  | stepsDown free newer => exact .of_free free
  | stores free alive lives silent commitIndex => exact .of_free free
  | notifies free takes lives silent commitIndex => exact fun _ => lives
  | commits free moves lives silent log more within => exact fun _ => lives
  | submits free leads => exact .of_free free
  | kills free lives opened => exact .of_free free
  | crashes closed uses => exact alive
  | persists holds room => exact .of_free rfl
  | announces holds room => exact fun _ => alive (by simp [holds])
  | triggers holds room => exact .of_free rfl
  | submitSends waits room => exact alive
  | loops calm fewer => exact fun held => calm.alive (alive held)
  | receives ready idle sent => exact alive
  | skips free locked done => exact .of_free free
  | cuts free locked idle more within => exact .of_free free
  | delivers ready => exact alive

theorem step_rests (alive : HeldAlive i) (dead : i.rf.state = .dead)
    (early : i.lateReply action = false) (taken : i.step action = some i') :
    Raft.Rests i.rf i'.rf := by
  have unheld : ∀ {holder : Holder}, i.mu ≠ some holder := fun holds =>
    alive (by simp [holds]) dead
  cases step_moves taken with
  | calm free calm => exact calm.dead dead
  | stepsDown free newer => simp [lateReply, dead, newer] at early
  | stores free alive lives silent commitIndex => exact absurd dead alive
  | notifies free takes lives silent commitIndex => simp [Raft.takesCommit, dead] at takes
  | commits free moves lives silent log more within => simp [Raft.movesCommit, dead] at moves
  | submits free leads => cases leads.symm.trans dead
  | kills free lives opened => exact absurd dead lives
  | crashes closed uses => exact .refl dead
  | persists holds room => exact absurd holds unheld
  | announces holds room => exact absurd holds unheld
  | triggers holds room => exact absurd holds unheld
  | submitSends waits room => exact .refl dead
  | loops calm fewer => exact calm.dead dead
  | receives ready idle sent => exact ⟨dead, rfl, rfl, rfl, rfl, rfl⟩
  | skips free locked done => exact .refl dead
  | cuts free locked idle more within => exact ⟨dead, rfl, rfl, rfl, rfl, rfl⟩
  | delivers ready => exact ⟨dead, rfl, rfl, rfl, rfl, rfl⟩

/-- The reply brings the instance back. -/
theorem step_revives (late : i.lateReply action = true) (taken : i.step action = some i') :
    i.rf.state = .dead ∧ i.mu = none ∧ ∃ term, i' = i.advance (i.rf.becomeFollower term) := by
  unfold lateReply at late
  split at late
  · simp only [Bool.and_eq_true, decide_eq_true_eq] at late
    obtain ⟨-, free, performed⟩ := step_performs taken
    obtain ⟨next, received, rfl⟩ := Option.map_eq_some_iff.mp performed
    rcases Raft.unsent_receiveAppend received with ⟨-, rfl⟩ | ⟨older, -⟩ | ⟨moves, -⟩
    · exact ⟨late.1, free rfl, _, rfl⟩
    · exact absurd older (not_le.mpr late.2)
    · simp [Raft.movesCommit, late.1] at moves
  · cases late

/-! ### Runs -/

/-- From any state of the run in which the instance is dead to any later one, nothing of it has
moved. -/
def DeadRests (i : Instance n Command) (actions : List (InstanceAction n Command)) : Prop :=
  throughout step (fun i i' => i.rf.state = .dead → Raft.Rests i.rf i'.rf) i actions

theorem deadRests_of_along (alive : HeldAlive i)
    (early : along step (fun i action => !i.lateReply action) i actions = true) :
    DeadRests i actions := by
  refine throughout_of_preserved HeldAlive _ (fun _ _ => Raft.Rests.refl)
    (fun _ _ _ left right dead => (left dead).trans (right (left dead).state))
    (fun i action i' alive allowed taken => ⟨alive.step taken, fun dead => ?_⟩) alive early
  exact step_rests alive dead (by simpa using allowed) taken

theorem DeadRests.along (rests : DeadRests i actions) (run : execute step i actions = some i') :
    along step (fun i action => !i.lateReply action) i actions = true := by
  refine along_iff.mpr ?_
  rintro first action rest middle rfl before
  by_contra late
  obtain ⟨middle', before', after⟩ := execute_append.mp run
  obtain rfl : middle = middle' := Option.some.inj (before.symm.trans before')
  obtain ⟨_, taken, -⟩ := execute_cons.mp after
  obtain ⟨dead, -, term, rfl⟩ := step_revives (by simpa using late) taken
  have rested := rests first [action] rest middle _ (by simp) before
    (execute_cons.mpr ⟨_, taken, rfl⟩) dead
  cases rested.state

theorem dead_rests_iff (id : Fin n) (storage : Storage n Command)
    (actions : List (InstanceAction n Command)) {i i' : Instance n Command}
    (made : make id storage = some i) (run : execute step i actions = some i') :
    DeadRests i actions ↔
      Execution.along step (fun i action => !i.lateReply action) i actions = true :=
  ⟨fun rests => rests.along run, deadRests_of_along (.of_free (make_fresh made).mu)⟩

open Cluster (s₀ s₁ s₂)

/-- An answer of server 1, which is in a larger term. -/
def outdated : InstanceAction 3 ℕ :=
  .receiveAppend ⟨s₀, s₁, 1⟩ 0 ⟨1, s₀, -1, -1, [], -1⟩ ⟨2, false, 0, 0⟩

/-- The instance steps down, is killed, and hears that it was outdated again. -/
def retired : List (InstanceAction 3 ℕ) :=
  elected ++ [outdated, .kill, outdated]

theorem dead_rests_retired : ∃ i, make 0 newMapStorage = some i ∧ DeadRests i retired := by
  obtain ⟨i, made, holds⟩ := (Option.any_eq_true _ _).mp (by decide +kernel :
    (make 0 newMapStorage).any (fun i => (execute step i retired).isSome &&
      along step (fun i action => !i.lateReply action) i retired) = true)
  obtain ⟨runs, early⟩ := (Bool.and_eq_true _ _).mp holds
  obtain ⟨i', run⟩ := Option.isSome_iff_exists.mp runs
  exact ⟨i, made, (dead_rests_iff 0 newMapStorage retired made run).mpr early⟩

/-- The leader is killed while its requests are in flight. The reply makes it a follower in term 2,
and it votes there and writes its vote to the storage. -/
def revived : List (InstanceAction 3 ℕ) :=
  [outdated, .requestVote ⟨2, s₂, -1, -1⟩]

theorem dead_moves : ∃ i, make 0 newMapStorage = some i ∧
    ¬DeadRests i (elected ++ [.kill] ++ revived) := by
  obtain ⟨i, made, holds⟩ := (Option.any_eq_true _ _).mp (by decide +kernel :
    (make 0 newMapStorage).any (fun i => (execute step i (elected ++ [.kill])).any fun dead =>
      dead.rf.state = .dead && (execute step dead revived).any fun i' =>
        decide (i'.rf.storage ≠ dead.rf.storage)) = true)
  obtain ⟨dead, killed, holds⟩ := (Option.any_eq_true _ _).mp holds
  obtain ⟨isDead, holds⟩ := (Bool.and_eq_true _ _).mp holds
  obtain ⟨i', moved, written⟩ := (Option.any_eq_true _ _).mp holds
  refine ⟨i, made, fun rests => of_decide_eq_true written ?_⟩
  exact (rests _ revived [] dead i' (List.append_nil _).symm killed moved
    (of_decide_eq_true isDead)).storage

end Instance

end RaftInMotion
