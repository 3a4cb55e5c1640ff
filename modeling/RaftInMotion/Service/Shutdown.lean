/-
This file runs `KVService.Shutdown` against the goroutines of a server, and settles whether
`commitChan` is used after it has been closed. `Shutdown` kills the Raft instance, waits until no
RPC is handled any more, and closes `commitChan`. It does not wait for `commitChanSender`, which
goes on to send the batch it has cut, and cuts another one for a message that was in
`newCommitReadyChan` when it was closed.
-/

import RaftInMotion.Service.Application

namespace RaftInMotion

open Execution

variable {n : Nat}

/-- Where `Shutdown` is. -/
inductive ShutdownStage
  /-- It has not been called. -/
  | serving
  /-- It has called `Kill` and waits for the handlers of RPCs. -/
  | waiting
  /-- It has closed `commitChan`. -/
  | closed
deriving DecidableEq, Repr

/-- A server that can be shut down. -/
structure Stopping (n : Nat) where
  replica : Replica n
  stage : ShutdownStage
  /-- `commitChanSender` has sent on `commitChan` after it was closed. -/
  panicked : Bool

inductive StoppingAction (n : Nat)
  | replica (action : ReplicaAction n)
  /-- `Shutdown` calls `Kill`. -/
  | kill
  /-- `Shutdown` closes `commitChan`. -/
  | close
deriving DecidableEq, Repr

namespace Stopping

/-- A server as `New` creates it. -/
def new (id : Fin n) (storage : Storage n (Command n)) : Option (Stopping n) :=
  (Replica.new id storage).map fun replica =>
    { replica := replica
      stage := .serving
      panicked := false }

/-- The step handles an RPC. -/
def handlesRPC : ReplicaAction n → Bool
  | .raft (.requestVote _) | .raft (.appendEntries _) => true
  | _ => false

/-- A send of `commitChanSender` on the closed channel, which panics. -/
def sendClosed (s : Stopping n) : Option (Stopping n) :=
  if s.replica.raft.crashed ∨ s.replica.raft.rf.readyEntries = [] then none
  else some { s with panicked := true }

/-- `Shutdown` goes on behind `s.wg.Wait` when no RPC is handled, and none is from then on. -/
def step (s : Stopping n) : StoppingAction n → Option (Stopping n)
  | .replica action =>
    if s.panicked ∨ action = .raft .kill ∨ s.stage = .closed ∧ handlesRPC action then none
    else if s.stage = .closed ∧ action = .raft .senderDelivers then s.sendClosed
    else (s.replica.step action).map fun replica => { s with replica := replica }
  | .kill =>
    if s.stage = .serving then
      (s.replica.step (.raft .kill)).map fun replica =>
        { s with replica := replica, stage := .waiting }
    else none
  | .close =>
    if s.stage = .waiting ∧ s.replica.raft.mu ≠ some .appendEntries then
      some { s with stage := .closed }
    else none

end Stopping

/-! ### The sender -/

namespace Instance

variable {Command : Type} {i i' : Instance n Command} {action : InstanceAction n Command}

/-- `commitChanSender` has sent its batch, and it will not cut another one: everything committed
has been cut, or it is told of nothing, or the lock is held. -/
def drained (i : Instance n Command) : Bool :=
  i.rf.readyEntries.isEmpty &&
    (i.mu.isSome || i.rf.commitIndex ≤ i.rf.lastApplied ||
      i.rf.newCommitReady = 0 && !i.locking)

theorem drained_iff : i.drained = true ↔ i.rf.readyEntries = [] ∧
    (i.mu ≠ none ∨ i.rf.commitIndex ≤ i.rf.lastApplied ∨
      i.rf.newCommitReady = 0 ∧ i.locking = false) := by
  simp [drained, Option.isSome_iff_ne_none, or_assoc]

theorem step_alive (alive : i.rf.state ≠ .dead) (noKill : action ≠ .kill)
    (taken : i.step action = some i') : i'.rf.state ≠ .dead := by
  cases step_moves taken with
  | calm free calm => exact calm.alive alive
  | stepsDown free newer => nofun
  | stores free alive lives silent commitIndex => exact lives
  | notifies free takes lives silent commitIndex => exact lives
  | commits free moves lives silent log more within => exact lives
  | kills free alive opened => exact absurd rfl noKill
  | loops calm fewer => exact calm.alive alive
  | _ => exact alive

theorem step_closed (closed : i.rf.chansClosed = true) (taken : i.step action = some i') :
    i'.rf.chansClosed = true := by
  cases step_moves taken with
  | calm free calm => exact calm.chansClosed.trans closed
  | stores free alive lives silent commitIndex => exact silent.chansClosed.trans closed
  | notifies free takes lives silent commitIndex => exact silent.chansClosed.trans closed
  | commits free moves lives silent log more within => exact silent.chansClosed.trans closed
  | kills free alive opened => rfl
  | loops calm fewer => exact calm.chansClosed.trans closed
  | _ => exact closed

theorem step_kill (alive : i.rf.state ≠ .dead) (taken : i.step .kill = some i') :
    i'.rf.chansClosed = true := by
  obtain ⟨-, -, performed⟩ := step_performs taken
  cases performed
  unfold kill Raft.kill
  rw [if_neg alive]
  split_ifs with closed
  · exact closed
  · rfl

/-- Once the channels are closed and no request to append is handled, the sender stays drained. -/
theorem step_drained (closed : i.rf.chansClosed = true) (drained : i.drained = true)
    (noAppend : ∀ args, action ≠ .appendEntries args) (taken : i.step action = some i') :
    i'.drained = true := by
  rw [drained_iff] at drained ⊢
  obtain ⟨sent, idle⟩ := drained
  by_cases sends : action = .holderSends
  · -- A goroutine that holds the lock can only panic.
    obtain ⟨-, -, performed⟩ := step_performs taken
    subst sends
    simp only [perform, holderSends, closed, if_true] at performed
    split at performed <;> cases performed
    exact ⟨sent, idle⟩
  cases step_moves taken with
  | calm free calm =>
    have idle := idle.resolve_left fun held => held free
    refine ⟨calm.readyEntries.trans sent, Or.inr ?_⟩
    simpa only [advance, calm.commitIndex, calm.lastApplied, calm.newCommitReady] using idle
  | stepsDown free newer => exact ⟨sent, idle⟩
  | stores free alive lives silent commitIndex => exact absurd rfl (noAppend _)
  | notifies free takes lives silent commitIndex => exact absurd rfl (noAppend _)
  | commits free moves lives silent log more within =>
    exact ⟨silent.readyEntries.trans sent, Or.inl (Option.some_ne_none _)⟩
  | submits free leads => exact ⟨sent, idle⟩
  | kills free alive opened => exact ⟨sent, idle⟩
  | crashes isClosed uses => exact ⟨sent, idle⟩
  | persists holds room => exact absurd rfl sends
  | announces holds room => exact absurd rfl sends
  | triggers holds room => exact absurd rfl sends
  | submitSends waits room => exact ⟨sent, idle⟩
  | loops calm fewer =>
    refine ⟨calm.readyEntries.trans sent, ?_⟩
    simpa only [calm.commitIndex, calm.lastApplied, calm.newCommitReady] using idle
  | receives ready unlocked done =>
    refine ⟨sent, idle.imp_right fun idle => idle.imp_right fun idle => ?_⟩
    exact absurd idle.1 ready.ne'
  | skips free locked done => exact ⟨sent, Or.inr (Or.inl done)⟩
  | cuts free locked idle' more within =>
    rcases idle with held | all | idle
    · exact absurd free held
    · exact absurd more (not_lt.mpr all)
    · exact absurd locked (by simp [idle.2])
  | delivers ready =>
    rw [sent] at ready
    cases ready

end Instance

/-! ### Runs -/

namespace Stopping

variable {s s' : Stopping n} {action : StoppingAction n}

/-- `commitChan` is closed only when the sender has nothing more to send. -/
def closesDrained (s : Stopping n) : StoppingAction n → Bool
  | .close => s.replica.raft.drained
  | _ => true

structure Invariant (s : Stopping n) : Prop where
  alive : s.stage = .serving → s.replica.raft.rf.state ≠ .dead
  killed : s.stage ≠ .serving → s.replica.raft.rf.chansClosed = true
  drained : s.stage = .closed → s.replica.raft.drained = true
  whole : s.panicked = false

theorem invariant_new {id : Fin n} {storage : Storage n (Command n)}
    (created : new id storage = some s) : Invariant s := by
  obtain ⟨replica, isNew, rfl⟩ := Option.map_eq_some_iff.mp created
  obtain ⟨raft, made, rfl⟩ := Option.map_eq_some_iff.mp isNew
  refine ⟨fun _ dead => ?_, fun later => absurd rfl later, nofun, rfl⟩
  cases (Instance.make_fresh made).state.symm.trans dead

theorem Invariant.replica (invariant : Invariant s) {action : ReplicaAction n} {r : Replica n}
    (noKill : action ≠ .raft .kill) (noRPC : s.stage = .closed → handlesRPC action = false)
    (taken : s.replica.step action = some r) : Invariant { s with replica := r } := by
  cases action with
  | raft action =>
    obtain ⟨raft, moved, rfl⟩ := Replica.step_raft taken
    refine ⟨fun serves => Instance.step_alive (invariant.alive serves) ?_ moved,
      fun later => Instance.step_closed (invariant.killed later) moved, fun closed => ?_,
      invariant.whole⟩
    · rintro rfl
      exact noKill rfl
    · have later : s.stage ≠ .serving := fun serves => by cases serves.symm.trans closed
      refine Instance.step_drained (invariant.killed later) (invariant.drained closed) ?_ moved
      rintro args rfl
      cases noRPC closed
  | update =>
    unfold Replica.step Replica.update at taken
    dsimp only at taken
    split_ifs at taken
    obtain ⟨entry, -, rfl⟩ := Option.map_eq_some_iff.mp taken
    exact ⟨invariant.alive, invariant.killed, invariant.drained, invariant.whole⟩

theorem Invariant.step (invariant : Invariant s) (allowed : s.closesDrained action = true)
    (taken : s.step action = some s') : Invariant s' := by
  cases action with
  | replica action =>
    simp only [Stopping.step] at taken
    split_ifs at taken with refused sends
    · -- The sender has nothing to send.
      unfold sendClosed at taken
      split_ifs at taken with nothing
      have sent := (Instance.drained_iff.mp (invariant.drained sends.1)).1
      exact absurd (Or.inr sent) nothing
    · obtain ⟨replica, moved, rfl⟩ := Option.map_eq_some_iff.mp taken
      simp only [not_or, not_and] at refused
      refine invariant.replica refused.2.1 (fun closed => ?_) moved
      simpa using refused.2.2 closed
  | kill =>
    simp only [Stopping.step] at taken
    split_ifs at taken with serves
    obtain ⟨replica, moved, rfl⟩ := Option.map_eq_some_iff.mp taken
    obtain ⟨raft, killed, rfl⟩ := Replica.step_raft moved
    exact ⟨nofun, fun _ => Instance.step_kill (invariant.alive serves) killed, nofun,
      invariant.whole⟩
  | close =>
    simp only [Stopping.step] at taken
    split_ifs at taken with waits
    cases taken
    exact ⟨nofun, fun _ => invariant.killed (by simp [waits.1]), fun _ => allowed,
      invariant.whole⟩

theorem never_panics (id : Fin n) (storage : Storage n (Command n))
    (actions : List (StoppingAction n)) {s s' : Stopping n} (created : new id storage = some s)
    (run : execute step s actions = some s')
    (drained : along step closesDrained s actions = true) : s'.panicked = false :=
  (execute_invariant Invariant (fun _ _ _ invariant allowed taken => invariant.step allowed taken)
    (invariant_new created) drained run).whole

open Cluster (s₀)

/-- The leader takes two commands and commits both at once. -/
def committing : List (StoppingAction 3) :=
  (Instance.elected ++ (Replica.commands.map Instance.submitted).flatten ++
    [Instance.acknowledged Replica.commands, .holderSends, .holderSends]).map
      fun action => .replica (.raft action)

/-- `commitChanSender` takes both entries at once, and the first reaches the updater. -/
def sending : List (StoppingAction 3) :=
  committing ++ [.replica (.raft .senderReceives), .replica (.raft .senderCuts),
    .replica (.raft .senderDelivers)]

theorem never_panics_drained : ∃ s s', new s₀ newMapStorage = some s ∧
    execute step s (sending ++ [.kill, .replica .update, .replica (.raft .senderDelivers), .close,
      .replica .update]) = some s' ∧ s'.stage = .closed ∧ s'.panicked = false := by
  obtain ⟨s, created, holds⟩ := (Option.any_eq_true _ _).mp (by decide +kernel :
    (new s₀ newMapStorage).any (fun s => along step closesDrained s (sending ++ [.kill,
        .replica .update, .replica (.raft .senderDelivers), .close, .replica .update]) &&
      (execute step s (sending ++ [.kill, .replica .update, .replica (.raft .senderDelivers),
        .close, .replica .update])).any fun s' => s'.stage = .closed) = true)
  obtain ⟨drained, runs⟩ := (Bool.and_eq_true _ _).mp holds
  obtain ⟨s', run, closed⟩ := (Option.any_eq_true _ _).mp runs
  exact ⟨s, s', created, run, of_decide_eq_true closed,
    never_panics s₀ newMapStorage _ created run drained⟩

/-- The channel is closed while the second entry of the batch is still to be sent, or while the
message that announces both is still in `newCommitReadyChan`. -/
theorem panics : ∃ s, new s₀ newMapStorage = some s ∧
    (∃ s', execute step s (sending ++ [.kill, .close, .replica (.raft .senderDelivers)]) =
      some s' ∧ s'.panicked = true) ∧
    ∃ s', execute step s (committing ++ [.kill, .close, .replica (.raft .senderReceives),
      .replica (.raft .senderCuts), .replica (.raft .senderDelivers)]) = some s' ∧
        s'.panicked = true := by
  obtain ⟨s, created, holds⟩ := (Option.any_eq_true _ _).mp (by decide +kernel :
    (new s₀ newMapStorage).any (fun s =>
      (execute step s (sending ++ [.kill, .close, .replica (.raft .senderDelivers)])).any
        panicked && (execute step s (committing ++ [.kill, .close,
          .replica (.raft .senderReceives), .replica (.raft .senderCuts),
          .replica (.raft .senderDelivers)])).any panicked) = true)
  obtain ⟨batch, message⟩ := (Bool.and_eq_true _ _).mp holds
  exact ⟨s, created, (Option.any_eq_true _ _).mp batch, (Option.any_eq_true _ _).mp message⟩

end Stopping

end RaftInMotion
