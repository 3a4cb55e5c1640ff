/-
This file settles when the goroutines of an instance block each other. The handlers of requests and
replies send on `newCommitReadyChan` and on `triggerAEChan` with the lock held, and the goroutines
that receive there take the same lock after every message. A handler that finds the channel full
while they wait for the lock waits forever. `Submit` fills `triggerAEChan`, which holds one message,
so a reply that moves `commitIndex` must not get the lock before what `Submit` sends has been
received.
-/

import RaftInMotion.Instance.Moves

namespace RaftInMotion

open Execution

variable {n : Nat} {Command : Type}

namespace Instance

variable {i i' : Instance n Command} {action : InstanceAction n Command}

/-! ### Deadlocks -/

/-- The goroutine that holds the lock waits to send on a full channel, and every goroutine that
receives from it waits for the lock. -/
def deadlocked (i : Instance n Command) : Bool :=
  !i.rf.chansClosed &&
    match i.mu with
    | none => false
    | some .appendEntries | some .replyCommit =>
      i.rf.newCommitReady = newCommitReadyCap && i.locking
    | some .replyTrigger => i.triggerAE = triggerAECap && i.loops.all (· ≠ .select)

/-- `newCommitReadyChan` is full, and `commitChanSender` waits for the lock. -/
def backlogged (i : Instance n Command) : Bool :=
  i.rf.newCommitReady = newCommitReadyCap && i.locking

theorem deadlocked_iff : i.deadlocked = true ↔ i.rf.chansClosed = false ∧
    ((i.mu = some .appendEntries ∨ i.mu = some .replyCommit) ∧ i.backlogged = true ∨
      i.mu = some .replyTrigger ∧ i.triggerAE = triggerAECap ∧
        ∀ stage ∈ i.loops, stage ≠ .select) := by
  unfold deadlocked backlogged
  rcases i.mu with _ | (_ | _ | _) <;> simp

/-- Nothing ends a deadlock. -/
theorem deadlocked_step (stuck : i.deadlocked = true) (taken : i.step action = some i') :
    i'.deadlocked = true := by
  obtain ⟨-, free, performed⟩ := step_performs taken
  have held : i.mu ≠ none := fun free => by simp [deadlocked, free] at stuck
  rw [deadlocked_iff] at stuck ⊢
  obtain ⟨opened, full⟩ := stuck
  cases action with
  | requestVote _ | appendEntries _ | receiveVote _ _ | receiveAppend _ _ _ _ | timer _ _
  | submit _ | kill | loopLocks _ | senderCuts => exact absurd (free rfl) held
  | holderSends =>
    simp only [perform, holderSends] at performed
    simp only [backlogged, Bool.and_eq_true, decide_eq_true_eq] at full
    rcases full with ⟨holds | holds, full, -⟩ | ⟨holds, full, -⟩ <;>
      simp [holds, opened, full] at performed
  | submitSends =>
    simp only [perform, submitSends] at performed
    split_ifs at performed with none closed room
    · simp [opened] at closed
    · cases performed
      exact ⟨opened, full.imp_right fun blocked => absurd blocked.2.1 room.ne⟩
  | loopWakes position triggered =>
    simp only [perform, loopWakes] at performed
    split_ifs at performed with waits <;> cases performed
    all_goals exact ⟨opened, full.imp_right fun blocked =>
      absurd rfl (blocked.2.2 _ (List.mem_of_getElem? waits))⟩
  | loopEnds position =>
    simp only [perform, loopEnds] at performed
    split_ifs at performed with waits
    obtain ⟨next, ended, rfl⟩ := Option.map_eq_some_iff.mp performed
    unfold Raft.leaderLoopClosed at ended
    simp [opened] at ended
  | senderReceives =>
    simp only [perform, senderReceives] at performed
    split_ifs at performed with waits
    cases performed
    refine ⟨opened, full.imp_left fun blocked => ?_⟩
    -- `commitChanSender` does not wait for the lock here.
    simp_all [backlogged]
  | senderDelivers =>
    obtain ⟨⟨next, entry⟩, sent, rfl⟩ := Option.map_eq_some_iff.mp performed
    obtain ⟨rest, -, rfl⟩ := Raft.sendReady_cases sent
    exact ⟨opened, full⟩
/-! ### Runs without a deadlock -/

/-- A handler that moves `commitIndex` gets the lock when it will not have to wait: for
`commitChanSender`, and after a reply also for what `Submit` sends. -/
def patient (i : Instance n Command) : InstanceAction n Command → Bool
  | .appendEntries args => !(i.rf.takesCommit args && i.backlogged)
  | .receiveAppend call nextIndexForPeer args reply =>
    !(i.rf.movesCommit call nextIndexForPeer args reply &&
      (i.backlogged || i.triggerAE ≠ 0 || i.submits ≠ 0))
  | _ => true

/-- Nothing is in the way of what the goroutine that holds the lock will send. -/
structure Clear (i : Instance n Command) : Prop where
  bounded : i.rf.newCommitReady ≤ newCommitReadyCap
  commit : i.mu = some .appendEntries ∨ i.mu = some .replyCommit → i.backlogged = false
  trigger : i.mu = some .replyCommit ∨ i.mu = some .replyTrigger → i.triggerAE = 0 ∧ i.submits = 0

theorem Clear.of_free (free : i.mu = none) (bounded : i.rf.newCommitReady ≤ newCommitReadyCap) :
    Clear i :=
  ⟨bounded, by simp [free], by simp [free]⟩

theorem Fresh.clear (fresh : Fresh i) : Clear i :=
  .of_free fresh.mu (fresh.newCommitReady ▸ Nat.zero_le _)

theorem Clear.step (clear : Clear i) (allowed : i.patient action = true)
    (taken : i.step action = some i') : Clear i' := by
  cases step_moves taken with
  | calm free calm => exact .of_free free (calm.newCommitReady ▸ clear.bounded)
  | stepsDown free newer => exact .of_free free clear.bounded
  | stores free alive lives silent commitIndex =>
    exact .of_free free (silent.newCommitReady ▸ clear.bounded)
  | notifies free takes lives silent commitIndex =>
    have room : i.backlogged = false := by simpa [patient, takes] using allowed
    refine ⟨silent.newCommitReady ▸ clear.bounded, fun _ => ?_, fun no => ?_⟩
    · simpa [backlogged, advance, silent.newCommitReady] using room
    · rcases no with no | no <;> cases no
  | commits free moves lives silent log more within =>
    obtain ⟨⟨room, trigger⟩, submits⟩ : (i.backlogged = false ∧ i.triggerAE = 0) ∧
        i.submits = 0 := by simpa [patient, moves] using allowed
    refine ⟨silent.newCommitReady ▸ clear.bounded, fun _ => ?_, fun _ => ⟨trigger, submits⟩⟩
    simpa [backlogged, advance, silent.newCommitReady] using room
  | submits free leads => exact .of_free free clear.bounded
  | kills free alive opened => exact .of_free free clear.bounded
  | crashes closed uses => exact ⟨clear.bounded, clear.commit, clear.trigger⟩
  | persists holds room => exact .of_free rfl room
  | announces holds room =>
    refine ⟨room, fun no => ?_, fun _ => clear.trigger (Or.inl holds)⟩
    rcases no with no | no <;> cases no
  | triggers holds room => exact .of_free rfl clear.bounded
  | submitSends waits room =>
    -- The goroutine that holds the lock has none of these calls before it.
    exact ⟨clear.bounded, clear.commit, fun holds => absurd (clear.trigger holds).2 waits.ne'⟩
  | loops calm fewer =>
    refine ⟨calm.newCommitReady ▸ clear.bounded, fun holds => ?_, fun holds => ?_⟩
    · simpa [backlogged, calm.newCommitReady] using clear.commit holds
    · obtain ⟨trigger, submits⟩ := clear.trigger holds
      exact ⟨Nat.le_zero.mp (trigger ▸ fewer), submits⟩
  | receives ready idle sent =>
    -- The channel has room again.
    have bounded := clear.bounded
    refine ⟨(Nat.sub_le _ _).trans bounded, fun _ => ?_, clear.trigger⟩
    have room : i.rf.newCommitReady - 1 ≠ newCommitReadyCap := by omega
    simp [backlogged, room]
  | skips free locked done => exact .of_free free clear.bounded
  | cuts free locked idle more within => exact .of_free free clear.bounded
  | delivers ready => exact ⟨clear.bounded, clear.commit, clear.trigger⟩

theorem Clear.not_deadlocked (clear : Clear i) : i.deadlocked = false := by
  refine eq_false_of_ne_true fun stuck => ?_
  obtain ⟨-, ⟨holds, backlog⟩ | ⟨holds, full, -⟩⟩ := deadlocked_iff.mp stuck
  · rw [clear.commit holds] at backlog
    cases backlog
  · rw [(clear.trigger (Or.inr holds)).1] at full
    cases full

theorem never_deadlocked (id : Fin n) (storage : Storage n Command)
    (actions : List (InstanceAction n Command)) {i i' : Instance n Command}
    (made : make id storage = some i) (run : execute step i actions = some i')
    (allowed : along step patient i actions = true) : i'.deadlocked = false :=
  (execute_invariant Clear (fun _ _ _ clear allowed taken => clear.step allowed taken)
    (make_fresh made).clear allowed run).not_deadlocked

/-- The reply to the first request is handled up to the second of its sends. -/
def announcing : List (InstanceAction 3 ℕ) :=
  elected ++ submitted 7 ++ [acknowledged [7], .holderSends]

theorem never_deadlocked_announcing : ∃ i i', make 0 newMapStorage = some i ∧
    execute step i announcing = some i' ∧ i'.mu = some .replyTrigger ∧ i'.deadlocked = false := by
  obtain ⟨i, made, holds⟩ := (Option.any_eq_true _ _).mp (by decide +kernel :
    (make 0 newMapStorage).any (fun i => along step patient i announcing &&
      (execute step i announcing).any fun i' => i'.mu = some .replyTrigger) = true)
  obtain ⟨allowed, runs⟩ := (Bool.and_eq_true _ _).mp holds
  obtain ⟨i', run, announces⟩ := (Option.any_eq_true _ _).mp runs
  exact ⟨i, i', made, run, of_decide_eq_true announces,
    never_deadlocked 0 newMapStorage announcing made run allowed⟩

/-- `Submit` fills `triggerAEChan` again before the goroutine of `startLeader`, which has received
the message before, gets the lock. -/
def jam : List (InstanceAction 3 ℕ) :=
  elected ++ submitted 7 ++ [.submit 8, .submitSends, .loopWakes 0 true, .submit 9, .submitSends,
    acknowledged [7], .holderSends]

theorem deadlocks : ∃ i, runFrom 0 newMapStorage jam = some i ∧ i.deadlocked = true := by
  obtain ⟨i, run, stuck⟩ := (Option.any_eq_true _ _).mp
    (by decide +kernel : (runFrom 0 newMapStorage jam).any deadlocked = true)
  exact ⟨i, run, stuck⟩

end Instance

end RaftInMotion
