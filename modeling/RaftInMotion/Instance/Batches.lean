/-
This file follows the entries of one instance from `commitIndex` to `commitChan`. While the log
keeps what has been committed, `commitChanSender` sends the commands of the log from its beginning,
in order and each once, although one message may stand for several moves of `commitIndex` and one
batch for several messages. A batch is a slice of the log, which shares its array; what the log
keeps, nobody overwrites while the batch is sent. No message is lost: as long as something
committed has not been cut off, a message is in the channel or on its way to or from it.
-/

import RaftInMotion.Instance.Moves

namespace RaftInMotion

variable {n : Nat} {Command : Type}

/-- The entries carry the commands of the log, from its beginning and in order. -/
def InOrder (log : List (LogEntry Command)) (entries : List (CommitEntry Command)) : Prop :=
  ∀ (k : ℕ) (entry : CommitEntry Command), entries[k]? = some entry →
    entry.index = k ∧ log[k]?.map LogEntry.command = some entry.command

theorem InOrder.of_agree {log log' : List (LogEntry Command)} {entries : List (CommitEntry Command)}
    (inOrder : InOrder log entries) (agree : ∀ k < entries.length, log'[k]? = log[k]?) :
    InOrder log' entries := by
  intro k entry found
  rw [agree k (List.getElem?_eq_some_iff.mp found).1]
  exact inOrder k entry found

namespace Instance

variable {i i' : Instance n Command} {action : InstanceAction n Command}

/-- The log keeps the entries at indices up to `commitIndex`. -/
def KeepsCommitted (i i' : Instance n Command) : Prop :=
  i'.rf.log.take (i.rf.commitIndex + 1).toNat = i.rf.log.take (i.rf.commitIndex + 1).toNat

instance [DecidableEq Command] : Decidable (KeepsCommitted i i') :=
  inferInstanceAs (Decidable (_ = _))

/-- `commitChanSender` will look at `commitIndex` again. -/
def Awake (i : Instance n Command) : Prop :=
  0 < i.rf.newCommitReady ∨ i.locking = true ∨ i.mu = some .appendEntries ∨
    i.mu = some .replyCommit

/-- The lock is free, and `commitChanSender` waits for a message. -/
structure Waiting (i : Instance n Command) : Prop where
  free : i.mu = none
  empty : i.rf.newCommitReady = 0
  idle : i.locking = false
  sent : i.rf.readyEntries = []

/-- What has been cut off is the log up to `lastApplied`, and the rest has been announced. -/
structure Batched (i : Instance n Command) : Prop where
  applied : i.rf.lastApplied ≤ i.rf.commitIndex
  within : i.rf.commitIndex < i.rf.log.length
  length : ((i.delivered ++ i.rf.readyEntries).length : Int) = i.rf.lastApplied + 1
  inOrder : InOrder i.rf.log (i.delivered ++ i.rf.readyEntries)
  awake : i.rf.lastApplied < i.rf.commitIndex → i.Awake

theorem Fresh.batched (fresh : Fresh i) : Batched i := by
  have none : i.delivered ++ i.rf.readyEntries = [] := by
    rw [fresh.delivered, fresh.readyEntries, List.append_nil]
  refine ⟨?_, ?_, ?_, ?_, fun behind => ?_⟩
  · rw [fresh.lastApplied, fresh.commitIndex]
  · rw [fresh.commitIndex]
    omega
  · rw [none, fresh.lastApplied]
    rfl
  · rw [none]
    rintro k entry ⟨⟩
  · rw [fresh.lastApplied, fresh.commitIndex] at behind
    exact absurd behind (lt_irrefl _)

/-- The log still reaches beyond `commitIndex`. -/
theorem KeepsCommitted.within (kept : KeepsCommitted i i')
    (within : i.rf.commitIndex < i.rf.log.length) : i.rf.commitIndex < i'.rf.log.length := by
  have length := congrArg List.length kept
  rw [List.length_take, List.length_take] at length
  omega

theorem KeepsCommitted.getElem? (kept : KeepsCommitted i i') {index : ℕ}
    (committed : index ≤ i.rf.commitIndex) : i'.rf.log[index]? = i.rf.log[index]? := by
  have inside : index < (i.rf.commitIndex + 1).toNat := by omega
  rw [← List.getElem?_take_of_lt inside, kept, List.getElem?_take_of_lt inside]

theorem KeepsCommitted.take (kept : KeepsCommitted i i') {count : ℕ}
    (committed : count ≤ i.rf.commitIndex + 1) : i'.rf.log.take count = i.rf.log.take count := by
  have inside : min count (i.rf.commitIndex + 1).toNat = count := by omega
  rw [← inside, ← List.take_take, kept, List.take_take]

/-- A step that neither cuts nor sends. -/
theorem Batched.stays (batched : Batched i) (kept : KeepsCommitted i i')
    (lastApplied : i'.rf.lastApplied = i.rf.lastApplied)
    (entries : i'.delivered ++ i'.rf.readyEntries = i.delivered ++ i.rf.readyEntries)
    (forward : i.rf.commitIndex ≤ i'.rf.commitIndex) (within : i'.rf.commitIndex < i'.rf.log.length)
    (awake : i'.rf.lastApplied < i'.rf.commitIndex → i'.Awake) : Batched i' := by
  have applied := batched.applied
  have length := batched.length
  refine ⟨by omega, within, ?_, ?_, awake⟩
  · rw [entries, lastApplied]
    exact length
  · rw [entries]
    exact batched.inOrder.of_agree fun k inside => kept.getElem? (by omega)

/-- A step that leaves the messages alone as well. -/
theorem Batched.rests (batched : Batched i) (kept : KeepsCommitted i i') {next : Raft n Command}
    (same : i'.rf = next) (silent : Raft.Silent i.rf next)
    (commitIndex : next.commitIndex = i.rf.commitIndex) (mu : i'.mu = i.mu)
    (locking : i'.locking = i.locking) (delivered : i'.delivered = i.delivered) : Batched i' := by
  subst same
  refine batched.stays kept silent.lastApplied ?_ commitIndex.ge ?_ fun behind => ?_
  · rw [delivered, silent.readyEntries]
  · rw [commitIndex]
    exact kept.within batched.within
  · rw [silent.lastApplied, commitIndex] at behind
    unfold Awake
    rw [silent.newCommitReady, locking, mu]
    exact batched.awake behind

/-- What has been sent is the beginning of what has been cut off. -/
theorem Batched.delivered (batched : Batched i) : InOrder i.rf.log i.delivered := by
  intro k entry found
  refine batched.inOrder k entry ?_
  rw [List.getElem?_append_left (List.getElem?_eq_some_iff.mp found).1]
  exact found

/-- No wake-up is lost. -/
theorem Batched.caughtUp (batched : Batched i) (waiting : Waiting i) :
    i.rf.lastApplied = i.rf.commitIndex := by
  refine le_antisymm batched.applied (not_lt.mp fun behind => ?_)
  rcases batched.awake behind with message | locking | holds | holds
  · exact absurd waiting.empty message.ne'
  · cases waiting.idle.symm.trans locking
  · cases waiting.free.symm.trans holds
  · cases waiting.free.symm.trans holds

/-- The next batch goes on where the last one ended. -/
theorem Batched.cuts (batched : Batched i) (idle : i.rf.readyEntries = [])
    (within : i.rf.commitIndex < i.rf.log.length) : Batched { i with
      rf := { i.rf with readyEntries := i.rf.committedBatch, lastApplied := i.rf.commitIndex }
      locking := false } := by
  have applied := batched.applied
  have length := batched.length
  have inOrder := batched.inOrder
  have batch := Raft.committedBatch_length within
  rw [idle, List.append_nil] at length inOrder
  refine ⟨le_rfl, within, ?_, ?_, fun behind => absurd behind (lt_irrefl _)⟩
  · rw [List.length_append, batch]
    dsimp only
    omega
  · intro k entry found
    dsimp only at found ⊢
    rcases lt_or_ge k i.delivered.length with old | new
    · rw [List.getElem?_append_left old] at found
      exact inOrder k entry found
    · rw [List.getElem?_append_right new] at found
      obtain ⟨held, inLog, command, index⟩ := Raft.committedBatch_spec found
      have inBatch := (List.getElem?_eq_some_iff.mp found).1
      rw [show (i.rf.lastApplied + 1).toNat + (k - i.delivered.length) = k by omega,
        List.getElem?_take_of_lt (by omega)] at inLog
      rw [inLog, command]
      exact ⟨by omega, rfl⟩

/-- Nothing that has been sent is taken back. -/
theorem step_delivered (taken : i.step action = some i') : i.delivered <+: i'.delivered := by
  cases step_moves taken with
  | delivers ready => exact List.prefix_append _ _
  | _ => exact List.prefix_refl _

theorem Batched.step (batched : Batched i) (kept : KeepsCommitted i i')
    (taken : i.step action = some i') : Batched i' := by
  have within := batched.within
  have reaches := kept.within within
  cases step_moves taken with
  | calm free calm =>
    exact batched.rests kept rfl calm.toSilent calm.commitIndex rfl rfl rfl
  | stepsDown free newer => exact batched.stays kept rfl rfl le_rfl within batched.awake
  | stores free alive lives silent commitIndex =>
    exact batched.rests kept rfl silent commitIndex rfl rfl rfl
  | @notifies args next free takes lives silent commitIndex =>
    have more : i.rf.commitIndex < args.leaderCommit :=
      of_decide_eq_true (Bool.and_eq_true_iff.mp takes).2
    refine batched.stays kept silent.lastApplied (congrArg _ silent.readyEntries) ?_ ?_
      fun _ => Or.inr (Or.inr (Or.inl rfl))
    · simp only [advance] at reaches ⊢
      omega
    · simp only [advance] at reaches ⊢
      omega
  | commits free moves lives silent log more within =>
    exact batched.stays kept silent.lastApplied (congrArg _ silent.readyEntries) more.le within
      fun _ => Or.inr (Or.inr (Or.inr rfl))
  | submits free leads => exact batched.stays kept rfl rfl le_rfl reaches batched.awake
  | kills free alive opened => exact batched.stays kept rfl rfl le_rfl within batched.awake
  | crashes closed uses => exact batched.stays kept rfl rfl le_rfl within batched.awake
  | persists holds room =>
    exact batched.stays kept rfl rfl le_rfl within fun _ => Or.inl (Nat.succ_pos _)
  | announces holds room =>
    exact batched.stays kept rfl rfl le_rfl within fun _ => Or.inl (Nat.succ_pos _)
  | triggers holds room =>
    refine batched.stays kept rfl rfl le_rfl within fun behind => ?_
    have awake := batched.awake behind
    simp only [Awake, holds, reduceCtorEq, Option.some.injEq, or_false] at awake ⊢
    exact awake
  | submitSends waits room => exact batched.stays kept rfl rfl le_rfl within batched.awake
  | loops calm fewer =>
    exact batched.rests kept rfl calm.toSilent calm.commitIndex rfl rfl rfl
  | receives ready idle sent =>
    exact batched.stays kept rfl rfl le_rfl within fun _ => Or.inr (Or.inl rfl)
  | skips free locked done =>
    exact batched.stays kept rfl rfl le_rfl within fun behind => absurd behind (not_lt.mpr done)
  | cuts free locked idle more within => exact batched.cuts idle within
  | delivers ready =>
    refine batched.stays kept rfl ?_ le_rfl within batched.awake
    rw [ready, List.append_assoc]
    rfl

end Instance

end RaftInMotion
