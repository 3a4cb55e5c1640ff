/-
This file settles whether an instance uses a channel that `Kill` has closed, which ends the
process. The handlers send with the lock held and have found the instance alive, so `Kill` cannot
come between. `Submit` sends after it has released the lock. A killed instance that is made a
follower again sends and can be killed again. These are the only two ways.
-/

import RaftInMotion.Instance.Death

namespace RaftInMotion

open Execution

variable {n : Nat} {Command : Type}

namespace Instance

variable {i i' : Instance n Command} {action : InstanceAction n Command}
  {actions : List (InstanceAction n Command)}

/-- `Kill` closes the channels before a call of `Submit` has sent. -/
def earlyKill (i : Instance n Command) : InstanceAction n Command → Bool
  | .kill => i.rf.state ≠ .dead && i.submits ≠ 0
  | _ => false

/-- The channels stay closed for good, and nobody still has to send. -/
def closesLast (i : Instance n Command) (action : InstanceAction n Command) : Bool :=
  !i.earlyKill action && !i.lateReply action

/-! ### Steps -/

/-- Once the channels are closed, nobody is left to send on them or to close them. -/
structure Sealed (i : Instance n Command) : Prop where
  running : i.crashed = false
  dead : i.rf.chansClosed = true → i.rf.state = .dead
  sent : i.rf.chansClosed = true → i.submits = 0
  free : i.rf.chansClosed = true → i.mu = none

theorem Sealed.of_open (running : i.crashed = false) (opened : i.rf.chansClosed = false) :
    Sealed i := by
  constructor <;> simp [running, opened]

theorem Fresh.sealed (fresh : Fresh i) : Sealed i :=
  .of_open fresh.crashed fresh.chansClosed

/-- An instance that is alive has open channels. -/
theorem Sealed.opened (closed : Sealed i) (alive : i.rf.state ≠ .dead) : i.rf.chansClosed = false :=
  eq_false_of_ne_true fun isClosed => alive (closed.dead isClosed)

/-- Nothing is used after it has been closed, whatever comes next. -/
theorem Sealed.not_crashes (closed : Sealed i) (taken : i.step action = some i') :
    i'.crashed = false := by
  cases step_moves taken with
  | crashes isClosed uses =>
    rcases uses with held | waits | alive
    · exact absurd (closed.free isClosed) held
    · exact absurd (closed.sent isClosed) waits.ne'
    · exact absurd (closed.dead isClosed) alive
  | _ => exact closed.running

theorem Sealed.step (closed : Sealed i) (allowed : i.closesLast action = true)
    (taken : i.step action = some i') : Sealed i' := by
  have running := closed.not_crashes taken
  simp only [closesLast, Bool.and_eq_true, Bool.not_eq_true'] at allowed
  obtain ⟨inTime, early⟩ := allowed
  cases step_moves taken with
  | calm free calm =>
    refine ⟨running, fun isClosed => ?_, fun isClosed => ?_, fun _ => free⟩
    · exact (calm.dead (closed.dead (calm.chansClosed ▸ isClosed))).state
    · exact closed.sent (calm.chansClosed ▸ isClosed)
  | stepsDown free newer =>
    refine .of_open running (closed.opened fun dead => ?_)
    simp [lateReply, dead, newer] at early
  | stores free alive lives silent commitIndex =>
    exact .of_open running (silent.chansClosed.trans (closed.opened alive))
  | notifies free takes lives silent commitIndex =>
    refine .of_open running (silent.chansClosed.trans (closed.opened fun dead => ?_))
    simp [Raft.takesCommit, dead] at takes
  | commits free moves lives silent log more within =>
    refine .of_open running (silent.chansClosed.trans (closed.opened fun dead => ?_))
    simp [Raft.movesCommit, dead] at moves
  | submits free leads => exact .of_open running (closed.opened (leads.trans_ne (by decide)))
  | kills free alive opened =>
    have sent : i.submits = 0 := by simpa [earlyKill, alive] using inTime
    exact ⟨running, fun _ => rfl, fun _ => sent, fun _ => free⟩
  | crashes isClosed uses => cases running
  | persists holds room =>
    exact ⟨running, closed.dead, closed.sent, fun _ => rfl⟩
  | announces holds room =>
    exact ⟨running, closed.dead, closed.sent, fun isClosed => absurd (closed.free isClosed)
      (by simp [holds])⟩
  | triggers holds room => exact ⟨running, closed.dead, closed.sent, fun _ => rfl⟩
  | submitSends waits room =>
    exact ⟨running, closed.dead, fun isClosed => absurd (closed.sent isClosed) waits.ne',
      closed.free⟩
  | loops calm fewer =>
    refine ⟨running, fun isClosed => ?_, fun isClosed => ?_, fun isClosed => ?_⟩
    · exact (calm.dead (closed.dead (calm.chansClosed ▸ isClosed))).state
    · exact closed.sent (calm.chansClosed ▸ isClosed)
    · exact closed.free (calm.chansClosed ▸ isClosed)
  | receives ready idle sent => exact ⟨running, closed.dead, closed.sent, closed.free⟩
  | skips free locked done => exact ⟨running, closed.dead, closed.sent, closed.free⟩
  | cuts free locked idle more within =>
    exact ⟨running, closed.dead, closed.sent, closed.free⟩
  | delivers ready => exact ⟨running, closed.dead, closed.sent, closed.free⟩

/-- Only `Kill` makes an instance dead, and it closes the channels. -/
def DeadClosed (i : Instance n Command) : Prop :=
  i.rf.state = .dead → i.rf.chansClosed = true

theorem DeadClosed.of_alive (alive : i.rf.state ≠ .dead) : DeadClosed i :=
  fun dead => absurd dead alive

theorem DeadClosed.step (closes : DeadClosed i) (taken : i.step action = some i') :
    DeadClosed i' := by
  cases step_moves taken with
  | calm free calm =>
    exact fun dead => calm.chansClosed.trans (closes (not_ne_iff.mp fun alive =>
      calm.alive alive dead))
  | stepsDown free newer => exact .of_alive nofun
  | stores free alive lives silent commitIndex => exact .of_alive lives
  | notifies free takes lives silent commitIndex => exact .of_alive lives
  | commits free moves lives silent log more within => exact .of_alive lives
  | submits free leads => exact .of_alive (leads.trans_ne nofun)
  | kills free alive opened => exact fun _ => rfl
  | loops calm fewer =>
    exact fun dead => calm.chansClosed.trans (closes (not_ne_iff.mp fun alive =>
      calm.alive alive dead))
  | _ => exact closes

/-- Some step would use a closed channel. -/
def Breaks (i : Instance n Command) : Prop :=
  ∃ action i', i.step action = some i' ∧ i'.crashed = true

theorem breaks_of_sends (running : i.crashed = false) (closed : i.rf.chansClosed = true)
    (waits : i.submits ≠ 0) : Breaks i :=
  ⟨.submitSends, { i with crashed := true }, by
    simp [step, locks, perform, submitSends, running, closed, waits], rfl⟩

theorem breaks_of_kill (running : i.crashed = false) (free : i.mu = none)
    (closed : i.rf.chansClosed = true) (alive : i.rf.state ≠ .dead) : Breaks i :=
  ⟨.kill, { i with crashed := true }, by
    simp [step, locks, perform, kill, Raft.kill, running, free, closed, alive], rfl⟩

/-- After a step that is not allowed, some step would use a closed channel. -/
theorem step_breaks (closes : DeadClosed i) (hurts : i.closesLast action = false)
    (running : i'.crashed = false) (taken : i.step action = some i') : Breaks i' := by
  rcases Bool.and_eq_false_iff.mp hurts with early | late
  · unfold earlyKill at early
    split at early
    · obtain ⟨alive, waits⟩ : i.rf.state ≠ .dead ∧ i.submits ≠ 0 := by simpa using early
      obtain ⟨-, -, performed⟩ := step_performs taken
      cases performed
      unfold kill Raft.kill at running ⊢
      rw [if_neg alive] at running ⊢
      split_ifs at running ⊢
      exact breaks_of_sends running rfl waits
    · cases early
  · obtain ⟨dead, free, term, rfl⟩ := step_revives (by simpa using late) taken
    exact breaks_of_kill running free (closes dead) nofun

/-! ### Runs -/

/-- In no state of the run would a step use a closed channel. -/
def NeverBreaks (i : Instance n Command) (actions : List (InstanceAction n Command)) : Prop :=
  ∀ middle, Visits step i actions middle → ¬Breaks middle

theorem neverBreaks_of_along (closed : Sealed i)
    (allowed : along step closesLast i actions = true) : NeverBreaks i actions := by
  rintro middle ⟨first, rest, rfl, before⟩ ⟨action, next, taken, broken⟩
  have atMiddle := execute_invariant Sealed (fun _ _ _ closed allowed taken =>
    closed.step allowed taken) closed (along_append before allowed).1 before
  exact Bool.false_ne_true ((atMiddle.not_crashes taken).symm.trans broken)

theorem NeverBreaks.along (never : NeverBreaks i actions) (closes : DeadClosed i)
    (run : execute step i actions = some i') : along step closesLast i actions = true := by
  refine along_iff.mpr ?_
  rintro first action rest middle rfl before
  by_contra hurts
  obtain ⟨middle', before', after⟩ := execute_append.mp run
  obtain rfl : middle = middle' := Option.some.inj (before.symm.trans before')
  obtain ⟨next, taken, -⟩ := execute_cons.mp after
  have always : along step (fun _ _ => true) i first = true :=
    along_iff.mpr fun _ _ _ _ _ _ => rfl
  have atMiddle := execute_invariant DeadClosed (fun _ _ _ closes _ taken => closes.step taken)
    closes always before
  by_cases broken : next.crashed = true
  · exact never middle ⟨first, _, rfl, before⟩ ⟨action, next, taken, broken⟩
  · refine never next ⟨first ++ [action], rest, by simp, ?_⟩
      (step_breaks atMiddle (by simpa using hurts) (by simpa using broken) taken)
    exact execute_append.mpr ⟨middle, before, execute_cons.mpr ⟨next, taken, rfl⟩⟩

theorem never_breaks_iff (id : Fin n) (storage : Storage n Command)
    (actions : List (InstanceAction n Command)) {i i' : Instance n Command}
    (made : make id storage = some i) (run : execute step i actions = some i') :
    NeverBreaks i actions ↔ Execution.along step closesLast i actions = true := by
  have fresh := make_fresh made
  exact ⟨fun never => never.along (.of_alive (fresh.state.trans_ne nofun)) run,
    neverBreaks_of_along fresh.sealed⟩

/-- A call of `Submit` has sent before the instance is killed. -/
def finished : List (InstanceAction 3 ℕ) :=
  elected ++ submitted 7 ++ [.kill]

theorem never_breaks_finished : ∃ i, make 0 newMapStorage = some i ∧ NeverBreaks i finished := by
  obtain ⟨i, made, holds⟩ := (Option.any_eq_true _ _).mp (by decide +kernel :
    (make 0 newMapStorage).any (fun i => (execute step i finished).isSome &&
      along step closesLast i finished) = true)
  obtain ⟨runs, allowed⟩ := (Bool.and_eq_true _ _).mp holds
  obtain ⟨i', run⟩ := Option.isSome_iff_exists.mp runs
  exact ⟨i, made, (never_breaks_iff 0 newMapStorage finished made run).mpr allowed⟩

/-- `Submit` has released the lock when the instance is killed. -/
def interrupted : List (InstanceAction 3 ℕ) :=
  elected ++ [.submit 7, .kill]

theorem submit_breaks : ∃ i, make 0 newMapStorage = some i ∧ ¬NeverBreaks i interrupted := by
  obtain ⟨i, made, holds⟩ := (Option.any_eq_true _ _).mp (by decide +kernel :
    (make 0 newMapStorage).any (fun i => (execute step i interrupted).any fun middle =>
      (middle.step .submitSends).any crashed) = true)
  obtain ⟨middle, run, holds⟩ := (Option.any_eq_true _ _).mp holds
  obtain ⟨i', taken, broken⟩ := (Option.any_eq_true _ _).mp holds
  exact ⟨i, made, fun never => never middle ⟨interrupted, [], (List.append_nil _).symm, run⟩
    ⟨.submitSends, i', taken, broken⟩⟩

end Instance

end RaftInMotion
