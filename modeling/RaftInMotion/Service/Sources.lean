/-
This file follows log entries back to where they come from. Whatever is true of an entry and its
index when a leader appends it is true wherever the entry turns up later: requests carry entries
with their indices, and servers store them there. It holds in every run, whatever goes wrong in
it, as long as a server that is created again finds its log saved, which it always does.
-/

import RaftInMotion.Handlers.Insertion
import RaftInMotion.Safety.Recovery

namespace RaftInMotion

open Cluster

variable {n : Nat} {Command : Type}

/-! ### Entries with their indices -/

/-- A request carries only entries of the kind, and reaches at least so far. -/
def Carries (kind : Nat → LogEntry Command → Prop) (least : Nat)
    (args : AppendEntriesArgs n Command) : Prop :=
  ∃ nextIndex : Nat, args.prevLogIndex = nextIndex - 1 ∧
    (∀ k entry, args.entries[k]? = some entry → kind (nextIndex + k) entry) ∧
    least ≤ nextIndex + args.entries.length

/-- All entries of all logs and requests are of the kind, at their indices, and none of the logs
and requests ends too early. -/
structure Sourced (kind : Nat → LogEntry Command → Prop) (least : Nat) (c : Cluster n Command) :
    Prop where
  saved : ∀ s, (c.node s).LogSaved
  entry : ∀ s i entry, (c.node s).log[i]? = some entry → kind i entry
  long : ∀ s, least ≤ (c.node s).log.length
  sent : ∀ task ∈ c.pool, ∀ peer args, task.appendRequest = some (peer, args) →
    Carries kind least args

variable {c c' : Cluster n Command} {action : Action n Command}
  {kind kind' : Nat → LogEntry Command → Prop} {least : Nat}

theorem Sourced.mono (sourced : Sourced kind least c)
    (weaker : ∀ i entry, kind i entry → kind' i entry) : Sourced kind' least c :=
  ⟨sourced.saved, fun s i entry found => weaker i entry (sourced.entry s i entry found),
    sourced.long, fun task member peer args request =>
      (sourced.sent task member peer args request).imp fun _ ⟨position, entries, long⟩ =>
        ⟨position, fun k entry found => weaker _ entry (entries k entry found), long⟩⟩

/-- What a server writes in its turn is of the kind. -/
theorem Sourced.writes (sourced : Sourced kind least c) {s : Fin n} {next : Raft n Command}
    (replicates : c.Replicates action s next)
    (appended : ∀ command, action = .submit s command → (c.node s).state = .leader →
      kind (c.node s).log.length ⟨command, (c.node s).currentTerm⟩) :
    (∀ i entry, next.log[i]? = some entry → kind i entry) ∧ least ≤ next.log.length := by
  have old := sourced.entry s
  have long := sourced.long s
  cases replicates with
  | quiet log commit => exact ⟨log ▸ old, log ▸ long⟩
  | counts log more within => exact ⟨log ▸ old, log ▸ long⟩
  | appends command submitted leads log commit =>
    have isKind := appended command submitted leads
    rw [log]
    refine ⟨fun i entry found => ?_, by rw [List.length_append]; omega⟩
    rcases Nat.lt_or_ge i (c.node s).log.length with before | behind
    · rw [List.getElem?_append_left before] at found
      exact old i entry found
    · rw [List.getElem?_append_right behind, List.getElem?_singleton] at found
      split_ifs at found with last
      obtain rfl : i = (c.node s).log.length := by omega
      exact Option.some_inj.mp found ▸ isKind
  | accepts task args prevLogIndex held member request position found same log commit =>
    obtain ⟨nextIndex, isNext, carried, far⟩ := sourced.sent task member s args request
    obtain rfl : nextIndex = prevLogIndex + 1 := by omega
    rw [log]
    refine ⟨fun i entry present => ?_, ?_⟩
    · rcases Raft.insertEntries_cases found present with there | ⟨k, rfl, inserted⟩
      · exact old i entry there
      · exact carried k entry inserted
    · rcases Raft.insertEntries_length args.entries found with same | same <;> omega

/-- A server that is created again has its log back. -/
theorem Cluster.Turn.restartLog {s : Fin n} {next : Raft n Command}
    {events : List (Event n Command)} (turn : c.Turn action s next events)
    (restarts : ¬ c.restartFree action = true) (saved : (c.node s).LogSaved) :
    next.log = (c.node s).log := by
  cases turn with
  | restart closed made => exact (Raft.make_saved made).2.2.1.trans saved
  | receiveVote received => cases action <;> first | cases received | exact absurd rfl restarts
  | _ => exact absurd rfl restarts

theorem Sourced.born (sourced : Sourced kind least c) {task : Task n Command} {peer : Fin n}
    {args : AppendEntriesArgs n Command} (born : c.Born action task)
    (request : task.appendRequest = some (peer, args)) : Carries kind least args := by
  cases born with
  | @appendSent i call built present isBuilt =>
    cases request
    obtain ⟨within, -, -, position, entries, -⟩ := Raft.appendEntriesArgs_fields isBuilt
    refine ⟨built.1, position, fun k entry found => ?_, ?_⟩
    · rw [entries, List.getElem?_drop] at found
      exact sourced.entry _ _ entry found
    · have long := sourced.long call.leader
      rw [entries, List.length_drop]
      omega
  | @orphan action task member =>
    refine sourced.sent task member peer args ?_
    cases task <;> exact request
  | _ => cases request

theorem Sourced.step (sourced : Sourced kind least c)
    (appended : ∀ s command, action = .submit s command → (c.node s).state = .leader →
      kind (c.node s).log.length ⟨command, (c.node s).currentTerm⟩)
    (taken : c.step action = some c') : Sourced kind least c' := by
  obtain ⟨s, next, events, turn, nodes, -⟩ := step_turn taken
  have written : (∀ i entry, next.log[i]? = some entry → kind i entry) ∧
      least ≤ next.log.length := by
    by_cases noRestart : c.restartFree action = true
    · exact sourced.writes (turn.replicates noRestart) (appended s)
    · have log : next.log = (c.node s).log := turn.restartLog noRestart (sourced.saved s)
      exact ⟨log ▸ sourced.entry s, log ▸ sourced.long s⟩
  refine ⟨?_, ?_, ?_, fun task member peer args request => ?_⟩
  · exact forall_turned (P := fun _ rf => rf.LogSaved) nodes (turn.logSaved (sourced.saved s))
      fun p _ => sourced.saved p
  · exact forall_turned (P := fun _ rf => ∀ i entry, rf.log[i]? = some entry → kind i entry) nodes
      written.1 fun p _ => sourced.entry p
  · exact forall_turned (P := fun _ rf => least ≤ rf.log.length) nodes written.2
      fun p _ => sourced.long p
  · rcases step_born taken task member with old | born
    · exact sourced.sent task old peer args request
    · exact sourced.born born request

/-- At the start all logs are the one in the storages. -/
theorem sourced_start (preload : Option (Preload Command))
    (base : ∀ i entry, ((preload.map Preload.log).getD [])[i]? = some entry → kind i entry) :
    Sourced kind ((preload.map Preload.log).getD []).length (start n preload) :=
  ⟨fun s => by cases preload <;> rfl, fun s => base, fun s => le_rfl,
    fun task member => (List.not_mem_nil member).elim⟩

/-! ### Entries for the updaters -/

/-- The entry is a log entry of the kind, with its index. -/
def Comes (kind : Nat → LogEntry Command → Prop) (entry : CommitEntry Command) : Prop :=
  ∃ (i : ℕ) (held : LogEntry Command), kind i held ∧ entry.index = i ∧
    entry.command = held.command

/-- Moreover, whatever `commitChanSender` has cut or sent is of the kind. -/
structure Supplied (kind : Nat → LogEntry Command → Prop) (least : Nat) (c : Cluster n Command) :
    Prop extends Sourced kind least c where
  applied : ∀ s, -1 ≤ (c.node s).lastApplied
  ready : ∀ s, ∀ entry ∈ (c.node s).readyEntries, Comes kind entry
  delivered : ∀ s entry, .delivered s entry ∈ c.history → Comes kind entry

theorem supplied_start (preload : Option (Preload Command))
    (base : ∀ i entry, ((preload.map Preload.log).getD [])[i]? = some entry → kind i entry) :
    Supplied kind ((preload.map Preload.log).getD []).length (start n preload) :=
  ⟨sourced_start preload base, fun s => by cases preload <;> exact le_rfl,
    fun s => by cases preload <;> exact List.forall_mem_nil _, fun s entry => nofun⟩

/-- A batch is cut from the log, and what is sent is from the batch. -/
theorem Supplied.serves (supplied : Supplied kind least c) {s : Fin n} {next : Raft n Command}
    {events : List (Event n Command)} (turn : c.Turn action s next events) :
    -1 ≤ next.lastApplied ∧ (∀ entry ∈ next.readyEntries, Comes kind entry) ∧
      ∀ p entry, .delivered p entry ∈ events → Comes kind entry := by
  have applied := supplied.applied s
  have ready := supplied.ready s
  by_cases noRestart : c.restartFree action = true
  · rcases turn.serves noRestart with ⟨aside, nothing⟩ | ⟨-, rfl, taken⟩ | ⟨sent, -, rfl, sends⟩
    · exact ⟨aside.lastApplied ▸ applied, aside.readyEntries ▸ ready,
        fun p entry member => absurd member (nothing p entry)⟩
    · rcases Raft.takeReady_cases taken with ⟨-, rfl⟩ | ⟨more, -, rfl⟩
      · exact ⟨applied, ready, fun p entry => nofun⟩
      · refine ⟨applied.trans more.le, fun entry member => ?_, fun p entry => nofun⟩
        obtain ⟨position, found⟩ := List.mem_iff_getElem?.mp member
        obtain ⟨held, inTake, command, index⟩ := Raft.committedBatch_spec found
        rw [List.getElem?_take] at inTake
        split_ifs at inTake
        exact ⟨_, held, supplied.entry s _ held inTake, by omega, command⟩
    · obtain ⟨rest, batch, rfl⟩ := Raft.sendReady_cases sends
      rw [batch] at ready
      refine ⟨applied, fun entry member => ready entry (List.mem_cons_of_mem _ member),
        fun p entry member => ?_⟩
      cases List.mem_singleton.mp member
      exact ready _ List.mem_cons_self
  · cases turn with
    | restart closed made =>
      obtain ⟨-, -, -, lastApplied, -, readyEntries⟩ := Raft.make_cases made
      exact ⟨lastApplied.ge, by simp [readyEntries], by simp⟩
    | receiveVote received => cases action <;> first | cases received | exact absurd rfl noRestart
    | _ => exact absurd rfl noRestart

theorem Supplied.step (supplied : Supplied kind least c)
    (appended : ∀ s command, action = .submit s command → (c.node s).state = .leader →
      kind (c.node s).log.length ⟨command, (c.node s).currentTerm⟩)
    (taken : c.step action = some c') : Supplied kind least c' := by
  obtain ⟨s, next, events, turn, nodes, history⟩ := step_turn taken
  obtain ⟨applied, ready, sent⟩ := supplied.serves turn
  refine ⟨supplied.toSourced.step appended taken, ?_, ?_, fun p entry member => ?_⟩
  · exact forall_turned (P := fun _ rf => -1 ≤ rf.lastApplied) nodes applied
      fun p _ => supplied.applied p
  · exact forall_turned (P := fun _ rf => ∀ entry ∈ rf.readyEntries, Comes kind entry) nodes ready
      fun p _ => supplied.ready p
  · rw [history] at member
    exact (List.mem_append.mp member).elim (sent p entry) (supplied.delivered p entry)

/-- No entry that satisfies the condition is in a log, in a request on its way, cut or sent. -/
structure Lacks (c : Cluster n Command) (wanted : Int → Command → Bool) : Prop where
  log : ∀ s (i : Nat) entry, (c.node s).log[i]? = some entry → wanted i entry.command = false
  sent : ∀ task ∈ c.pool, ∀ peer args, task.appendRequest = some (peer, args) →
    ∀ (k : Nat) entry, args.entries[k]? = some entry →
      wanted (args.prevLogIndex + 1 + k) entry.command = false
  ready : ∀ s, ∀ entry ∈ (c.node s).readyEntries, wanted entry.index entry.command = false
  delivered : ∀ s entry, .delivered s entry ∈ c.history → wanted entry.index entry.command = false

/-- What is of a kind is of another one too, when it lacks what makes the difference. -/
theorem Supplied.sift (supplied : Supplied kind least c) {wanted : Int → Command → Bool}
    (lacks : Lacks c wanted)
    (weaker : ∀ (i : Nat) entry, kind i entry → wanted i entry.command = false → kind' i entry) :
    Supplied kind' least c := by
  have comes : ∀ entry, Comes kind entry → wanted entry.index entry.command = false →
      Comes kind' entry := by
    rintro entry ⟨i, held, isKind, index, command⟩ unwanted
    rw [index, command] at unwanted
    exact ⟨i, held, weaker i held isKind unwanted, index, command⟩
  refine ⟨⟨supplied.saved, fun s i entry found => ?_, supplied.long,
    fun task member peer args request => ?_⟩, supplied.applied, fun s entry member => ?_,
    fun s entry member => ?_⟩
  · exact weaker i entry (supplied.entry s i entry found) (lacks.log s i entry found)
  · obtain ⟨nextIndex, position, carried, long⟩ := supplied.sent task member peer args request
    refine ⟨nextIndex, position, fun k entry found => weaker _ entry (carried k entry found) ?_,
      long⟩
    have unwanted := lacks.sent task member peer args request k entry found
    rwa [show args.prevLogIndex + 1 + k = ((nextIndex + k : Nat) : Int) by omega] at unwanted
  · exact comes entry (supplied.ready s entry member) (lacks.ready s entry member)
  · exact comes entry (supplied.delivered s entry member) (lacks.delivered s entry member)

theorem lacks_nothing (c : Cluster n Command) : Lacks c fun _ _ => false :=
  ⟨fun _ _ _ _ => rfl, fun _ _ _ _ _ _ _ _ => rfl, fun _ _ _ => rfl, fun _ _ _ => rfl⟩

end RaftInMotion
