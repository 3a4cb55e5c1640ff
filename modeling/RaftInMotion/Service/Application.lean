/-
This file runs the updater of a server against the goroutines of its Raft instance. `commitChan`
has no buffer, so the updater receives an entry when it is done with the one before. The map is
what the puts at the beginning of the log make of it, as far as the updater has come, and every
result is the value that the last put of the key before has stored.
-/

import RaftInMotion.Instance.Batches
import RaftInMotion.Service.KVService

namespace RaftInMotion

open Execution

variable {n : Nat}

/-- One incarnation of a server. -/
structure Replica (n : Nat) where
  raft : Instance n (Command n)
  ds : DataStore
  /-- What the updater has made of the entries it has received. -/
  processed : List (CommitEntry (Command n))

inductive ReplicaAction (n : Nat)
  | raft (action : InstanceAction n (Command n))
  /-- The updater performs the entry it has received. -/
  | update
deriving DecidableEq, Repr

namespace Replica

/-- A server as `New` creates it. -/
def new (id : Fin n) (storage : Storage n (Command n)) : Option (Replica n) :=
  (Instance.make id storage).map fun raft =>
    { raft := raft
      ds := DataStore.empty
      processed := [] }

/-- The updater waits for the next entry. -/
def waits (r : Replica n) : Bool :=
  r.processed.length = r.raft.delivered.length

/-- The updater performs the entry it has received. -/
def update (r : Replica n) : Option (Replica n) :=
  (r.raft.delivered[r.processed.length]?).map fun entry =>
    let (ds, command) := KVService.execute r.ds entry.command
    { r with ds := ds, processed := r.processed ++ [{ entry with command := command }] }

def step (r : Replica n) : ReplicaAction n → Option (Replica n)
  | .raft action =>
    if action = .senderDelivers ∧ r.waits = false then none
    else (r.raft.step action).map fun raft => { r with raft := raft }
  | .update => if r.raft.crashed then none else r.update

/-- The step leaves the log as it is up to `commitIndex`. -/
def keepsCommitted (r : Replica n) (action : ReplicaAction n) : Bool :=
  (r.step action).all fun r' => decide (r.raft.KeepsCommitted r'.raft)

end Replica

/-! ### The map of a log -/

/-- The puts among the entries, in order. -/
def puts (entries : List (LogEntry (Command n))) : List (String × String) :=
  entries.filterMap fun entry =>
    match entry.command.kind with
    | .get => none
    | .put => some (entry.command.key, entry.command.value)

/-- The map that the puts make. -/
def applyPuts (puts : List (String × String)) : DataStore :=
  puts.foldl (fun ds put => Function.update ds put.1 (some put.2)) DataStore.empty

/-- What the last put of the key among the entries has stored. -/
def latestPut (entries : List (LogEntry (Command n))) (key : String) : Option String :=
  ((puts entries).reverse.find? fun put => put.1 = key).map Prod.snd

theorem applyPuts_concat (before : List (String × String)) (put : String × String) :
    applyPuts (before ++ [put]) = Function.update (applyPuts before) put.1 (some put.2) := by
  unfold applyPuts
  rw [List.foldl_append]
  rfl

theorem applyPuts_eq (entries : List (LogEntry (Command n))) (key : String) :
    applyPuts (puts entries) key = latestPut entries key := by
  unfold latestPut
  induction puts entries using List.reverseRecOn with
  | nil => rfl
  | append_singleton before put inductionHypothesis =>
    rw [applyPuts_concat, Function.update_apply, List.reverse_append, List.reverse_singleton,
      List.singleton_append, List.find?_cons]
    split_ifs with same
    · rw [decide_eq_true same.symm]
      rfl
    · rw [decide_eq_false (Ne.symm same)]
      exact inductionHypothesis

/-- The command with the value of the last put of its key before. -/
def withResult (before : List (LogEntry (Command n))) (command : Command n) : Command n :=
  { command with
    resultFound := (latestPut before command.key).isSome
    resultValue := (latestPut before command.key).getD "" }

/-- The updater performs the entry behind the ones it has performed. -/
theorem execute_applied (before : List (LogEntry (Command n))) (held : LogEntry (Command n)) :
    KVService.execute (applyPuts (puts before)) held.command =
      (applyPuts (puts (before ++ [held])), withResult before held.command) := by
  unfold puts withResult
  rw [List.filterMap_append, KVService.execute_eq, ← applyPuts_eq]
  unfold Command.operation
  cases held with | mk command term =>
  cases isKind : command.kind with
  | get => simp [isKind, DataStore.perform, puts]
  | put => simp [isKind, DataStore.perform, puts, applyPuts_concat]

namespace Replica

variable {r r' : Replica n} {action : ReplicaAction n}

theorem step_raft {action : InstanceAction n (Command n)}
    (taken : r.step (.raft action) = some r') :
    ∃ raft, r.raft.step action = some raft ∧ r' = { r with raft := raft } := by
  simp only [step] at taken
  by_cases waits : action = .senderDelivers ∧ r.waits = false
  · rw [if_pos waits] at taken
    cases taken
  · rw [if_neg waits] at taken
    obtain ⟨raft, stepped, rfl⟩ := Option.map_eq_some_iff.mp taken
    exact ⟨raft, stepped, rfl⟩

/-- The map is made of the log as far as the updater has come, and so is every result. -/
structure Applied (r : Replica n) : Prop where
  ds : r.ds = applyPuts (puts (r.raft.rf.log.take r.processed.length))
  results : ∀ (j : ℕ) (entry : CommitEntry (Command n)), r.processed[j]? = some entry →
    entry.index = j ∧ ∃ held, r.raft.rf.log[j]? = some held ∧
      entry.command = withResult (r.raft.rf.log.take j) held.command

structure Invariant (r : Replica n) : Prop where
  batched : r.raft.Batched
  received : r.processed.length ≤ r.raft.delivered.length
  applied : r.Applied

theorem invariant_new {id : Fin n} {storage : Storage n (Command n)}
    (created : new id storage = some r) : Invariant r := by
  obtain ⟨raft, made, rfl⟩ := Option.map_eq_some_iff.mp created
  exact ⟨(Instance.make_fresh made).batched, Nat.zero_le _, rfl, nofun⟩

/-- The Raft instance keeps what the updater has performed. -/
theorem Invariant.raft (invariant : Invariant r) {raft : Instance n (Command n)}
    {action : InstanceAction n (Command n)} (kept : r.raft.KeepsCommitted raft)
    (taken : r.raft.step action = some raft) : Invariant { r with raft := raft } := by
  have batched := invariant.batched
  have received := invariant.received
  have length := batched.length
  have applied := batched.applied
  rw [List.length_append] at length
  refine ⟨batched.step kept taken, received.trans (Instance.step_delivered taken).length_le,
    ?_, fun j entry found => ?_⟩
  · dsimp only
    rw [kept.take (by omega)]
    exact invariant.applied.ds
  · have inside := (List.getElem?_eq_some_iff.mp found).1
    dsimp only at inside
    rw [kept.getElem? (by omega), kept.take (by omega)]
    exact invariant.applied.results j entry found

/-- The updater goes on by one entry of the log. -/
theorem Invariant.update (invariant : Invariant r) (updated : r.update = some r') :
    Invariant r' := by
  obtain ⟨entry, next, rfl⟩ := Option.map_eq_some_iff.mp updated
  obtain ⟨index, command⟩ := invariant.batched.delivered _ entry next
  obtain ⟨held, found, isCommand⟩ := Option.map_eq_some_iff.mp command
  have within := (List.getElem?_eq_some_iff.mp next).1
  have executed := execute_applied (r.raft.rf.log.take r.processed.length) held
  rw [← invariant.applied.ds, isCommand] at executed
  refine ⟨invariant.batched, ?_, ?_, fun j later there => ?_⟩
  · rw [List.length_append]
    exact within
  · dsimp only
    rw [executed, List.length_append, List.length_singleton, List.take_add_one, found]
    rfl
  · dsimp only at there ⊢
    rcases lt_trichotomy j r.processed.length with old | rfl | beyond
    · rw [List.getElem?_append_left old] at there
      exact invariant.applied.results j later there
    · rw [List.getElem?_concat_length] at there
      cases there
      rw [executed, ← isCommand]
      exact ⟨index, held, found, rfl⟩
    · rw [List.getElem?_eq_none (by rw [List.length_append]; exact beyond)] at there
      cases there

theorem Invariant.step (invariant : Invariant r) (kept : r.keepsCommitted action = true)
    (taken : r.step action = some r') : Invariant r' := by
  unfold keepsCommitted at kept
  rw [taken] at kept
  cases action with
  | raft action =>
    obtain ⟨raft, stepped, rfl⟩ := step_raft taken
    exact invariant.raft (of_decide_eq_true kept) stepped
  | update =>
    unfold Replica.step at taken
    dsimp only at taken
    split_ifs at taken
    exact invariant.update taken

theorem applies_log (id : Fin n) (storage : Storage n (Command n))
    (actions : List (ReplicaAction n)) {r r' : Replica n} (created : new id storage = some r)
    (run : execute step r actions = some r') (kept : along step keepsCommitted r actions = true) :
    InOrder r'.raft.rf.log r'.raft.delivered ∧
      (r'.raft.Waiting → r'.raft.rf.lastApplied = r'.raft.rf.commitIndex) ∧
      r'.processed.length ≤ r'.raft.delivered.length ∧ r'.Applied := by
  have invariant := execute_invariant Invariant (fun _ _ _ invariant kept taken =>
    invariant.step kept taken) (invariant_new created) kept run
  exact ⟨invariant.batched.delivered, invariant.batched.caughtUp, invariant.received,
    invariant.applied⟩

open Cluster (s₀)

/-- A put and a get of the same key. -/
def commands : List (Command 3) :=
  [⟨.put, "x", "1", "", false, s₀, 0⟩, ⟨.get, "x", "", "", false, s₀, 1⟩]

/-- The leader takes both commands and commits them at once, and its updater performs them. -/
def performing : List (ReplicaAction 3) :=
  (Instance.elected ++ (commands.map Instance.submitted).flatten ++
    [Instance.acknowledged commands, .holderSends, .holderSends, .senderReceives, .senderCuts]).map
      .raft ++ [.raft .senderDelivers, .update, .raft .senderDelivers, .update]

theorem applies_log_performing : ∃ r r', new 0 newMapStorage = some r ∧
    execute step r performing = some r' ∧
    r'.processed.map (fun entry => entry.command.resultValue) = ["", "1"] ∧ r'.Applied := by
  obtain ⟨r, created, holds⟩ := (Option.any_eq_true _ _).mp (by decide +kernel :
    (new 0 newMapStorage).any (fun r => along step keepsCommitted r performing &&
      (execute step r performing).any fun r' =>
        r'.processed.map (fun entry => entry.command.resultValue) = ["", "1"]) = true)
  obtain ⟨kept, runs⟩ := (Bool.and_eq_true _ _).mp holds
  obtain ⟨r', run, results⟩ := (Option.any_eq_true _ _).mp runs
  exact ⟨r, r', created, run, of_decide_eq_true results,
    (applies_log 0 newMapStorage performing created run kept).2.2.2⟩

end Replica

end RaftInMotion
