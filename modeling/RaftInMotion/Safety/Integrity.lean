/-
This file shows that the servers make up no entries. Every entry that a server holds, sends or hands
to its updater was in the storages at the start, or has been submitted to a server that led the
term of the entry and whose log ended at its index. It needs no condition: neither a split vote nor
two leaders of one term nor a crash makes an entry that nobody has submitted, or moves one.
-/

import RaftInMotion.Service.Sources

namespace RaftInMotion

open Cluster Execution

variable {n : Nat} {Command : Type} {preload : Option (Preload Command)}

/-- The entry was in the storages at the index, or a leader has taken it for the index in the run,
in the term of the entry. -/
def Submitted (preload : Option (Preload Command)) (actions : List (Action n Command)) (i : Nat)
    (entry : LogEntry Command) : Prop :=
  ((preload.map Preload.log).getD [])[i]? = some entry ∨
    ∃ before s rest c, actions = before ++ .submit s entry.command :: rest ∧
      execute step (start n preload) before = some c ∧ (c.node s).state = .leader ∧
      (c.node s).currentTerm = entry.term ∧ (c.node s).log.length = i

theorem Submitted.concat {actions : List (Action n Command)} {i : Nat} {entry : LogEntry Command}
    (submitted : Submitted preload actions i entry) (action : Action n Command) :
    Submitted preload (actions ++ [action]) i entry := by
  rcases submitted with stored | ⟨before, s, rest, c, rfl, took⟩
  · exact Or.inl stored
  · exact Or.inr ⟨before, s, rest ++ [action], c, by simp, took⟩

/-- All that servers hold, send or deliver has been submitted in the run up to now. -/
theorem supplied_run {actions : List (Action n Command)} {c : Cluster n Command}
    (ran : execute step (start n preload) actions = some c) :
    Supplied (Submitted preload actions) ((preload.map Preload.log).getD []).length c := by
  induction actions using List.reverseRecOn generalizing c with
  | nil =>
    obtain rfl : start n preload = c := by simpa [execute] using ran
    exact supplied_start preload fun i entry stored => Or.inl stored
  | append_singleton actions action inductionHypothesis =>
    obtain ⟨middle, before, taken⟩ := execute_concat.mp ran
    have kept : Supplied (Submitted preload (actions ++ [action])) _ middle :=
      (inductionHypothesis before).sift (lacks_nothing middle) fun i entry submitted _ =>
        submitted.concat action
    refine kept.step (fun s command submits leads => ?_) taken
    exact Or.inr ⟨actions, s, [], middle, by rw [submits], before, leads, rfl, rfl⟩

theorem nothing_invented {actions : List (Action n Command)} {c : Cluster n Command}
    (ran : execute step (start n preload) actions = some c) :
    (∀ s (i : Nat) entry, (c.node s).log[i]? = some entry → Submitted preload actions i entry) ∧
      (∀ task ∈ c.pool, ∀ peer args, task.appendRequest = some (peer, args) →
        ∀ (k : Nat) entry, args.entries[k]? = some entry →
          ∃ i : Nat, i = args.prevLogIndex + 1 + k ∧ Submitted preload actions i entry) ∧
      ∀ s entry, .delivered s entry ∈ c.history → Comes (Submitted preload actions) entry := by
  have supplied := supplied_run ran
  refine ⟨supplied.entry, fun task member peer args request k entry found => ?_,
    supplied.delivered⟩
  obtain ⟨nextIndex, position, carried, -⟩ := supplied.sent task member peer args request
  exact ⟨nextIndex + k, by omega, carried k entry found⟩

/-- Server 1 delivers a command that it got from server 0, who took it in term 2. -/
theorem nothing_invented_replicated : ∃ c, run (some seeded) replication = some c ∧
    .delivered 1 ⟨7, 1, 2⟩ ∈ c.history ∧ Comes (Submitted (some seeded) replication) ⟨7, 1, 2⟩ := by
  obtain ⟨c, taken, delivered⟩ := (Option.any_eq_true _ _).mp (by decide +kernel :
    (run (some seeded) replication).any (fun c => decide (.delivered 1 ⟨7, 1, 2⟩ ∈ c.history)) =
      true)
  have delivered := of_decide_eq_true delivered
  exact ⟨c, taken, delivered, (nothing_invented taken).2.2 1 _ delivered⟩

end RaftInMotion
