/-
This file settles what heartbeats are for. An undisputed leader that is not killed leads for good
as long as no timer of another server wakes up later than 150 milliseconds after the server has
handled a request of the leader's term. Nothing else matters: neither the order and the loss of
messages, nor commands, nor servers that are killed and created again. When a server has last
heard of the leader is recorded beside the run.
-/

import RaftInMotion.Liveness.Reign
import RaftInMotion.Liveness.Timeouts

namespace RaftInMotion

open Execution

variable {n : Nat} {Command : Type}

namespace TimedCluster

/-- The server handles a request to append of the term. -/
def hears (t : TimedCluster n Command) (term : Nat) (action : TimedAction n Command) (s : Fin n) :
    Bool :=
  match action with
  | .other raft =>
    match t.cluster.appendHandled raft with
    | some (peer, args) => peer = s && (t.cluster.node s).state ≠ .dead && args.term = term
    | none => false
  | _ => false

end TimedCluster

/-- A timed run, and when each server has last handled a request of the leader. -/
structure Watched (n : Nat) (Command : Type) where
  timed : TimedCluster n Command
  heard : Fin n → Nat

namespace Watched

variable {w w' : Watched n Command} {action : TimedAction n Command} {leader : Fin n} {term : Nat}

def step (term : Nat) (w : Watched n Command) (action : TimedAction n Command) :
    Option (Watched n Command) :=
  (w.timed.step action).map fun next =>
    ⟨next, fun s => if w.timed.hears term action s then w.timed.now else w.heard s⟩

/-- The leader is not killed, and a timer wakes up at most 150 milliseconds after its server has
heard of the leader. -/
def punctual (leader : Fin n) (w : Watched n Command) (action : TimedAction n Command) : Bool :=
  match action with
  | .wake s _ => s = leader || w.timed.now < w.heard s + 150
  | .other (.kill s) => s ≠ leader
  | _ => true

/-- The leader is undisputed, and the servers that hear of it reset their timers. -/
structure Led (leader : Fin n) (term : Nat) (w : Watched n Command) : Prop where
  clocked : w.timed.Clocked
  reigns : Reigns leader term w.timed.cluster
  rested : ∀ s, s ≠ leader → TimedCluster.Rested (w.heard s) s w.timed

/-- No timer expires. -/
theorem Led.quiet (led : Led leader term w) (punctual : punctual leader w action = true)
    (s : Fin n) : w.timed.startsElection action s = false := by
  by_contra starts
  rw [Bool.not_eq_false] at starts
  obtain ⟨position, rfl, -, -, runs⟩ := TimedCluster.startsElection_iff.mp starts
  by_cases own : s = leader
  · subst own
    simp [led.reigns.ruler.leads] at runs
  · obtain ⟨event, set, elapsed⟩ := led.clocked.elapsed starts
    have heard := (led.rested s own).2 event set
    simp only [Watched.punctual, own, decide_false, Bool.false_or, decide_eq_true_eq] at punctual
    omega

/-- A server that hears of the leader resets its timer. -/
theorem Led.sets (led : Led leader term w) {s : Fin n} (other : s ≠ leader)
    (hears : w.timed.hears term action s = true) : w.timed.sets action s = true := by
  cases action with
  | other raft =>
    simp only [TimedCluster.hears] at hears
    split at hears
    · next peer args handled =>
      simp only [Bool.and_eq_true, decide_eq_true_eq] at hears
      obtain ⟨⟨rfl, alive⟩, rfl⟩ := hears
      have reached := (led.reigns.subjects peer other).reached
      cases raft with
      | handle i =>
        simp [TimedCluster.sets, Cluster.restartFree, Cluster.resets, handled, alive, reached]
      | _ => cases handled
    · cases hears
  | _ => cases hears

theorem Led.step (led : Led leader term w) (punctual : punctual leader w action = true)
    (taken : step term w action = some w') : Led leader term w' := by
  obtain ⟨next, stepped, rfl⟩ := Option.map_eq_some_iff.mp taken
  refine ⟨led.clocked.step stepped, ?_, fun s other => ?_⟩
  · rcases TimedCluster.step_cluster stepped with same | ⟨raft, moved, starts, kills⟩
    · dsimp only
      rw [same]
      exact led.reigns
    · refine led.reigns.step (Bool.and_eq_true_iff.mpr ⟨?_, ?_⟩) moved
      · exact decide_eq_true fun s => (starts s).trans (led.quiet punctual s)
      · cases raft with
        | kill s =>
          rw [kills s rfl] at punctual
          exact punctual
        | _ => rfl
  · dsimp only
    split_ifs with hears
    · exact TimedCluster.rested_of_sets (led.sets other hears) stepped
    · exact (led.rested s other).step stepped

theorem heartbeats_keep_leader (preload : Option (Preload Command)) {leader : Fin n} {term : Nat}
    {before after : List (TimedAction n Command)} {w middle : Watched n Command}
    (run : execute TimedCluster.step (TimedCluster.start n preload) before = some w.timed)
    (reigns : Reigns leader term w.timed.cluster)
    (heard : ∀ s, s ≠ leader → TimedCluster.Rested (w.heard s) s w.timed)
    (inTime : along (step term) (punctual leader) w after = true)
    (visits : Visits (step term) w after middle) : Reigns leader term middle.timed.cluster :=
  (visits_invariant (Led leader term) (fun _ _ _ led inTime taken => led.step inTime taken)
    ⟨TimedCluster.clocked_run preload run, reigns, heard⟩ inTime visits).reigns

open Cluster (s₀ s₁ s₂ roundTrip)

/-- Server 0 is elected by all 150 milliseconds after the start. -/
def crowned : List (TimedAction 3 ℕ) :=
  TimedCluster.firstElection ++ (roundTrip 0 ++ roundTrip 1).map .other

/-- Heartbeats reach the others after a while, and then a timer of server 1 wakes up. -/
def heartbeats : List (TimedAction 3 ℕ) :=
  [.other (.leaderLoop s₀ 0), .enter s₁ 1 0, .tick 100] ++
    (roundTrip 2 ++ roundTrip 3).map .other ++ [.tick 149, .wake s₁ 1]

theorem heartbeats_keep_leader_awhile : ∃ (w middle : Watched 3 ℕ),
    execute TimedCluster.step (TimedCluster.start 3 none) crowned = some w.timed ∧
      Visits (step 1) w heartbeats middle ∧ middle.timed.now = 399 ∧
        Reigns s₀ 1 middle.timed.cluster := by
  obtain ⟨t, run, holds⟩ := (Option.any_eq_true _ _).mp (by decide +kernel :
    (execute TimedCluster.step (TimedCluster.start 3 none) crowned).any (fun t =>
      decide (Reigns s₀ 1 t.cluster ∧
        ∀ s, s ≠ s₀ → 150 ≤ t.now ∧ t.electionResetEvent s = some 150) &&
      along (step 1) (punctual s₀) ⟨t, fun _ => 150⟩ heartbeats &&
      (execute (step 1) ⟨t, fun _ => 150⟩ heartbeats).any fun w => decide (w.timed.now = 399)) =
        true)
  obtain ⟨⟨led, inTime⟩, final⟩ := Bool.and_eq_true_iff.mp holds |>.imp_left Bool.and_eq_true_iff.mp
  obtain ⟨reigns, heard⟩ := of_decide_eq_true led
  obtain ⟨middle, later, now⟩ := (Option.any_eq_true _ _).mp final
  refine ⟨⟨t, fun _ => 150⟩, middle, run, visits_end later, of_decide_eq_true now, ?_⟩
  refine heartbeats_keep_leader none run reigns (fun s other => ⟨(heard s other).1, ?_⟩) inTime
    (visits_end later)
  rintro event set
  exact (Option.some.inj ((heard s other).2.symm.trans set)).le

end Watched

end RaftInMotion
