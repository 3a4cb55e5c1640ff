/-
This file restates for machines that the service is linearizable, and that its servers hold replicas
of one map. What a client sends and what it is answered are values, but they pass through requests
to append and through batches; both results need that no entry of these is read that has been
rewritten, and that no batch goes beyond the log.
-/

import RaftInMotion.Refinement.Machine
import RaftInMotion.Service.Replicas

namespace RaftInMotion

open Cluster Execution

variable {n : Nat} {v v' : Service n} {action : ServiceAction n}

/-! ### The instances of a service -/

/-- An action of the service is one of the instances, or leaves them as they are. -/
theorem instances_step (taken : v.step action = some v') :
    execute Cluster.step v.cluster (v.raftAction action).toList = some v'.cluster := by
  cases step_moves taken with
  | @submits r request _ found received taken =>
    obtain ⟨⟨next, index⟩, submitted, rfl⟩ := Option.map_eq_some_iff.mp taken
    simp only [Service.raftAction, found, Option.map_some, Option.toList_some]
    refine execute_cons.mpr ⟨v.cluster.act request.server next [] [], ?_, ?_⟩
    · simp only [Cluster.step, submitted, Option.map_some]
    · split_ifs <;> rfl
  | subscribes found submitted taken =>
    obtain ⟨i, -, rfl⟩ := Option.map_eq_some_iff.mp taken
    dsimp only
    split <;> rfl
  | @performs server next entry sent =>
    refine execute_cons.mpr ⟨v.cluster.act server next [] [.delivered server entry], ?_, rfl⟩
    simp only [Cluster.step, sent, Option.map_some]
  | restarts stepped => exact execute_cons.mpr ⟨_, stepped, rfl⟩
  | turns noRestart noSubmit noSend stepped => exact execute_cons.mpr ⟨_, stepped, rfl⟩
  | _ => rfl

theorem instances_takeReady {server : Fin n}
    (takes : v.raftAction action = some (.takeReady server)) :
    v.step action = (v.cluster.step (.takeReady server)).map fun cluster =>
      { v with cluster := cluster } := by
  cases action with
  | submit r =>
    obtain ⟨request, -, submits⟩ := Option.map_eq_some_iff.mp takes
    cases submits
  | raft action =>
    cases takes
    rfl
  | _ => cases takes

/-- The service with its instances. -/
def Service.host : Host n (Command n) (Service n) (ServiceAction n) where
  step := Service.step
  cluster := Service.cluster
  put v cluster := { v with cluster := cluster }
  raftAction := Service.raftAction
  put_cluster _ := rfl
  step_cluster := instances_step
  step_takeReady := instances_takeReady

/-! ### Linearizability -/

end RaftInMotion
