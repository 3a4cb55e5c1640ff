/-
This file settles that the servers hold replicas of one map. What a server has performed is the
beginning of one sequence of entries, which only ever grows; so two servers hold the same map
whenever they have come equally far, at the same moment of a run or at different ones, before a
crash or after it. Unlike the answers to clients, this does not depend on the indices that servers
give to requests, but commitment has to be sound.
-/

import RaftInMotion.Service.Linearizability

namespace RaftInMotion

open Replication hiding Request
open Cluster Execution TermLog

variable {n : Nat} {v v' : Service n} {base ledger longer : List (LogEntry (Command n))} {floor : ℕ}

/-- How many entries the updater of the server has received: all that `commitChanSender` has cut
from the log, without what is left of its batch. -/
def Service.performedCount (v : Service n) (s : Fin n) : ℕ :=
  ((v.cluster.node s).lastApplied + 1).toNat - (v.cluster.node s).readyEntries.length

theorem Serves.performedCount {s : Fin n} {count : ℕ}
    (serves : Serves ledger (v.cluster.node s) (v.kvs s) count) : v.performedCount s = count := by
  have applied := serves.applied
  unfold Service.performedCount
  omega

/-! ### The sequence of a service -/

/-- The entry is the one from the start, if its index is not behind them. -/
def Begins (base : List (LogEntry (Command n))) (i : ℕ) (entry : LogEntry (Command n)) : Prop :=
  ∀ held, base[i]? = some held → entry = held

/-- All servers perform the ledger, whatever requests they have served. -/
structure Replicated (floor : ℕ) (base : List (LogEntry (Command n))) (v : Service n)
    (ledger : List (LogEntry (Command n))) : Prop where
  committed : ∃ a, Committed floor v.cluster a ∧
    (ledger = base ∨ ∃ time part, Chosen a time part ∧ ledger <+: part)
  begins : base <+: ledger
  sourced : Sourced (Begins base) base.length v.cluster
  serves : ∀ s, ∃ count, Serves ledger (v.cluster.node s) (v.kvs s) count

/-- Every log begins with the one from the start. -/
theorem Replicated.log_begins (replicated : Replicated floor base v ledger) (s : Fin n) :
    base <+: (v.cluster.node s).log := by
  have long := replicated.sourced.long s
  refine List.prefix_iff_eq_take.mpr (List.ext_getElem? fun i => ?_)
  rw [List.getElem?_take]
  split_ifs with within
  · have found := List.getElem?_eq_getElem (within.trans_le long)
    have held := List.getElem?_eq_getElem within
    rw [found, held, replicated.sourced.entry s i _ found _ held]
  · exact List.getElem?_eq_none (not_lt.mp within)

/-- The ledger can be taken to contain what a server takes for committed. -/
theorem Replicated.extend (replicated : Replicated floor base v ledger) (s : Fin n)
    (some' : -1 < (v.cluster.node s).commitIndex) : ∃ longer, ledger <+: longer ∧
      (v.cluster.node s).log.take ((v.cluster.node s).commitIndex + 1).toNat <+: longer ∧
        Replicated floor base v longer := by
  obtain ⟨a, committed, ledger'⟩ := replicated.committed
  obtain ⟨time, part, chosen, inPart⟩ := committed.chosen s some'
  have inLog := List.take_prefix ((v.cluster.node s).commitIndex + 1).toNat (v.cluster.node s).log
  generalize (v.cluster.node s).log.take ((v.cluster.node s).commitIndex + 1).toNat = front
    at inPart inLog ⊢
  have comparable : front <+: ledger ∨ ledger <+: front := by
    rcases ledger' with rfl | ⟨time', part', chosen', inPart'⟩
    · exact prefix_comparable inLog (replicated.log_begins s)
    · rcases committed.invariant.chosen_comparable chosen chosen' with shorter | further
      · exact prefix_comparable (inPart.trans shorter) inPart'
      · exact prefix_comparable inPart (inPart'.trans further)
  rcases comparable with inside | grows
  · exact ⟨ledger, List.prefix_refl _, inside, replicated⟩
  · exact ⟨front, grows, List.prefix_refl _, ⟨a, committed, Or.inr ⟨time, part, chosen, inPart⟩⟩,
      replicated.begins.trans grows, replicated.sourced,
      fun p => (replicated.serves p).imp fun _ serves => serves.mono grows⟩

/-! ### Steps -/

theorem sound_spec {action : ServiceAction n} (sound : v.sound action = true)
    {raft : Action n (Command n)} (isRaft : v.raftAction action = some raft) :
    SoundStep v.cluster raft := by
  unfold Service.sound at sound
  rw [isRaft] at sound
  simp only [Bool.and_eq_true, Bool.not_eq_true'] at sound
  exact ⟨sound.1.1.1, sound.1.1.2, sound.1.2, sound.2⟩

/-- The Raft instances are as before. -/
theorem Replicated.handled (replicated : Replicated floor base v ledger)
    (cluster : v'.cluster = v.cluster)
    (serves : ∀ s, ∃ count, Serves ledger (v.cluster.node s) (v'.kvs s) count) :
    Replicated floor base v' ledger where
  committed := cluster ▸ replicated.committed
  begins := replicated.begins
  sourced := cluster ▸ replicated.sourced
  serves := cluster ▸ serves

/-- The Raft instances take a step. -/
theorem Replicated.stepped {action : Action n (Command n)}
    (replicated : Replicated floor base v ledger) (sound : SoundStep v.cluster action)
    (taken : v.cluster.step action = some v'.cluster)
    (serves : ∀ s, ∃ count, Serves ledger (v'.cluster.node s) (v'.kvs s) count) :
    Replicated floor base v' ledger where
  committed := by
    obtain ⟨a, committed, chosen⟩ := replicated.committed
    obtain ⟨_, a', steps, committed'⟩ := committed.step sound.prompt sound.truthful sound.onTime
      (fun s rf restarts made => by
        obtain ⟨-, term, vote⟩ := restart_saved (restarts ▸ sound.saved) made
        exact ⟨term, vote, (Raft.make_saved made).2.2.1.trans (replicated.sourced.saved s)⟩) taken
    have grows := (committed.invariant.steps steps).2
    refine ⟨a', committed', chosen.imp_right fun chosen => ?_⟩
    exact chosen.imp fun _ chosen => chosen.imp fun _ ⟨chosen, inPart⟩ =>
      ⟨chosen.mono grows, inPart⟩
  begins := replicated.begins
  sourced := by
    refine replicated.sourced.step (fun s command _ _ held found => ?_) taken
    -- A command that is submitted goes behind the entries from the start.
    have within := (List.getElem?_eq_some_iff.mp found).1
    exact absurd (replicated.sourced.long s) (not_le.mpr within)
  serves := serves

theorem Replicated.submit {r : ℕ} {request : Request n}
    (replicated : Replicated floor base v ledger)
    (sound : SoundStep v.cluster (.submit request.server (request.command r)))
    (taken : v.submit r request = some v') : Replicated floor base v' ledger := by
  obtain ⟨⟨next, index⟩, submitted, rfl⟩ := Option.map_eq_some_iff.mp taken
  have stepped : v.cluster.step (.submit request.server (request.command r)) =
      some (v.cluster.act request.server next [] []) := by
    simp only [Cluster.step, submitted, Option.map_some]
  have serves := serves_step replicated.serves rfl (fun _ => by simp) (fun _ => by simp) stepped
  dsimp only
  split_ifs
  · exact replicated.stepped sound stepped serves
  · exact replicated.stepped sound stepped serves

theorem Replicated.subscribe {r : ℕ} {request : Request n}
    (replicated : Replicated floor base v ledger) (taken : v.subscribe r request = some v') :
    Replicated floor base v' ledger := by
  obtain ⟨logIndex, -, rfl⟩ := Option.map_eq_some_iff.mp taken
  dsimp only
  split
  · exact replicated.handled rfl replicated.serves
  · exact replicated.handled rfl (serves_update replicated.serves fun _ serves =>
      ⟨serves.applied, serves.within, serves.ds, serves.ready, serves.executed⟩)

theorem Replicated.performs {server : Fin n} {next : Raft n (Command n)}
    {entry : CommitEntry (Command n)} (replicated : Replicated floor base v ledger)
    (sound : SoundStep v.cluster (.sendReady server))
    (sent : (v.cluster.node server).sendReady = some (next, entry)) :
    Replicated floor base (v.performed server next entry) ledger := by
  have stepped : v.cluster.step (.sendReady server) =
      some (v.cluster.act server next [] [.delivered server entry]) := by
    simp only [Cluster.step, sent, Option.map_some]
  refine replicated.stepped sound stepped fun s => ?_
  by_cases self : s = server
  · subst self
    simp only [Service.performed, act, Function.update_self]
    obtain ⟨count, serves⟩ := replicated.serves s
    exact ⟨count + 1, serves.executes sent⟩
  · simp only [Service.performed, act, Function.update_of_ne self]
    exact replicated.serves s

theorem Replicated.restart {server : Fin n} {cluster : Cluster n (Command n)}
    (replicated : Replicated floor base v ledger) (sound : SoundStep v.cluster (.restart server))
    (taken : v.cluster.step (.restart server) = some cluster) :
    Replicated floor base (v.renew server cluster) ledger := by
  have stepped := taken
  simp only [Cluster.step, Cluster.restart] at taken
  split_ifs at taken with closed
  obtain ⟨next, made, rfl⟩ := Option.map_eq_some_iff.mp taken
  refine replicated.stepped sound stepped fun s => ?_
  by_cases self : s = server
  · subst self
    simp only [Service.renew, act, Function.update_self]
    exact ⟨0, serves_made made⟩
  · simp only [Service.renew, act, Function.update_of_ne self]
    exact replicated.serves s

/-- An action of the Raft instances that the service takes over as it is. -/
theorem Replicated.raft {action : Action n (Command n)} {cluster : Cluster n (Command n)}
    (replicated : Replicated floor base v ledger) (sound : SoundStep v.cluster action)
    (noRestart : v.cluster.restartFree action = true) (noSend : ∀ s, action ≠ .sendReady s)
    (taken : v.cluster.step action = some cluster) : ∃ longer, ledger <+: longer ∧
      Replicated floor base { v with cluster := cluster } longer := by
  -- The ledger first grows by what is about to be performed.
  obtain ⟨longer, grows, replicated, reaches⟩ : ∃ longer, ledger <+: longer ∧
      Replicated floor base v longer ∧ ∀ s, action = .takeReady s →
        (v.cluster.node s).lastApplied < (v.cluster.node s).commitIndex →
          (v.cluster.node s).log.take ((v.cluster.node s).commitIndex + 1).toNat <+: longer := by
    by_cases takes : ∃ s, action = .takeReady s ∧
      (v.cluster.node s).lastApplied < (v.cluster.node s).commitIndex
    · obtain ⟨s, isTake, more⟩ := takes
      obtain ⟨count, serves⟩ := replicated.serves s
      have applied := serves.applied
      obtain ⟨longer, grows, reaches, replicated⟩ := replicated.extend s (by omega)
      refine ⟨longer, grows, replicated, fun p same _ => ?_⟩
      rw [isTake] at same
      injection same with same
      exact same ▸ reaches
    · exact ⟨ledger, List.prefix_refl _, replicated,
        fun s isTake more => absurd ⟨s, isTake, more⟩ takes⟩
  have serves := serves_step replicated.serves noRestart noSend reaches taken
  exact ⟨longer, grows, replicated.stepped sound taken serves⟩

theorem Replicated.step {action : ServiceAction n} (replicated : Replicated floor base v ledger)
    (sound : v.sound action = true) (taken : v.step action = some v') :
    ∃ longer, ledger <+: longer ∧ Replicated floor base v' longer := by
  have same : ∀ {next : Service n}, Replicated floor base next ledger →
      ∃ longer, ledger <+: longer ∧ Replicated floor base next longer :=
    fun next => ⟨ledger, List.prefix_refl _, next⟩
  have popped : ∀ (server : Fin n) (entry : CommitEntry (Command n)),
      ∀ s, ∃ count, Serves ledger (v.cluster.node s) ((v.popped server entry).kvs s) count :=
    fun server entry => serves_popped replicated.serves server entry
  cases step_moves taken with
  | receives server operation => exact same (replicated.handled rfl replicated.serves)
  | submits found received taken =>
    exact same (replicated.submit
      (sound_spec sound (by simp only [Service.raftAction, found, Option.map_some])) taken)
  | subscribes found submitted taken => exact same (replicated.subscribe taken)
  | performs sent => exact same (replicated.performs (sound_spec sound rfl) sent)
  | pops executed nobody => exact same (replicated.handled rfl (popped _ _))
  | notifies executed sub found subscribed => exact same (replicated.handled rfl (popped _ _))
  | answers found notified => exact same (replicated.handled rfl replicated.serves)
  | givesUp found waits => exact same (replicated.handled rfl replicated.serves)
  | restarts stepped => exact same (replicated.restart (sound_spec sound rfl) stepped)
  | turns noRestart noSubmit noSend stepped =>
    exact replicated.raft (sound_spec sound rfl) noRestart noSend stepped

/-! ### Runs -/

theorem Replicated.run {actions : List (ServiceAction n)}
    (replicated : Replicated floor base v ledger)
    (sound : along Service.step Service.sound v actions = true)
    (taken : execute Service.step v actions = some v') :
    ∃ longer, ledger <+: longer ∧ Replicated floor base v' longer := by
  refine execute_invariant (fun v => ∃ longer, ledger <+: longer ∧ Replicated floor base v longer)
    ?_ ⟨ledger, List.prefix_refl _, replicated⟩ sound taken
  rintro v action v' ⟨middle, grows, replicated⟩ sound stepped
  obtain ⟨longer, further, replicated⟩ := replicated.step sound stepped
  exact ⟨longer, grows.trans further, replicated⟩

/-- Two states with ledgers of which one goes on where the other ends. -/
theorem Replicated.agree (replicated : Replicated floor base v ledger)
    (later : Replicated floor base v' longer) (grows : ledger <+: longer) {s s' : Fin n}
    (same : v.performedCount s = v'.performedCount s') : (v.kvs s).ds = (v'.kvs s').ds := by
  obtain ⟨count, serves⟩ := replicated.serves s
  obtain ⟨count', serves'⟩ := later.serves s'
  rw [(serves.mono grows).ds, serves'.ds, ← serves.performedCount, ← serves'.performedCount, same]

/-- Where commitment is not sound, two servers perform different first entries. -/
theorem replicas_disagree : ∃ v : Service 3, Service.run none blindGet = some v ∧
    v.performedCount s₀ = v.performedCount s₁ ∧ (v.kvs s₀).ds ≠ (v.kvs s₁).ds := by
  obtain ⟨v, run, holds⟩ := (Option.any_eq_true _ _).mp (by decide +kernel :
    (Service.run none blindGet).any (fun v : Service 3 => decide
      (v.performedCount s₀ = v.performedCount s₁ ∧
        (v.kvs s₀).ds "x" ≠ (v.kvs s₁).ds "x")) = true)
  obtain ⟨same, differ⟩ := of_decide_eq_true holds
  exact ⟨v, run, same, fun equal => differ (congrFun equal "x")⟩

end RaftInMotion
