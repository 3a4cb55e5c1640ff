/-
This file says once what each action does to a service. The results about subscriptions, answers
and linearizability go through the moves and do not look at the actions again.
-/

import RaftInMotion.Service.KVService

namespace RaftInMotion

variable {n : Nat} {v v' : Service n} {action : ServiceAction n}

/-! ### Subscriptions -/

/-- One subscription of one server changes. -/
theorem commitSubs_update {server : Fin n} {kvs : KVService n} {index : ℤ} {owner : Option ℕ}
    (changes : kvs.commitSubs = Function.update (v.kvs server).commitSubs index owner) (s : Fin n)
    (i : ℤ) : (Function.update v.kvs server kvs s).commitSubs i =
      if s = server ∧ i = index then owner else (v.kvs s).commitSubs i := by
  by_cases self : s = server
  · subst self
    rw [Function.update_self, changes, Function.update_apply]
    simp only [true_and]
  · rw [Function.update_of_ne self, if_neg fun both => self both.1]

/-- The updater has gone on, and the subscription for its entry is removed. -/
def Service.popped (v : Service n) (server : Fin n) (entry : CommitEntry (Command n)) : Service n :=
  { v with
    kvs := Function.update v.kvs server { v.kvs server with
      commitSubs := Function.update (v.kvs server).commitSubs entry.index none
      executed := none } }

theorem popped_commitSubs (v : Service n) (server : Fin n) (entry : CommitEntry (Command n))
    (s : Fin n) (i : ℤ) : ((v.popped server entry).kvs s).commitSubs i =
      if s = server ∧ i = entry.index then none else (v.kvs s).commitSubs i :=
  commitSubs_update rfl s i

theorem commitSubs_of_popped {server s : Fin n} {entry : CommitEntry (Command n)} {i : ℤ} {r : ℕ}
    (sub : ((v.popped server entry).kvs s).commitSubs i = some r) :
    (v.kvs s).commitSubs i = some r := by
  rw [popped_commitSubs] at sub
  split_ifs at sub
  exact sub

theorem executed_of_popped {server s : Fin n} {entry later : CommitEntry (Command n)}
    (held : ((v.popped server entry).kvs s).executed = some later) :
    (v.kvs s).executed = some later := by
  by_cases self : s = server
  · subst self
    simp only [Service.popped, Function.update_self] at held
    cases held
  · simpa only [Service.popped, Function.update_of_ne self] using held

/-- The updater has performed the next entry, which the Raft instance has sent. -/
def Service.performed (v : Service n) (server : Fin n) (next : Raft n (Command n))
    (entry : CommitEntry (Command n)) : Service n :=
  { v with
    cluster := v.cluster.act server next [] [.delivered server entry]
    kvs := Function.update v.kvs server { v.kvs server with
      ds := (KVService.execute (v.kvs server).ds entry.command).1
      executed := some { entry with
        command := (KVService.execute (v.kvs server).ds entry.command).2 } } }

theorem performed_commitSubs (v : Service n) (server : Fin n) (next : Raft n (Command n))
    (entry : CommitEntry (Command n)) (s : Fin n) :
    ((v.performed server next entry).kvs s).commitSubs = (v.kvs s).commitSubs := by
  by_cases self : s = server
  · subst self
    simp only [Service.performed, Function.update_self]
  · simp only [Service.performed, Function.update_of_ne self]

/-! ### Actions -/

/-- What an action does. -/
inductive Service.Moves (v : Service n) : ServiceAction n → Service n → Prop
  | receives (server : Fin n) (operation : Operation) :
      Moves v (.receive server operation) (v.receive server operation)
  | submits {r : ℕ} {request : Request n} {v' : Service n}
      (found : v.requests[r]? = some request) (received : request.phase = .received)
      (taken : v.submit r request = some v') : Moves v (.submit r) v'
  | subscribes {r : ℕ} {request : Request n} {v' : Service n}
      (found : v.requests[r]? = some request) (submitted : request.phase = .submitted)
      (taken : v.subscribe r request = some v') : Moves v (.subscribe r) v'
  | performs {server : Fin n} {next : Raft n (Command n)} {entry : CommitEntry (Command n)}
      (sent : (v.cluster.node server).sendReady = some (next, entry)) :
      Moves v (.execute server) (v.performed server next entry)
  /-- Nobody waits for the entry. -/
  | pops {server : Fin n} {entry : CommitEntry (Command n)}
      (executed : (v.kvs server).executed = some entry)
      (nobody : ∀ {r : ℕ} {request : Request n}, (v.kvs server).commitSubs entry.index = some r →
        v.requests[r]? = some request → request.phase ≠ .subscribed) :
      Moves v (.handOver server) (v.popped server entry)
  | notifies {server : Fin n} {entry : CommitEntry (Command n)} {r : ℕ} {request : Request n}
      (executed : (v.kvs server).executed = some entry)
      (sub : (v.kvs server).commitSubs entry.index = some r)
      (found : v.requests[r]? = some request) (subscribed : request.phase = .subscribed) :
      Moves v (.handOver server) ((v.popped server entry).move r request (.notified entry))
  | answers {r : ℕ} {request : Request n} {entry : CommitEntry (Command n)}
      (found : v.requests[r]? = some request) (notified : request.phase = .notified entry) :
      Moves v (.answer r) (v.respond r request
        (if entry.command.id = request.server then
          .ok entry.command.resultFound entry.command.resultValue
        else .failedCommit))
  | givesUp {r : ℕ} {request : Request n} (found : v.requests[r]? = some request)
      (waits : request.phase = .subscribed ∨ ∃ entry, request.phase = .notified entry) :
      Moves v (.giveUp r) (v.move r request .finished)
  | restarts {server : Fin n} {cluster : Cluster n (Command n)}
      (stepped : v.cluster.step (.restart server) = some cluster) :
      Moves v (.raft (.restart server)) (v.renew server cluster)
  | turns {action : Action n (Command n)} {cluster : Cluster n (Command n)}
      (noRestart : v.cluster.restartFree action = true)
      (noSubmit : ∀ s command, action ≠ .submit s command) (noSend : ∀ s, action ≠ .sendReady s)
      (stepped : v.cluster.step action = some cluster) :
      Moves v (.raft action) { v with cluster := cluster }

theorem execute_moves {server : Fin n} (taken : v.execute server = some v') :
    v.Moves (.execute server) v' := by
  unfold Service.execute at taken
  dsimp only at taken
  split_ifs at taken
  obtain ⟨⟨next, entry⟩, sent, rfl⟩ := Option.map_eq_some_iff.mp taken
  exact .performs sent

theorem handOver_moves {server : Fin n} (taken : v.handOver server = some v') :
    v.Moves (.handOver server) v' := by
  obtain ⟨entry, executed, rfl⟩ := Option.map_eq_some_iff.mp taken
  dsimp only
  split
  · next none =>
    exact .pops executed fun sub => by cases none.symm.trans sub
  · next r sub =>
    split
    · next request found =>
      split_ifs with subscribed
      · exact .notifies executed sub found subscribed
      · refine .pops executed fun {r' other} sub' found' => ?_
        obtain rfl := Option.some.inj (sub.symm.trans sub')
        obtain rfl := Option.some.inj (found.symm.trans found')
        exact subscribed
    · next none =>
      refine .pops executed fun sub' found' => ?_
      obtain rfl := Option.some.inj (sub.symm.trans sub')
      cases none.symm.trans found'

theorem raft_moves {action : Action n (Command n)} (taken : v.step (.raft action) = some v') :
    v.Moves (.raft action) v' := by
  cases action with
  | submit s command => cases taken
  | sendReady s => cases taken
  | restart s =>
    obtain ⟨cluster, stepped, rfl⟩ := Option.map_eq_some_iff.mp taken
    exact .restarts stepped
  | _ =>
    obtain ⟨cluster, stepped, rfl⟩ := Option.map_eq_some_iff.mp taken
    exact .turns rfl (fun _ _ => by simp) (fun _ => by simp) stepped

theorem step_moves (taken : v.step action = some v') : v.Moves action v' := by
  cases action with
  | receive server operation =>
    cases taken
    exact .receives server operation
  | submit r =>
    obtain ⟨request, found, taken⟩ := Option.bind_eq_some_iff.mp taken
    split_ifs at taken with received
    exact .submits found received taken
  | subscribe r =>
    obtain ⟨request, found, taken⟩ := Option.bind_eq_some_iff.mp taken
    split_ifs at taken with submitted
    exact .subscribes found submitted taken
  | execute server => exact execute_moves taken
  | handOver server => exact handOver_moves taken
  | answer r =>
    obtain ⟨request, found, taken⟩ := Option.bind_eq_some_iff.mp taken
    unfold Service.answer at taken
    split at taken
    · next entry notified =>
      cases taken
      exact .answers found notified
    · cases taken
  | giveUp r =>
    obtain ⟨request, found, taken⟩ := Option.bind_eq_some_iff.mp taken
    unfold Service.giveUp at taken
    split at taken
    · next subscribed =>
      cases taken
      exact .givesUp found (Or.inl subscribed)
    · next entry notified =>
      cases taken
      exact .givesUp found (Or.inr ⟨entry, notified⟩)
    · cases taken
  | raft action => exact raft_moves taken

end RaftInMotion
