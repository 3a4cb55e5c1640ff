/-
This file settles when the handlers of a server hear of their entries. A handler subscribes for its
index after `Submit` has returned it, and the updater may hand the entry over in between: it then
finds no subscription, and the handler waits for nothing. A handler that gives up leaves its
subscription, which ends the next handler with that index. Otherwise every entry reaches the one
handler that waits for it, and the updater never sends on a channel twice.
-/

import RaftInMotion.Service.Linearizability

namespace RaftInMotion

open Cluster Execution

variable {n : Nat} {v v' w : Service n} {action : ServiceAction n}

/-- The handler is on its way from `Submit` to its entry. -/
def Request.waits (request : Request n) : Bool :=
  request.phase = .submitted || request.phase = .subscribed

/-- How far a handler is. -/
def Phase.rank : Phase n → ℕ
  | .received => 0
  | .submitted => 1
  | .subscribed => 2
  | .notified _ => 3
  | .finished => 4

namespace Service

/-! ### Conditions on runs -/

/-- The updater hands over an entry for which a handler has yet to subscribe. -/
def early (v : Service n) : ServiceAction n → Bool
  | .handOver server =>
    (v.kvs server).executed.any fun entry => v.requests.any fun request =>
      request.server = server && request.phase = .submitted && request.logIndex = some entry.index
  | _ => false

/-- A handler gives up before its entry has come. -/
def abandons (v : Service n) : ServiceAction n → Bool
  | .giveUp position =>
    (v.requests[position]?).any fun request => request.phase = .subscribed
  | _ => false

/-- A leader gives a request the index of another one whose handler still waits. -/
def crowds (v : Service n) : ServiceAction n → Bool
  | .submit position =>
    (v.requests[position]?).any fun request =>
      (v.cluster.node request.server).state = .leader && v.requests.any fun other =>
        other.server = request.server && other.waits &&
          other.logIndex = some ((v.cluster.node request.server).log.length : Int)
  | _ => false

/-- Every handler subscribes before its entry comes and stays until then, and no two of them wait
for one index. -/
def attentive (v : Service n) (action : ServiceAction n) : Bool :=
  !v.early action && !v.abandons action && !v.crowds action

end Service

/-! ### Subscriptions -/

/-- The subscriptions are those of the handlers that wait for them, and no two handlers wait for
one index. -/
structure Registered (v : Service n) : Prop where
  fresh : ∀ {r : ℕ} {request : Request n}, v.requests[r]? = some request →
    request.phase = .received → request.logIndex = none
  distinct : ∀ {r r' : ℕ} {request request' : Request n} {i : ℤ}, v.requests[r]? = some request →
    v.requests[r']? = some request' → request.waits = true → request'.waits = true →
    request.server = request'.server → request.logIndex = some i → request'.logIndex = some i →
    r = r'
  subscribed : ∀ {s : Fin n} {i : ℤ} {r : ℕ}, (v.kvs s).commitSubs i = some r →
    ∃ request, v.requests[r]? = some request ∧ request.server = s ∧
      request.logIndex = some i ∧ request.phase = .subscribed
  registered : ∀ {r : ℕ} {request : Request n} {i : ℤ}, v.requests[r]? = some request →
    request.phase = .subscribed → request.logIndex = some i →
    (v.kvs request.server).commitSubs i = some r

theorem registered_start (preload : Option (Preload (Command n))) :
    Registered (Service.start n preload) :=
  ⟨nofun, nofun, nofun, nofun⟩

/-- One handler goes on, and only its own subscription comes or goes. -/
theorem Registered.advance {r : ℕ} {request next : Request n} (registered : Registered v)
    (advances : Advances v v' r request next)
    (index : ∀ {i}, next.waits = true → next.logIndex = some i →
      request.waits = true ∧ request.logIndex = some i ∨ ∀ {r' : ℕ} {other : Request n},
        v.requests[r']? = some other → other.server = request.server → other.waits = true →
          other.logIndex ≠ some i)
    (mine : ∀ {i}, next.phase = .subscribed → next.logIndex = some i →
      (v'.kvs next.server).commitSubs i = some r)
    (gone : ∀ {s i}, (v'.kvs s).commitSubs i = some r →
      next.server = s ∧ next.logIndex = some i ∧ next.phase = .subscribed)
    (others : ∀ {s i r'}, r' ≠ r →
      ((v'.kvs s).commitSubs i = some r' ↔ (v.kvs s).commitSubs i = some r')) :
    Registered v' where
  fresh found received := by
    rcases advances.lookup found with ⟨-, rfl⟩ | ⟨-, old⟩
    · exact absurd received advances.ran
    · exact registered.fresh old received
  distinct := by
    have apart : ∀ {r' : ℕ} {other : Request n} {i : ℤ}, r' ≠ r → v.requests[r']? = some other →
        next.waits = true → other.waits = true → next.server = other.server →
        next.logIndex = some i → other.logIndex ≠ some i := by
      intro r' other i different old waits waits' server logIndex logIndex'
      have server' := advances.evolves.server.symm.trans server
      rcases index waits logIndex with ⟨already, same⟩ | unused
      · exact different (registered.distinct old advances.found waits' already server'.symm
          logIndex' same)
      · exact unused old server'.symm waits' logIndex'
    intro r₁ r₂ request₁ request₂ i found₁ found₂ waits₁ waits₂ server logIndex₁ logIndex₂
    rcases advances.lookup found₁ with ⟨rfl, rfl⟩ | ⟨other₁, old₁⟩
    · rcases advances.lookup found₂ with ⟨rfl, -⟩ | ⟨other₂, old₂⟩
      · rfl
      · exact absurd logIndex₂ (apart other₂ old₂ waits₁ waits₂ server logIndex₁)
    · rcases advances.lookup found₂ with ⟨rfl, rfl⟩ | ⟨-, old₂⟩
      · exact absurd logIndex₁ (apart other₁ old₁ waits₂ waits₁ server.symm logIndex₂)
      · exact registered.distinct old₁ old₂ waits₁ waits₂ server logIndex₁ logIndex₂
  subscribed {s i r'} sub := by
    by_cases self : r' = r
    · subst self
      exact ⟨next, advances.self, gone sub⟩
    · obtain ⟨other, found, rest⟩ := registered.subscribed ((others self).mp sub)
      refine ⟨other, ?_, rest⟩
      rw [advances.requests, List.getElem?_set_ne (Ne.symm self), found]
  registered found isSubscribed logIndex := by
    rcases advances.lookup found with ⟨rfl, rfl⟩ | ⟨other, old⟩
    · exact mine isSubscribed logIndex
    · exact (others other).mpr (registered.registered old isSubscribed logIndex)

/-- The handlers and their subscriptions are as they were. -/
theorem Registered.quiet (registered : Registered v) (requests : v'.requests = v.requests)
    (subs : ∀ s, (v'.kvs s).commitSubs = (v.kvs s).commitSubs) : Registered v' where
  fresh found := registered.fresh (requests ▸ found)
  distinct found found' := registered.distinct (requests ▸ found) (requests ▸ found')
  subscribed {s i r} sub := by
    rw [requests]
    exact registered.subscribed (subs s ▸ sub)
  registered {r request i} found isSubscribed logIndex := by
    rw [subs]
    exact registered.registered (requests ▸ found) isSubscribed logIndex

/-- A handler without a subscription goes on to where it does not wait. -/
theorem Registered.moved {r : ℕ} {request next : Request n} (registered : Registered v)
    (advances : Advances v v' r request next) (unsubscribed : request.phase ≠ .subscribed)
    (done : next.waits = false) (subs : ∀ s, (v'.kvs s).commitSubs = (v.kvs s).commitSubs) :
    Registered v' := by
  refine registered.advance advances (fun waits => ?_) (fun isSubscribed => ?_)
    (fun {s i} sub => ?_) fun {s i r'} different => by rw [subs]
  · cases done.symm.trans waits
  · simp [Request.waits, isSubscribed] at done
  · rw [subs] at sub
    obtain ⟨other, found, -, -, isSubscribed⟩ := registered.subscribed sub
    rw [advances.found, Option.some_inj] at found
    exact absurd (found ▸ isSubscribed) unsubscribed

/-! ### Actions -/

theorem Registered.receive (registered : Registered v) (server : Fin n) (operation : Operation) :
    Registered (v.receive server operation) where
  fresh found received := by
    rcases receive_lookup found with old | ⟨-, none⟩
    · exact registered.fresh old received
    · exact none
  distinct found found' waits waits' server' logIndex logIndex' := by
    rcases receive_lookup found with old | ⟨-, none⟩
    · rcases receive_lookup found' with old' | ⟨-, none⟩
      · exact registered.distinct old old' waits waits' server' logIndex logIndex'
      · cases none.symm.trans logIndex'
    · cases none.symm.trans logIndex
  subscribed {s i r} sub := by
    obtain ⟨request, found, rest⟩ := registered.subscribed sub
    have within := (List.getElem?_eq_some_iff.mp found).1
    refine ⟨request, ?_, rest⟩
    simp only [Service.receive]
    rwa [List.getElem?_append_left within]
  registered found isSubscribed logIndex := by
    rcases receive_lookup found with old | ⟨-, none⟩
    · exact registered.registered old isSubscribed logIndex
    · cases none.symm.trans logIndex

theorem Registered.submit {r : ℕ} {request : Request n} (registered : Registered v)
    (found : v.requests[r]? = some request) (received : request.phase = .received)
    (alone : v.crowds (.submit r) = false) (taken : v.submit r request = some v') :
    Registered v' := by
  obtain ⟨⟨next, index⟩, submitted, rfl⟩ := Option.map_eq_some_iff.mp taken
  have unsubscribed : request.phase ≠ .subscribed := received.trans_ne nofun
  rcases Raft.submit_cases submitted with ⟨rfl, -, rfl⟩ | ⟨-, leads, rfl⟩
  · dsimp only
    rw [if_pos (by omega)]
    exact registered.moved (advances_move .finished found (fun _ => rfl) (by simp) rfl)
      unsubscribed rfl fun _ => rfl
  · dsimp only
    rw [if_neg (by omega)]
    refine registered.advance
      (advances_submit _ found received (registered.fresh found received) rfl)
      (fun waits isIndex => ?_) nofun (fun {s i} sub => ?_) fun _ => Iff.rfl
    · cases isIndex
      refine Or.inr fun {r' other} old server waits' logIndex => ?_
      simp only [Service.crowds, found, Option.any_some, leads, decide_true, Bool.true_and] at alone
      rw [List.any_eq_false] at alone
      exact alone other (List.mem_of_getElem? old) (by simp [server, waits', logIndex])
    · obtain ⟨other, old, -, -, isSubscribed⟩ := registered.subscribed sub
      rw [found, Option.some_inj] at old
      exact absurd (old ▸ isSubscribed) unsubscribed

/-- The index of a handler that is about to subscribe is free. -/
theorem Registered.unused {r : ℕ} {request : Request n} {i : ℤ} (registered : Registered v)
    (found : v.requests[r]? = some request) (submitted : request.phase = .submitted)
    (logIndex : request.logIndex = some i) : (v.kvs request.server).commitSubs i = none := by
  rw [Option.eq_none_iff_forall_ne_some]
  intro r' sub
  obtain ⟨other, found', server, logIndex', isSubscribed⟩ := registered.subscribed sub
  obtain rfl := registered.distinct found found' (by simp [Request.waits, submitted])
    (by simp [Request.waits, isSubscribed]) server.symm logIndex logIndex'
  rw [found, Option.some_inj] at found'
  cases submitted.symm.trans (found' ▸ isSubscribed)

theorem Registered.subscribe {r : ℕ} {request : Request n} (registered : Registered v)
    (found : v.requests[r]? = some request) (submitted : request.phase = .submitted)
    (taken : v.subscribe r request = some v') : Registered v' := by
  obtain ⟨i, logIndex, rfl⟩ := Option.map_eq_some_iff.mp taken
  have unused := registered.unused found submitted logIndex
  dsimp only
  rw [unused]
  refine registered.advance (advances_move .subscribed found
      (fun finished => by cases submitted.symm.trans finished) (by simp) rfl)
    (fun _ isIndex => Or.inl ⟨by simp [Request.waits, submitted], isIndex⟩)
    (fun _ isIndex => ?_) (fun {s j} sub => ?_) fun {s j r'} different => ?_
  · obtain rfl : i = _ := Option.some_inj.mp (logIndex.symm.trans isIndex)
    rw [commitSubs_update rfl, if_pos ⟨rfl, rfl⟩]
  · rw [commitSubs_update rfl] at sub
    split_ifs at sub with here
    · exact ⟨here.1.symm, here.2 ▸ logIndex, rfl⟩
    · obtain ⟨other, old, -, -, isSubscribed⟩ := registered.subscribed sub
      rw [found, Option.some_inj] at old
      cases submitted.symm.trans (old ▸ isSubscribed)
  · rw [commitSubs_update rfl]
    split_ifs with here
    · rw [here.1, here.2, unused]
      simp [Ne.symm different]
    · rfl

/-- The updater hands an entry over to the handler that waits for it. -/
def Service.Notifies (v v' : Service n) (server : Fin n) (entry : CommitEntry (Command n)) : Prop :=
  ∀ (r : ℕ) (request : Request n), v.requests[r]? = some request →
    v'.requests[r]? = some
      (if request.server = server ∧ request.waits ∧ request.logIndex = some entry.index then
        { request with phase := .notified entry }
      else request)

/-- A handler that waits for the entry in time has subscribed for it. -/
theorem Registered.waiting {server : Fin n} {entry : CommitEntry (Command n)} {r : ℕ}
    {request : Request n} (registered : Registered v)
    (inTime : v.early (.handOver server) = false)
    (executed : (v.kvs server).executed = some entry) (found : v.requests[r]? = some request)
    (waits : request.server = server ∧ request.waits ∧ request.logIndex = some entry.index) :
    request.phase = .subscribed ∧ (v.kvs server).commitSubs entry.index = some r := by
  obtain ⟨rfl, waits, logIndex⟩ := waits
  simp only [Service.early, executed, Option.any_some] at inTime
  rw [List.any_eq_false] at inTime
  have submitted := inTime request (List.mem_of_getElem? found)
  simp only [Request.waits, Bool.or_eq_true, decide_eq_true_eq] at waits
  have subscribed := waits.resolve_left fun submits => submitted (by simp [submits, logIndex])
  exact ⟨subscribed, registered.registered found subscribed logIndex⟩

/-- Nobody waits for the entry. -/
theorem Registered.pop {server : Fin n} {entry : CommitEntry (Command n)}
    (registered : Registered v) (inTime : v.early (.handOver server) = false)
    (executed : (v.kvs server).executed = some entry)
    (nobody : ∀ {r : ℕ} {request : Request n}, (v.kvs server).commitSubs entry.index = some r →
      v.requests[r]? = some request → request.phase ≠ .subscribed) :
    Registered (v.popped server entry) ∧ v.Notifies (v.popped server entry) server entry := by
  refine ⟨registered.quiet rfl fun s => ?_, fun r request found => ?_⟩
  · funext i
    rw [popped_commitSubs]
    split_ifs with here
    · rw [here.1, here.2, eq_comm, Option.eq_none_iff_forall_ne_some]
      intro r sub
      obtain ⟨request, found, -, -, subscribed⟩ := registered.subscribed sub
      exact nobody sub found subscribed
    · rfl
  · rw [if_neg fun waits => ?_]
    · exact found
    · obtain ⟨subscribed, sub⟩ := registered.waiting inTime executed found waits
      exact nobody sub found subscribed

theorem Registered.notify {server : Fin n} {entry : CommitEntry (Command n)} {r : ℕ}
    {request : Request n} (registered : Registered v)
    (inTime : v.early (.handOver server) = false)
    (executed : (v.kvs server).executed = some entry)
    (sub : (v.kvs server).commitSubs entry.index = some r) (found : v.requests[r]? = some request)
    (subscribed : request.phase = .subscribed) :
    Registered ((v.popped server entry).move r request (.notified entry)) ∧
      v.Notifies ((v.popped server entry).move r request (.notified entry)) server entry := by
  obtain ⟨owner, found', rfl, logIndex, -⟩ := registered.subscribed sub
  obtain rfl := Option.some.inj (found.symm.trans found')
  have advances : Advances v ((v.popped request.server entry).move r request (.notified entry)) r
      request { request with phase := .notified entry } :=
    advances_move (.notified entry) found
      (fun finished => by cases subscribed.symm.trans finished) (by simp) rfl
  refine ⟨registered.advance advances (fun waits => ?_) nofun (fun {s i} mine => ?_)
    fun {s i r'} different => ?_, fun r' other old => ?_⟩
  · cases waits
  · have mine := (popped_commitSubs v _ entry s i).symm.trans mine
    split_ifs at mine with here
    obtain ⟨other, old, server, logIndex', -⟩ := registered.subscribed mine
    obtain rfl := Option.some.inj (found.symm.trans old)
    exact absurd ⟨server.symm, Option.some_inj.mp (logIndex'.symm.trans logIndex)⟩ here
  · show ((v.popped request.server entry).kvs s).commitSubs i = some r' ↔ _
    rw [popped_commitSubs]
    split_ifs with here
    · rw [here.1, here.2, sub]
      simp [Ne.symm different]
    · rfl
  · by_cases self : r' = r
    · subst self
      obtain rfl := Option.some.inj (found.symm.trans old)
      rw [if_pos ⟨rfl, by simp [Request.waits, subscribed], logIndex⟩]
      exact advances.self
    · rw [if_neg fun waits => ?_]
      · exact (List.getElem?_set_ne (Ne.symm self)).trans old
      · have sub' := (registered.waiting inTime executed old waits).2
        exact self (Option.some_inj.mp (sub'.symm.trans sub))

theorem Registered.handOver {server : Fin n} {entry : CommitEntry (Command n)}
    (registered : Registered v) (inTime : v.early (.handOver server) = false)
    (executed : (v.kvs server).executed = some entry) (taken : v.handOver server = some v') :
    Registered v' ∧ v.Notifies v' server entry := by
  cases handOver_moves taken with
  | pops executed' nobody =>
    obtain rfl := Option.some.inj (executed.symm.trans executed')
    exact registered.pop inTime executed nobody
  | notifies executed' sub found subscribed =>
    obtain rfl := Option.some.inj (executed.symm.trans executed')
    exact registered.notify inTime executed sub found subscribed

theorem Registered.restart {server : Fin n} (registered : Registered v)
    (cluster : Cluster n (Command n)) : Registered (v.renew server cluster) where
  fresh found received := by
    obtain ⟨request, present, -, logIndex, finished | same⟩ := renew_lookup found
    · cases finished.symm.trans received
    · exact logIndex.trans (registered.fresh present (same.symm.trans received))
  distinct found found' waits waits' server' logIndex logIndex' := by
    have running : ∀ {request next : Request n}, next.waits = true →
        (next.phase = .finished ∨ next.phase = request.phase) → request.waits = true := by
      rintro request next waits (finished | same)
      · simp [Request.waits, finished] at waits
      · simpa [Request.waits, same] using waits
    obtain ⟨request, present, server₁, same, phase⟩ := renew_lookup found
    obtain ⟨request', present', server₂, same', phase'⟩ := renew_lookup found'
    exact registered.distinct present present' (running waits phase) (running waits' phase')
      (server₁.symm.trans (server'.trans server₂)) (same.symm.trans logIndex)
      (same'.symm.trans logIndex')
  subscribed {s i r} sub := by
    by_cases self : s = server
    · subst self
      simp only [Service.renew, Function.update_self] at sub
      cases sub
    · simp only [Service.renew, Function.update_of_ne self] at sub
      obtain ⟨request, found, rfl, rest⟩ := registered.subscribed sub
      refine ⟨request, ?_, rfl, rest⟩
      simp only [Service.renew, List.getElem?_map, found, Option.map_some, if_neg self]
  registered {r next i} found isSubscribed logIndex := by
    simp only [Service.renew, List.getElem?_map] at found
    obtain ⟨request, present, rfl⟩ := Option.map_eq_some_iff.mp found
    split_ifs at isSubscribed logIndex ⊢ with self
    simp only [Service.renew, Function.update_of_ne self]
    exact registered.registered present isSubscribed logIndex

/-- A handler ends after its entry has come. -/
theorem Registered.ends {r : ℕ} {request : Request n} {entry : CommitEntry (Command n)}
    (registered : Registered v) (found : v.requests[r]? = some request)
    (notified : request.phase = .notified entry)
    (requests : v'.requests = (v.move r request .finished).requests) (kvs : v'.kvs = v.kvs) :
    Registered v' :=
  registered.moved (advances_move .finished found (fun _ => rfl) (by simp) requests)
    (notified.trans_ne nofun) rfl fun _ => by rw [kvs]

theorem attentive_spec (attentive : v.attentive action = true) : v.early action = false ∧
    v.abandons action = false ∧ v.crowds action = false := by
  simpa [Service.attentive, and_assoc] using attentive

theorem Registered.step (registered : Registered v) (attentive : v.attentive action = true)
    (taken : v.step action = some v') : Registered v' := by
  obtain ⟨inTime, stays, alone⟩ := attentive_spec attentive
  cases step_moves taken with
  | receives server operation => exact registered.receive server operation
  | submits found received taken => exact registered.submit found received alone taken
  | subscribes found submitted taken => exact registered.subscribe found submitted taken
  | performs sent => exact registered.quiet rfl (performed_commitSubs v _ _ _)
  | pops executed nobody => exact (registered.pop inTime executed nobody).1
  | notifies executed sub found subscribed =>
    exact (registered.notify inTime executed sub found subscribed).1
  | answers found notified => exact registered.ends found notified rfl rfl
  | givesUp found waits =>
    rcases waits with subscribed | ⟨entry, notified⟩
    · simp [Service.abandons, found, subscribed] at stays
    · exact registered.ends found notified rfl rfl
  | restarts stepped => exact registered.restart _
  | turns noRestart noSubmit noSend stepped => exact registered.quiet rfl fun _ => rfl

/-! ### Handlers go forward -/

/-- No handler goes back. -/
def HandlersForward (v v' : Service n) : Prop :=
  ∀ (r : ℕ) (request : Request n), v.requests[r]? = some request →
    ∃ next, v'.requests[r]? = some next ∧ request.phase.rank ≤ next.phase.rank

theorem HandlersForward.refl (v : Service n) : HandlersForward v v :=
  fun _ request found => ⟨request, found, le_rfl⟩

theorem HandlersForward.trans (left : HandlersForward v v') (right : HandlersForward v' w) :
    HandlersForward v w := by
  intro r request found
  obtain ⟨middle, found', before⟩ := left r request found
  obtain ⟨next, found'', after⟩ := right r middle found'
  exact ⟨next, found'', before.trans after⟩

theorem handlersForward_of_eq (same : v'.requests = v.requests) : HandlersForward v v' :=
  fun _ request found => ⟨request, same ▸ found, le_rfl⟩

theorem handlersForward_set {r : ℕ} {request next : Request n}
    (found : v.requests[r]? = some request) (requests : v'.requests = v.requests.set r next)
    (later : request.phase.rank ≤ next.phase.rank) : HandlersForward v v' := by
  intro r' other old
  rw [requests]
  by_cases self : r' = r
  · subst self
    rw [found, Option.some_inj] at old
    exact ⟨next, List.getElem?_set_self (List.getElem?_eq_some_iff.mp found).1, old ▸ later⟩
  · exact ⟨other, (List.getElem?_set_ne (Ne.symm self)).trans old, le_rfl⟩

theorem Phase.rank_le (phase : Phase n) : phase.rank ≤ 4 := by
  cases phase <;> simp [rank]

theorem step_handlers (taken : v.step action = some v') : HandlersForward v v' := by
  cases step_moves taken with
  | receives server operation =>
    intro r request found
    have within := (List.getElem?_eq_some_iff.mp found).1
    exact ⟨request, (List.getElem?_append_left within).trans found, le_rfl⟩
  | submits found received taken =>
    obtain ⟨submitted, -, rfl⟩ := Option.map_eq_some_iff.mp taken
    dsimp only
    split_ifs <;> exact handlersForward_set found rfl (by simp [received, Phase.rank])
  | subscribes found submitted taken =>
    obtain ⟨i, -, rfl⟩ := Option.map_eq_some_iff.mp taken
    dsimp only
    split <;> exact handlersForward_set found rfl (by simp [submitted, Phase.rank])
  | performs sent => exact handlersForward_of_eq rfl
  | pops executed nobody => exact handlersForward_of_eq rfl
  | notifies executed sub found subscribed =>
    exact handlersForward_set found rfl (by simp [subscribed, Phase.rank])
  | @answers r request _ found notified =>
    exact handlersForward_set found rfl request.phase.rank_le
  | @givesUp r request found waits => exact handlersForward_set found rfl request.phase.rank_le
  | restarts stepped =>
    intro r request found
    refine ⟨_, by simp only [Service.renew, List.getElem?_map, found, Option.map_some]; rfl, ?_⟩
    split_ifs
    · exact request.phase.rank_le
    · exact le_rfl
  | turns noRestart noSubmit noSend stepped => exact handlersForward_of_eq rfl

/-! ### Runs -/

theorem execute_handlers {actions : List (ServiceAction n)}
    (run : execute Service.step v actions = some w) : HandlersForward v w := by
  have always : along Service.step (fun _ _ => true) v actions = true :=
    along_iff.mpr fun _ _ _ _ _ _ => rfl
  exact execute_related (fun _ => True) HandlersForward (fun v _ => .refl v)
    (fun _ _ _ left right => left.trans right)
    (fun _ _ _ _ _ taken => ⟨trivial, step_handlers taken⟩) trivial always run

/-- The handler whose channel the updater sends on next. -/
def Service.subscriber (v : Service n) (server : Fin n) : Option ℕ :=
  (v.kvs server).executed.bind fun entry => (v.kvs server).commitSubs entry.index

/-- What the updater hands over in the run reaches the handler that waits for it, once; only
handlers that wait have subscriptions; the index of a handler that is about to subscribe is free;
and no channel is sent on twice. -/
structure NothingLost (start : Service n) (actions : List (ServiceAction n)) : Prop where
  notified : ∀ {first rest : List (ServiceAction n)} {server : Fin n} {v v' : Service n}
    {entry : CommitEntry (Command n)}, actions = first ++ .handOver server :: rest →
    execute Service.step start first = some v → (v.kvs server).executed = some entry →
    v.step (.handOver server) = some v' → v.Notifies v' server entry
  left : ∀ {v : Service n}, Visits Service.step start actions v → ∀ {s : Fin n} {i : ℤ} {r : ℕ},
    (v.kvs s).commitSubs i = some r →
    ∃ request, v.requests[r]? = some request ∧ request.phase = .subscribed
  unused : ∀ {v : Service n}, Visits Service.step start actions v → ∀ {r : ℕ} {request : Request n}
    {i : ℤ}, v.requests[r]? = some request → request.phase = .submitted →
    request.logIndex = some i → (v.kvs request.server).commitSubs i = none
  once : ∀ {first second rest : List (ServiceAction n)} {server server' : Fin n}
    {v w : Service n} {r : ℕ},
    actions = first ++ (.handOver server :: second) ++ .handOver server' :: rest →
    execute Service.step start first = some v →
    execute Service.step v (.handOver server :: second) = some w →
    v.subscriber server = some r → w.subscriber server' ≠ some r

theorem Registered.subscriber {server : Fin n} {r : ℕ} (registered : Registered v)
    (owner : v.subscriber server = some r) : ∃ entry request,
      (v.kvs server).executed = some entry ∧ v.requests[r]? = some request ∧
      request.server = server ∧ request.logIndex = some entry.index ∧
      request.phase = .subscribed := by
  obtain ⟨entry, executed, sub⟩ := Option.bind_eq_some_iff.mp owner
  obtain ⟨request, rest⟩ := registered.subscribed sub
  exact ⟨entry, request, executed, rest⟩

/-- A channel that has been sent on is out of reach. -/
theorem Registered.once {second : List (ServiceAction n)} {server server' : Fin n} {r : ℕ}
    (registered : Registered v) (inTime : v.early (.handOver server) = false)
    (later : Registered w) (run : execute Service.step v (.handOver server :: second) = some w)
    (owner : v.subscriber server = some r) : w.subscriber server' ≠ some r := by
  intro owner'
  obtain ⟨entry, request, executed, found, isServer, logIndex, subscribed⟩ :=
    registered.subscriber owner
  obtain ⟨v', taken, run⟩ := execute_cons.mp run
  have notified := (registered.handOver inTime executed taken).2 r request found
  rw [if_pos ⟨isServer, by simp [Request.waits, subscribed], logIndex⟩] at notified
  obtain ⟨next, found', forward⟩ := execute_handlers run _ _ notified
  obtain ⟨-, request', -, found'', -, -, subscribed'⟩ := later.subscriber owner'
  rw [found', Option.some_inj] at found''
  rw [found'', subscribed'] at forward
  exact absurd forward (by simp [Phase.rank])

theorem nothing_lost (preload : Option (Preload (Command n))) (actions : List (ServiceAction n))
    (attentive : along Service.step Service.attentive (Service.start n preload) actions = true) :
    NothingLost (Service.start n preload) actions := by
  have reached : ∀ {first rest : List (ServiceAction n)} {v : Service n}, actions = first ++ rest →
      execute Service.step (Service.start n preload) first = some v →
      Registered v ∧ along Service.step Service.attentive v rest = true := by
    rintro first rest v rfl run
    obtain ⟨before, after⟩ := along_append run attentive
    exact ⟨execute_invariant Registered (fun _ _ _ registered allowed taken =>
      registered.step allowed taken) (registered_start preload) before run, after⟩
  have inTime : ∀ {server : Fin n} {rest : List (ServiceAction n)} {v : Service n},
      along Service.step Service.attentive v (.handOver server :: rest) = true →
      v.early (.handOver server) = false := by
    intro server rest v allowed
    unfold along at allowed
    exact (attentive_spec (Bool.and_eq_true_iff.mp allowed).1).1
  refine ⟨fun split run executed taken => ?_, fun {v} visits {s i r} sub => ?_,
    fun {v} visits {r request i} found submitted logIndex => ?_, fun split run run' owner => ?_⟩
  · obtain ⟨registered, allowed⟩ := reached split run
    exact (registered.handOver (inTime allowed) executed taken).2
  · obtain ⟨first, rest, split, run⟩ := visits
    obtain ⟨request, found, -, -, subscribed⟩ := (reached split run).1.subscribed sub
    exact ⟨request, found, subscribed⟩
  · obtain ⟨first, rest, split, run⟩ := visits
    exact (reached split run).1.unused found submitted logIndex
  · obtain ⟨registered, allowed⟩ := reached (split.trans (List.append_assoc ..)) run
    refine registered.once (inTime allowed) (reached split ?_).1 run' owner
    exact execute_append.mpr ⟨_, run, run'⟩

theorem nothing_lost_served : NothingLost (Service.start 3 (some stored)) served :=
  nothing_lost (some stored) served (by decide +kernel)

/-- Server 0 leads and delivers a put before its handler has subscribed. -/
def unheard : List (ServiceAction 3) :=
  [elected, [.receive s₀ (.put "x" "1"), .submit 0],
    onRaft (.leaderLoop s₀ 0 :: roundTrip 2 ++ [.takeReady s₀]), [.execute s₀]].flatten

/-- A handler gives up. -/
def abandoned : List (ServiceAction 3) :=
  [elected, accept s₀ (.put "x" "1") 0, [.giveUp 0]].flatten

/-- Server 1 replaces the two entries of server 0, which leads again and gives the second index to
another handler. -/
def crowded : List (ServiceAction 3) :=
  [elected, accept s₀ (.put "y" "0") 0, accept s₀ (.put "y" "1") 1,
    onRaft (timeout s₁ 1 ++ roundTrip 3 ++ [.send 2, .fail 2]), accept s₁ (.put "w" "0") 2,
    onRaft [.leaderLoop s₁ 0, .send 4, .handle 4],
    onRaft (timeout s₀ 1 ++ roundTrip 7 ++ [.send 6, .fail 6]),
    [.receive s₀ (.put "z" "1"), .submit 3]].flatten

/-- The handler of `unheard` waits for nothing, the one of `abandoned` leaves its subscription, and
the last one of `crowded` finds the subscription of another. -/
theorem notifications_lost : ¬NothingLost (Service.start 3 none) (unheard ++ [.handOver s₀]) ∧
    ¬NothingLost (Service.start 3 none) abandoned ∧
    ¬NothingLost (Service.start 3 (some stored)) crowded := by
  refine ⟨fun lossless => ?_, fun lossless => ?_, fun lossless => ?_⟩
  · obtain ⟨v, run, holds⟩ := (Option.any_eq_true _ _).mp (by decide +kernel :
      (Service.run none unheard).any (fun v => (v.kvs s₀).executed.any fun entry =>
        (v.step (.handOver s₀)).any fun v' => decide (
          v.requests[0]? = some ⟨s₀, .put "x" "1", some entry.index, .submitted⟩ ∧
            v'.requests[0]? = v.requests[0]?)) = true)
    obtain ⟨entry, executed, holds⟩ := (Option.any_eq_true _ _).mp holds
    obtain ⟨v', taken, holds⟩ := (Option.any_eq_true _ _).mp holds
    obtain ⟨found, same⟩ := of_decide_eq_true holds
    have notified := lossless.notified rfl run executed taken 0 _ found
    rw [same, found] at notified
    simp [Request.waits] at notified
  · obtain ⟨v, run, holds⟩ := (Option.any_eq_true _ _).mp (by decide +kernel :
      (Service.run none abandoned).any (fun v => decide ((v.kvs s₀).commitSubs 0 = some 0 ∧
        v.requests[0]?.any (fun request => request.phase = .finished) = true)) = true)
    obtain ⟨sub, ended⟩ := of_decide_eq_true holds
    obtain ⟨request, found, subscribed⟩ :=
      lossless.left ⟨abandoned, [], (List.append_nil _).symm, run⟩ sub
    simp [found, subscribed] at ended
  · obtain ⟨v, run, holds⟩ := (Option.any_eq_true _ _).mp (by decide +kernel :
      (Service.run (some stored) crowded).any (fun v => decide ((v.kvs s₀).commitSubs 2 = some 1 ∧
        v.requests[3]? = some ⟨s₀, .put "z" "1", some 2, .submitted⟩)) = true)
    obtain ⟨sub, found⟩ := of_decide_eq_true holds
    have unused := lossless.unused ⟨crowded, [], (List.append_nil _).symm, run⟩ found rfl rfl
    cases sub.symm.trans unused

end RaftInMotion
