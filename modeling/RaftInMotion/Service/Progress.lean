/-
This file proves that every action of a service keeps its explanation, with the same ledger unless
a server is about to perform more of its log than the ledger has. The handlers' own actions change
one request; the other actions are steps of the Raft instances, for which commitment is sound,
also when a server is created again and performs the ledger from its beginning.
-/

import RaftInMotion.Service.Explanation

namespace RaftInMotion

open Replication hiding Request
open Cluster TermLog Linearization

variable {n : Nat} {v v' : Service n} {base ledger longer : List (LogEntry (Command n))} {floor : ℕ}

/-! ### One request changes -/

/-- One request goes on, and all others stay. -/
structure Advances (v v' : Service n) (r : ℕ) (request next : Request n) : Prop where
  found : v.requests[r]? = some request
  evolves : request.Evolves next
  requests : v'.requests = v.requests.set r next
  ran : next.phase ≠ .received

theorem Advances.lookup {r r' : ℕ} {request next other : Request n}
    (advances : Advances v v' r request next) (found : v'.requests[r']? = some other) :
    r' = r ∧ other = next ∨ r' ≠ r ∧ v.requests[r']? = some other := by
  have within := (List.getElem?_eq_some_iff.mp advances.found).1
  rw [advances.requests, List.getElem?_set] at found
  split_ifs at found with same
  · exact Or.inl ⟨same.symm, (Option.some_inj.mp found).symm⟩
  · exact Or.inr ⟨Ne.symm same, found⟩

theorem Advances.self {r : ℕ} {request next : Request n}
    (advances : Advances v v' r request next) : v'.requests[r]? = some next := by
  have within := (List.getElem?_eq_some_iff.mp advances.found).1
  rw [advances.requests, List.getElem?_set_self within]

theorem Advances.evolve {r : ℕ} {request next : Request n}
    (advances : Advances v v' r request next) : RequestsEvolve v v' := by
  intro r' other found
  by_cases same : r' = r
  · subst same
    rw [advances.found, Option.some_inj] at found
    exact ⟨next, advances.self, found ▸ advances.evolves⟩
  · refine ⟨other, ?_, rfl, rfl, fun _ isIndex => isIndex, fun done => ⟨done, rfl⟩⟩
    rw [advances.requests, List.getElem?_set_ne (Ne.symm same), found]

/-- The indices stay consistent when one handler goes on. -/
theorem Indexed.advance {r : ℕ} {request next : Request n} (indexed : Indexed v base)
    (advances : Advances v v' r request next)
    (subs : ∀ {s i r'}, (v'.kvs s).commitSubs i = some r' → (v.kvs s).commitSubs i = some r' ∨
      r' = r ∧ s = request.server ∧ next.logIndex = some i)
    (index : ∀ {i}, next.logIndex = some i → request.logIndex = some i ∨
      (base.length : ℤ) ≤ i ∧ ∀ {r' : ℕ} {other : Request n}, v.requests[r']? = some other →
        other.server = request.server → other.logIndex ≠ some i) : Indexed v' base where
  fresh found received := by
    rcases advances.lookup found with ⟨-, rfl⟩ | ⟨-, old⟩
    · exact absurd received advances.ran
    · exact indexed.fresh old received
  behind found logIndex := by
    rcases advances.lookup found with ⟨-, rfl⟩ | ⟨-, old⟩
    · rcases index logIndex with same | ⟨behind, -⟩
      · exact indexed.behind advances.found same
      · exact behind
    · exact indexed.behind old logIndex
  distinct := by
    -- Of two requests with one index on one server, at most one has just got it.
    have mine : ∀ {r' : ℕ} {other : Request n} {i : ℤ}, r' ≠ r → v.requests[r']? = some other →
        other.server = next.server → other.logIndex = some i → next.logIndex ≠ some i := by
      intro r' other i different old server logIndex new
      rcases index new with same | ⟨-, unused⟩
      · exact different (indexed.distinct old advances.found
          (server.trans advances.evolves.server) logIndex same)
      · exact unused old (server.trans advances.evolves.server) logIndex
    intro r₁ r₂ request₁ request₂ i found₁ found₂ server logIndex₁ logIndex₂
    rcases advances.lookup found₁ with ⟨rfl, rfl⟩ | ⟨other₁, old₁⟩
    · rcases advances.lookup found₂ with ⟨rfl, -⟩ | ⟨other₂, old₂⟩
      · rfl
      · exact absurd logIndex₁ (mine other₂ old₂ server.symm logIndex₂)
    · rcases advances.lookup found₂ with ⟨rfl, rfl⟩ | ⟨-, old₂⟩
      · exact absurd logIndex₂ (mine other₁ old₁ server logIndex₁)
      · exact indexed.distinct old₁ old₂ server logIndex₁ logIndex₂
  subscribed sub := by
    rcases subs sub with old | ⟨rfl, rfl, logIndex⟩
    · obtain ⟨other, found, server, logIndex⟩ := indexed.subscribed old
      obtain ⟨other', found', evolves⟩ := advances.evolve _ _ found
      exact ⟨other', found', evolves.server.trans server, evolves.logIndex _ logIndex⟩
    · exact ⟨next, advances.self, advances.evolves.server, logIndex⟩

/-- The handlers are as they were, with the same subscriptions or fewer. -/
theorem Indexed.quiet (indexed : Indexed v base) (requests : v'.requests = v.requests)
    (subs : ∀ {s i r}, (v'.kvs s).commitSubs i = some r → (v.kvs s).commitSubs i = some r) :
    Indexed v' base where
  fresh found := indexed.fresh (requests ▸ found)
  behind found := indexed.behind (requests ▸ found)
  distinct found found' := indexed.distinct (requests ▸ found) (requests ▸ found')
  subscribed sub := requests ▸ indexed.subscribed (subs sub)

/-- The handlers stay consistent when one of them goes on. -/
theorem Handlers.advance {r : ℕ} {request next : Request n} (handlers : Handlers v base ledger)
    (advances : Advances v v' r request next)
    (subs : ∀ {s i r'}, (v'.kvs s).commitSubs i = some r' → (v.kvs s).commitSubs i = some r' ∨
      r' = r ∧ s = request.server ∧ next.logIndex = some i)
    (index : ∀ {i}, next.logIndex = some i → request.logIndex = some i ∨
      (base.length : ℤ) ≤ i ∧ ∀ {r' : ℕ} {other : Request n}, v.requests[r']? = some other →
        other.server = request.server → other.logIndex ≠ some i)
    (notified : ∀ {entry}, next.phase = .notified entry →
      Performed ledger entry ∧ next.logIndex = some entry.index) : Handlers v' base ledger := by
  have indexed := handlers.indexed.advance advances subs index
  refine ⟨indexed.fresh, indexed.behind, indexed.distinct, indexed.subscribed,
    fun found isNotified => ?_⟩
  rcases advances.lookup found with ⟨-, rfl⟩ | ⟨-, old⟩
  · exact notified isNotified
  · exact handlers.notified old isNotified

theorem Handlers.quiet (handlers : Handlers v base ledger) (requests : v'.requests = v.requests)
    (subs : ∀ {s i r}, (v'.kvs s).commitSubs i = some r → (v.kvs s).commitSubs i = some r) :
    Handlers v' base ledger := by
  have indexed := handlers.indexed.quiet requests subs
  exact ⟨indexed.fresh, indexed.behind, indexed.distinct, indexed.subscribed,
    fun found => handlers.notified (requests ▸ found)⟩

theorem Refused.evolve {r : ℕ} {request next : Request n} (refused : Refused ledger r request)
    (evolves : request.Evolves next) : Refused ledger r next := by
  obtain ⟨finished, logIndex⟩ := evolves.finished refused.finished
  exact ⟨finished, logIndex ▸ refused.foreign⟩

/-- What clients have seen still agrees when no new event is added. -/
theorem Seen.quiet (seen : Seen v base ledger) (evolve : RequestsEvolve v v')
    (length : v'.requests.length = v.requests.length) (history : v'.history = v.history) :
    Seen v' base ledger where
  received r := by rw [history, length, seen.received]
  ok answered := seen.ok (history ▸ answered)
  refused answered other := by
    obtain ⟨request, found, refused⟩ := seen.refused (history ▸ answered) other
    obtain ⟨next, found', evolves⟩ := evolve _ _ found
    exact ⟨next, found', refused.evolve evolves⟩
  realTime happened := seen.realTime (history ▸ happened)

/-- An answer agrees with the ledger when it is that of an entry or a refusal. -/
theorem Seen.answer {r : ℕ} {response : Response} (seen : Seen v base ledger)
    (evolve : RequestsEvolve v v') (length : v'.requests.length = v.requests.length)
    (history : v'.history = .answered r response :: v.history)
    (ok : ∀ {found value}, response = .ok found value → ∃ i held,
      base.length ≤ i ∧ held.command.request = r ∧ Answers ledger i held (found, value))
    (refused : (∀ found value, response ≠ .ok found value) →
      ∃ request, v'.requests[r]? = some request ∧ Refused ledger r request) :
    Seen v' base ledger where
  received r' := by
    rw [history, length, ← seen.received]
    simp
  ok answered := by
    rw [history] at answered
    rcases List.mem_cons.mp answered with new | old
    · cases new
      exact ok rfl
    · exact seen.ok old
  refused answered other := by
    rw [history] at answered
    rcases List.mem_cons.mp answered with new | old
    · cases new
      exact refused other
    · obtain ⟨request, found, refused'⟩ := seen.refused old other
      obtain ⟨next, found', evolves⟩ := evolve _ _ found
      exact ⟨next, found', refused'.evolve evolves⟩
  realTime happened := by
    rw [history] at happened
    rcases List.sublist_cons_iff.mp happened with old | ⟨rest, isRest, -⟩
    · exact seen.realTime old
    · cases isRest

/-! ### Actions of handlers -/

/-- The Raft instances are as before. -/
theorem Explains.handled (explains : Explains floor base v ledger)
    (cluster : v'.cluster = v.cluster) (evolve : RequestsEvolve v v')
    (serves : ∀ s, ∃ count, Serves ledger (v.cluster.node s) (v'.kvs s) count)
    (handlers : Handlers v' base ledger) (seen : Seen v' base ledger) :
    Explains floor base v' ledger where
  committed := cluster ▸ explains.committed
  begins := explains.begins
  sourced := (cluster ▸ explains.sourced).mono fun _ _ source => source.mono evolve
  source found := (explains.source found).mono evolve
  serves := cluster ▸ serves
  handlers := handlers
  seen := seen

theorem Request.evolves_phase (request : Request n) {phase : Phase n}
    (live : request.phase = .finished → phase = .finished) :
    request.Evolves { request with phase := phase } :=
  ⟨rfl, rfl, fun _ logIndex => logIndex, fun finished => ⟨live finished, rfl⟩⟩

theorem advances_move {r : ℕ} {request : Request n} (phase : Phase n)
    (found : v.requests[r]? = some request) (live : request.phase = .finished → phase = .finished)
    (ran : phase ≠ .received) (requests : v'.requests = (v.move r request phase).requests) :
    Advances v v' r request { request with phase := phase } :=
  ⟨found, request.evolves_phase live, requests, ran⟩

theorem advances_submit {r : ℕ} {request : Request n} (index : ℤ)
    (found : v.requests[r]? = some request) (received : request.phase = .received)
    (noIndex : request.logIndex = none)
    (requests : v'.requests =
      (v.move r { request with logIndex := some index } .submitted).requests) :
    Advances v v' r request { request with logIndex := some index, phase := .submitted } :=
  ⟨found, ⟨rfl, rfl, fun _ isIndex => (by cases noIndex.symm.trans isIndex),
    fun finished => (by cases received.symm.trans finished)⟩, requests, by simp⟩

theorem receive_evolve (server : Fin n) (operation : Operation) :
    RequestsEvolve v (v.receive server operation) := by
  intro r request found
  have within := (List.getElem?_eq_some_iff.mp found).1
  refine ⟨request, ?_, rfl, rfl, fun _ logIndex => logIndex, fun finished => ⟨finished, rfl⟩⟩
  simp only [Service.receive]
  rwa [List.getElem?_append_left within]

theorem receive_lookup {server : Fin n} {operation : Operation} {r : ℕ} {request : Request n}
    (found : (v.receive server operation).requests[r]? = some request) :
    v.requests[r]? = some request ∨ request.phase = .received ∧ request.logIndex = none := by
  simp only [Service.receive] at found
  rcases Nat.lt_or_ge r v.requests.length with old | new
  · exact Or.inl (List.getElem?_append_left old ▸ found)
  · rw [List.getElem?_append_right new, List.getElem?_singleton] at found
    split_ifs at found
    cases found
    exact Or.inr ⟨rfl, rfl⟩

theorem Indexed.receive (indexed : Indexed v base) (server : Fin n) (operation : Operation) :
    Indexed (v.receive server operation) base := by
  refine ⟨fun found received => ?_, fun found logIndex => ?_,
    fun found found' server' logIndex logIndex' => ?_, fun sub => ?_⟩
  · rcases receive_lookup found with old | ⟨-, none⟩
    · exact indexed.fresh old received
    · exact none
  · rcases receive_lookup found with old | ⟨-, none⟩
    · exact indexed.behind old logIndex
    · cases none.symm.trans logIndex
  · rcases receive_lookup found with old | ⟨-, none⟩
    · rcases receive_lookup found' with old' | ⟨-, none⟩
      · exact indexed.distinct old old' server' logIndex logIndex'
      · cases none.symm.trans logIndex'
    · cases none.symm.trans logIndex
  · obtain ⟨request, found, rest⟩ := indexed.subscribed sub
    obtain ⟨next, found', evolves⟩ := receive_evolve server operation _ _ found
    exact ⟨next, found', evolves.server.trans rest.1, evolves.logIndex _ rest.2⟩

theorem Explains.receive (explains : Explains floor base v ledger) (server : Fin n)
    (operation : Operation) : Explains floor base (v.receive server operation) ledger := by
  have evolve : RequestsEvolve v (v.receive server operation) := receive_evolve server operation
  have indexed := explains.handlers.indexed.receive server operation
  refine explains.handled rfl evolve explains.serves
    ⟨indexed.fresh, indexed.behind, indexed.distinct, indexed.subscribed,
      fun found notified => ?_⟩
    ⟨fun r => ?_, fun answered => ?_, fun answered other => ?_, ?_⟩
  · rcases receive_lookup found with old | ⟨received, -⟩
    · exact explains.handlers.notified old notified
    · cases received.symm.trans notified
  · simp only [Service.receive, List.mem_cons, ServiceEvent.received.injEq, List.length_append,
      List.length_singleton, explains.seen.received r]
    omega
  · exact explains.seen.ok (by simpa [Service.receive] using answered)
  · obtain ⟨request, found, refused⟩ :=
      explains.seen.refused (by simpa [Service.receive] using answered) other
    obtain ⟨next, found', evolves⟩ := evolve _ _ found
    exact ⟨next, found', refused.evolve evolves⟩
  · intro r r' found value i i' held held' happened behind there isRequest behind' there' isRequest'
    rcases List.sublist_cons_iff.mp happened with old | ⟨rest, isRest, -⟩
    · exact explains.seen.realTime old behind there isRequest behind' there' isRequest'
    · -- No entry is the command of a request that has just been received.
      obtain ⟨request, known, -⟩ := (explains.source there').behind behind'
      have within := (List.getElem?_eq_some_iff.mp known).1
      injection isRest with isNew
      injection isNew with isNew
      omega

/-- A server's subscriptions change, or what its updater holds. -/
theorem serves_update (serves : ∀ s, ∃ count, Serves ledger (v.cluster.node s) (v.kvs s) count)
    {server : Fin n} {kvs : KVService n}
    (mine : ∀ count, Serves ledger (v.cluster.node server) (v.kvs server) count →
      Serves ledger (v.cluster.node server) kvs count) (s : Fin n) :
    ∃ count, Serves ledger (v.cluster.node s) (Function.update v.kvs server kvs s) count := by
  by_cases self : s = server
  · subst self
    rw [Function.update_self]
    exact (serves s).imp mine
  · rw [Function.update_of_ne self]
    exact serves s

/-- A handler goes on without an answer, and keeps its index. -/
theorem Explains.moved {r : ℕ} {request : Request n} (explains : Explains floor base v ledger)
    (phase : Phase n) (found : v.requests[r]? = some request)
    (live : request.phase = .finished → phase = .finished) (ran : phase ≠ .received)
    (cluster : v'.cluster = v.cluster)
    (requests : v'.requests = (v.move r request phase).requests) (history : v'.history = v.history)
    (serves : ∀ s, ∃ count, Serves ledger (v.cluster.node s) (v'.kvs s) count)
    (subs : ∀ {s i r'}, (v'.kvs s).commitSubs i = some r' → (v.kvs s).commitSubs i = some r' ∨
      r' = r ∧ s = request.server ∧ request.logIndex = some i)
    (notified : ∀ {entry}, phase = .notified entry →
      Performed ledger entry ∧ request.logIndex = some entry.index) :
    Explains floor base v' ledger := by
  have advances := advances_move phase found live ran requests
  exact explains.handled cluster advances.evolve serves
    (explains.handlers.advance advances subs Or.inl notified)
    (explains.seen.quiet advances.evolve (by rw [advances.requests, List.length_set]) history)

theorem Explains.subscribe {r : ℕ} {request : Request n} (explains : Explains floor base v ledger)
    (found : v.requests[r]? = some request) (submitted : request.phase = .submitted)
    (taken : v.subscribe r request = some v') : Explains floor base v' ledger := by
  obtain ⟨logIndex, isIndex, rfl⟩ := Option.map_eq_some_iff.mp taken
  have live : ∀ {phase : Phase n}, request.phase = .finished → phase = .finished :=
    fun finished => by cases submitted.symm.trans finished
  dsimp only
  split
  · -- The handler panics.
    exact explains.moved .finished found live (by simp) rfl rfl rfl explains.serves Or.inl
      fun notified => by cases notified
  · refine explains.moved .subscribed found live (by simp) rfl rfl rfl
      (serves_update explains.serves fun count serves =>
        ⟨serves.applied, serves.within, serves.ds, serves.ready, serves.executed⟩)
      (fun {s i r'} sub => ?_) fun notified => by cases notified
    rw [commitSubs_update rfl] at sub
    split_ifs at sub with here
    · exact Or.inr ⟨(Option.some_inj.mp sub).symm, here.1, here.2 ▸ isIndex⟩
    · exact Or.inl sub

/-- The updater of a server has gone on. -/
theorem serves_popped (serves : ∀ s, ∃ count, Serves ledger (v.cluster.node s) (v.kvs s) count)
    (server : Fin n) (entry : CommitEntry (Command n)) :
    ∀ s, ∃ count, Serves ledger (v.cluster.node s) ((v.popped server entry).kvs s) count :=
  serves_update serves fun count serves =>
    ⟨serves.applied, serves.within, serves.ds, serves.ready, fun _ absurd => by cases absurd⟩

theorem Explains.pop (explains : Explains floor base v ledger) (server : Fin n)
    (entry : CommitEntry (Command n)) : Explains floor base (v.popped server entry) ledger :=
  explains.handled rfl (requestsEvolve_of_eq rfl) (serves_popped explains.serves server entry)
    (explains.handlers.quiet rfl commitSubs_of_popped)
    (explains.seen.quiet (requestsEvolve_of_eq rfl) rfl rfl)

theorem Explains.notify {server : Fin n} {entry : CommitEntry (Command n)} {r : ℕ}
    {request : Request n} (explains : Explains floor base v ledger)
    (executed : (v.kvs server).executed = some entry)
    (sub : (v.kvs server).commitSubs entry.index = some r) (found : v.requests[r]? = some request)
    (subscribed : request.phase = .subscribed) :
    Explains floor base ((v.popped server entry).move r request (.notified entry)) ledger := by
  obtain ⟨_, serves⟩ := explains.serves server
  obtain ⟨other, found', -, logIndex⟩ := explains.handlers.subscribed sub
  obtain rfl := Option.some.inj (found.symm.trans found')
  refine explains.moved (.notified entry) found
    (fun finished => by cases subscribed.symm.trans finished) (by simp) rfl rfl rfl
    (serves_popped explains.serves server entry) (fun sub => Or.inl (commitSubs_of_popped sub))
    fun notified => ?_
  cases notified
  exact ⟨serves.executed entry executed, logIndex⟩

theorem Explains.answer {r : ℕ} {request : Request n} {entry : CommitEntry (Command n)}
    (explains : Explains floor base v ledger) (found : v.requests[r]? = some request)
    (notified : request.phase = .notified entry) :
    Explains floor base (v.respond r request
      (if entry.command.id = request.server then
        .ok entry.command.resultFound entry.command.resultValue
      else .failedCommit)) ledger := by
  have advances : Advances v (v.respond r request (if entry.command.id = request.server then
      .ok entry.command.resultFound entry.command.resultValue else .failedCommit)) r request
      { request with phase := .finished } :=
    advances_move .finished found (fun _ => rfl) (by simp) rfl
  obtain ⟨⟨i, held, index, id, answers⟩, logIndex⟩ := explains.handlers.notified found notified
  rw [index] at logIndex
  have behind : base.length ≤ i := by
    have reached := explains.handlers.behind found logIndex
    omega
  obtain ⟨owner, known, ownIndex, command⟩ := (explains.source answers.1).behind behind
  have idOwner : entry.command.id = owner.server := by
    rw [id, command, Request.command_id]
  refine explains.handled rfl advances.evolve explains.serves
    (explains.handlers.advance advances Or.inl Or.inl fun notified => by cases notified)
    (explains.seen.answer advances.evolve (List.length_set ..) rfl ?_ ?_)
  · intro found' value isOk
    split_ifs at isOk with own
    cases isOk
    -- The index was given to one request of the server only.
    have same := explains.handlers.distinct known found (idOwner.symm.trans own) ownIndex logIndex
    exact ⟨i, held, behind, same, answers⟩
  · intro other
    split_ifs at other with own
    · exact absurd rfl (other _ _)
    · refine ⟨_, advances.self, rfl, Or.inr ⟨i, held, logIndex, answers.1, fun mine => own ?_⟩⟩
      rw [mine, found, Option.some_inj] at known
      rw [idOwner, known]

theorem Explains.giveUp {r : ℕ} {request : Request n} (explains : Explains floor base v ledger)
    (found : v.requests[r]? = some request) :
    Explains floor base (v.move r request .finished) ledger :=
  explains.moved .finished found (fun _ => rfl) (by simp) rfl rfl rfl explains.serves Or.inl
    fun notified => by cases notified

/-! ### Steps of the Raft instances -/

/-- Commitment is sound in a step that avoids the hazards. -/
structure SoundStep (c : Cluster n (Command n)) (action : Action n (Command n)) : Prop where
  prompt : c.promptElections action = true
  truthful : c.truthfulAcks action = true
  onTime : c.lateRead action = false
  saved : c.unsavedRestart action = false

/-- The Raft instances take a step. -/
theorem Explains.stepped {action : Action n (Command n)} (explains : Explains floor base v ledger)
    (sound : SoundStep v.cluster action) (taken : v.cluster.step action = some v'.cluster)
    (evolve : RequestsEvolve v v')
    (appended : ∀ s command, action = .submit s command → (v.cluster.node s).state = .leader →
      Source v' base (v.cluster.node s).log.length ⟨command, (v.cluster.node s).currentTerm⟩)
    (serves : ∀ s, ∃ count, Serves ledger (v'.cluster.node s) (v'.kvs s) count)
    (handlers : Handlers v' base ledger) (seen : Seen v' base ledger) :
    Explains floor base v' ledger where
  committed := by
    obtain ⟨a, committed, chosen⟩ := explains.committed
    obtain ⟨_, a', steps, committed'⟩ := committed.step sound.prompt sound.truthful sound.onTime
      (fun s rf restarts made => by
        obtain ⟨-, term, vote⟩ := restart_saved (restarts ▸ sound.saved) made
        exact ⟨term, vote, (Raft.make_saved made).2.2.1.trans (explains.sourced.saved s)⟩) taken
    have grows := (committed.invariant.steps steps).2
    refine ⟨a', committed', chosen.imp_right fun chosen => ?_⟩
    exact chosen.imp fun _ chosen => chosen.imp fun _ ⟨chosen, inPart⟩ =>
      ⟨chosen.mono grows, inPart⟩
  begins := explains.begins
  sourced := (explains.sourced.mono fun _ _ source => source.mono evolve).step appended taken
  source found := (explains.source found).mono evolve
  serves := serves
  handlers := handlers
  seen := seen

theorem Serves.aside {rf next : Raft n (Command n)} {kvs : KVService n} {count : ℕ}
    (serves : Serves ledger rf kvs count) (aside : Raft.Aside rf next) :
    Serves ledger next kvs count where
  applied := by
    rw [aside.lastApplied, aside.readyEntries]
    exact serves.applied
  within := by
    rw [aside.readyEntries]
    exact serves.within
  ds := serves.ds
  ready := by
    rw [aside.readyEntries]
    exact serves.ready
  executed := serves.executed

/-- The next batch goes on where the last one ended. -/
theorem Serves.takes {rf next : Raft n (Command n)} {kvs : KVService n} {count : ℕ}
    (serves : Serves ledger rf kvs count) (taken : rf.takeReady = some next)
    (reaches : rf.lastApplied < rf.commitIndex →
      rf.log.take (rf.commitIndex + 1).toNat <+: ledger) : Serves ledger next kvs count := by
  have idle := Raft.takeReady_idle taken
  have applied := serves.applied
  rw [idle, List.length_nil] at applied
  rcases Raft.takeReady_cases taken with ⟨-, rfl⟩ | ⟨more, within, rfl⟩
  · exact ⟨serves.applied, serves.within, serves.ds, serves.ready, serves.executed⟩
  · have inLine := reaches more
    have start : (rf.lastApplied + 1).toNat = count := by omega
    have length : (rf.log.take (rf.commitIndex + 1).toNat).length =
        (rf.commitIndex + 1).toNat := by
      rw [List.length_take]
      omega
    have batch := Raft.committedBatch_length within
    rw [start] at batch
    have far := inLine.length_le
    refine ⟨?_, ?_, serves.ds, fun j entry found => ?_, serves.executed⟩
    · dsimp only
      omega
    · dsimp only
      omega
    · have inBatch := (List.getElem?_eq_some_iff.mp found).1
      dsimp only at found inBatch
      obtain ⟨held, inTake, command, index⟩ := Raft.committedBatch_spec found
      rw [start] at inTake
      exact ⟨held, (getElem?_of_part inLine (by omega)).trans inTake, command, by omega⟩

/-- The updater performs the first entry of the batch. -/
theorem Serves.executes {rf next : Raft n (Command n)} {kvs : KVService n} {count : ℕ}
    {entry : CommitEntry (Command n)} (serves : Serves ledger rf kvs count)
    (sent : rf.sendReady = some (next, entry)) :
    Serves ledger next { kvs with
      ds := (KVService.execute kvs.ds entry.command).1
      executed := some { entry with command := (KVService.execute kvs.ds entry.command).2 } }
      (count + 1) := by
  obtain ⟨rest, batch, rfl⟩ := Raft.sendReady_cases sent
  obtain ⟨held, found, command, index⟩ := serves.ready 0 entry (by rw [batch]; rfl)
  rw [Nat.add_zero] at found index
  have applied := serves.applied
  have within := serves.within
  rw [batch, List.length_cons] at applied within
  rw [KVService.execute_eq, command]
  refine ⟨by dsimp only; omega, by dsimp only; omega, ?_, fun j later there => ?_, ?_⟩
  · rw [List.take_add_one, found, Option.toList_some, replay_concat, ← serves.ds]
  · obtain ⟨held', found', rest'⟩ := serves.ready (j + 1) later (by rw [batch]; exact there)
    rw [Nat.add_assoc, Nat.add_comm 1 j]
    exact ⟨held', found', rest'⟩
  · rintro _ ⟨⟩
    exact ⟨count, held, index, rfl, found, by rw [serves.ds]⟩

/-- What a server has performed stays performed when it takes its turn. -/
theorem serves_step {c' : Cluster n (Command n)} {action : Action n (Command n)}
    (serves : ∀ s, ∃ count, Serves ledger (v.cluster.node s) (v.kvs s) count)
    (noRestart : v.cluster.restartFree action = true) (noSend : ∀ s, action ≠ .sendReady s)
    (reaches : ∀ s, action = .takeReady s →
      (v.cluster.node s).lastApplied < (v.cluster.node s).commitIndex →
        (v.cluster.node s).log.take ((v.cluster.node s).commitIndex + 1).toNat <+: ledger)
    (taken : v.cluster.step action = some c') :
    ∀ s, ∃ count, Serves ledger (c'.node s) (v.kvs s) count := by
  obtain ⟨s, next, events, turn, nodes, -⟩ := step_turn taken
  refine forall_turned (P := fun p rf => ∃ count, Serves ledger rf (v.kvs p) count) nodes ?_
    fun p _ => serves p
  refine (serves s).imp fun count serves => ?_
  rcases turn.serves noRestart with ⟨aside, -⟩ | ⟨takes, -, ready⟩ | ⟨entry, sends, -⟩
  · exact serves.aside aside
  · exact serves.takes ready (reaches s takes)
  · exact absurd sends (noSend s)

/-- A leader that uses no index twice gives a request an index of its own. -/
theorem index_unused {r r' : ℕ} {request other : Request n} (found : v.requests[r]? = some request)
    (leads : (v.cluster.node request.server).state = .leader)
    (unused : v.reusedIndex (.submit r) = false) (found' : v.requests[r']? = some other)
    (server : other.server = request.server) :
    other.logIndex ≠ some ((v.cluster.node request.server).log.length : ℤ) := by
  intro logIndex
  simp only [Service.reusedIndex, found, leads, decide_true, Bool.true_and] at unused
  rw [List.any_eq_false] at unused
  exact unused other (List.mem_of_getElem? found') (by simp [server, logIndex])

/-- The command of a request is the entry at the index that the request is given. -/
theorem source_submit {r : ℕ} {request : Request n} {s : Fin n} {command : Command n}
    (advances : Advances v v' r request { request with
      logIndex := some ((v.cluster.node request.server).log.length : ℤ), phase := .submitted })
    (behind : base.length ≤ (v.cluster.node request.server).log.length)
    (submits : Action.submit request.server (request.command r) = .submit s command) :
    Source v' base (v.cluster.node s).log.length ⟨command, (v.cluster.node s).currentTerm⟩ := by
  injection submits with isServer isCommand
  subst isServer isCommand
  refine .request behind { request with
    logIndex := some ((v.cluster.node request.server).log.length : ℤ)
    phase := .submitted } ?_ rfl ?_
  · dsimp only
    rw [Request.command_request]
    exact advances.self
  · dsimp only
    rw [Request.command_request]
    exact (advances.evolves.command r).symm

theorem Explains.submit {r : ℕ} {request : Request n} (explains : Explains floor base v ledger)
    (found : v.requests[r]? = some request) (received : request.phase = .received)
    (sound : SoundStep v.cluster (.submit request.server (request.command r)))
    (unused : v.reusedIndex (.submit r) = false) (taken : v.submit r request = some v') :
    Explains floor base v' ledger := by
  obtain ⟨⟨next, index⟩, submitted, rfl⟩ := Option.map_eq_some_iff.mp taken
  have noIndex := explains.handlers.fresh found received
  have live : ∀ {phase : Phase n}, request.phase = .finished → phase = .finished :=
    fun finished => by cases received.symm.trans finished
  have stepped : v.cluster.step (.submit request.server (request.command r)) =
      some (v.cluster.act request.server next [] []) := by
    simp only [Cluster.step, submitted, Option.map_some]
  have serves := serves_step explains.serves rfl (fun _ => by simp) (fun _ => by simp) stepped
  rcases Raft.submit_cases submitted with ⟨rfl, -, rfl⟩ | ⟨-, leads, rfl⟩
  · -- The server does not lead.
    dsimp only
    rw [if_pos (by omega), act_self]
    have advances : Advances v (v.respond r request .notLeader) r request
        { request with phase := .finished } :=
      advances_move .finished found (fun _ => rfl) (by simp) rfl
    refine explains.handled rfl advances.evolve explains.serves
      (explains.handlers.advance advances Or.inl Or.inl fun notified => by cases notified)
      (explains.seen.answer advances.evolve (List.length_set ..) rfl (fun isOk => by cases isOk) ?_)
    exact fun _ => ⟨_, advances.self, rfl, Or.inl noIndex⟩
  · -- The command is the next entry of the leader's log.
    dsimp only
    rw [if_neg (by omega)]
    generalize isLater :
      Service.move { v with cluster := v.cluster.act request.server next [] [] } r
        { request with logIndex := some ((v.cluster.node request.server).log.length : ℤ) }
        .submitted = v' at *
    have advances : Advances v v' r request { request with
        logIndex := some ((v.cluster.node request.server).log.length : ℤ)
        phase := .submitted } := by
      subst isLater
      exact advances_submit _ found received noIndex rfl
    have behind := explains.sourced.long request.server
    subst isLater
    refine explains.stepped sound stepped advances.evolve
      (fun s command submits _ => source_submit advances behind submits) serves
      (explains.handlers.advance advances Or.inl (fun isIndex => ?_)
        fun notified => by cases notified)
      (explains.seen.quiet advances.evolve (List.length_set ..) rfl)
    cases isIndex
    exact Or.inr ⟨by omega, fun found' => index_unused found leads unused found'⟩

theorem Explains.execute {server : Fin n} {next : Raft n (Command n)}
    {entry : CommitEntry (Command n)} (explains : Explains floor base v ledger)
    (sound : SoundStep v.cluster (.sendReady server))
    (sent : (v.cluster.node server).sendReady = some (next, entry)) :
    Explains floor base (v.performed server next entry) ledger := by
  have stepped : v.cluster.step (.sendReady server) =
      some (v.cluster.act server next [] [.delivered server entry]) := by
    simp only [Cluster.step, sent, Option.map_some]
  refine explains.stepped sound stepped (requestsEvolve_of_eq rfl)
    (fun s command submits => by cases submits) (fun s => ?_)
    (explains.handlers.quiet rfl fun {s i r} sub => performed_commitSubs v _ _ _ s ▸ sub)
    (explains.seen.quiet (requestsEvolve_of_eq rfl) rfl rfl)
  by_cases self : s = server
  · subst self
    simp only [Service.performed, act, Function.update_self]
    obtain ⟨count, serves⟩ := explains.serves s
    exact ⟨count + 1, serves.executes sent⟩
  · simp only [Service.performed, act, Function.update_of_ne self]
    exact explains.serves s

/-! ### Servers that are created again -/

theorem renew_lookup {server : Fin n} {cluster : Cluster n (Command n)} {r : ℕ} {next : Request n}
    (found : (v.renew server cluster).requests[r]? = some next) : ∃ request,
      v.requests[r]? = some request ∧ next.server = request.server ∧
      next.logIndex = request.logIndex ∧
      (next.phase = .finished ∨ next.phase = request.phase) := by
  simp only [Service.renew, List.getElem?_map] at found
  obtain ⟨request, present, rfl⟩ := Option.map_eq_some_iff.mp found
  refine ⟨request, present, ?_⟩
  split_ifs
  · exact ⟨rfl, rfl, Or.inl rfl⟩
  · exact ⟨rfl, rfl, Or.inr rfl⟩

theorem renew_evolve (server : Fin n) (cluster : Cluster n (Command n)) :
    RequestsEvolve v (v.renew server cluster) := by
  intro r request found
  refine ⟨if request.server = server then { request with phase := .finished } else request, ?_, ?_⟩
  · simp only [Service.renew, List.getElem?_map, found, Option.map_some]
  · split_ifs
    · exact request.evolves_phase fun _ => rfl
    · exact ⟨rfl, rfl, fun _ isIndex => isIndex, fun finished => ⟨finished, rfl⟩⟩

theorem Indexed.restart (indexed : Indexed v base) (server : Fin n)
    (cluster : Cluster n (Command n)) : Indexed (v.renew server cluster) base := by
  refine ⟨fun found received => ?_, fun found logIndex => ?_,
    fun found found' server logIndex logIndex' => ?_, fun {s i r} sub => ?_⟩
  · obtain ⟨request, present, -, logIndex, finished | same⟩ := renew_lookup found
    · cases finished.symm.trans received
    · exact logIndex.trans (indexed.fresh present (same.symm.trans received))
  · obtain ⟨request, present, -, same, -⟩ := renew_lookup found
    exact indexed.behind present (same.symm.trans logIndex)
  · obtain ⟨request, present, server₁, same, -⟩ := renew_lookup found
    obtain ⟨request', present', server₂, same', -⟩ := renew_lookup found'
    exact indexed.distinct present present' (server₁.symm.trans (server.trans server₂))
      (same.symm.trans logIndex) (same'.symm.trans logIndex')
  · have old : (v.kvs s).commitSubs i = some r := by
      by_cases self : s = server
      · subst self
        simp only [Service.renew, Function.update_self] at sub
        cases sub
      · simpa only [Service.renew, Function.update_of_ne self] using sub
    obtain ⟨request, present, isServer, logIndex⟩ := indexed.subscribed old
    obtain ⟨request', found, evolves⟩ := renew_evolve server cluster _ _ present
    exact ⟨request', found, evolves.server.trans isServer, evolves.logIndex _ logIndex⟩

/-- A new instance performs the ledger from its beginning. -/
theorem serves_made {s : Fin n} {storage : Storage n (Command n)} {next : Raft n (Command n)}
    (made : Raft.make s storage = some next) : Serves ledger next KVService.new 0 := by
  obtain ⟨-, -, -, lastApplied, -, readyEntries⟩ := Raft.make_cases made
  refine ⟨?_, ?_, ?_, fun j entry found => ?_, fun _ absurd => by cases absurd⟩
  · rw [lastApplied, readyEntries]
    rfl
  · rw [readyEntries]
    exact Nat.zero_le _
  · rw [List.take_zero]
    rfl
  · rw [readyEntries] at found
    cases found

theorem Explains.restart {server : Fin n} {cluster : Cluster n (Command n)}
    (explains : Explains floor base v ledger) (sound : SoundStep v.cluster (.restart server))
    (taken : v.cluster.step (.restart server) = some cluster) :
    Explains floor base (v.renew server cluster) ledger := by
  have evolve := renew_evolve (v := v) server cluster
  have indexed := explains.handlers.indexed.restart server cluster
  have stepped := taken
  simp only [Cluster.step, Cluster.restart] at taken
  split_ifs at taken with closed
  obtain ⟨next, made, rfl⟩ := Option.map_eq_some_iff.mp taken
  refine explains.stepped sound stepped evolve (fun s command submits => by cases submits)
    (fun s => ?_)
    ⟨indexed.fresh, indexed.behind, indexed.distinct, indexed.subscribed,
      fun found notified => ?_⟩
    (explains.seen.quiet evolve (List.length_map ..) rfl)
  · by_cases self : s = server
    · subst self
      simp only [Service.renew, act, Function.update_self]
      exact ⟨0, serves_made made⟩
    · simp only [Service.renew, act, Function.update_of_ne self]
      exact explains.serves s
  · obtain ⟨request, present, -, logIndex, finished | same⟩ := renew_lookup found
    · cases finished.symm.trans notified
    · rw [logIndex]
      exact explains.handlers.notified present (same.symm.trans notified)

/-! ### All actions -/

theorem safe_spec {action : ServiceAction n} (safe : v.safe action = true) :
    (∀ raft, v.raftAction action = some raft → SoundStep v.cluster raft) ∧
      v.reusedIndex action = false := by
  unfold Service.safe Service.sound at safe
  rw [Bool.and_eq_true_iff, Bool.not_eq_true'] at safe
  refine ⟨fun raft isRaft => ?_, safe.2⟩
  rw [isRaft] at safe
  obtain ⟨⟨⟨prompt, truthful⟩, onTime⟩, saved⟩ : ((v.cluster.promptElections raft = true ∧
      v.cluster.truthfulAcks raft = true) ∧ v.cluster.lateRead raft = false) ∧
        v.cluster.unsavedRestart raft = false := by
    simpa only [Bool.and_eq_true, Bool.not_eq_true'] using safe.1
  exact ⟨prompt, truthful, onTime, saved⟩

/-- An action of the Raft instances that the service takes over as it is. -/
theorem Explains.raft {action : Action n (Command n)} {cluster : Cluster n (Command n)}
    (explains : Explains floor base v ledger) (sound : SoundStep v.cluster action)
    (noSubmit : ∀ s command, action ≠ .submit s command)
    (noRestart : v.cluster.restartFree action = true) (noSend : ∀ s, action ≠ .sendReady s)
    (taken : v.cluster.step action = some cluster) :
    ∃ longer, Explains floor base { v with cluster := cluster } longer := by
  -- The ledger first grows by what is about to be performed.
  obtain ⟨longer, explains, reaches⟩ : ∃ longer, Explains floor base v longer ∧
      ∀ s, action = .takeReady s →
        (v.cluster.node s).lastApplied < (v.cluster.node s).commitIndex →
          (v.cluster.node s).log.take ((v.cluster.node s).commitIndex + 1).toNat <+: longer := by
    by_cases takes : ∃ s, action = .takeReady s ∧
      (v.cluster.node s).lastApplied < (v.cluster.node s).commitIndex
    · obtain ⟨s, isTake, more⟩ := takes
      obtain ⟨count, serves⟩ := explains.serves s
      have applied := serves.applied
      obtain ⟨longer, reaches, explains⟩ := explains.extend s (by omega)
      refine ⟨longer, explains, fun p same _ => ?_⟩
      rw [isTake] at same
      injection same with same
      exact same ▸ reaches
    · exact ⟨ledger, explains, fun s isTake more => absurd ⟨s, isTake, more⟩ takes⟩
  have serves := serves_step explains.serves noRestart noSend reaches taken
  refine ⟨longer, explains.stepped sound taken (requestsEvolve_of_eq rfl)
    (fun s command submits => absurd submits (noSubmit s command)) serves
    (explains.handlers.quiet rfl fun sub => sub)
    (explains.seen.quiet (requestsEvolve_of_eq rfl) rfl rfl)⟩

theorem Explains.step {action : ServiceAction n} (explains : Explains floor base v ledger)
    (safe : v.safe action = true) (taken : v.step action = some v') :
    ∃ longer, Explains floor base v' longer := by
  obtain ⟨sound, unused⟩ := safe_spec safe
  cases step_moves taken with
  | receives server operation => exact ⟨ledger, explains.receive server operation⟩
  | submits found received taken =>
    exact ⟨ledger, explains.submit found received
      (sound _ (by simp only [Service.raftAction, found, Option.map_some])) unused taken⟩
  | subscribes found submitted taken => exact ⟨ledger, explains.subscribe found submitted taken⟩
  | performs sent => exact ⟨ledger, explains.execute (sound _ rfl) sent⟩
  | pops executed nobody => exact ⟨ledger, explains.pop _ _⟩
  | notifies executed sub found subscribed =>
    exact ⟨ledger, explains.notify executed sub found subscribed⟩
  | answers found notified => exact ⟨ledger, explains.answer found notified⟩
  | givesUp found waits => exact ⟨ledger, explains.giveUp found⟩
  | restarts stepped => exact ⟨ledger, explains.restart (sound _ rfl) stepped⟩
  | turns noRestart noSubmit noSend stepped =>
    exact explains.raft (sound _ rfl) noSubmit noRestart noSend stepped

end RaftInMotion
