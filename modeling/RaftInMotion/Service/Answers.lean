/-
This file settles whose entry a handler answers with. The check of `entryCmd.Id` in `handlePut` and
`handleGet` tells the commands of one server from those of the others, and not from each other. An
entry keeps its index wherever it goes, so the check is enough as long as no server gives an index
to two requests, whatever else happens in the run.
-/

import RaftInMotion.Service.Subscriptions

namespace RaftInMotion

open Cluster Execution

variable {n : Nat} {v v' : Service n} {base : List (LogEntry (Command n))}
  {action : ServiceAction n}

/-! ### Entries on their way -/

/-- The entry is a log entry with its index, and possibly with a result. -/
def Carried (v : Service n) (base : List (LogEntry (Command n))) (entry : CommitEntry (Command n)) :
    Prop :=
  ∃ (i : ℕ) (held : LogEntry (Command n)), Source v base i held ∧ entry.index = i ∧
    ∃ keyFound value, entry.command =
      { held.command with resultFound := keyFound, resultValue := value }

theorem Carried.mono {entry : CommitEntry (Command n)} (carried : Carried v base entry)
    (evolve : RequestsEvolve v v') : Carried v' base entry := by
  obtain ⟨i, held, source, rest⟩ := carried
  exact ⟨i, held, source.mono evolve, rest⟩

/-- Everything on its way to a handler is a log entry with its index. -/
structure Traced (base : List (LogEntry (Command n))) (v : Service n) : Prop where
  indexed : Indexed v base
  sourced : Sourced (Source v base) base.length v.cluster
  applied : ∀ s, -1 ≤ (v.cluster.node s).lastApplied
  ready : ∀ s, ∀ entry ∈ (v.cluster.node s).readyEntries, Carried v base entry
  executed : ∀ {s : Fin n} {entry : CommitEntry (Command n)}, (v.kvs s).executed = some entry →
    Carried v base entry
  notified : ∀ {r : ℕ} {request : Request n} {entry : CommitEntry (Command n)},
    v.requests[r]? = some request → request.phase = .notified entry →
    Carried v base entry ∧ request.logIndex = some entry.index

theorem traced_start (preload : Option (Preload (Command n))) :
    Traced ((preload.map Preload.log).getD []) (Service.start n preload) where
  indexed := ⟨nofun, nofun, nofun, nofun⟩
  sourced := sourced_start preload fun _ _ held => .start held
  applied s := by cases preload <;> exact le_rfl
  ready s := by cases preload <;> exact nofun
  executed := nofun
  notified := nofun

/-! ### Actions of handlers -/

/-- The Raft instances are as before, and no updater has performed more. -/
theorem Traced.handled (traced : Traced base v) (cluster : v'.cluster = v.cluster)
    (evolve : RequestsEvolve v v') (indexed : Indexed v' base)
    (executed : ∀ {s entry}, (v'.kvs s).executed = some entry → (v.kvs s).executed = some entry)
    (notified : ∀ {r : ℕ} {request : Request n} {entry : CommitEntry (Command n)},
      v'.requests[r]? = some request → request.phase = .notified entry →
      Carried v base entry ∧ request.logIndex = some entry.index) : Traced base v' where
  indexed := indexed
  sourced := cluster ▸ traced.sourced.mono fun _ _ source => source.mono evolve
  applied := cluster ▸ traced.applied
  ready s entry member := (traced.ready s entry (cluster ▸ member)).mono evolve
  executed isExecuted := (traced.executed (executed isExecuted)).mono evolve
  notified found isNotified := (notified found isNotified).imp_left fun carried =>
    carried.mono evolve

/-- A handler goes on. -/
theorem Traced.moved {r : ℕ} {request next : Request n} (traced : Traced base v)
    (advances : Advances v v' r request next) (cluster : v'.cluster = v.cluster)
    (executed : ∀ {s entry}, (v'.kvs s).executed = some entry → (v.kvs s).executed = some entry)
    (subs : ∀ {s i r'}, (v'.kvs s).commitSubs i = some r' → (v.kvs s).commitSubs i = some r' ∨
      r' = r ∧ s = request.server ∧ next.logIndex = some i)
    (index : next.logIndex = request.logIndex)
    (notified : ∀ {entry}, next.phase = .notified entry →
      Carried v base entry ∧ next.logIndex = some entry.index) : Traced base v' := by
  refine traced.handled cluster advances.evolve
    (traced.indexed.advance advances subs fun isIndex => Or.inl (index.symm.trans isIndex))
    executed fun found isNotified => ?_
  rcases advances.lookup found with ⟨-, rfl⟩ | ⟨-, old⟩
  · exact notified isNotified
  · exact traced.notified old isNotified

/-- A handler ends. -/
theorem Traced.ends {r : ℕ} {request : Request n} (traced : Traced base v)
    (found : v.requests[r]? = some request)
    (requests : v'.requests = (v.move r request .finished).requests) (kvs : v'.kvs = v.kvs)
    (cluster : v'.cluster = v.cluster) : Traced base v' :=
  traced.moved (advances_move .finished found (fun _ => rfl) (by simp) requests) cluster
    (fun isExecuted => kvs ▸ isExecuted) (fun sub => Or.inl (kvs ▸ sub)) rfl nofun

theorem Traced.receive (traced : Traced base v) (server : Fin n) (operation : Operation) :
    Traced base (v.receive server operation) := by
  refine traced.handled rfl (receive_evolve server operation)
    (traced.indexed.receive server operation) (fun isExecuted => isExecuted)
    fun found isNotified => ?_
  rcases receive_lookup found with old | ⟨received, -⟩
  · exact traced.notified old isNotified
  · cases received.symm.trans isNotified

theorem Traced.subscribe {r : ℕ} {request : Request n} (traced : Traced base v)
    (found : v.requests[r]? = some request) (submitted : request.phase = .submitted)
    (taken : v.subscribe r request = some v') : Traced base v' := by
  obtain ⟨i, isIndex, rfl⟩ := Option.map_eq_some_iff.mp taken
  dsimp only
  split
  · exact traced.ends found rfl rfl rfl
  · refine traced.moved (advances_move .subscribed found
        (fun finished => by cases submitted.symm.trans finished) (by simp) rfl) rfl
      (fun {s entry} isExecuted => ?_) (fun {s j r'} sub => ?_) rfl nofun
    · by_cases self : s = request.server
      · subst self
        simpa only [Function.update_self] using isExecuted
      · simpa only [Function.update_of_ne self] using isExecuted
    · rw [commitSubs_update rfl] at sub
      split_ifs at sub with here
      · exact Or.inr ⟨(Option.some_inj.mp sub).symm, here.1, here.2 ▸ isIndex⟩
      · exact Or.inl sub

theorem Traced.pop (traced : Traced base v) (server : Fin n)
    (entry : CommitEntry (Command n)) : Traced base (v.popped server entry) :=
  traced.handled rfl (requestsEvolve_of_eq rfl) (traced.indexed.quiet rfl commitSubs_of_popped)
    executed_of_popped traced.notified

theorem Traced.notify {server : Fin n} {entry : CommitEntry (Command n)} {r : ℕ}
    {request : Request n} (traced : Traced base v)
    (executed : (v.kvs server).executed = some entry)
    (sub : (v.kvs server).commitSubs entry.index = some r) (found : v.requests[r]? = some request)
    (subscribed : request.phase = .subscribed) :
    Traced base ((v.popped server entry).move r request (.notified entry)) := by
  obtain ⟨other, found', -, logIndex⟩ := traced.indexed.subscribed sub
  obtain rfl := Option.some.inj (found.symm.trans found')
  refine traced.moved (advances_move (.notified entry) found
      (fun finished => by cases subscribed.symm.trans finished) (by simp) rfl) rfl
    executed_of_popped (fun sub => Or.inl (commitSubs_of_popped sub)) rfl fun notified => ?_
  cases notified
  exact ⟨traced.executed executed, logIndex⟩

/-! ### Steps of the Raft instances -/

/-- What a server sends or will send is a log entry with its index, also after its turn. -/
structure OnTheWay (v : Service n) (base : List (LogEntry (Command n))) (rf : Raft n (Command n)) :
    Prop where
  applied : -1 ≤ rf.lastApplied
  ready : ∀ entry ∈ rf.readyEntries, Carried v base entry

theorem Traced.onTheWay (traced : Traced base v) (s : Fin n) :
    OnTheWay v base (v.cluster.node s) :=
  ⟨traced.applied s, traced.ready s⟩

/-- A batch is cut from the log. -/
theorem OnTheWay.takes {rf next : Raft n (Command n)} (onTheWay : OnTheWay v base rf)
    (entries : ∀ (i : ℕ) (entry : LogEntry (Command n)), rf.log[i]? = some entry →
      Source v base i entry) (taken : rf.takeReady = some next) : OnTheWay v base next := by
  have applied := onTheWay.applied
  rcases Raft.takeReady_cases taken with ⟨-, rfl⟩ | ⟨more, -, rfl⟩
  · exact ⟨applied, onTheWay.ready⟩
  · refine ⟨applied.trans more.le, fun entry member => ?_⟩
    obtain ⟨position, found⟩ := List.mem_iff_getElem?.mp member
    obtain ⟨held, inTake, command, index⟩ := Raft.committedBatch_spec found
    rw [List.getElem?_take] at inTake
    split_ifs at inTake
    exact ⟨_, held, entries _ held inTake, by omega, held.command.resultFound,
      held.command.resultValue, command⟩

theorem Traced.turns {c' : Cluster n (Command n)} {action : Action n (Command n)}
    (traced : Traced base v) (taken : v.cluster.step action = some c') (s : Fin n) :
    OnTheWay v base (c'.node s) := by
  obtain ⟨p, next, events, turn, nodes, -⟩ := step_turn taken
  refine forall_turned (P := fun _ rf => OnTheWay v base rf) nodes ?_
    (fun p _ => traced.onTheWay p) s
  have before := traced.onTheWay p
  by_cases noRestart : v.cluster.restartFree action = true
  · rcases turn.serves noRestart with ⟨aside, -⟩ | ⟨-, -, ready⟩ | ⟨entry, -, -, sent⟩
    · exact ⟨aside.lastApplied ▸ before.applied, aside.readyEntries ▸ before.ready⟩
    · exact before.takes (traced.sourced.entry p) ready
    · obtain ⟨rest, batch, rfl⟩ := Raft.sendReady_cases sent
      refine ⟨before.applied, fun entry member => before.ready entry ?_⟩
      rw [batch]
      exact List.mem_cons_of_mem _ member
  · cases turn with
    | restart closed made =>
      obtain ⟨-, -, -, lastApplied, -, readyEntries⟩ := Raft.make_cases made
      refine ⟨lastApplied.ge, fun entry member => ?_⟩
      rw [readyEntries] at member
      cases member
    | receiveVote received =>
      cases action <;> first | cases received | exact absurd rfl noRestart
    | _ => exact absurd rfl noRestart

/-- The Raft instances take a step. -/
theorem Traced.stepped {action : Action n (Command n)} (traced : Traced base v)
    (taken : v.cluster.step action = some v'.cluster) (evolve : RequestsEvolve v v')
    (appended : ∀ s command, action = .submit s command → (v.cluster.node s).state = .leader →
      Source v' base (v.cluster.node s).log.length ⟨command, (v.cluster.node s).currentTerm⟩)
    (indexed : Indexed v' base)
    (executed : ∀ {s entry}, (v'.kvs s).executed = some entry → Carried v base entry)
    (notified : ∀ {r : ℕ} {request : Request n} {entry : CommitEntry (Command n)},
      v'.requests[r]? = some request → request.phase = .notified entry →
      Carried v base entry ∧ request.logIndex = some entry.index) : Traced base v' where
  indexed := indexed
  sourced := (traced.sourced.mono fun _ _ source => source.mono evolve).step appended taken
  applied s := (traced.turns taken s).applied
  ready s entry member := ((traced.turns taken s).ready entry member).mono evolve
  executed isExecuted := (executed isExecuted).mono evolve
  notified found isNotified := (notified found isNotified).imp_left fun carried =>
    carried.mono evolve

theorem Traced.submit {r : ℕ} {request : Request n} (traced : Traced base v)
    (found : v.requests[r]? = some request) (received : request.phase = .received)
    (unused : v.reusedIndex (.submit r) = false) (taken : v.submit r request = some v') :
    Traced base v' := by
  obtain ⟨⟨next, index⟩, submitted, rfl⟩ := Option.map_eq_some_iff.mp taken
  have noIndex := traced.indexed.fresh found received
  have stepped : v.cluster.step (.submit request.server (request.command r)) =
      some (v.cluster.act request.server next [] []) := by
    simp only [Cluster.step, submitted, Option.map_some]
  rcases Raft.submit_cases submitted with ⟨rfl, -, rfl⟩ | ⟨-, leads, rfl⟩
  · dsimp only
    rw [if_pos (by omega), act_self]
    exact traced.ends found rfl rfl rfl
  · dsimp only
    rw [if_neg (by omega)]
    generalize isLater :
      Service.move { v with cluster := v.cluster.act request.server next [] [] } r
        { request with logIndex := some ((v.cluster.node request.server).log.length : ℤ) }
        .submitted = v' at *
    have advances : Advances v v' r request { request with
        logIndex := some ((v.cluster.node request.server).log.length : ℤ)
        phase := .submitted } := by
      subst isLater
      exact advances_submit _ found received noIndex rfl
    subst isLater
    have behind := traced.sourced.long request.server
    refine traced.stepped stepped advances.evolve
      (fun s command submits _ => source_submit advances behind submits)
      (traced.indexed.advance advances Or.inl fun isIndex => ?_)
      (fun held => traced.executed held) fun found' isNotified => ?_
    · cases isIndex
      exact Or.inr ⟨by omega, fun found' => index_unused found leads unused found'⟩
    · rcases advances.lookup found' with ⟨-, rfl⟩ | ⟨-, old⟩
      · cases isNotified
      · exact traced.notified old isNotified

theorem Traced.execute {server : Fin n} {next : Raft n (Command n)}
    {entry : CommitEntry (Command n)} (traced : Traced base v)
    (sent : (v.cluster.node server).sendReady = some (next, entry)) :
    Traced base (v.performed server next entry) := by
  have stepped : v.cluster.step (.sendReady server) =
      some (v.cluster.act server next [] [.delivered server entry]) := by
    simp only [Cluster.step, sent, Option.map_some]
  refine traced.stepped stepped (requestsEvolve_of_eq rfl)
    (fun s command submits => by cases submits)
    (traced.indexed.quiet rfl fun {s i r} sub => performed_commitSubs v _ _ _ s ▸ sub)
    (fun {s later} held => ?_) traced.notified
  by_cases self : s = server
  · subst self
    simp only [Service.performed, Function.update_self, Option.some_inj] at held
    subst held
    obtain ⟨rest, batch, -⟩ := Raft.sendReady_cases sent
    obtain ⟨i, held, source, index, keyFound, value, command⟩ :=
      traced.ready s entry (by rw [batch]; exact List.mem_cons_self)
    rw [KVService.execute_eq, command]
    exact ⟨i, held, source, index, _, _, rfl⟩
  · simp only [Service.performed, Function.update_of_ne self] at held
    exact traced.executed held

theorem Traced.restart {server : Fin n} {cluster : Cluster n (Command n)}
    (traced : Traced base v) (taken : v.cluster.step (.restart server) = some cluster) :
    Traced base (v.renew server cluster) := by
  refine traced.stepped taken (renew_evolve server cluster)
    (fun s command submits => by cases submits) (traced.indexed.restart server cluster)
    (fun {s entry} held => ?_) fun found isNotified => ?_
  · by_cases self : s = server
    · subst self
      simp only [Service.renew, Function.update_self] at held
      cases held
    · simp only [Service.renew, Function.update_of_ne self] at held
      exact traced.executed held
  · obtain ⟨request, present, -, logIndex, finished | same⟩ := renew_lookup found
    · cases finished.symm.trans isNotified
    · rw [logIndex]
      exact traced.notified present (same.symm.trans isNotified)

/-! ### All actions -/

theorem Traced.step (traced : Traced base v) (unused : v.reusedIndex action = false)
    (taken : v.step action = some v') : Traced base v' := by
  cases step_moves taken with
  | receives server operation => exact traced.receive server operation
  | submits found received taken => exact traced.submit found received unused taken
  | subscribes found submitted taken => exact traced.subscribe found submitted taken
  | performs sent => exact traced.execute sent
  | pops executed nobody => exact traced.pop _ _
  | notifies executed sub found subscribed => exact traced.notify executed sub found subscribed
  | answers found notified => exact traced.ends found rfl rfl rfl
  | givesUp found waits => exact traced.ends found rfl rfl rfl
  | restarts stepped => exact traced.restart stepped
  | turns noRestart noSubmit noSend stepped =>
    exact traced.stepped stepped (requestsEvolve_of_eq rfl)
      (fun s command submits => absurd submits (noSubmit s command))
      (traced.indexed.quiet rfl fun sub => sub) (fun held => traced.executed held) traced.notified

/-! ### Answers -/

/-- Whoever answers in the next step has received its own command at its own index, and answers with
the result that came with it. -/
def AnswersOwn (v : Service n) : Prop :=
  ∀ (r : ℕ) (v' : Service n) (keyFound : Bool) (value : String), v.step (.answer r) = some v' →
    v'.history = .answered r (.ok keyFound value) :: v.history →
    ∃ request entry, v.requests[r]? = some request ∧ request.phase = .notified entry ∧
      request.logIndex = some entry.index ∧
      entry.command = { request.command r with resultFound := keyFound, resultValue := value }

/-- A handler does not answer its own request when the command it has received is of another key. -/
theorem not_answersOwn {r : ℕ} {request : Request n} {entry : CommitEntry (Command n)}
    {keyFound : Bool} {value : String} (found : v.requests[r]? = some request)
    (notified : request.phase = .notified entry)
    (foreign : entry.command.key ≠ (request.command r).key) (taken : v.step (.answer r) = some v')
    (answered : v'.history = .answered r (.ok keyFound value) :: v.history) : ¬AnswersOwn v := by
  intro own
  obtain ⟨request', entry', found', notified', -, command⟩ :=
    own r v' keyFound value taken answered
  obtain rfl := Option.some.inj (found.symm.trans found')
  obtain rfl := Phase.notified.inj (notified.symm.trans notified')
  exact foreign (by rw [command])

theorem Traced.own {r : ℕ} {request : Request n} {entry : CommitEntry (Command n)}
    (traced : Traced base v) (found : v.requests[r]? = some request)
    (notified : request.phase = .notified entry) (own : entry.command.id = request.server) :
    ∃ keyFound value, entry.command =
      { request.command r with resultFound := keyFound, resultValue := value } := by
  obtain ⟨⟨i, held, source, index, keyFound, value, command⟩, logIndex⟩ :=
    traced.notified found notified
  rw [index] at logIndex
  have behind : base.length ≤ i := by exact_mod_cast traced.indexed.behind found logIndex
  obtain ⟨owner, known, ownIndex, isCommand⟩ := source.behind behind
  have server : owner.server = request.server := by
    rw [← own, command, isCommand]
    exact (Request.command_id owner _).symm
  -- The index was given to one request of the server only.
  have same := traced.indexed.distinct known found server ownIndex logIndex
  rw [same, found, Option.some_inj] at known
  refine ⟨keyFound, value, command.trans ?_⟩
  rw [isCommand, same, known]

theorem Traced.answersOwn (traced : Traced base v) : AnswersOwn v := by
  intro r v' keyFound value taken answered
  obtain ⟨request, found, taken⟩ := Option.bind_eq_some_iff.mp taken
  unfold Service.answer at taken
  split at taken
  · next entry notified =>
    cases taken
    simp only [Service.respond, List.cons.injEq, and_true, ServiceEvent.answered.injEq,
      true_and] at answered
    split_ifs at answered with own
    injection answered with isFound isValue
    obtain ⟨keyFound', value', command⟩ := traced.own found notified own
    refine ⟨request, entry, found, notified, (traced.notified found notified).2, ?_⟩
    rw [← isFound, ← isValue, command]
  · cases taken

theorem answers_own (preload : Option (Preload (Command n))) (actions : List (ServiceAction n))
    (taken : Service.run preload actions = some v)
    (unused : along Service.step (fun v action => !v.reusedIndex action)
      (Service.start n preload) actions = true) : AnswersOwn v := by
  refine (execute_invariant (Traced ((preload.map Preload.log).getD [])) ?_
    (traced_start preload) unused taken).answersOwn
  exact fun v action v' traced allowed stepped => traced.step (by simpa using allowed) stepped

theorem answers_own_served : ∃ v, Service.run (some stored) served.dropLast = some v ∧
    (v.step (.answer 2)).isSome = true ∧ AnswersOwn v := by
  obtain ⟨v, taken, answers⟩ := (Option.any_eq_true _ _).mp (by decide +kernel :
    (Service.run (some stored) served.dropLast).any (fun v => (v.step (.answer 2)).isSome) = true)
  exact ⟨v, taken, answers,
    answers_own (some stored) served.dropLast taken (by decide +kernel)⟩

/-- The entry of the last handler of `crowded` is committed and handed over to the one that waits
for its index. -/
def misdirected : List (ServiceAction 3) :=
  crowded ++ [[.subscribe 3], onRaft (.leaderLoop s₀ 1 :: roundTrip 9), heartbeat s₀ 1 11,
    heartbeat s₀ 1 13, onRaft [.takeReady s₀], performNext s₀, performNext s₀,
    performNext s₀].flatten

/-- The same from empty storages: servers 0 and 2 both lead term 2, and server 2 has won term 3 when
it replaces the last two entries of server 0, which wins term 4. -/
def displaced : List (ServiceAction 3) :=
  [onRaft (timeout s₀ 0 ++ [.send 0, .send 1, .handle 0, .handle 1, .finish 0] ++ timeout s₀ 0 ++
      timeout s₂ 0 ++ roundTrip 5 ++ roundTrip 4 ++ [.finish 1]),
    accept s₀ (.put "y" "0") 0, accept s₀ (.put "y" "1") 1, accept s₀ (.put "y" "2") 2,
    accept s₂ (.put "w" "0") 3, onRaft [.leaderLoop s₀ 0, .send 7, .handle 7],
    onRaft (timeout s₂ 0 ++ roundTrip 8 ++ roundTrip 9), accept s₂ (.put "w" "1") 4,
    onRaft [.leaderLoop s₂ 1, .send 10, .handle 10],
    onRaft (timeout s₀ 0 ++ roundTrip 12 ++ roundTrip 13), accept s₀ (.put "z" "1") 5,
    onRaft (.leaderLoop s₀ 1 :: roundTrip 14), heartbeat s₀ 1 16, onRaft [.takeReady s₀],
    performNext s₀, performNext s₀, performNext s₀].flatten

theorem answers_foreign :
    (∃ v, Service.run none displaced = some v ∧ ¬AnswersOwn v) ∧
    ∃ v, Service.run (some stored) misdirected = some v ∧ ¬AnswersOwn v := by
  constructor
  · obtain ⟨v, taken, holds⟩ := (Option.any_eq_true _ _).mp (by decide +kernel :
      (Service.run none displaced).any (fun v => (v.step (.answer 2)).any fun v' =>
        decide (v'.history = .answered 2 (.ok false "") :: v.history ∧
          v.requests[2]? = some ⟨s₀, .put "y" "2", some 2,
            .notified ⟨⟨.put, "z", "1", "", false, s₀, 5⟩, 2, 4⟩⟩)) = true)
    obtain ⟨v', answers, holds⟩ := (Option.any_eq_true _ _).mp holds
    obtain ⟨answered, foreign⟩ := of_decide_eq_true holds
    exact ⟨v, taken, not_answersOwn foreign rfl (by decide) answers answered⟩
  · obtain ⟨v, taken, holds⟩ := (Option.any_eq_true _ _).mp (by decide +kernel :
      (Service.run (some stored) misdirected).any (fun v => (v.step (.answer 1)).any fun v' =>
        decide (v'.history = .answered 1 (.ok false "") :: v.history ∧
          v.requests[1]? = some ⟨s₀, .put "y" "1", some 2,
            .notified ⟨⟨.put, "z", "1", "", false, s₀, 3⟩, 2, 4⟩⟩)) = true)
    obtain ⟨v', answers, holds⟩ := (Option.any_eq_true _ _).mp holds
    obtain ⟨answered, foreign⟩ := of_decide_eq_true holds
    exact ⟨v, taken, not_answersOwn foreign rfl (by decide) answers answered⟩

end RaftInMotion
