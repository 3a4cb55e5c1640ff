/-
This file explains the state of a service by one ledger of entries. The ledger begins with the
log that all storages held at the start, and its other entries are the commands of handlers. All
servers perform it from the beginning, each as far as it has come; every handler that has been
notified and every answer that has been given belongs to an entry of the ledger; and the order of
the ledger is the order in real time. The ledger only ever grows at its end, by what a server is
about to perform.
-/

import RaftInMotion.Service.Moves
import RaftInMotion.Service.Sources
import RaftInMotion.Safety.Delivery

namespace RaftInMotion

open Replication hiding Request
open Cluster TermLog Linearization

variable {n : Nat} {v v' : Service n} {base ledger longer : List (LogEntry (Command n))}

/-! ### Requests and entries -/

/-- A handler goes on: it stays where it is, and an index it has been given stays its own. -/
structure Request.Evolves (request next : Request n) : Prop where
  server : next.server = request.server
  operation : next.operation = request.operation
  logIndex : ∀ i, request.logIndex = some i → next.logIndex = some i
  finished : request.phase = .finished → next.phase = .finished ∧ next.logIndex = request.logIndex

theorem Request.Evolves.command {request next : Request n} (evolves : request.Evolves next)
    (position : ℕ) : next.command position = request.command position := by
  unfold Request.command
  rw [evolves.operation, evolves.server]

/-- All requests of the first state are there in the second one, with handlers that went on. -/
def RequestsEvolve (v v' : Service n) : Prop :=
  ∀ (r : ℕ) (request : Request n), v.requests[r]? = some request →
    ∃ next, v'.requests[r]? = some next ∧ request.Evolves next

theorem requestsEvolve_of_eq (same : v'.requests = v.requests) : RequestsEvolve v v' :=
  fun _ request found => ⟨request, same ▸ found, rfl, rfl, fun _ isIndex => isIndex,
    fun done => ⟨done, rfl⟩⟩

/-- The entry is one of the start, or the command of a handler that was given its index. -/
inductive Source (v : Service n) (base : List (LogEntry (Command n))) (i : ℕ)
    (entry : LogEntry (Command n)) : Prop
  | start (held : base[i]? = some entry)
  | request (behind : base.length ≤ i) (request : Request n)
      (found : v.requests[entry.command.request]? = some request)
      (logIndex : request.logIndex = some (i : ℤ))
      (command : entry.command = request.command entry.command.request)

theorem Source.mono {i : ℕ} {entry : LogEntry (Command n)} (source : Source v base i entry)
    (evolve : RequestsEvolve v v') : Source v' base i entry := by
  cases source with
  | start held => exact .start held
  | request behind request found logIndex command =>
    obtain ⟨next, found', evolves⟩ := evolve _ _ found
    exact .request behind next found' (evolves.logIndex _ logIndex)
      (command.trans (evolves.command _).symm)

theorem Source.behind {i : ℕ} {entry : LogEntry (Command n)} (source : Source v base i entry)
    (behind : base.length ≤ i) : ∃ request, v.requests[entry.command.request]? = some request ∧
      request.logIndex = some (i : ℤ) ∧ entry.command = request.command entry.command.request := by
  cases source with
  | start held =>
    have within := (List.getElem?_eq_some_iff.mp held).1
    omega
  | request _ request found logIndex command => exact ⟨request, found, logIndex, command⟩

/-! ### What is performed -/

/-- The map after the entries. -/
def replay (entries : List (LogEntry (Command n))) : DataStore :=
  performAll DataStore.perform DataStore.empty (entries.map fun entry => entry.command.operation)

theorem replay_concat (entries : List (LogEntry (Command n))) (entry : LogEntry (Command n)) :
    replay (entries ++ [entry]) = ((replay entries).perform entry.command.operation).1 := by
  unfold replay
  rw [List.map_append, List.map_singleton, performAll_concat]

/-- The answer of the sequential map to the entry at an index of the ledger. -/
def Answers (ledger : List (LogEntry (Command n))) (i : ℕ) (held : LogEntry (Command n))
    (result : Bool × String) : Prop :=
  ledger[i]? = some held ∧ result = ((replay (ledger.take i)).perform held.command.operation).2

/-- The entry carries the command at its index of the ledger, with its result. -/
def Performed (ledger : List (LogEntry (Command n))) (entry : CommitEntry (Command n)) : Prop :=
  ∃ (i : ℕ) (held : LogEntry (Command n)), entry.index = i ∧
    entry.command.id = held.command.id ∧
    Answers ledger i held (entry.command.resultFound, entry.command.resultValue)

theorem Answers.mono {i : ℕ} {held : LogEntry (Command n)} {result : Bool × String}
    (answers : Answers ledger i held result) (grows : ledger <+: longer) :
    Answers longer i held result := by
  obtain ⟨found, isResult⟩ := answers
  have within := (List.getElem?_eq_some_iff.mp found).1
  refine ⟨(getElem?_of_part grows within).trans found, ?_⟩
  rwa [← take_of_part grows within.le]

theorem Performed.mono {entry : CommitEntry (Command n)} (performed : Performed ledger entry)
    (grows : ledger <+: longer) : Performed longer entry :=
  performed.imp fun _ rest => rest.imp fun _ ⟨index, id, answers⟩ =>
    ⟨index, id, answers.mono grows⟩

/-- A server has performed the ledger up to a point, and its batch goes on from there. -/
structure Serves (ledger : List (LogEntry (Command n))) (rf : Raft n (Command n))
    (kvs : KVService n) (count : ℕ) : Prop where
  applied : rf.lastApplied + 1 = count + rf.readyEntries.length
  within : count + rf.readyEntries.length ≤ ledger.length
  ds : kvs.ds = replay (ledger.take count)
  ready : ∀ (j : ℕ) entry, rf.readyEntries[j]? = some entry → ∃ held,
    ledger[count + j]? = some held ∧ entry.command = held.command ∧ entry.index = (count + j : ℕ)
  executed : ∀ entry, kvs.executed = some entry → Performed ledger entry

theorem Serves.mono {rf : Raft n (Command n)} {kvs : KVService n} {count : ℕ}
    (serves : Serves ledger rf kvs count) (grows : ledger <+: longer) :
    Serves longer rf kvs count where
  applied := serves.applied
  within := serves.within.trans grows.length_le
  ds := by
    rw [← take_of_part grows ((Nat.le_add_right _ _).trans serves.within)]
    exact serves.ds
  ready j entry found := by
    obtain ⟨held, there, rest⟩ := serves.ready j entry found
    exact ⟨held, (getElem?_of_part grows (List.getElem?_eq_some_iff.mp there).1).trans there, rest⟩
  executed entry held := (serves.executed entry held).mono grows

/-! ### Handlers -/

/-- What holds of the handlers and their subscriptions. -/
structure Handlers (v : Service n) (base ledger : List (LogEntry (Command n))) : Prop where
  fresh : ∀ {r : ℕ} {request : Request n}, v.requests[r]? = some request →
    request.phase = .received → request.logIndex = none
  behind : ∀ {r : ℕ} {request : Request n} {i : ℤ}, v.requests[r]? = some request →
    request.logIndex = some i → (base.length : ℤ) ≤ i
  distinct : ∀ {r r' : ℕ} {request request' : Request n} {i : ℤ}, v.requests[r]? = some request →
    v.requests[r']? = some request' → request.server = request'.server →
    request.logIndex = some i → request'.logIndex = some i → r = r'
  subscribed : ∀ {s : Fin n} {i : ℤ} {r : ℕ}, (v.kvs s).commitSubs i = some r →
    ∃ request, v.requests[r]? = some request ∧ request.server = s ∧ request.logIndex = some i
  notified : ∀ {r : ℕ} {request : Request n} {entry : CommitEntry (Command n)},
    v.requests[r]? = some request → request.phase = .notified entry →
    Performed ledger entry ∧ request.logIndex = some entry.index

/-- What holds of the indices and subscriptions of handlers, whatever has been committed. -/
structure Indexed (v : Service n) (base : List (LogEntry (Command n))) : Prop where
  fresh : ∀ {r : ℕ} {request : Request n}, v.requests[r]? = some request →
    request.phase = .received → request.logIndex = none
  behind : ∀ {r : ℕ} {request : Request n} {i : ℤ}, v.requests[r]? = some request →
    request.logIndex = some i → (base.length : ℤ) ≤ i
  distinct : ∀ {r r' : ℕ} {request request' : Request n} {i : ℤ}, v.requests[r]? = some request →
    v.requests[r']? = some request' → request.server = request'.server →
    request.logIndex = some i → request'.logIndex = some i → r = r'
  subscribed : ∀ {s : Fin n} {i : ℤ} {r : ℕ}, (v.kvs s).commitSubs i = some r →
    ∃ request, v.requests[r]? = some request ∧ request.server = s ∧ request.logIndex = some i

theorem Handlers.indexed (handlers : Handlers v base ledger) : Indexed v base :=
  ⟨handlers.fresh, handlers.behind, handlers.distinct, handlers.subscribed⟩

/-- The handler has ended without an index, or at its index stands the command of another. -/
structure Refused (ledger : List (LogEntry (Command n))) (r : ℕ) (request : Request n) : Prop where
  finished : request.phase = .finished
  foreign : request.logIndex = none ∨ ∃ (i : ℕ) (held : LogEntry (Command n)),
    request.logIndex = some (i : ℤ) ∧ ledger[i]? = some held ∧ held.command.request ≠ r

/-- What clients have seen agrees with the ledger. -/
structure Seen (v : Service n) (base ledger : List (LogEntry (Command n))) : Prop where
  received : ∀ r, .received r ∈ v.history ↔ r < v.requests.length
  ok : ∀ {r found value}, .answered r (.ok found value) ∈ v.history → ∃ i held,
    base.length ≤ i ∧ held.command.request = r ∧ Answers ledger i held (found, value)
  refused : ∀ {r response}, .answered r response ∈ v.history →
    (∀ found value, response ≠ .ok found value) →
    ∃ request, v.requests[r]? = some request ∧ Refused ledger r request
  realTime : ∀ {r r' found value i i' held held'},
    [.received r', .answered r (.ok found value)].Sublist v.history →
    base.length ≤ i → ledger[i]? = some held → held.command.request = r →
    base.length ≤ i' → ledger[i']? = some held' → held'.command.request = r' → i < i'

/-! ### Explanations -/

/-- The ledger explains the service. -/
structure Explains (floor : ℕ) (base : List (LogEntry (Command n))) (v : Service n)
    (ledger : List (LogEntry (Command n))) : Prop where
  committed : ∃ a, Committed floor v.cluster a ∧
    (ledger = base ∨ ∃ time part, Chosen a time part ∧ ledger <+: part)
  begins : base <+: ledger
  sourced : Sourced (Source v base) base.length v.cluster
  source : ∀ {i entry}, ledger[i]? = some entry → Source v base i entry
  serves : ∀ s, ∃ count, Serves ledger (v.cluster.node s) (v.kvs s) count
  handlers : Handlers v base ledger
  seen : Seen v base ledger

theorem Source.unique {i i' : ℕ} {entry entry' : LogEntry (Command n)}
    (source : Source v base i entry) (source' : Source v base i' entry')
    (behind : base.length ≤ i) (behind' : base.length ≤ i')
    (same : entry.command.request = entry'.command.request) : i = i' := by
  obtain ⟨request, found, logIndex, -⟩ := source.behind behind
  obtain ⟨request', found', logIndex', -⟩ := source'.behind behind'
  rw [same, found', Option.some_inj] at found
  rw [found, logIndex, Option.some_inj] at logIndex'
  exact_mod_cast logIndex'

/-- Every log begins with the one from the start. -/
theorem Sourced.begins (sourced : Sourced (Source v base) base.length v.cluster) (s : Fin n) :
    base <+: (v.cluster.node s).log := by
  have long := sourced.long s
  refine List.prefix_iff_eq_take.mpr (List.ext_getElem? fun i => ?_)
  rw [List.getElem?_take]
  split_ifs with within
  · have found := List.getElem?_eq_getElem (within.trans_le long)
    rw [found]
    cases sourced.entry s i _ found with
    | start held => exact held
    | request behind => omega
  · exact List.getElem?_eq_none (not_lt.mp within)

variable {floor : ℕ}

theorem Handlers.mono (handlers : Handlers v base ledger) (grows : ledger <+: longer) :
    Handlers v base longer :=
  ⟨handlers.fresh, handlers.behind, handlers.distinct, handlers.subscribed,
    fun found notified => (handlers.notified found notified).imp_left fun performed =>
      performed.mono grows⟩

theorem Refused.mono {r : ℕ} {request : Request n} (refused : Refused ledger r request)
    (grows : ledger <+: longer) : Refused longer r request :=
  ⟨refused.finished, refused.foreign.imp_right fun ⟨i, held, logIndex, found, other⟩ =>
    ⟨i, held, logIndex, (getElem?_of_part grows (List.getElem?_eq_some_iff.mp found).1).trans found,
      other⟩⟩

/-- A ledger that grows puts its new entries behind those that have been answered. -/
theorem Seen.mono (seen : Seen v base ledger) (grows : ledger <+: longer)
    (source : ∀ {i entry}, longer[i]? = some entry → Source v base i entry) :
    Seen v base longer where
  received := seen.received
  ok answered := by
    obtain ⟨i, held, behind, isRequest, answers⟩ := seen.ok answered
    exact ⟨i, held, behind, isRequest, answers.mono grows⟩
  refused answered other := (seen.refused answered other).imp fun _ refused =>
    ⟨refused.1, refused.2.mono grows⟩
  realTime := by
    intro r r' found value i i' held held' happened behind there isRequest behind' there' isRequest'
    have isAnswered : .answered r (.ok found value) ∈ v.history := happened.subset (by simp)
    obtain ⟨i₀, held₀, behind₀, isRequest₀, answers⟩ := seen.ok isAnswered
    have inLine := (List.getElem?_eq_some_iff.mp answers.1).1
    have there₀ := (getElem?_of_part grows inLine).trans answers.1
    obtain rfl : i = i₀ := (source there).unique (source there₀) behind behind₀
      (isRequest.trans isRequest₀.symm)
    rcases Nat.lt_or_ge i' ledger.length with old | new
    · refine seen.realTime happened behind answers.1 isRequest₀ behind' ?_ isRequest'
      rw [← getElem?_of_part grows old, there']
    · omega

/-- The ledger can be taken to contain what any server takes for committed. -/
theorem Explains.extend (explains : Explains floor base v ledger) (s : Fin n)
    (some' : -1 < (v.cluster.node s).commitIndex) : ∃ longer,
      (v.cluster.node s).log.take ((v.cluster.node s).commitIndex + 1).toNat <+: longer ∧
        Explains floor base v longer := by
  obtain ⟨a, committed, ledger'⟩ := explains.committed
  obtain ⟨time, part, chosen, inPart⟩ := committed.chosen s some'
  have inLog := List.take_prefix ((v.cluster.node s).commitIndex + 1).toNat (v.cluster.node s).log
  generalize (v.cluster.node s).log.take ((v.cluster.node s).commitIndex + 1).toNat = front
    at inPart inLog ⊢
  have comparable : front <+: ledger ∨ ledger <+: front := by
    rcases ledger' with rfl | ⟨time', part', chosen', inPart'⟩
    · exact prefix_comparable inLog (explains.sourced.begins s)
    · rcases committed.invariant.chosen_comparable chosen chosen' with shorter | longer
      · exact prefix_comparable (inPart.trans shorter) inPart'
      · exact prefix_comparable inPart (inPart'.trans longer)
  rcases comparable with inside | grows
  · exact ⟨ledger, inside, explains⟩
  · have source : ∀ {i entry}, front[i]? = some entry → Source v base i entry :=
      fun {i entry} found => explains.sourced.entry s i entry
        ((getElem?_of_part inLog (List.getElem?_eq_some_iff.mp found).1).trans found)
    exact ⟨front, List.prefix_refl _, ⟨a, committed, Or.inr ⟨time, part, chosen, inPart⟩⟩,
      explains.begins.trans grows, explains.sourced, source,
      fun p => (explains.serves p).imp fun _ serves => serves.mono grows,
      explains.handlers.mono grows, explains.seen.mono grows source⟩

end RaftInMotion
