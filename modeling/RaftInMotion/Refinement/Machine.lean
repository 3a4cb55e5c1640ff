/-
This file shows that a machine does what its system does, as long as no entry is read that has been
rewritten and no batch goes beyond the log. Whatever happens, the log of a server is what its newest
array begins with: that is all a batch needs that ends within the log, and an entry that still is as
it was when the request was built changes nothing when it is encoded. So a run of the machine is a
run of the system with some reading in between, and what is proved about the runs of the system
holds of the machine.
-/

import RaftInMotion.Handlers.Insertion
import RaftInMotion.Model.Memory

namespace RaftInMotion

open Execution Slices

variable {n : Nat} {Command : Type}

/-! ### Writes -/

/-- What `AppendEntries` keeps of the log, and what it appends. -/
theorem Raft.appendEntries_log {rf next : Raft n Command} {args : AppendEntriesArgs n Command}
    {reply : AppendEntriesReply} (handled : rf.appendEntries args = some (next, reply)) :
    rf.insertion args = none ∧ next.log = rf.log ∨
      ∃ position entries, rf.insertion args = some (position, entries) ∧
        position ≤ rf.log.length ∧ next.log = rf.log.take position ++ entries := by
  by_cases accepts : rf.accepts args = true
  · obtain ⟨held, next', reply', found, handled', log, -⟩ := appendEntries_of_accepts accepts
    obtain ⟨rfl, -⟩ := Prod.mk.inj (Option.some.inj (handled.symm.trans handled'))
    have inside := (List.getElem?_eq_some_iff.mp found).1
    have bound := matchEntries_le rf.log (args.prevLogIndex.toNat + 1) args.entries
    simp only [insertion, accepts, Bool.true_and, decide_eq_true_eq, log, insertEntries]
    split_ifs with more
    · exact Or.inr ⟨_, _, rfl, by omega, rfl⟩
    · exact Or.inl ⟨rfl, rfl⟩
  · refine Or.inl ⟨by simp [insertion, accepts], ?_⟩
    cases appendEntries_outcome handled with
    | dead gone => rfl
    | stale alive older _ _ same term fails => rcases same with rfl | rfl <;> rfl
    | reject alive reached _ term fails => exact rf.heed_log args.term
    | blank alive reached _ term first empty => exact rf.heed_log args.term
    | accept alive reached _ term prevLogIndex position held found same live =>
      refine absurd ?_ accepts
      simp only [Raft.accepts, Bool.and_eq_true, decide_eq_true_eq, position, Int.toNat_natCast,
        found, same, Option.map_some, Bool.not_eq_true', Bool.and_eq_false_iff,
        decide_eq_false_iff_not]
      refine ⟨⟨⟨⟨alive, reached⟩, Int.natCast_nonneg _⟩, trivial⟩, ?_⟩
      by_cases more : rf.commitIndex < args.leaderCommit
      · exact Or.inr (live more)
      · exact Or.inl more

namespace Cluster

variable {c c' : Cluster n Command} {action : Action n Command} {memory : Memory n Command}

/-- What a turn does to the log and to the arrays behind it. -/
inductive Stores (c : Cluster n Command) (memory : Memory n Command) (room : Nat) (s : Fin n)
    (next : Raft n Command) (arrays : Fin n → Arrays (LogEntry Command)) : Prop
  | still (log : next.log = (c.node s).log) (same : arrays = memory.arrays)
  | appends (position : Nat) (entries : List (LogEntry Command))
      (within : position ≤ (c.node s).log.length)
      (log : next.log = (c.node s).log.take position ++ entries)
      (written : arrays = Function.update memory.arrays s
        ((memory.arrays s).append position entries room))
  | allocates (written : arrays = Function.update memory.arrays s
      ((memory.arrays s).allocate next.log room))

theorem stores_of_core {room : Nat} {s : Fin n} {next other : Raft n Command}
    {arrays : Fin n → Arrays (LogEntry Command)} (core : next.core = other.core)
    (log : other.log = (c.node s).log) (same : arrays = memory.arrays) :
    c.Stores memory room s next arrays :=
  .still ((congrArg Raft.log core : next.core.log = other.core.log).trans log) same

theorem Turn.stores {s : Fin n} {next : Raft n Command} {events : List (Event n Command)}
    (turn : c.Turn action s next events) (memory : Memory n Command) (room : Nat) :
    c.Stores memory room s next (memory.after c action room).arrays := by
  have sends : ∀ i, (memory.after c (.send i) room).arrays = memory.arrays := by
    intro i
    unfold Memory.after
    dsimp only
    split <;> rfl
  have handles : ∀ {i : Nat}, c.appendHandled (.handle i) = none →
      (memory.after c (.handle i) room).arrays = memory.arrays := by
    intro i other
    simp [Memory.after, writes, other]
  cases turn with
  | timer fired =>
    rcases Raft.electionTimer_cases fired with ⟨core, -, -⟩ | ⟨-, core, -, -⟩ <;>
      exact stores_of_core core rfl rfl
  | sendVote present => exact .still rfl (sends _)
  | sendAppend present => exact .still rfl (sends _)
  | @handleVote i task _ args present request =>
    refine .still ?_ (handles ?_)
    · unfold Raft.requestVote Raft.meetTerm
      dsimp only
      split_ifs <;> rfl
    · rw [appendHandled, present, Option.bind_some]
      cases task with
      | appendSent | appendLost => cases request
      | _ => rfl
  | @handleAppend i task _ args _ reply present request handled =>
    have here : c.appendHandled (.handle i) = some (s, args) := by
      rw [appendHandled, present, Option.bind_some, request]
    rcases Raft.appendEntries_log handled with ⟨stays, log⟩ |
      ⟨position, entries, inserts, within, log⟩
    · exact .still log (by simp [Memory.after, writes, here, stays])
    · exact .appends position entries within log (by simp [Memory.after, writes, here, inserts])
  | @receiveVote _ call outcome received =>
    have same : (memory.after c action room).arrays = memory.arrays := by
      cases action with
      | finish | fail => rfl
      | _ => cases received
    by_cases down : outcome.any ((c.node call.candidate).stepsDown call) = false
    · have core := Raft.receiveVote_of_stays down
      split_ifs at core <;> exact stores_of_core core rfl same
    · obtain ⟨reply, rfl, isDown⟩ := (Option.any_eq_true _ _).mp (by simpa using down)
      exact stores_of_core (Raft.receiveVote_of_stepsDown isDown) rfl same
  | receiveAppend present received =>
    rcases Raft.receiveAppend_cases received with ⟨-, rfl⟩ | ⟨-, core, -⟩ |
      ⟨-, -, -, -, matched, _, isMatched, rfl, -⟩
    · exact .still rfl rfl
    · exact stores_of_core core rfl rfl
    · exact .still (by rw [isMatched]; rfl) rfl
  | @submit _ command _ _ submitted =>
    rcases Raft.submit_cases submitted with ⟨rfl, follows, -⟩ | ⟨rfl, leads, -⟩
    · exact .still rfl (by simp [Memory.after, writes, follows])
    · refine .appends (c.node s).log.length [⟨command, (c.node s).currentTerm⟩] le_rfl ?_
        (by simp only [Memory.after, writes, if_pos leads])
      rw [List.take_length, Raft.persistToStorage_log]
  | leaderLoop turned => exact stores_of_core (Raft.leaderLoop_cases turned).1 rfl rfl
  | leaderLoopClosed ended => exact stores_of_core (Raft.leaderLoopClosed_cases ended).1 rfl rfl
  | takeReady taken =>
    rcases Raft.takeReady_cases taken with ⟨-, rfl⟩ | ⟨-, -, rfl⟩ <;> exact .still rfl rfl
  | sendReady sent =>
    obtain ⟨rest, -, rfl⟩ := Raft.sendReady_cases sent
    exact .still rfl rfl
  | kill killed =>
    rcases Raft.kill_cases killed with ⟨-, rfl⟩ | ⟨-, rfl⟩ <;> exact .still rfl rfl
  | restart closed made =>
    refine .allocates ?_
    rw [(Raft.make_saved made).2.2.1]
    rfl
  | failAppend => exact .still rfl rfl

end Cluster

namespace Memory

variable {c c' : Cluster n Command} {action : Action n Command} {memory : Memory n Command}

theorem holds_start (c : Cluster n Command) (room : Fin n → Nat) : (start c room).Holds c :=
  fun _ => List.prefix_refl _

/-- A server moves, and its log still is what its newest array begins with. -/
theorem Holds.turned {s : Fin n} {next : Raft n Command} {other : Memory n Command}
    {arrays : Arrays (LogEntry Command)} (holds : memory.Holds c)
    (nodes : c'.node = Function.update c.node s next)
    (written : other.arrays = Function.update memory.arrays s arrays)
    (begins : next.log <+: arrays.cells) : other.Holds c' := by
  refine Cluster.forall_turned (P := fun p rf => rf.log <+: (other.arrays p).cells) nodes ?_
    fun p isOther => ?_
  · rwa [written, Function.update_self]
  · rw [written, Function.update_of_ne isOther]
    exact holds p

theorem Holds.after (holds : memory.Holds c) (room : Nat) (taken : c.step action = some c') :
    (memory.after c action room).Holds c' := by
  obtain ⟨s, next, events, turn, nodes, -⟩ := Cluster.step_turn taken
  cases turn.stores memory room with
  | still log same =>
    refine holds.turned nodes (same.trans (Function.update_eq_self s _).symm) ?_
    rw [log]
    exact holds s
  | appends position entries within log written =>
    refine holds.turned nodes written (List.IsPrefix.trans ?_ (Arrays.append_prefix ..))
    rw [log, List.prefix_iff_eq_take.mp (holds s), List.take_take, Nat.min_eq_left within]
  | allocates written => exact holds.turned nodes written (List.prefix_refl _)

/-- A batch that ends within the log is the one of the log. -/
theorem Holds.takeReady (holds : memory.Holds c) {s : Fin n}
    (within : (c.node s).lastApplied < (c.node s).commitIndex →
      (c.node s).commitIndex < (c.node s).log.length) :
    memory.takeReady c s = c.step (.takeReady s) := by
  have longer := (holds s).length_le
  unfold Memory.takeReady Cluster.step Raft.takeReady
  dsimp only
  by_cases waits : (c.node s).newCommitReady = 0 ∨ (c.node s).readyEntries ≠ []
  · simp only [if_pos waits, Option.map_none]
  by_cases more : (c.node s).commitIndex > (c.node s).lastApplied
  · have inside := within more
    have batch : ((memory.arrays s).cells.take ((c.node s).commitIndex + 1).toNat) =
        (c.node s).log.take ((c.node s).commitIndex + 1).toNat := by
      rw [List.prefix_iff_eq_take.mp (holds s), List.take_take, Nat.min_eq_left (by omega)]
    have inCells : (c.node s).commitIndex < (memory.arrays s).cells.length := by omega
    simp only [if_neg waits, if_pos more, if_pos inside, if_pos inCells, Option.map_some,
      Raft.committedBatch, batch]
  · simp only [if_neg waits, if_neg more, Option.map_some]

end Memory

namespace Machine

variable {State Act : Type} {host : Host n Command State Act} {x y : Machine n Command State}
  {action : Act} {room : Nat}

theorem permits_of_act (taken : x.act host action room = some y) :
    x.permits host action = true := by
  unfold act at taken
  unfold permits
  split at taken
  · next noRaft => rw [noRaft]
  · next raft isRaft =>
    rw [isRaft]
    dsimp only at taken
    split_ifs at taken with permitted
    exact permitted

theorem act_of_step {raft : Action n Command} {next : State}
    (isRaft : host.raftAction x.state action = some raft) (other : ∀ s, raft ≠ .takeReady s)
    (permitted : x.permits host action = true) (stepped : host.step x.state action = some next) :
    x.act host action room =
      some ⟨next, x.memory.after (host.cluster x.state) raft room⟩ := by
  unfold act
  unfold permits at permitted
  rw [isRaft] at permitted ⊢
  dsimp only
  rw [if_pos permitted]
  split
  · next server => exact absurd rfl (other server)
  · rw [stepped, Option.map_some]

/-- Within the log, a step of the machine that is one of the system does what the system does. -/
theorem act_projects (holds : x.memory.Holds (host.cluster x.state))
    (within : overcuts host x.state action = false) (taken : x.act host action room = some y) :
    host.step x.state action = some y.state ∧ y.memory.Holds (host.cluster y.state) := by
  unfold act at taken
  unfold overcuts at within
  cases isRaft : host.raftAction x.state action with
  | none =>
    rw [isRaft] at taken
    obtain ⟨next, stepped, rfl⟩ := Option.map_eq_some_iff.mp taken
    have same := host.step_cluster stepped
    rw [isRaft] at same
    have same : host.cluster x.state = host.cluster next := Option.some.inj same
    exact ⟨stepped, same ▸ holds⟩
  | some raft =>
    rw [isRaft] at taken within
    dsimp only at taken within
    split_ifs at taken with permitted
    have stepped : host.step x.state action = some y.state ∧
        y.memory = x.memory.after (host.cluster x.state) raft room := by
      split at taken
      · next server =>
        obtain ⟨next, cut, rfl⟩ := Option.map_eq_some_iff.mp taken
        rw [holds.takeReady (by simpa using within)] at cut
        exact ⟨(host.step_takeReady isRaft).trans cut, rfl⟩
      · obtain ⟨next, stepped, rfl⟩ := Option.map_eq_some_iff.mp taken
        exact ⟨stepped, rfl⟩
    have moved := host.step_cluster stepped.1
    rw [isRaft] at moved
    obtain ⟨c', moved, same⟩ := execute_cons.mp moved
    obtain rfl : c' = host.cluster y.state := by simpa [execute] using same
    exact ⟨stepped.1, stepped.2 ▸ holds.after room moved⟩

variable {allowed : State → Act → Bool} {state : State}

/-- The system has come to the state by steps that meet the condition. -/
def Reached (host : Host n Command State Act) (allowed : State → Act → Bool)
    (initial state : State) : Prop :=
  ∃ actions, execute host.step initial actions = some state ∧
    along host.step allowed initial actions = true

theorem Reached.step {middle next : State} {action : Act}
    (reached : Reached host allowed state middle) (allows : allowed middle action = true)
    (stepped : host.step middle action = some next) : Reached host allowed state next := by
  obtain ⟨first, before, allowed⟩ := reached
  refine ⟨first ++ [action], execute_concat.mpr ⟨middle, before, stepped⟩,
    along_join before allowed ?_⟩
  simp [along, allows, stepped]

theorem within_of_intact {middle : State} {action : Act}
    (allows : (allowed middle action && !overcuts host middle action) = true) :
    overcuts host middle action = false := by
  simpa using (Bool.and_eq_true_iff.mp allows).2

section reads

variable [DecidableEq Command]

/-- An entry that has not been rewritten goes out as it was when the request was built. -/
theorem encode_projects {task : Nat}
    (intact : x.rewritten host (.encode task : MachineAction n Act) = false)
    (taken : x.encode host task = some y) :
    y.state = x.state ∧ y.memory.arrays = x.memory.arrays := by
  unfold encode at taken
  unfold rewritten at intact
  dsimp only at taken intact
  split at taken
  · next call nextIndexForPeer args present =>
    split_ifs at taken
    obtain ⟨entry, found, rfl⟩ := Option.map_eq_some_iff.mp taken
    rw [present] at intact
    have same : x.nextEncoded host task = args.entries[x.memory.encoded task]? := by
      simpa using intact
    obtain ⟨inside, rfl⟩ := List.getElem?_eq_some_iff.mp (same.symm.trans found)
    obtain ⟨there, here⟩ := List.getElem?_eq_some_iff.mp present
    refine ⟨?_, rfl⟩
    dsimp only
    rw [List.set_getElem_self, ← here, Cluster.settle, List.set_getElem_self, host.put_cluster]
  · cases taken

/-- An entry that has not been rewritten is sent as it was when the batch was cut. -/
theorem load_projects {server : Fin n}
    (intact : x.rewritten host (.load server : MachineAction n Act) = false)
    (taken : x.load host server = some y) :
    y.state = x.state ∧ y.memory.arrays = x.memory.arrays := by
  unfold load at taken
  unfold rewritten at intact
  dsimp only at taken intact
  split at taken
  · cases taken
  · next entry rest batch =>
    split_ifs at taken
    obtain ⟨command, found, rfl⟩ := Option.map_eq_some_iff.mp taken
    rw [batch, found] at intact
    obtain rfl : command = entry.command := by simpa using intact
    refine ⟨?_, rfl⟩
    dsimp only
    rw [← batch, Cluster.act_self, host.put_cluster]

/-- What every step of the system allows and keeps, a step of the machine does, which is one of the
system or leaves it as it is. -/
theorem projects (invariant : State → Prop)
    (within : ∀ state action, invariant state → allowed state action = true →
      overcuts host state action = false)
    (preserved : ∀ state action next, invariant state → allowed state action = true →
      host.step state action = some next → invariant next)
    (x : Machine n Command State) (action : MachineAction n Act) (y : Machine n Command State)
    (holds : x.memory.Holds (host.cluster x.state) ∧ invariant x.state)
    (keeps : x.keeps host allowed action = true) (taken : x.step host action = some y) :
    (y.memory.Holds (host.cluster y.state) ∧ invariant y.state) ∧
      execute host.step x.state action.act?.toList = some y.state ∧
        along host.step allowed x.state action.act?.toList = true := by
  obtain ⟨held, initially⟩ := holds
  obtain ⟨intact, allows⟩ := Bool.and_eq_true_iff.mp keeps
  have intact := Bool.not_eq_true' _ ▸ intact
  have reads : y.state = x.state ∧ y.memory.arrays = x.memory.arrays →
      (y.memory.Holds (host.cluster y.state) ∧ invariant y.state) ∧
        some x.state = some y.state ∧ true = true := by
    rintro ⟨same, arrays⟩
    rw [same]
    exact ⟨⟨fun s => arrays ▸ held s, initially⟩, rfl, rfl⟩
  cases action with
  | act action room =>
    have here : allowed x.state action = true := by
      simpa [meets, permits_of_act taken] using allows
    obtain ⟨stepped, held⟩ := act_projects held (within _ _ initially here) taken
    refine ⟨⟨held, preserved _ _ _ initially here stepped⟩, execute_cons.mpr ⟨_, stepped, rfl⟩, ?_⟩
    simp [MachineAction.act?, along, here, stepped]
  | encode task => exact reads (encode_projects intact taken)
  | load server => exact reads (load_projects intact taken)

variable {room : Fin n → Nat} {actions : List (MachineAction n Act)}

/-- A run of the machine is a run of the system that meets the same condition. -/
theorem run_projects
    (within : ∀ middle action, Reached host allowed state middle → allowed middle action = true →
      overcuts host middle action = false)
    (keeps : along (step host) (keeps host allowed) (start host state room) actions = true)
    (taken : run host state room actions = some x) :
    execute host.step state (actions.filterMap MachineAction.act?) = some x.state ∧
      along host.step allowed state (actions.filterMap MachineAction.act?) = true :=
  execute_part _ (projects (Reached host allowed state) within fun _ _ _ => Reached.step)
    ⟨Memory.holds_start _ room, [], rfl, rfl⟩ keeps taken

/-- Where nothing goes beyond the log, the condition is all it takes. -/
theorem run_intact
    (intact : along (step host) (intact host allowed) (start host state room) actions = true)
    (taken : run host state room actions = some x) :
    execute host.step state (actions.filterMap MachineAction.act?) = some x.state ∧
      along host.step allowed state (actions.filterMap MachineAction.act?) = true := by
  obtain ⟨projected, allows⟩ := run_projects (fun _ _ _ => within_of_intact) intact taken
  exact ⟨projected, (along_and.mp allows).1⟩

/-- The system passes through no other states than the machine. -/
theorem visits_intact
    (intact : along (step host) (intact host allowed) (start host state room) actions = true)
    (taken : run host state room actions = some x) {middle : State}
    (visits : Visits host.step state (actions.filterMap MachineAction.act?) middle) :
    ∃ x, Visits (step host) (start host state room) actions x ∧ x.state = middle :=
  visits_part _
    (projects (fun _ => True) (fun _ _ _ => within_of_intact) fun _ _ _ _ _ _ => trivial)
    ⟨Memory.holds_start _ room, trivial⟩ intact taken visits

/-- Nor does the machine pass through others than the system. -/
theorem visits_state
    (intact : along (step host) (intact host allowed) (start host state room) actions = true)
    (visits : Visits (step host) (start host state room) actions x) :
    Visits host.step state (actions.filterMap MachineAction.act?) x.state := by
  obtain ⟨first, rest, rfl, run⟩ := visits
  exact ⟨_, _, List.filterMap_append, (run_intact (along_append run intact).1 run).1⟩

end reads

/-! ### Prompt schedules -/

variable {final : State} {actions : List Act}

theorem promptly_acts (run : execute host.step state actions = some final) :
    (promptly host state actions).filterMap MachineAction.act? = actions := by
  induction actions generalizing state with
  | nil => rfl
  | cons action rest inductionHypothesis =>
    obtain ⟨next, taken, run⟩ := execute_cons.mp run
    have reads : (loads host state action).filterMap MachineAction.act? = [] ∧
        (encodes host state next action).filterMap MachineAction.act? = [] := by
      unfold loads encodes
      constructor
      · split <;> rfl
      · split
        · split
          · simp [MachineAction.act?]
          · rfl
        · rfl
    simp [promptly, taken, reads, inductionHypothesis run, MachineAction.act?]

/-- Where nothing that is read at once has been rewritten, a run of the system is one of the
machine. -/
theorem runPromptly_eq [DecidableEq Command] (host : Host n Command State Act)
    (run : execute host.step state actions = some final)
    (goes : (runPromptly host state actions).isSome = true)
    (intact : along (step host) (intact host fun _ _ => true) (start host state fun _ => 0)
      (promptly host state actions) = true) :
    ∃ x, runPromptly host state actions = some x ∧ x.state = final := by
  obtain ⟨x, taken⟩ := Option.isSome_iff_exists.mp goes
  have projected := (run_intact intact taken).1
  rw [promptly_acts run] at projected
  exact ⟨x, taken, Option.some.inj (projected.symm.trans run)⟩

end Machine

end RaftInMotion
