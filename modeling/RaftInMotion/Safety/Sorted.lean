/-
This file settles whether the terms in a log are in order and bounded by the server's own term.
What a leader appends is of its own term, and what a request carries is cut from a log; so the
order can be lost in two ways only. A reply to an earlier election takes a candidate to a term
below that of its last entry, or a server stores entries of a later term than that of the request
that carries them, whose term and entries have been read at different moments. The condition on
runs is exact.
-/

import RaftInMotion.Handlers.Requests
import RaftInMotion.Safety.Terms

namespace RaftInMotion

open Cluster Execution TermLog

variable {n : Nat} {Command : Type}

namespace Raft

variable {rf next : Raft n Command} {log entries : List (LogEntry Command)}

/-- The terms of the log begin at 1, never decrease, and do not exceed the server's own term. -/
structure TermsOrdered (rf : Raft n Command) : Prop where
  positive : ∀ entry ∈ rf.log, 1 ≤ entry.term
  sorted : Sorted rf.log
  bounded : lastTerm rf.log ≤ rf.currentTerm

/-- Moreover, a server that runs for office or holds it is in a term. -/
structure Ordered (rf : Raft n Command) : Prop extends TermsOrdered rf where
  active : rf.state = .candidate ∨ rf.state = .leader → 1 ≤ rf.currentTerm

theorem TermsOrdered.le_currentTerm (ordered : rf.TermsOrdered) {entry : LogEntry Command}
    (member : entry ∈ rf.log) : entry.term ≤ rf.currentTerm :=
  Int.ofNat_le.mp ((le_lastTerm ordered.sorted member).trans ordered.bounded)

/-! ### Insertions -/

/-- Entries that are in order behind the previous one are in order behind what the log keeps. -/
theorem insertEntries_sorted {prevLogIndex : Nat} {held : LogEntry Command}
    (inside : log[prevLogIndex]? = some held) (sorted : Sorted log) (behind : Sorted entries)
    (follows : ∀ entry ∈ entries, held.term ≤ entry.term) :
    Sorted (insertEntries log prevLogIndex entries) := by
  rcases insertEntries_split inside entries with
    ⟨same, -⟩ | ⟨count, below, within, terms, -, split⟩
  · rwa [same]
  rw [split]
  refine List.pairwise_append.mpr ⟨sorted.of_part (List.take_prefix _ _),
    List.Pairwise.sublist (List.drop_sublist _ _) behind, fun earlier kept later inserted => ?_⟩
  obtain ⟨i, foundEarlier⟩ := List.mem_iff_getElem?.mp kept
  obtain ⟨k, foundLater⟩ := List.mem_iff_getElem?.mp inserted
  rw [List.getElem?_drop] at foundLater
  rw [List.getElem?_take] at foundEarlier
  split_ifs at foundEarlier with early
  -- Both are compared with the last entry that is kept.
  cases count with
  | zero =>
    exact (sorted.getElem?_le foundEarlier inside (by omega)).trans
      (follows later (List.mem_of_getElem? foundLater))
  | succ count =>
    obtain ⟨last, foundLast⟩ : ∃ last, log[prevLogIndex + 1 + count]? = some last :=
      ⟨_, List.getElem?_eq_getElem (by omega)⟩
    obtain ⟨sent, foundSent⟩ : ∃ sent, entries[count]? = some sent :=
      ⟨_, List.getElem?_eq_getElem (by omega)⟩
    have same := terms count (Nat.lt_succ_self count)
    rw [termAt_of_getElem? foundLast, termAt_of_getElem? foundSent, Option.some_inj] at same
    calc earlier.term ≤ last.term := sorted.getElem?_le foundEarlier foundLast (by omega)
      _ = sent.term := same
      _ ≤ later.term := behind.getElem?_le foundSent foundLater (by omega)

theorem mem_insertEntries {prevLogIndex : Nat} {held entry : LogEntry Command}
    (inside : log[prevLogIndex]? = some held)
    (member : entry ∈ insertEntries log prevLogIndex entries) : entry ∈ log ∨ entry ∈ entries := by
  obtain ⟨i, found⟩ := List.mem_iff_getElem?.mp member
  rcases insertEntries_cases inside found with old | ⟨k, -, new⟩
  · exact Or.inl (List.mem_of_getElem? old)
  · exact Or.inr (List.mem_of_getElem? new)

/-- Afterwards the log has an entry of the last term of the entries. -/
theorem insertEntries_last {prevLogIndex : Nat} {held : LogEntry Command}
    (inside : log[prevLogIndex]? = some held) {front : List (LogEntry Command)}
    {last : LogEntry Command} (isLast : entries = front ++ [last]) :
    ∃ entry ∈ insertEntries log prevLogIndex entries, entry.term = last.term := by
  have below : front.length < entries.length := by simp [isLast]
  have isTerm : termAt entries front.length = some last.term :=
    termAt_of_getElem? (by simp [isLast])
  obtain ⟨entry, found, same⟩ :=
    Option.map_eq_some_iff.mp ((insertEntries_terms inside below).trans isTerm)
  exact ⟨entry, List.mem_of_getElem? found, same⟩

/-- A last entry of a later term is in the log afterwards, or another of its term is. -/
theorem insertEntries_above {prevLogIndex term : Nat} {held : LogEntry Command}
    (inside : log[prevLogIndex]? = some held) (higher : term < lastTerm entries) :
    ∃ entry ∈ insertEntries log prevLogIndex entries, term < entry.term := by
  rcases List.eq_nil_or_concat' entries with rfl | ⟨front, last, isLast⟩
  · rw [lastTerm_nil] at higher
    omega
  · rw [isLast, lastTerm_concat] at higher
    obtain ⟨entry, member, same⟩ := insertEntries_last inside isLast
    exact ⟨entry, member, same.symm ▸ Int.ofNat_lt.mp higher⟩

/-! ### Servers -/

theorem Ordered.keeps (ordered : rf.Ordered) (log : next.log = rf.log)
    (bounded : lastTerm rf.log ≤ next.currentTerm)
    (active : next.state = .candidate ∨ next.state = .leader → 1 ≤ next.currentTerm) :
    next.Ordered :=
  ⟨⟨log ▸ ordered.positive, log ▸ ordered.sorted, log ▸ bounded⟩, active⟩

theorem Ordered.follows (ordered : rf.Ordered) {term : Nat} (above : lastTerm rf.log ≤ term) :
    (rf.becomeFollower term).Ordered :=
  ordered.keeps rfl above (by rintro (runs | leads) <;> contradiction)

theorem Ordered.meetTerm (ordered : rf.Ordered) (term : Nat) : (rf.meetTerm term).Ordered := by
  unfold Raft.meetTerm
  split_ifs with newer
  · exact ordered.follows (ordered.bounded.trans (Int.ofNat_le.mpr newer.le))
  · exact ordered

/-- What a leader appends is of its own term. -/
theorem Ordered.append (ordered : rf.Ordered) (command : Command) (active : 1 ≤ rf.currentTerm) :
    { rf with
      log := rf.log ++ [LogEntry.mk command rf.currentTerm] }.persistToStorage.Ordered := by
  refine ⟨⟨fun entry member => ?_, ?_, ?_⟩, ordered.active⟩
  · rcases List.mem_append.mp member with old | new
    · exact ordered.positive entry old
    · rwa [List.mem_singleton.mp new]
  · exact ordered.sorted.append fun other member => ordered.le_currentTerm member
  · exact (lastTerm_concat _ _).le

theorem Ordered.of_core {other : Raft n Command} (ordered : other.Ordered)
    (core : next.core = other.core) : next.Ordered := by
  have log : next.core.log = other.core.log := congrArg Raft.log core
  have term : next.core.currentTerm = other.core.currentTerm := congrArg Raft.currentTerm core
  have state : next.core.state = other.core.state := congrArg Raft.state core
  simp only [core_log, core_currentTerm, core_state] at log term state
  refine ordered.keeps log (term ▸ ordered.bounded) ?_
  rw [term, state]
  exact ordered.active

/-- The entries of a request are in order behind the previous one. -/
structure RequestOrdered (args : AppendEntriesArgs n Command) : Prop where
  positive : ∀ entry ∈ args.entries, 1 ≤ entry.term
  sorted : Sorted args.entries
  follows : ∀ entry ∈ args.entries, args.prevLogTerm ≤ entry.term

theorem TermsOrdered.request (ordered : rf.TermsOrdered) {call : AppendCall n}
    {built : Nat × AppendEntriesArgs n Command} (isBuilt : rf.appendEntriesArgs call = some built) :
    RequestOrdered built.2 := by
  have brings := (appendEntriesArgs_brings isBuilt).1
  have split := List.pairwise_append.mp
    ((List.take_append_drop built.1 rf.log).symm ▸ ordered.sorted)
  refine ⟨fun entry member => ?_, ?_, fun entry member => ?_⟩
  · rw [brings.entries] at member
    exact ordered.positive entry (List.mem_of_mem_drop member)
  · rw [brings.entries]
    exact split.2.1
  · rw [brings.entries] at member
    rw [brings.prevLogTerm]
    rcases List.eq_nil_or_concat' (rf.log.take built.1) with empty | ⟨front, last, isLast⟩
    · rw [empty, lastTerm_nil]
      omega
    · rw [isLast, lastTerm_concat]
      exact Int.ofNat_le.mpr (split.2.2 last (by simp [isLast]) entry member)

/-- A request that is in order, and whose entries do not exceed its term, keeps the order. -/
theorem Ordered.appendEntries (ordered : rf.Ordered) {args : AppendEntriesArgs n Command}
    {reply : AppendEntriesReply} (request : RequestOrdered args)
    (within : rf.accepts args = true → lastTerm args.entries ≤ args.term)
    (handled : rf.appendEntries args = some (next, reply)) : next.Ordered := by
  have log := heed_log rf args.term
  have idle : ∀ {other : Raft n Command}, other.state = .follower →
      other.state = .candidate ∨ other.state = .leader → 1 ≤ other.currentTerm := by
    rintro other follows (runs | leads)
    · cases follows.symm.trans runs
    · cases follows.symm.trans leads
  have forward : rf.currentTerm ≤ args.term → lastTerm rf.log ≤ args.term := fun reached =>
    ordered.bounded.trans (Int.ofNat_le.mpr reached)
  cases appendEntries_outcome handled with
  | dead gone => exact ordered
  | stale alive older _ _ same term fails =>
    rcases same with rfl | rfl
    · exact ordered
    · exact ordered.keeps rfl ordered.bounded ordered.active
  | reject alive reached _ term fails =>
    refine ordered.keeps log ?_ (idle (heed_state rf args.term))
    rw [persistToStorage_currentTerm, heed_currentTerm reached]
    exact forward reached
  | blank alive reached _ term first empty =>
    refine ordered.keeps log ?_ (idle (heed_state rf args.term))
    rw [persistToStorage_currentTerm, heed_currentTerm reached]
    exact forward reached
  | accept alive reached _ term prevLogIndex position held found same live =>
    have accepts : rf.accepts args = true := by
      simp only [Raft.accepts, position, Int.toNat_natCast, found, Option.map_some, same]
      simpa [alive, reached, imp_iff_not_or] using live
    have stored : ((rf.heed args.term).store args prevLogIndex).log =
        insertEntries rf.log prevLogIndex args.entries := by rw [store_log, log]
    have current : ((rf.heed args.term).store args prevLogIndex).currentTerm = args.term :=
      (store_currentTerm args prevLogIndex).trans (heed_currentTerm reached)
    refine ⟨⟨fun entry member => ?_, ?_, ?_⟩,
      idle ((store_state args prevLogIndex).trans (heed_state rf args.term))⟩
    · rw [persistToStorage_log, stored] at member
      exact (mem_insertEntries found member).elim (ordered.positive entry) (request.positive entry)
    · rw [persistToStorage_log, stored]
      exact insertEntries_sorted found ordered.sorted request.sorted fun entry member =>
        Int.ofNat_le.mp (same ▸ request.follows entry member)
    · rw [persistToStorage_log, stored, persistToStorage_currentTerm, current]
      refine lastTerm_le fun entry member => ?_
      rcases mem_insertEntries found member with old | new
      · exact (ordered.le_currentTerm old).trans reached
      · exact Int.ofNat_le.mp ((le_lastTerm request.sorted new).trans (within accepts))

end Raft

namespace Cluster

variable {c c' : Cluster n Command} {action : Action n Command}

/-- Every log is in order, and so is every request that is still to be delivered. -/
structure LogsOrdered (c : Cluster n Command) : Prop where
  nodes : ∀ s, (c.node s).Ordered
  requests : ∀ task ∈ c.pool, ∀ peer args, task.appendRequest = some (peer, args) →
    Raft.RequestOrdered args

/-- No server is put into a term below that of its last entry in the turn. -/
theorem Turn.ordered {s : Fin n} {next : Raft n Command} {events : List (Event n Command)}
    (turn : c.Turn action s next events) (ordered : LogsOrdered c)
    (noRestart : c.restartFree action = true) (keeps : c.keepsTermOrder action = true) :
    next.Ordered := by
  have mine := ordered.nodes s
  obtain ⟨behind, ahead⟩ : c.fallsBehindLog action = false ∧ c.storesAhead action = false := by
    simpa [keepsTermOrder] using keeps
  cases turn with
  | timer fired =>
    rcases Raft.electionTimer_cases fired with ⟨core, -, -⟩ | ⟨-, core, -, -⟩
    · exact mine.of_core core
    · have started : (c.node s).startElection.1.Ordered :=
        mine.keeps rfl (mine.bounded.trans (Int.ofNat_le.mpr (Nat.le_succ _)))
          fun _ => Nat.succ_pos _
      exact started.of_core core
  | @handleVote i task _ args present request =>
    by_cases dead : (c.node s).state = .dead
    · rw [Raft.requestVote_of_dead args dead]
      exact mine
    have met := mine.meetTerm args.term
    rcases Raft.requestVote_cases args dead with refused | ⟨-, -, -, granted⟩
    · rw [refused]
      exact met.keeps rfl met.bounded met.active
    · rw [granted]
      exact met.keeps rfl met.bounded met.active
  | @handleAppend i task _ args _ reply present request handled =>
    refine mine.appendEntries (ordered.requests task (List.mem_of_getElem? present) _ _ request)
      (fun accepts => ?_) handled
    simpa [storesAhead, appendHandled, present, request, accepts] using ahead
  | @receiveVote _ call outcome received =>
    by_cases down : outcome.any ((c.node call.candidate).stepsDown call) = false
    · have core := Raft.receiveVote_of_stays down
      split_ifs at core with wins
      · have runs := ((Raft.wins_iff down).mp wins).1
        have leads : (c.node call.candidate).startLeader.Ordered :=
          mine.keeps rfl mine.bounded fun _ => mine.active (Or.inl runs)
        exact leads.of_core core
      · exact mine.of_core core
    · obtain ⟨reply, rfl, isDown⟩ := (Option.any_eq_true _ _).mp (by simpa using down)
      have above : lastTerm (c.node call.candidate).log ≤ reply.term := by
        simpa [fallsBehindLog, received, isDown] using behind
      exact Raft.Ordered.of_core (mine.follows above) (Raft.receiveVote_of_stepsDown isDown)
  | receiveAppend present received =>
    rcases Raft.receiveAppend_cases received with ⟨newer, rfl⟩ | ⟨-, core, -⟩ |
      ⟨-, -, -, -, _, _, rfl, rfl, -⟩
    · exact mine.follows (mine.bounded.trans (Int.ofNat_le.mpr newer.le))
    · exact mine.of_core core
    · exact mine.keeps rfl mine.bounded mine.active
  | submit submitted =>
    rcases Raft.submit_cases submitted with ⟨rfl, -, -⟩ | ⟨rfl, leads, -⟩
    · exact mine
    · exact mine.append _ (mine.active (Or.inr leads))
  | leaderLoop turned => exact mine.of_core (Raft.leaderLoop_cases turned).1
  | leaderLoopClosed ended => exact mine.of_core (Raft.leaderLoopClosed_cases ended).1
  | takeReady taken =>
    rcases Raft.takeReady_cases taken with ⟨-, rfl⟩ | ⟨-, -, rfl⟩ <;>
      exact mine.keeps rfl mine.bounded mine.active
  | sendReady sent =>
    obtain ⟨rest, -, rfl⟩ := Raft.sendReady_cases sent
    exact mine.keeps rfl mine.bounded mine.active
  | kill killed =>
    rcases Raft.kill_cases killed with ⟨-, rfl⟩ | ⟨-, rfl⟩
    · exact mine
    · exact mine.keeps rfl mine.bounded (by rintro (runs | leads) <;> contradiction)
  | restart closed made => cases noRestart
  | _ => exact mine

/-- A request that is built is in order, since it is cut from a log. -/
theorem Born.requestOrdered {task : Task n Command} {peer : Fin n}
    {args : AppendEntriesArgs n Command} (born : c.Born action task) (ordered : LogsOrdered c)
    (request : task.appendRequest = some (peer, args)) : Raft.RequestOrdered args := by
  cases born with
  | @appendSent i call built present isBuilt =>
    cases request
    exact (ordered.nodes call.leader).request isBuilt
  | @orphan action task member =>
    refine ordered.requests task member peer args ?_
    cases task <;> exact request
  | _ => cases request

theorem LogsOrdered.step (ordered : LogsOrdered c) (noRestart : c.restartFree action = true)
    (keeps : c.keepsTermOrder action = true) (taken : c.step action = some c') :
    LogsOrdered c' := by
  refine ⟨?_, fun task member peer args request => ?_⟩
  · obtain ⟨s, next, events, turn, nodes, -⟩ := step_turn taken
    exact forall_turned (P := fun _ rf => rf.Ordered) nodes (turn.ordered ordered noRestart keeps)
      fun p _ => ordered.nodes p
  · rcases step_born taken task member with old | born
    · exact ordered.requests task old peer args request
    · exact born.requestOrdered ordered request

theorem logsOrdered_start (preload : Option (Preload Command))
    (positive : ∀ entry ∈ (preload.map Preload.log).getD [], 1 ≤ entry.term) :
    LogsOrdered (start n preload) := by
  refine ⟨fun s => ⟨⟨positive, ?_, ?_⟩, ?_⟩, List.forall_mem_nil _⟩
  · cases preload with
    | none => exact List.Pairwise.nil
    | some preload => exact preload.sorted
  · cases preload with
    | none => exact lastTerm_le (List.forall_mem_nil _)
    | some preload => exact lastTerm_le preload.bounded
  · rintro (runs | leads) <;> contradiction

/-- A step that is not allowed leaves some log out of order. -/
theorem step_unordered (loses : c.keepsTermOrder action = false) :
    ∃ c' s, c.step action = some c' ∧ ¬ (c'.node s).TermsOrdered := by
  rcases Bool.and_eq_false_iff.mp loses with behind | ahead
  · rw [Bool.not_eq_false', fallsBehindLog] at behind
    split at behind
    · next call reply received =>
      obtain ⟨down, lower⟩ := Bool.and_eq_true_iff.mp behind
      obtain ⟨c', taken, moved⟩ := step_voteOutcome received
      refine ⟨c', call.candidate, taken, fun ordered => ?_⟩
      have core := Raft.receiveVote_of_stepsDown down
      have term := congrArg Raft.currentTerm core
      have log := congrArg Raft.log core
      simp only [Raft.core_currentTerm, Raft.core_log, Raft.becomeFollower_currentTerm,
        Raft.becomeFollower_log] at term log
      have bounded := ordered.bounded
      rw [moved, term, log] at bounded
      exact absurd (of_decide_eq_true lower) (not_lt.mpr bounded)
    · cases behind
  · rw [Bool.not_eq_false', storesAhead] at ahead
    split at ahead
    · next peer args request =>
      obtain ⟨accepts, higher⟩ := Bool.and_eq_true_iff.mp ahead
      obtain ⟨held, next, reply, inside, handled, log, term⟩ :=
        Raft.appendEntries_of_accepts accepts
      obtain ⟨c', taken, moved⟩ := step_appendHandled request handled
      refine ⟨c', peer, taken, fun ordered => ?_⟩
      obtain ⟨entry, member, above⟩ :
          ∃ entry ∈ (c'.node peer).log, args.term < entry.term := by
        rw [moved, log]
        exact Raft.insertEntries_above inside (of_decide_eq_true higher)
      have bounded := ordered.le_currentTerm member
      rw [moved, term] at bounded
      omega
    · cases ahead

end Cluster

/-! ### Runs -/

/-- In every state of the run the logs are in order. -/
def LogsStayOrdered (c : Cluster n Command) (actions : List (Action n Command)) : Prop :=
  ∀ middle, Visits step c actions middle → ∀ s, (middle.node s).TermsOrdered

/-- Server 1 is in term 2 when it refuses its vote to server 0 in term 1. Server 0 leads term 3 and
takes a command, follows server 1 into term 4 and is a candidate again when the reply arrives. -/
def oldRefusal : List (Action 3 ℕ) :=
  [timeout s₀ 0, timeout s₁ 0, timeout s₁ 0, [.send 0, .handle 0], timeout s₀ 0, timeout s₀ 0,
    roundTrip 8, roundTrip 9, [.submit s₀ 7], timeout s₁ 0, [.send 10, .handle 10],
    timeout s₀ 0, [.finish 0]].flatten

/-- Server 0 has led term 2 and stores a command of server 2, the leader of term 3, before one of
its goroutines reads the log and sends it to server 1 in term 2. -/
def newerLog : List (Action 3 ℕ) :=
  [timeout s₀ 0, roundTrip 0, roundTrip 1, [.leaderLoop s₀ 0], timeout s₂ 0, roundTrip 4,
    [.send 5, .fail 5, .submit s₂ 9, .leaderLoop s₂ 0, .send 6, .handle 6, .send 2,
    .handle 2]].flatten

/-- A server in a term below that of one of its entries shows that the logs are not in order. -/
theorem not_logsStayOrdered {c : Cluster n Command} {actions : List (Action n Command)}
    (s : Fin n) (falls : (execute step c actions).any (fun final => (final.node s).log.any
      fun entry => decide ((final.node s).currentTerm < entry.term)) = true) :
    ¬ LogsStayOrdered c actions := by
  obtain ⟨final, taken, some⟩ := (Option.any_eq_true _ _).mp falls
  obtain ⟨entry, member, lower⟩ := List.any_eq_true.mp some
  intro ordered
  have bounded := (ordered final ⟨actions, [], (List.append_nil _).symm, taken⟩ s).le_currentTerm
    member
  exact absurd (of_decide_eq_true lower) (not_lt.mpr bounded)

theorem logs_ordered_fails :
    (along step restartFree (start 3 none) oldRefusal = true ∧
      ¬ LogsStayOrdered (start 3 none) oldRefusal) ∧
    along step restartFree (start 3 (some seeded)) newerLog = true ∧
      ¬ LogsStayOrdered (start 3 (some seeded)) newerLog :=
  ⟨⟨by decide +kernel, not_logsStayOrdered s₀ (by decide +kernel)⟩,
    by decide +kernel, not_logsStayOrdered s₁ (by decide +kernel)⟩

end RaftInMotion
