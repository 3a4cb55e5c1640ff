/-
This file settles what a crash can make a server forget. The log is always saved before anything
is said about it, but `startElection` and the reply handlers leave the term and the vote in
memory only, so a server can come back in a term below one it has already put in a request. Where
every restart finds the term and the vote saved, and no vote is erased, nothing is forgotten,
whatever was on its way when the server was killed. `Safety.Incarnations` adds what is left of the
instances that have been replaced.
-/

import RaftInMotion.Safety.Votes

namespace RaftInMotion

open Cluster Execution

variable {n : Nat} {Command : Type}

/-! ### What is saved -/

namespace Raft

variable {rf next : Raft n Command}

/-- The log a restart would bring back is the one in memory. -/
def LogSaved (rf : Raft n Command) : Prop :=
  rf.storage.log.getD [] = rf.log

/-- The server saves its log, and when it ends up dead it was dead before with the same log. -/
structure Settles (rf next : Raft n Command) : Prop where
  saved : rf.LogSaved → next.LogSaved
  dead : next.state = .dead → rf.state = .dead ∧ next.log = rf.log

theorem settles_of_core {other : Raft n Command} (core : next.core = other.core)
    (settles : Settles rf other) : Settles rf next := by
  have sameStorage : next.core.storage = other.core.storage := congrArg Raft.storage core
  have sameLog : next.core.log = other.core.log := congrArg Raft.log core
  have sameState : next.core.state = other.core.state := congrArg Raft.state core
  simp only [core_storage, core_log, core_state] at sameStorage sameLog sameState
  refine ⟨fun held => ?_, fun gone => ?_⟩
  · have saved := settles.saved held
    unfold LogSaved at saved ⊢
    rw [sameStorage, sameLog, saved]
  · obtain ⟨dead, log⟩ := settles.dead (sameState ▸ gone)
    exact ⟨dead, sameLog.trans log⟩

theorem Settles.refl (rf : Raft n Command) : Settles rf rf :=
  ⟨fun held => held, fun gone => ⟨gone, rfl⟩⟩

/-- A server that is alive after it has saved everything. -/
theorem settles_persisted (alive : next.state ≠ .dead) : Settles rf next.persistToStorage :=
  ⟨fun _ => rfl, fun gone => absurd gone alive⟩

theorem meetTerm_alive {term : Nat} (alive : rf.state ≠ .dead) :
    (rf.meetTerm term).state ≠ .dead := by
  unfold meetTerm
  split_ifs
  · simp
  · exact alive

theorem requestVote_settles (args : RequestVoteArgs n) : Settles rf (rf.requestVote args).1 := by
  by_cases alive : rf.state = .dead
  · rw [requestVote_of_dead args alive]
    exact Settles.refl rf
  · rcases requestVote_cases args alive with refused | ⟨-, -, -, granted⟩
    · rw [refused]
      exact settles_persisted (meetTerm_alive alive)
    · rw [granted]
      exact settles_persisted (meetTerm_alive alive)

theorem appendEntries_settles {args : AppendEntriesArgs n Command} {reply : AppendEntriesReply}
    (handled : rf.appendEntries args = some (next, reply)) : Settles rf next := by
  have heeds : (rf.heed args.term).state ≠ .dead := by simp [heed_state]
  cases appendEntries_outcome handled with
  | dead gone => exact Settles.refl rf
  | stale alive older _ _ same term fails =>
    rcases same with rfl | rfl
    · exact Settles.refl _
    · exact settles_persisted alive
  | reject alive reached _ term fails => exact settles_persisted heeds
  | blank alive reached _ term first empty => exact settles_persisted heeds
  | accept alive reached _ term prevLogIndex position held found same live =>
    exact settles_persisted (by rwa [store_state])

theorem becomeFollower_settles (rf : Raft n Command) (term : Nat) :
    Settles rf (rf.becomeFollower term) :=
  ⟨fun held => held, fun gone => absurd gone (by simp)⟩

theorem receiveAppend_settles {call : AppendCall n} {nextIndexForPeer : Nat}
    {args : AppendEntriesArgs n Command} {reply : AppendEntriesReply}
    (received : rf.receiveAppend call nextIndexForPeer args reply = some next) :
    Settles rf next := by
  rcases receiveAppend_cases received with ⟨-, rfl⟩ | ⟨-, core, -⟩ |
    ⟨-, leads, -, -, _, _, rfl, rfl, -⟩
  · exact becomeFollower_settles rf _
  · exact settles_of_core core (Settles.refl rf)
  · exact ⟨fun held => held, fun gone => ⟨gone, rfl⟩⟩

end Raft

open Raft (Settles)

variable {c c' : Cluster n Command} {action : Action n Command}

/-- Between a kill and a restart, a server settles in every turn. -/
theorem Cluster.Turn.settles {s : Fin n} {next : Raft n Command} {events : List (Event n Command)}
    (turn : c.Turn action s next events) (lives : action ≠ .kill s) (stays : action ≠ .restart s) :
    Settles (c.node s) next := by
  cases turn with
  | timer fired =>
    rcases Raft.electionTimer_cases fired with ⟨core, -, -⟩ | ⟨-, core, -, -⟩
    · exact Raft.settles_of_core core (Settles.refl _)
    · exact Raft.settles_of_core core
        ⟨fun held => held, fun gone => absurd gone (by simp [Raft.startElection])⟩
  | handleVote present request => exact Raft.requestVote_settles _
  | handleAppend present request handled => exact Raft.appendEntries_settles handled
  | @receiveVote _ call outcome received =>
    by_cases down : outcome.any ((c.node call.candidate).stepsDown call) = false
    · have core := Raft.receiveVote_of_stays down
      split_ifs at core
      · exact Raft.settles_of_core core
          ⟨fun held => held, fun gone => absurd gone (by simp)⟩
      · exact Raft.settles_of_core core (Settles.refl _)
    · obtain ⟨reply, rfl, isDown⟩ := (Option.any_eq_true _ _).mp (by simpa using down)
      exact Raft.settles_of_core (Raft.receiveVote_of_stepsDown isDown)
        (Raft.becomeFollower_settles _ _)
  | receiveAppend present received => exact Raft.receiveAppend_settles received
  | submit submitted =>
    rcases Raft.submit_cases submitted with ⟨rfl, -, -⟩ | ⟨rfl, leads, -⟩
    · exact Settles.refl _
    · exact Raft.settles_persisted (by simp [leads])
  | leaderLoop turned =>
    exact Raft.settles_of_core (Raft.leaderLoop_cases turned).1 (Settles.refl _)
  | leaderLoopClosed ended =>
    exact Raft.settles_of_core (Raft.leaderLoopClosed_cases ended).1 (Settles.refl _)
  | takeReady taken =>
    rcases Raft.takeReady_cases taken with ⟨-, rfl⟩ | ⟨-, -, rfl⟩ <;>
      exact ⟨fun held => held, fun gone => ⟨gone, rfl⟩⟩
  | sendReady sent =>
    obtain ⟨rest, -, rfl⟩ := Raft.sendReady_cases sent
    exact ⟨fun held => held, fun gone => ⟨gone, rfl⟩⟩
  | kill killed => exact absurd rfl lives
  | restart closed made => exact absurd rfl stays
  | _ => exact Settles.refl _

/-! ### What is said -/

/-- A goroutine that has yet to send its request sends no term its server has not reached. -/
def Task.Reached (c : Cluster n Command) : Task n Command → Prop
  | .voteSpawned call => call.savedCurrentTerm ≤ (c.node call.candidate).currentTerm
  | .appendSpawned call => call.savedCurrentTerm ≤ (c.node call.leader).currentTerm
  | _ => True

theorem Task.Reached.forward {task : Task n Command} (reached : task.Reached c)
    (forward : ∀ s, (c.node s).currentTerm ≤ (c'.node s).currentTerm) : task.Reached c' := by
  cases task with
  | voteSpawned call => exact Nat.le_trans reached (forward _)
  | appendSpawned call => exact Nat.le_trans reached (forward _)
  | _ => trivial

theorem Cluster.Born.reached {task : Task n Command} (born : c.Born action task)
    (named : ∀ s, (c.node s).id = s) (taken : c.step action = some c')
    (forward : ∀ s, (c.node s).currentTerm ≤ (c'.node s).currentTerm) : task.Reached c' := by
  cases born with
  | @voteSpawned s position expired next calls call fired member =>
    obtain ⟨moved, isMoved, rfl⟩ := Option.map_eq_some_iff.mp taken
    cases fired.symm.trans isMoved
    rcases Raft.electionTimer_cases fired with ⟨-, -, none⟩ | ⟨-, core, -, spawned⟩
    · cases none ▸ member
    · have term : next.currentTerm = (c.node s).currentTerm + 1 := by
        simpa [Raft.startElection] using congrArg Raft.currentTerm core
      obtain ⟨candidate, -, saved, -⟩ := Raft.mem_startElection (spawned ▸ member)
      simp only [Task.Reached, saved, candidate, named, act, Function.update_self]
      exact term.ge
  | @appendSpawned s position next calls call turned member =>
    rcases (Raft.leaderLoop_cases turned).2.2 with none | spawned
    · cases none ▸ member
    · obtain ⟨-, leader, -, saved⟩ := Raft.mem_leaderSendHeartbeats (spawned ▸ member)
      rw [Task.Reached, saved, leader, named]
      exact forward s
  | @orphan action task member => cases task <;> trivial
  | _ => trivial

/-- No term is sent that the server has not reached. -/
theorem Cluster.Turn.sentTerm {s p : Fin n} {next : Raft n Command} {term : Nat}
    {events : List (Event n Command)} (turn : c.Turn action s next events)
    (reached : ∀ task ∈ c.pool, task.Reached c) (sent : .sentTerm p term ∈ events) :
    p = s ∧ term ≤ next.currentTerm := by
  cases turn with
  | timer fired =>
    split_ifs at sent
    · cases List.mem_singleton.mp sent
    · cases sent
  | sendVote present =>
    cases List.mem_singleton.mp sent
    exact ⟨rfl, reached _ (List.mem_of_getElem? present)⟩
  | sendAppend present =>
    cases List.mem_singleton.mp sent
    exact ⟨rfl, reached _ (List.mem_of_getElem? present)⟩
  | @handleVote i task _ args present request =>
    have own : p = s ∧ term = ((c.node s).requestVote args).2.term := by
      split_ifs at sent <;> simpa using sent
    obtain ⟨rfl, rfl⟩ := own
    refine ⟨rfl, ?_⟩
    by_cases alive : (c.node p).state = .dead
    · rw [Raft.requestVote_of_dead args alive]
      exact Nat.zero_le _
    · rcases Raft.requestVote_cases args alive with refused | ⟨meets, -, -, granted⟩
      · rw [refused]
        exact le_rfl
      · rw [granted]
        exact meets.ge
  | handleAppend present request handled =>
    cases List.mem_singleton.mp sent
    exact ⟨rfl, (Raft.appendEntries_forward handled).2⟩
  | receiveVote received =>
    split_ifs at sent
    · cases List.mem_singleton.mp sent
    · cases sent
  | receiveAppend present received =>
    split_ifs at sent
    · cases List.mem_singleton.mp sent
    · cases sent
  | kill killed =>
    split_ifs at sent
    · cases sent
    · cases List.mem_singleton.mp sent
  | _ => simp at sent

/-! ### Kills and restarts -/

/-- A server is killed with a log, or it is created again. -/
def Event.lifecycle (s : Fin n) : Event n Command → Option (Option (List (LogEntry Command)))
  | .killed p log => if p = s then some (some log) else none
  | .restarted p _ _ => if p = s then some none else none
  | _ => none

/-- The log a server was killed with, if it has not been created again since. -/
def killedLog (s : Fin n) (history : List (Event n Command)) : Option (List (LogEntry Command)) :=
  (history.findSome? (Event.lifecycle s)).join

theorem killedLog_append {s : Fin n} {events : List (Event n Command)}
    (quiet : ∀ event ∈ events, event.lifecycle s = none) (history : List (Event n Command)) :
    killedLog s (events ++ history) = killedLog s history := by
  rw [killedLog, List.findSome?_append, List.findSome?_eq_none_iff.mpr quiet, Option.none_or,
    killedLog]

theorem Cluster.Turn.lifecycle {s p : Fin n} {next : Raft n Command}
    {events : List (Event n Command)} (turn : c.Turn action s next events)
    (lives : action ≠ .kill p) (stays : action ≠ .restart p) :
    ∀ event ∈ events, event.lifecycle p = none := by
  intro event member
  cases turn with
  | timer fired =>
    split_ifs at member
    · cases List.mem_singleton.mp member
      rfl
    · cases member
  | handleVote present request =>
    rcases List.mem_cons.mp member with rfl | member
    · rfl
    · split_ifs at member
      · cases List.mem_singleton.mp member
        rfl
      · cases member
  | receiveVote received =>
    split_ifs at member
    · cases List.mem_singleton.mp member
      rfl
    · cases member
  | receiveAppend present received =>
    split_ifs at member
    · cases List.mem_singleton.mp member
      rfl
    · cases member
  | kill killed =>
    split_ifs at member
    · cases member
    · cases List.mem_singleton.mp member
      exact if_neg fun same => lives (congrArg Action.kill same)
  | restart closed made =>
    cases List.mem_singleton.mp member
    exact if_neg fun same => stays (congrArg Action.restart same)
  | sendVote present | sendAppend present | handleAppend present request handled
  | sendReady sent =>
    cases List.mem_singleton.mp member
    rfl
  | _ => cases member

theorem Cluster.Turn.lifecycle_other {s p : Fin n} {next : Raft n Command}
    {events : List (Event n Command)} (turn : c.Turn action s next events) (other : p ≠ s) :
    ∀ event ∈ events, event.lifecycle p = none := by
  refine turn.lifecycle ?_ ?_
  · rintro rfl
    cases turn with
    | kill killed => exact other rfl
    | receiveVote received => cases received
  · rintro rfl
    cases turn with
    | restart closed made => exact other rfl
    | receiveVote received => cases received

/-- A restart is all there is to see of its step. -/
theorem Cluster.Turn.restarted {s p : Fin n} {next : Raft n Command} {term : Nat}
    {log : List (LogEntry Command)} {events : List (Event n Command)}
    (turn : c.Turn action s next events) (member : .restarted p term log ∈ events) :
    action = .restart p ∧ events = [.restarted p term log] ∧
      Raft.make p (c.node p).storage = some next ∧ next.currentTerm = term ∧ next.log = log := by
  by_cases stays : action = .restart p
  · subst stays
    cases turn with
    | restart closed made =>
      cases List.mem_singleton.mp member
      exact ⟨rfl, rfl, made, rfl, rfl⟩
    | receiveVote received => cases received
  · by_cases lives : action = .kill p
    · subst lives
      cases turn with
      | kill killed => split_ifs at member <;> simp at member
      | receiveVote received => cases received
    · have quiet := turn.lifecycle lives stays _ member
      simp [Event.lifecycle] at quiet

/-- After every restart, a server is in no lower term than any it has sent and has the log it
was killed with; and it votes for one candidate in a term, before and after. -/
structure Recovered (c : Cluster n Command) : Prop where
  term : ∀ later earlier s term log, c.history = later ++ .restarted s term log :: earlier →
    ∀ sent, .sentTerm s sent ∈ earlier → sent ≤ term
  vote : OneVotePerTerm c
  log : ∀ later earlier s term log, c.history = later ++ .restarted s term log :: earlier →
    killedLog s earlier = some log

/-- What holds between restarts. -/
structure Saved (c : Cluster n Command) : Prop where
  votes : Votes c
  reached : ∀ task ∈ c.pool, task.Reached c
  sent : ∀ s term, .sentTerm s term ∈ c.history → term ≤ (c.node s).currentTerm
  log : ∀ s, (c.node s).LogSaved
  killed : ∀ s, (c.node s).state = .dead → killedLog s c.history = some (c.node s).log

theorem saved_start (preload : Option (Preload Command)) : Saved (start n preload) :=
  ⟨votes_start preload, fun _ member => (List.not_mem_nil member).elim,
    fun _ _ member => (List.not_mem_nil member).elim, fun s => by cases preload <;> rfl,
    fun s gone => by cases gone⟩

/-- The server that is killed or created again leaves a trace of it. -/
theorem Cluster.Turn.killed {s : Fin n} {next : Raft n Command} {events : List (Event n Command)}
    (turn : c.Turn action s next events) (saved : Saved c) (gone : next.state = .dead) :
    killedLog s (events ++ c.history) = some next.log := by
  by_cases lives : action = .kill s
  · subst lives
    cases turn with
    | kill killed =>
      rcases Raft.kill_cases killed with ⟨dead, rfl⟩ | ⟨alive, rfl⟩
      · rw [if_pos dead]
        exact saved.killed s dead
      · rw [if_neg alive]
        simp [killedLog, Event.lifecycle]
    | receiveVote received => cases received
  by_cases stays : action = .restart s
  · subst stays
    cases turn with
    | restart closed made => cases gone.symm.trans (Raft.make_cases made).2.1
    | receiveVote received => cases received
  · obtain ⟨dead, log⟩ := (turn.settles lives stays).dead gone
    rw [killedLog_append (turn.lifecycle lives stays), saved.killed s dead, log]

theorem Cluster.Turn.logSaved {s : Fin n} {next : Raft n Command} {events : List (Event n Command)}
    (turn : c.Turn action s next events) (held : (c.node s).LogSaved) : next.LogSaved := by
  by_cases lives : action = .kill s
  · subst lives
    cases turn with
    | kill killed => rcases Raft.kill_cases killed with ⟨-, rfl⟩ | ⟨-, rfl⟩ <;> exact held
    | receiveVote received => cases received
  by_cases stays : action = .restart s
  · subst stays
    cases turn with
    | restart closed made =>
      obtain ⟨-, -, log, storage⟩ := Raft.make_saved made
      rw [Raft.LogSaved, storage, log]
    | receiveVote received => cases received
  · exact (turn.settles lives stays).saved held

theorem Saved.step (saved : Saved c) (safe : c.safeRestarts action = true)
    (taken : c.step action = some c') : Saved c' := by
  obtain ⟨s, next, events, turn, nodes, history⟩ := step_turn taken
  have forward := step_forward_of_safe safe taken
  refine ⟨saved.votes.step safe taken, fun task member => ?_, fun p term sent => ?_, ?_, ?_⟩
  · rcases step_born taken task member with old | born
    · exact (saved.reached task old).forward forward
    · exact born.reached saved.votes.named taken forward
  · rw [history] at sent
    rcases List.mem_append.mp sent with new | old
    · obtain ⟨rfl, reached⟩ := turn.sentTerm saved.reached new
      rw [nodes, Function.update_self]
      exact reached
    · exact (saved.sent p term old).trans (forward p)
  · exact forall_turned (P := fun _ rf => rf.LogSaved) nodes (turn.logSaved (saved.log s))
      fun p _ => saved.log p
  · refine forall_turned (P := fun p rf => rf.state = .dead →
      killedLog p c'.history = some rf.log) nodes (fun gone => ?_) fun p other gone => ?_
    · rw [history]
      exact turn.killed saved gone
    · rw [history, killedLog_append (turn.lifecycle_other other), saved.killed p gone]

/-! ### Steps -/

theorem Recovered.step (recovered : Recovered c) (saved : Saved c)
    (safe : c.safeRestarts action = true) (taken : c.step action = some c') : Recovered c' := by
  obtain ⟨p, next, events, turn, -, history⟩ := step_turn taken
  -- A restart is either of this step, or an old one with the same past.
  have split : ∀ {later earlier s term log},
      c'.history = later ++ .restarted s term log :: earlier →
      (∃ before, c.history = before ++ .restarted s term log :: earlier) ∨
        earlier = c.history ∧ action = .restart s ∧ (c.node s).state = .dead ∧
          term = (c.node s).currentTerm ∧ log = (c.node s).log := by
    intro later earlier s term log recorded
    rw [history] at recorded
    rcases List.append_eq_append_iff.mp recorded with ⟨before, -, old⟩ | ⟨back, isBack, rest⟩
    · exact Or.inl ⟨before, old⟩
    · cases back with
      | nil => exact Or.inl ⟨[], by simpa using rest.symm⟩
      | cons event back =>
        obtain ⟨rfl, rfl⟩ := List.cons.inj rest
        have member : .restarted s term log ∈ events := by simp [isBack]
        obtain ⟨rfl, single, made, rfl, rfl⟩ := turn.restarted member
        obtain ⟨rfl, rfl⟩ : later = [] ∧ back = [] := by
          have lengths := congrArg List.length (isBack.symm.trans single)
          simp only [List.length_append, List.length_cons, List.length_nil] at lengths
          exact ⟨List.eq_nil_of_length_eq_zero (by omega), List.eq_nil_of_length_eq_zero (by omega)⟩
        obtain ⟨gone, sameTerm, -⟩ :=
          restart_saved (by simpa using (Bool.and_eq_true_iff.mp safe).2) made
        exact Or.inr ⟨rfl, rfl, gone, sameTerm, (Raft.make_saved made).2.2.1.trans (saved.log s)⟩
  refine ⟨fun later earlier s term log recorded => ?_, (saved.votes.step safe taken).single,
    fun later earlier s term log recorded => ?_⟩
  · rcases split recorded with ⟨before, old⟩ | ⟨rfl, -, -, rfl, -⟩
    · exact recovered.term before earlier s term log old
    · exact saved.sent s
  · rcases split recorded with ⟨before, old⟩ | ⟨rfl, -, gone, -, rfl⟩
    · exact recovered.log before earlier s term log old
    · exact saved.killed s gone

theorem recovered_start (preload : Option (Preload Command)) : Recovered (start n preload) :=
  ⟨fun later earlier s term log recorded => by simp [start] at recorded,
    (votes_start preload).single,
    fun later earlier s term log recorded => by simp [start] at recorded⟩

end RaftInMotion
