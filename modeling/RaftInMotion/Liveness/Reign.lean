/-
This file settles how long a leader leads. While no election is started and the leader is not
killed, it keeps its role and its term, and no other server takes that role in its term, whatever
else arrives, is lost, is killed or is created again. It takes that no term anywhere is above the
leader's, and that every other server of its term follows.
-/

import RaftInMotion.Model.TimedCluster
import RaftInMotion.Safety.Terms
import RaftInMotion.Safety.Votes

namespace RaftInMotion

open Cluster Execution

variable {n : Nat} {Command : Type}

/-! ### The leader and the others -/

namespace Raft

variable {rf next other : Raft n Command} {term : Nat}

/-- The server leads the term. -/
structure Ruler (term : Nat) (rf : Raft n Command) : Prop where
  leads : rf.state = .leader
  current : rf.currentTerm = term
  opened : rf.chansClosed = false

/-- The server has reached no later term, and in the term itself it follows. -/
structure Subject (term : Nat) (rf : Raft n Command) : Prop where
  reached : rf.currentTerm ≤ term
  saved : rf.storage.currentTerm.getD 0 ≤ term
  follows : rf.currentTerm = term → rf.state = .follower ∨ rf.state = .dead

instance (term : Nat) (rf : Raft n Command) : Decidable (Ruler term rf) :=
  decidable_of_iff (rf.state = .leader ∧ rf.currentTerm = term ∧ rf.chansClosed = false)
    ⟨fun ⟨leads, current, opened⟩ => ⟨leads, current, opened⟩,
      fun ruler => ⟨ruler.leads, ruler.current, ruler.opened⟩⟩

instance (term : Nat) (rf : Raft n Command) : Decidable (Subject term rf) :=
  decidable_of_iff (rf.currentTerm ≤ term ∧ rf.storage.currentTerm.getD 0 ≤ term ∧
      (rf.currentTerm = term → rf.state = .follower ∨ rf.state = .dead))
    ⟨fun ⟨reached, saved, follows⟩ => ⟨reached, saved, follows⟩,
      fun subject => ⟨subject.reached, subject.saved, subject.follows⟩⟩

theorem ruler_of_core (core : next.core = other.core) (ruler : Ruler term other) :
    Ruler term next :=
  ⟨(congrArg Raft.state core).trans ruler.leads, (congrArg Raft.currentTerm core).trans
    ruler.current, (congrArg Raft.chansClosed core).trans ruler.opened⟩

theorem subject_of_core (core : next.core = other.core) (subject : Subject term other) :
    Subject term next := by
  have current : next.core.currentTerm = other.core.currentTerm := congrArg Raft.currentTerm core
  have state : next.core.state = other.core.state := congrArg Raft.state core
  have storage : next.core.storage = other.core.storage := congrArg Raft.storage core
  simp only [core_currentTerm, core_state, core_storage] at current state storage
  refine ⟨current ▸ subject.reached, storage ▸ subject.saved, fun same => ?_⟩
  rw [state]
  exact subject.follows (current.symm.trans same)

theorem Subject.persisted (subject : Subject term rf) : Subject term rf.persistToStorage :=
  ⟨subject.reached, subject.reached, subject.follows⟩

theorem Subject.becomeFollower (subject : Subject term rf) {newer : Nat} (bound : newer ≤ term) :
    Subject term (rf.becomeFollower newer) :=
  ⟨bound, subject.saved, fun _ => Or.inl rfl⟩

theorem Subject.meetTerm (subject : Subject term rf) {newer : Nat} (bound : newer ≤ term) :
    Subject term (rf.meetTerm newer) := by
  unfold Raft.meetTerm
  split_ifs
  · exact subject.becomeFollower bound
  · exact subject

/-- Another server is a subject that follows. -/
theorem subject_of_follower (reached : next.currentTerm ≤ term) (follows : next.state = .follower) :
    Subject term next.persistToStorage :=
  ⟨reached, reached, fun _ => Or.inl follows⟩

/-! ### Requests -/

theorem Subject.requestVote (subject : Subject term rf) {args : RequestVoteArgs n}
    (bound : args.term ≤ term) : Subject term (rf.requestVote args).1 := by
  by_cases alive : rf.state = .dead
  · rw [requestVote_of_dead args alive]
    exact subject
  have met := subject.meetTerm bound
  rcases requestVote_cases args alive with refused | ⟨-, -, -, granted⟩
  · rw [refused]
    exact met.persisted
  · rw [granted]
    exact ⟨met.reached, met.reached, met.follows⟩

/-- A leader answers a request for a vote of its own or an earlier term and stays as it is. -/
theorem Ruler.requestVote (ruler : Ruler term rf) {args : RequestVoteArgs n}
    (bound : args.term ≤ term) : Ruler term (rf.requestVote args).1 := by
  have alive : rf.state ≠ .dead := by simp [ruler.leads]
  have stays : rf.meetTerm args.term = rf := if_neg (by rw [ruler.current]; omega)
  rcases requestVote_cases args alive with refused | ⟨-, -, -, granted⟩
  · rw [refused, stays]
    exact ⟨ruler.leads, ruler.current, ruler.opened⟩
  · rw [granted, stays]
    exact ⟨ruler.leads, ruler.current, ruler.opened⟩

theorem Subject.appendEntries (subject : Subject term rf) {args : AppendEntriesArgs n Command}
    {reply : AppendEntriesReply} (bound : args.term ≤ term)
    (handled : rf.appendEntries args = some (next, reply)) : Subject term next := by
  have heeds : rf.currentTerm ≤ args.term → (rf.heed args.term).currentTerm ≤ term :=
    fun reached => (heed_currentTerm reached).le.trans bound
  cases appendEntries_outcome handled with
  | dead gone => exact subject
  | stale alive older _ _ same current fails =>
    rcases same with rfl | rfl
    · exact subject
    · exact subject.persisted
  | reject alive reached _ current fails =>
    exact subject_of_follower (heeds reached) (heed_state rf args.term)
  | blank alive reached _ current first empty =>
    exact subject_of_follower (heeds reached) (heed_state rf args.term)
  | accept alive reached _ current prevLogIndex position held found same live =>
    refine subject_of_follower ?_ ?_
    · rw [store_currentTerm]
      exact heeds reached
    · rw [store_state]
      exact heed_state rf args.term

/-- A leader turns away a request to append of an earlier term. -/
theorem Ruler.appendEntries (ruler : Ruler term rf) {args : AppendEntriesArgs n Command}
    {reply : AppendEntriesReply} (older : args.term < term)
    (handled : rf.appendEntries args = some (next, reply)) : Ruler term next := by
  have past : args.term < rf.currentTerm := ruler.current ▸ older
  cases appendEntries_outcome handled with
  | dead gone => exact ruler
  | stale alive _ _ _ same current fails =>
    rcases same with rfl | rfl
    · exact ruler
    · exact ⟨ruler.leads, ruler.current, ruler.opened⟩
  | reject alive reached _ current fails => omega
  | blank alive reached _ current first empty => omega
  | accept alive reached _ current prevLogIndex position held found same live => omega

theorem requestVote_reply_le (args : RequestVoteArgs n) :
    (rf.requestVote args).2.term ≤ (rf.requestVote args).1.currentTerm := by
  by_cases alive : rf.state = .dead
  · rw [requestVote_of_dead args alive]
    exact Nat.zero_le _
  rcases requestVote_cases args alive with refused | ⟨reached, -, -, granted⟩
  · rw [refused]
    exact le_rfl
  · rw [granted]
    exact reached.ge

/-! ### Outcomes -/

theorem Subject.receiveVote (subject : Subject term rf) {call : VoteCall n}
    {outcome : Option RequestVoteReply} (bound : ∀ reply ∈ outcome, reply.term ≤ term) :
    Subject term (rf.receiveVote call outcome) := by
  by_cases stays : outcome.any (rf.stepsDown call) = false
  · have core := receiveVote_of_stays stays
    split_ifs at core with wins
    · -- A candidate wins an earlier term at most.
      have runs := ((wins_iff stays).mp wins).1
      refine subject_of_core core ⟨subject.reached, subject.saved, fun same => ?_⟩
      rcases subject.follows same with follows | gone
      · exact absurd (runs.symm.trans follows) (by simp)
      · exact absurd (runs.symm.trans gone) (by simp)
    · exact subject_of_core core subject
  · obtain ⟨reply, rfl, down⟩ := (Option.any_eq_true _ _).mp (by simpa using stays)
    exact subject_of_core (receiveVote_of_stepsDown down)
      (subject.becomeFollower (bound reply rfl))

theorem Ruler.receiveVote (ruler : Ruler term rf) (call : VoteCall n)
    (outcome : Option RequestVoteReply) : Ruler term (rf.receiveVote call outcome) := by
  have stays : outcome.any (rf.stepsDown call) = false := by
    cases outcome <;> simp [stepsDown, ruler.leads]
  have core := receiveVote_of_stays stays
  rw [if_neg (by simp [wins, ruler.leads])] at core
  exact ruler_of_core core ruler

theorem Subject.receiveAppend (subject : Subject term rf) {call : AppendCall n}
    {nextIndexForPeer : Nat} {args : AppendEntriesArgs n Command} {reply : AppendEntriesReply}
    (bound : reply.term ≤ term)
    (received : rf.receiveAppend call nextIndexForPeer args reply = some next) :
    Subject term next := by
  rcases receiveAppend_cases received with ⟨-, rfl⟩ | ⟨-, core, -⟩ | ⟨-, -, -, -, _, _, rfl, rfl, -⟩
  · exact subject.becomeFollower bound
  · exact subject_of_core core subject
  · exact ⟨subject.reached, subject.saved, subject.follows⟩

theorem Ruler.receiveAppend (ruler : Ruler term rf) {call : AppendCall n}
    {nextIndexForPeer : Nat} {args : AppendEntriesArgs n Command} {reply : AppendEntriesReply}
    (bound : reply.term ≤ term)
    (received : rf.receiveAppend call nextIndexForPeer args reply = some next) :
    Ruler term next := by
  rcases receiveAppend_cases received with ⟨newer, -⟩ | ⟨-, core, -⟩ |
    ⟨-, -, -, -, _, _, rfl, rfl, -⟩
  · have := ruler.current
    omega
  · exact ruler_of_core core ruler
  · exact ⟨ruler.leads, ruler.current, ruler.opened⟩

/-! ### Timers -/

/-- A timer that does not start an election leaves the server as it is. -/
theorem electionTimer_quiet {position : Nat} {expired : Bool} {calls : List (VoteCall n)}
    (fired : rf.electionTimer position expired = some (next, calls))
    (quiet : ¬ (expired = true ∧ rf.timers[position]? = some (some rf.currentTerm) ∧
      (rf.state = .candidate ∨ rf.state = .follower))) : next.core = rf.core ∧ calls = [] := by
  unfold electionTimer at fired
  split at fired
  · cases fired
  · cases fired
    exact ⟨rfl, rfl⟩
  · next termStarted read =>
    split_ifs at fired with stopped outdated expires
    · cases fired
      exact ⟨rfl, rfl⟩
    · cases fired
      exact ⟨rfl, rfl⟩
    · refine absurd ⟨expires, ?_, ?_⟩ quiet
      · rw [read, not_not.mp outdated]
      · by_contra neither
        exact stopped (not_or.mp neither)
    · cases fired
      exact ⟨rfl, rfl⟩

end Raft

open Raft (Ruler Subject)

/-! ### Messages -/

/-- No term in the message is above the one of the leader, and no request to append of its term
goes to the leader itself. -/
def Task.Obeys (leader : Fin n) (term : Nat) : Task n Command → Prop
  | .voteSpawned call => call.savedCurrentTerm ≤ term
  | .voteSent _ args | .voteLost _ args => args.term ≤ term
  | .voteReplied _ reply => reply.term ≤ term
  | .appendSpawned call =>
    call.savedCurrentTerm ≤ term ∧ (call.savedCurrentTerm = term → call.peer ≠ leader)
  | .appendSent call _ args => args.term ≤ term ∧ (args.term = term → call.peer ≠ leader)
  | .appendReplied _ _ _ reply => reply.term ≤ term
  | .appendLost peer args => args.term ≤ term ∧ (args.term = term → peer ≠ leader)
  | .finished => True

instance (leader : Fin n) (term : Nat) (task : Task n Command) :
    Decidable (task.Obeys leader term) := by
  cases task <;> unfold Task.Obeys <;> infer_instance

theorem Task.Obeys.orphan {leader : Fin n} {term : Nat} {task : Task n Command}
    (obeys : task.Obeys leader term) : task.orphan.Obeys leader term := by
  cases task <;> first | exact obeys | trivial

/-- The server leads the term, and nobody disputes it. -/
structure Reigns (leader : Fin n) (term : Nat) (c : Cluster n Command) : Prop where
  named : ∀ s, (c.node s).id = s
  ruler : Ruler term (c.node leader)
  subjects : ∀ s, s ≠ leader → Subject term (c.node s)
  tasks : ∀ task ∈ c.pool, task.Obeys leader term

instance (leader : Fin n) (term : Nat) (c : Cluster n Command) :
    Decidable (Reigns leader term c) :=
  decidable_of_iff ((∀ s, (c.node s).id = s) ∧ Ruler term (c.node leader) ∧
      (∀ s, s ≠ leader → Subject term (c.node s)) ∧ ∀ task ∈ c.pool, task.Obeys leader term)
    ⟨fun ⟨named, ruler, subjects, tasks⟩ => ⟨named, ruler, subjects, tasks⟩,
      fun reigns => ⟨reigns.named, reigns.ruler, reigns.subjects, reigns.tasks⟩⟩

namespace Cluster

variable {c c' : Cluster n Command} {action : Action n Command} {leader : Fin n} {term : Nat}

theorem obeys_of_voteRequest {task : Task n Command} {peer : Fin n} {args : RequestVoteArgs n}
    (obeys : task.Obeys leader term) (request : task.voteRequest = some (peer, args)) :
    args.term ≤ term := by
  cases task <;> cases request <;> exact obeys

theorem obeys_of_appendRequest {task : Task n Command} {peer : Fin n}
    {args : AppendEntriesArgs n Command} (obeys : task.Obeys leader term)
    (request : task.appendRequest = some (peer, args)) :
    args.term ≤ term ∧ (args.term = term → peer ≠ leader) := by
  cases task <;> cases request <;> exact obeys

/-- An outcome that is a reply comes from a goroutine that has got it. -/
theorem obeys_of_voteOutcome {call : VoteCall n} {outcome : Option RequestVoteReply}
    (obeys : ∀ task ∈ c.pool, task.Obeys leader term)
    (received : c.voteOutcome action = some (call, outcome)) :
    ∀ reply ∈ outcome, reply.term ≤ term := by
  rintro reply rfl
  cases action with
  | finish i =>
    simp only [voteOutcome] at received
    split at received
    · next present =>
      cases received
      exact obeys _ (List.mem_of_getElem? present)
    · cases received
  | fail i =>
    simp only [voteOutcome] at received
    split at received <;> cases received
  | _ => cases received

/-- A server that is not the leader stays a subject in its turn. -/
theorem Turn.subject {s : Fin n} {next : Raft n Command} {events : List (Event n Command)}
    (turn : c.Turn action s next events) (subject : Subject term (c.node s))
    (obeys : ∀ task ∈ c.pool, task.Obeys leader term)
    (quiet : c.startsElection action s = false) : Subject term next := by
  cases turn with
  | @timer _ position expired _ calls fired =>
    refine Raft.subject_of_core (Raft.electionTimer_quiet fired fun starts => ?_).1 subject
    obtain ⟨expires, reads, runs⟩ := starts
    rcases runs with runs | runs <;> simp [startsElection, expires, reads, runs] at quiet
  | handleVote present request =>
    exact subject.requestVote
      (obeys_of_voteRequest (obeys _ (List.mem_of_getElem? present)) request)
  | handleAppend present request handled =>
    exact subject.appendEntries
      (obeys_of_appendRequest (obeys _ (List.mem_of_getElem? present)) request).1 handled
  | receiveVote received => exact subject.receiveVote (obeys_of_voteOutcome obeys received)
  | receiveAppend present received =>
    exact subject.receiveAppend (obeys _ (List.mem_of_getElem? present)) received
  | submit submitted =>
    rcases Raft.submit_cases submitted with ⟨rfl, -, -⟩ | ⟨rfl, -, -⟩
    · exact subject
    · exact ⟨subject.reached, subject.reached, subject.follows⟩
  | leaderLoop turned => exact Raft.subject_of_core (Raft.leaderLoop_cases turned).1 subject
  | leaderLoopClosed ended =>
    exact Raft.subject_of_core (Raft.leaderLoopClosed_cases ended).1 subject
  | takeReady taken =>
    rcases Raft.takeReady_cases taken with ⟨-, rfl⟩ | ⟨-, -, rfl⟩ <;>
      exact ⟨subject.reached, subject.saved, subject.follows⟩
  | sendReady sent =>
    obtain ⟨rest, -, rfl⟩ := Raft.sendReady_cases sent
    exact ⟨subject.reached, subject.saved, subject.follows⟩
  | kill killed =>
    rcases Raft.kill_cases killed with ⟨-, rfl⟩ | ⟨-, rfl⟩
    · exact subject
    · exact ⟨subject.reached, subject.saved, fun _ => Or.inr rfl⟩
  | restart closed made =>
    obtain ⟨current, -, -, storage⟩ := Raft.make_saved made
    refine ⟨current ▸ subject.saved, storage ▸ subject.saved, fun _ => Or.inl ?_⟩
    exact (Raft.make_cases made).2.1
  | _ => exact subject

/-- The leader stays what it is in its turn. -/
theorem Turn.ruler {next : Raft n Command} {events : List (Event n Command)}
    (turn : c.Turn action leader next events) (ruler : Ruler term (c.node leader))
    (obeys : ∀ task ∈ c.pool, task.Obeys leader term) (lives : action ≠ .kill leader) :
    Ruler term next := by
  cases turn with
  | timer fired =>
    refine Raft.ruler_of_core (Raft.electionTimer_quiet fired fun starts => ?_).1 ruler
    simpa [ruler.leads] using starts.2.2
  | handleVote present request =>
    exact ruler.requestVote
      (obeys_of_voteRequest (obeys _ (List.mem_of_getElem? present)) request)
  | handleAppend present request handled =>
    obtain ⟨bound, own⟩ :=
      obeys_of_appendRequest (obeys _ (List.mem_of_getElem? present)) request
    exact ruler.appendEntries (lt_of_le_of_ne bound fun same => own same rfl) handled
  | receiveVote received => exact ruler.receiveVote _ _
  | receiveAppend present received =>
    exact ruler.receiveAppend (obeys _ (List.mem_of_getElem? present)) received
  | submit submitted =>
    rcases Raft.submit_cases submitted with ⟨rfl, -, -⟩ | ⟨rfl, -, -⟩
    · exact ruler
    · exact ⟨ruler.leads, ruler.current, ruler.opened⟩
  | leaderLoop turned => exact Raft.ruler_of_core (Raft.leaderLoop_cases turned).1 ruler
  | leaderLoopClosed ended =>
    exact Raft.ruler_of_core (Raft.leaderLoopClosed_cases ended).1 ruler
  | takeReady taken =>
    rcases Raft.takeReady_cases taken with ⟨-, rfl⟩ | ⟨-, -, rfl⟩ <;>
      exact ⟨ruler.leads, ruler.current, ruler.opened⟩
  | sendReady sent =>
    obtain ⟨rest, -, rfl⟩ := Raft.sendReady_cases sent
    exact ⟨ruler.leads, ruler.current, ruler.opened⟩
  | kill killed => exact absurd rfl lives
  | restart closed made => exact absurd closed (by simp [ruler.opened])
  | _ => exact ruler

/-- What a goroutine brings is no more than its server had reached. -/
theorem Born.obeys {task : Task n Command} (born : c.Born action task)
    (reigns : Reigns leader term c) (quiet : ∀ s, c.startsElection action s = false) :
    task.Obeys leader term := by
  cases born with
  | @voteSpawned s position expired next calls call fired member =>
    have none := (Raft.electionTimer_quiet fired fun starts => by
      obtain ⟨expires, reads, runs⟩ := starts
      have := quiet s
      rcases runs with runs | runs <;> simp [startsElection, expires, reads, runs] at this).2
    cases none ▸ member
  | @voteSent i call present =>
    have obeys := reigns.tasks _ (List.mem_of_getElem? present)
    exact obeys
  | @voteReplied i call args present =>
    have bound : args.term ≤ term := reigns.tasks _ (List.mem_of_getElem? present)
    refine (Raft.requestVote_reply_le args).trans ?_
    by_cases own : call.peer = leader
    · rw [own]
      exact (reigns.ruler.requestVote bound).current.le
    · exact ((reigns.subjects _ own).requestVote bound).reached
  | @appendSpawned s position next calls call turned member =>
    rcases (Raft.leaderLoop_cases turned).2.2 with none | spawned
    · cases none ▸ member
    obtain ⟨leads, -, peer, saved⟩ := Raft.mem_leaderSendHeartbeats (spawned ▸ member)
    rw [Task.Obeys, saved]
    by_cases own : s = leader
    · rw [reigns.named s, own] at peer
      rw [own]
      exact ⟨reigns.ruler.current.le, fun _ => peer⟩
    · -- Another leader leads an earlier term.
      refine ⟨(reigns.subjects s own).reached, fun same => ?_⟩
      rcases (reigns.subjects s own).follows same with follows | gone
      · exact absurd (leads.symm.trans follows) (by simp)
      · exact absurd (leads.symm.trans gone) (by simp)
  | appendSent present isBuilt =>
    rw [Task.Obeys, (Raft.appendEntriesArgs_fields isBuilt).2.1]
    exact reigns.tasks _ (List.mem_of_getElem? present)
  | @appendReplied i call nextIndexForPeer args next reply present handled =>
    obtain ⟨bound, other⟩ :
        args.term ≤ term ∧ (args.term = term → call.peer ≠ leader) :=
      reigns.tasks _ (List.mem_of_getElem? present)
    refine (Raft.appendEntries_forward handled).2.trans ?_
    by_cases own : call.peer = leader
    · rw [own] at handled
      have older : args.term < term := lt_of_le_of_ne bound fun same => other same own
      exact (reigns.ruler.appendEntries older handled).current.le
    · exact ((reigns.subjects _ own).appendEntries bound handled).reached
  | orphan member => exact (reigns.tasks _ member).orphan
  | finished => trivial

/-- A step in which no election is started and the leader is not killed. -/
def calmFor (c : Cluster n Command) (leader : Fin n) (action : Action n Command) : Bool :=
  decide (∀ s, c.startsElection action s = false) &&
    match action with
    | .kill s => s ≠ leader
    | _ => true

end Cluster

theorem Reigns.step {c c' : Cluster n Command} {action : Action n Command} {leader : Fin n}
    {term : Nat} (reigns : Reigns leader term c) (calm : c.calmFor leader action = true)
    (taken : c.step action = some c') : Reigns leader term c' := by
  obtain ⟨quiet, lives⟩ := Bool.and_eq_true_iff.mp calm
  have quiet := of_decide_eq_true quiet
  have lives : action ≠ .kill leader := by
    rintro rfl
    simp at lives
  obtain ⟨s, next, events, turn, nodes, -⟩ := Cluster.step_turn taken
  have named := Cluster.forall_turned (P := fun p rf => rf.id = p) nodes
    (turn.named (reigns.named s)) fun p _ => reigns.named p
  refine ⟨named, ?_, ?_, ?_⟩
  · rw [nodes, Function.update_apply]
    split_ifs with moved
    · subst moved
      exact turn.ruler reigns.ruler reigns.tasks lives
    · exact reigns.ruler
  · intro p other
    rw [nodes, Function.update_apply]
    split_ifs with moved
    · subst moved
      exact turn.subject (reigns.subjects p other) reigns.tasks (quiet p)
    · exact reigns.subjects p other
  · intro task member
    rcases Cluster.step_born taken task member with old | born
    · exact reigns.tasks task old
    · exact born.obeys reigns quiet

end RaftInMotion
