/-
This file goes through the actions of a cluster. Each is one function of one instance and a
change to at most one goroutine, so each case names the lemma about the function and says why
the goroutine that has moved is grounded. The last theorem puts the cases together.
-/

import RaftInMotion.Model.Turns
import RaftInMotion.Refinement.Simulation

namespace RaftInMotion

open Replication Cluster

variable {n : Nat} {Command : Type} {trust late : Prop} {floor : ℕ}
  {c c' : Cluster n Command} {a a' : Spec n Command} {s : Fin n} {i : ℕ}

/-! ### Assembly -/

theorem voteCall_settle {task moved : Task n Command} {j : ℕ} {call : VoteCall n}
    (present : c.pool[i]? = some task)
    (kept : moved.voteCall = none ∨ moved.voteCall = task.voteCall)
    (now : (c.settle i moved).voteCall j = some call) : c.voteCall j = some call := by
  unfold voteCall settle at *
  by_cases here : i = j
  · subst here
    obtain ⟨within, -⟩ := List.getElem?_eq_some_iff.mp present
    rw [List.getElem?_set_self within] at now
    rw [present]
    rcases kept with ended | same
    · exact absurd (ended.symm.trans now) (by simp)
    · exact same.symm.trans now
  · rwa [List.getElem?_set_ne here] at now

theorem voteCall_settle_ended {task moved : Task n Command} {j : ℕ} {call : VoteCall n}
    (present : c.pool[i]? = some task) (ends : moved.voteCall = none)
    (now : (c.settle i moved).voteCall j = some call) : c.voteCall j = some call ∧ j ≠ i := by
  refine ⟨voteCall_settle present (Or.inl ends) now, fun here => ?_⟩
  subst here
  obtain ⟨within, -⟩ := List.getElem?_eq_some_iff.mp present
  unfold voteCall settle at now
  rw [List.getElem?_set_self within] at now
  exact absurd (ends.symm.trans now) (by simp)

theorem mem_pool {task : Task n Command} (present : c.pool[i]? = some task) : task ∈ c.pool :=
  List.mem_of_getElem? present

/-- A server has moved and one goroutine with it. -/
theorem Refines.settled (refines : Refines trust c a) (invariant : Invariant floor a)
    (moves : Moves late s a a') {task moved : Task n Command} {next : Raft n Command}
    {events : List (Event n Command)} (present : c.pool[i]? = some task)
    (mirrors : Mirrors trust a' s next) (grounded : Grounded trust a' moved)
    (recorded : ∀ event ∈ events, Recorded trust a' event)
    (elections : next.elections = (c.node s).elections)
    (kept : moved.voteCall = none ∨ moved.voteCall = task.voteCall) :
    Refines trust ((c.act s next [] events).settle i moved) a' := by
  refine refines.advance_quiet invariant moves (fun other => Function.update_of_ne other ..)
    ?_ (fun other member => ?_) (fun event member => ?_) ?_ fun now => ?_
  · simpa [settle, act] using mirrors
  · rcases List.mem_or_eq_of_mem_set member with old | rfl
    · exact Or.inl (by simpa [act] using old)
    · exact Or.inr grounded
  · exact (List.mem_append.mp member).symm.imp_right (recorded event)
  · simpa [settle, act] using elections
  · have := voteCall_settle (c := c.act s next [] events) (by simpa [act] using present) kept now
    simpa [voteCall, act] using this

/-- A server has moved and has spawned goroutines that belong to no election. -/
theorem Refines.acted (refines : Refines trust c a) (invariant : Invariant floor a)
    (moves : Moves late s a a') {next : Raft n Command} {spawned : List (Task n Command)}
    {events : List (Event n Command)} (mirrors : Mirrors trust a' s next)
    (grounded : ∀ task ∈ spawned, Grounded trust a' task ∧ task.voteCall = none)
    (recorded : ∀ event ∈ events, Recorded trust a' event)
    (elections : next.elections = (c.node s).elections) :
    Refines trust (c.act s next spawned events) a' := by
  refine refines.advance_quiet invariant moves (fun other => Function.update_of_ne other ..)
    ?_ (fun other member => ?_) (fun event member => ?_) ?_ fun {j call} now => ?_
  · simpa [act] using mirrors
  · exact (List.mem_append.mp member).imp_right fun new => (grounded other new).1
  · exact (List.mem_append.mp member).symm.imp_right (recorded event)
  · simpa [act] using elections
  · simp only [voteCall, act, List.getElem?_append] at now ⊢
    split_ifs at now with old
    · exact now
    · obtain ⟨task, found, isCall⟩ := Option.bind_eq_some_iff.mp now
      have none' := (grounded task (List.mem_of_getElem? found)).2
      exact absurd (none'.symm.trans isCall) (by simp)

/-! ### Requests -/

theorem Refines.send (refines : Refines trust c a) (invariant : Invariant floor a)
    (onTime : late ∨ c.lateRead (.send i) = false) (taken : c.send i = some c') :
    ∃ s a', Moves late s a a' ∧ Refines trust c' a' := by
  unfold Cluster.send at taken
  split at taken
  · next call present =>
    cases taken
    have runs : Runs a call := refines.task _ (mem_pool present)
    have mirrors := refines.node call.candidate
    have asks : Asks a call.peer ((c.node call.candidate).requestVoteArgs call) := by
      refine ⟨?_, ?_, fun _ _ => ?_⟩
      · exact mirrors.id.trans_ne runs.other.symm
      · exact runs.reached.trans_eq (congrArg a.term mirrors.id.symm)
      · simp [Raft.requestVoteArgs, mirrors.id, lastLogIndexAndTerm_eq, mirrors.log]
    refine ⟨call.candidate, a, Moves.refl late _ a, refines.settled invariant
      (Moves.refl late _ a) present mirrors ⟨runs, asks, mirrors.id, rfl⟩
      (fun event member => ?_) rfl (Or.inr rfl)⟩
    rw [List.mem_singleton.mp member]
    trivial
  · next call present =>
    have leads : Leads a call := refines.task _ (mem_pool present)
    have mirrors := refines.node call.leader
    obtain ⟨built, isBuilt, rfl⟩ := Option.map_eq_some_iff.mp taken
    have timely : late ∨ a.role call.leader = .leader ∧
        a.term call.leader = call.savedCurrentTerm := by
      refine onTime.imp (fun allowed => allowed) fun current => ?_
      have same : call.savedCurrentTerm = (c.node call.leader).currentTerm := by
        simpa [lateRead, present] using current
      exact ⟨leads.role (mirrors.term.trans same.symm), mirrors.term.trans same.symm⟩
    obtain ⟨a', moves, mirrors', term, sends⟩ := mirrors.appendEntriesArgs late leads.led
      leads.other timely isBuilt
    refine ⟨call.leader, a', moves, refines.settled invariant moves present mirrors'
      ⟨leads.mono invariant moves.steps fun _ => moves.leading, sends, term⟩
      (fun event member => ?_) rfl (Or.inl rfl)⟩
    rw [List.mem_singleton.mp member]
    trivial
  · cases taken

/-- The events of a handled request are recorded. -/
theorem recorded_handled {peer : Fin n} {term : ℕ} {candidate : Fin n} {granted : Bool}
    {event : Event n Command} (member : event ∈ (.sentTerm peer term ::
      if granted then [.voted peer term candidate] else [] : List (Event n Command))) :
    Recorded trust a event := by
  rcases List.mem_cons.mp member with rfl | rest
  · trivial
  · split_ifs at rest
    · rw [List.mem_singleton.mp rest]
      trivial
    · cases rest

theorem Refines.handle (refines : Refines trust c a) (invariant : Invariant floor a)
    (seen : trust → c.blindAck (.handle i) = false) (taken : c.handle i = some c') :
    ∃ s a', Moves late s a a' ∧ Refines trust c' a' := by
  unfold Cluster.handle at taken
  split at taken
  · next call args present =>
    cases taken
    obtain ⟨runs, asks, candidate, term⟩ :
      Grounded trust a (.voteSent call args) := refines.task _ (mem_pool present)
    obtain ⟨a', moves, mirrors, granted⟩ :=
      (refines.node call.peer).requestVote late invariant asks
    refine ⟨call.peer, a', moves, refines.settled invariant moves present mirrors
      ⟨runs.mono (invariant.steps moves.steps).2, fun counts => ?_⟩
      (fun event => recorded_handled) (Raft.requestVote_elections args) (Or.inr rfl)⟩
    simp only [Raft.votes, Option.any_some, Bool.and_eq_true, decide_eq_true_eq] at counts
    rw [← term, ← candidate]
    exact granted counts.2 (counts.1.trans term.symm)
  · next peer args present =>
    cases taken
    have asks : Asks a peer args := refines.task _ (mem_pool present)
    obtain ⟨a', moves, mirrors, -⟩ := (refines.node peer).requestVote late invariant asks
    exact ⟨peer, a', moves, refines.settled invariant moves present mirrors trivial
      (fun event => recorded_handled) (Raft.requestVote_elections args) (Or.inl rfl)⟩
  · next call nextIndex args present =>
    obtain ⟨leads, sends, term⟩ :
      Grounded trust a (.appendSent call nextIndex args) := refines.task _ (mem_pool present)
    obtain ⟨⟨c₁, reply⟩, isHandled, rfl⟩ := Option.map_eq_some_iff.mp taken
    obtain ⟨⟨next, reply'⟩, handled, same⟩ := Option.map_eq_some_iff.mp isHandled
    cases same
    obtain ⟨a', moves, mirrors, acked⟩ :=
      (refines.node call.peer).appendEntries late invariant sends handled
    have grows := (invariant.steps moves.steps).2
    refine ⟨call.peer, a', moves, refines.settled invariant moves present mirrors
      ⟨leads.mono invariant moves.steps fun _ => moves.leading, fun trusted succeeds same => ?_⟩
      (fun event member => ?_) (Raft.appendEntries_elections handled) (Or.inl rfl)⟩
    · rw [← term]
      refine acked succeeds (fun leader led => ?_) fun alive reached first empty => ?_
      · obtain rfl : call.leader = leader :=
          Option.some.inj ((term ▸ leads.led : a.leader args.term = _).symm.trans led)
        have reached := (invariant.elections.leader_reached leads.led).2
        have forward := grows.term call.leader
        omega
      · by_contra some'
        have blind : c.blindAck (.handle i) = true := by
          simp [blindAck, present, alive, reached, first, empty, some']
        exact absurd (blind.symm.trans (seen trusted)) (by simp)
    · rw [List.mem_singleton.mp member]
      trivial
  · next peer args present =>
    obtain ⟨nextIndex, sends⟩ :
      Grounded trust a (.appendLost peer args) := refines.task _ (mem_pool present)
    obtain ⟨⟨c₁, reply⟩, isHandled, rfl⟩ := Option.map_eq_some_iff.mp taken
    obtain ⟨⟨next, reply'⟩, handled, same⟩ := Option.map_eq_some_iff.mp isHandled
    cases same
    obtain ⟨a', moves, mirrors, -⟩ :=
      (refines.node peer).appendEntries late invariant sends handled
    refine ⟨peer, a', moves, refines.settled invariant moves present mirrors trivial
      (fun event member => ?_) (Raft.appendEntries_elections handled) (Or.inl rfl)⟩
    rw [List.mem_singleton.mp member]
    trivial
  · cases taken

/-! ### Outcomes -/

/-- The outcome of a call for a vote, when the goroutine ends or leaves a lost request. -/
theorem Refines.finishVote (refines : Refines trust c a) (invariant : Invariant floor a)
    {task moved : Task n Command} {call : VoteCall n} {outcome : Option RequestVoteReply}
    (present : c.pool[i]? = some task) (isCall : task.voteCall = some call)
    (ends : moved.voteCall = none) (grounded : ∀ a', Steps late call.candidate a a' →
      Grounded trust a' moved)
    (ballot : Raft.votes call outcome = true →
      a.ballot call.peer call.savedCurrentTerm = some call.candidate)
    (forward : ∀ reply, outcome = some reply →
      (c.node call.candidate).stepsDown call reply = true →
        (c.node call.candidate).currentTerm ≤ reply.term)
    (prompt : (c.node call.candidate).wins call outcome = true →
      call.savedCurrentTerm = (c.node call.candidate).currentTerm) :
    ∃ s a', Moves late s a a' ∧ Refines trust ((c.finishVote call outcome).settle i moved) a' := by
  obtain ⟨time, counted, tally⟩ := refines.tally
  have now : c.voteCall i = some call := by simp [voteCall, present, isCall]
  obtain ⟨a', moves, mirrors, started⟩ := (refines.node call.candidate).receiveVote late
      invariant forward fun wins => by
    obtain ⟨⟨⟨-, -⟩, last⟩, enough⟩ : (((c.node call.candidate).state = .candidate ∧
        outcome.any ((c.node call.candidate).stepsDown call) = false) ∧
        ((c.node call.candidate).elections.getD call.election ⟨0, 0⟩).repliesNeeded = 1) ∧
        (c.node call.candidate).peerIds.length + 1 <
          (c.node call.candidate).votesAfter call outcome * 2 := by
      simpa [Raft.wins] using wins
    rw [Raft.peerIds_length] at enough
    rw [← prompt wins]
    exact tally.voters now last ballot enough
  have grows := (invariant.steps moves.steps).2
  obtain ⟨votes, elections, sums⟩ := (c.node call.candidate).receiveVote_elections call outcome
  refine ⟨call.candidate, a', moves, refines.advance invariant moves
    (fun other => Function.update_of_ne other ..) ?_ (fun task' member => ?_)
    (fun event member => ?_) ?_⟩
  · simpa [settle, Cluster.finishVote, act] using mirrors
  · rcases List.mem_or_eq_of_mem_set member with old | rfl
    · exact Or.inl (by simpa [Cluster.finishVote, act] using old)
    · exact Or.inr (grounded a' moves.steps)
  · rcases List.mem_append.mp member with new | old
    · split_ifs at new with starts
      · rw [List.mem_singleton.mp new]
        exact Or.inr (started starts.1 starts.2)
      · cases new
    · exact Or.inl old
  · have tally' : ∃ counted', Tally a
        (fun s => (((c.finishVote call outcome).settle i moved).node s).elections)
        ((c.finishVote call outcome).settle i moved).voteCall time counted' := by
      refine tally.count now sums ballot ?_ fun now' => ?_
      · funext s
        simp only [settle, Cluster.finishVote, act, Function.update_apply]
        split_ifs with here
        · exact elections
        · rfl
      · have := voteCall_settle_ended (c := c.finishVote call outcome)
          (by simpa [Cluster.finishVote, act] using present) ends now'
        simpa [voteCall, Cluster.finishVote, act] using this
    obtain ⟨counted', tally'⟩ := tally'
    exact ⟨time, counted', tally'.mono grows rfl fun now => now⟩

theorem Refines.finish (refines : Refines trust c a) (invariant : Invariant floor a)
    (noStepDown : c.staleStepDown (.finish i) = false)
    (noVictory : c.staleVictory (.finish i) = false)
    (noStale : trust → c.staleAck (.finish i) = false) (taken : c.finish i = some c') :
    ∃ s a', Moves late s a a' ∧ Refines trust c' a' := by
  unfold Cluster.finish at taken
  split at taken
  · next call reply present =>
    cases taken
    obtain ⟨-, ballot⟩ : Grounded trust a (.voteReplied call reply) :=
      refines.task _ (mem_pool present)
    refine refines.finishVote invariant present rfl rfl (fun _ _ => trivial) ballot ?_ ?_
    · rintro _ ⟨⟩ down
      simpa [staleStepDown, voteOutcome, present, down] using noStepDown
    · intro wins
      simpa [staleVictory, voteOutcome, present, wins] using noVictory
  · next call nextIndex args reply present =>
    obtain ⟨-, acked⟩ : Grounded trust a (.appendReplied call nextIndex args reply) :=
      refines.task _ (mem_pool present)
    obtain ⟨c₁, isReceived, rfl⟩ := Option.map_eq_some_iff.mp taken
    obtain ⟨next, received, rfl⟩ := Option.map_eq_some_iff.mp isReceived
    have mirrors := refines.node call.leader
    obtain ⟨a', moves, mirrors', chosen⟩ := mirrors.receiveAppend late invariant
      (fun trusted leads saved succeeds => by
        have current : call.savedCurrentTerm = (c.node call.leader).currentTerm := by
          simpa [staleAck, present, leads, succeeds, saved] using noStale trusted
        rw [← current]
        exact acked trusted succeeds (mirrors.term.trans current.symm)) received
    refine ⟨call.leader, a', moves, refines.settled invariant moves present mirrors' trivial
      (fun event member => ?_) (Raft.receiveAppend_elections received) (Or.inl rfl)⟩
    split_ifs at member with advances
    · rw [List.mem_singleton.mp member]
      exact fun trusted => chosen trusted advances
    · cases member
  · cases taken

theorem Refines.fail (refines : Refines trust c a) (invariant : Invariant floor a)
    (noVictory : c.staleVictory (.fail i) = false) (taken : c.fail i = some c') :
    ∃ s a', Moves late s a a' ∧ Refines trust c' a' := by
  unfold Cluster.fail at taken
  split at taken
  · next call args present =>
    cases taken
    obtain ⟨-, asks, -⟩ : Grounded trust a (.voteSent call args) :=
      refines.task _ (mem_pool present)
    refine refines.finishVote invariant present rfl rfl
      (fun _ steps => asks.mono steps.frame) (fun granted => by cases granted)
      (fun _ isReply => by cases isReply) fun wins => ?_
    simpa [staleVictory, voteOutcome, present, wins] using noVictory
  · next call reply present =>
    cases taken
    refine refines.finishVote invariant present rfl rfl (fun _ _ => trivial)
      (fun granted => by cases granted) (fun _ isReply => by cases isReply) fun wins => ?_
    simpa [staleVictory, voteOutcome, present, wins] using noVictory
  · next call nextIndex args present =>
    cases taken
    obtain ⟨-, sends, -⟩ : Grounded trust a (.appendSent call nextIndex args) :=
      refines.task _ (mem_pool present)
    refine ⟨call.leader, a, Moves.refl late _ a, ?_⟩
    rw [← act_self c call.leader]
    exact refines.settled invariant (Moves.refl late _ a) present (refines.node _)
      ⟨nextIndex, sends⟩ (fun _ member => by cases member) rfl (Or.inl rfl)
  · next call nextIndex args reply present =>
    cases taken
    refine ⟨call.leader, a, Moves.refl late _ a, ?_⟩
    rw [← act_self c call.leader]
    exact refines.settled invariant (Moves.refl late _ a) present (refines.node _) trivial
      (fun _ member => by cases member) rfl (Or.inl rfl)
  · cases taken

/-! ### Timers -/

theorem Refines.timer (refines : Refines trust c a) (invariant : Invariant floor a)
    {position : ℕ} {expired : Bool} (taken : c.step (.timer s position expired) = some c') :
    ∃ s a', Moves late s a a' ∧ Refines trust c' a' := by
  obtain ⟨⟨next, calls⟩, fired, rfl⟩ := Option.map_eq_some_iff.mp taken
  have mirrors := refines.node s
  rcases Raft.electionTimer_cases fired with ⟨core, elections, rfl⟩ |
    ⟨-, core, elections, rfl⟩
  · have same : next.currentTerm = (c.node s).currentTerm := by
      simpa using congrArg Raft.currentTerm core
    refine ⟨s, a, Moves.refl late s a, refines.acted invariant (Moves.refl late s a)
      (mirrors.of_core core) (fun _ member => by cases member) (fun event member => ?_) elections⟩
    simp [same] at member
  · obtain ⟨a', moves, begun⟩ := mirrors.startElection late invariant
    have grows := (invariant.steps moves.steps).2
    refine ⟨s, a', moves, refines.advance invariant moves
      (fun other => Function.update_of_ne other ..) ?_ (fun task member => ?_)
      (fun event member => ?_) ?_⟩
    · simpa [act] using begun.of_core core
    · refine (List.mem_append.mp member).imp_right fun new => ?_
      obtain ⟨call, isCall, rfl⟩ := List.mem_map.mp new
      obtain ⟨candidate, peer, saved, -⟩ := Raft.mem_startElection isCall
      refine ⟨fun same => peer (same.trans candidate), ?_⟩
      rw [candidate, mirrors.id, saved]
      exact begun.term.ge
    · refine (List.mem_append.mp member).symm.imp_right fun new => ?_
      split_ifs at new
      · rw [List.mem_singleton.mp new]
        trivial
      · cases new
    · obtain ⟨time, counted, tally⟩ := refines.tally
      refine (tally.mono grows rfl fun now => now).start s ((c.node s).currentTerm + 1)
        (c.node s).peerIds.length (fun i => if i < c.pool.length then none
          else (c.node s).startElection.2[i - c.pool.length]?) ?_ (fun {i call} now => ?_)
        (fun {i call} new => ?_) fun {i j call call'} new new' samePeer => ?_
      · funext q
        simp only [act, Function.update_apply]
        split_ifs with here
        · exact elections
        · rfl
      · simp only [voteCall, act, List.getElem?_append] at now ⊢
        split_ifs at now ⊢ with old
        · exact Or.inl now
        · rw [List.getElem?_map, Option.bind_map] at now
          refine Or.inr ?_
          rw [← now]
          cases (c.node s).startElection.2[i - c.pool.length]? <;> rfl
      · split_ifs at new with old
        obtain ⟨candidate, peer, saved, election⟩ :=
          Raft.mem_startElection (List.mem_of_getElem? new)
        rw [mirrors.id] at candidate peer
        exact ⟨candidate, peer, saved, election⟩
      · split_ifs at new with old
        split_ifs at new' with old'
        have := Raft.startElection_distinct new new' samePeer
        omega

/-! ### Other actions -/

/-- A server that restores its term, its vote and its log is the same member again. -/
theorem Mirrors.restart (late : Prop) {rf next : Raft n Command} (mirrors : Mirrors trust a s rf)
    (made : Raft.make s rf.storage = some next) (term : next.currentTerm = rf.currentTerm)
    (vote : next.votedFor = rf.votedFor) (log : next.log = rf.log) :
    Step late s a (a.enter s rf.currentTerm .follower 0) ∧
      Mirrors trust (a.enter s rf.currentTerm .follower 0) s next := by
  obtain ⟨id, state, commitIndex, -, -⟩ := Raft.make_cases made
  refine ⟨.enter a _ _ _ mirrors.term.le (Or.inl rfl) (Or.inr rfl), ⟨id, ?_, ?_, fun _ => ?_,
    fun runs => ?_, fun leads => ?_, fun p spent => ?_, fun active => ?_, fun trusted => ?_,
    fun _ leads => ?_⟩⟩
  · simp [Config.enter, term]
  · simpa [Config.enter, log] using mirrors.log
  · simp [Config.enter]
  · exact absurd (state.symm.trans runs) (by simp)
  · exact absurd (state.symm.trans leads) (by simp)
  · rw [vote]
    exact mirrors.vote p (term ▸ spent)
  · exact absurd active (by simp [state])
  · simp [Config.enter, commitIndex]
  · exact absurd (state.symm.trans leads) (by simp)

theorem Refines.restart (refines : Refines trust c a) (invariant : Invariant floor a)
    (durable : ∀ rf, Raft.make s (c.node s).storage = some rf →
      rf.currentTerm = (c.node s).currentTerm ∧ rf.votedFor = (c.node s).votedFor ∧
        rf.log = (c.node s).log) (taken : c.restart s = some c') :
    ∃ s a', Steps late s a a' ∧ Refines trust c' a' := by
  unfold Cluster.restart at taken
  split_ifs at taken with closed
  obtain ⟨next, made, rfl⟩ := Option.map_eq_some_iff.mp taken
  obtain ⟨term, vote, log⟩ := durable next made
  obtain ⟨-, -, -, -, elections, -⟩ := Raft.make_cases made
  obtain ⟨step, mirrors⟩ := (refines.node s).restart late made term vote log
  have steps : Steps late s a _ := Relation.ReflTransGen.single step
  have grows := (invariant.steps steps).2
  refine ⟨s, _, steps, ⟨fun q => ?_, fun task member => ?_, ?_, fun event member => ?_⟩⟩
  · by_cases here : q = s
    · subst here
      simpa [act] using mirrors
    · simpa [act, here] using (refines.node q).mono steps.frame grows here
  · obtain ⟨before, old, rfl⟩ := List.mem_map.mp member
    have grounded := refines.task before old
    split_ifs with own
    · obtain ⟨grounded', nobody, -⟩ := grounded.orphan
      exact grounded'.mono invariant steps fun same => absurd (nobody.symm.trans same) (by simp)
    · exact grounded.mono invariant steps fun same => absurd same own
  · obtain ⟨time, counted, tally⟩ := refines.tally
    refine ⟨time, counted, (tally.mono grows rfl fun now => now).forget s ?_ fun now => ?_⟩
    · funext q
      simp only [act, Function.update_apply]
      split_ifs with here
      · exact elections
      · rfl
    · obtain ⟨task, found, isCall⟩ := Option.bind_eq_some_iff.mp now
      dsimp only at found
      rw [List.getElem?_map] at found
      obtain ⟨before, present, rfl⟩ := Option.map_eq_some_iff.mp found
      split_ifs at isCall with own
      · have grounded := refines.task before (mem_pool present)
        exact absurd (grounded.orphan.2.2.symm.trans isCall) (by simp)
      · refine ⟨Option.bind_eq_some_iff.mpr ⟨before, present, isCall⟩, fun same => own ?_⟩
        rw [← same]
        exact caller_of_voteCall isCall
  · rcases List.mem_append.mp member with new | old
    · rw [List.mem_singleton.mp new]
      trivial
    · exact (refines.event event old).mono grows

/-- A server acts on its own, without a request or a reply. -/
theorem Refines.acted_core (refines : Refines trust c a) (invariant : Invariant floor a)
    {next : Raft n Command} {spawned : List (Task n Command)} {events : List (Event n Command)}
    (mirrors : Mirrors trust a s next)
    (grounded : ∀ task ∈ spawned, Grounded trust a task ∧ task.voteCall = none)
    (recorded : ∀ event ∈ events, Recorded trust a event)
    (elections : next.elections = (c.node s).elections) :
    ∃ p a', Moves late p a a' ∧ Refines trust (c.act s next spawned events) a' :=
  ⟨s, a, Moves.refl late s a, refines.acted invariant (Moves.refl late s a) mirrors grounded
    recorded elections⟩

theorem Refines.leaderLoop (refines : Refines trust c a) (invariant : Invariant floor a)
    {position : ℕ} (taken : c.step (.leaderLoop s position) = some c') :
    ∃ s a', Moves late s a a' ∧ Refines trust c' a' := by
  obtain ⟨⟨next, calls⟩, turned, rfl⟩ := Option.map_eq_some_iff.mp taken
  obtain ⟨core, elections, calls'⟩ := Raft.leaderLoop_cases turned
  have mirrors := refines.node s
  refine refines.acted_core invariant (mirrors.of_core core) (fun task member => ?_)
    (List.forall_mem_nil _) elections
  obtain ⟨call, isCall, rfl⟩ := List.mem_map.mp member
  rcases calls' with rfl | rfl
  · cases isCall
  · obtain ⟨leads, leader, peer, saved⟩ := Raft.mem_leaderSendHeartbeats isCall
    have role := mirrors.leader leads
    rw [mirrors.id] at leader peer
    refine ⟨⟨leader ▸ peer, ?_, fun _ => leader ▸ role⟩, rfl⟩
    rw [leader, saved, ← mirrors.term]
    exact invariant.elections.leading role

theorem Refines.submit (refines : Refines trust c a) (invariant : Invariant floor a)
    {command : Command} (taken : c.step (.submit s command) = some c') :
    ∃ s a', Moves late s a a' ∧ Refines trust c' a' := by
  obtain ⟨⟨next, index⟩, submitted, rfl⟩ := Option.map_eq_some_iff.mp taken
  obtain ⟨a', moves, mirrors⟩ := (refines.node s).submit late submitted
  refine ⟨s, a', moves, refines.acted invariant moves mirrors (List.forall_mem_nil _)
    (List.forall_mem_nil _) ?_⟩
  rcases Raft.submit_cases submitted with ⟨rfl, -, -⟩ | ⟨rfl, -, -⟩ <;> rfl

/-- Every action without a hazard of elections is matched by steps of one member. -/
theorem Refines.step (late : Prop) (refines : Refines trust c a) (invariant : Invariant floor a)
    {action : Action n Command} (elections : c.promptElections action = true)
    (acks : trust → c.truthfulAcks action = true) (onTime : late ∨ c.lateRead action = false)
    (durable : ∀ s rf, action = .restart s → Raft.make s (c.node s).storage = some rf →
      rf.currentTerm = (c.node s).currentTerm ∧ rf.votedFor = (c.node s).votedFor ∧
        rf.log = (c.node s).log)
    (taken : c.step action = some c') : ∃ s a', Steps late s a a' ∧ Refines trust c' a' := by
  obtain ⟨noStepDown, noVictory⟩ :
      c.staleStepDown action = false ∧ c.staleVictory action = false := by
    simpa [promptElections] using elections
  have truthful : trust → c.blindAck action = false ∧ c.staleAck action = false :=
    fun trusted => by simpa [truthfulAcks] using acks trusted
  have steps : (∃ s a', Moves late s a a' ∧ Refines trust c' a') →
      ∃ s a', Steps late s a a' ∧ Refines trust c' a' :=
    fun ⟨s, a', moves, refines'⟩ => ⟨s, a', moves.steps, refines'⟩
  cases action with
  | timer s position expired => exact steps (refines.timer invariant taken)
  | send i => exact steps (refines.send invariant onTime taken)
  | handle i =>
    exact steps (refines.handle invariant (fun trusted => (truthful trusted).1) taken)
  | finish i =>
    exact steps (refines.finish invariant noStepDown noVictory
      (fun trusted => (truthful trusted).2) taken)
  | fail i => exact steps (refines.fail invariant noVictory taken)
  | submit s command => exact steps (refines.submit invariant taken)
  | leaderLoop s position => exact steps (refines.leaderLoop invariant taken)
  | leaderLoopClosed s position =>
    obtain ⟨next, ended, rfl⟩ := Option.map_eq_some_iff.mp taken
    obtain ⟨core, same⟩ := Raft.leaderLoopClosed_cases ended
    exact steps (refines.acted_core invariant ((refines.node s).of_core core)
      (List.forall_mem_nil _) (List.forall_mem_nil _) same)
  | takeReady s =>
    obtain ⟨next, ready, rfl⟩ := Option.map_eq_some_iff.mp taken
    have mirrors := refines.node s
    rcases Raft.takeReady_cases ready with ⟨-, rfl⟩ | ⟨-, -, rfl⟩ <;>
      exact steps (refines.acted_core invariant ⟨mirrors.id, mirrors.term, mirrors.log,
        mirrors.follower, mirrors.candidate, mirrors.leader, mirrors.vote, mirrors.own,
        mirrors.commit, mirrors.matched⟩ (List.forall_mem_nil _)
        (List.forall_mem_nil _) rfl)
  | sendReady s =>
    obtain ⟨⟨next, entry⟩, sent, rfl⟩ := Option.map_eq_some_iff.mp taken
    have mirrors := refines.node s
    obtain ⟨rest, -, rfl⟩ := Raft.sendReady_cases sent
    refine steps (refines.acted_core invariant ⟨mirrors.id, mirrors.term, mirrors.log,
      mirrors.follower, mirrors.candidate, mirrors.leader, mirrors.vote, mirrors.own,
      mirrors.commit, mirrors.matched⟩ (List.forall_mem_nil _)
      (fun event member => ?_) rfl)
    rw [List.mem_singleton.mp member]
    trivial
  | kill s =>
    obtain ⟨next, killed, rfl⟩ := Option.map_eq_some_iff.mp taken
    refine steps (refines.acted_core invariant ((refines.node s).kill killed)
      (List.forall_mem_nil _) (fun event member => ?_) ?_)
    · split_ifs at member
      · cases member
      · rw [List.mem_singleton.mp member]
        trivial
    · rcases Raft.kill_cases killed with ⟨-, rfl⟩ | ⟨-, rfl⟩ <;> rfl
  | restart s => exact refines.restart invariant (fun rf => durable s rf rfl) taken

/-! ### Starts -/

/-- The configuration in which a cluster starts. -/
def Preload.config (n : Nat) (preload : Option (Preload Command)) : Spec n Command :=
  Config.start ((preload.map Preload.currentTerm).getD 0) ((preload.map Preload.log).getD [])

theorem refines_start (trust : Prop) (preload : Option (Preload Command)) :
    Refines trust (Cluster.start n preload) (Preload.config n preload) ∧
      Invariant ((preload.map Preload.currentTerm).getD 0) (Preload.config n preload) := by
  refine ⟨⟨fun s => ?_, List.forall_mem_nil _, ?_, List.forall_mem_nil _⟩, ?_⟩
  · refine ⟨rfl, rfl, rfl, fun _ => rfl, fun runs => ?_, fun leads => ?_, fun p spent => ?_,
      fun active => ?_, fun _ => rfl, fun _ leads => ?_⟩
    · cases runs
    · cases leads
    · cases spent
    · rcases active with runs | leads
      · cases runs
      · cases leads
    · cases leads
  · refine ⟨fun _ _ => 0, fun _ _ => ∅, ⟨fun now => ?_, fun now => ?_, fun now => ?_,
      fun found => ?_⟩⟩
    · cases now
    · cases now
    · cases now
    · cases found
  · cases preload with
    | none => exact invariant_start List.Pairwise.nil fun _ member => by cases member
    | some preload => exact invariant_start preload.sorted preload.bounded

/-- A run without hazards of elections ends in a state of the protocol. -/
theorem refines_run (trust : Prop) {preload : Option (Preload Command)}
    {actions : List (Action n Command)} {allowed : Cluster n Command → Action n Command → Bool}
    (elections : ∀ c action, allowed c action = true →
      c.restartFree action = true ∧ c.promptElections action = true)
    (acks : trust → ∀ c action, allowed c action = true → c.truthfulAcks action = true)
    (taken : run preload actions = some c)
    (safe : Execution.along Cluster.step allowed (start n preload) actions = true) :
    ∃ a, Invariant ((preload.map Preload.currentTerm).getD 0) a ∧ Refines trust c a := by
  refine Execution.execute_invariant (fun c => ∃ a,
    Invariant ((preload.map Preload.currentTerm).getD 0) a ∧ Refines trust c a) ?_ ?_ safe taken
  · rintro c action next ⟨a, invariant, refines⟩ allows stepped
    obtain ⟨noRestart, prompt⟩ := elections c action allows
    obtain ⟨s, a', steps, refines'⟩ := refines.step True invariant prompt
      (fun trusted => acks trusted c action allows) (Or.inl trivial)
      (fun s rf same => by rw [same] at noRestart; cases noRestart) stepped
    exact ⟨a', (invariant.steps steps).1, refines'⟩
  · obtain ⟨refines, invariant⟩ := refines_start (n := n) trust preload
    exact ⟨_, invariant, refines⟩

end RaftInMotion
