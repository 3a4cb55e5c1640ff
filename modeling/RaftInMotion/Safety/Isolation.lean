/-
This file proves what a server can do that the others do not reach: one whose calls all find no
client or are dropped by its proxy, and for which no peer has a client. It may time out and take
commands, but it is not elected and commits nothing for as long as it is left alone; and a leader
does not notice, so it leads its term until it is killed. `DisconnectServiceFromPeers` puts a server
out of reach, and so does a proxy once it has let as many calls pass as it was told.

What was under way before counts as well. Neither a request that can still reach the server nor a
call of its own that can still bring a reply may be left; and no election may have its majority
already, since an election is decided whenever one of its calls returns, with an error or not.
-/

import RaftInMotion.Model.Goroutines
import RaftInMotion.Model.Turns

namespace RaftInMotion

open Execution

variable {n : Nat} {Command : Type}

/-! ### One server -/

/-- Without another vote the election is not won. -/
def Election.Hopeless (n : Nat) (election : Election) : Prop :=
  (election.votesReceived + 1) * 2 ≤ n ∨ election.repliesNeeded ≤ 0

/-- What a server does alone: it commits nothing, leads only the term that it has led and leads it
until it is killed, and appends entries only then. -/
structure Alone (rf next : Raft n Command) : Prop where
  commit : next.commitIndex = rf.commitIndex
  leads : next.state = .leader → rf.state = .leader ∧ next.currentTerm = rf.currentTerm
  keeps : rf.state = .leader → next.state = .leader ∨ next.state = .dead
  dead : rf.state = .dead → next.state = .dead
  log : ∃ entries, next.log = rf.log ++ entries ∧
    (entries ≠ [] → rf.state = .leader ∧ ∀ entry ∈ entries, entry.term = rf.currentTerm)

namespace Alone

variable {rf middle next other : Raft n Command}

theorem refl (rf : Raft n Command) : Alone rf rf :=
  ⟨rfl, fun leads => ⟨leads, rfl⟩, Or.inl, id, [], (List.append_nil _).symm,
    fun some_left => absurd rfl some_left⟩

theorem trans (first : Alone rf middle) (second : Alone middle next) : Alone rf next := by
  refine ⟨second.commit.trans first.commit, fun leads => ?_, fun leads => ?_,
    second.dead ∘ first.dead, ?_⟩
  · obtain ⟨led, term⟩ := second.leads leads
    obtain ⟨leads, term'⟩ := first.leads led
    exact ⟨leads, term.trans term'⟩
  · rcases first.keeps leads with leads | gone
    · exact second.keeps leads
    · exact Or.inr (second.dead gone)
  · obtain ⟨entries, log, own⟩ := first.log
    obtain ⟨entries', log', own'⟩ := second.log
    refine ⟨entries ++ entries', by rw [log', log, List.append_assoc], fun some_left => ?_⟩
    -- Entries of the second part are of a term that the server has led from the start.
    have later : entries' ≠ [] →
        rf.state = .leader ∧ ∀ entry ∈ entries', entry.term = rf.currentTerm := by
      intro some_left
      obtain ⟨led, terms⟩ := own' some_left
      obtain ⟨leads, same⟩ := first.leads led
      exact ⟨leads, fun entry member => (terms entry member).trans same⟩
    have leads : rf.state = .leader := by
      rcases eq_or_ne entries [] with rfl | some_first
      · exact (later (by simpa using some_left)).1
      · exact (own some_first).1
    refine ⟨leads, fun entry member => ?_⟩
    rcases List.mem_append.mp member with member | member
    · exact (own (List.ne_nil_of_mem member)).2 entry member
    · exact (later (List.ne_nil_of_mem member)).2 entry member

/-- A step that keeps the log and does not begin to lead. -/
theorem of_same (commit : next.commitIndex = rf.commitIndex) (log : next.log = rf.log)
    (leads : next.state = .leader → rf.state = .leader ∧ next.currentTerm = rf.currentTerm)
    (keeps : rf.state = .leader → next.state = .leader ∨ next.state = .dead)
    (dead : rf.state = .dead → next.state = .dead) : Alone rf next :=
  ⟨commit, leads, keeps, dead, [], by rw [log, List.append_nil],
    fun some_left => absurd rfl some_left⟩

theorem of_core (core : next.core = rf.core) : Alone rf next := by
  have commit : next.core.commitIndex = rf.core.commitIndex := congrArg Raft.commitIndex core
  have log : next.core.log = rf.core.log := congrArg Raft.log core
  have state : next.core.state = rf.core.state := congrArg Raft.state core
  have term : next.core.currentTerm = rf.core.currentTerm := congrArg Raft.currentTerm core
  exact of_same commit log (fun leads => ⟨state.symm.trans leads, term⟩)
    (fun leads => Or.inl (state.trans leads)) state.trans

end Alone

/-- No election of the server is won without another vote. -/
def Raft.Hopeless (rf : Raft n Command) : Prop :=
  ∀ election ∈ rf.elections, election.Hopeless n

namespace Raft

variable {rf next : Raft n Command}

theorem Hopeless.same (hopeless : rf.Hopeless) (same : next.elections = rf.elections) :
    next.Hopeless := by
  unfold Hopeless
  rw [same]
  exact hopeless

/-- An election begins with one vote of at least two, if there is a peer to ask. -/
theorem Hopeless.startElection (hopeless : rf.Hopeless) (same : next.elections =
    rf.startElection.1.elections) : next.Hopeless := by
  unfold Hopeless
  rw [same]
  intro election member
  rcases List.mem_append.mp member with old | new
  · exact hopeless election old
  · obtain rfl := List.mem_singleton.mp new
    have count := rf.peerIds_length
    unfold Election.Hopeless
    dsimp only
    omega

theorem electionTimer_alone {position : Nat} {expired : Bool} {calls : List (VoteCall n)}
    (fired : rf.electionTimer position expired = some (next, calls)) (hopeless : rf.Hopeless) :
    Alone rf next ∧ next.Hopeless := by
  rcases electionTimer_cases fired with
    ⟨core, elections, -⟩ | ⟨asks, core, elections, -⟩
  · exact ⟨Alone.of_core core, hopeless.same elections⟩
  · have commit : next.core.commitIndex = rf.startElection.1.core.commitIndex :=
      congrArg Raft.commitIndex core
    have log : next.core.log = rf.startElection.1.core.log := congrArg Raft.log core
    have runs : next.core.state = rf.startElection.1.core.state := congrArg Raft.state core
    refine ⟨Alone.of_same commit log (fun leads => ?_) (fun leads => ?_) (fun gone => ?_),
      hopeless.startElection elections⟩
    · cases runs.symm.trans leads
    · rcases asks with runs | follows
      · cases leads.symm.trans runs
      · cases leads.symm.trans follows
    · rcases asks with runs | follows
      · cases gone.symm.trans runs
      · cases gone.symm.trans follows

/-- An error brings no vote. -/
theorem receiveVote_alone (call : VoteCall n) (hopeless : rf.Hopeless) :
    Alone rf (rf.receiveVote call none) ∧ (rf.receiveVote call none).Hopeless := by
  have here : (rf.elections.getD call.election ⟨0, 0⟩).Hopeless n := by
    rcases found : rf.elections[call.election]? with _ | election
    · rw [List.getD_eq_getElem?_getD, found]
      exact Or.inr (Int.le_refl 0)
    · rw [List.getD_eq_getElem?_getD, found]
      exact hopeless election (List.mem_of_getElem? found)
  have stays : (none : Option RequestVoteReply).any (rf.stepsDown call) = false := rfl
  have lost : rf.wins call none = false := by
    refine Bool.eq_false_iff.mpr fun wins => ?_
    obtain ⟨-, last, enough⟩ := (wins_iff stays).mp wins
    have count := rf.peerIds_length
    have votes : rf.votesAfter call none =
        (rf.elections.getD call.election ⟨0, 0⟩).votesReceived + 1 := rfl
    rcases here with few | ended
    · omega
    · omega
  refine ⟨Alone.of_core ?_, ?_⟩
  · rw [receiveVote_of_stays stays, lost]
    rfl
  · obtain ⟨count, elections, counted⟩ := receiveVote_elections rf call none
    unfold Hopeless
    rw [elections]
    intro election member
    rcases List.mem_or_eq_of_mem_set member with old | rfl
    · exact hopeless election old
    · rcases here with few | ended
      · by_cases more : 1 < (rf.elections.getD call.election ⟨0, 0⟩).repliesNeeded
        · have same := (counted more).resolve_right fun voted => by cases voted.1
          exact Or.inl (by rw [same]; exact few)
        · exact Or.inr (by dsimp only; omega)
      · exact Or.inr (by dsimp only; omega)

theorem submit_alone {command : Command} {index : Int}
    (submitted : rf.submit command = some (next, index)) (hopeless : rf.Hopeless) :
    Alone rf next ∧ next.Hopeless := by
  rcases submit_cases submitted with ⟨rfl, -, -⟩ | ⟨rfl, leads, -⟩
  · exact ⟨Alone.refl _, hopeless⟩
  · exact ⟨⟨rfl, fun _ => ⟨leads, rfl⟩, Or.inl, fun gone => gone,
      [⟨command, rf.currentTerm⟩], rfl,
      fun _ => ⟨leads, by simp⟩⟩, hopeless⟩

theorem kill_alone (killed : rf.kill = some next) (hopeless : rf.Hopeless) :
    Alone rf next ∧ next.Hopeless := by
  rcases kill_cases killed with ⟨-, rfl⟩ | ⟨-, rfl⟩
  · exact ⟨Alone.refl _, hopeless⟩
  · exact ⟨Alone.of_same rfl rfl nofun (fun _ => Or.inr rfl) fun _ => rfl, hopeless⟩

end Raft

/-! ### Goroutines -/

/-- No reply can come to the server from the goroutine, and no request. -/
def Quiet (s : Fin n) (phase : CallPhase) (task : Task n Command) : Prop :=
  (∀ peer, task.called = some (s, peer) → phase ≠ .sent) ∧
  (task.addressee = some s → phase ≠ .sent ∧ phase ≠ .closed)

namespace Cluster

variable {c c' : Cluster n Command} {action : Action n Command}

/-- A turn of a server that receives no request and no reply, and is not created again. -/
theorem Turn.alone {s : Fin n} {next : Raft n Command} {events : List (Event n Command)}
    (turn : c.Turn action s next events) (hopeless : (c.node s).Hopeless)
    (noRestart : action ≠ .restart s)
    (noRequest : ∀ i, action = .handle i → ∀ task, c.pool[i]? = some task →
      task.addressee ≠ some s)
    (noReply : ∀ i, action = .finish i → ∀ task, c.pool[i]? = some task → ∀ peer,
      task.called ≠ some (s, peer)) : Alone (c.node s) next ∧ next.Hopeless := by
  cases turn with
  | timer fired => exact Raft.electionTimer_alone fired hopeless
  | handleVote present request =>
    exact absurd (Task.addressee_of_voteRequest request) (noRequest _ rfl _ present)
  | handleAppend present request handled =>
    exact absurd (Task.addressee_of_appendRequest request) (noRequest _ rfl _ present)
  | @receiveVote _ call outcome received =>
    cases action with
    | finish i =>
      simp only [voteOutcome] at received
      split at received
      · next present =>
        cases received
        exact absurd rfl (noReply i rfl _ present call.peer)
      · cases received
    | fail i =>
      have failed : outcome = none := by
        simp only [voteOutcome] at received
        split at received <;> cases received <;> rfl
      rw [failed]
      exact Raft.receiveVote_alone call hopeless
    | _ => cases received
  | @receiveAppend i call _ _ _ _ present received =>
    exact absurd rfl (noReply i rfl _ present call.peer)
  | submit submitted => exact Raft.submit_alone submitted hopeless
  | leaderLoop turned =>
    obtain ⟨core, elections, -⟩ := Raft.leaderLoop_cases turned
    exact ⟨.of_core core, hopeless.same elections⟩
  | leaderLoopClosed ended =>
    obtain ⟨core, elections⟩ := Raft.leaderLoopClosed_cases ended
    exact ⟨.of_core core, hopeless.same elections⟩
  | takeReady taken =>
    rcases Raft.takeReady_cases taken with ⟨-, rfl⟩ | ⟨-, -, rfl⟩ <;>
      exact ⟨.of_same rfl rfl (fun leads => ⟨leads, rfl⟩) Or.inl id, hopeless⟩
  | sendReady sent =>
    obtain ⟨rest, -, rfl⟩ := Raft.sendReady_cases sent
    exact ⟨.of_same rfl rfl (fun leads => ⟨leads, rfl⟩) Or.inl id, hopeless⟩
  | kill killed => exact Raft.kill_alone killed hopeless
  | restart closed made => exact absurd rfl noRestart
  | _ => exact ⟨.refl _, hopeless⟩

end Cluster

/-! ### The network -/

/-- No call of the server goes out, and no peer has a client for it. -/
def Network.unreachable (x : Network n Command) (s : Fin n) : Bool :=
  decide (∀ p, x.passes s p = false ∧ x.peerClients p s = false)

/-- The server is out of reach before the step, and is not created again in it. -/
def Network.apart (s : Fin n) (x : Network n Command) (action : NetworkAction n Command) : Bool :=
  x.unreachable s && match action with
    | .raft (.restart server) => server ≠ s
    | _ => true

/-- Nothing of what is under way can reach the server. -/
def Network.Silent (s : Fin n) (x : Network n Command) : Prop :=
  ∀ i task, x.cluster.pool[i]? = some task → Quiet s (x.phases i) task

instance (s : Fin n) (phase : CallPhase) (task : Task n Command) :
    Decidable (Quiet s phase task) :=
  inferInstanceAs (Decidable (_ ∧ _))

instance (s : Fin n) (x : Network n Command) : Decidable (x.Silent s) :=
  decidable_of_iff (∀ (i : Nat) (inside : i < x.cluster.pool.length),
    Quiet s (x.phases i) x.cluster.pool[i])
    ⟨fun quiet i task present => by
      obtain ⟨inside, rfl⟩ := List.getElem?_eq_some_iff.mp present
      exact quiet i inside, fun quiet i inside => quiet i _ (List.getElem?_eq_getElem inside)⟩

instance (election : Election) : Decidable (election.Hopeless n) :=
  inferInstanceAs (Decidable (_ ∨ _))

instance (rf : Raft n Command) : Decidable rf.Hopeless :=
  inferInstanceAs (Decidable (∀ election ∈ rf.elections, _))

theorem Quiet.goes {s : Fin n} {phase : CallPhase} {task before : Task n Command}
    (quiet : Quiet s phase before) (called : task.called = before.called ∨ task.called = none)
    (addressee : task.addressee = before.addressee ∨ task.addressee = none) :
    Quiet s phase task := by
  refine ⟨fun peer isCalled => ?_, fun isAddressee => ?_⟩
  · rcases called with same | gone
    · exact quiet.1 peer (same.symm.trans isCalled)
    · cases gone.symm.trans isCalled
  · rcases addressee with same | gone
    · exact quiet.2 (same.symm.trans isAddressee)
    · cases gone.symm.trans isAddressee

namespace Network

variable {s : Fin n} {x y : Network n Command}

/-- A server out of reach makes no call, and is not called. -/
theorem Silent.phased {action : NetworkAction n Command} {i : Nat} {task : Task n Command}
    {phase : CallPhase} (silent : x.Silent s) (away : x.unreachable s = true)
    (present : x.cluster.pool[i]? = some task) (phased : x.Phased action i phase) :
    Quiet s phase task := by
  have reach := of_decide_eq_true away
  obtain ⟨unanswered, unasked⟩ := silent i task present
  cases phased with
  | keeps begun same =>
    rw [same]
    exact ⟨unanswered, unasked⟩
  | builds begins built =>
    rw [built]
    exact ⟨fun peer called => nofun, fun addressee => ⟨nofun, nofun⟩⟩
  | refuses other refused =>
    rw [refused]
    exact ⟨fun peer called => nofun, fun addressee => ⟨nofun, nofun⟩⟩
  | sends other task' present' id peerId called passes sent =>
    obtain rfl : task = task' := Option.some.inj (present.symm.trans present')
    refine ⟨fun peer called' => ?_, fun addressee => ?_⟩
    · -- The server's own call would not have passed.
      obtain ⟨rfl, rfl⟩ := Prod.mk.inj (Option.some.inj (called.symm.trans called'))
      exact absurd passes (Bool.eq_false_iff.mp (reach peerId).1)
    · -- Nor does a peer have a client for the server.
      obtain rfl := Task.addressee_of_called called addressee
      have client : x.peerClients id s = true := ((Bool.and_eq_true _ _).mp passes).1
      exact absurd client (Bool.eq_false_iff.mp (reach id).2)
  | closes begun waits closed =>
    rw [closed]
    exact ⟨fun peer called => nofun, fun addressee => absurd waits (unasked addressee).1⟩

theorem step_alone {action : NetworkAction n Command} (taken : x.step action = some y)
    (apart : Network.apart s x action = true) (silent : x.Silent s)
    (hopeless : (x.cluster.node s).Hopeless) :
    Alone (x.cluster.node s) (y.cluster.node s) ∧ y.Silent s ∧
      (y.cluster.node s).Hopeless := by
  obtain ⟨away, stays⟩ := (Bool.and_eq_true _ _).mp apart
  have still := fun i task (present : x.cluster.pool[i]? = some task) =>
    silent.phased away present (step_phased taken i)
  rcases step_cluster taken with ⟨raft, rfl, allowed, stepped⟩ | ⟨-, same⟩
  · have quiet : y.Silent s := by
      intro i task present
      cases (Cluster.step_pooled stepped).origin present with
      | idle uncalled unsent =>
        exact ⟨fun peer called => absurd (uncalled.symm.trans called) nofun,
          fun addressee => absurd (unsent.symm.trans addressee) nofun⟩
      | sends built _ =>
        subst built
        rw [(step_phased taken i).built]
        exact ⟨fun peer called => nofun, fun addressee => ⟨nofun, nofun⟩⟩
      | goes before found called request =>
        exact (still i before found).goes called (request.imp_left And.left)
    obtain ⟨p, next, events, turn, nodes, -⟩ := Cluster.step_turn stepped
    rw [nodes]
    rcases eq_or_ne s p with rfl | other
    · have alone := turn.alone hopeless
        (by
          rintro rfl
          exact absurd rfl (of_decide_eq_true stays))
        (by
          rintro i rfl task present addressee
          obtain ⟨unsent, open'⟩ := (silent i task present).2 addressee
          simp [allows, unsent, open'] at allowed)
        (by
          rintro i rfl task present peer called
          have unsent := (silent i task present).1 peer called
          simp [allows, unsent] at allowed)
      rw [Function.update_self]
      exact ⟨alone.1, quiet, alone.2⟩
    · rw [Function.update_of_ne other]
      exact ⟨Alone.refl _, quiet, hopeless⟩
  · refine ⟨same ▸ Alone.refl _, fun i task present => ?_, same ▸ hopeless⟩
    exact still i task (same ▸ present)

end Network

/-- A server that stays out of reach commits nothing and is not elected, and one that leads goes on
to lead its term. -/
theorem isolated_server {x y : Network n Command} {s : Fin n}
    {actions : List (NetworkAction n Command)} (silent : x.Silent s)
    (hopeless : (x.cluster.node s).Hopeless)
    (apart : along Network.step (Network.apart s) x actions = true)
    (run : execute Network.step x actions = some y) :
    Alone (x.cluster.node s) (y.cluster.node s) :=
  execute_related (fun x => x.Silent s ∧ (x.cluster.node s).Hopeless)
    (fun x y => Alone (x.cluster.node s) (y.cluster.node s)) (fun _ _ => Alone.refl _)
    (fun _ _ _ => Alone.trans)
    (fun _ _ _ quiet away taken => (Network.step_alone taken away quiet.1 quiet.2).symm)
    ⟨silent, hopeless⟩ apart run

namespace Network

/-- Server 0 is elected in term 1 by all, and then loses all its connections. -/
def cutOff : List (NetworkAction 3 ℕ) :=
  (Cluster.timeout Cluster.s₀ 0).map .raft ++ roundTrip 0 ++ roundTrip 1 ++
    disconnectService Cluster.s₀

/-- Server 0 takes a command and fails to send it; server 1 is elected in term 2 without it. -/
def leftAlone : List (NetworkAction 3 ℕ) :=
  [.raft (.submit Cluster.s₀ 7), .raft (.leaderLoop Cluster.s₀ 0), .raft (.send 2), .call 2 true,
    .raft (.fail 2)] ++ (Cluster.timeout Cluster.s₁ 1).map .raft ++
    [.raft (.send 4), .call 4 true, .raft (.fail 4)] ++ roundTrip 5

end Network

theorem isolated_server_elected : ∃ x y,
    execute Network.step (Network.start none) Network.cutOff = some x ∧
      execute Network.step x Network.leftAlone = some y ∧
      (y.cluster.node Cluster.s₁).state = .leader ∧
      (y.cluster.node Cluster.s₀).log ≠ (x.cluster.node Cluster.s₀).log ∧
      Alone (x.cluster.node Cluster.s₀) (y.cluster.node Cluster.s₀) := by
  obtain ⟨x, cut, holds⟩ := (Option.any_eq_true _ _).mp (by decide +kernel :
    (execute Network.step (Network.start none) Network.cutOff).any (fun x => decide
      (x.Silent Cluster.s₀ ∧ (x.cluster.node Cluster.s₀).Hopeless ∧
        along Network.step (Network.apart Cluster.s₀) x Network.leftAlone = true ∧
        (execute Network.step x Network.leftAlone).any (fun y => decide
          ((y.cluster.node Cluster.s₁).state = .leader ∧
            (y.cluster.node Cluster.s₀).log ≠ (x.cluster.node Cluster.s₀).log)) = true)) = true)
  obtain ⟨silent, hopeless, apart, moves⟩ := of_decide_eq_true holds
  obtain ⟨y, run, moved⟩ := (Option.any_eq_true _ _).mp moves
  obtain ⟨leads, differs⟩ := of_decide_eq_true moved
  exact ⟨x, y, cut, run, leads, differs, isolated_server silent hopeless apart run⟩

/-! ### Disconnected services -/

namespace Network

variable {s : Fin n} {x y : Network n Command}

/-- The peers close their clients for the server, one by one. -/
theorem disconnectPeers_run {peers : List (Fin n)}
    (run : execute step x (peers.map fun j => .disconnectPeer j s) = some y) :
    y.cluster = x.cluster ∧
      (∀ a b, y.peerClients a b = (x.peerClients a b && !decide (b = s ∧ a ∈ peers))) ∧
      ∀ i, y.phases i = .sent → x.phases i = .sent := by
  induction peers generalizing x with
  | nil =>
    obtain rfl : x = y := by simpa [execute] using run
    exact ⟨rfl, fun a b => by simp, fun _ => id⟩
  | cons peer rest inductionHypothesis =>
    obtain ⟨next, taken, run⟩ := execute_cons.mp run
    obtain rfl : x.disconnectPeer peer s = next := Option.some.inj taken
    obtain ⟨cluster, clients, sent⟩ := inductionHypothesis run
    refine ⟨cluster, fun a b => ?_, fun i waits => ?_⟩
    · rw [clients]
      unfold disconnectPeer close
      rcases eq_or_ne a peer with rfl | other
      · by_cases same : b = s <;> simp [same]
      · simp [other]
    · have before := sent i waits
      unfold disconnectPeer close at before
      dsimp only at before
      split_ifs at before
      exact before

/-- A service that is disconnected from its peers is out of reach, and its calls have returned. -/
theorem disconnectService_run (run : execute step x (disconnectService s) = some y) :
    y.cluster = x.cluster ∧ y.unreachable s = true ∧
      ∀ i task, y.cluster.pool[i]? = some task → ∀ peer, task.called = some (s, peer) →
        y.phases i ≠ .sent := by
  obtain ⟨next, taken, run⟩ := execute_cons.mp run
  obtain rfl : x.disconnectAll s = next := Option.some.inj taken
  obtain ⟨cluster, clients, sent⟩ := disconnectPeers_run run
  have own : ∀ p, y.peerClients s p = false := by
    intro p
    rw [clients]
    simp [disconnectAll, close]
  refine ⟨cluster, decide_eq_true fun p => ⟨by simp [passes, own p], ?_⟩,
    fun i task present peer called waits => ?_⟩
  · rcases eq_or_ne p s with rfl | other
    · exact own p
    · rw [clients]
      simp [other]
  · -- Its own clients were closed first.
    have before := sent i waits
    rw [cluster] at present
    unfold disconnectAll close at before present
    dsimp only at before present
    rw [present] at before
    simp only [Option.bind_some, called, Option.any_some, decide_true, Bool.and_self,
      and_true] at before
    split_ifs at before with closes
    exact closes before

end Network

/-! ### Dropped calls -/

namespace Network

variable {s : Fin n} {x y : Network n Command} {action : NetworkAction n Command}

/-- Whether the proxy of the server lets a call pass that finds a client. -/
def proxied (s : Fin n) (x : Network n Command) : NetworkAction n Command → Option Bool
  | .call task _ =>
    match x.cluster.pool[task]?.bind Task.called with
    | some (id, peerId) =>
      if id = s ∧ x.phases task = .built ∧ x.peerClients id peerId then
        some (x.numCallsBeforeDrop id ≠ 0)
      else none
    | none => none
  | _ => none

/-- The step leaves the proxy of the server as it is set. -/
def keepsProxy (s : Fin n) (_ : Network n Command) : NetworkAction n Command → Bool
  | .dropCallsAfterN id _ | .dontDropCalls id | .raft (.restart id) => id ≠ s
  | _ => true

/-- How a proxy answers calls: a negative number lets all of them pass. -/
def letThrough (budget : Int) (calls : Nat) : List Bool :=
  if budget < 0 then List.replicate calls true
  else List.replicate (min budget.toNat calls) true ++
    List.replicate (calls - budget.toNat) false

/-- The proxy counts a call that it lets pass. -/
def spend (budget : Int) : Int :=
  if budget > 0 then budget - 1 else budget

theorem letThrough_succ (budget : Int) (calls : Nat) :
    letThrough budget (calls + 1) =
      decide (budget ≠ 0) :: letThrough (spend budget) calls := by
  unfold letThrough spend
  rcases lt_trichotomy budget 0 with below | rfl | above
  · have unspent : (if budget > 0 then budget - 1 else budget) = budget := if_neg (by omega)
    rw [unspent, if_pos below, if_pos below, List.replicate_succ, decide_eq_true (by omega)]
  · simp [List.replicate_succ]
  · obtain ⟨left, rfl⟩ : ∃ left : Nat, budget = left + 1 := ⟨(budget - 1).toNat, by omega⟩
    have toNat : ((left : Int) + 1).toNat = left + 1 := by omega
    rw [if_neg (by omega), if_pos above, if_neg (by omega), decide_eq_true (by omega), toNat,
      show ((left : Int) + 1 - 1).toNat = left by omega, Nat.succ_min_succ,
      Nat.succ_sub_succ, List.replicate_succ, List.cons_append]

/-- A call that the proxy is asked about is answered by the count, and counted. -/
theorem proxied_step (taken : x.step action = some y) (kept : keepsProxy s x action = true) :
    (proxied s x action = none ∧ y.numCallsBeforeDrop s = x.numCallsBeforeDrop s) ∨
      proxied s x action = some (decide (x.numCallsBeforeDrop s ≠ 0)) ∧
        y.numCallsBeforeDrop s = spend (x.numCallsBeforeDrop s) := by
  cases action with
  | raft action =>
    refine Or.inl ⟨rfl, ?_⟩
    change x.raft action = some y at taken
    unfold Network.raft at taken
    split_ifs at taken
    obtain ⟨next, stepped, rfl⟩ := Option.map_eq_some_iff.mp taken
    split
    · rfl
    · exact Function.update_of_ne (of_decide_eq_true kept).symm ..
    · rfl
  | call i opened =>
    obtain ⟨id, peerId, isCalled, built, ⟨fails, rfl⟩ | ⟨succeeds, rfl⟩⟩ := call_cases taken
    · simp only [proxied, isCalled]
      split_ifs with asked
      · obtain ⟨rfl, -, client⟩ := asked
        have dropped : x.numCallsBeforeDrop id = 0 := by simpa [passes, client] using fails
        exact Or.inr ⟨rfl, by simp [dropped, spend]⟩
      · exact Or.inl ⟨rfl, trivial⟩
    · simp only [proxied, isCalled]
      obtain ⟨client, left⟩ : x.peerClients id peerId = true ∧ x.numCallsBeforeDrop id ≠ 0 := by
        simpa [passes] using succeeds
      by_cases own : id = s
      · subst own
        rw [if_pos ⟨rfl, built, client⟩]
        refine Or.inr ⟨rfl, ?_⟩
        unfold spend
        split_ifs
        · exact Function.update_self ..
        · rfl
      · rw [if_neg fun asked => own asked.1]
        refine Or.inl ⟨rfl, ?_⟩
        split_ifs
        · exact Function.update_of_ne (Ne.symm own) ..
        · rfl
  | connectToPeer id peerId dialled =>
    cases taken
    refine Or.inl ⟨rfl, ?_⟩
    unfold connectToPeer
    split_ifs <;> rfl
  | dropCallsAfterN id calls =>
    cases taken
    exact Or.inl ⟨rfl, Function.update_of_ne (of_decide_eq_true kept).symm ..⟩
  | dontDropCalls id =>
    cases taken
    exact Or.inl ⟨rfl, Function.update_of_ne (of_decide_eq_true kept).symm ..⟩
  | _ =>
    cases taken
    exact Or.inl ⟨rfl, rfl⟩

/-- Until it is set again, a proxy lets as many calls pass as it was told, and drops the others. -/
theorem drops_after_n {actions : List (NetworkAction n Command)}
    (kept : along step (keepsProxy s) x actions = true) (run : execute step x actions = some y) :
    ∃ calls, observed step (proxied s) x actions =
      letThrough (x.numCallsBeforeDrop s) calls := by
  induction actions generalizing x with
  | nil => exact ⟨0, by simp [observed, letThrough]⟩
  | cons action rest inductionHypothesis =>
    obtain ⟨next, taken, run⟩ := execute_cons.mp run
    obtain ⟨here, later⟩ := along_cons taken kept
    obtain ⟨calls, answers⟩ := inductionHypothesis later run
    simp only [observed, taken]
    rcases proxied_step taken here with ⟨unasked, same⟩ | ⟨asked, spent⟩
    · exact ⟨calls, by rw [unasked, answers, same]; rfl⟩
    · exact ⟨calls + 1, by rw [asked, answers, spent, letThrough_succ]; rfl⟩

/-- Server 0 may make one more call, and asks both others for their votes. -/
def lastCall : List (NetworkAction 3 ℕ) :=
  (Cluster.timeout Cluster.s₀ 0).map .raft ++
    [.raft (.send 0), .call 0 true, .raft (.send 1), .call 1 true]

theorem drops_after_n_last : ∃ y calls,
    execute step ((start none).setBudget Cluster.s₀ 1) lastCall = some y ∧
      letThrough 1 calls = [true, false] := by
  obtain ⟨y, run⟩ := Option.isSome_iff_exists.mp (by decide +kernel :
    (execute step ((start none).setBudget Cluster.s₀ 1) lastCall).isSome = true)
  obtain ⟨calls, answers⟩ := drops_after_n (s := Cluster.s₀) (by decide +kernel) run
  exact ⟨y, calls, run, answers.symm.trans (by decide +kernel)⟩

end Network

end RaftInMotion
