/-
This file inverts what a step does to the goroutines with a call in progress. They keep their
places in the pool: a step adds new ones at its end, moves one, or lets those of an old instance
stop waiting. How far their calls are changes with the clients of the servers.
-/

import RaftInMotion.Model.Network

namespace RaftInMotion

open Execution

variable {n : Nat} {Command : Type}

namespace Task

theorem orphan_called (task : Task n Command) : task.orphan.called = none := by
  cases task <;> rfl

theorem orphan_addressee (task : Task n Command) : task.orphan.addressee = task.addressee := by
  cases task <;> rfl

theorem orphan_appendRequest (task : Task n Command) :
    task.orphan.appendRequest = task.appendRequest := by
  cases task <;> rfl

theorem addressee_of_voteRequest {task : Task n Command} {peer : Fin n} {args : RequestVoteArgs n}
    (request : task.voteRequest = some (peer, args)) : task.addressee = some peer := by
  cases task <;> cases request <;> rfl

theorem addressee_of_appendRequest {task : Task n Command} {peer : Fin n}
    {args : AppendEntriesArgs n Command} (request : task.appendRequest = some (peer, args)) :
    task.addressee = some peer := by
  cases task <;> cases request <;> rfl

theorem addressee_of_called {task : Task n Command} {caller peer p : Fin n}
    (called : task.called = some (caller, peer)) (addressee : task.addressee = some p) :
    p = peer := by
  cases task <;> cases called <;> cases addressee <;> rfl

end Task

namespace Cluster

/-- What a step makes of the pool. -/
inductive Pooled (c : Cluster n Command) : Action n Command → List (Task n Command) → Prop
  | timer {s : Fin n} {position : Nat} {expired : Bool} {next : Raft n Command}
      {calls : List (VoteCall n)}
      (fired : (c.node s).electionTimer position expired = some (next, calls)) :
      Pooled c (.timer s position expired) (c.pool ++ calls.map .voteSpawned)
  | leaderLoop {s : Fin n} {position : Nat} {next : Raft n Command} {calls : List (AppendCall n)}
      (turned : (c.node s).leaderLoop position = some (next, calls)) :
      Pooled c (.leaderLoop s position) (c.pool ++ calls.map .appendSpawned)
  | sendVote {i : Nat} {call : VoteCall n} (present : c.pool[i]? = some (.voteSpawned call)) :
      Pooled c (.send i)
        (c.pool.set i (.voteSent call ((c.node call.candidate).requestVoteArgs call)))
  | sendAppend {i : Nat} {call : AppendCall n} {built : Nat × AppendEntriesArgs n Command}
      (present : c.pool[i]? = some (.appendSpawned call))
      (isBuilt : (c.node call.leader).appendEntriesArgs call = some built) :
      Pooled c (.send i) (c.pool.set i (.appendSent call built.1 built.2))
  | answerVote {i : Nat} {call : VoteCall n} {args : RequestVoteArgs n}
      (present : c.pool[i]? = some (.voteSent call args)) :
      Pooled c (.handle i)
        (c.pool.set i (.voteReplied call ((c.node call.peer).requestVote args).2))
  | answerAppend {i : Nat} {call : AppendCall n} {nextIndexForPeer : Nat}
      {args : AppendEntriesArgs n Command} {reply : AppendEntriesReply}
      (present : c.pool[i]? = some (.appendSent call nextIndexForPeer args)) :
      Pooled c (.handle i) (c.pool.set i (.appendReplied call nextIndexForPeer args reply))
  | answerNobody {i : Nat} {task : Task n Command} (present : c.pool[i]? = some task)
      (lost : task.caller = none) : Pooled c (.handle i) (c.pool.set i .finished)
  | finish {i : Nat} {task : Task n Command} (present : c.pool[i]? = some task) :
      Pooled c (.finish i) (c.pool.set i .finished)
  | fail {i : Nat} {task : Task n Command} (present : c.pool[i]? = some task) :
      Pooled c (.fail i) (c.pool.set i task.orphan)
  | restart {s : Fin n} : Pooled c (.restart s)
      (c.pool.map fun task => if task.caller = some s then task.orphan else task)
  | same {action : Action n Command} (other : c.voteOutcome action = none) :
      Pooled c action c.pool

variable {c c' : Cluster n Command} {action : Action n Command}

theorem step_pooled (taken : c.step action = some c') : c.Pooled action c'.pool := by
  have still : ∀ s next events, (c.act s next [] events).pool = c.pool :=
    fun s next events => List.append_nil _
  cases action with
  | timer s position expired =>
    obtain ⟨⟨next, calls⟩, fired, rfl⟩ := Option.map_eq_some_iff.mp taken
    exact .timer fired
  | leaderLoop s position =>
    obtain ⟨⟨next, calls⟩, turned, rfl⟩ := Option.map_eq_some_iff.mp taken
    exact .leaderLoop turned
  | send i =>
    simp only [step, send] at taken
    split at taken
    · next call present =>
      cases taken
      simpa only [settle, still] using Pooled.sendVote present
    · next call present =>
      obtain ⟨built, isBuilt, rfl⟩ := Option.map_eq_some_iff.mp taken
      simpa only [settle, still] using Pooled.sendAppend present isBuilt
    · cases taken
  | handle i =>
    simp only [step, handle] at taken
    split at taken
    · next call args present =>
      cases taken
      simpa only [settle, handleVote, still] using Pooled.answerVote present
    · next peer args present =>
      cases taken
      simpa only [settle, handleVote, still] using Pooled.answerNobody present rfl
    · next call nextIndexForPeer args present =>
      obtain ⟨moved, isMoved, rfl⟩ := Option.map_eq_some_iff.mp taken
      obtain ⟨handled, -, rfl⟩ := Option.map_eq_some_iff.mp isMoved
      simpa only [settle, still] using Pooled.answerAppend present
    · next peer args present =>
      obtain ⟨moved, isMoved, rfl⟩ := Option.map_eq_some_iff.mp taken
      obtain ⟨handled, -, rfl⟩ := Option.map_eq_some_iff.mp isMoved
      simpa only [settle, still] using Pooled.answerNobody present rfl
    · cases taken
  | finish i =>
    simp only [step, finish] at taken
    split at taken
    · next call reply present =>
      cases taken
      simpa only [settle, finishVote, still] using Pooled.finish present
    · next call nextIndexForPeer args reply present =>
      obtain ⟨moved, isMoved, rfl⟩ := Option.map_eq_some_iff.mp taken
      obtain ⟨next, -, rfl⟩ := Option.map_eq_some_iff.mp isMoved
      simpa only [settle, still] using Pooled.finish present
    · cases taken
  | fail i =>
    simp only [step, fail] at taken
    split at taken
    · next call args present =>
      cases taken
      simpa only [settle, finishVote, still, Task.orphan] using Pooled.fail present
    · next call reply present =>
      cases taken
      simpa only [settle, finishVote, still, Task.orphan] using Pooled.fail present
    · next call nextIndexForPeer args present =>
      cases taken
      exact .fail present
    · next call nextIndexForPeer args reply present =>
      cases taken
      exact .fail present
    · cases taken
  | restart s =>
    simp only [step, restart] at taken
    split_ifs at taken with closed
    obtain ⟨next, -, rfl⟩ := Option.map_eq_some_iff.mp taken
    exact .restart
  | _ =>
    obtain ⟨next, -, rfl⟩ := Option.map_eq_some_iff.mp taken
    simpa only [still] using Pooled.same rfl

/-- Where the goroutine at a place comes from: it calls nobody yet or any more, has just built its
request, or goes on with its call, if it does not leave it. -/
inductive Origin (c : Cluster n Command) (action : Action n Command) (i : Nat)
    (task : Task n Command) : Prop
  | idle (uncalled : task.called = none) (unsent : task.addressee = none)
  | sends (built : action = .send i)
      (commit : ∀ peer args, task.appendRequest = some (peer, args) →
        ∃ s, task.called = some (s, peer) ∧ args.leaderCommit = (c.node s).commitIndex)
  | goes (before : Task n Command) (present : c.pool[i]? = some before)
      (called : task.called = before.called ∨ task.called = none)
      (request : task.addressee = before.addressee ∧ task.appendRequest = before.appendRequest ∨
        task.addressee = none)

theorem origin_same {i : Nat} {task : Task n Command} (present : c.pool[i]? = some task) :
    c.Origin action i task :=
  .goes task present (Or.inl rfl) (Or.inl ⟨rfl, rfl⟩)

/-- A goroutine that moves is the only one that differs. -/
theorem origin_set {i j : Nat} {moved task : Task n Command}
    (present : (c.pool.set j moved)[i]? = some task) (origin : c.Origin action j moved) :
    c.Origin action i task := by
  rw [List.getElem?_set] at present
  split_ifs at present with here
  · cases present
    exact here ▸ origin
  · exact origin_same present

theorem origin_append {i : Nat} {spawned : List (Task n Command)} {task : Task n Command}
    (idle : ∀ task ∈ spawned, task.called = none ∧ task.addressee = none)
    (present : (c.pool ++ spawned)[i]? = some task) : c.Origin action i task := by
  rw [List.getElem?_append] at present
  split_ifs at present
  · exact origin_same present
  · obtain ⟨uncalled, unsent⟩ := idle task (List.mem_of_getElem? present)
    exact .idle uncalled unsent

theorem Pooled.origin {pool : List (Task n Command)} (pooled : c.Pooled action pool) {i : Nat}
    {task : Task n Command} (present : pool[i]? = some task) : c.Origin action i task := by
  cases pooled with
  | timer fired => exact origin_append (by simp [Task.called, Task.addressee]) present
  | leaderLoop turned => exact origin_append (by simp [Task.called, Task.addressee]) present
  | sendVote sent => exact origin_set present (.sends rfl nofun)
  | sendAppend sent isBuilt =>
    refine origin_set present (.sends rfl fun peer args request => ?_)
    cases request
    exact ⟨_, rfl, (Raft.appendEntriesArgs_fields isBuilt).2.2.2.2.2⟩
  | answerVote sent => exact origin_set present (.goes _ sent (Or.inl rfl) (Or.inr rfl))
  | answerAppend sent => exact origin_set present (.goes _ sent (Or.inl rfl) (Or.inr rfl))
  | answerNobody sent lost => exact origin_set present (.idle rfl rfl)
  | finish sent => exact origin_set present (.idle rfl rfl)
  | @fail _ before sent =>
    exact origin_set present (.goes _ sent (Or.inr before.orphan_called)
      (Or.inl ⟨before.orphan_addressee, before.orphan_appendRequest⟩))
  | restart =>
    rw [List.getElem?_map] at present
    obtain ⟨before, found, rfl⟩ := Option.map_eq_some_iff.mp present
    split_ifs
    · exact .goes before found (Or.inr before.orphan_called)
        (Or.inl ⟨before.orphan_addressee, before.orphan_appendRequest⟩)
    · exact origin_same found
  | same other => exact origin_same present

end Cluster

namespace Network

variable {x y : Network n Command} {action : NetworkAction n Command}

/-- What the phase of the call at a place becomes. -/
inductive Phased (x : Network n Command) (action : NetworkAction n Command) (i : Nat)
    (phase : CallPhase) : Prop
  | keeps (begun : action ≠ .raft (.send i)) (same : phase = x.phases i)
  | builds (begins : action = .raft (.send i)) (built : phase = .built)
  | refuses (other : ∀ raft, action ≠ .raft raft) (refused : phase = .refused)
  | sends (other : ∀ raft, action ≠ .raft raft) (task : Task n Command)
      (present : x.cluster.pool[i]? = some task) (id peerId : Fin n)
      (called : task.called = some (id, peerId)) (passes : x.passes id peerId = true)
      (sent : phase = .sent)
  | closes (begun : action ≠ .raft (.send i)) (waits : x.phases i = .sent)
      (closed : phase = .closed)

/-- A call is built when its goroutine begins it. -/
theorem Phased.built {i : Nat} {phase : CallPhase} (phased : x.Phased (.raft (.send i)) i phase) :
    phase = .built := by
  cases phased with
  | builds begins built => exact built
  | keeps begun same => exact absurd rfl begun
  | closes begun waits closed => exact absurd rfl begun
  | refuses other refused => exact absurd rfl (other _)
  | sends other => exact absurd rfl (other _)

/-- The proxy takes a call that is built, and lets it pass or refuses it. -/
theorem call_cases {i : Nat} {opened : Bool} (taken : x.call i opened = some y) :
    ∃ id peerId, x.cluster.pool[i]?.bind Task.called = some (id, peerId) ∧ x.phases i = .built ∧
      (x.passes id peerId = false ∧ y = { x with phases := Function.update x.phases i .refused } ∨
        x.passes id peerId = true ∧ y = { x with
          numCallsBeforeDrop :=
            if x.numCallsBeforeDrop id > 0 then
              Function.update x.numCallsBeforeDrop id (x.numCallsBeforeDrop id - 1)
            else x.numCallsBeforeDrop
          phases := Function.update x.phases i (if opened then .sent else .refused) }) := by
  unfold Network.call at taken
  split at taken
  · next id peerId called =>
    split at taken
    · cases taken
    next built =>
    refine ⟨id, peerId, called, not_not.mp built, ?_⟩
    split at taken
    · next refused =>
      cases taken
      exact Or.inl ⟨by simpa using refused, rfl⟩
    · next passes =>
      cases taken
      exact Or.inr ⟨by simpa using passes, rfl⟩
  · cases taken

/-- A step is a step of the instances, or leaves them as they are. -/
theorem step_cluster (taken : x.step action = some y) :
    (∃ raft, action = .raft raft ∧ x.allows raft = true ∧
      x.cluster.step raft = some y.cluster) ∨
    (∀ raft, action ≠ .raft raft) ∧ y.cluster = x.cluster := by
  cases action with
  | raft action =>
    change x.raft action = some y at taken
    unfold Network.raft at taken
    split_ifs at taken with allowed
    obtain ⟨next, stepped, rfl⟩ := Option.map_eq_some_iff.mp taken
    refine Or.inl ⟨action, rfl, allowed, stepped.trans ?_⟩
    split <;> rfl
  | call task opened =>
    obtain ⟨id, peerId, -, -, ⟨-, rfl⟩ | ⟨-, rfl⟩⟩ := call_cases taken
    · exact Or.inr ⟨nofun, rfl⟩
    · exact Or.inr ⟨nofun, rfl⟩
  | connectToPeer id peerId dialled =>
    cases taken
    refine Or.inr ⟨nofun, ?_⟩
    unfold connectToPeer
    split_ifs <;> rfl
  | _ =>
    cases taken
    exact Or.inr ⟨nofun, rfl⟩

theorem phased_close (x : Network n Command) (id : Fin n) (peers : Fin n → Bool) (i : Nat)
    (begun : action ≠ .raft (.send i)) : x.Phased action i ((x.close id peers).phases i) := by
  unfold close
  dsimp only
  split_ifs with closes
  · exact .closes begun closes.1 rfl
  · exact .keeps begun rfl

theorem phased_update {i : Nat} {phase : CallPhase} {phases : Nat → CallPhase}
    (changed : phases = Function.update x.phases i phase) (here : x.Phased action i phase)
    (begun : ∀ j, action = .raft (.send j) → j = i) (j : Nat) : x.Phased action j (phases j) := by
  rw [changed]
  rcases eq_or_ne j i with rfl | other
  · rw [Function.update_self]
    exact here
  · exact .keeps (fun begins => other (begun j begins)) (Function.update_of_ne other ..)

theorem step_phased (taken : x.step action = some y) (i : Nat) :
    x.Phased action i (y.phases i) := by
  cases action with
  | raft action =>
    change x.raft action = some y at taken
    unfold Network.raft at taken
    split_ifs at taken
    obtain ⟨next, stepped, rfl⟩ := Option.map_eq_some_iff.mp taken
    split
    · next j =>
      refine phased_update rfl (.builds rfl rfl) (fun k begins => ?_) i
      cases begins
      rfl
    · refine phased_close x _ (fun _ => true) i ?_
      nofun
    · next other _ => exact .keeps (fun begins => other i (by cases begins; rfl)) rfl
  | call j opened =>
    obtain ⟨id, peerId, isCalled, -, ⟨-, rfl⟩ | ⟨passes, rfl⟩⟩ := call_cases taken
    · have here : x.Phased (.call j opened) j .refused := .refuses nofun rfl
      exact phased_update rfl here (fun _ begins => nomatch begins) i
    · obtain ⟨task, present, called⟩ := Option.bind_eq_some_iff.mp isCalled
      have here : x.Phased (.call j opened) j (if opened then .sent else .refused) := by
        split_ifs
        · exact .sends nofun task present id peerId called passes rfl
        · exact .refuses nofun rfl
      exact phased_update rfl here (fun _ begins => nomatch begins) i
  | connectToPeer id peerId dialled =>
    cases taken
    refine .keeps nofun ?_
    unfold connectToPeer
    split_ifs <;> rfl
  | disconnectPeer id peerId =>
    cases taken
    exact phased_close x _ _ i nofun
  | disconnectAll id =>
    cases taken
    exact phased_close x _ _ i nofun
  | _ =>
    cases taken
    exact .keeps nofun rfl

/-- Connections only restrict the instances: whatever happens to them, the instances take a run of
the cluster. -/
theorem run_cluster {actions : List (NetworkAction n Command)}
    (run : execute step x actions = some y) :
    execute Cluster.step x.cluster (actions.filterMap raftAction) = some y.cluster := by
  refine (execute_part (fun _ => True) (fun x action y _ _ taken => ⟨trivial, ?_, along_always⟩)
    trivial along_always run).1
  rcases step_cluster taken with ⟨raft, rfl, -, stepped⟩ | ⟨other, same⟩
  · exact execute_cons.mpr ⟨y.cluster, stepped, rfl⟩
  · cases action with
    | raft action => exact absurd rfl (other action)
    | _ => exact congrArg some same.symm

end Network

end RaftInMotion
