/-
This file settles how often a server votes in a term. `becomeFollower` clears the vote also when
it is called with a term that is not new: for a candidate or leader that hears from a leader of
its own term, and for a candidate that receives the reply to an earlier election. In a run
without these calls all votes of a server in a term are for one candidate.
-/

import RaftInMotion.Safety.Terms

namespace RaftInMotion

open Cluster Execution

variable {n : Nat} {Command : Type}

namespace Raft

variable {rf next : Raft n Command}

/-- The server does not go back, and while it is in the same term it stands by its vote. -/
structure Keeps (rf next : Raft n Command) : Prop where
  forward : rf.currentTerm ≤ next.currentTerm
  vote : ∀ candidate, next.currentTerm = rf.currentTerm → rf.votedFor = some candidate →
    next.votedFor = some candidate

theorem Keeps.refl (rf : Raft n Command) : Keeps rf rf :=
  ⟨le_rfl, fun _ _ voted => voted⟩

theorem keeps_of_newer (newer : rf.currentTerm < next.currentTerm) : Keeps rf next :=
  ⟨newer.le, fun _ same => absurd same newer.ne'⟩

theorem keeps_of_same (term : next.currentTerm = rf.currentTerm)
    (vote : next.votedFor = rf.votedFor) : Keeps rf next :=
  ⟨term.ge, fun _ _ voted => vote.trans voted⟩

theorem keeps_of_core {other : Raft n Command} (core : next.core = other.core)
    (term : other.currentTerm = rf.currentTerm) (vote : other.votedFor = rf.votedFor) :
    Keeps rf next := by
  have sameTerm : next.core.currentTerm = other.core.currentTerm := congrArg Raft.currentTerm core
  have sameVote : next.core.votedFor = other.core.votedFor := congrArg Raft.votedFor core
  exact keeps_of_same (sameTerm.trans term) (sameVote.trans vote)

theorem meetTerm_keeps (rf : Raft n Command) (term : Nat) : Keeps rf (rf.meetTerm term) := by
  unfold meetTerm
  split_ifs with newer
  · exact keeps_of_newer newer
  · exact Keeps.refl rf

theorem requestVote_keeps (rf : Raft n Command) (args : RequestVoteArgs n) :
    Keeps rf (rf.requestVote args).1 := by
  by_cases alive : rf.state = .dead
  · rw [requestVote_of_dead args alive]
    exact Keeps.refl rf
  · have meets := meetTerm_keeps rf args.term
    rcases requestVote_cases args alive with refused | ⟨-, free, -, granted⟩
    · rw [refused]
      exact ⟨meets.forward, meets.vote⟩
    · rw [granted]
      refine ⟨meets.forward, fun candidate same voted => ?_⟩
      -- A vote that is still held can only be for the candidate that asks again.
      have held := meets.vote candidate same voted
      rcases free with free | free
      · cases held.symm.trans free
      · exact free.symm.trans held

theorem heed_keeps {term : Nat} (reached : rf.currentTerm ≤ term)
    (follows : rf.currentTerm = term → rf.state = .follower) : Keeps rf (rf.heed term) := by
  unfold heed
  split_ifs with meets
  · rcases reached.lt_or_eq with newer | same
    · exact keeps_of_newer newer
    · exact absurd (follows same) (meets.resolve_left same.not_lt)
  · exact Keeps.refl rf

theorem appendEntries_keeps {args : AppendEntriesArgs n Command} {reply : AppendEntriesReply}
    (handled : rf.appendEntries args = some (next, reply))
    (follows : rf.state ≠ .dead → rf.currentTerm = args.term → rf.state = .follower) :
    Keeps rf next := by
  cases appendEntries_outcome handled with
  | dead gone => exact Keeps.refl rf
  | stale alive older _ _ same term fails =>
    rcases same with rfl | rfl <;> exact keeps_of_same rfl rfl
  | reject alive reached _ term fails =>
    have heeds := heed_keeps reached (follows alive)
    exact ⟨heeds.forward, heeds.vote⟩
  | blank alive reached _ term first empty =>
    have heeds := heed_keeps reached (follows alive)
    exact ⟨heeds.forward, heeds.vote⟩
  | accept alive reached _ term prevLogIndex position held found same live =>
    have heeds := heed_keeps reached (follows alive)
    constructor
    · rw [persistToStorage_currentTerm, store_currentTerm]
      exact heeds.forward
    · rw [persistToStorage_currentTerm, store_currentTerm, persistToStorage_votedFor,
        store_votedFor]
      exact heeds.vote

theorem receiveAppend_keeps {call : AppendCall n} {nextIndexForPeer : Nat}
    {args : AppendEntriesArgs n Command} {reply : AppendEntriesReply}
    (received : rf.receiveAppend call nextIndexForPeer args reply = some next) : Keeps rf next := by
  rcases receiveAppend_cases received with ⟨newer, rfl⟩ | ⟨-, core, -⟩ |
    ⟨-, -, -, -, _, _, rfl, rfl, -⟩
  · exact keeps_of_newer newer
  · exact keeps_of_core core rfl rfl
  · exact keeps_of_same rfl rfl

end Raft

open Raft (Keeps)

variable {c c' : Cluster n Command} {action : Action n Command}

theorem restart_saved {s : Fin n} {next : Raft n Command}
    (saved : c.unsavedRestart (.restart s) = false)
    (made : Raft.make s (c.node s).storage = some next) : (c.node s).state = .dead ∧
      next.currentTerm = (c.node s).currentTerm ∧ next.votedFor = (c.node s).votedFor := by
  obtain ⟨term, vote, -, -⟩ := Raft.make_saved made
  simp only [unsavedRestart, ne_eq, Bool.or_eq_false_iff, decide_eq_false_iff_not, not_not]
    at saved
  exact ⟨saved.1.1, term.trans saved.1.2, vote.trans saved.2⟩

/-- A server that takes its turn keeps its vote, unless it is erased or was never saved. -/
theorem Cluster.Turn.keeps {s : Fin n} {next : Raft n Command} {events : List (Event n Command)}
    (turn : c.Turn action s next events) (safe : c.safeRestarts action = true) :
    Keeps (c.node s) next := by
  obtain ⟨stands, saved⟩ : c.erasesVote action = false ∧ c.unsavedRestart action = false := by
    simpa [safeRestarts] using safe
  cases turn with
  | timer fired =>
    rcases Raft.electionTimer_cases fired with ⟨core, -, -⟩ | ⟨-, core, -, -⟩
    · exact Raft.keeps_of_core core rfl rfl
    · exact Raft.keeps_of_newer ((Nat.lt_succ_self _).trans_eq
        (congrArg Raft.currentTerm core).symm)
  | handleVote present request => exact Raft.requestVote_keeps _ _
  | @handleAppend i task _ args _ reply present request handled =>
    refine Raft.appendEntries_keeps handled fun alive same => ?_
    have heard : c.appendHandled (.handle i) = some (s, args) := by
      simp [appendHandled, present, request]
    simp only [erasesVote, heard, Bool.or_eq_false_iff] at stands
    cases role : (c.node s).state with
    | follower => rfl
    | candidate => simp [role, same] at stands
    | leader => simp [role, same] at stands
    | dead => exact absurd role alive
  | @receiveVote _ call outcome received =>
    by_cases down : outcome.any ((c.node call.candidate).stepsDown call) = false
    · have core := Raft.receiveVote_of_stays down
      split_ifs at core <;> exact Raft.keeps_of_core core rfl rfl
    · obtain ⟨reply, rfl, isDown⟩ := (Option.any_eq_true _ _).mp (by simpa using down)
      have term := congrArg Raft.currentTerm (Raft.receiveVote_of_stepsDown isDown)
      simp only [Raft.core_currentTerm, Raft.becomeFollower_currentTerm] at term
      refine Raft.keeps_of_newer ?_
      rw [term]
      simp only [erasesVote, received, isDown, Bool.or_eq_false_iff] at stands
      simpa using stands.1
  | receiveAppend present received => exact Raft.receiveAppend_keeps received
  | submit submitted =>
    rcases Raft.submit_cases submitted with ⟨rfl, -, -⟩ | ⟨rfl, -, -⟩
    · exact Keeps.refl _
    · exact Raft.keeps_of_same rfl rfl
  | leaderLoop turned => exact Raft.keeps_of_core (Raft.leaderLoop_cases turned).1 rfl rfl
  | leaderLoopClosed ended => exact Raft.keeps_of_core (Raft.leaderLoopClosed_cases ended).1 rfl rfl
  | takeReady taken =>
    rcases Raft.takeReady_cases taken with ⟨-, rfl⟩ | ⟨-, -, rfl⟩ <;>
      exact Raft.keeps_of_same rfl rfl
  | sendReady sent =>
    obtain ⟨rest, -, rfl⟩ := Raft.sendReady_cases sent
    exact Raft.keeps_of_same rfl rfl
  | kill killed =>
    rcases Raft.kill_cases killed with ⟨-, rfl⟩ | ⟨-, rfl⟩ <;> exact Raft.keeps_of_same rfl rfl
  | restart closed made =>
    obtain ⟨-, term, vote⟩ := restart_saved saved made
    exact Raft.keeps_of_same term vote
  | _ => exact Keeps.refl _

/-- No server goes back. -/
theorem step_forward_of_safe (safe : c.safeRestarts action = true) (taken : c.step action = some c')
    (p : Fin n) : (c.node p).currentTerm ≤ (c'.node p).currentTerm := by
  obtain ⟨s, next, events, turn, nodes, -⟩ := step_turn taken
  exact forall_turned (P := fun p rf => (c.node p).currentTerm ≤ rf.currentTerm) nodes
    (turn.keeps safe).forward (fun p _ => le_rfl) p

/-- A vote that is cast in a turn is the vote the server then holds in its term. -/
theorem Cluster.Turn.voted {s p candidate : Fin n} {next : Raft n Command} {term : Nat}
    {events : List (Event n Command)} (turn : c.Turn action s next events)
    (named : (c.node s).id = s) (votes : .voted p term candidate ∈ events) :
    p = s ∧ next.currentTerm = term ∧ next.votedFor = some candidate := by
  cases turn with
  | timer fired =>
    split_ifs at votes with moves
    · rcases Raft.electionTimer_cases fired with ⟨core, -, -⟩ | ⟨-, core, -, -⟩
      · exact absurd (congrArg Raft.currentTerm core) moves
      · have vote := congrArg Raft.votedFor core
        cases List.mem_singleton.mp votes
        exact ⟨rfl, rfl, by simpa [Raft.startElection, named] using vote⟩
    · cases votes
  | @handleVote i task _ args present request =>
    by_cases alive : (c.node s).state = .dead
    · simp [Raft.requestVote_of_dead args alive] at votes
    · rcases Raft.requestVote_cases args alive with refused | ⟨meets, -, -, granted⟩
      · simp [refused] at votes
      · simp only [granted, List.mem_cons, reduceCtorEq, false_or, if_true,
          Event.voted.injEq, List.not_mem_nil, or_false] at votes ⊢
        obtain ⟨rfl, rfl, rfl⟩ := votes
        exact ⟨rfl, meets, rfl⟩
  | receiveVote received =>
    split_ifs at votes
    · cases List.mem_singleton.mp votes
    · cases votes
  | receiveAppend present received =>
    split_ifs at votes
    · cases List.mem_singleton.mp votes
    · cases votes
  | kill killed =>
    split_ifs at votes
    · cases votes
    · cases List.mem_singleton.mp votes
  | _ => simp at votes

/-! ### The votes of a run -/

/-- All votes of a server in a term are for one candidate. -/
def OneVotePerTerm (c : Cluster n Command) : Prop :=
  ∀ s term candidate candidate', .voted s term candidate ∈ c.history →
    .voted s term candidate' ∈ c.history → candidate = candidate'

/-- No vote is of a later term than its server, and a server holds its vote of its term. -/
structure Votes (c : Cluster n Command) : Prop where
  named : ∀ s, (c.node s).id = s
  reached : ∀ {s term candidate}, .voted s term candidate ∈ c.history →
    term ≤ (c.node s).currentTerm
  held : ∀ {s candidate}, .voted s (c.node s).currentTerm candidate ∈ c.history →
    (c.node s).votedFor = some candidate
  single : OneVotePerTerm c

theorem votes_start (preload : Option (Preload Command)) : Votes (start n preload) :=
  ⟨fun _ => rfl, fun member => (List.not_mem_nil member).elim,
    fun member => (List.not_mem_nil member).elim,
    fun _ _ _ _ member => (List.not_mem_nil member).elim⟩

theorem Votes.step (votes : Votes c) (safe : c.safeRestarts action = true)
    (taken : c.step action = some c') : Votes c' := by
  obtain ⟨s, next, events, turn, nodes, history⟩ := step_turn taken
  have keeps := turn.keeps safe
  have newVote : ∀ {p term candidate}, .voted p term candidate ∈ events →
      p = s ∧ next.currentTerm = term ∧ next.votedFor = some candidate :=
    turn.voted (votes.named s)
  -- The server that moves holds every vote it has cast in its term.
  have moved : ∀ {term candidate}, .voted s term candidate ∈ c'.history →
      term ≤ next.currentTerm ∧ (term = next.currentTerm → next.votedFor = some candidate) := by
    intro term candidate member
    rw [history] at member
    rcases List.mem_append.mp member with new | old
    · obtain ⟨-, rfl, vote⟩ := newVote new
      exact ⟨le_rfl, fun _ => vote⟩
    · refine ⟨(votes.reached old).trans keeps.forward, ?_⟩
      rintro rfl
      have same := le_antisymm (votes.reached old) keeps.forward
      exact keeps.vote candidate same (votes.held (same ▸ old))
  have still : ∀ {p term candidate}, p ≠ s → .voted p term candidate ∈ c'.history →
      .voted p term candidate ∈ c.history := by
    intro p term candidate other member
    rw [history] at member
    exact (List.mem_append.mp member).resolve_left fun new => other (newVote new).1
  refine ⟨?_, fun {p term candidate} => ?_, fun {p candidate} => ?_,
    fun p term candidate candidate' member member' => ?_⟩
  · exact forall_turned (P := fun p rf => rf.id = p) nodes (turn.named (votes.named s))
      fun p _ => votes.named p
  · exact forall_turned (P := fun p rf => .voted p term candidate ∈ c'.history →
      term ≤ rf.currentTerm) nodes (fun member => (moved member).1)
      (fun p other member => votes.reached (still other member)) p
  · exact forall_turned (P := fun p rf => .voted p rf.currentTerm candidate ∈ c'.history →
      rf.votedFor = some candidate) nodes (fun member => (moved member).2 rfl)
      (fun p other member => votes.held (still other member)) p
  · rcases eq_or_ne p s with rfl | other
    · -- Two votes are both old, or of the term the server now is in.
      have current : term = next.currentTerm → candidate = candidate' := fun same =>
        Option.some_inj.mp (((moved member).2 same).symm.trans ((moved member').2 same))
      rw [history] at member member'
      rcases List.mem_append.mp member with new | old
      · exact current (newVote new).2.1.symm
      · rcases List.mem_append.mp member' with new' | old'
        · exact current (newVote new').2.1.symm
        · exact votes.single p term _ _ old old'
    · exact votes.single p term _ _ (still other member) (still other member')

theorem keepsVotes_spec (c : Cluster n Command) (action : Action n Command)
    (safe : c.keepsVotes action = true) : c.safeRestarts action = true := by
  obtain ⟨noRestart, stands⟩ := Bool.and_eq_true_iff.mp safe
  cases action with
  | restart s => cases noRestart
  | _ => simpa [safeRestarts, unsavedRestart] using stands

theorem one_vote_per_term (preload : Option (Preload Command)) (actions : List (Action n Command))
    (taken : run preload actions = some c)
    (safe : along step keepsVotes (start n preload) actions = true) : OneVotePerTerm c :=
  (execute_invariant Votes (fun c action _ votes allowed taken =>
    votes.step (keepsVotes_spec c action allowed) taken) (votes_start preload) safe taken).single

theorem one_vote_per_term_elected : ∃ c, run none election = some c ∧
    .voted 0 1 0 ∈ c.history ∧ .voted 1 1 0 ∈ c.history ∧ OneVotePerTerm c := by
  obtain ⟨c, taken, both⟩ := (Option.any_eq_true _ _).mp (by decide +kernel :
    (run none election).any (fun c => decide (.voted 0 1 0 ∈ c.history ∧
      .voted 1 1 0 ∈ c.history)) = true)
  obtain ⟨own, granted⟩ := of_decide_eq_true both
  exact ⟨c, taken, own, granted, one_vote_per_term none election taken (by decide +kernel)⟩

/-- Server 1 is a candidate of term 1 when the first heartbeat of server 0, which leads term 1,
clears its vote for itself. A request of server 0 that was on its way for longer then gets it. -/
def erasedVote : List (Action 3 ℕ) :=
  timeout s₀ 0 ++ timeout s₁ 0 ++ [.send 0, .fail 0] ++ roundTrip 1 ++
    [.leaderLoop s₀ 0, .send 4, .handle 4, .handle 0]

theorem one_vote_per_term_fails : ∃ c, run none erasedVote = some c ∧
    along step restartFree (start 3 none) erasedVote = true ∧ ¬ OneVotePerTerm c := by
  obtain ⟨c, taken, both⟩ := (Option.any_eq_true _ _).mp (by decide +kernel :
    (run none erasedVote).any (fun c => decide (.voted 1 1 1 ∈ c.history ∧
      .voted 1 1 0 ∈ c.history)) = true)
  obtain ⟨own, granted⟩ := of_decide_eq_true both
  exact ⟨c, taken, by decide +kernel, fun single => absurd (single 1 1 1 0 own granted) (by decide)⟩

end RaftInMotion
