/-
This file accounts for votes. The counters of an election live in a closure, and the replies to
an old election can still move them when its candidate runs in a later term, or leads, or
follows. What holds at any time is that an election that is not concluded has counted one
ballot of its own term for each vote, from peers whose calls have ended.
-/

import RaftInMotion.Refinement.Server

namespace RaftInMotion

open Replication

variable {n : Nat} {Command : Type}

/-- The values a goroutine of `startElection` has captured, while it is running. -/
def Task.voteCall : Task n Command → Option (VoteCall n)
  | .voteSpawned call | .voteSent call _ | .voteReplied call _ => some call
  | _ => none

theorem caller_of_voteCall {task : Task n Command} {call : VoteCall n}
    (isCall : task.voteCall = some call) : task.caller = some call.candidate := by
  cases task <;> simp_all [Task.voteCall, Task.caller]

/-- For the elections of all servers and the calls in progress: the term of an election and the
peers whose votes it has counted. -/
structure Tally (a : Spec n Command) (elections : Fin n → List Election)
    (calls : ℕ → Option (VoteCall n)) (time : Fin n → ℕ → ℕ)
    (counted : Fin n → ℕ → Finset (Fin n)) : Prop where
  known : ∀ {i call}, calls i = some call →
    call.election < (elections call.candidate).length ∧
      call.savedCurrentTerm = time call.candidate call.election
  waiting : ∀ {i call}, calls i = some call →
    call.peer ≠ call.candidate ∧ call.peer ∉ counted call.candidate call.election
  distinct : ∀ {i j call call'}, calls i = some call → calls j = some call' →
    call.candidate = call'.candidate → call.election = call'.election →
      call.peer = call'.peer → i = j
  backed : ∀ {s e election}, (elections s)[e]? = some election → 0 < election.repliesNeeded →
    (counted s e).card = election.votesReceived ∧
      ∀ q ∈ counted s e, q ≠ s ∧ a.ballot q (time s e) = some s

namespace Tally

variable {a a' : Spec n Command} {elections elections' : Fin n → List Election}
  {calls calls' : ℕ → Option (VoteCall n)} {time : Fin n → ℕ → ℕ}
  {counted : Fin n → ℕ → Finset (Fin n)}

/-- Ballots are never lost, and goroutines may end. -/
theorem mono (tally : Tally a elections calls time counted) (grows : Extends a a')
    (same : elections' = elections)
    (fewer : ∀ {i call}, calls' i = some call → calls i = some call) :
    Tally a' elections' calls' time counted := by
  subst same
  refine ⟨fun now => tally.known (fewer now), fun now => tally.waiting (fewer now),
    fun first second => tally.distinct (fewer first) (fewer second), fun found more => ?_⟩
  obtain ⟨card, ballots⟩ := tally.backed found more
  exact ⟨card, fun q member => ⟨(ballots q member).1, (grows.ballot (ballots q member).2).1⟩⟩

/-- A server starts an election, with a call for each peer. -/
theorem start (tally : Tally a elections calls time counted) (s : Fin n) (term : ℕ) (needed : ℤ)
    (fresh : ℕ → Option (VoteCall n))
    (moved : elections' = Function.update elections s (elections s ++ [⟨0, needed⟩]))
    (either : ∀ {i call}, calls' i = some call → calls i = some call ∨ fresh i = some call)
    (spawned : ∀ {i call}, fresh i = some call → call.candidate = s ∧ call.peer ≠ s ∧
      call.savedCurrentTerm = term ∧ call.election = (elections s).length)
    (separate : ∀ {i j call call'}, fresh i = some call → fresh j = some call' →
      call.peer = call'.peer → i = j) :
    ∃ time' counted', Tally a elections' calls' time' counted' := by
  subst moved
  have known := @tally.known
  have waiting := @tally.waiting
  have distinct := @tally.distinct
  have backed := @tally.backed
  refine ⟨Function.update time s (Function.update (time s) (elections s).length term),
    Function.update counted s (Function.update (counted s) (elections s).length ∅), ?_, ?_, ?_, ?_⟩
  · intro i call now
    rcases either now with old | new
    · have := known old
      simp only [Function.update_apply]
      grind
    · have := spawned new
      simp only [Function.update_apply]
      grind
  · intro i call now
    rcases either now with old | new
    · have := known old
      have := waiting old
      simp only [Function.update_apply]
      grind
    · have := spawned new
      simp only [Function.update_apply]
      grind
  · intro i j call call' now now' sameCandidate sameElection samePeer
    rcases either now with old | new <;> rcases either now' with old' | new'
    · exact distinct old old' sameCandidate sameElection samePeer
    · have := known old
      have := spawned new'
      grind
    · have := known old'
      have := spawned new
      grind
    · exact separate new new' samePeer
  · intro s' e election found more
    simp only [Function.update_apply] at found ⊢
    by_cases here : s' = s
    · subst here
      rw [if_pos rfl, List.getElem?_append] at found
      have old : (elections s')[e]? = some election → _ := backed
      simp only [if_true, Function.update_apply]
      split_ifs at found with before
      · rw [if_neg before.ne, if_neg before.ne]
        exact old found more
      · obtain ⟨last, rfl⟩ : e - (elections s').length = 0 ∧ ⟨0, needed⟩ = election := by
          rw [List.getElem?_singleton] at found
          split_ifs at found with last
          exact ⟨last, Option.some.inj found⟩
        rw [if_pos (by omega), if_pos (by omega)]
        simp
    · rw [if_neg here] at found
      rw [if_neg here, if_neg here]
      exact backed found more

/-- The outcome of a call is counted, and its goroutine ends. -/
theorem count (tally : Tally a elections calls time counted) {i : ℕ} {call : VoteCall n}
    (present : calls i = some call) {votes : ℕ} {vote : Bool}
    (sums : 1 < ((elections call.candidate).getD call.election ⟨0, 0⟩).repliesNeeded →
      votes = ((elections call.candidate).getD call.election ⟨0, 0⟩).votesReceived ∨
        vote = true ∧
          votes = ((elections call.candidate).getD call.election ⟨0, 0⟩).votesReceived + 1)
    (cast : vote = true → a.ballot call.peer call.savedCurrentTerm = some call.candidate)
    (moved : elections' = Function.update elections call.candidate
      ((elections call.candidate).set call.election
        ⟨votes, ((elections call.candidate).getD call.election ⟨0, 0⟩).repliesNeeded - 1⟩))
    (ended : ∀ {j call'}, calls' j = some call' → calls j = some call' ∧ j ≠ i) :
    ∃ counted', Tally a elections' calls' time counted' := by
  subst moved
  have known := @tally.known
  have waiting := @tally.waiting
  have distinct := @tally.distinct
  obtain ⟨within, saved⟩ := known present
  obtain ⟨isPeer, uncounted⟩ := waiting present
  have there : (elections call.candidate)[call.election]? =
      some ((elections call.candidate).getD call.election ⟨0, 0⟩) := by
    rw [List.getD_eq_getElem?_getD, List.getElem?_eq_getElem within, Option.getD_some]
  generalize (elections call.candidate).getD call.election ⟨0, 0⟩ = before at *
  refine ⟨Function.update counted call.candidate (Function.update (counted call.candidate)
    call.election (if votes = before.votesReceived + 1 then
      insert call.peer (counted call.candidate call.election)
      else counted call.candidate call.election)), ?_, ?_, ?_, ?_⟩
  · intro j call' now
    have := known (ended now).1
    simp only [Function.update_apply]
    grind
  · intro j call' now
    have := waiting (ended now).1
    have := distinct (ended now).1 present
    have := (ended now).2
    simp only [Function.update_apply]
    grind
  · intro j j' call' call'' now now'
    exact distinct (ended now).1 (ended now').1
  · intro s e election found more
    by_cases here : s = call.candidate ∧ e = call.election
    · obtain ⟨rfl, rfl⟩ := here
      simp only [Function.update_self, List.getElem?_set_self within, Option.some_inj] at found ⊢
      subst found
      obtain ⟨card, ballots⟩ := tally.backed there (by dsimp only at more; omega)
      rcases sums (by dsimp only at more; omega) with same | ⟨isVote, added⟩
      · rw [if_neg (by omega)]
        exact ⟨card.trans same.symm, ballots⟩
      · rw [if_pos added, Finset.card_insert_of_notMem uncounted, card]
        refine ⟨added.symm, fun q member => ?_⟩
        rcases Finset.mem_insert.mp member with rfl | old
        · exact ⟨isPeer, saved ▸ cast isVote⟩
        · exact ballots q old
    · by_cases server : s = call.candidate
      · subst server
        have other : e ≠ call.election := fun same => here ⟨rfl, same⟩
        rw [Function.update_self, List.getElem?_set_ne other.symm] at found
        rw [Function.update_self, Function.update_of_ne other]
        exact tally.backed found more
      · rw [Function.update_of_ne server] at found
        rw [Function.update_of_ne server]
        exact tally.backed found more

/-- The elections of a server are forgotten with all their calls. -/
theorem forget (tally : Tally a elections calls time counted) (s : Fin n)
    (moved : elections' = Function.update elections s [])
    (kept : ∀ {i call}, calls' i = some call → calls i = some call ∧ call.candidate ≠ s) :
    Tally a elections' calls' time counted := by
  subst moved
  refine ⟨fun now => ?_, fun now => tally.waiting (kept now).1,
    fun first second => tally.distinct (kept first).1 (kept second).1,
    fun {q e election} found => ?_⟩
  · rw [Function.update_of_ne (kept now).2]
    exact tally.known (kept now).1
  · by_cases here : q = s
    · subst here
      rw [Function.update_self] at found
      cases found
    · rw [Function.update_of_ne here] at found
      exact tally.backed found

/-- The last outcome of an election that has enough votes comes with a majority of ballots. -/
theorem voters (tally : Tally a elections calls time counted) {i : ℕ} {call : VoteCall n}
    (present : calls i = some call) {vote : Bool}
    (last : ((elections call.candidate).getD call.election ⟨0, 0⟩).repliesNeeded = 1)
    (cast : vote = true → a.ballot call.peer call.savedCurrentTerm = some call.candidate)
    (enough : n < (((elections call.candidate).getD call.election ⟨0, 0⟩).votesReceived +
      (if vote then 1 else 0) + 1) * 2) :
    ∃ voters : Finset (Fin n), Majority voters ∧ ∀ q ∈ voters, q ≠ call.candidate →
      a.ballot q call.savedCurrentTerm = some call.candidate := by
  obtain ⟨within, saved⟩ := tally.known present
  obtain ⟨isPeer, uncounted⟩ := tally.waiting present
  have there : (elections call.candidate)[call.election]? =
      some ((elections call.candidate).getD call.election ⟨0, 0⟩) := by
    rw [List.getD_eq_getElem?_getD, List.getElem?_eq_getElem within, Option.getD_some]
  obtain ⟨card, ballots⟩ := tally.backed there (by omega)
  rw [← saved] at ballots
  have notSelf : call.candidate ∉ counted call.candidate call.election :=
    fun member => (ballots _ member).1 rfl
  rw [← card, Nat.mul_comm] at enough
  cases vote with
  | false =>
    refine ⟨insert call.candidate (counted call.candidate call.election), ?_,
      fun q member other => ?_⟩
    · rw [Majority, Finset.card_insert_of_notMem notSelf, Fintype.card_fin]
      simpa using enough
    · exact (ballots q (Finset.mem_of_mem_insert_of_ne member other)).2
  | true =>
    refine ⟨insert call.candidate (insert call.peer (counted call.candidate call.election)), ?_,
      fun q member other => ?_⟩
    · rw [Majority, Finset.card_insert_of_notMem (by simp [notSelf, isPeer.symm]),
        Finset.card_insert_of_notMem uncounted, Fintype.card_fin]
      simpa using enough
    · rcases Finset.mem_insert.mp (Finset.mem_of_mem_insert_of_ne member other) with rfl | old
      · exact cast rfl
      · exact (ballots q old).2

end Tally

end RaftInMotion
