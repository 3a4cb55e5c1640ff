/-
This file settles what servers hand to their state machines. In a run in which, moreover, every
request to append is built in the term it is sent in, each server takes for committed only what
a majority has confirmed, and two servers that deliver an entry at one index deliver the same
command. The branch of `AppendEntries` for `PrevLogIndex = -1` breaks this as well: a leader
delivers a command that no other server has, and its successor delivers another one.
-/

import RaftInMotion.Safety.Replication
import RaftInMotion.Model.Turns

namespace RaftInMotion

open Replication Cluster Execution TermLog

variable {n : Nat} {Command : Type} {c c' : Cluster n Command} {a a' : Spec n Command}

/-! ### Commitment -/

/-- The cluster is in a state of the protocol in which commitment is sound. -/
structure Committed (floor : ℕ) (c : Cluster n Command) (a : Spec n Command) : Prop where
  refines : Refines True c a
  invariant : Invariant floor a
  commitment : Commitment a

theorem committed_start (preload : Option (Preload Command)) :
    Committed ((preload.map Preload.currentTerm).getD 0) (start n preload)
      (Preload.config n preload) := by
  obtain ⟨refines, invariant⟩ := refines_start (n := n) True preload
  exact ⟨refines, invariant, commitment_start⟩

theorem Committed.step {floor : ℕ} {action : Action n Command} (committed : Committed floor c a)
    (prompt : c.promptElections action = true) (truthful : c.truthfulAcks action = true)
    (onTime : c.lateRead action = false)
    (durable : ∀ s rf, action = .restart s → Raft.make s (c.node s).storage = some rf →
      rf.currentTerm = (c.node s).currentTerm ∧ rf.votedFor = (c.node s).votedFor ∧
        rf.log = (c.node s).log)
    (taken : c.step action = some c') : ∃ s a', Steps False s a a' ∧ Committed floor c' a' := by
  obtain ⟨s, a', steps, refines⟩ := committed.refines.step False committed.invariant prompt
    (fun _ => truthful) (Or.inr onTime) durable taken
  exact ⟨s, a', steps, refines, (committed.invariant.steps steps).1,
    committed.commitment.steps committed.invariant steps⟩

/-- What a server takes for committed is part of a chosen prefix. -/
theorem Committed.chosen {floor : ℕ} (committed : Committed floor c a) (s : Fin n)
    (some' : -1 < (c.node s).commitIndex) : ∃ time part, Chosen a time part ∧
      (c.node s).log.take ((c.node s).commitIndex + 1).toNat <+: part := by
  have settled := committed.commitment.held s
  have mirrors := committed.refines.node s
  have commit := mirrors.commit trivial
  have count : ((c.node s).commitIndex + 1).toNat = a.commit s := by omega
  obtain ⟨time, part, -, chosen, inPart⟩ := settled.take_part (by omega)
  rw [mirrors.log, ← count] at inPart
  exact ⟨time, part, chosen, inPart⟩

theorem safeDelivery_spec {action : Action n Command} (safe : c.safeDelivery action = true) :
    c.restartFree action = true ∧ c.promptElections action = true ∧
      c.truthfulAcks action = true ∧ c.lateRead action = false := by
  simpa [safeDelivery, safeReplication, safeElections, and_assoc] using safe

/-! ### Delivered entries -/

/-- A majority has confirmed the command at its index. -/
def ChosenAt (a : Spec n Command) (entry : CommitEntry Command) : Prop :=
  ∃ time part, Chosen a time part ∧ ∃ (i : ℕ) (held : LogEntry Command),
    entry.index = i ∧ part[i]? = some held ∧ held.command = entry.command

theorem ChosenAt.mono {entry : CommitEntry Command} (chosen : ChosenAt a entry)
    (grows : Extends a a') : ChosenAt a' entry :=
  chosen.imp fun _ chosen => chosen.imp fun _ ⟨chosen, at'⟩ => ⟨chosen.mono grows, at'⟩

/-- Two commands that are chosen at one index are the same. -/
theorem ChosenAt.agree {floor : ℕ} {entry entry' : CommitEntry Command}
    (invariant : Invariant floor a) (chosen : ChosenAt a entry) (chosen' : ChosenAt a entry')
    (same : entry.index = entry'.index) : entry.command = entry'.command := by
  obtain ⟨_, part, isChosen, i, held, index, found, command⟩ := chosen
  obtain ⟨_, part', isChosen', i', held', index', found', command'⟩ := chosen'
  obtain rfl : i = i' := by omega
  rw [← command, ← command']
  have inside := (List.getElem?_eq_some_iff.mp found).1
  have inside' := (List.getElem?_eq_some_iff.mp found').1
  rcases invariant.chosen_comparable isChosen isChosen' with shorter | longer
  · rw [getElem?_of_part shorter inside, found, Option.some_inj] at found'
    rw [found']
  · rw [getElem?_of_part longer inside', found', Option.some_inj] at found
    rw [found]

/-- Only what is chosen is about to be delivered or has been. -/
structure Delivers (floor : ℕ) (c : Cluster n Command) (a : Spec n Command) : Prop
    extends Committed floor c a where
  started : ∀ s, -1 ≤ (c.node s).lastApplied
  ready : ∀ s, ∀ entry ∈ (c.node s).readyEntries, ChosenAt a entry
  delivered : ∀ s entry, .delivered s entry ∈ c.history → ChosenAt a entry

/-- The batch that `commitChanSender` cuts off is chosen. -/
theorem Delivers.batch {floor : ℕ} (delivers : Delivers floor c a) (s : Fin n) :
    ∀ entry ∈ (c.node s).committedBatch, ChosenAt a entry := by
  intro entry member
  have started := delivers.started s
  obtain ⟨k, inside, rfl⟩ := List.mem_mapIdx.mp member
  simp only [List.length_drop] at inside
  have within : ((c.node s).lastApplied + 1).toNat + k <
      ((c.node s).log.take ((c.node s).commitIndex + 1).toNat).length := by
    omega
  have positive : -1 < (c.node s).commitIndex := by
    rw [List.length_take] at within
    omega
  obtain ⟨time, part, chosen, inPart⟩ := delivers.chosen s positive
  refine ⟨time, part, chosen, ((c.node s).lastApplied + 1).toNat + k, _, by dsimp only; omega,
    (getElem?_of_part inPart within).trans (List.getElem?_eq_getElem within), ?_⟩
  simp only [List.getElem_drop]

theorem Delivers.step {floor : ℕ} {action : Action n Command} (delivers : Delivers floor c a)
    (safe : c.safeDelivery action = true) (taken : c.step action = some c') :
    ∃ s a', Steps False s a a' ∧ Delivers floor c' a' := by
  obtain ⟨noRestart, prompt, truthful, onTime⟩ := safeDelivery_spec safe
  obtain ⟨s, a', steps, committed⟩ := delivers.toCommitted.step prompt truthful onTime
    (fun s rf same => by rw [same] at noRestart; cases noRestart) taken
  have grows := (delivers.invariant.steps steps).2
  obtain ⟨p, next, events, turn, nodes, history⟩ := step_turn taken
  have turned : -1 ≤ next.lastApplied ∧ (∀ entry ∈ next.readyEntries, ChosenAt a' entry) ∧
      ∀ q entry, .delivered q entry ∈ events → ChosenAt a' entry := by
    rcases turn.serves noRestart with ⟨aside, quiet⟩ | ⟨-, rfl, ready⟩ | ⟨entry, -, rfl, sent⟩
    · refine ⟨aside.lastApplied ▸ delivers.started p, fun entry member => ?_,
        fun q entry member => absurd member (quiet q entry)⟩
      rw [aside.readyEntries] at member
      exact (delivers.ready p entry member).mono grows
    · refine ⟨?_, fun entry member => ?_, fun q entry member => by cases member⟩
      · have started := delivers.started p
        rcases Raft.takeReady_cases ready with ⟨-, rfl⟩ | ⟨more, -, rfl⟩
        · exact started
        · exact started.trans more.le
      · rcases Raft.takeReady_cases ready with ⟨-, rfl⟩ | ⟨-, -, rfl⟩
        · exact (delivers.ready p entry member).mono grows
        · exact (delivers.batch p entry member).mono grows
    · obtain ⟨rest, batch, rfl⟩ := Raft.sendReady_cases sent
      have ready := delivers.ready p
      rw [batch] at ready
      refine ⟨delivers.started p, fun entry' member => (ready entry' (by simp [member])).mono grows,
        fun q entry' member => ?_⟩
      cases List.mem_singleton.mp member
      exact (ready entry (by simp)).mono grows
  refine ⟨s, a', steps, committed, ?_, ?_, fun q entry member => ?_⟩
  · exact forall_turned (P := fun _ rf => -1 ≤ rf.lastApplied) nodes turned.1
      fun q _ => delivers.started q
  · exact forall_turned (P := fun _ rf => ∀ entry ∈ rf.readyEntries, ChosenAt a' entry) nodes
      turned.2.1 fun q _ entry member => (delivers.ready q entry member).mono grows
  · rw [history] at member
    rcases List.mem_append.mp member with new | old
    · exact turned.2.2 q entry new
    · exact (delivers.delivered q entry old).mono grows

theorem delivers_start (preload : Option (Preload Command)) :
    Delivers ((preload.map Preload.currentTerm).getD 0) (start n preload)
      (Preload.config n preload) :=
  ⟨committed_start preload, fun s => le_rfl, fun s => List.forall_mem_nil _,
    fun s entry member => by cases member⟩

/-! ### State machine safety -/

/-- Entries that are delivered at one index, by any two servers, carry the same command. -/
def StateMachineSafety (c : Cluster n Command) : Prop :=
  ∀ p q entry entry', .delivered p entry ∈ c.history → .delivered q entry' ∈ c.history →
    entry.index = entry'.index → entry.command = entry'.command

theorem state_machine_safety (preload : Option (Preload Command))
    (actions : List (Action n Command)) (taken : run preload actions = some c)
    (safe : along step safeDelivery (start n preload) actions = true) : StateMachineSafety c := by
  obtain ⟨a, delivers⟩ : ∃ a, Delivers ((preload.map Preload.currentTerm).getD 0) c a := by
    refine execute_invariant (fun c => ∃ a, Delivers _ c a) ?_ ⟨_, delivers_start preload⟩ safe
      taken
    rintro c action c' ⟨a, delivers⟩ allowed stepped
    obtain ⟨_, a', -, delivers'⟩ := delivers.step allowed stepped
    exact ⟨a', delivers'⟩
  intro p q entry entry' one other same
  exact (delivers.delivered p entry one).agree delivers.invariant
    (delivers.delivered q entry' other)
    same

/-- After `blindRun`, server 0 delivers its command. Server 1 wins term 2 with an empty log and
the vote of server 2; it takes another command, counts the acknowledgement of server 2, which
stores nothing either, and delivers at the same index. -/
def blindDelivery : List (Action 3 ℕ) :=
  blindRun ++ [.takeReady s₀, .sendReady s₀] ++ timeout s₁ 1 ++ roundTrip 5 ++
    [.send 4, .fail 4, .submit s₁ 8, .leaderLoop s₁ 0] ++ roundTrip 7 ++
    [.takeReady s₁, .sendReady s₁]

theorem state_machine_safety_fails : ∃ c, run none blindDelivery = some c ∧
    along step restartFree (start 3 none) blindDelivery = true ∧ ¬ StateMachineSafety c := by
  obtain ⟨c, taken, both⟩ := (Option.any_eq_true _ _).mp (by decide +kernel :
    (run none blindDelivery).any (fun c => decide
      (.delivered 0 ⟨7, 0, 1⟩ ∈ c.history ∧ .delivered 1 ⟨8, 0, 2⟩ ∈ c.history)) = true)
  obtain ⟨first, second⟩ := of_decide_eq_true both
  refine ⟨c, taken, by decide +kernel, fun safe => ?_⟩
  exact absurd (safe 0 1 _ _ first second rfl) (by decide)

end RaftInMotion
