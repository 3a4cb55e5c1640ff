/-
This file settles that committed entries stay where they are. `AppendEntries` cuts a log at the
first conflict without a look at `commitIndex`, so this rests on what leaders can send. In a
cluster that starts from empty storages they send nothing that is ever accepted, as long as a
term has one leader: a follower only has entries of terms it has led itself, and a request that
starts behind one of them comes from another leader. In a cluster that starts from storages with
a log it takes the whole argument for commitment.
-/

import RaftInMotion.Safety.Delivery

namespace RaftInMotion

open Replication Cluster Execution TermLog

variable {n : Nat} {Command : Type} {c c' : Cluster n Command} {a a' : Spec n Command}
  {action : Action n Command}

/-! ### Steps that keep the committed part of the log -/

/-- What has been applied is committed, and what is committed is in the log. -/
structure InRange (rf : Raft n Command) : Prop where
  started : -1 ≤ rf.lastApplied
  applied : rf.lastApplied ≤ rf.commitIndex
  committed : rf.commitIndex ≤ rf.log.length - 1

/-- A server has moved on, its counters with it, and every committed entry is where it was. -/
structure PrefixFixed (rf next : Raft n Command) : Prop where
  range : InRange next
  lastApplied : rf.lastApplied ≤ next.lastApplied
  commitIndex : rf.commitIndex ≤ next.commitIndex
  log : ∀ i : ℕ, i ≤ rf.commitIndex → next.log[i]? = rf.log[i]?

theorem PrefixFixed.refl {rf : Raft n Command} (range : InRange rf) : PrefixFixed rf rf :=
  ⟨range, le_rfl, le_rfl, fun _ _ => rfl⟩

theorem PrefixFixed.trans {first second third : Raft n Command} (left : PrefixFixed first second)
    (right : PrefixFixed second third) : PrefixFixed first third :=
  ⟨right.range, left.lastApplied.trans right.lastApplied, left.commitIndex.trans right.commitIndex,
    fun i within => (right.log i (within.trans left.commitIndex)).trans (left.log i within)⟩

/-- A turn that keeps the committed part of the log keeps the range. -/
theorem Cluster.Turn.prefixFixed {s : Fin n} {next : Raft n Command}
    {events : List (Event n Command)} (turn : c.Turn action s next events)
    (noRestart : c.restartFree action = true) (range : InRange (c.node s))
    (kept : (c.node s).log.take ((c.node s).commitIndex + 1).toNat <+: next.log) :
    PrefixFixed (c.node s) next := by
  obtain ⟨started, applied, committed⟩ := range
  have length : ((c.node s).log.take ((c.node s).commitIndex + 1).toNat).length =
      ((c.node s).commitIndex + 1).toNat := by
    rw [List.length_take]
    omega
  have long : (c.node s).commitIndex + 1 ≤ next.log.length := by
    have bounded := kept.length_le
    omega
  have forward : (c.node s).commitIndex ≤ next.commitIndex ∧
      next.commitIndex ≤ next.log.length - 1 := by
    cases turn.replicates noRestart with
    | quiet log commit => omega
    | appends command submitted leads log commit => omega
    | counts log more within => omega
    | accepts task args prevLogIndex held member request position found same log commit => omega
  have served : (c.node s).lastApplied ≤ next.lastApplied ∧
      next.lastApplied ≤ (c.node s).commitIndex := by
    rcases turn.serves noRestart with ⟨aside, -⟩ | ⟨-, -, ready⟩ | ⟨_, -, -, sent⟩
    · rw [aside.lastApplied]
      exact ⟨le_rfl, applied⟩
    · rcases Raft.takeReady_cases ready with ⟨-, rfl⟩ | ⟨more, -, rfl⟩
      · exact ⟨le_rfl, applied⟩
      · exact ⟨more.le, le_rfl⟩
    · obtain ⟨rest, -, rfl⟩ := Raft.sendReady_cases sent
      exact ⟨le_rfl, applied⟩
  refine ⟨⟨started.trans served.1, served.2.trans forward.1, forward.2⟩, served.1, forward.1,
    fun i within => ?_⟩
  rw [getElem?_of_part kept (by omega), List.getElem?_take, if_pos (by omega)]

theorem prefixFixed_step (taken : c.step action = some c') (noRestart : c.restartFree action = true)
    (range : ∀ s, InRange (c.node s))
    (kept : ∀ s, (c.node s).log.take ((c.node s).commitIndex + 1).toNat <+: (c'.node s).log)
    (s : Fin n) : PrefixFixed (c.node s) (c'.node s) := by
  obtain ⟨p, next, events, turn, nodes, -⟩ := step_turn taken
  have kept := kept s
  rw [nodes, Function.update_apply] at kept ⊢
  split_ifs at kept ⊢ with moved
  · subst moved
    exact turn.prefixFixed noRestart (range s) kept
  · exact PrefixFixed.refl (range s)

theorem inRange_start (preload : Option (Preload Command)) (s : Fin n) :
    InRange ((start n preload).node s) :=
  ⟨le_rfl, le_rfl, by dsimp only [start, Raft.blank]; omega⟩

/-- From any state of the run to any later one, the committed prefix of every server is fixed. -/
def CommittedPrefixFixed (c : Cluster n Command) (actions : List (Action n Command)) : Prop :=
  throughout step (fun c c' => ∀ s, PrefixFixed (c.node s) (c'.node s)) c actions

/-- The rule for both kinds of starts: an invariant under which no step cuts what is committed. -/
theorem committedPrefixFixed_of_kept {allowed : Cluster n Command → Action n Command → Bool}
    {preload : Option (Preload Command)} {actions : List (Action n Command)}
    (invariant : Cluster n Command → Prop)
    (noRestart : ∀ c action, allowed c action = true → c.restartFree action = true)
    (kept : ∀ c action c', invariant c → allowed c action = true → c.step action = some c' →
      invariant c' ∧
        ∀ s, (c.node s).log.take ((c.node s).commitIndex + 1).toNat <+: (c'.node s).log)
    (initially : invariant (start n preload))
    (safe : along step allowed (start n preload) actions = true) :
    CommittedPrefixFixed (start n preload) actions := by
  refine throughout_of_preserved (fun c => invariant c ∧ ∀ s, InRange (c.node s)) _
    (fun c held s => PrefixFixed.refl (held.2 s))
    (fun _ _ _ left right s => (left s).trans (right s)) ?_ ⟨initially, inRange_start preload⟩ safe
  rintro c action c' ⟨held, range⟩ allows taken
  obtain ⟨held', keeps⟩ := kept c action c' held allows taken
  have fixed := prefixFixed_step taken (noRestart c action allows) range keeps
  exact ⟨⟨held', fun s => (fixed s).range⟩, fixed⟩

/-! ### Starts with a log -/

theorem Delivers.kept {floor : ℕ} (delivers : Delivers floor c a)
    (safe : c.safeDelivery action = true) (taken : c.step action = some c') :
    (∃ a', Delivers floor c' a') ∧
      ∀ s, (c.node s).log.take ((c.node s).commitIndex + 1).toNat <+: (c'.node s).log := by
  obtain ⟨p, a', steps, delivers'⟩ := delivers.step safe taken
  refine ⟨⟨a', delivers'⟩, fun s => ?_⟩
  have kept := delivers.commitment.kept delivers.invariant steps s
  have commit := (delivers.refines.node s).commit trivial
  have count : ((c.node s).commitIndex + 1).toNat = a.commit s := by omega
  rwa [(delivers.refines.node s).log, (delivers'.refines.node s).log, ← count] at kept

/-! ### Starts without a log -/

/-- All entries of a server are of terms it has led, and whoever sends a request that starts
behind an entry has led the term of that entry. -/
structure Own (c : Cluster n Command) (a : Spec n Command) : Prop where
  refines : Refines False c a
  invariant : Invariant 0 a
  entries : ∀ s, ∀ entry ∈ (c.node s).log, a.leader entry.term = some s
  requests : ∀ task ∈ c.pool, ∀ peer args, task.appendRequest = some (peer, args) →
    0 ≤ args.prevLogIndex → ∃ p term, p ≠ peer ∧ args.prevLogTerm = (term : ℕ) ∧
      a.leader term = some p

theorem own_start : Own (start n (none : Option (Preload Command))) (Preload.config n none) := by
  obtain ⟨refines, invariant⟩ := refines_start (n := n) False (none : Option (Preload Command))
  exact ⟨refines, invariant, fun s => List.forall_mem_nil _, List.forall_mem_nil _⟩

theorem Own.born (own : Own c a) {task : Task n Command} {peer : Fin n}
    {args : AppendEntriesArgs n Command} (born : c.Born action task)
    (request : task.appendRequest = some (peer, args)) (behind : 0 ≤ args.prevLogIndex) :
    ∃ p term, p ≠ peer ∧ args.prevLogTerm = (term : ℕ) ∧ a.leader term = some p := by
  cases born with
  | @appendSent i call built present isBuilt =>
    cases request
    have leads : Leads a call := own.refines.task _ (List.mem_of_getElem? present)
    obtain ⟨entry, member, prevLogTerm⟩ := Raft.appendEntriesArgs_previous isBuilt behind
    exact ⟨call.leader, entry.term, leads.other.symm, prevLogTerm, own.entries _ entry member⟩
  | @orphan action task member =>
    refine own.requests task member peer args ?_ behind
    cases task <;> exact request
  | _ => cases request

/-- No request is accepted: who sent it would have led a term of the server that handles it. -/
theorem Own.writes (own : Own c a) {s : Fin n} {next : Raft n Command}
    (replicates : c.Replicates action s next) : next.log = (c.node s).log ∨
      ∃ entry, a.leader entry.term = some s ∧ next.log = (c.node s).log ++ [entry] := by
  cases replicates with
  | quiet log commit => exact Or.inl log
  | appends command submitted leads log commit =>
    have mirrors := own.refines.node s
    have led := own.invariant.elections.leading (mirrors.leader leads)
    rw [mirrors.term] at led
    exact Or.inr ⟨_, led, log⟩
  | counts log more within => exact Or.inl log
  | accepts task args prevLogIndex held member request position found same log commit =>
    obtain ⟨p, term, other, prevLogTerm, led⟩ := own.requests task member s args request (by omega)
    obtain rfl : term = held.term := by omega
    have mine := own.entries s held (List.mem_of_getElem? found)
    exact absurd (Option.some_inj.mp (led.symm.trans mine)) other

/-- Only a leader writes to a log, at its end. -/
theorem Own.grows (own : Own c a) (safe : c.safeElections action = true)
    (taken : c.step action = some c') :
    (∃ a', Own c' a') ∧ ∀ s, (c.node s).log <+: (c'.node s).log := by
  obtain ⟨noRestart, prompt⟩ := safeElections_spec c action safe
  obtain ⟨_, a', steps, refines⟩ := own.refines.step True own.invariant prompt
    (fun absurd => absurd.elim) (Or.inl trivial)
    (fun s rf same => by rw [same] at noRestart; cases noRestart) taken
  obtain ⟨invariant, grows⟩ := own.invariant.steps steps
  obtain ⟨s, next, events, turn, nodes, -⟩ := step_turn taken
  have writes := own.writes (turn.replicates noRestart)
  refine ⟨⟨a', refines, invariant, ?_, fun task member peer args request behind => ?_⟩, ?_⟩
  · refine forall_turned (P := fun q rf => ∀ entry ∈ rf.log, a'.leader entry.term = some q) nodes
      (fun entry member => ?_) fun q _ entry member => grows.leader (own.entries q entry member)
    rcases writes with same | ⟨new, led, log⟩
    · exact grows.leader (own.entries s entry (same ▸ member))
    · rw [log] at member
      rcases List.mem_append.mp member with old | isNew
      · exact grows.leader (own.entries s entry old)
      · exact grows.leader (List.mem_singleton.mp isNew ▸ led)
  · obtain ⟨p, term, other, prevLogTerm, led⟩ : ∃ p term, p ≠ peer ∧
        args.prevLogTerm = (term : ℕ) ∧ a.leader term = some p := by
      rcases step_born taken task member with old | born
      · exact own.requests task old peer args request behind
      · exact own.born born request behind
    exact ⟨p, term, other, prevLogTerm, grows.leader led⟩
  · refine forall_turned (P := fun q rf => (c.node q).log <+: rf.log) nodes ?_
      fun q _ => List.prefix_refl _
    rcases writes with same | ⟨new, -, log⟩
    · rw [same]
    · rw [log]
      exact List.prefix_append _ _

theorem committed_prefix_fixed (preload : Option (Preload Command))
    (actions : List (Action n Command))
    (safe : preload = none ∧ along step safeElections (start n preload) actions = true ∨
      along step safeDelivery (start n preload) actions = true) :
    CommittedPrefixFixed (start n preload) actions := by
  rcases safe with ⟨rfl, safe⟩ | safe
  · refine committedPrefixFixed_of_kept (fun c => ∃ a, Own c a)
      (fun c action allows => (safeElections_spec c action allows).1) ?_ ⟨_, own_start⟩ safe
    rintro c action c' ⟨a, own⟩ allows taken
    obtain ⟨own', grows⟩ := own.grows allows taken
    exact ⟨own', fun s => (List.take_prefix _ _).trans (grows s)⟩
  · refine committedPrefixFixed_of_kept
      (fun c => ∃ a, Delivers ((preload.map Preload.currentTerm).getD 0) c a)
      (fun c action allows => (safeDelivery_spec allows).1) ?_ ⟨_, delivers_start preload⟩ safe
    rintro c action c' ⟨a, delivers⟩ allows taken
    exact delivers.kept allows taken

end RaftInMotion
