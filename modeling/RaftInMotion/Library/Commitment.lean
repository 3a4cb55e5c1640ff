/-
This file draws the conclusions of the replication protocol's invariant: it holds initially and
along every run, a prefix that a majority has confirmed is held by every later leader, and two
such prefixes always lie on one line. Without late requests, what each member takes for
committed is always part of a chosen prefix, and no step of the protocol removes it.
-/

import RaftInMotion.Library.Agreement

namespace Replication

open TermLog TermLog.Stamped

variable {Member Entry : Type*} [DecidableEq Member] [Fintype Member] [Stamped Entry]

/-! ### The initial configuration -/

/-- Every member is a follower in the floor term and holds the same log. -/
def Config.start (floor : ℕ) (base : List Entry) : Config Member Entry where
  term _ := floor
  role _ := .follower
  log _ := base
  commit _ := 0
  ballot _ _ := none
  ballotLog _ _ := []
  leader _ := none
  voters _ := ∅
  electLog _ := []
  leaderLog time := if time ≤ floor then base else []
  acked _ _ := 0
  sent := ∅

section Start

omit [DecidableEq Member]

variable {floor : ℕ} {base : List Entry}

omit [Stamped Entry] in
theorem elections_start : Elections floor (Config.start floor base : Config Member Entry) where
  leader_reached led := by cases led
  leading leads := by cases leads
  running runs := by cases runs
  ballot_reached spent := by cases spent
  floor_le _ := le_rfl
  elected led := by cases led

omit [Fintype Member] in
theorem logs_start (sorted : Sorted base) (bounded : ∀ entry ∈ base, term entry ≤ floor) :
    Logs floor (Config.start floor base : Config Member Entry) := by
  have sound : Sound floor (Config.start floor base : Config Member Entry) base := by
    refine ⟨sorted, fun front entry part => ?_, fun entry member => Or.inl (bounded entry member)⟩
    simpa [Config.start, bounded entry (part.subset (by simp))] using part
  exact {
    held := fun _ => sound
    sent := fun member => absurd member (Set.notMem_empty _)
    led := fun time => by
      simp only [Config.start]
      split
      · exact sound
      · exact sound_nil
    bounded := fun above => by simp [Config.start, Nat.not_le.mpr above]
    unled := fun above _ => by simp [Config.start, Nat.not_le.mpr above]
    leading := fun led => by cases led
    elected := fun led => by cases led
    cast := fun _ _ => List.Pairwise.nil
    running := fun runs => by cases runs
    request := fun member => absurd member (Set.notMem_empty _) }

omit [Stamped Entry] [Fintype Member] in
theorem confirmed_start : Confirmed (Config.start floor base : Config Member Entry) where
  bounded _ _ := Nat.zero_le _
  reached some' := absurd some' (Nat.lt_irrefl 0)
  own led := by cases led
  retained led := by cases led

theorem not_open_start {time : ℕ} {part : List Entry} :
    ¬ Open (Config.start floor base : Config Member Entry) time part := by
  rintro ⟨-, -, ⟨_, led⟩, -⟩
  cases led

theorem invariant_start (sorted : Sorted base) (bounded : ∀ entry ∈ base, term entry ≤ floor) :
    Invariant floor (Config.start floor base : Config Member Entry) where
  elections := elections_start
  logs := logs_start sorted bounded
  confirmed := confirmed_start
  completeness := ⟨fun opened => absurd opened not_open_start,
    fun opened => absurd opened not_open_start, fun opened => absurd opened not_open_start,
    fun opened => absurd opened not_open_start⟩

end Start

/-! ### Runs keep the invariant -/

variable {floor : ℕ} {config next : Config Member Entry} {late : Prop} {p : Member}

theorem Invariant.step (invariant : Invariant floor config)
    (step : Step late p config next) : Invariant floor next :=
  ⟨invariant.elections.step step, Logs.step invariant step, Confirmed.step invariant step,
    Completeness.step invariant step⟩

/-- Any number of steps keep the invariant and the history. -/
theorem Invariant.steps (invariant : Invariant floor config)
    (steps : Steps late p config next) : Invariant floor next ∧ Extends config next := by
  induction steps with
  | refl => exact ⟨invariant, Extends.refl config⟩
  | tail _ step inductionHypothesis =>
    obtain ⟨invariant, grows⟩ := inductionHypothesis
    exact ⟨invariant.step step, grows.trans (invariant.extends step)⟩

/-! ### Chosen prefixes -/

/-- A prefix of a leader's log that ends in its term and that a majority has confirmed. -/
structure Chosen (config : Config Member Entry) (time : ℕ) (part : List Entry) : Prop where
  ends : ∃ front entry, part = front ++ [entry] ∧ term entry = time
  inLeader : part <+: config.leaderLog time
  led : ∃ p, config.leader time = some p
  group : ∃ members : Finset Member, Majority members ∧
    ∀ q ∈ members, part.length ≤ config.acked q time

omit [DecidableEq Member] in
theorem Chosen.isOpen {time : ℕ} {part : List Entry} (chosen : Chosen config time part) :
    Open config time part :=
  ⟨chosen.ends, chosen.inLeader, chosen.led, chosen.group.imp fun _ group =>
    ⟨group.1, fun q member => Or.inl (group.2 q member)⟩⟩

omit [DecidableEq Member] in
theorem Chosen.mono {time : ℕ} {part : List Entry} (chosen : Chosen config time part)
    (grows : Extends config next) : Chosen next time part :=
  ⟨chosen.ends, chosen.inLeader.trans (grows.leaderLog time),
    chosen.led.imp fun _ led => grows.leader led, chosen.group.imp fun _ group =>
      ⟨group.1, fun q member => (group.2 q member).trans (grows.acked q time)⟩⟩

omit [DecidableEq Member] in
/-- Leader completeness: every later leader was elected with the chosen prefix in its log. -/
theorem Invariant.chosen_prefix_electLog (invariant : Invariant floor config) {time later : ℕ}
    {part : List Entry} (chosen : Chosen config time part) (after : time < later)
    (led : config.leader later = some p) : part <+: config.electLog later :=
  invariant.completeness.elected chosen.isOpen after led

omit [DecidableEq Member] in
/-- Two chosen prefixes lie on one line. -/
theorem Invariant.chosen_comparable (invariant : Invariant floor config) {time time' : ℕ}
    {part part' : List Entry} (chosen : Chosen config time part)
    (chosen' : Chosen config time' part') : part <+: part' ∨ part' <+: part := by
  have below : ∀ {time time' : ℕ} {part part' : List Entry}, Chosen config time part →
      Chosen config time' part' → time < time' → part <+: part' ∨ part' <+: part := by
    intro time time' part part' chosen chosen' after
    obtain ⟨leader, led⟩ := chosen'.led
    exact prefix_comparable ((invariant.chosen_prefix_electLog chosen after led).trans
      (invariant.logs.elected led)) chosen'.inLeader
  rcases Nat.lt_trichotomy time time' with before | rfl | after
  · exact below chosen chosen' before
  · exact prefix_comparable chosen.inLeader chosen'.inLeader
  · exact (below chosen' chosen after).symm

/-- What a member that has reached the term holds of a chosen prefix, it keeps. -/
theorem Invariant.chosen_kept_step (invariant : Invariant floor config) {time : ℕ} {q : Member}
    {part front : List Entry} (chosen : Chosen config time part) (reached : time ≤ config.term q)
    (inPart : front <+: part) (held : front <+: config.log q)
    (step : Step late p config next) : front <+: next.log q := by
  cases step with
  | append entry leads stamp =>
    rw [Config.append_log]
    split
    · next self => exact (self ▸ held).trans (List.prefix_append _ _)
    · exact held
  | accept request result member current idle other adopts =>
    rw [Config.accept_log]
    split
    · next self =>
      subst self
      refine adopts.keeps held ?_
      rcases invariant.completeness.sent chosen.isOpen member (current ▸ reached) with
        inside | ⟨-, sibling⟩
      · exact Or.inl (inPart.trans inside)
      · exact prefix_comparable (inPart.trans chosen.inLeader) sibling
    · exact held
  | _ => exact held

theorem Invariant.chosen_kept (invariant : Invariant floor config) {time : ℕ} {q : Member}
    {part front : List Entry} (chosen : Chosen config time part) (reached : time ≤ config.term q)
    (inPart : front <+: part) (held : front <+: config.log q)
    (steps : Steps late p config next) : front <+: next.log q := by
  induction steps with
  | refl => exact held
  | tail before step inductionHypothesis =>
    obtain ⟨invariant', grows⟩ := invariant.steps before
    exact invariant'.chosen_kept_step (chosen.mono grows) (reached.trans (grows.term q)) inPart
      inductionHypothesis step

/-! ### What members take for committed -/

/-- So much of the log is part of a prefix chosen in the term or before it. -/
def Settled (config : Config Member Entry) (log : List Entry) (count time : ℕ) : Prop :=
  count = 0 ∨ ∃ time' part, time' ≤ time ∧ Chosen config time' part ∧ count ≤ part.length ∧
    part.take count <+: log

section Settled

omit [DecidableEq Member]

variable {log log' : List Entry} {count time time' : ℕ}

theorem Settled.mono (settled : Settled config log count time) (grows : Extends config next)
    (forward : time ≤ time') : Settled next log count time' :=
  settled.imp_right fun ⟨at', part, before, chosen, short, inLog⟩ =>
    ⟨at', part, before.trans forward, chosen.mono grows, short, inLog⟩

theorem Settled.of_part (settled : Settled config log count time) (longer : log <+: log') :
    Settled config log' count time :=
  settled.imp_right fun ⟨at', part, before, chosen, short, inLog⟩ =>
    ⟨at', part, before, chosen, short, inLog.trans longer⟩

theorem Settled.le_length (settled : Settled config log count time) : count ≤ log.length := by
  rcases settled with rfl | ⟨_, part, -, -, short, inLog⟩
  · exact Nat.zero_le _
  · simpa [short] using inLog.length_le

theorem Settled.min_length (settled : Settled config log count time) :
    Settled config log (min count log.length) time := by
  rwa [Nat.min_eq_left settled.le_length]

/-- The settled part of a log is a prefix of a chosen one. -/
theorem Settled.take_part (settled : Settled config log count time) (positive : 0 < count) :
    ∃ time' part, time' ≤ time ∧ Chosen config time' part ∧ log.take count <+: part := by
  rcases settled with rfl | ⟨time', part, before, chosen, short, inLog⟩
  · exact absurd positive (Nat.lt_irrefl 0)
  · refine ⟨time', part, before, chosen, ?_⟩
    have same : part.take count = log.take count := by
      rw [List.prefix_iff_eq_take.mp inLog, List.length_take, Nat.min_eq_left short]
    exact same ▸ List.take_prefix _ _

end Settled

/-- Every member and every request counts as committed only what is settled. -/
structure Commitment (config : Config Member Entry) : Prop where
  held : ∀ p, Settled config (config.log p) (config.commit p) (config.term p)
  sent : ∀ {request}, request ∈ config.sent →
    Settled config request.log request.commit request.term

omit [DecidableEq Member] in
theorem commitment_start {floor : ℕ} {base : List Entry} :
    Commitment (Config.start floor base : Config Member Entry) :=
  ⟨fun _ => Or.inl rfl, fun member => absurd member (Set.notMem_empty _)⟩

/-- No step removes what a member takes for committed. -/
theorem Commitment.kept (commitment : Commitment config) (invariant : Invariant floor config)
    (steps : Steps late p config next) (q : Member) :
    (config.log q).take (config.commit q) <+: next.log q := by
  rcases Nat.eq_zero_or_pos (config.commit q) with zero | positive
  · rw [zero]
    exact List.nil_prefix
  · obtain ⟨time, part, reached, chosen, inPart⟩ := (commitment.held q).take_part positive
    exact invariant.chosen_kept chosen reached inPart (List.take_prefix _ _) steps

omit [DecidableEq Member] in
/-- A merge keeps what is settled at the receiver. -/
theorem Invariant.settled_adopts (invariant : Invariant floor config) {request : Request Entry}
    {held result : List Entry} {count : ℕ} (sent : request ∈ config.sent)
    (settled : Settled config held count request.term)
    (adopts : Adopts held request.log result) : Settled config result count request.term := by
  refine settled.imp_right fun ⟨time, part, before, chosen, short, inHeld⟩ =>
    ⟨time, part, before, chosen, short, adopts.keeps inHeld ?_⟩
  have inPart : part.take count <+: part := List.take_prefix _ _
  rcases invariant.completeness.sent chosen.isOpen sent before with inside | ⟨-, sibling⟩
  · exact Or.inl (inPart.trans inside)
  · exact prefix_comparable (inPart.trans chosen.inLeader) sibling

theorem Commitment.step (commitment : Commitment config) (invariant : Invariant floor config)
    (step : Step False p config next) : Commitment next := by
  have grows := invariant.extends step
  have held := fun q => (commitment.held q).mono grows (grows.term q)
  have sent : ∀ {request}, request ∈ config.sent →
      Settled next request.log request.commit request.term :=
    fun member => (commitment.sent member).mono grows le_rfl
  cases step with
  | enter time role commit forward runs kept =>
    refine ⟨fun q => ?_, sent⟩
    have old := held q
    rw [Config.enter_term] at old
    rw [Config.enter_term, Config.enter_commit]
    by_cases self : q = p
    · subst self
      rw [if_pos rfl] at old
      rw [if_pos rfl, if_pos rfl]
      rcases kept with rfl | rfl
      · exact old
      · exact Or.inl rfl
    · rw [if_neg self] at old
      rwa [if_neg self, if_neg self]
  | append entry leads stamp =>
    refine ⟨fun q => (held q).of_part ?_, sent⟩
    rw [Config.append_log]
    split
    · next self => exact self ▸ List.prefix_append _ _
    · exact List.prefix_refl _
  | send request led log commit onTime =>
    refine ⟨held, fun {other} member => ?_⟩
    rcases Set.mem_insert_iff.mp member with rfl | old
    · obtain ⟨-, current⟩ := onTime.resolve_left id
      rw [log, commit, ← current]
      exact held p
    · exact sent old
  | accept request result member current idle other adopts =>
    refine ⟨fun q => ?_, sent⟩
    have old := held q
    rw [Config.accept_log]
    split
    · next self =>
      subst self
      exact (invariant.settled_adopts member (current ▸ commitment.held q) adopts).mono grows
        current.le
    · exact old
  | learn request member current inLog more =>
    refine ⟨fun q => ?_, sent⟩
    by_cases self : q = p
    · subst self
      rw [Config.learn_commit, if_pos rfl]
      exact current ▸ ((sent member).of_part inLog).min_length
    · rw [Config.learn_commit, if_neg self]
      exact held q
  | settle front entry group leads part stamp majority enough =>
    refine ⟨fun q => ?_, sent⟩
    by_cases self : q = p
    · subst self
      rw [Config.learn_commit, if_pos rfl]
      have led := invariant.elections.leading leads
      have whole := invariant.logs.leading led
      refine Or.inr ⟨config.term q, front ++ [entry], le_rfl, ⟨⟨front, entry, rfl, stamp⟩, ?_,
        ⟨q, led⟩, group, majority, ?_⟩, by simp, (List.take_prefix _ _).trans part⟩
      · exact whole.symm ▸ part
      · intro other member
        rw [List.length_append, List.length_singleton]
        exact enough other member
    · rw [Config.learn_commit, if_neg self]
      exact held q
  | _ => exact ⟨held, sent⟩

/-- Without late requests, any number of steps keep both invariants. -/
theorem Commitment.steps (commitment : Commitment config) (invariant : Invariant floor config)
    (steps : Steps False p config next) : Commitment next := by
  induction steps with
  | refl => exact commitment
  | tail before step inductionHypothesis =>
    exact inductionHypothesis.step (invariant.steps before).1 step

end Replication
