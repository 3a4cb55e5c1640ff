/-
This file carries the invariant of the replication protocol on to logs. Its second layer says
that every log in the system is rooted in the leaders' logs, its third that confirmations are
truthful. The fourth is the argument of leader completeness, in a form that needs no induction
over terms: a prefix that ends in the term it is read in is *open* while a majority may still
confirm it, and while it is open every later leader, every member that confirmed it or led
later, and every request of its term or a later one holds it. Openness is only ever lost, so
each step has to check the few prefixes and holders it adds.
-/

import RaftInMotion.Library.Protocol
import Mathlib.Data.Set.Insert

namespace Replication

open TermLog TermLog.Stamped

variable {Member Entry : Type*} [DecidableEq Member] [Fintype Member] [Stamped Entry]

/-! ### History only grows -/

/-- The history of a configuration is still there in a later one. -/
structure Extends (config next : Config Member Entry) : Prop where
  term : ∀ p, config.term p ≤ next.term p
  leader : ∀ {time p}, config.leader time = some p → next.leader time = some p
  leaderLog : ∀ time, config.leaderLog time <+: next.leaderLog time
  electLog : ∀ {time p}, config.leader time = some p → next.electLog time = config.electLog time
  voters : ∀ {time p}, config.leader time = some p → next.voters time = config.voters time
  ballot : ∀ {q time p}, config.ballot q time = some p →
    next.ballot q time = some p ∧ next.ballotLog q time = config.ballotLog q time
  acked : ∀ q time, config.acked q time ≤ next.acked q time
  sent : config.sent ⊆ next.sent

omit [DecidableEq Member] [Fintype Member] [Stamped Entry] in
theorem Extends.refl (config : Config Member Entry) : Extends config config :=
  ⟨fun _ => le_rfl, id, fun _ => List.prefix_refl _, fun _ => rfl, fun _ => rfl,
    fun spent => ⟨spent, rfl⟩, fun _ _ => le_rfl, fun _ => id⟩

omit [DecidableEq Member] [Fintype Member] [Stamped Entry] in
theorem Extends.trans {first second third : Config Member Entry} (left : Extends first second)
    (right : Extends second third) : Extends first third where
  term p := (left.term p).trans (right.term p)
  leader led := right.leader (left.leader led)
  leaderLog time := (left.leaderLog time).trans (right.leaderLog time)
  electLog led := (right.electLog (left.leader led)).trans (left.electLog led)
  voters led := (right.voters (left.leader led)).trans (left.voters led)
  ballot spent :=
    have kept := left.ballot spent
    ⟨(right.ballot kept.1).1, (right.ballot kept.1).2.trans kept.2⟩
  acked q time := (left.acked q time).trans (right.acked q time)
  sent := left.sent.trans right.sent

/-! ### The layers of the invariant -/

/-- A log that may occur: sorted, rooted in the leaders' logs, with entries of known terms. -/
structure Sound (floor : ℕ) (config : Config Member Entry) (log : List Entry) : Prop where
  sorted : Sorted log
  rooted : Rooted config.leaderLog log
  known : ∀ entry ∈ log, term entry ≤ floor ∨ ∃ p, config.leader (term entry) = some p

/-- The second layer: every log is sound, and a leader's log is the log of its term. -/
structure Logs (floor : ℕ) (config : Config Member Entry) : Prop where
  held : ∀ p, Sound floor config (config.log p)
  sent : ∀ {request}, request ∈ config.sent → Sound floor config request.log
  led : ∀ time, Sound floor config (config.leaderLog time)
  bounded : ∀ {time}, floor < time → ∀ entry ∈ config.leaderLog time, term entry ≤ time
  unled : ∀ {time}, floor < time → config.leader time = none → config.leaderLog time = []
  leading : ∀ {p}, config.leader (config.term p) = some p →
    config.leaderLog (config.term p) = config.log p
  elected : ∀ {time p}, config.leader time = some p →
    config.electLog time <+: config.leaderLog time
  cast : ∀ q time, Sorted (config.ballotLog q time)
  running : ∀ {p q}, config.role p = .candidate → config.ballot q (config.term p) = some p →
    UpToDate (config.log p) (config.ballotLog q (config.term p)) ∧
      ∀ entry ∈ config.log p, config.term p < term entry → q ∉ config.voters (term entry)
  request : ∀ {request}, request ∈ config.sent → ∃ p, config.leader request.term = some p ∧
    (request.log <+: config.leaderLog request.term ∨ request.term < config.term p)

/-- The third layer: what members have confirmed of the leaders' logs. -/
structure Confirmed (config : Config Member Entry) : Prop where
  bounded : ∀ q time, config.acked q time ≤ (config.leaderLog time).length
  reached : ∀ {q time}, 0 < config.acked q time → time ≤ config.term q
  own : ∀ {time p}, config.leader time = some p →
    config.acked p time = (config.leaderLog time).length
  retained : ∀ {time p q}, config.leader time = some p → config.term p = time →
    config.term q = time → (config.leaderLog time).take (config.acked q time) <+: config.log q

/-- A prefix of a leader's log that ends in its term and that a majority may yet confirm. -/
structure Open (config : Config Member Entry) (time : ℕ) (part : List Entry) : Prop where
  ends : ∃ front entry, part = front ++ [entry] ∧ term entry = time
  inLeader : part <+: config.leaderLog time
  led : ∃ p, config.leader time = some p
  group : ∃ members : Finset Member, Majority members ∧
    ∀ q ∈ members, part.length ≤ config.acked q time ∨ config.term q ≤ time

/-- The fourth layer: who holds a prefix while it is open. -/
structure Completeness (config : Config Member Entry) : Prop where
  elected : ∀ {time part later p}, Open config time part → time < later →
    config.leader later = some p → part <+: config.electLog later
  held : ∀ {time part q}, Open config time part →
    (part.length ≤ config.acked q time ∨ ∃ later, time < later ∧ config.leader later = some q) →
    part <+: config.log q
  sent : ∀ {time part request}, Open config time part → request ∈ config.sent →
    time ≤ request.term → part <+: request.log ∨
      request.term = time ∧ request.log <+: config.leaderLog time
  cast : ∀ {time part later q p}, Open config time part → time < later →
    config.ballot q later = some p → part.length ≤ config.acked q time →
    part <+: config.ballotLog q later

/-- The invariant of the protocol. -/
structure Invariant (floor : ℕ) (config : Config Member Entry) : Prop where
  elections : Elections floor config
  logs : Logs floor config
  confirmed : Confirmed config
  completeness : Completeness config

variable {floor : ℕ} {config next : Config Member Entry} {late : Prop} {p : Member}

omit [DecidableEq Member] [Fintype Member] in
theorem Sound.mono {log : List Entry} (sound : Sound floor config log)
    (grows : Extends config next) : Sound floor next log where
  sorted := sound.sorted
  rooted := sound.rooted.mono grows.leaderLog
  known entry member := (sound.known entry member).imp_right fun ⟨p, led⟩ => ⟨p, grows.leader led⟩

omit [DecidableEq Member] [Fintype Member] in
theorem sound_nil : Sound floor config ([] : List Entry) :=
  ⟨List.Pairwise.nil, rooted_nil, fun _ member => absurd member List.not_mem_nil⟩

/-- A step keeps the history. -/
theorem Invariant.extends (invariant : Invariant floor config)
    (step : Step late p config next) : Extends config next := by
  obtain ⟨elections, logs, confirmed, -⟩ := invariant
  cases step with
  | enter time role commit forward runs kept =>
    refine ⟨fun q => ?_, id, fun _ => List.prefix_refl _, fun _ => rfl, fun _ => rfl,
      fun spent => ⟨spent, rfl⟩, fun _ _ => le_rfl, fun _ => id⟩
    simp only [Config.enter, Function.update_apply]
    split
    · next same => exact same ▸ forward
    · exact le_rfl
  | grant candidate reaches idle unspent upToDate =>
    refine ⟨fun _ => le_rfl, id, fun _ => List.prefix_refl _, fun _ => rfl, fun _ => rfl,
      fun spent => ?_, fun _ _ => le_rfl, fun _ => id⟩
    simp only [Config.cast, Function.update_apply]
    grind
  | lead voters runs majority backed =>
    have unled := elections.unled_of_backed runs majority backed
    obtain ⟨above, -, unspent⟩ := elections.running runs
    have empty := logs.unled above unled
    have unconfirmed := confirmed.bounded p (config.term p)
    rw [empty] at unconfirmed
    refine ⟨fun _ => le_rfl, fun led => ?_, fun time => ?_, fun led => ?_, fun led => ?_,
      fun spent => ?_, fun q time => ?_, fun _ => id⟩ <;>
    simp only [Config.lead, Config.cast, Config.confirm, Function.update_apply] <;> grind
  | append entry leads stamp =>
    have whole := logs.leading (elections.leading leads)
    have own := confirmed.own (elections.leading leads)
    refine ⟨fun _ => le_rfl, id, fun time => ?_, fun _ => rfl, fun _ => rfl,
      fun spent => ⟨spent, rfl⟩, fun q time => ?_, fun _ => id⟩ <;>
    simp only [Config.append, Config.confirm, Function.update_apply] <;> grind
  | send request led log commit onTime =>
    exact ⟨fun _ => le_rfl, id, fun _ => List.prefix_refl _, fun _ => rfl, fun _ => rfl,
      fun spent => ⟨spent, rfl⟩, fun _ _ => le_rfl, Set.subset_insert _ _⟩
  | confirm count higher bounded held =>
    refine ⟨fun _ => le_rfl, id, fun _ => List.prefix_refl _, fun _ => rfl, fun _ => rfl,
      fun spent => ⟨spent, rfl⟩, fun q time => ?_, fun _ => id⟩
    simp only [Config.confirm, Function.update_apply]
    grind
  | _ =>
    exact ⟨fun _ => le_rfl, id, fun _ => List.prefix_refl _, fun _ => rfl, fun _ => rfl,
      fun spent => ⟨spent, rfl⟩, fun _ _ => le_rfl, fun _ => id⟩

/-! ### Logs -/

/-- A backed candidate holds no entry of a term above its own: the majority that elected the
leader of such a term would have had to vote in a lower term afterwards. -/
theorem Logs.bounded_of_backed (logs : Logs floor config) (elections : Elections floor config)
    {voters : Finset Member} (running : config.role p = .candidate) (majority : Majority voters)
    (backed : ∀ q ∈ voters, q ≠ p → config.ballot q (config.term p) = some p) :
    ∀ entry ∈ config.log p, term entry ≤ config.term p := by
  intro entry member
  by_contra above
  have above : config.term p < term entry := Nat.not_le.mp above
  obtain ⟨floorBelow, -, -⟩ := elections.running running
  rcases (logs.held p).known entry member with below | ⟨other, led⟩
  · omega
  obtain ⟨otherMajority, otherBacked⟩ := elections.elected led
  obtain ⟨shared, inOwn, inOther⟩ := majority.meet otherMajority
  by_cases self : shared = p
  · have reached := (elections.ballot_reached (otherBacked shared inOther)).1
    rw [self] at reached
    omega
  · exact (logs.running running (backed shared inOwn self)).2 entry member above inOther

theorem Logs.enter {time commit : ℕ} {role : Role} (elections : Elections floor config)
    (logs : Logs floor config) (grows : Extends config (config.enter p time role commit))
    (forward : config.term p ≤ time)
    (runs : role = .follower ∨ role = .candidate ∧ config.term p < time) :
    Logs floor (config.enter p time role commit) := by
  refine ⟨fun q => (logs.held q).mono grows, fun member => (logs.sent member).mono grows,
    fun time => (logs.led time).mono grows, logs.bounded, logs.unled, fun {q} leads => ?_,
    logs.elected, logs.cast, fun {q voter} runs spent => ?_, fun member => ?_⟩
  · have leading := logs.leading (p := q)
    have reached : config.leader time = some p → _ := fun led => (elections.leader_reached led).2
    simp only [Config.enter, Function.update_apply] at leads ⊢
    grind
  · have running := logs.running (p := q) (q := voter)
    have reached : ∀ time, config.ballot voter time = some q →
      time ≤ config.term voter ∧ time ≤ config.term q := fun _ => elections.ballot_reached
    simp only [Config.enter, Function.update_apply] at runs spent ⊢
    grind
  · obtain ⟨q, led, timely⟩ := logs.request member
    exact ⟨q, led, timely.imp_right fun late => late.trans_le (grows.term q)⟩

theorem Logs.cast_ballot {candidate : Member} (elections : Elections floor config)
    (logs : Logs floor config) (grows : Extends config (config.cast p candidate))
    (upToDate : config.role candidate = .candidate → config.term candidate = config.term p →
      UpToDate (config.log candidate) (config.log p)) :
    Logs floor (config.cast p candidate) := by
  refine ⟨fun q => (logs.held q).mono grows, fun member => (logs.sent member).mono grows,
    fun time => (logs.led time).mono grows, logs.bounded, logs.unled, logs.leading,
    logs.elected, fun q time => ?_, fun {q voter} runs spent => ?_, logs.request⟩
  · have cast := logs.cast q time
    have held := (logs.held p).sorted
    simp only [Config.cast, Function.update_apply]
    grind
  · simp only [Config.cast, Function.update_apply] at runs spent ⊢
    by_cases fresh : voter = p ∧ config.term q = config.term p
    · obtain ⟨rfl, same⟩ := fresh
      obtain rfl : candidate = q := by simpa [same] using spent
      simp only [same, if_true]
      refine ⟨by rw [Function.update_self]; exact upToDate runs same,
        fun entry member above inVoters => ?_⟩
      -- A voter of the entry's term has already reached that term.
      rcases (logs.held candidate).known entry member with below | ⟨other, led⟩
      · have := elections.floor_le voter
        omega
      · have reached := (elections.ballot_reached ((elections.elected led).2 _ inVoters)).1
        omega
    · have spent : config.ballot voter (config.term q) = some q := by grind
      have running := logs.running runs spent
      grind

theorem Logs.lead {voters : Finset Member} (elections : Elections floor config)
    (logs : Logs floor config) (grows : Extends config (config.lead p voters))
    (runs : config.role p = .candidate) (majority : Majority voters)
    (backed : ∀ q ∈ voters, q ≠ p → config.ballot q (config.term p) = some p) :
    Logs floor (config.lead p voters) := by
  have bounded := logs.bounded_of_backed elections runs majority backed
  have own := (logs.held p).mono grows
  refine ⟨fun q => (logs.held q).mono grows, fun member => (logs.sent member).mono grows,
    fun time => ?_, fun {time} above => ?_, fun {time} above unled => ?_, fun {q} leads => ?_,
    fun {time q} led => ?_, fun q time => ?_, fun {q voter} runs' spent => ?_,
    fun {request} member => ?_⟩
  · have old := (logs.led time).mono grows
    simp only [Config.lead, Function.update_apply] at own old ⊢
    split
    · exact own
    · exact old
  · have old := logs.bounded above
    simp only [Config.lead, Function.update_apply]
    grind
  · have old := logs.unled above
    simp only [Config.lead, Function.update_apply] at unled ⊢
    grind
  · have old := logs.leading (p := q)
    simp only [Config.lead, Config.cast, Config.confirm, Function.update_apply] at leads ⊢
    grind
  · have old : config.leader time = some q → _ := logs.elected
    simp only [Config.lead, Function.update_apply] at led ⊢
    grind
  · have cast := logs.cast q time
    have held := (logs.held p).sorted
    simp only [Config.lead, Config.cast, Config.confirm, Function.update_apply]
    grind
  · have running := logs.running (p := q) (q := voter)
    have known := (logs.held q).known
    have reached : ∀ time, config.ballot voter time = some q →
      time ≤ config.term voter ∧ time ≤ config.term q := fun _ => elections.ballot_reached
    have unled := elections.unled_of_backed runs majority backed
    have above := (elections.running runs).1
    simp only [Config.lead, Config.cast, Config.confirm, Function.update_apply] at runs' spent ⊢
    grind
  · obtain ⟨q, led, timely⟩ := logs.request member
    refine ⟨q, grows.leader led, timely.imp (fun part => part.trans (grows.leaderLog _)) id⟩

theorem Logs.append {entry : Entry} (elections : Elections floor config)
    (logs : Logs floor config) (grows : Extends config (config.append p entry))
    (leads : config.role p = .leader) (stamp : term entry = config.term p) :
    Logs floor (config.append p entry) := by
  have led := elections.leading leads
  have whole := logs.leading led
  have bounded : ∀ other ∈ config.log p ++ [entry], term other ≤ config.term p := by
    intro other member
    rcases List.mem_append.mp member with inLog | isNew
    · exact logs.bounded (elections.leader_reached led).1 other (whole ▸ inLog)
    · rw [List.mem_singleton.mp isNew, stamp]
  have sound : Sound floor (config.append p entry) (config.log p ++ [entry]) := by
    have old := (logs.held p).mono grows
    refine ⟨old.sorted.append fun other member => ?_, old.rooted.append ?_, fun other member => ?_⟩
    · exact stamp ▸ bounded other (List.mem_append_left _ member)
    · rw [stamp]
      simp [Config.append]
    · rcases List.mem_append.mp member with inLog | isNew
      · exact old.known other inLog
      · exact Or.inr ⟨p, by rw [List.mem_singleton.mp isNew, stamp]; exact led⟩
  refine ⟨fun q => ?_, fun member => (logs.sent member).mono grows, fun time => ?_,
    fun {time} above => ?_, fun {time} above unled => ?_, fun {q} leads' => ?_,
    fun {time q} led' => ?_,
    logs.cast, fun {q voter} runs => ?_, fun {request} member => ?_⟩
  · have old := (logs.held q).mono grows
    simp only [Config.append, Function.update_apply] at sound old ⊢
    grind
  · have old := (logs.led time).mono grows
    simp only [Config.append, Function.update_apply] at sound old ⊢
    grind
  · have old := logs.bounded above
    simp only [Config.append, Function.update_apply]
    grind
  · have old : config.leader time = none → _ := logs.unled above
    simp only [Config.append, Config.confirm, Function.update_apply] at unled ⊢
    grind
  · have old := logs.leading (p := q) leads'
    simp only [Config.append, Config.confirm, Function.update_apply] at leads' ⊢
    grind
  · exact (logs.elected led').trans (grows.leaderLog time)
  · have running := logs.running (p := q) (q := voter) runs
    have candidate : config.role q = .candidate := runs
    simp only [Config.append, Config.confirm, Function.update_apply]
    grind
  · obtain ⟨q, led, timely⟩ := logs.request member
    exact ⟨q, led, timely.imp_left fun part => part.trans (grows.leaderLog _)⟩

omit [DecidableEq Member] in
theorem Logs.send {request : Request Entry} (elections : Elections floor config)
    (logs : Logs floor config) (grows : Extends config (config.send request))
    (led : config.leader request.term = some p) (log : request.log = config.log p) :
    Logs floor (config.send request) := by
  refine ⟨fun q => (logs.held q).mono grows, fun {other} member => ?_,
    fun time => (logs.led time).mono grows, logs.bounded, logs.unled, logs.leading,
    logs.elected, logs.cast, logs.running, fun {other} member => ?_⟩
  · rcases Set.mem_insert_iff.mp member with rfl | old
    · exact log ▸ (logs.held p).mono grows
    · exact (logs.sent old).mono grows
  · rcases Set.mem_insert_iff.mp member with rfl | old
    · -- A request is sent in the term its sender leads, or after that.
      refine ⟨p, led, ?_⟩
      rcases (elections.leader_reached led).2.lt_or_eq with later | same
      · exact Or.inr later
      · refine Or.inl ?_
        show other.log <+: config.leaderLog other.term
        rw [log, same, logs.leading (same ▸ led)]
    · exact logs.request old

omit [Fintype Member] in
theorem Logs.accept {request : Request Entry} {result : List Entry} (logs : Logs floor config)
    (grows : Extends config (config.accept p result)) (sent : request ∈ config.sent)
    (current : request.term = config.term p) (idle : config.role p = .follower)
    (other : config.leader request.term ≠ some p)
    (adopts : Adopts (config.log p) request.log result) :
    Logs floor (config.accept p result) := by
  have sound : Sound floor (config.accept p result) result := by
    rcases adopts.eq_or_eq with rfl | rfl
    · exact (logs.held p).mono grows
    · exact (logs.sent sent).mono grows
  refine ⟨fun q => ?_, fun member => (logs.sent member).mono grows,
    fun time => (logs.led time).mono grows, logs.bounded, logs.unled, fun {q} leads => ?_,
    logs.elected, logs.cast, fun {q voter} runs => ?_, logs.request⟩
  · have old := (logs.held q).mono grows
    simp only [Config.accept, Function.update_apply] at sound old ⊢
    grind
  · have leading := logs.leading (p := q) leads
    simp only [Config.accept, Function.update_apply] at leads ⊢
    grind
  · have running := logs.running (p := q) (q := voter) runs
    simp only [Config.accept, Function.update_apply] at runs ⊢
    grind

theorem Logs.step (invariant : Invariant floor config) (step : Step late p config next) :
    Logs floor next := by
  have grows := invariant.extends step
  obtain ⟨elections, logs, confirmed, -⟩ := invariant
  cases step with
  | enter time role commit forward runs kept =>
    exact logs.enter elections grows forward runs
  | grant candidate reaches idle unspent upToDate =>
    exact logs.cast_ballot elections grows upToDate
  | lead voters runs majority backed =>
    exact logs.lead elections grows runs majority backed
  | append entry leads stamp =>
    exact logs.append elections grows leads stamp
  | send request led log commit onTime =>
    exact logs.send elections grows led log
  | accept request result sent current idle other adopts =>
    exact logs.accept grows sent current idle other adopts
  | _ =>
    exact ⟨fun q => (logs.held q).mono grows, fun member => (logs.sent member).mono grows,
      fun time => (logs.led time).mono grows, logs.bounded, logs.unled, logs.leading,
      logs.elected, logs.cast, logs.running, logs.request⟩

/-! ### Confirmations -/

omit [DecidableEq Member] [Fintype Member] in
/-- A request of a term whose leader has not moved on was cut from that leader's log. -/
theorem Logs.request_timely (logs : Logs floor config) {request : Request Entry}
    (sent : request ∈ config.sent) (led : config.leader request.term = some p)
    (stays : config.term p = request.term) : request.log <+: config.leaderLog request.term := by
  obtain ⟨sender, isLeader, part | late⟩ := logs.request sent
  · exact part
  · obtain rfl : sender = p := Option.some.inj (isLeader.symm.trans led)
    omega

theorem Confirmed.step (invariant : Invariant floor config) (step : Step late p config next) :
    Confirmed next := by
  have grows := invariant.extends step
  obtain ⟨elections, logs, confirmed, -⟩ := invariant
  cases step with
  | enter time role commit forward runs kept =>
    refine ⟨confirmed.bounded, fun {q at'} some' => ?_, confirmed.own,
      fun {at' leader q} led there here => ?_⟩
    · exact (confirmed.reached some').trans (grows.term q)
    · have retained := confirmed.retained (q := q) led
      have reached := (elections.leader_reached led).2
      have unconfirmed : config.term p < at' → config.acked p at' = 0 := fun above =>
        Nat.eq_zero_of_not_pos fun some' => absurd (confirmed.reached some') (Nat.not_le.mpr above)
      simp only [Config.enter, Function.update_apply] at there here ⊢
      grind
  | lead voters runs majority backed =>
    have empty := logs.unled (elections.running runs).1
      (elections.unled_of_backed runs majority backed)
    have unconfirmed : ∀ q, config.acked q (config.term p) = 0 := fun q =>
      Nat.le_zero.mp ((confirmed.bounded q _).trans (by rw [empty, List.length_nil]))
    refine ⟨fun q time => ?_, fun {q time} some' => ?_, fun {time leader} led => ?_,
      fun {time leader q} led there here => ?_⟩
    · have old := confirmed.bounded q time
      simp only [Config.lead, Config.cast, Config.confirm, Function.update_apply]
      grind
    · have old : 0 < config.acked q time → _ := confirmed.reached
      simp only [Config.lead, Config.cast, Config.confirm, Function.update_apply] at some' ⊢
      grind
    · have old : config.leader time = some leader → _ := confirmed.own
      simp only [Config.lead, Config.cast, Config.confirm, Function.update_apply] at led ⊢
      grind
    · have old : config.leader time = some leader → _ := confirmed.retained (q := q)
      simp only [Config.lead, Config.cast, Config.confirm, Function.update_apply]
        at led there here ⊢
      grind
  | append entry leads stamp =>
    have led := elections.leading leads
    have whole := logs.leading led
    refine ⟨fun q time => ?_, fun {q time} some' => ?_, fun {time leader} led' => ?_,
      fun {time leader q} led' there here => ?_⟩
    · have old := confirmed.bounded q time
      simp only [Config.append, Config.confirm, Function.update_apply]
      grind
    · have old : 0 < config.acked q time → _ := confirmed.reached
      simp only [Config.append, Config.confirm, Function.update_apply] at some' ⊢
      grind
    · have old := confirmed.own led'
      simp only [Config.append, Config.confirm, Function.update_apply] at led' ⊢
      grind
    · have old := confirmed.retained led' there here
      have bounded := confirmed.bounded q time
      simp only [Config.append, Config.confirm, Function.update_apply] at led' there here ⊢
      by_cases same : time = config.term p
      · subst same
        rw [whole] at old bounded
        have short : (config.log p ++ [entry]).take (config.acked q (config.term p)) =
          (config.log p).take (config.acked q (config.term p)) :=
            List.take_append_of_le_length bounded
        grind
      · grind
  | accept request result sent current idle other adopts =>
    refine ⟨confirmed.bounded, confirmed.reached, confirmed.own,
      fun {time leader q} led there here => ?_⟩
    have old := confirmed.retained led there here
    simp only [Config.accept, Function.update_apply]
    split
    · next self =>
      subst self
      have same : request.term = time := current.trans here
      subst same
      exact adopts.keeps old (prefix_comparable (List.take_prefix _ _)
        (logs.request_timely sent led there))
    · exact old
  | confirm count higher bounded held =>
    refine ⟨fun q time => ?_, fun {q time} some' => ?_, fun {time leader} led => ?_,
      fun {time leader q} led there here => ?_⟩
    · have old := confirmed.bounded q time
      simp only [Config.confirm, Function.update_apply]
      grind
    · have old : 0 < config.acked q time → _ := confirmed.reached
      simp only [Config.confirm, Function.update_apply] at some' ⊢
      grind
    · have old := confirmed.own led
      simp only [Config.confirm, Function.update_apply] at led ⊢
      grind
    · have old := confirmed.retained led there here
      simp only [Config.confirm, Function.update_apply] at led there here ⊢
      grind
  | _ => exact ⟨confirmed.bounded, confirmed.reached, confirmed.own, confirmed.retained⟩

/-! ### Completeness -/

/-- Nothing becomes open but what a leader appends: a member that confirms more is still in the
term it confirms for. -/
theorem Open.before {time : ℕ} {part : List Entry} (opened : Open next time part)
    (grows : Extends config next) (step : Step late p config next)
    (inLeader : part <+: config.leaderLog time) (led : ∃ leader, config.leader time = some leader) :
    Open config time part := by
  obtain ⟨ends, -, -, members, majority, confirmed⟩ := opened
  refine ⟨ends, inLeader, led, members, majority, fun q member => ?_⟩
  have forward := grows.term q
  have settled : config.term q ≤ time ∨ next.acked q time = config.acked q time := by
    cases step <;> simp only [Config.enter, Config.lead, Config.append, Config.cast,
      Config.confirm, Config.send, Config.accept, Config.learn, Function.update_apply] <;> grind
  rcases confirmed q member with enough | behind
  · exact settled.symm.imp_left fun same => enough.trans same.le
  · exact Or.inr (forward.trans behind)

/-- A candidate that a majority backs holds every prefix still open in an earlier term: it
shares a voter with the majority that may confirm the prefix, and that voter confirmed it
before it voted. -/
theorem Invariant.holds_open_of_backed (invariant : Invariant floor config)
    {voters : Finset Member} (running : config.role p = .candidate) (majority : Majority voters)
    (backed : ∀ q ∈ voters, q ≠ p → config.ballot q (config.term p) = some p) {time : ℕ}
    {part : List Entry} (opened : Open config time part) (earlier : time < config.term p) :
    part <+: config.log p := by
  obtain ⟨elections, logs, confirmed, completeness⟩ := invariant
  obtain ⟨members, membersMajority, mayConfirm⟩ := opened.group
  obtain ⟨shared, inVoters, inMembers⟩ := majority.meet membersMajority
  by_cases self : shared = p
  · subst self
    rcases mayConfirm shared inMembers with enough | behind
    · exact completeness.held opened (Or.inl enough)
    · omega
  have spent := backed shared inVoters self
  have reached := (elections.ballot_reached spent).1
  have enough : part.length ≤ config.acked shared time := by
    rcases mayConfirm shared inMembers with enough | behind
    · exact enough
    · omega
  have inVoter := completeness.cast opened earlier spent enough
  obtain ⟨front, entry, rfl, ends⟩ := opened.ends
  refine (logs.running running spent).1.carries (logs.held p).rooted (logs.cast _ _) inVoter
    (ends ▸ opened.inLeader) fun other member later => ?_
  -- The later entries of the candidate come from leaders that hold the prefix already.
  obtain ⟨leader, led⟩ := opened.led
  have floorBelow := (elections.leader_reached led).1
  rcases (logs.held p).known other member with below | ⟨leader', led'⟩
  · omega
  · exact (completeness.elected opened (ends ▸ later) led').trans (logs.elected led')

/-- The prefixes open after an election were open before it: none ends in the new term. -/
theorem Invariant.open_of_lead (invariant : Invariant floor config) {voters : Finset Member}
    (runs : config.role p = .candidate) (majority : Majority voters)
    (backed : ∀ q ∈ voters, q ≠ p → config.ballot q (config.term p) = some p) {time : ℕ}
    {part : List Entry} (opened : Open (config.lead p voters) time part) :
    time ≠ config.term p ∧ Open config time part := by
  have step : Step False p config (config.lead p voters) := .lead config voters runs majority backed
  have apart : time ≠ config.term p := by
    rintro rfl
    obtain ⟨front, entry, rfl, ends⟩ := opened.ends
    have inLog : front ++ [entry] <+: config.log p := by
      simpa [Config.lead] using opened.inLeader
    rcases (invariant.logs.held p).known entry (inLog.subset (by simp)) with below | ⟨leader, led⟩
    · have above := (invariant.elections.running runs).1
      omega
    · rw [ends, invariant.elections.unled_of_backed runs majority backed] at led
      cases led
  have led := opened.led
  have inLeader := opened.inLeader
  simp only [Config.lead, Function.update_of_ne apart] at led inLeader
  exact ⟨apart, opened.before (invariant.extends step) step inLeader led⟩

theorem Completeness.lead (invariant : Invariant floor config) {voters : Finset Member}
    (runs : config.role p = .candidate) (majority : Majority voters)
    (backed : ∀ q ∈ voters, q ≠ p → config.ballot q (config.term p) = some p) :
    Completeness (config.lead p voters) := by
  have ⟨elections, logs, confirmed, completeness⟩ := invariant
  have step : Step False p config (config.lead p voters) := .lead config voters runs majority backed
  have grows := invariant.extends step
  have wasOpen : ∀ {time part}, Open (config.lead p voters) time part →
      time ≠ config.term p ∧ Open config time part :=
    invariant.open_of_lead runs majority backed
  have carried : ∀ {time part}, Open (config.lead p voters) time part → time < config.term p →
      part <+: config.log p := fun opened =>
    invariant.holds_open_of_backed runs majority backed (wasOpen opened).2
  refine ⟨fun {time part later leader} opened earlier led => ?_,
    fun {time part q} opened holder => ?_, fun {time part request} opened member notEarlier => ?_,
    fun {time part later q leader} opened earlier spent enough => ?_⟩
  · have old : config.leader later = some leader → _ :=
      completeness.elected (wasOpen opened).2 earlier
    have new := carried opened
    simp only [Config.lead, Function.update_apply] at led ⊢
    grind
  · obtain ⟨apart, opened'⟩ := wasOpen opened
    have old := completeness.held (q := q) opened'
    have new := carried opened
    simp only [Config.lead, Config.cast, Config.confirm, Function.update_apply] at holder ⊢
    grind
  · have old := completeness.sent (wasOpen opened).2 member notEarlier
    exact old.imp_right (And.imp_right fun part => part.trans (grows.leaderLog time))
  · obtain ⟨apart, opened'⟩ := wasOpen opened
    have old := completeness.cast (q := q) (p := leader) opened' earlier
    have new := carried opened
    simp only [Config.lead, Config.cast, Config.confirm, Function.update_apply] at spent enough ⊢
    grind

/-- A prefix that is open when a leader has appended was open before, or it is the whole new log
of a term above which nobody has been elected: the rest of the majority has not gone past that
term. -/
theorem Invariant.open_of_append (invariant : Invariant floor config) {entry : Entry}
    (leads : config.role p = .leader) (stamp : term entry = config.term p) {time : ℕ}
    {part : List Entry} (opened : Open (config.append p entry) time part) :
    Open config time part ∨ time = config.term p ∧ part = config.log p ++ [entry] ∧
      ∀ {later leader}, config.leader later = some leader → later ≤ time := by
  have ⟨elections, logs, confirmed, _⟩ := invariant
  have step : Step False p config (config.append p entry) := .append config entry leads stamp
  have grows := invariant.extends step
  have whole := logs.leading (elections.leading leads)
  have inLeader := opened.inLeader
  by_cases same : time = config.term p
  · subst same
    simp only [Config.append, Function.update_self] at inLeader
    rcases List.prefix_concat_iff.mp inLeader with isNew | isOld
    · refine Or.inr ⟨rfl, isNew, fun {later leader} led' => ?_⟩
      by_contra above
      obtain ⟨members, membersMajority, mayConfirm⟩ := opened.group
      obtain ⟨majority, backed⟩ := elections.elected led'
      obtain ⟨shared, inMembers, inVoters⟩ := membersMajority.meet majority
      have reached := (elections.ballot_reached (backed shared inVoters)).1
      have bounded := confirmed.bounded shared (config.term p)
      have long : part.length = (config.log p).length + 1 := by
        rw [isNew, List.length_append, List.length_singleton]
      have mayConfirm := mayConfirm shared inMembers
      simp only [Config.append, Config.confirm, Function.update_apply] at mayConfirm
      rw [whole] at bounded
      grind
    · exact Or.inl (opened.before grows step (whole ▸ isOld) opened.led)
  · simp only [Config.append, Function.update_of_ne same] at inLeader
    exact Or.inl (opened.before grows step inLeader opened.led)

theorem Completeness.append (invariant : Invariant floor config) {entry : Entry}
    (leads : config.role p = .leader) (stamp : term entry = config.term p) :
    Completeness (config.append p entry) := by
  have ⟨elections, logs, confirmed, completeness⟩ := invariant
  have grows := invariant.extends (.append config entry leads stamp : Step False p config _)
  have led := elections.leading leads
  have whole := logs.leading led
  refine ⟨fun {time part later leader} opened earlier led' => ?_,
    fun {time part q} opened holder => ?_, fun {time part request} opened member notEarlier => ?_,
    fun {time part later q leader} opened earlier spent enough => ?_⟩
  · rcases invariant.open_of_append leads stamp opened with opened | ⟨-, -, top⟩
    · exact completeness.elected opened earlier led'
    · exact absurd (top led') (Nat.not_le.mpr earlier)
  · have extends' : config.log p <+: config.log p ++ [entry] := List.prefix_append _ _
    rcases invariant.open_of_append leads stamp opened with opened | ⟨rfl, rfl, top⟩
    · have old := completeness.held (q := q) opened
      have long := opened.inLeader.length_le
      have bounded := confirmed.own led
      simp only [Config.append, Config.confirm, Function.update_apply] at holder ⊢
      grind
    · have bounded := confirmed.bounded q (config.term p)
      rw [whole] at bounded
      simp only [Config.append, Config.confirm, Function.update_apply] at holder ⊢
      grind
  · rcases invariant.open_of_append leads stamp opened with opened | ⟨rfl, rfl, top⟩
    · exact (completeness.sent opened member notEarlier).imp_right
        (And.imp_right fun part => part.trans (grows.leaderLog time))
    · obtain ⟨sender, led', -⟩ := logs.request member
      have same := (top led').antisymm notEarlier
      have timely := logs.request_timely member (same ▸ led) same.symm
      exact Or.inr ⟨same, same ▸ timely.trans (grows.leaderLog _)⟩
  · rcases invariant.open_of_append leads stamp opened with opened | ⟨rfl, rfl, top⟩
    · have old := completeness.cast (q := q) (p := leader) opened earlier spent
      have reached := (elections.ballot_reached spent).1
      have long := opened.inLeader.length_le
      simp only [Config.append, Config.confirm, Function.update_apply] at enough ⊢
      grind
    · have reached := (elections.ballot_reached spent).1
      have bounded := confirmed.bounded q (config.term p)
      rw [whole] at bounded
      simp only [Config.append, Config.confirm, Function.update_apply] at enough ⊢
      grind

omit [DecidableEq Member] in
theorem Completeness.send (invariant : Invariant floor config) {request : Request Entry}
    (led : config.leader request.term = some p) (log : request.log = config.log p)
    (before : ∀ {time part}, Open (config.send request) time part → Open config time part) :
    Completeness (config.send request) := by
  have ⟨elections, logs, confirmed, completeness⟩ := invariant
  refine ⟨fun opened => completeness.elected (before opened),
    fun opened => completeness.held (before opened),
    fun {time part other} opened member notEarlier => ?_,
    fun opened => completeness.cast (before opened)⟩
  have wasOpen := before opened
  rcases Set.mem_insert_iff.mp member with rfl | old
  · -- The sender led the term of the request, so it holds what is open by then.
    refine Or.inl (log ▸ completeness.held wasOpen ?_)
    rcases notEarlier.lt_or_eq with earlier | same
    · exact Or.inr ⟨_, earlier, led⟩
    · exact Or.inl (wasOpen.inLeader.length_le.trans (confirmed.own (same ▸ led)).ge)
  · exact completeness.sent wasOpen old notEarlier

theorem Completeness.accept (invariant : Invariant floor config) {request : Request Entry}
    {result : List Entry} (sent : request ∈ config.sent) (current : request.term = config.term p)
    (adopts : Adopts (config.log p) request.log result)
    (before : ∀ {time part}, Open (config.accept p result) time part → Open config time part) :
    Completeness (config.accept p result) := by
  have ⟨elections, logs, confirmed, completeness⟩ := invariant
  refine ⟨fun opened => completeness.elected (before opened),
    fun {time part q} opened holder => ?_,
    fun opened => completeness.sent (before opened),
    fun opened => completeness.cast (before opened)⟩
  have wasOpen := before opened
  have old := completeness.held wasOpen holder
  simp only [Config.accept, Function.update_apply]
  split
  · next self =>
    subst self
    refine adopts.keeps old ?_
    have notEarlier : time ≤ request.term := by
      rcases holder with enough | ⟨later, above, led⟩
      · have nonempty : 0 < part.length := by
          obtain ⟨front, entry, rfl, -⟩ := wasOpen.ends
          simp
        exact current ▸ confirmed.reached (nonempty.trans_le enough)
      · exact current ▸ above.le.trans (elections.leader_reached led).2
    rcases completeness.sent wasOpen sent notEarlier with inside | ⟨same, sibling⟩
    · exact Or.inl inside
    · exact prefix_comparable wasOpen.inLeader sibling
  · exact old

theorem Completeness.confirm (invariant : Invariant floor config) {count : ℕ}
    (held : (config.leaderLog (config.term p)).take count <+: config.log p)
    (before : ∀ {time part}, Open (config.confirm p count) time part → Open config time part) :
    Completeness (config.confirm p count) := by
  have ⟨elections, logs, confirmed, completeness⟩ := invariant
  refine ⟨fun opened => completeness.elected (before opened),
    fun {time part q} opened holder => ?_,
    fun opened => completeness.sent (before opened),
    fun {time part later q leader} opened earlier spent enough => ?_⟩
  · have inLeader := opened.inLeader
    have old := completeness.held (q := q) (before opened)
    by_cases new : q = p ∧ time = config.term p
    · obtain ⟨rfl, rfl⟩ := new
      simp only [Config.confirm, Function.update_self] at holder
      rcases holder with enough | later
      · exact (List.prefix_take_iff.mpr ⟨inLeader, enough⟩).trans held
      · exact old (Or.inr later)
    · simp only [Config.confirm, Function.update_apply] at holder
      refine old (holder.imp_left fun enough => ?_)
      grind
  · have reached := (elections.ballot_reached spent).1
    have old := completeness.cast (q := q) (before opened) earlier spent
    simp only [Config.confirm, Function.update_apply] at enough ⊢
    grind

theorem Completeness.step (invariant : Invariant floor config) (step : Step late p config next) :
    Completeness next := by
  have grows := invariant.extends step
  have before : ∀ {time part}, Open next time part → part <+: config.leaderLog time →
      (∃ leader, config.leader time = some leader) → Open config time part :=
    fun opened => opened.before grows step
  have ⟨elections, logs, confirmed, completeness⟩ := invariant
  cases step with
  | grant candidate reaches idle unspent upToDate =>
    refine ⟨fun opened => completeness.elected (before opened opened.inLeader opened.led),
      fun opened => completeness.held (before opened opened.inLeader opened.led),
      fun opened => completeness.sent (before opened opened.inLeader opened.led),
      fun {time part later q leader} opened earlier spent enough => ?_⟩
    have wasOpen := before opened opened.inLeader opened.led
    have old := completeness.cast (q := q) (p := leader) wasOpen earlier
    have held := completeness.held wasOpen (Or.inl enough)
    simp only [Config.cast, Function.update_apply] at spent enough ⊢
    grind
  | lead voters runs majority backed => exact .lead invariant runs majority backed
  | append entry leads stamp => exact .append invariant leads stamp
  | send request led log commit onTime =>
    exact .send invariant led log fun opened => before opened opened.inLeader opened.led
  | accept request result sent current idle other adopts =>
    exact .accept invariant sent current adopts fun opened =>
      before opened opened.inLeader opened.led
  | confirm count higher bounded held =>
    exact .confirm invariant held fun opened => before opened opened.inLeader opened.led
  | _ =>
    exact ⟨fun opened => completeness.elected (before opened opened.inLeader opened.led),
      fun opened => completeness.held (before opened opened.inLeader opened.led),
      fun opened => completeness.sent (before opened opened.inLeader opened.led),
      fun opened => completeness.cast (before opened opened.inLeader opened.led)⟩

end Replication
