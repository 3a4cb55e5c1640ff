/-
This file states a leader-based replication protocol in its own terms, over any finite set of
members and any stamped entries. A configuration records what every member holds and, as
history, every ballot that counts, who led each term with which voters, and how far each
member confirmed the log of each term's leader. Messages are not modelled beyond the log that
a request carries: a vote reads the candidate's log, and a leader may even send, in the name
of a term it led, the log it holds in a later term (a late request).

The second half is the first layer of the invariant: terms, ballots and leaders. Its result is
`Elections.unled_of_backed`: a candidate backed by a majority runs in a term that nobody led.
-/

import RaftInMotion.Library.TermLog
import Mathlib.Data.Finset.Card
import Mathlib.Data.Fintype.Card
import Mathlib.Logic.Function.Basic
import Mathlib.Logic.Relation

namespace Replication

open TermLog TermLog.Stamped

/-! ### Majorities -/

/-- More than half of the members. -/
def Majority {Member : Type*} [Fintype Member] (group : Finset Member) : Prop :=
  Fintype.card Member < 2 * group.card

/-- Two majorities have a member in common. -/
theorem Majority.meet {Member : Type*} [Fintype Member] [DecidableEq Member]
    {first second : Finset Member} (left : Majority first) (right : Majority second) :
    ∃ member, member ∈ first ∧ member ∈ second := by
  have overlap := Finset.inter_nonempty_of_card_lt_card_add_card (Finset.subset_univ first)
    (Finset.subset_univ second) (by
      rw [Finset.card_univ]
      unfold Majority at left right
      omega)
  obtain ⟨member, inBoth⟩ := overlap
  exact ⟨member, Finset.mem_inter.mp inBoth⟩

/-! ### Configurations -/

/-- What a member is doing in its current term. -/
inductive Role
  | follower
  | candidate
  | leader
deriving DecidableEq

/-- A request in a leader's name: the term, the whole log it was cut from, and how much of it
the sender had committed. -/
structure Request (Entry : Type*) where
  term : ℕ
  log : List Entry
  commit : ℕ

/-- The members' states and the history of ballots, leaders, confirmations and requests. -/
structure Config (Member Entry : Type*) where
  term : Member → ℕ
  role : Member → Role
  log : Member → List Entry
  commit : Member → ℕ
  /-- The ballot of a member in a term, once it has cast one that counts. -/
  ballot : Member → ℕ → Option Member
  /-- The log the member held when it cast that ballot. -/
  ballotLog : Member → ℕ → List Entry
  leader : ℕ → Option Member
  voters : ℕ → Finset Member
  /-- The log of the leader of a term when it was elected. -/
  electLog : ℕ → List Entry
  /-- The log of the leader of a term when it last led that term. -/
  leaderLog : ℕ → List Entry
  /-- How much of the leader log of a term the member has confirmed in that term. -/
  acked : Member → ℕ → ℕ
  sent : Set (Request Entry)

namespace Config

variable {Member Entry : Type*} [DecidableEq Member] (config : Config Member Entry)

/-- The member is in the term with the role, and remembers so much as committed. -/
def enter (p : Member) (time : ℕ) (role : Role) (commit : ℕ) : Config Member Entry :=
  { config with
    term := Function.update config.term p time
    role := Function.update config.role p role
    commit := Function.update config.commit p commit }

/-- The member casts its ballot of its current term. -/
def cast (p candidate : Member) : Config Member Entry :=
  { config with
    ballot := Function.update config.ballot p
      (Function.update (config.ballot p) (config.term p) (some candidate))
    ballotLog := Function.update config.ballotLog p
      (Function.update (config.ballotLog p) (config.term p) (config.log p)) }

/-- The member confirms so much of the leader log of its current term. -/
def confirm (p : Member) (count : ℕ) : Config Member Entry :=
  { config with
    acked := Function.update config.acked p
      (Function.update (config.acked p) (config.term p) count) }

/-- The member takes the lead of its current term. -/
def lead (p : Member) (voters : Finset Member) : Config Member Entry :=
  { (config.cast p p).confirm p (config.log p).length with
    role := Function.update config.role p .leader
    leader := Function.update config.leader (config.term p) (some p)
    voters := Function.update config.voters (config.term p) voters
    electLog := Function.update config.electLog (config.term p) (config.log p)
    leaderLog := Function.update config.leaderLog (config.term p) (config.log p) }

/-- The leader of its current term appends to its log. -/
def append (p : Member) (entry : Entry) : Config Member Entry :=
  { config.confirm p ((config.log p).length + 1) with
    log := Function.update config.log p (config.log p ++ [entry])
    leaderLog := Function.update config.leaderLog (config.term p) (config.log p ++ [entry]) }

/-- A request is sent. -/
def send (request : Request Entry) : Config Member Entry :=
  { config with sent := insert request config.sent }

/-- The member's log is replaced. -/
def accept (p : Member) (result : List Entry) : Config Member Entry :=
  { config with log := Function.update config.log p result }

/-- The member's committed length is set. -/
def learn (p : Member) (count : ℕ) : Config Member Entry :=
  { config with commit := Function.update config.commit p count }

section Apply

variable {config} {p q : Member}

theorem enter_term {time : ℕ} {role : Role} {commit : ℕ} :
    (config.enter p time role commit).term q = if q = p then time else config.term q :=
  Function.update_apply _ _ _ _

theorem enter_commit {time : ℕ} {role : Role} {commit : ℕ} :
    (config.enter p time role commit).commit q = if q = p then commit else config.commit q :=
  Function.update_apply _ _ _ _

theorem append_log {entry : Entry} : (config.append p entry).log q =
    if q = p then config.log p ++ [entry] else config.log q :=
  Function.update_apply _ _ _ _

theorem accept_log {result : List Entry} :
    (config.accept p result).log q = if q = p then result else config.log q :=
  Function.update_apply _ _ _ _

theorem learn_commit {count : ℕ} :
    (config.learn p count).commit q = if q = p then count else config.commit q :=
  Function.update_apply _ _ _ _

end Apply

end Config

/-! ### Steps -/

section Steps

variable {Member Entry : Type*} [DecidableEq Member] [Fintype Member] [Stamped Entry]

/-- One step of a member. The parameter allows late requests. -/
inductive Step (late : Prop) (p : Member) : Config Member Entry → Config Member Entry → Prop
  | enter (config : Config Member Entry) (time : ℕ) (role : Role) (commit : ℕ)
      (forward : config.term p ≤ time)
      (running : role = .follower ∨ role = .candidate ∧ config.term p < time)
      (kept : commit = config.commit p ∨ commit = 0) :
      Step late p config (config.enter p time role commit)
  | grant (config : Config Member Entry) (candidate : Member)
      (reached : config.term p ≤ config.term candidate)
      (idle : config.role p = .follower)
      (unspent : config.ballot p (config.term p) = none)
      (upToDate : config.role candidate = .candidate → config.term candidate = config.term p →
        UpToDate (config.log candidate) (config.log p)) :
      Step late p config (config.cast p candidate)
  | lead (config : Config Member Entry) (voters : Finset Member)
      (running : config.role p = .candidate) (majority : Majority voters)
      (backed : ∀ q ∈ voters, q ≠ p → config.ballot q (config.term p) = some p) :
      Step late p config (config.lead p voters)
  | append (config : Config Member Entry) (entry : Entry)
      (leading : config.role p = .leader) (stamp : term entry = config.term p) :
      Step late p config (config.append p entry)
  | send (config : Config Member Entry) (request : Request Entry)
      (led : config.leader request.term = some p) (log : request.log = config.log p)
      (commit : request.commit = config.commit p)
      (onTime : late ∨ config.role p = .leader ∧ config.term p = request.term) :
      Step late p config (config.send request)
  | accept (config : Config Member Entry) (request : Request Entry) (result : List Entry)
      (sent : request ∈ config.sent) (current : request.term = config.term p)
      (idle : config.role p = .follower) (other : config.leader request.term ≠ some p)
      (adopts : Adopts (config.log p) request.log result) :
      Step late p config (config.accept p result)
  | confirm (config : Config Member Entry) (count : ℕ)
      (higher : config.acked p (config.term p) ≤ count)
      (bounded : count ≤ (config.leaderLog (config.term p)).length)
      (held : (config.leaderLog (config.term p)).take count <+: config.log p) :
      Step late p config (config.confirm p count)
  | learn (config : Config Member Entry) (request : Request Entry)
      (sent : request ∈ config.sent) (current : request.term = config.term p)
      (held : request.log <+: config.log p) (more : config.commit p < request.commit) :
      Step late p config (config.learn p (min request.commit (config.log p).length))
  | settle (config : Config Member Entry) (front : List Entry) (entry : Entry)
      (group : Finset Member) (leading : config.role p = .leader)
      (part : front ++ [entry] <+: config.log p) (stamp : term entry = config.term p)
      (majority : Majority group)
      (confirmed : ∀ q ∈ group, front.length + 1 ≤ config.acked q (config.term p)) :
      Step late p config (config.learn p (front.length + 1))

/-- Any number of steps of one member. -/
abbrev Steps (late : Prop) (p : Member) :
    Config Member Entry → Config Member Entry → Prop :=
  Relation.ReflTransGen (Step late p)

end Steps

/-! ### What a step leaves alone -/

section Frame

variable {Member Entry : Type*} [DecidableEq Member]

/-- Between the two configurations only this member has moved, and as a candidate of one term
it has kept its log. -/
structure Frame (p : Member) (config next : Config Member Entry) : Prop where
  term : ∀ {q}, q ≠ p → next.term q = config.term q
  role : ∀ {q}, q ≠ p → next.role q = config.role q
  log : ∀ {q}, q ≠ p → next.log q = config.log q
  commit : ∀ {q}, q ≠ p → next.commit q = config.commit q
  ballot : ∀ {q}, q ≠ p → next.ballot q = config.ballot q
  forward : config.term p ≤ next.term p
  running : next.role p = .candidate → next.term p = config.term p →
    config.role p = .candidate ∧ next.log p = config.log p

variable {config next : Config Member Entry} {p : Member}

omit [DecidableEq Member] in
theorem Frame.refl (p : Member) (config : Config Member Entry) : Frame p config config :=
  ⟨fun _ => rfl, fun _ => rfl, fun _ => rfl, fun _ => rfl, fun _ => rfl, le_rfl,
    fun runs _ => ⟨runs, rfl⟩⟩

omit [DecidableEq Member] in
theorem Frame.trans {middle : Config Member Entry} (left : Frame p config middle)
    (right : Frame p middle next) : Frame p config next where
  term other := (right.term other).trans (left.term other)
  role other := (right.role other).trans (left.role other)
  log other := (right.log other).trans (left.log other)
  commit other := (right.commit other).trans (left.commit other)
  ballot other := (right.ballot other).trans (left.ballot other)
  forward := left.forward.trans right.forward
  running runs same := by
    have first := left.forward
    have second := right.forward
    obtain ⟨ran, kept⟩ := right.running runs (by omega)
    obtain ⟨ran', kept'⟩ := left.running ran (by omega)
    exact ⟨ran', kept.trans kept'⟩

theorem Step.frame [Fintype Member] [Stamped Entry] {late : Prop} (step : Step late p config next) :
    Frame p config next := by
  cases step with
  | enter time role commit forward runs kept =>
    constructor <;> simp only [Config.enter, Function.update_apply] <;> grind
  | grant candidate reaches idle unspent upToDate =>
    constructor <;> simp only [Config.cast, Function.update_apply] <;> grind
  | lead voters runs majority backed =>
    constructor <;> simp only [Config.lead, Config.cast, Config.confirm, Function.update_apply] <;>
      grind
  | append entry leads stamp =>
    constructor <;> simp only [Config.append, Config.confirm, Function.update_apply] <;> grind
  | send request led log commit onTime =>
    exact ⟨fun _ => rfl, fun _ => rfl, fun _ => rfl, fun _ => rfl, fun _ => rfl, le_rfl,
      fun runs _ => ⟨runs, rfl⟩⟩
  | accept request result sent current idle other adopts =>
    constructor <;> simp only [Config.accept, Function.update_apply] <;> grind
  | confirm count higher bounded held =>
    exact ⟨fun _ => rfl, fun _ => rfl, fun _ => rfl, fun _ => rfl, fun _ => rfl, le_rfl,
      fun runs _ => ⟨runs, rfl⟩⟩
  | learn request sent current held more =>
    constructor <;> simp only [Config.learn, Function.update_apply] <;> grind
  | settle front entry group leads part stamp majority confirmed =>
    constructor <;> simp only [Config.learn, Function.update_apply] <;> grind

theorem Steps.frame [Fintype Member] [Stamped Entry] {late : Prop}
    (steps : Steps late p config next) : Frame p config next := by
  induction steps with
  | refl => exact Frame.refl p config
  | tail _ step inductionHypothesis => exact inductionHypothesis.trans step.frame

end Frame

/-! ### Terms, ballots and leaders -/

section Elections

variable {Member Entry : Type*} [DecidableEq Member] [Fintype Member] [Stamped Entry]

/-- The first layer of the invariant. Terms up to the floor are those of the initial logs. -/
structure Elections (floor : ℕ) (config : Config Member Entry) : Prop where
  leader_reached : ∀ {time p}, config.leader time = some p → floor < time ∧ time ≤ config.term p
  leading : ∀ {p}, config.role p = .leader → config.leader (config.term p) = some p
  running : ∀ {p}, config.role p = .candidate → floor < config.term p ∧
    config.leader (config.term p) ≠ some p ∧ config.ballot p (config.term p) = none
  ballot_reached : ∀ {q time p}, config.ballot q time = some p →
    time ≤ config.term q ∧ time ≤ config.term p
  floor_le : ∀ p, floor ≤ config.term p
  elected : ∀ {time p}, config.leader time = some p → Majority (config.voters time) ∧
    ∀ q ∈ config.voters time, config.ballot q time = some p

variable {floor : ℕ} {config next : Config Member Entry} {late : Prop} {p : Member}

omit [Stamped Entry] in
/-- A candidate that a majority backs runs in a term without a leader: some member of both
majorities would have cast its one ballot for two candidates. -/
theorem Elections.unled_of_backed (elections : Elections floor config) {voters : Finset Member}
    (running : config.role p = .candidate) (majority : Majority voters)
    (backed : ∀ q ∈ voters, q ≠ p → config.ballot q (config.term p) = some p) :
    config.leader (config.term p) = none := by
  by_contra led
  obtain ⟨other, isLeader⟩ := Option.ne_none_iff_exists'.mp led
  obtain ⟨otherMajority, otherBacked⟩ := elections.elected isLeader
  obtain ⟨-, notOwn, unspent⟩ := elections.running running
  obtain ⟨shared, inOwn, inOther⟩ := majority.meet otherMajority
  have forOther := otherBacked shared inOther
  by_cases self : shared = p
  · rw [self, unspent] at forOther
    cases forOther
  · rw [backed shared inOwn self] at forOther
    exact notOwn (Option.some.inj forOther ▸ isLeader)

theorem Elections.step (elections : Elections floor config) (step : Step late p config next) :
    Elections floor next := by
  obtain ⟨reached, leading, running, ballots, floorLe, elected⟩ := elections
  cases step with
  | enter time role commit forward runs kept =>
    -- In a term above its own the member has neither led nor cast a ballot.
    have unled : config.term p < time → config.leader time ≠ some p := fun above led =>
      absurd (reached led).2 (Nat.not_le.mpr above)
    have unspent : config.term p < time → config.ballot p time = none := fun above =>
      Option.eq_none_iff_forall_ne_some.mpr fun _ spent =>
        absurd (ballots spent).1 (Nat.not_le.mpr above)
    constructor <;> simp only [Config.enter, Function.update_apply] <;> grind
  | grant candidate reaches idle unspent upToDate =>
    constructor <;> simp only [Config.cast, Function.update_apply] <;> grind
  | lead voters runs majority backed =>
    have unled := Elections.unled_of_backed
      ⟨reached, leading, running, ballots, floorLe, elected⟩ runs majority backed
    constructor <;> simp only [Config.lead, Config.cast, Config.confirm, Function.update_apply] <;>
      grind
  | append entry leads stamp =>
    exact ⟨reached, leading, running, ballots, floorLe, elected⟩
  | send request led log commit onTime =>
    exact ⟨reached, leading, running, ballots, floorLe, elected⟩
  | accept request result sent current idle other adopts =>
    exact ⟨reached, leading, running, ballots, floorLe, elected⟩
  | confirm count higher bounded held =>
    exact ⟨reached, leading, running, ballots, floorLe, elected⟩
  | learn request sent current held more =>
    exact ⟨reached, leading, running, ballots, floorLe, elected⟩
  | settle front entry group leads part stamp majority confirmed =>
    exact ⟨reached, leading, running, ballots, floorLe, elected⟩

end Elections

end Replication
