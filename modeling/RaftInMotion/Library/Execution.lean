/-
This file gives the runs of a system whose transition function is partial: a schedule is a
list of actions, `execute` is the state it leads to, and `along` says that a condition on the
state before each step holds at every step of the schedule. The two rules every later file
uses are `execute_invariant`, the induction over a run, and `throughout_of_preserved`, which
lifts a transitive relation from one step to any two states of a run.
-/

import Mathlib.Tactic.TypeStar
import Mathlib.Order.Defs.Unbundled

namespace Execution

variable {State Action : Type*} (step : State → Action → Option State)

/-- The state a schedule leads to, when each of its actions is enabled in turn. -/
def execute : State → List Action → Option State
  | state, [] => some state
  | state, action :: rest => (step state action).bind fun next => execute next rest

/-- A condition on the state before a step holds at every step of the schedule. -/
def along (allowed : State → Action → Bool) : State → List Action → Bool
  | _, [] => true
  | state, action :: rest =>
    allowed state action &&
      match step state action with
      | some next => along allowed next rest
      | none => true

variable {step}

theorem execute_cons {state final : State} {action : Action} {rest : List Action} :
    execute step state (action :: rest) = some final ↔
      ∃ next, step state action = some next ∧ execute step next rest = some final := by
  simp [execute, Option.bind_eq_some_iff]

theorem along_cons {allowed : State → Action → Bool} {state next : State} {action : Action}
    {rest : List Action} (taken : step state action = some next)
    (holds : along step allowed state (action :: rest) = true) :
    allowed state action = true ∧ along step allowed next rest = true := by
  simpa [along, taken] using holds

theorem along_append {allowed : State → Action → Bool} {state middle : State}
    {first second : List Action} (run : execute step state first = some middle)
    (holds : along step allowed state (first ++ second) = true) :
    along step allowed state first = true ∧ along step allowed middle second = true := by
  induction first generalizing state with
  | nil =>
    obtain rfl : state = middle := by simpa [execute] using run
    exact ⟨rfl, holds⟩
  | cons action rest inductionHypothesis =>
    obtain ⟨next, taken, run⟩ := execute_cons.mp run
    obtain ⟨here, later⟩ := along_cons taken holds
    obtain ⟨before, after⟩ := inductionHypothesis run later
    exact ⟨by simp [along, taken, here, before], after⟩

theorem along_join {allowed : State → Action → Bool} {state middle : State}
    {first second : List Action} (run : execute step state first = some middle)
    (before : along step allowed state first = true)
    (after : along step allowed middle second = true) :
    along step allowed state (first ++ second) = true := by
  induction first generalizing state with
  | nil =>
    obtain rfl : state = middle := by simpa [execute] using run
    exact after
  | cons action rest inductionHypothesis =>
    obtain ⟨next, taken, run⟩ := execute_cons.mp run
    obtain ⟨here, later⟩ := along_cons taken before
    have goesOn := inductionHypothesis run later
    simp [along, taken, here, goesOn]

/-- The condition holds along a schedule when it holds before each action that is reached. -/
theorem along_iff {allowed : State → Action → Bool} {state : State} {actions : List Action} :
    along step allowed state actions = true ↔
      ∀ first action rest middle, actions = first ++ action :: rest →
        execute step state first = some middle → allowed middle action = true := by
  constructor
  · rintro holds first action rest middle rfl run
    have after := (along_append run holds).2
    unfold along at after
    exact (Bool.and_eq_true_iff.mp after).1
  · intro each
    induction actions generalizing state with
    | nil => rfl
    | cons action rest inductionHypothesis =>
      have here := each [] action rest state rfl rfl
      rcases taken : step state action with _ | next
      · simp [along, here, taken]
      · have later : along step allowed next rest = true := by
          refine inductionHypothesis fun first action' rest' middle split run => ?_
          exact each (action :: first) action' rest' middle (by rw [split, List.cons_append])
            (execute_cons.mpr ⟨next, taken, run⟩)
        simp [along, here, taken, later]

theorem along_and {allowed allowed' : State → Action → Bool} {state : State}
    {actions : List Action} :
    along step (fun state action => allowed state action && allowed' state action) state actions =
        true ↔
      along step allowed state actions = true ∧ along step allowed' state actions = true := by
  simp only [along_iff, Bool.and_eq_true]
  constructor
  · intro both
    exact ⟨fun first action rest middle split run => (both first action rest middle split run).1,
      fun first action rest middle split run => (both first action rest middle split run).2⟩
  · rintro ⟨left, right⟩ first action rest middle split run
    exact ⟨left first action rest middle split run, right first action rest middle split run⟩

/-- What one allowed step preserves, a whole run preserves. -/
theorem execute_invariant {allowed : State → Action → Bool} (invariant : State → Prop)
    (preserved : ∀ state action next, invariant state → allowed state action = true →
      step state action = some next → invariant next)
    {state final : State} {actions : List Action} (initially : invariant state)
    (holds : along step allowed state actions = true)
    (run : execute step state actions = some final) : invariant final := by
  induction actions generalizing state with
  | nil =>
    obtain rfl : state = final := by simpa [execute] using run
    exact initially
  | cons action rest inductionHypothesis =>
    obtain ⟨next, taken, run⟩ := execute_cons.mp run
    obtain ⟨here, later⟩ := along_cons taken holds
    exact inductionHypothesis (preserved state action next initially here taken) later run

/-- A reflexive and transitive relation that every allowed step respects, in the states that
satisfy an invariant, relates the first state of a run to the last. -/
theorem execute_related {allowed : State → Action → Bool} (invariant : State → Prop)
    (relation : State → State → Prop) (refl : ∀ state, invariant state → relation state state)
    (trans : ∀ first second third, relation first second → relation second third →
      relation first third)
    (preserved : ∀ state action next, invariant state → allowed state action = true →
      step state action = some next → invariant next ∧ relation state next)
    {state final : State} {actions : List Action} (initially : invariant state)
    (holds : along step allowed state actions = true)
    (run : execute step state actions = some final) : relation state final := by
  induction actions generalizing state with
  | nil =>
    obtain rfl : state = final := by simpa [execute] using run
    exact refl state initially
  | cons action rest inductionHypothesis =>
    obtain ⟨next, taken, run⟩ := execute_cons.mp run
    obtain ⟨here, later⟩ := along_cons taken holds
    obtain ⟨invariantNext, related⟩ := preserved state action next initially here taken
    exact trans _ _ _ related (inductionHypothesis invariantNext later run)

/-- Any two states of the schedule's run are related, the earlier to the later one. -/
def throughout (step : State → Action → Option State) (relation : State → State → Prop)
    (state : State) (actions : List Action) : Prop :=
  ∀ first second rest middle final, actions = first ++ second ++ rest →
    execute step state first = some middle → execute step middle second = some final →
      relation middle final

theorem throughout_of_preserved {allowed : State → Action → Bool} (invariant : State → Prop)
    (relation : State → State → Prop) (refl : ∀ state, invariant state → relation state state)
    (trans : ∀ first second third, relation first second → relation second third →
      relation first third)
    (preserved : ∀ state action next, invariant state → allowed state action = true →
      step state action = some next → invariant next ∧ relation state next)
    {state : State} {actions : List Action} (initially : invariant state)
    (holds : along step allowed state actions = true) :
    throughout step relation state actions := by
  rintro first second rest middle final rfl before after
  rw [List.append_assoc] at holds
  obtain ⟨holdsFirst, holdsRest⟩ := along_append before holds
  have atMiddle := execute_invariant invariant (fun state action next held allows taken =>
    (preserved state action next held allows taken).1) initially holdsFirst before
  exact execute_related invariant relation refl trans preserved atMiddle
    (along_append after holdsRest).1 after

/-- The schedule's run passes through the state. -/
def Visits (step : State → Action → Option State) (state : State) (actions : List Action)
    (middle : State) : Prop :=
  ∃ first rest, actions = first ++ rest ∧ execute step state first = some middle

theorem Visits.take_part {state middle : State} {actions : List Action}
    (visits : Visits step state actions middle) :
    ∃ count ≤ actions.length, execute step state (actions.take count) = some middle := by
  obtain ⟨first, rest, rfl, run⟩ := visits
  exact ⟨first.length, by simp, by simpa using run⟩

theorem visits_one {state next middle : State} {action : Action}
    (taken : step state action = some next) (visits : Visits step state [action] middle) :
    middle = state ∨ middle = next := by
  obtain ⟨_ | ⟨other, part⟩, rest, split, run⟩ := visits
  · obtain rfl : state = middle := by simpa [execute] using run
    exact Or.inl rfl
  · obtain ⟨rfl, rfl, -⟩ : action = other ∧ part = [] ∧ rest = [] := by simpa using split
    exact Or.inr (by simpa [execute, taken, eq_comm] using run)

theorem execute_append {state final : State} {first second : List Action} :
    execute step state (first ++ second) = some final ↔
      ∃ middle, execute step state first = some middle ∧
        execute step middle second = some final := by
  induction first generalizing state with
  | nil => simp [execute]
  | cons action rest inductionHypothesis =>
    simp only [List.cons_append, execute_cons, inductionHypothesis]
    constructor
    · rintro ⟨next, taken, middle, before, after⟩
      exact ⟨middle, ⟨next, taken, before⟩, after⟩
    · rintro ⟨middle, ⟨next, taken, before⟩, after⟩
      exact ⟨next, taken, middle, before, after⟩

theorem execute_concat {state final : State} {actions : List Action} {action : Action} :
    execute step state (actions ++ [action]) = some final ↔
      ∃ middle, execute step state actions = some middle ∧ step middle action = some final := by
  simp only [execute_append, execute_cons]
  simp [execute]

/-- An invariant may speak of the states the run has passed through. -/
theorem execute_invariant_visits {allowed : State → Action → Bool} (invariant : State → Prop)
    {state final : State} {actions : List Action}
    (preserved : ∀ middle action next, Visits step state actions middle → invariant middle →
      allowed middle action = true → step middle action = some next → invariant next)
    (initially : invariant state) (holds : along step allowed state actions = true)
    (run : execute step state actions = some final) : invariant final := by
  have walk : ∀ rest first middle, actions = first ++ rest →
      execute step state first = some middle → invariant middle →
      along step allowed middle rest = true → execute step middle rest = some final →
      invariant final := by
    intro rest
    induction rest with
    | nil =>
      rintro first middle - - held - run
      obtain rfl : middle = final := by simpa [execute] using run
      exact held
    | cons action rest inductionHypothesis =>
      intro first middle split before held allows run
      obtain ⟨next, taken, run⟩ := execute_cons.mp run
      obtain ⟨here, later⟩ := along_cons taken allows
      refine inductionHypothesis (first ++ [action]) next (by simp [split]) ?_ ?_ later run
      · exact execute_concat.mpr ⟨middle, before, taken⟩
      · exact preserved middle action next ⟨first, _, split, before⟩ held here taken
  exact walk actions [] state rfl rfl initially holds run

theorem visits_start {state : State} {actions : List Action} : Visits step state actions state :=
  ⟨[], actions, rfl, rfl⟩

theorem visits_cons {state middle : State} {action : Action} {rest : List Action} :
    Visits step state (action :: rest) middle ↔
      middle = state ∨ ∃ next, step state action = some next ∧ Visits step next rest middle := by
  constructor
  · rintro ⟨_ | ⟨other, first⟩, last, split, run⟩
    · obtain rfl : state = middle := by simpa [execute] using run
      exact Or.inl rfl
    · obtain ⟨rfl, rfl⟩ : action = other ∧ rest = first ++ last := by simpa using split
      obtain ⟨next, taken, run⟩ := execute_cons.mp run
      exact Or.inr ⟨next, taken, first, last, rfl, run⟩
  · rintro (rfl | ⟨next, taken, first, last, rfl, run⟩)
    · exact visits_start
    · exact ⟨action :: first, last, rfl, execute_cons.mpr ⟨next, taken, run⟩⟩

/-- An invariant of the allowed steps holds in every state the run passes through. -/
theorem visits_invariant {allowed : State → Action → Bool} (invariant : State → Prop)
    (preserved : ∀ state action next, invariant state → allowed state action = true →
      step state action = some next → invariant next)
    {state middle : State} {actions : List Action} (initially : invariant state)
    (holds : along step allowed state actions = true) (visits : Visits step state actions middle) :
    invariant middle := by
  obtain ⟨first, rest, rfl, run⟩ := visits
  exact execute_invariant invariant preserved initially (along_append run holds).1 run

theorem along_always {state : State} {actions : List Action} :
    along step (fun _ _ => true) state actions = true :=
  along_iff.mpr fun _ _ _ _ _ _ => rfl

/-- What every step preserves holds in every state the run passes through. -/
theorem visits_always (invariant : State → Prop)
    (preserved : ∀ state action next, invariant state → step state action = some next →
      invariant next)
    {state middle : State} {actions : List Action} (initially : invariant state)
    (visits : Visits step state actions middle) : invariant middle :=
  visits_invariant invariant (fun state action next held _ => preserved state action next held)
    initially along_always visits

theorem visits_end {state final : State} {actions : List Action}
    (run : execute step state actions = some final) : Visits step state actions final :=
  ⟨actions, [], (List.append_nil actions).symm, run⟩

/-- Of two states that a run passes through, one leads to the other. -/
theorem visits_ordered {allowed : State → Action → Bool} {state middle other : State}
    {actions : List Action} (holds : along step allowed state actions = true)
    (visits : Visits step state actions middle) (visits' : Visits step state actions other) :
    (∃ between, along step allowed middle between = true ∧
      execute step middle between = some other) ∨
    ∃ between, along step allowed other between = true ∧
      execute step other between = some middle := by
  obtain ⟨first, rest, rfl, run⟩ := visits
  obtain ⟨first', rest', split, run'⟩ := visits'
  have leads : ∀ {first between rest : List Action} {middle other : State},
      along step allowed state (first ++ between ++ rest) = true →
      execute step state first = some middle →
      execute step state (first ++ between) = some other →
      along step allowed middle between = true ∧ execute step middle between = some other := by
    intro first between rest middle other holds run run'
    obtain ⟨middle', reached, later⟩ := execute_append.mp run'
    obtain rfl := Option.some.inj (run.symm.trans reached)
    rw [List.append_assoc] at holds
    exact ⟨(along_append later (along_append run holds).2).1, later⟩
  rcases List.append_eq_append_iff.mp split with ⟨between, rfl, rfl⟩ | ⟨between, rfl, rfl⟩
  · rw [← List.append_assoc] at holds
    exact Or.inl ⟨between, leads holds run run'⟩
  · exact Or.inr ⟨between, leads holds run' run⟩

/-- Where a step keeps the property exactly when it is allowed, a run has the property in every
state exactly when all its steps are allowed. The invariant is what the argument for one step
may use beside the property, and what is given of every step is the premise of both. -/
theorem visits_iff_along_of_given {given allowed : State → Action → Bool}
    (invariant property : State → Prop)
    (disabled : ∀ state action, step state action = none → allowed state action = true)
    (preserved : ∀ state action next, invariant state → property state →
      given state action = true → step state action = some next →
        (allowed state action = true → invariant next) ∧
          (property next ↔ allowed state action = true))
    {state : State} {actions : List Action} (initially : invariant state)
    (starts : property state) (premise : along step given state actions = true) :
    (∀ middle, Visits step state actions middle → property middle) ↔
      along step allowed state actions = true := by
  induction actions generalizing state with
  | nil =>
    refine ⟨fun _ => rfl, ?_⟩
    rintro - middle ⟨first, rest, split, run⟩
    obtain ⟨rfl, rfl⟩ := List.append_eq_nil_iff.mp split.symm
    obtain rfl : state = middle := by simpa [execute] using run
    exact starts
  | cons action rest inductionHypothesis =>
    rcases taken : step state action with _ | next
    · have here := disabled state action taken
      simp [visits_cons, along, taken, here, starts]
    · obtain ⟨givenHere, givenLater⟩ := along_cons taken premise
      obtain ⟨keeps, exactly⟩ := preserved state action next initially starts givenHere taken
      constructor
      · intro each
        have here : allowed state action = true :=
          exactly.mp (each next (visits_cons.mpr (Or.inr ⟨next, taken, visits_start⟩)))
        have later : along step allowed next rest = true :=
          (inductionHypothesis (keeps here) (exactly.mpr here) givenLater).mp
            fun middle visits => each middle (visits_cons.mpr (Or.inr ⟨next, taken, visits⟩))
        simp [along, taken, here, later]
      · intro holds middle visits
        obtain ⟨here, later⟩ := along_cons taken holds
        rcases visits_cons.mp visits with rfl | ⟨other, taken', visits⟩
        · exact starts
        · obtain rfl : next = other := Option.some.inj (taken.symm.trans taken')
          exact (inductionHypothesis (keeps here) (exactly.mpr here) givenLater).mpr later middle
            visits

theorem visits_iff_along {allowed : State → Action → Bool} (invariant property : State → Prop)
    (disabled : ∀ state action, step state action = none → allowed state action = true)
    (preserved : ∀ state action next, invariant state → property state →
      step state action = some next →
        (allowed state action = true → invariant next) ∧
          (property next ↔ allowed state action = true))
    {state : State} {actions : List Action} (initially : invariant state)
    (starts : property state) :
    (∀ middle, Visits step state actions middle → property middle) ↔
      along step allowed state actions = true :=
  visits_iff_along_of_given invariant property disabled
    (fun state action next held has _ => preserved state action next held has) initially starts
    along_always

/-- A run and what is kept of its actions stay related, when one step and one action keep them
related. -/
theorem execute_history {History : Type*} (record : History → Action → History)
    (related : State → History → Prop)
    (preserved : ∀ state history action next, related state history →
      step state action = some next → related next (record history action))
    {state final : State} {history : History} {actions : List Action}
    (initially : related state history) (run : execute step state actions = some final) :
    related final (actions.foldl record history) := by
  induction actions generalizing state history with
  | nil =>
    obtain rfl : state = final := by simpa [execute] using run
    exact initially
  | cons action rest inductionHypothesis =>
    obtain ⟨next, taken, run⟩ := execute_cons.mp run
    exact inductionHypothesis (preserved state history action next initially taken) run

/-! ### Projections -/

section part

variable {State' Action' : Type*} {step' : State' → Action' → Option State'}
  {project : State → State'} {part : Action → Option Action'} {allowed : State → Action → Bool}
  {allowed' : State' → Action' → Bool}

/-- A run of a system contains a run of a part of it, when every allowed step is an allowed action
of the part or leaves the part as it is. The invariant is what the argument for one step may
use. -/
theorem execute_part (invariant : State → Prop)
    (moves : ∀ state action next, invariant state → allowed state action = true →
      step state action = some next → invariant next ∧
        execute step' (project state) (part action).toList = some (project next) ∧
          along step' allowed' (project state) (part action).toList = true)
    {state final : State} {actions : List Action} (initially : invariant state)
    (holds : along step allowed state actions = true)
    (run : execute step state actions = some final) :
    execute step' (project state) (actions.filterMap part) = some (project final) ∧
      along step' allowed' (project state) (actions.filterMap part) = true := by
  induction actions generalizing state with
  | nil =>
    obtain rfl : state = final := by simpa [execute] using run
    exact ⟨rfl, rfl⟩
  | cons action rest inductionHypothesis =>
    obtain ⟨next, taken, run⟩ := execute_cons.mp run
    obtain ⟨here, later⟩ := along_cons taken holds
    obtain ⟨invariantNext, moved, allows⟩ := moves state action next initially here taken
    obtain ⟨goesOn, allowsLater⟩ := inductionHypothesis invariantNext later run
    have split : (action :: rest).filterMap part =
        (part action).toList ++ rest.filterMap part := by
      cases isPart : part action <;> simp [isPart]
    rw [split]
    exact ⟨execute_append.mpr ⟨project next, moved, goesOn⟩,
      along_join moved allows allowsLater⟩

/-- What the run of the part passes through are states of the run. -/
theorem visits_part (invariant : State → Prop)
    (moves : ∀ state action next, invariant state → allowed state action = true →
      step state action = some next → invariant next ∧
        execute step' (project state) (part action).toList = some (project next) ∧
          along step' allowed' (project state) (part action).toList = true)
    {state final : State} {actions : List Action} (initially : invariant state)
    (holds : along step allowed state actions = true)
    (run : execute step state actions = some final) {middle' : State'}
    (visits : Visits step' (project state) (actions.filterMap part) middle') :
    ∃ middle, Visits step state actions middle ∧ project middle = middle' := by
  obtain ⟨first', rest', split, run'⟩ := visits
  obtain ⟨first, rest, rfl, rfl, -⟩ := List.filterMap_eq_append_iff.mp split
  obtain ⟨middle, before, -⟩ := execute_append.mp run
  obtain ⟨projected, -⟩ :=
    execute_part invariant moves initially (along_append before holds).1 before
  exact ⟨middle, ⟨first, rest, rfl, before⟩, Option.some.inj (projected.symm.trans run')⟩

end part

theorem along_projected {State' : Type*} {step' : State' → Action → Option State'}
    {project : State → State'}
    (commutes : ∀ state action, (step state action).map project = step' (project state) action)
    {allowed : State' → Action → Bool} {state : State} {actions : List Action} :
    along step (fun state action => allowed (project state) action) state actions =
      along step' allowed (project state) actions := by
  induction actions generalizing state with
  | nil => rfl
  | cons action rest inductionHypothesis =>
    have moved := commutes state action
    unfold along
    rw [← moved]
    cases step state action with
    | none => rfl
    | some next => exact congrArg _ inductionHypothesis

/-! ### Calls -/

/-- The answers of a component that is called again and again, with the state it is left in. -/
def answers {Call Answer : Type*} (call : State → Call → State × Answer) :
    State → List Call → State × List Answer
  | state, [] => (state, [])
  | state, first :: rest =>
    let (next, answer) := call state first
    let (final, later) := answers call next rest
    (final, answer :: later)

/-- Two components answer alike over any calls when they do so call by call. -/
theorem answers_related {Call Answer State' : Type*} {call : State → Call → State × Answer}
    {call' : State' → Call → State' × Answer} (related : State → State' → Prop)
    (preserved : ∀ state state' next, related state state' →
      related (call state next).1 (call' state' next).1 ∧
        (call state next).2 = (call' state' next).2)
    {state : State} {state' : State'} (initially : related state state') (calls : List Call) :
    related (answers call state calls).1 (answers call' state' calls).1 ∧
      (answers call state calls).2 = (answers call' state' calls).2 := by
  induction calls generalizing state state' with
  | nil => exact ⟨initially, rfl⟩
  | cons first rest inductionHypothesis =>
    obtain ⟨here, answer⟩ := preserved state state' first initially
    obtain ⟨later, answersLater⟩ := inductionHypothesis here
    exact ⟨later, by simp only [answers, answer, answersLater]⟩

/-! ### Observations -/

variable {Observation : Type*}

/-- What is observed in the steps of a run, in order. -/
def observed (step : State → Action → Option State)
    (observe : State → Action → Option Observation) : State → List Action → List Observation
  | _, [] => []
  | state, action :: rest =>
    (observe state action).toList ++
      match step state action with
      | some next => observed step observe next rest
      | none => []

theorem observed_append {observe : State → Action → Option Observation} {state middle : State}
    {first second : List Action} (run : execute step state first = some middle) :
    observed step observe state (first ++ second) =
      observed step observe state first ++ observed step observe middle second := by
  induction first generalizing state with
  | nil =>
    obtain rfl : state = middle := by simpa [execute] using run
    rfl
  | cons action rest inductionHypothesis =>
    obtain ⟨next, taken, run⟩ := execute_cons.mp run
    simp [observed, taken, inductionHypothesis run]

theorem observed_one {observe : State → Action → Option Observation} {state : State}
    {action : Action} : observed step observe state [action] = (observe state action).toList := by
  unfold observed
  cases step state action <;> simp [observed]

end Execution
