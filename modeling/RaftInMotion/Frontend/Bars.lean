/-
This file embeds the bar list of `ServerInstance` and the exit timers that `LogVisualizer` starts,
and decides when a timer removes only its own bar. The ids come from the bars that are present, so
a reset lets them begin anew while the timers of the old bars are still pending. Beside its id a
bar carries its serial, the number of the bars that were added before it; no function of the code
reads it.
-/

import RaftInMotion.Library.Execution
import Mathlib.Tactic.Cases

namespace RaftInMotion.Frontend

open Execution

def MAX_VISIBLE_BARS : Nat := 12

/-- `LogBarData`; the content is what the log says: the color, the message, the speed and the
time. -/
structure Bar (Content : Type) where
  id : Nat
  content : Content
  serial : Nat
deriving DecidableEq, Repr

/-- A timer that was started for a bar. -/
structure ExitTimer where
  id : Nat
  serial : Nat
deriving DecidableEq, Repr

structure ServerInstance (Content : Type) where
  bars : List (Bar Content)
  /-- The timers that have not fired. -/
  timers : List ExitTimer
  /-- The number of bars that were ever added. -/
  added : Nat
deriving DecidableEq, Repr

inductive BarAction (Content : Type)
  | addLogBar (content : Content)
  /-- The animation of a visible bar starts; the height of the container has room for so many. -/
  | animationStart (visibleBarCount : Nat) (place : Nat)
  /-- The timer fires. -/
  | timeout (timer : Nat)
  /-- The effect of a new connection. -/
  | connecting
deriving DecidableEq, Repr

variable {Content : Type}

/-- `slice(-count)`; the last items, and all of them for zero. -/
def sliceLast {Item : Type} (count : Nat) (items : List Item) : List Item :=
  if count = 0 then items else items.drop (items.length - count)

namespace ServerInstance

def init : ServerInstance Content where
  bars := []
  timers := []
  added := 0

def limitedBars (prevBars : List (Bar Content)) : List (Bar Content) :=
  if MAX_VISIBLE_BARS * 2 ≤ prevBars.length then sliceLast MAX_VISIBLE_BARS prevBars else prevBars

/-- `Math.max` of the ids. -/
def maxId (bars : List (Bar Content)) : Nat :=
  (bars.map Bar.id).foldr max 0

def newId (limitedBars : List (Bar Content)) : Nat :=
  if 0 < limitedBars.length then maxId limitedBars + 1 else 1

def addLogBar (v : ServerInstance Content) (content : Content) : ServerInstance Content :=
  let limitedBars := limitedBars v.bars
  let newBar : Bar Content :=
    { id := newId limitedBars, content := content, serial := v.added }
  { v with bars := limitedBars ++ [newBar], added := v.added + 1 }

def handleBarExit (id : Nat) (prevBars : List (Bar Content)) : List (Bar Content) :=
  prevBars.filter fun bar => bar.id ≠ id

def visibleBars (visibleBarCount : Nat) (bars : List (Bar Content)) : List (Bar Content) :=
  sliceLast visibleBarCount bars

def step (v : ServerInstance Content) :
    BarAction Content → Option (ServerInstance Content)
  | .addLogBar content => some (v.addLogBar content)
  | .animationStart visibleBarCount place =>
    match (visibleBars visibleBarCount v.bars)[place]? with
    | some bar =>
      some { v with timers := v.timers ++ [{ id := bar.id, serial := bar.serial }] }
    | none => none
  | .timeout timer =>
    match v.timers[timer]? with
    | some fired =>
      some { v with
        bars := handleBarExit fired.id v.bars
        timers := v.timers.eraseIdx timer }
    | none => none
  | .connecting => some { v with bars := [] }

/-- The ids are pairwise distinct and strictly increasing. -/
def Increasing (v : ServerInstance Content) : Prop :=
  (v.bars.map Bar.id).Pairwise (· < ·)

/-- Whichever timer fires next, it removes no bar but its own. -/
def OwnTimers (v : ServerInstance Content) : Prop :=
  ∀ timer ∈ v.timers, ∀ bar ∈ v.bars,
    bar ∉ handleBarExit timer.id v.bars → bar.serial = timer.serial

/-- A bar that is added gets the id after the largest of those that are kept; no timer is pending
for a bar of that id. -/
def unclaimedId (v : ServerInstance Content) : BarAction Content → Bool
  | .addLogBar _ =>
    v.timers.all fun timer => timer.id ≠ maxId (limitedBars v.bars) + 1
  | .animationStart _ _ | .timeout _ | .connecting => true

/-! ### Ids -/

theorem sliceLast_sublist {Item : Type} (count : Nat) (items : List Item) :
    (sliceLast count items).Sublist items := by
  unfold sliceLast
  split
  · exact List.Sublist.refl items
  · exact List.drop_sublist _ _

theorem limitedBars_sublist (bars : List (Bar Content)) : (limitedBars bars).Sublist bars := by
  unfold limitedBars
  split
  · exact sliceLast_sublist _ _
  · exact List.Sublist.refl bars

theorem limitedBars_length (bars : List (Bar Content)) :
    (limitedBars bars).length < MAX_VISIBLE_BARS * 2 := by
  unfold limitedBars
  split
  · rename_i full
    have last : sliceLast MAX_VISIBLE_BARS bars = bars.drop (bars.length - MAX_VISIBLE_BARS) := rfl
    rw [last, List.length_drop]
    unfold MAX_VISIBLE_BARS at full ⊢
    omega
  · omega

theorem le_maxId {bars : List (Bar Content)} {bar : Bar Content} (member : bar ∈ bars) :
    bar.id ≤ maxId bars := by
  induction bars with
  | nil => cases member
  | cons first rest inductionHypothesis =>
    have unfolded : maxId (first :: rest) = max first.id (maxId rest) := rfl
    rcases List.mem_cons.mp member with rfl | inRest
    · omega
    · have := inductionHypothesis inRest
      omega

/-- The first id is the one after the largest of none. -/
theorem newId_eq (bars : List (Bar Content)) : newId bars = maxId bars + 1 := by
  unfold newId
  split
  · rfl
  · rename_i empty
    obtain rfl : bars = [] := List.length_eq_zero_iff.mp (by omega)
    rfl

theorem addLogBar_increasing {v : ServerInstance Content} (increasing : v.Increasing)
    (content : Content) : (v.addLogBar content).Increasing := by
  simp only [Increasing, addLogBar, List.map_append, List.map_cons, List.map_nil,
    List.pairwise_append, List.pairwise_singleton, List.mem_map, List.mem_singleton, true_and]
  refine ⟨increasing.sublist ((limitedBars_sublist v.bars).map Bar.id), ?_⟩
  rintro _ ⟨bar, kept, rfl⟩ _ rfl
  have := le_maxId kept
  rw [newId_eq]
  omega

/-- Two bars of one id are one bar. -/
theorem Increasing.eq_of_id {v : ServerInstance Content} (increasing : v.Increasing)
    {bar other : Bar Content} (member : bar ∈ v.bars) (memberOther : other ∈ v.bars)
    (same : bar.id = other.id) : bar = other := by
  have ordered : v.bars.Pairwise (fun first second => first.id < second.id) :=
    List.pairwise_map.mp increasing
  have forward : v.bars.Pairwise (fun first second => first.id = second.id → first = second) :=
    ordered.imp fun less equal => absurd equal (Nat.ne_of_lt less)
  have backward : v.bars.Pairwise (flip fun first second => first.id = second.id →
      first = second) := ordered.imp fun less equal => absurd equal (Nat.ne_of_gt less)
  exact List.Pairwise.forall_of_forall_of_flip (fun _ _ _ => rfl) forward backward member
    memberOther same

/-! ### Steps -/

theorem ownTimers_iff (v : ServerInstance Content) :
    v.OwnTimers ↔ ∀ timer ∈ v.timers, ∀ bar ∈ v.bars, bar.id = timer.id →
      bar.serial = timer.serial := by
  have removed : ∀ id, ∀ bar ∈ v.bars, bar ∉ handleBarExit id v.bars ↔ bar.id = id := by
    intro id bar member
    simp [handleBarExit, member]
  constructor
  · intro own timer pending bar member same
    exact own timer pending bar member ((removed timer.id bar member).mpr same)
  · intro own timer pending bar member gone
    exact own timer pending bar member ((removed timer.id bar member).mp gone)

/-- What holds of the bars and the timers whichever ids are reused. -/
structure Numbered (v : ServerInstance Content) : Prop where
  increasing : v.Increasing
  bounded : v.bars.length ≤ MAX_VISIBLE_BARS * 2
  earlier : ∀ timer ∈ v.timers, timer.serial < v.added
  counted : ∀ bar ∈ v.bars, bar.serial < v.added

theorem addLogBar_numbered {v : ServerInstance Content} (numbered : v.Numbered)
    (content : Content) : (v.addLogBar content).Numbered where
  increasing := addLogBar_increasing numbered.increasing content
  bounded := by
    have := limitedBars_length v.bars
    simp only [addLogBar, List.length_append, List.length_singleton]
    omega
  earlier timer pending := Nat.lt_succ_of_lt (numbered.earlier timer pending)
  counted bar member := by
    simp only [addLogBar, List.mem_append, List.mem_singleton] at member
    rcases member with kept | rfl
    · exact Nat.lt_succ_of_lt (numbered.counted bar ((limitedBars_sublist v.bars).mem kept))
    · exact Nat.lt_succ_self v.added

/-- Fewer bars are no worse. -/
theorem Numbered.of_sublist {v next : ServerInstance Content} (numbered : v.Numbered)
    (fewer : next.bars.Sublist v.bars) (timers : ∀ timer ∈ next.timers, timer ∈ v.timers)
    (added : next.added = v.added) : next.Numbered where
  increasing := numbered.increasing.sublist (fewer.map Bar.id)
  bounded := Nat.le_trans fewer.length_le numbered.bounded
  earlier timer pending := added ▸ numbered.earlier timer (timers timer pending)
  counted bar member := added ▸ numbered.counted bar (fewer.mem member)

/-- A timer is started for a bar that is there. -/
theorem animationStart_cases {v next : ServerInstance Content} {visibleBarCount place : Nat}
    (taken : v.step (.animationStart visibleBarCount place) = some next) :
    ∃ bar ∈ v.bars,
      next = { v with timers := v.timers ++ [{ id := bar.id, serial := bar.serial }] } := by
  simp only [step] at taken
  split at taken
  · rename_i bar found
    have visible : bar ∈ visibleBars visibleBarCount v.bars := List.mem_of_getElem? found
    exact ⟨bar, (sliceLast_sublist _ _).mem visible, (Option.some.inj taken).symm⟩
  · simp at taken

theorem timeout_cases {v next : ServerInstance Content} {timer : Nat}
    (taken : v.step (.timeout timer) = some next) :
    next.bars.Sublist v.bars ∧ (∀ timer ∈ next.timers, timer ∈ v.timers) ∧
      next.added = v.added := by
  simp only [step] at taken
  split at taken
  · obtain rfl := Option.some.inj taken
    exact ⟨List.filter_sublist, fun timer pending => (List.eraseIdx_sublist _ _).mem pending, rfl⟩
  · simp at taken

theorem step_numbered {v next : ServerInstance Content} {action : BarAction Content}
    (numbered : v.Numbered) (taken : v.step action = some next) : next.Numbered := by
  cases action with
  | addLogBar content =>
    obtain rfl := Option.some.inj taken
    exact addLogBar_numbered numbered content
  | animationStart visibleBarCount place =>
    obtain ⟨bar, member, rfl⟩ := animationStart_cases taken
    refine ⟨numbered.increasing, numbered.bounded, fun timer pending => ?_, numbered.counted⟩
    rcases List.mem_append.mp pending with before | started
    · exact numbered.earlier timer before
    · obtain rfl := List.mem_singleton.mp started
      exact numbered.counted bar member
  | timeout timer =>
    obtain ⟨fewer, timers, added⟩ := timeout_cases taken
    exact numbered.of_sublist fewer timers added
  | connecting =>
    obtain rfl := Option.some.inj taken
    exact numbered.of_sublist (List.nil_sublist _) (fun _ pending => pending) rfl

theorem addLogBar_ownTimers {v : ServerInstance Content} (numbered : v.Numbered)
    (own : v.OwnTimers) (content : Content) :
    (v.addLogBar content).OwnTimers ↔ v.unclaimedId (.addLogBar content) = true := by
  rw [ownTimers_iff] at own ⊢
  simp only [unclaimedId, List.all_eq_true, decide_eq_true_eq, ← newId_eq]
  constructor
  · -- The new bar has a serial that no timer has.
    intro ownNext timer pending claimed
    have newBar := ownNext timer pending
      { id := newId (limitedBars v.bars), content := content, serial := v.added }
      (by simp [addLogBar]) claimed.symm
    have := numbered.earlier timer pending
    simp only at newBar
    omega
  · intro unclaimed timer pending bar member same
    simp only [addLogBar, List.mem_append, List.mem_singleton] at member
    rcases member with kept | rfl
    · exact own timer pending bar ((limitedBars_sublist v.bars).mem kept) same
    · exact absurd same.symm (unclaimed timer pending)

theorem step_ownTimers {v next : ServerInstance Content} {action : BarAction Content}
    (numbered : v.Numbered) (own : v.OwnTimers) (taken : v.step action = some next) :
    next.OwnTimers ↔ v.unclaimedId action = true := by
  cases action with
  | addLogBar content =>
    obtain rfl := Option.some.inj taken
    exact addLogBar_ownTimers numbered own content
  | animationStart visibleBarCount place =>
    obtain ⟨bar, member, rfl⟩ := animationStart_cases taken
    refine iff_of_true ?_ rfl
    rw [ownTimers_iff] at own ⊢
    intro timer pending other memberOther same
    rcases List.mem_append.mp pending with before | started
    · exact own timer before other memberOther same
    · obtain rfl := List.mem_singleton.mp started
      rw [numbered.increasing.eq_of_id memberOther member same]
  | timeout timer =>
    obtain ⟨fewer, timers, -⟩ := timeout_cases taken
    refine iff_of_true ?_ rfl
    rw [ownTimers_iff] at own ⊢
    exact fun timer pending bar member => own timer (timers timer pending) bar (fewer.mem member)
  | connecting =>
    obtain rfl := Option.some.inj taken
    refine iff_of_true ?_ rfl
    intro timer _ bar member
    cases member

theorem unclaimedId_of_disabled {v : ServerInstance Content} {action : BarAction Content}
    (disabled : v.step action = none) : v.unclaimedId action = true := by
  cases action with
  | addLogBar content => simp [step] at disabled
  | animationStart visibleBarCount place => rfl
  | timeout timer => rfl
  | connecting => rfl

/-! ### Timers -/

/-- The bars are in order and bounded in every state of a run; no timer that is pending in one of
them would remove a bar but its own exactly when every bar that is added gets an id no timer is
pending for. -/
theorem timers_own_iff (actions : List (BarAction Content)) :
    (∀ v, Visits step init actions v →
      (v.bars.map Bar.id).Pairwise (· < ·) ∧ v.bars.length ≤ MAX_VISIBLE_BARS * 2 ∧
        v.OwnTimers) ↔
      along step unclaimedId init actions = true := by
  have start : (init : ServerInstance Content).Numbered :=
    ⟨List.Pairwise.nil, Nat.zero_le _, by simp [init], by simp [init]⟩
  have always : ∀ v, Visits step init actions v → v.Numbered := fun v visits =>
    visits_always Numbered (fun _ _ _ numbered taken => step_numbered numbered taken) start visits
  have own_iff : (∀ v, Visits step init actions v → v.OwnTimers) ↔
      along step unclaimedId init actions = true :=
    visits_iff_along Numbered OwnTimers (fun _ _ disabled => unclaimedId_of_disabled disabled)
      (fun _ _ _ numbered own taken =>
        ⟨fun _ => step_numbered numbered taken, step_ownTimers numbered own taken⟩)
      start (by simp [OwnTimers, init])
  rw [← own_iff]
  constructor
  · exact fun each v visits => (each v visits).2.2
  · exact fun own v visits =>
      ⟨(always v visits).increasing, (always v visits).bounded, own v visits⟩

/-- A bar, its timer, a new connection and another bar, when the timer fires. -/
def staleTimer : List (BarAction Unit) :=
  [.addLogBar (), .animationStart 8 0, .connecting, .addLogBar (), .timeout 0]

/-- The timer of the first connection removes the first bar of the second. -/
theorem stale_timer_fires :
    ∃ before after, execute step init (staleTimer.take 4) = some before ∧
      execute step init staleTimer = some after ∧
      before.bars.map Bar.serial = [1] ∧ before.timers.map ExitTimer.serial = [0] ∧
      after.bars = [] := by
  obtain ⟨before, run, shape⟩ := (Option.any_eq_true _ _).mp (by decide +kernel :
    (execute step init (staleTimer.take 4)).any (fun v =>
      v.bars.map Bar.serial = [1] && v.timers.map ExitTimer.serial = [0]) = true)
  obtain ⟨after, run', gone⟩ := (Option.any_eq_true _ _).mp (by decide +kernel :
    (execute step init staleTimer).any (fun v => v.bars.isEmpty) = true)
  simp only [Bool.and_eq_true, decide_eq_true_eq] at shape
  exact ⟨before, after, run, run', shape.1, shape.2, List.isEmpty_iff.mp gone⟩

end ServerInstance

end RaftInMotion.Frontend
