/-
This file embeds `MemoryLogger` of `internal/logger` and proves that it is a bounded queue that
drops its oldest entry. The ring of `container/ring` is the list of the values of its elements, and
`logs`, the element the next entry is written to, is a position in it. Seen from that position the
ring is first the slots that are free and then the entries, the oldest first.
-/

import RaftInMotion.Library.Execution
import RaftInMotion.Library.Ring

namespace RaftInMotion.Logger

open Execution

structure LogEntry where
  data : List UInt8
deriving DecidableEq, Repr

structure MemoryLogger where
  maxLogs : Nat
  /-- The values of the elements of the ring; `none` is a nil one. -/
  slots : List (Option LogEntry)
  logs : Nat
  currentSize : Nat
deriving DecidableEq, Repr

/-- What the loop of `GetAndFlushLogs` leaves. -/
structure Flush where
  slots : List (Option LogEntry)
  result : List LogEntry
  /-- The loop has met a nil slot. -/
  exited : Bool
deriving DecidableEq, Repr

namespace MemoryLogger

/-- The capacity that `NewMemoryLogger` sets. -/
def capacity (maxLogs : Int) : Nat :=
  if maxLogs ≤ 0 then 150 else maxLogs.toNat

/-- `NewMemoryLogger`. -/
def new (maxLogs : Int) : MemoryLogger where
  maxLogs := capacity maxLogs
  slots := List.replicate (capacity maxLogs) none
  logs := 0
  currentSize := 0

/-- `Write`, with the number it returns; its error is nil. -/
def write (ml : MemoryLogger) (p : List UInt8) : MemoryLogger × Nat :=
  let entry : LogEntry := { data := p }
  ({ ml with
      currentSize := if ml.currentSize < ml.maxLogs then ml.currentSize + 1 else ml.currentSize
      slots := ml.slots.set ml.logs (some entry)
      logs := Ring.next ml.slots.length ml.logs }, p.length)

/-- The loop of `GetAndFlushLogs`, with the number of the rounds that are left. -/
def flushLoop : Nat → List (Option LogEntry) → Nat → List LogEntry → Flush
  | 0, slots, _, result => { slots := slots, result := result, exited := false }
  | count + 1, slots, oldestPos, result =>
    match slots[oldestPos]?.join with
    | none => { slots := slots, result := result, exited := true }
    | some entry =>
      flushLoop count (slots.set oldestPos none) (Ring.next slots.length oldestPos)
        (result ++ [entry])

/-- The loop of a call of `GetAndFlushLogs` that comes to it. -/
def flush (ml : MemoryLogger) (limit : Int) : Flush :=
  let count := (min limit ml.currentSize).toNat
  let oldestPos := Ring.move ml.slots.length ml.logs (-ml.currentSize)
  flushLoop count ml.slots oldestPos []

def getAndFlushLogs (ml : MemoryLogger) (limit : Int) : MemoryLogger × List LogEntry :=
  if limit ≤ 0 then (ml, [])
  else if ml.currentSize = 0 then (ml, [])
  else
    let flushed := ml.flush limit
    ({ ml with
        slots := flushed.slots
        currentSize := ml.currentSize - flushed.result.length }, flushed.result)

/-- The call takes the exit on a nil slot. -/
def exitsEarly (ml : MemoryLogger) (limit : Int) : Bool :=
  0 < limit && ml.currentSize ≠ 0 && (ml.flush limit).exited

def hasLogs (ml : MemoryLogger) : Bool :=
  0 < ml.currentSize

end MemoryLogger

/-! ### Calls -/

inductive Call
  | write (p : List UInt8)
  | getAndFlushLogs (limit : Int)
deriving DecidableEq, Repr

inductive Answer
  | written (n : Nat)
  | flushed (entries : List LogEntry)
deriving DecidableEq, Repr

def MemoryLogger.call (ml : MemoryLogger) : Call → MemoryLogger × Answer
  | .write p => let (next, n) := ml.write p; (next, .written n)
  | .getAndFlushLogs limit =>
    let (next, entries) := ml.getAndFlushLogs limit
    (next, .flushed entries)

/-- What a call does to the queue that a logger is meant to be, and its answer. -/
def queueCall {capacity : Nat} (queue : BoundedQueue LogEntry capacity) :
    Call → BoundedQueue LogEntry capacity × Answer
  | .write p => (queue.push { data := p }, .written p.length)
  | .getAndFlushLogs limit =>
    let count := (min limit queue.items.length).toNat
    (queue.pop count, .flushed (queue.items.take count))

namespace MemoryLogger

/-- The logger holds the queue: seen from the position of the next entry, its ring is the free
slots and then the entries of the queue. -/
structure Holds {capacity : Nat} (ml : MemoryLogger) (queue : BoundedQueue LogEntry capacity) :
    Prop where
  positive : 0 < capacity
  maxLogs : ml.maxLogs = capacity
  slots : ml.slots.length = capacity
  logs : ml.logs < capacity
  currentSize : ml.currentSize = queue.items.length
  seen : Ring.view ml.slots ml.logs =
    List.replicate (capacity - queue.items.length) none ++ queue.items.map some

theorem capacity_pos (maxLogs : Int) : 0 < capacity maxLogs := by
  unfold capacity
  split <;> omega

theorem new_holds (maxLogs : Int) :
    (new maxLogs).Holds (BoundedQueue.empty : BoundedQueue LogEntry (capacity maxLogs)) where
  positive := capacity_pos maxLogs
  maxLogs := rfl
  slots := List.length_replicate
  logs := capacity_pos maxLogs
  currentSize := rfl
  seen := by simp [new, Ring.view_replicate, BoundedQueue.empty]

variable {capacity : Nat} {ml : MemoryLogger} {queue : BoundedQueue LogEntry capacity}

theorem write_holds (holds : ml.Holds queue) (p : List UInt8) :
    (ml.write p).1.Holds (queue.push { data := p }) := by
  have bound : ml.logs < ml.slots.length := holds.slots ▸ holds.logs
  have next_bound : Ring.next ml.slots.length ml.logs < capacity :=
    holds.slots ▸ Ring.next_lt _ (holds.slots ▸ holds.positive)
  rcases Nat.lt_or_ge queue.items.length capacity with room | full
  · have free : List.replicate (capacity - queue.items.length) (none : Option LogEntry) =
        none :: List.replicate (capacity - (queue.items.length + 1)) none := by
      rw [← List.replicate_succ]
      congr 1
      omega
    have seen := holds.seen
    rw [free, List.cons_append] at seen
    have pushed := BoundedQueue.push_items_of_lt { data := p } room
    refine ⟨holds.positive, holds.maxLogs, by simp [write, holds.slots], next_bound, ?_, ?_⟩
    · simp [write, holds.maxLogs, holds.currentSize, room, pushed]
    · simp [write, Ring.view_set_next bound seen, pushed]
  · have whole : queue.items.length = capacity := Nat.le_antisymm queue.bounded full
    rcases found : queue.items with _ | ⟨oldest, rest⟩
    · have := holds.positive
      simp only [found, List.length_nil] at whole
      omega
    · have seen := holds.seen
      rw [whole, Nat.sub_self, found, List.replicate_zero, List.nil_append, List.map_cons] at seen
      have pushed := BoundedQueue.push_items_of_full { data := p } found whole
      have size : rest.length + 1 = capacity := by rw [← whole, found, List.length_cons]
      refine ⟨holds.positive, holds.maxLogs, by simp [write, holds.slots], next_bound, ?_, ?_⟩
      · simp [write, holds.maxLogs, holds.currentSize, whole, pushed, size]
      · simp [write, Ring.view_set_next bound seen, pushed, size]

/-- The loop takes the items the position sees, one by one, and leaves free slots behind. -/
theorem flushLoop_spec {slots : List (Option LogEntry)} {items : List LogEntry}
    {others : List (Option LogEntry)} {oldestPos count : Nat} (bound : oldestPos < slots.length)
    (enough : count ≤ items.length) (seen : Ring.view slots oldestPos = items.map some ++ others)
    (result : List LogEntry) :
    ∃ slots', flushLoop count slots oldestPos result =
        { slots := slots', result := result ++ items.take count, exited := false } ∧
      slots'.length = slots.length ∧
      Ring.view slots' (Ring.move slots.length oldestPos count) =
        (items.drop count).map some ++ (others ++ List.replicate count none) := by
  induction count generalizing slots items others oldestPos result with
  | zero =>
    refine ⟨slots, by simp [flushLoop], rfl, ?_⟩
    rw [Int.natCast_zero, Ring.move_zero bound]
    simpa using seen
  | succ count inductionHypothesis =>
    rcases items with _ | ⟨entry, rest⟩
    · simp at enough
    · rw [List.map_cons, List.cons_append] at seen
      have found : slots[oldestPos]?.join = some entry := by
        rw [Ring.getElem?_view bound, seen]
        rfl
      have after := Ring.view_set_next bound seen none
      rw [List.append_assoc] at after
      have nonempty : 0 < slots.length := Nat.lt_of_le_of_lt (Nat.zero_le _) bound
      have next_bound : Ring.next slots.length oldestPos < (slots.set oldestPos none).length := by
        simpa using Ring.next_lt oldestPos nonempty
      obtain ⟨slots', looped, lengths, left⟩ := inductionHypothesis next_bound
        (Nat.le_of_succ_le_succ enough) after (result ++ [entry])
      refine ⟨slots', ?_, by simpa using lengths, ?_⟩
      · simp only [flushLoop, found]
        simpa using looped
      · have further : Ring.move slots.length oldestPos ((count + 1 : Nat) : Int) =
            Ring.move slots.length (Ring.next slots.length oldestPos) count := by
          rw [Ring.next_eq_move, Ring.move_move _ _ _ nonempty]
          congr 1
          omega
        rw [List.length_set] at left
        rw [further, left]
        simp [List.replicate_succ]

/-- The loop of a call takes the oldest entries, and meets no nil slot. -/
theorem flush_holds (holds : ml.Holds queue) (limit : Int) {count : Nat}
    (counted : count = (min limit queue.items.length).toNat) :
    ∃ slots', ml.flush limit =
        { slots := slots', result := queue.items.take count, exited := false } ∧
      ({ ml with slots := slots', currentSize := queue.items.length - count } :
        MemoryLogger).Holds (queue.pop count) := by
  have nonempty : 0 < ml.slots.length := holds.slots ▸ holds.positive
  have enough : count ≤ queue.items.length := by omega
  have within := queue.bounded
  have oldest := Ring.view_move_back holds.seen
  rw [List.length_map] at oldest
  obtain ⟨slots', looped, lengths, left⟩ :=
    flushLoop_spec (Ring.move_lt ml.logs _ nonempty) enough oldest []
  refine ⟨slots', ?_, holds.positive, holds.maxLogs, lengths.trans holds.slots, holds.logs, ?_, ?_⟩
  · rw [flush, holds.currentSize, ← counted]
    simpa using looped
  · simp [BoundedQueue.pop]
  · have around := Ring.view_move left
    rw [lengths, List.length_map, List.length_drop, Ring.move_move _ _ _ nonempty,
      Ring.move_move _ _ _ nonempty, show -(queue.items.length : Int) +
        (count + ((queue.items.length - count : Nat) : Int)) = 0 by omega,
      Ring.move_zero (holds.slots ▸ holds.logs), List.replicate_append_replicate] at around
    simp only [BoundedQueue.pop, List.length_drop]
    rw [around]
    congr 2
    omega

theorem getAndFlushLogs_holds (holds : ml.Holds queue) (limit : Int) :
    (ml.getAndFlushLogs limit).1.Holds (queue.pop (min limit queue.items.length).toNat) ∧
      (ml.getAndFlushLogs limit).2 =
        queue.items.take (min limit queue.items.length).toNat := by
  unfold getAndFlushLogs
  split
  · rw [show (min limit queue.items.length).toNat = 0 by omega, BoundedQueue.pop_zero]
    exact ⟨holds, rfl⟩
  · split
    · rename_i empty
      have size := holds.currentSize
      rw [show (min limit queue.items.length).toNat = 0 by omega, BoundedQueue.pop_zero]
      exact ⟨holds, rfl⟩
    · obtain ⟨slots', flushed, left⟩ := flush_holds holds limit rfl
      have taken : (min limit queue.items.length).toNat ≤ queue.items.length := by omega
      simp only [flushed, holds.currentSize, List.length_take, Nat.min_eq_left taken]
      exact ⟨left, trivial⟩

/-- A call of a logger that holds a queue does what the call does to the queue. -/
theorem call_holds (holds : ml.Holds queue) (next : Call) :
    (ml.call next).1.Holds (queueCall queue next).1 ∧
      (ml.call next).2 = (queueCall queue next).2 := by
  cases next with
  | write p => exact ⟨write_holds holds p, rfl⟩
  | getAndFlushLogs limit =>
    obtain ⟨flushed, entries⟩ := getAndFlushLogs_holds holds limit
    exact ⟨flushed, congrArg Answer.flushed entries⟩

theorem exitsEarly_eq_false (holds : ml.Holds queue) (limit : Int) :
    ml.exitsEarly limit = false := by
  obtain ⟨slots', flushed, -⟩ := flush_holds holds limit rfl
  simp [exitsEarly, flushed]

theorem hasLogs_iff (holds : ml.Holds queue) : ml.hasLogs = true ↔ queue.items ≠ [] := by
  simp [hasLogs, holds.currentSize, List.length_pos_iff]

/-- Over any calls a new logger gives the answers of the queue; it says that it has logs exactly
when the queue has items, and no call that may follow meets a nil slot. -/
theorem bounded_fifo (maxLogs : Int) (calls : List Call) :
    let logger := answers MemoryLogger.call (new maxLogs) calls
    let queue := answers queueCall
      (BoundedQueue.empty : BoundedQueue LogEntry (MemoryLogger.capacity maxLogs)) calls
    logger.2 = queue.2 ∧ (logger.1.hasLogs = true ↔ queue.1.items ≠ []) ∧
      ∀ limit, logger.1.exitsEarly limit = false := by
  intro logger queue
  obtain ⟨holds, same⟩ : logger.1.Holds queue.1 ∧ logger.2 = queue.2 :=
    answers_related Holds (fun _ _ next holds => call_holds holds next) (new_holds maxLogs) calls
  exact ⟨same, hasLogs_iff holds, exitsEarly_eq_false holds⟩

end MemoryLogger

end RaftInMotion.Logger
