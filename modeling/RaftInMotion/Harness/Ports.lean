/-
This file decides when the port ranges of the harnesses do not collide and every service listens
where its harness says. `NextPortRange` increases the base and then begins the range there, so that
what a range leaves free for itself is the count of the next one; `RestartService` serves at 14200
and the id, whatever range its harness has.
-/

import RaftInMotion.Harness.Links
import Mathlib.Data.List.Basic

namespace RaftInMotion

open Execution

/-! ### The ports of one harness -/

namespace Harness

/-- No service begins to live, and none changes its port. -/
structure KeepsPorts (h next : Harness) : Prop where
  n : next.n = h.n
  servedPort : next.servedPort = h.servedPort
  kvServiceAddrs : next.kvServiceAddrs = h.kvServiceAddrs
  alive : ∀ i, next.alive i = true → h.alive i = true

theorem SameServices.keepsPorts {h next : Harness} (same : SameServices h next) :
    KeepsPorts h next where
  n := same.n
  servedPort := same.servedPort
  kvServiceAddrs := same.kvServiceAddrs
  alive _ living := same.alive ▸ living

theorem disconnect_keepsPorts (h : Harness) (id : Nat) :
    KeepsPorts h (h.disconnectServiceFromPeers id) := by
  obtain ⟨n, servedPort, addrs, alive⟩ := (disconnectPeer_sameServices h id).keepsPorts
  exact ⟨n, servedPort, addrs, alive⟩

theorem reconnectLoop_sameServices (id : Nat) (peers : List Nat) (h : Harness) :
    SameServices h (reconnectLoop id peers h).1 := by
  induction peers generalizing h with
  | nil => exact SameServices.refl h
  | cons j rest inductionHypothesis =>
    have forth := connectToPeer_sameServices h id j
    have back := connectToPeer_sameServices (h.connectToPeer id j).1 j id
    simp only [reconnectLoop]
    split
    · split
      · rename_i _ failed linked
        exact linked ▸ forth
      · rename_i _ first linked
        split
        · rename_i _ failed linked'
          rw [linked] at forth back
          rw [linked'] at back
          exact forth.trans back
        · rename_i _ second linked'
          rw [linked] at forth back
          rw [linked'] at back
          exact (forth.trans back).trans (inductionHypothesis second)
    · exact inductionHypothesis h

theorem reconnect_keepsPorts (h : Harness) (id : Nat) :
    KeepsPorts h (h.reconnectServiceToPeers id) := by
  have same := reconnectLoop_sameServices id (List.range h.n) h
  unfold reconnectServiceToPeers
  split
  · rename_i _ last looped
    rw [looped] at same
    obtain ⟨n, servedPort, addrs, alive⟩ := same.keepsPorts
    exact ⟨n, servedPort, addrs, alive⟩
  · rename_i _ last looped
    rw [looped] at same
    exact same.keepsPorts

theorem crash_keepsPorts {h next : Harness} {id : Nat} (crashed : h.crashService id = some next) :
    KeepsPorts h next := by
  obtain ⟨n, servedPort, addrs, alive⟩ := disconnect_keepsPorts h id
  simp only [crashService, shutdownService] at crashed
  split at crashed
  · obtain rfl := Option.some.inj crashed
    refine ⟨n, servedPort, addrs, fun i living => alive i ?_⟩
    simp only [Function.update_apply] at living
    split at living
    · simp at living
    · exact living
  · simp at crashed

theorem shutdown_keepsPorts {h next : Harness} (down : h.shutdown = some next) :
    KeepsPorts h next := by
  simp only [shutdown, foldl_disconnectAll] at down
  obtain ⟨whole, alive, -⟩ := foldl_shutdownService _ down
  refine ⟨by rw [whole], by rw [whole], by rw [whole], fun i living => ((alive i).mp living).1⟩

/-- A service that is restarted lives again, at a port that does not depend on the harness. -/
theorem restart_ports {h : Harness} {id : Nat} (dead : h.alive id = false) :
    (h.restartService id).n = h.n ∧ (h.restartService id).kvServiceAddrs = h.kvServiceAddrs ∧
      (h.restartService id).servedPort = Function.update h.servedPort id (14200 + id) ∧
      (h.restartService id).alive id = true ∧
      ∀ i, i ≠ id → (h.restartService id).alive i = true → h.alive i = true := by
  obtain ⟨n, servedPort, addrs, alive⟩ :=
    reconnect_keepsPorts ((h.newService id).serveHTTP id (14200 + id)) id
  simp only [restartService, dead, Bool.false_eq_true, if_false]
  refine ⟨n, addrs, servedPort, by simp, fun i other living => alive i ?_⟩
  rwa [Function.update_of_ne other] at living

/-- What a step does to the ports of the services that are alive. -/
theorem step_ports {h next : Harness} {operation : Operation}
    (taken : h.step operation = some next) :
    next.n = h.n ∧ next.kvServiceAddrs = h.kvServiceAddrs ∧ ∀ i, next.alive i = true →
      h.alive i = true ∧ next.servedPort i = h.servedPort i ∨
        operation = .restartService i ∧ h.alive i = false ∧ next.servedPort i = 14200 + i := by
  have kept : KeepsPorts h next → next.n = h.n ∧ next.kvServiceAddrs = h.kvServiceAddrs ∧
      ∀ i, next.alive i = true → h.alive i = true ∧ next.servedPort i = h.servedPort i ∨
        operation = .restartService i ∧ h.alive i = false ∧ next.servedPort i = 14200 + i :=
    fun keeps => ⟨keeps.n, keeps.kvServiceAddrs, fun i living =>
      Or.inl ⟨keeps.alive i living, congrFun keeps.servedPort i⟩⟩
  unfold step at taken
  split at taken
  · cases operation with
    | disconnectServiceFromPeers id =>
      obtain rfl := Option.some.inj taken
      exact kept (disconnect_keepsPorts h id)
    | reconnectServiceToPeers id =>
      obtain rfl := Option.some.inj taken
      exact kept (reconnect_keepsPorts h id)
    | crashService id => exact kept (crash_keepsPorts taken)
    | restartService id =>
      obtain rfl := Option.some.inj taken
      cases alive : h.alive id
      · obtain ⟨n, addrs, servedPort, -, others⟩ := restart_ports alive
        refine ⟨n, addrs, fun i living => ?_⟩
        rw [servedPort]
        rcases Decidable.em (i = id) with rfl | other
        · exact Or.inr ⟨rfl, alive, Function.update_self i _ _⟩
        · exact Or.inl ⟨others i other living, Function.update_of_ne other _ _⟩
      · rw [show h.restartService id = h by simp [restartService, alive]] at kept ⊢
        exact kept (SameServices.refl h).keepsPorts
    | shutdown => exact kept (shutdown_keepsPorts taken)
  · simp at taken

theorem restart_cases {h next : Harness} {id : Nat}
    (taken : h.step (.restartService id) = some next) : id < h.n ∧ next = h.restartService id := by
  simp only [step, Operation.service, Option.all_some, decide_eq_true_eq] at taken
  split at taken
  · rename_i bound
    exact ⟨bound, (Option.some.inj taken).symm⟩
  · simp at taken

end Harness

/-! ### Harnesses of one process -/

/-- The port manager with the ranges it has returned, and the harnesses they were returned to. -/
structure Harnesses where
  portManager : PortManager
  ranges : List (List Int)
  harnesses : List Harness

namespace Harnesses

inductive Action
  | newHarness (n : Nat)
  | call (harness : Nat) (operation : Harness.Operation)
deriving DecidableEq, Repr

def init (initialPort : Int) : Harnesses where
  portManager := PortManager.new initialPort
  ranges := []
  harnesses := []

/-- `NewHarness`; the call of `NextPortRange` is atomic. -/
def newHarness (s : Harnesses) (n : Nat) : Harnesses :=
  let (portManager, ports) := s.portManager.nextPortRange n
  { portManager := portManager
    ranges := s.ranges ++ [ports]
    harnesses := s.harnesses ++ [Harness.new n ports] }

def step (s : Harnesses) : Action → Option Harnesses
  | .newHarness n => some (s.newHarness n)
  | .call harness operation =>
    match s.harnesses[harness]? with
    | some h => (h.step operation).map fun next =>
      { s with harnesses := s.harnesses.set harness next }
    | none => none

/-- A harness has a service, and the base does not overflow. -/
def withinInt32 (s : Harnesses) : Action → Bool
  | .newHarness n => 0 < n && s.portManager.basePort + n < 2 ^ 31
  | .call _ _ => true

/-- The ranges are disjoint and consecutive, the services that are alive listen within the range of
their harness, at ports of their own and where the harness says. -/
structure Apart (s : Harnesses) : Prop where
  disjoint : s.ranges.Pairwise List.Disjoint
  consecutive : ∀ range ∈ s.ranges, ∃ start : Int,
    range = (List.range range.length).map fun i : Nat => start + i
  within : ∀ (k : Nat) (h : Harness), s.harnesses[k]? = some h → ∃ range : List Int,
    s.ranges[k]? = some range ∧ range.length = h.n ∧
      ∀ i < h.n, h.alive i = true → h.servedPort i ∈ range
  unshared : ∀ (k : Nat) (h : Harness) (k' : Nat) (h' : Harness), s.harnesses[k]? = some h →
    s.harnesses[k']? = some h' → ∀ i < h.n, ∀ i' < h'.n,
      h.alive i = true → h'.alive i' = true → h.servedPort i = h'.servedPort i' → k = k' ∧ i = i'
  addrs : ∀ (k : Nat) (h : Harness), s.harnesses[k]? = some h → ∀ i < h.n, h.alive i = true →
    h.kvServiceAddrs i = h.servedPort i

/-- A harness is not smaller than the last one, and a service is restarted only where the range of
its harness starts at 14200. -/
def fitting (s : Harnesses) : Action → Bool
  | .newHarness n => s.ranges.getLast?.all fun last => last.length ≤ n
  | .call harness (.restartService id) =>
    s.harnesses[harness]?.all fun h =>
      h.n ≤ id || h.alive id || s.ranges[harness]?.bind List.head? = some 14200
  | .call _ _ => true

/-! ### Ranges -/

/-- So many ports from the start on. -/
def portsFrom (start : Int) (count : Nat) : List Int :=
  (List.range count).map fun i : Nat => start + i

theorem mem_portsFrom {start : Int} {count : Nat} {port : Int} :
    port ∈ portsFrom start count ↔ start ≤ port ∧ port < start + count := by
  simp only [portsFrom, List.mem_map, List.mem_range]
  constructor
  · rintro ⟨i, bound, rfl⟩
    omega
  · rintro ⟨lower, upper⟩
    exact ⟨(port - start).toNat, by omega, by omega⟩

theorem portsFrom_length (start : Int) (count : Nat) : (portsFrom start count).length = count := by
  simp [portsFrom]

theorem portsFrom_head {start : Int} {count : Nat} (nonempty : 0 < count) :
    (portsFrom start count).head? = some start := by
  obtain ⟨rest, rfl⟩ := Nat.exists_eq_add_of_lt nonempty
  simp [portsFrom, List.range_succ_eq_map]

theorem portsFrom_getD {start : Int} {count i : Nat} (bound : i < count) :
    (portsFrom start count).getD i 0 = start + i := by
  simp [portsFrom, List.getD, bound]

theorem int32_of_within {value : Int} (lower : -2 ^ 31 ≤ value) (upper : value < 2 ^ 31) :
    int32 value = value := by
  unfold int32
  exact Int.bmod_eq_of_le (by omega) (by omega)

theorem int32_within (value : Int) : -2 ^ 31 ≤ int32 value ∧ int32 value < 2 ^ 31 := by
  have lower := @Int.le_bmod value (2 ^ 32) (by decide)
  have upper := @Int.bmod_lt value (2 ^ 32) (by decide)
  unfold int32
  omega

/-- Without an overflow the range begins behind the old base, as far as it is long. -/
theorem nextPortRange_eq {pm : PortManager} {count : Nat} (lower : -2 ^ 31 ≤ pm.basePort)
    (upper : pm.basePort + count < 2 ^ 31) :
    pm.nextPortRange count =
      ({ basePort := pm.basePort + count }, portsFrom (pm.basePort + count) count) := by
  have start : int32 (pm.basePort + int32 count) = pm.basePort + count := by
    rw [← int32_of_within (by omega : -2 ^ 31 ≤ pm.basePort + (count : Int)) upper]
    exact Int.add_bmod_bmod
  simp only [PortManager.nextPortRange, start, portsFrom]

/-! ### What is allocated -/

/-- A harness has the range: its addresses and the ports of its services are those of the range. -/
structure Holds (h : Harness) (range : List Int) : Prop where
  nonempty : 0 < h.n
  range : ∃ start, range = portsFrom start h.n ∧ (∀ i < h.n, h.kvServiceAddrs i = start + i) ∧
    ∀ i < h.n, h.alive i = true → h.servedPort i = start + i

/-- Each harness has its range, and the base is where the last range begins. -/
structure Allocated (s : Harnesses) : Prop where
  lower : -2 ^ 31 ≤ s.portManager.basePort
  lengths : s.ranges.length = s.harnesses.length
  holds : ∀ (k : Nat) (h : Harness) (range : List Int), s.harnesses[k]? = some h →
    s.ranges[k]? = some range → Holds h range
  last : ∀ last, s.ranges.getLast? = some last →
    last = portsFrom s.portManager.basePort last.length
  below : ∀ last, s.ranges.getLast? = some last → ∀ range ∈ s.ranges, ∀ port ∈ range,
    port < s.portManager.basePort + last.length

theorem Allocated.found {s : Harnesses} (allocated : s.Allocated) {k : Nat} {h : Harness}
    (found : s.harnesses[k]? = some h) :
    ∃ range, s.ranges[k]? = some range ∧ Holds h range := by
  obtain ⟨bound, -⟩ := List.getElem?_eq_some_iff.mp found
  rw [← allocated.lengths] at bound
  exact ⟨s.ranges[k], List.getElem?_eq_getElem bound,
    allocated.holds k h _ found (List.getElem?_eq_getElem bound)⟩

theorem disjoint_of_ne {ranges : List (List Int)} (disjoint : ranges.Pairwise List.Disjoint)
    {k k' : Nat} {range range' : List Int} (found : ranges[k]? = some range)
    (found' : ranges[k']? = some range') (other : k ≠ k') : range.Disjoint range' := by
  obtain ⟨bound, rfl⟩ := List.getElem?_eq_some_iff.mp found
  obtain ⟨bound', rfl⟩ := List.getElem?_eq_some_iff.mp found'
  rcases Nat.lt_or_gt_of_ne other with before | after
  · exact List.pairwise_iff_getElem.mp disjoint k k' bound bound' before
  · exact fun port inFirst inSecond =>
      List.pairwise_iff_getElem.mp disjoint k' k bound' bound after inSecond inFirst

/-- Ranges that are disjoint keep the services apart. -/
theorem Allocated.apart {s : Harnesses} (allocated : s.Allocated)
    (disjoint : s.ranges.Pairwise List.Disjoint) : s.Apart := by
  refine ⟨disjoint, fun range member => ?_, fun k h found => ?_, ?_,
    fun k h found i bound alive => ?_⟩
  · obtain ⟨k, bound, rfl⟩ := List.getElem_of_mem member
    have boundH : k < s.harnesses.length := allocated.lengths ▸ bound
    obtain ⟨-, start, whole, -⟩ := allocated.holds k _ _ (List.getElem?_eq_getElem boundH)
      (List.getElem?_eq_getElem bound)
    refine ⟨start, ?_⟩
    rw [whole, portsFrom_length]
    rfl
  · obtain ⟨range, there, -, start, rfl, -, ports⟩ := allocated.found found
    refine ⟨_, there, portsFrom_length _ _, fun i bound alive => ?_⟩
    rw [ports i bound alive, mem_portsFrom]
    omega
  · intro k h k' h' found found' i bound i' bound' alive alive' shared
    obtain ⟨range, there, -, start, rfl, -, ports⟩ := allocated.found found
    obtain ⟨range', there', -, start', rfl, -, ports'⟩ := allocated.found found'
    have port := ports i bound alive
    have port' := ports' i' bound' alive'
    rcases Decidable.em (k = k') with rfl | other
    · obtain rfl : h = h' := Option.some.inj (found.symm.trans found')
      rw [shared, ports i' bound' alive'] at port
      exact ⟨rfl, by omega⟩
    have mem : h.servedPort i ∈ portsFrom start h.n := by
      rw [port, mem_portsFrom]
      omega
    have mem' : h.servedPort i ∈ portsFrom start' h'.n := by
      rw [shared, port', mem_portsFrom]
      omega
    exact absurd mem' (disjoint_of_ne disjoint there there' other mem)
  · obtain ⟨range, there, -, start, rfl, addrs, ports⟩ := allocated.found found
    rw [addrs i bound, ports i bound alive]

/-! ### A new harness -/

theorem newHarness_eq {s : Harnesses} {n : Nat} (lower : -2 ^ 31 ≤ s.portManager.basePort)
    (upper : s.portManager.basePort + n < 2 ^ 31) :
    s.newHarness n =
      { portManager := { basePort := s.portManager.basePort + n }
        ranges := s.ranges ++ [portsFrom (s.portManager.basePort + n) n]
        harnesses := s.harnesses ++
          [Harness.new n (portsFrom (s.portManager.basePort + n) n)] } := by
  simp only [newHarness, nextPortRange_eq lower upper]

theorem new_holds {n : Nat} (nonempty : 0 < n) (start : Int) :
    Holds (Harness.new n (portsFrom start n)) (portsFrom start n) := by
  obtain ⟨size, -, -, -, -, served, addrs⟩ := Harness.new_spec n (portsFrom start n)
  refine ⟨by omega, start, by rw [size], fun i bound => ?_, fun i bound _ => ?_⟩
  · rw [size] at bound
    rw [addrs, portsFrom_getD bound]
  · rw [size] at bound
    rw [served i bound, portsFrom_getD bound]

/-- Every port that is allocated is below a base that was increased by the count of the last range
at least. -/
theorem Allocated.below_next {s : Harnesses} (allocated : s.Allocated) {n : Nat}
    (fits : s.fitting (.newHarness n) = true) {range : List Int} (member : range ∈ s.ranges)
    {port : Int} (inRange : port ∈ range) : port < s.portManager.basePort + n := by
  rcases last_found : s.ranges.getLast? with _ | last
  · rw [List.getLast?_eq_none_iff] at last_found
    simp [last_found] at member
  · have below := allocated.below last last_found range member port inRange
    have longer : last.length ≤ n := by simpa [fitting, last_found] using fits
    omega

theorem newHarness_allocated {s : Harnesses} {n : Nat} (allocated : s.Allocated)
    (nonempty : 0 < n) (upper : s.portManager.basePort + n < 2 ^ 31)
    (fits : s.fitting (.newHarness n) = true) : (s.newHarness n).Allocated := by
  have lower := allocated.lower
  rw [newHarness_eq lower upper]
  refine ⟨by simp only; omega, by simp [allocated.lengths], ?_, ?_, ?_⟩
  · intro k h range found there
    simp only at found there
    rcases Nat.lt_or_ge k s.harnesses.length with old | new
    · rw [List.getElem?_append_left old] at found
      rw [List.getElem?_append_left (allocated.lengths ▸ old)] at there
      exact allocated.holds k h range found there
    · rw [List.getElem?_append_right new] at found
      rw [List.getElem?_append_right (allocated.lengths ▸ new), allocated.lengths] at there
      obtain ⟨at_end, rfl⟩ : k - s.harnesses.length = 0 ∧ Harness.new n _ = h := by
        rcases place : k - s.harnesses.length with _ | place
        · rw [place] at found
          exact ⟨rfl, Option.some.inj found⟩
        · rw [place] at found
          simp at found
      rw [at_end] at there
      obtain rfl := Option.some.inj there
      exact new_holds nonempty _
  · intro last newest
    simp only [List.getLast?_concat] at newest
    obtain rfl := Option.some.inj newest
    rw [portsFrom_length]
  · intro last newest range member port inRange
    simp only [List.getLast?_concat] at newest
    obtain rfl := Option.some.inj newest
    rw [portsFrom_length]
    simp only [List.mem_append, List.mem_singleton] at member
    rcases member with old | rfl
    · have := allocated.below_next fits old inRange
      simp only
      omega
    · exact (mem_portsFrom.mp inRange).2

/-- A new range is disjoint from the others exactly when it is not shorter than the last one. -/
theorem newHarness_apart {s : Harnesses} {n : Nat} (allocated : s.Allocated) (apart : s.Apart)
    (nonempty : 0 < n) (upper : s.portManager.basePort + n < 2 ^ 31) :
    (s.newHarness n).Apart ↔ s.fitting (.newHarness n) = true := by
  constructor
  · intro apartNext
    rcases last_found : s.ranges.getLast? with _ | last
    · simp [fitting, last_found]
    · by_contra short
      have shorter : n < last.length := by simpa [fitting, last_found] using short
      have disjoint := apartNext.disjoint
      rw [newHarness_eq allocated.lower upper, List.pairwise_append] at disjoint
      have last_mem : last ∈ s.ranges := List.mem_of_getLast? last_found
      have inLast : s.portManager.basePort + (n : Int) ∈ last := by
        rw [allocated.last last last_found, mem_portsFrom]
        omega
      have inNew : s.portManager.basePort + (n : Int) ∈
          portsFrom (s.portManager.basePort + n) n := by
        rw [mem_portsFrom]
        omega
      exact disjoint.2.2 last last_mem _ (List.mem_singleton_self _) inLast inNew
  · intro fits
    refine (newHarness_allocated allocated nonempty upper fits).apart ?_
    rw [newHarness_eq allocated.lower upper, List.pairwise_append]
    refine ⟨apart.disjoint, List.pairwise_singleton _ _, ?_⟩
    intro range member _ new port inRange inNew
    obtain rfl := List.mem_singleton.mp new
    have := allocated.below_next fits member inRange
    have := (mem_portsFrom.mp inNew).1
    omega

/-! ### A call of a harness -/

theorem call_cases {s next : Harnesses} {k : Nat} {operation : Harness.Operation}
    (taken : s.step (.call k operation) = some next) :
    ∃ h after, s.harnesses[k]? = some h ∧ h.step operation = some after ∧
      next = { s with harnesses := s.harnesses.set k after } := by
  simp only [step] at taken
  split at taken
  · rename_i h found
    obtain ⟨after, stepped, rfl⟩ := Option.map_eq_some_iff.mp taken
    exact ⟨h, after, found, stepped, rfl⟩
  · simp at taken

/-- A harness that is called keeps its range, when it restarts no service outside of it. -/
theorem Holds.step {h after : Harness} {range : List Int} {operation : Harness.Operation}
    (holds : Holds h range) (stepped : h.step operation = some after)
    (fits : ∀ id, operation = .restartService id → h.alive id = false →
      range.head? = some 14200) : Holds after range := by
  obtain ⟨nonempty, start, rfl, addrs, ports⟩ := holds
  obtain ⟨n, addrsAfter, portsAfter⟩ := Harness.step_ports stepped
  refine ⟨by omega, start, by rw [n], fun i bound => ?_, fun i bound alive => ?_⟩
  · rw [addrsAfter]
    exact addrs i (by omega)
  · rcases portsAfter i alive with ⟨lived, same⟩ | ⟨restarted, dead, port⟩
    · rw [same]
      exact ports i (by omega) lived
    · have head := fits i restarted dead
      rw [portsFrom_head nonempty] at head
      rw [port, Option.some.inj head]

theorem fitting_restart {s : Harnesses} {k id : Nat} {h : Harness} {range : List Int}
    (found : s.harnesses[k]? = some h) (there : s.ranges[k]? = some range) :
    s.fitting (.call k (.restartService id)) = true ↔
      h.n ≤ id ∨ h.alive id = true ∨ range.head? = some 14200 := by
  simp [fitting, found, there, or_assoc]

theorem call_allocated {s next : Harnesses} {k : Nat} {operation : Harness.Operation}
    (allocated : s.Allocated) (taken : s.step (.call k operation) = some next)
    (fits : s.fitting (.call k operation) = true) : next.Allocated := by
  obtain ⟨h, after, found, stepped, rfl⟩ := call_cases taken
  refine ⟨allocated.lower, by simp [allocated.lengths], ?_, allocated.last, allocated.below⟩
  intro k' h' range found' there
  rcases Decidable.em (k = k') with rfl | other
  · obtain ⟨bound, -⟩ := List.getElem?_eq_some_iff.mp found
    simp only [List.getElem?_set_self bound] at found'
    obtain rfl := Option.some.inj found'
    refine (allocated.holds k h range found there).step stepped fun id restarted dead => ?_
    subst restarted
    obtain ⟨inside, -⟩ := Harness.restart_cases stepped
    rcases (fitting_restart found there).mp fits with outside | alive | head
    · omega
    · simp [dead] at alive
    · exact head
  · simp only [List.getElem?_set_ne other] at found'
    exact allocated.holds k' h' range found' there

theorem call_apart {s next : Harnesses} {k : Nat} {operation : Harness.Operation}
    (allocated : s.Allocated) (apart : s.Apart)
    (taken : s.step (.call k operation) = some next) :
    next.Apart ↔ s.fitting (.call k operation) = true := by
  constructor
  · intro apartNext
    obtain ⟨h, after, found, stepped, rfl⟩ := call_cases taken
    obtain ⟨range, there, -, start, rfl, addrs, -⟩ := allocated.found found
    cases operation with
    | restartService id =>
      rw [fitting_restart found there]
      obtain ⟨inside, rfl⟩ := Harness.restart_cases stepped
      refine Or.inr ?_
      cases alive : h.alive id
      · obtain ⟨n, addrsAfter, servedAfter, aliveAfter, -⟩ := Harness.restart_ports alive
        obtain ⟨bound, -⟩ := List.getElem?_eq_some_iff.mp found
        have right := apartNext.addrs k _ (List.getElem?_set_self bound) id (by omega) aliveAfter
        rw [addrsAfter, servedAfter, addrs id inside, Function.update_self] at right
        rw [portsFrom_head (by omega)]
        exact Or.inr (congrArg some (by omega))
      · exact Or.inl rfl
    | disconnectServiceFromPeers id => rfl
    | reconnectServiceToPeers id => rfl
    | crashService id => rfl
    | shutdown => rfl
  · intro fits
    have allocatedNext := call_allocated allocated taken fits
    obtain ⟨h, after, found, stepped, rfl⟩ := call_cases taken
    exact allocatedNext.apart apart.disjoint

/-! ### Runs -/

theorem step_apart {s next : Harnesses} {action : Action} (allocated : s.Allocated)
    (apart : s.Apart) (within : s.withinInt32 action = true) (taken : s.step action = some next) :
    (s.fitting action = true → next.Allocated) ∧ (next.Apart ↔ s.fitting action = true) := by
  cases action with
  | newHarness n =>
    simp only [withinInt32, Bool.and_eq_true, decide_eq_true_eq] at within
    obtain rfl := Option.some.inj taken
    exact ⟨newHarness_allocated allocated within.1 within.2,
      newHarness_apart allocated apart within.1 within.2⟩
  | call k operation =>
    exact ⟨call_allocated allocated taken, call_apart allocated apart taken⟩

theorem fitting_of_disabled {s : Harnesses} {action : Action} (disabled : s.step action = none) :
    s.fitting action = true := by
  cases action with
  | newHarness n => simp [step] at disabled
  | call k operation =>
    cases operation with
    | restartService id =>
      rcases found : s.harnesses[k]? with _ | h
      · simp [fitting, found]
      · simp only [step, found, Option.map_eq_none_iff] at disabled
        have outside : h.n ≤ id := by
          by_contra inside
          simp [Harness.step, Harness.Operation.service, Nat.lt_of_not_le inside] at disabled
        simp [fitting, found, outside]
    | disconnectServiceFromPeers id => rfl
    | reconnectServiceToPeers id => rfl
    | crashService id => rfl
    | shutdown => rfl

theorem init_allocated (initialPort : Int) : (init initialPort).Allocated := by
  refine ⟨(int32_within initialPort).1, rfl, ?_, ?_, ?_⟩ <;> simp [init]

theorem init_apart (initialPort : Int) : (init initialPort).Apart :=
  (init_allocated initialPort).apart List.Pairwise.nil

/-- In every state of a run the ranges are disjoint and every service listens in its own one and
where its harness says, when no harness is smaller than the one before it and every restart happens
in a harness whose range starts at 14200, and only then. -/
theorem ports_apart_iff (initialPort : Int) {actions : List Action}
    (within : along step withinInt32 (init initialPort) actions = true) :
    (∀ s, Visits step (init initialPort) actions s → s.Apart) ↔
      along step fitting (init initialPort) actions = true :=
  visits_iff_along_of_given Allocated Apart (fun _ _ disabled => fitting_of_disabled disabled)
    (fun _ _ _ allocated apart within taken => step_apart allocated apart within taken)
    (init_allocated initialPort) (init_apart initialPort) within

/-- A service of the first harness is restarted beside the range of its harness, and the range of a
third harness that is smaller than the second begins before the end of the second. -/
theorem ports_collide :
    ∃ s, execute step (init 14200) [.newHarness 3, .call 0 (.crashService 0),
        .call 0 (.restartService 0), .newHarness 5, .newHarness 3] = some s ∧
      s.ranges[1]? = some [14208, 14209, 14210, 14211, 14212] ∧
      s.ranges[2]? = some [14211, 14212, 14213] ∧
      s.ranges[0]? = some [14203, 14204, 14205] ∧ ∃ h, s.harnesses[0]? = some h ∧
        h.alive 0 = true ∧ h.servedPort 0 = 14200 ∧ h.kvServiceAddrs 0 = 14203 := by
  obtain ⟨s, run, wrong⟩ := (Option.any_eq_true _ _).mp (by decide +kernel :
    (execute step (init 14200) [.newHarness 3, .call 0 (.crashService 0),
      .call 0 (.restartService 0), .newHarness 5, .newHarness 3]).any (fun s =>
        s.ranges[1]? = some [14208, 14209, 14210, 14211, 14212] &&
        s.ranges[2]? = some [14211, 14212, 14213] && s.ranges[0]? = some [14203, 14204, 14205] &&
        s.harnesses[0]?.any fun h =>
          h.alive 0 && h.servedPort 0 = 14200 && h.kvServiceAddrs 0 = 14203) = true)
  simp only [Bool.and_eq_true, decide_eq_true_eq, Option.any_eq_true] at wrong
  obtain ⟨⟨⟨second, third⟩, first⟩, h, found, ⟨alive, served⟩, addrs⟩ := wrong
  exact ⟨s, run, second, third, first, h, found, alive, served, addrs⟩

/-- Three harnesses that grow, and a crash in the second. -/
def growing : List Action :=
  [.newHarness 3, .newHarness 3, .call 1 (.crashService 2), .newHarness 5]

theorem ports_apart_growing :
    ∃ s, execute step (init 14200) growing = some s ∧ s.Apart := by
  obtain ⟨s, run, -⟩ := (Option.any_eq_true _ _).mp (by decide +kernel :
    (execute step (init 14200) growing).any (fun _ => true) = true)
  exact ⟨s, run, (ports_apart_iff 14200 (by decide +kernel)).mpr (by decide +kernel) s
    (visits_end run)⟩

end Harnesses

end RaftInMotion
