/-
This file decides when the simulated servers that are disconnected stay isolated. The links are a
matrix that is spread over the servers, and the flags are kept beside it: `ReconnectServiceToPeers`
asks whether a peer is alive, and never whether it is connected.
-/

import RaftInMotion.Harness.Harness

namespace RaftInMotion

open Execution

namespace Harness

/-! ### What the links are -/

/-- The harness differs in its links at most. -/
structure SameServices (h next : Harness) : Prop where
  n : next.n = h.n
  connected : next.connected = h.connected
  alive : next.alive = h.alive
  listening : next.listening = h.listening
  servedPort : next.servedPort = h.servedPort
  kvServiceAddrs : next.kvServiceAddrs = h.kvServiceAddrs

theorem SameServices.refl (h : Harness) : SameServices h h :=
  ⟨rfl, rfl, rfl, rfl, rfl, rfl⟩

theorem SameServices.trans {h middle next : Harness} (first : SameServices h middle)
    (second : SameServices middle next) : SameServices h next :=
  ⟨second.n.trans first.n, second.connected.trans first.connected,
    second.alive.trans first.alive, second.listening.trans first.listening,
    second.servedPort.trans first.servedPort, second.kvServiceAddrs.trans first.kvServiceAddrs⟩

theorem foldl_sameServices {Item : Type} {change : Harness → Item → Harness}
    (same : ∀ h item, SameServices h (change h item)) (items : List Item) (h : Harness) :
    SameServices h (items.foldl change h) := by
  induction items generalizing h with
  | nil => exact SameServices.refl h
  | cons item rest inductionHypothesis => exact (same h item).trans (inductionHypothesis _)

theorem setClient_iff (h : Harness) (id peerId : Nat) (open' : Bool) (a b : Nat) :
    (h.setClient id peerId open').peerClients a b = true ↔
      if a = id ∧ b = peerId then open' = true else h.peerClients a b = true := by
  simp only [setClient]
  split <;> rfl

theorem connectToPeer_sameServices (h : Harness) (id peerId : Nat) :
    SameServices h (h.connectToPeer id peerId).1 := by
  unfold connectToPeer
  split
  · exact SameServices.refl h
  · split <;> exact ⟨rfl, rfl, rfl, rfl, rfl, rfl⟩

theorem connectToPeer_iff {h : Harness} {id peerId : Nat} (listens : h.listening peerId = true)
    (a b : Nat) : (h.connectToPeer id peerId).1.peerClients a b = true ↔
      h.peerClients a b = true ∨ a = id ∧ b = peerId := by
  unfold connectToPeer
  split
  · rename_i linked
    constructor
    · exact Or.inl
    · rintro (linked' | ⟨rfl, rfl⟩)
      · exact linked'
      · exact linked
  · simp only [setClient_iff]
    split
    · rename_i pair
      simp [pair]
    · rename_i other
      simp [other]

theorem connectToPeer_ok {h : Harness} {id peerId : Nat} (listens : h.listening peerId = true) :
    (h.connectToPeer id peerId).2 = true := by
  unfold connectToPeer
  split
  · rfl
  · rfl

/-- Without a client and a listener there is an error, and nothing changes. -/
theorem connectToPeer_fails {h : Harness} {id peerId : Nat}
    (unlinked : h.peerClients id peerId = false) (deaf : h.listening peerId = false) :
    h.connectToPeer id peerId = (h, false) := by
  simp [connectToPeer, unlinked, deaf]

/-! ### Reconnecting -/

/-- Two services that listen are linked in both directions. -/
def linkBoth (h : Harness) (id j : Nat) : Harness :=
  ((h.connectToPeer id j).1.connectToPeer j id).1

theorem linkBoth_sameServices (h : Harness) (id j : Nat) : SameServices h (h.linkBoth id j) :=
  (connectToPeer_sameServices h id j).trans (connectToPeer_sameServices _ j id)

theorem linkBoth_iff {h : Harness} {id j : Nat} (listens : h.listening id = true)
    (peer : h.listening j = true) (a b : Nat) :
    (h.linkBoth id j).peerClients a b = true ↔
      h.peerClients a b = true ∨ a = id ∧ b = j ∨ a = j ∧ b = id := by
  have listens' : (h.connectToPeer id j).1.listening id = true := by
    rw [(connectToPeer_sameServices h id j).listening]
    exact listens
  rw [linkBoth, connectToPeer_iff listens', connectToPeer_iff peer, or_assoc]

theorem reconnectLoop_skip {id j : Nat} {rest : List Nat} {h : Harness}
    (skipped : ¬ (j ≠ id ∧ h.alive j = true)) :
    reconnectLoop id (j :: rest) h = reconnectLoop id rest h := by
  rw [reconnectLoop, if_neg skipped]

theorem reconnectLoop_link {id j : Nat} {rest : List Nat} {h : Harness}
    (peer : j ≠ id ∧ h.alive j = true) (listens : h.listening id = true)
    (listensPeer : h.listening j = true) :
    reconnectLoop id (j :: rest) h = reconnectLoop id rest (h.linkBoth id j) := by
  have listens' : (h.connectToPeer id j).1.listening id = true := by
    rw [(connectToPeer_sameServices h id j).listening]
    exact listens
  have forth : h.connectToPeer id j = ((h.connectToPeer id j).1, true) :=
    Prod.ext rfl (connectToPeer_ok listensPeer)
  have back : (h.connectToPeer id j).1.connectToPeer j id = (h.linkBoth id j, true) :=
    Prod.ext rfl (connectToPeer_ok listens')
  rw [reconnectLoop, if_pos peer, forth]
  simp only [back]

/-- A service that listens is linked with every peer that is alive, in both directions. -/
theorem reconnectLoop_live {id : Nat} (peers : List Nat) {h : Harness}
    (listens : h.listening id = true)
    (live : ∀ j ∈ peers, h.alive j = true → h.listening j = true) :
    (reconnectLoop id peers h).2 = true ∧ SameServices h (reconnectLoop id peers h).1 ∧
      ∀ a b, (reconnectLoop id peers h).1.peerClients a b = true ↔
        h.peerClients a b = true ∨ (a = id ∧ b ∈ peers ∧ b ≠ id ∧ h.alive b = true) ∨
          b = id ∧ a ∈ peers ∧ a ≠ id ∧ h.alive a = true := by
  induction peers generalizing h with
  | nil => simp [reconnectLoop, SameServices.refl]
  | cons j rest inductionHypothesis =>
    by_cases peer : j ≠ id ∧ h.alive j = true
    · have same := linkBoth_sameServices h id j
      have listensPeer := live j List.mem_cons_self peer.2
      have liveRest : ∀ k ∈ rest,
          (h.linkBoth id j).alive k = true → (h.linkBoth id j).listening k = true := by
        rw [same.alive, same.listening]
        exact fun k inRest => live k (List.mem_cons_of_mem _ inRest)
      obtain ⟨done, sameRest, links⟩ :=
        inductionHypothesis (same.listening ▸ listens) liveRest
      rw [reconnectLoop_link peer listens listensPeer]
      refine ⟨done, same.trans sameRest, fun a b => ?_⟩
      rw [links, linkBoth_iff listens listensPeer, same.alive]
      simp only [List.mem_cons]
      constructor
      · rintro ((old | ⟨rfl, rfl⟩ | ⟨rfl, rfl⟩) | ⟨rfl, inRest, new⟩ | ⟨rfl, inRest, new⟩)
        · exact Or.inl old
        · exact Or.inr (Or.inl ⟨rfl, Or.inl rfl, peer⟩)
        · exact Or.inr (Or.inr ⟨rfl, Or.inl rfl, peer⟩)
        · exact Or.inr (Or.inl ⟨rfl, Or.inr inRest, new⟩)
        · exact Or.inr (Or.inr ⟨rfl, Or.inr inRest, new⟩)
      · rintro (old | ⟨rfl, rfl | inRest, new⟩ | ⟨rfl, rfl | inRest, new⟩)
        · exact Or.inl (Or.inl old)
        · exact Or.inl (Or.inr (Or.inl ⟨rfl, rfl⟩))
        · exact Or.inr (Or.inl ⟨rfl, inRest, new⟩)
        · exact Or.inl (Or.inr (Or.inr ⟨rfl, rfl⟩))
        · exact Or.inr (Or.inr ⟨rfl, inRest, new⟩)
    · rw [reconnectLoop_skip peer]
      obtain ⟨done, sameRest, links⟩ :=
        inductionHypothesis listens fun k inRest => live k (List.mem_cons_of_mem _ inRest)
      refine ⟨done, sameRest, fun a b => ?_⟩
      rw [links]
      simp only [List.mem_cons]
      constructor
      · rintro (old | ⟨rfl, inRest, new⟩ | ⟨rfl, inRest, new⟩)
        · exact Or.inl old
        · exact Or.inr (Or.inl ⟨rfl, Or.inr inRest, new⟩)
        · exact Or.inr (Or.inr ⟨rfl, Or.inr inRest, new⟩)
      · rintro (old | ⟨rfl, rfl | inRest, new⟩ | ⟨rfl, rfl | inRest, new⟩)
        · exact Or.inl old
        · exact absurd new peer
        · exact Or.inr (Or.inl ⟨rfl, inRest, new⟩)
        · exact absurd new peer
        · exact Or.inr (Or.inr ⟨rfl, inRest, new⟩)

/-- The first peer that is alive. -/
def firstPeer (h : Harness) (id : Nat) (peers : List Nat) : Option Nat :=
  peers.find? fun j => j ≠ id && h.alive j

/-- A service that does not listen is linked to the first peer that is alive, where the loop ends;
without one nothing changes. -/
theorem reconnectLoop_dead {id : Nat} (peers : List Nat) {h : Harness}
    (deaf : h.listening id = false) (unlinked : ∀ j, h.peerClients j id = false)
    (live : ∀ j ∈ peers, h.alive j = true → h.listening j = true) :
    reconnectLoop id peers h =
      match h.firstPeer id peers with
      | none => (h, true)
      | some j => ((h.connectToPeer id j).1, false) := by
  induction peers with
  | nil => rfl
  | cons j rest inductionHypothesis =>
    by_cases peer : j ≠ id ∧ h.alive j = true
    · have listensPeer := live j List.mem_cons_self peer.2
      have forth : h.connectToPeer id j = ((h.connectToPeer id j).1, true) :=
        Prod.ext rfl (connectToPeer_ok listensPeer)
      have unlinked' : (h.connectToPeer id j).1.peerClients j id = false := by
        rw [← Bool.not_eq_true, connectToPeer_iff listensPeer]
        simp [unlinked, peer.1]
      have deaf' : (h.connectToPeer id j).1.listening id = false := by
        rw [(connectToPeer_sameServices h id j).listening]
        exact deaf
      have first : h.firstPeer id (j :: rest) = some j := by simp [firstPeer, peer]
      rw [reconnectLoop, if_pos peer, forth, first]
      simp only [connectToPeer_fails unlinked' deaf']
    · have later : h.firstPeer id (j :: rest) = h.firstPeer id rest := by
        unfold firstPeer
        rw [List.find?_cons_of_neg (by simpa using peer)]
      rw [reconnectLoop_skip peer, later]
      exact inductionHypothesis fun k inRest => live k (List.mem_cons_of_mem _ inRest)

/-! ### Isolation -/

/-- A service that is not connected has no link, and two that are alive and connected have both. -/
def Isolated (h : Harness) : Prop :=
  (∀ i j, i < h.n → j < h.n → i ≠ j → h.connected i = false →
    h.peerClients i j = false ∧ h.peerClients j i = false) ∧
  ∀ i j, i < h.n → j < h.n → i ≠ j → h.alive i = true → h.alive j = true →
    h.connected i = true → h.connected j = true →
    h.peerClients i j = true ∧ h.peerClients j i = true

/-- Every other service that is alive is connected. -/
def peersConnected (h : Harness) (id : Nat) : Bool :=
  (List.range h.n).all fun j => j = id || !h.alive j || h.connected j

/-- The operation links only services that are connected or become so. -/
def linksConnected (h : Harness) : Operation → Bool
  | .reconnectServiceToPeers id =>
    h.n ≤ id ||
      if h.alive id then h.peersConnected id
      else (h.firstPeer id (List.range h.n)).all fun j => h.connected id && h.connected j
  | .restartService id => h.n ≤ id || h.alive id || h.peersConnected id
  | .disconnectServiceFromPeers _ | .crashService _ | .shutdown => true

/-- What holds of the services whatever is linked: those that are alive listen, there is no link
to one that is not, and no link leaves the cluster. -/
structure Served (h : Harness) : Prop where
  listening : ∀ i < h.n, h.listening i = h.alive i
  dead : ∀ i < h.n, h.alive i = false → ∀ j, h.peerClients j i = false
  within : ∀ i j, h.peerClients i j = true → i < h.n ∧ j < h.n

theorem peersConnected_iff (h : Harness) (id : Nat) :
    h.peersConnected id = true ↔
      ∀ j < h.n, j ≠ id → h.alive j = true → h.connected j = true := by
  simp only [peersConnected, List.all_eq_true, List.mem_range, Bool.or_eq_true, decide_eq_true_eq,
    Bool.not_eq_true']
  constructor
  · intro each j bound other alive
    rcases each j bound with (same | dead) | connected
    · exact absurd same other
    · simp [dead] at alive
    · exact connected
  · intro each j bound
    by_cases same : j = id
    · exact Or.inl (Or.inl same)
    · cases alive : h.alive j
      · exact Or.inl (Or.inr rfl)
      · exact Or.inr (each j bound same alive)

/-! ### Disconnecting -/

theorem disconnect_foldl (h : Harness) (id : Nat) (peers : List Nat) (a b : Nat) :
    (peers.foldl (fun h j => if j ≠ id then h.disconnectPeer j id else h) h).peerClients a b =
        true ↔
      h.peerClients a b = true ∧ ¬ (a ∈ peers ∧ a ≠ id ∧ b = id) := by
  induction peers generalizing h with
  | nil => simp
  | cons j rest inductionHypothesis =>
    rw [List.foldl_cons, inductionHypothesis]
    by_cases same : j = id
    · subst same
      simp only [ne_eq, not_true_eq_false, if_false, List.mem_cons]
      constructor
      · rintro ⟨old, other⟩
        exact ⟨old, fun ⟨member, different, equal⟩ =>
          other ⟨member.resolve_left different, different, equal⟩⟩
      · rintro ⟨old, other⟩
        exact ⟨old, fun ⟨member, different, equal⟩ => other ⟨Or.inr member, different, equal⟩⟩
    · rw [if_pos same, disconnectPeer, setClient_iff]
      simp only [List.mem_cons]
      by_cases pair : a = j ∧ b = id
      · obtain ⟨rfl, rfl⟩ := pair
        simp [same]
      · rw [if_neg pair]
        constructor
        · rintro ⟨old, other⟩
          refine ⟨old, ?_⟩
          rintro ⟨rfl | member, different, equal⟩
          · exact pair ⟨rfl, equal⟩
          · exact other ⟨member, different, equal⟩
        · rintro ⟨old, other⟩
          exact ⟨old, fun ⟨member, different, equal⟩ => other ⟨Or.inr member, different, equal⟩⟩

theorem disconnect_links {h : Harness} (served : h.Served) (id a b : Nat) :
    (h.disconnectServiceFromPeers id).peerClients a b = true ↔
      h.peerClients a b = true ∧ a ≠ id ∧ b ≠ id := by
  have row : (h.disconnectAll id).peerClients a b = true ↔ h.peerClients a b = true ∧ a ≠ id := by
    simp only [disconnectAll]
    split <;> simp_all
  have column := disconnect_foldl (h.disconnectAll id) id (List.range h.n) a b
  rw [row] at column
  refine column.trans ?_
  constructor
  · rintro ⟨⟨old, different⟩, other⟩
    refine ⟨old, different, fun equal => other ⟨?_, different, equal⟩⟩
    exact List.mem_range.mpr (served.within a b old).1
  · rintro ⟨old, different, other⟩
    exact ⟨⟨old, different⟩, fun ⟨_, _, equal⟩ => other equal⟩

/-- The peers drop their links to the service, and nothing else changes. -/
theorem disconnectPeer_sameServices (h : Harness) (id : Nat) :
    SameServices (h.disconnectAll id) ((List.range h.n).foldl
      (fun h j => if j ≠ id then h.disconnectPeer j id else h) (h.disconnectAll id)) := by
  refine foldl_sameServices (fun h j => ?_) _ _
  split
  · exact ⟨rfl, rfl, rfl, rfl, rfl, rfl⟩
  · exact SameServices.refl h

/-- Nothing but the links and one flag changes. -/
theorem disconnect_services (h : Harness) (id : Nat) :
    (h.disconnectServiceFromPeers id).n = h.n ∧
      (h.disconnectServiceFromPeers id).connected = Function.update h.connected id false ∧
      (h.disconnectServiceFromPeers id).alive = h.alive ∧
      (h.disconnectServiceFromPeers id).listening = h.listening := by
  have same := disconnectPeer_sameServices h id
  refine ⟨same.n, ?_, same.alive, same.listening⟩
  simp only [disconnectServiceFromPeers]
  exact congrArg (fun connected => Function.update connected id false) same.connected

theorem disconnect_served {h : Harness} (served : h.Served) (id : Nat) :
    (h.disconnectServiceFromPeers id).Served := by
  obtain ⟨n, -, alive, listening⟩ := disconnect_services h id
  constructor
  · rw [n, alive, listening]
    exact served.listening
  · rw [n, alive]
    intro i bound dead j
    rw [← Bool.not_eq_true, disconnect_links served, served.dead i bound dead]
    simp
  · intro i j linked
    rw [n]
    exact served.within i j ((disconnect_links served id i j).mp linked).1

theorem disconnect_isolated {h : Harness} (served : h.Served) (isolated : h.Isolated) (id : Nat) :
    (h.disconnectServiceFromPeers id).Isolated := by
  obtain ⟨n, connected, alive, -⟩ := disconnect_services h id
  obtain ⟨apart, together⟩ := isolated
  unfold Isolated
  simp only [n, connected, alive, ← Bool.not_eq_true, disconnect_links served]
  constructor
  · intro i j boundI boundJ different off
    rcases Decidable.em (i = id) with rfl | other
    · exact ⟨fun linked => linked.2.1 rfl, fun linked => linked.2.2 rfl⟩
    · rw [Function.update_of_ne other, Bool.not_eq_true] at off
      obtain ⟨row, column⟩ := apart i j boundI boundJ different off
      simp [row, column]
  · intro i j boundI boundJ different aliveI aliveJ onI onJ
    have otherI : i ≠ id := by
      rintro rfl
      simp at onI
    have otherJ : j ≠ id := by
      rintro rfl
      simp at onJ
    rw [Function.update_of_ne otherI] at onI
    rw [Function.update_of_ne otherJ] at onJ
    obtain ⟨row, column⟩ := together i j boundI boundJ different aliveI aliveJ onI onJ
    exact ⟨⟨row, otherI, otherJ⟩, column, otherJ, otherI⟩

/-- A crash disconnects the service, and then it neither lives nor listens. -/
theorem crash_cases {h next : Harness} {id : Nat} (crashed : h.crashService id = some next) :
    next.n = h.n ∧ next.peerClients = (h.disconnectServiceFromPeers id).peerClients ∧
      next.connected = (h.disconnectServiceFromPeers id).connected ∧
      next.alive = Function.update h.alive id false ∧
      next.listening = Function.update h.listening id false := by
  obtain ⟨n, -, alive, listening⟩ := disconnect_services h id
  simp only [crashService, shutdownService] at crashed
  split at crashed
  · obtain rfl := Option.some.inj crashed
    refine ⟨n, rfl, rfl, ?_, ?_⟩
    · exact congrArg (fun alive => Function.update alive id false) alive
    · exact congrArg (fun listening => Function.update listening id false) listening
  · simp at crashed

theorem crash_served {h next : Harness} {id : Nat} (served : h.Served)
    (crashed : h.crashService id = some next) : next.Served := by
  obtain ⟨n, links, -, alive, listening⟩ := crash_cases crashed
  constructor
  · rw [n, alive, listening]
    intro i bound
    rcases Decidable.em (i = id) with rfl | other
    · simp
    · rw [Function.update_of_ne other, Function.update_of_ne other]
      exact served.listening i bound
  · rw [n, alive, links]
    intro i bound dead j
    rw [← Bool.not_eq_true, disconnect_links served]
    rintro ⟨linked, -, other⟩
    rw [Function.update_of_ne other] at dead
    simp [served.dead i bound dead] at linked
  · intro i j linked
    rw [links] at linked
    rw [n]
    exact served.within i j ((disconnect_links served id i j).mp linked).1

theorem crash_isolated {h next : Harness} {id : Nat} (served : h.Served) (isolated : h.Isolated)
    (crashed : h.crashService id = some next) : next.Isolated := by
  obtain ⟨n, links, connected, alive, -⟩ := crash_cases crashed
  obtain ⟨n', -, alive', -⟩ := disconnect_services h id
  obtain ⟨apart, together⟩ := disconnect_isolated served isolated id
  unfold Isolated
  rw [n', alive'] at together
  rw [n'] at apart
  rw [n, links, connected, alive]
  refine ⟨apart, fun i j boundI boundJ different aliveI aliveJ => ?_⟩
  have lived : ∀ k, Function.update h.alive id false k = true → h.alive k = true := by
    intro k living
    rcases Decidable.em (k = id) with rfl | other
    · simp at living
    · rwa [Function.update_of_ne other] at living
  exact together i j boundI boundJ different (lived i aliveI) (lived j aliveJ)

/-! ### Reconnecting and restarting -/

/-- The service is linked with every peer that is alive, beside the links that are left. -/
structure Linked (h next : Harness) (id : Nat) (left : Nat → Nat → Prop) : Prop where
  n : next.n = h.n
  connected : next.connected = Function.update h.connected id true
  alive : next.alive = Function.update h.alive id true
  links : ∀ a b, next.peerClients a b = true ↔ left a b ∨
    (a = id ∧ b < h.n ∧ b ≠ id ∧ h.alive b = true) ∨ b = id ∧ a < h.n ∧ a ≠ id ∧ h.alive a = true
  fewer : ∀ a b, left a b → h.peerClients a b = true
  enough : ∀ a b, a ≠ id → h.peerClients a b = true → left a b

/-- A service that is not connected stays without links, when every peer that lives is. -/
theorem Linked.apart {h next : Harness} {id i j : Nat} {left : Nat → Nat → Prop}
    (linked : Linked h next id left) (isolated : h.Isolated) (boundI : i < h.n) (boundJ : j < h.n)
    (different : i ≠ j)
    (peers : ∀ j < h.n, j ≠ id → h.alive j = true → h.connected j = true)
    (off : next.connected i = false) :
    next.peerClients i j = false ∧ next.peerClients j i = false := by
  have other : i ≠ id := by
    rintro rfl
    simp [linked.connected] at off
  rw [linked.connected, Function.update_of_ne other] at off
  obtain ⟨row, column⟩ := isolated.1 i j boundI boundJ different off
  rw [← Bool.not_eq_true, ← Bool.not_eq_true, linked.links, linked.links]
  have dead : ¬ h.alive i = true := fun alive => by
    simp [peers i boundI other alive] at off
  constructor
  · rintro (old | ⟨rfl, -⟩ | ⟨-, -, -, alive⟩)
    · simp [linked.fewer i j old] at row
    · exact other rfl
    · exact dead alive
  · rintro (old | ⟨-, -, -, alive⟩ | ⟨rfl, -⟩)
    · simp [linked.fewer j i old] at column
    · exact dead alive
    · exact other rfl

/-- Two services that live and are connected are linked, whichever of them was linked anew. -/
theorem Linked.together {h next : Harness} {id i j : Nat} {left : Nat → Nat → Prop}
    (linked : Linked h next id left) (isolated : h.Isolated) (boundI : i < h.n) (boundJ : j < h.n)
    (different : i ≠ j) (aliveI : next.alive i = true) (aliveJ : next.alive j = true)
    (onI : next.connected i = true) (onJ : next.connected j = true) :
    next.peerClients i j = true := by
  rw [linked.alive] at aliveI aliveJ
  rw [linked.connected] at onI onJ
  rw [linked.links]
  rcases Decidable.em (i = id) with rfl | otherI
  · rw [Function.update_of_ne different.symm] at aliveJ
    exact Or.inr (Or.inl ⟨rfl, boundJ, different.symm, aliveJ⟩)
  · rw [Function.update_of_ne otherI] at aliveI onI
    rcases Decidable.em (j = id) with rfl | otherJ
    · exact Or.inr (Or.inr ⟨rfl, boundI, otherI, aliveI⟩)
    · rw [Function.update_of_ne otherJ] at aliveJ onJ
      exact Or.inl (linked.enough i j otherI
        (isolated.2 i j boundI boundJ different aliveI aliveJ onI onJ).1)

theorem Linked.isolated_iff {h next : Harness} {id : Nat} {left : Nat → Nat → Prop}
    (linked : Linked h next id left) (bound : id < h.n) (isolated : h.Isolated) :
    next.Isolated ↔ h.peersConnected id = true := by
  rw [peersConnected_iff]
  constructor
  · intro isolatedNext j boundJ other alive
    by_contra off
    have offNext : next.connected j = false := by
      rw [linked.connected, Function.update_of_ne other]
      simpa using off
    have cut := (isolatedNext.1 j id (linked.n.symm ▸ boundJ) (linked.n.symm ▸ bound)
      other offNext).2
    have new : next.peerClients id j = true :=
      (linked.links id j).mpr (Or.inr (Or.inl ⟨rfl, boundJ, other, alive⟩))
    simp [cut] at new
  · intro peers
    unfold Isolated
    rw [linked.n]
    refine ⟨fun i j boundI boundJ different off =>
      linked.apart isolated boundI boundJ different peers off, ?_⟩
    intro i j boundI boundJ different aliveI aliveJ onI onJ
    exact ⟨linked.together isolated boundI boundJ different aliveI aliveJ onI onJ,
      linked.together isolated boundJ boundI different.symm aliveJ aliveI onJ onI⟩

theorem Linked.served {h next : Harness} {id : Nat} {left : Nat → Nat → Prop}
    (linked : Linked h next id left) (bound : id < h.n) (served : h.Served)
    (listening : next.listening = Function.update h.listening id true) : next.Served := by
  constructor
  · rw [linked.n, linked.alive, listening]
    intro i boundI
    rcases Decidable.em (i = id) with rfl | other
    · simp
    · rw [Function.update_of_ne other, Function.update_of_ne other]
      exact served.listening i boundI
  · rw [linked.n, linked.alive]
    intro i boundI dead j
    have other : i ≠ id := by
      rintro rfl
      simp at dead
    rw [Function.update_of_ne other] at dead
    rw [← Bool.not_eq_true, linked.links]
    rintro (old | ⟨-, -, -, alive⟩ | ⟨same, -⟩)
    · have into := linked.fewer j i old
      simp [served.dead i boundI dead j] at into
    · simp [dead] at alive
    · exact other same
  · intro i j new
    rw [linked.n]
    rcases (linked.links i j).mp new with old | ⟨rfl, boundJ, -⟩ | ⟨rfl, boundI, -⟩
    · exact served.within i j (linked.fewer i j old)
    · exact ⟨bound, boundJ⟩
    · exact ⟨boundI, bound⟩

theorem Served.live {h : Harness} (served : h.Served) :
    ∀ j ∈ List.range h.n, h.alive j = true → h.listening j = true := by
  intro j member alive
  rw [served.listening j (List.mem_range.mp member)]
  exact alive

/-- A service that listens is reconnected: it is linked with every peer that is alive, and its flag
is set. -/
theorem reconnect_listening {h : Harness} {id : Nat} (listens : h.listening id = true)
    (live : ∀ j ∈ List.range h.n, h.alive j = true → h.listening j = true) :
    ∃ last, h.reconnectServiceToPeers id =
        { last with connected := Function.update last.connected id true } ∧
      SameServices h last ∧ ∀ a b, last.peerClients a b = true ↔ h.peerClients a b = true ∨
        (a = id ∧ b < h.n ∧ b ≠ id ∧ h.alive b = true) ∨
          b = id ∧ a < h.n ∧ a ≠ id ∧ h.alive a = true := by
  obtain ⟨done, same, links⟩ := reconnectLoop_live (List.range h.n) listens live
  rcases looped : reconnectLoop id (List.range h.n) h with ⟨last, ended⟩
  rw [looped] at done same links
  obtain rfl : ended = true := done
  refine ⟨last, by rw [reconnectServiceToPeers, looped], same, fun a b => ?_⟩
  simpa only [List.mem_range] using links a b

/-- A service that is alive is reconnected with every other one that is. -/
theorem reconnect_linked {h : Harness} {id : Nat} (served : h.Served) (bound : id < h.n)
    (alive : h.alive id = true) :
    Linked h (h.reconnectServiceToPeers id) id (fun a b => h.peerClients a b = true) ∧
      (h.reconnectServiceToPeers id).listening = Function.update h.listening id true := by
  have listens : h.listening id = true := by
    rw [served.listening id bound]
    exact alive
  obtain ⟨last, reconnected, same, links⟩ := reconnect_listening listens served.live
  have stillAlive := Function.update_eq_self id h.alive
  have stillListens := Function.update_eq_self id h.listening
  rw [alive] at stillAlive
  rw [listens] at stillListens
  rw [reconnected]
  refine ⟨⟨same.n, ?_, same.alive.trans stillAlive.symm, links, fun _ _ old => old,
    fun _ _ _ old => old⟩, same.listening.trans stillListens.symm⟩
  exact congrArg (fun connected => Function.update connected id true) same.connected

/-- A service that is not alive is reconnected with none, or linked to the first that is alive. -/
theorem reconnect_dead {h : Harness} {id : Nat} (served : h.Served) (bound : id < h.n)
    (dead : h.alive id = false) :
    h.reconnectServiceToPeers id =
      match h.firstPeer id (List.range h.n) with
      | none => { h with connected := Function.update h.connected id true }
      | some j => (h.connectToPeer id j).1 := by
  have deaf : h.listening id = false := by
    rw [served.listening id bound]
    exact dead
  have loop := reconnectLoop_dead (List.range h.n) deaf (served.dead id bound dead) served.live
  unfold reconnectServiceToPeers
  rw [loop]
  cases h.firstPeer id (List.range h.n) <;> rfl

/-- The first peer that is alive is one, and it listens. -/
theorem Served.firstPeer_spec {h : Harness} {id j : Nat} (served : h.Served)
    (first : h.firstPeer id (List.range h.n) = some j) :
    j < h.n ∧ j ≠ id ∧ h.alive j = true ∧ h.listening j = true := by
  have found := List.find?_some first
  simp only [Bool.and_eq_true, decide_eq_true_eq, ne_eq] at found
  have bound : j < h.n := List.mem_range.mp (List.mem_of_find?_eq_some first)
  exact ⟨bound, found.1, found.2, served.live j (List.mem_range.mpr bound) found.2⟩

theorem reconnect_dead_served {h : Harness} {id j : Nat} (served : h.Served) (bound : id < h.n)
    (first : h.firstPeer id (List.range h.n) = some j) : (h.connectToPeer id j).1.Served := by
  obtain ⟨boundJ, -, alive, listens⟩ := served.firstPeer_spec first
  have same := connectToPeer_sameServices h id j
  have links := @connectToPeer_iff h id j listens
  constructor
  · rw [same.n, same.alive, same.listening]
    exact served.listening
  · rw [same.n, same.alive]
    intro i boundI deadI k
    rw [← Bool.not_eq_true, links]
    rintro (old | ⟨-, rfl⟩)
    · simp [served.dead i boundI deadI k] at old
    · simp [deadI] at alive
  · intro a b linked
    rw [same.n]
    rcases (links a b).mp linked with old | ⟨rfl, rfl⟩
    · exact served.within a b old
    · exact ⟨bound, boundJ⟩

/-- The link that is left of the reconnection of a dead service breaks the isolation, unless the
flags of both say that they are connected. -/
theorem reconnect_dead_isolated {h : Harness} {id j : Nat} (served : h.Served)
    (isolated : h.Isolated) (bound : id < h.n) (first : h.firstPeer id (List.range h.n) = some j) :
    (h.connectToPeer id j).1.Isolated ↔ h.connected id = true ∧ h.connected j = true := by
  obtain ⟨boundJ, other, -, listens⟩ := served.firstPeer_spec first
  have same := connectToPeer_sameServices h id j
  have links := @connectToPeer_iff h id j listens
  obtain ⟨apart, together⟩ := isolated
  have new : (h.connectToPeer id j).1.peerClients id j = true :=
    (links id j).mpr (Or.inr ⟨rfl, rfl⟩)
  unfold Isolated
  rw [same.n, same.connected, same.alive]
  constructor
  · rintro ⟨apartNext, -⟩
    constructor
    · by_contra off
      have cut := (apartNext id j bound boundJ other.symm (by simpa using off)).1
      simp [cut] at new
    · by_contra off
      have cut := (apartNext j id boundJ bound other (by simpa using off)).2
      simp [cut] at new
  · rintro ⟨onId, onJ⟩
    constructor
    · intro a b boundA boundB different off
      obtain ⟨row, column⟩ := apart a b boundA boundB different off
      rw [← Bool.not_eq_true, ← Bool.not_eq_true, links, links]
      constructor
      · rintro (old | ⟨rfl, -⟩)
        · simp [row] at old
        · simp [onId] at off
      · rintro (old | ⟨-, rfl⟩)
        · simp [column] at old
        · simp [onJ] at off
    · intro a b boundA boundB different aliveA aliveB onA onB
      obtain ⟨row, column⟩ := together a b boundA boundB different aliveA aliveB onA onB
      exact ⟨(links a b).mpr (Or.inl row), (links b a).mpr (Or.inl column)⟩

/-- A dead service that finds no other one alive is only said to be connected. -/
theorem connected_dead {h : Harness} {id : Nat} (served : h.Served) (isolated : h.Isolated)
    (dead : h.alive id = false) :
    Served { h with connected := Function.update h.connected id true } ∧
      (Isolated { h with connected := Function.update h.connected id true } ↔ true = true) := by
  obtain ⟨apart, together⟩ := isolated
  refine ⟨⟨served.listening, served.dead, served.within⟩, iff_of_true ⟨?_, ?_⟩ rfl⟩
  · intro i j boundI boundJ different off
    have other : i ≠ id := by
      rintro rfl
      simp at off
    have off : Function.update h.connected id true i = false := off
    rw [Function.update_of_ne other] at off
    exact apart i j boundI boundJ different off
  · intro i j boundI boundJ different aliveI aliveJ onI onJ
    have onI : Function.update h.connected id true i = true := onI
    have onJ : Function.update h.connected id true j = true := onJ
    have lives : ∀ k, h.alive k = true → k ≠ id := by
      rintro k living rfl
      simp [dead] at living
    rw [Function.update_of_ne (lives i aliveI)] at onI
    rw [Function.update_of_ne (lives j aliveJ)] at onJ
    exact together i j boundI boundJ different aliveI aliveJ onI onJ

/-- A service that is restarted begins without clients and is linked with every peer that is
alive. -/
theorem restart_linked {h : Harness} {id : Nat} (served : h.Served) (bound : id < h.n)
    (dead : h.alive id = false) :
    Linked h (h.restartService id) id (fun a b => h.peerClients a b = true ∧ a ≠ id) ∧
      (h.restartService id).listening = Function.update h.listening id true := by
  have listens : ((h.newService id).serveHTTP id (14200 + id)).listening id = true := by
    simp [newService, serveHTTP]
  have live : ∀ j ∈ List.range h.n, h.alive j = true →
      ((h.newService id).serveHTTP id (14200 + id)).listening j = true := by
    intro j member alive
    have other : j ≠ id := by
      rintro rfl
      simp [dead] at alive
    exact (Function.update_of_ne other true h.listening).trans (served.live j member alive)
  obtain ⟨last, reconnected, same, links⟩ := reconnect_listening listens live
  have restarted : h.restartService id = { last with
      connected := Function.update last.connected id true
      alive := Function.update last.alive id true } := by
    simp only [restartService, dead, Bool.false_eq_true, if_false, reconnected]
  have left : ∀ a b, ((h.newService id).serveHTTP id (14200 + id)).peerClients a b = true ↔
      h.peerClients a b = true ∧ a ≠ id := by
    intro a b
    simp only [serveHTTP, newService, disconnectAll]
    split <;> simp_all
  rw [restarted]
  refine ⟨⟨same.n, ?_, ?_, fun a b => ?_, fun _ _ old => old.1, fun _ _ other old => ⟨old, other⟩⟩,
    same.listening⟩
  · exact congrArg (fun connected => Function.update connected id true) same.connected
  · exact congrArg (fun alive => Function.update alive id true) same.alive
  · refine (links a b).trans ?_
    rw [left a b]
    exact Iff.rfl

/-! ### A new harness -/

theorem connectPeers_foldl {i : Nat} (peers : List Nat) {h : Harness}
    (listens : ∀ j, h.listening j = true) (a b : Nat) :
    (peers.foldl (fun h j => if i ≠ j then (h.connectToPeer i j).1 else h) h).peerClients a b =
        true ↔
      h.peerClients a b = true ∨ a = i ∧ b ∈ peers ∧ b ≠ a := by
  induction peers generalizing h with
  | nil => simp
  | cons j rest inductionHypothesis =>
    rw [List.foldl_cons]
    by_cases same : i = j
    · subst same
      rw [if_neg (by simp), inductionHypothesis listens]
      simp only [List.mem_cons]
      constructor
      · rintro (old | ⟨rfl, inRest, other⟩)
        · exact Or.inl old
        · exact Or.inr ⟨rfl, Or.inr inRest, other⟩
      · rintro (old | ⟨rfl, rfl | inRest, other⟩)
        · exact Or.inl old
        · exact absurd rfl other
        · exact Or.inr ⟨rfl, inRest, other⟩
    · have listens' : ∀ k, (h.connectToPeer i j).1.listening k = true := by
        rw [(connectToPeer_sameServices h i j).listening]
        exact listens
      rw [if_pos same, inductionHypothesis listens', connectToPeer_iff (listens j)]
      simp only [List.mem_cons]
      constructor
      · rintro ((old | ⟨rfl, rfl⟩) | ⟨rfl, inRest, other⟩)
        · exact Or.inl old
        · exact Or.inr ⟨rfl, Or.inl rfl, fun equal => same equal.symm⟩
        · exact Or.inr ⟨rfl, Or.inr inRest, other⟩
      · rintro (old | ⟨rfl, rfl | inRest, other⟩)
        · exact Or.inl (Or.inl old)
        · exact Or.inl (Or.inr ⟨rfl, rfl⟩)
        · exact Or.inr ⟨rfl, inRest, other⟩

/-- One service connects to the others; the rest of the harness stays as it is. -/
theorem connectPeers_spec {h : Harness} (listens : ∀ j, h.listening j = true) (i : Nat) :
    (h.connectPeers i).connected = Function.update h.connected i true ∧
      SameServices { h with connected := Function.update h.connected i true } (h.connectPeers i) ∧
      ∀ a b, (h.connectPeers i).peerClients a b = true ↔
        h.peerClients a b = true ∨ a = i ∧ b < h.n ∧ b ≠ a := by
  have same : SameServices h ((List.range h.n).foldl
      (fun h j => if i ≠ j then (h.connectToPeer i j).1 else h) h) := by
    refine foldl_sameServices (fun h j => ?_) _ _
    split
    · exact connectToPeer_sameServices h i j
    · exact SameServices.refl h
  have connected : (h.connectPeers i).connected = Function.update h.connected i true :=
    congrArg (fun connected : Nat → Bool => Function.update connected i true) same.connected
  refine ⟨connected, ⟨same.n, connected, same.alive, same.listening, same.servedPort,
    same.kvServiceAddrs⟩, fun a b => ?_⟩
  refine (connectPeers_foldl (List.range h.n) listens a b).trans ?_
  rw [List.mem_range]

theorem foldl_connectPeers (services : List Nat) {h : Harness}
    (listens : ∀ j, h.listening j = true) :
    (services.foldl connectPeers h).n = h.n ∧ (services.foldl connectPeers h).alive = h.alive ∧
      (services.foldl connectPeers h).listening = h.listening ∧
      (services.foldl connectPeers h).kvServiceAddrs = h.kvServiceAddrs ∧
      (∀ i, (services.foldl connectPeers h).connected i = true ↔
        h.connected i = true ∨ i ∈ services) ∧
      ∀ a b, (services.foldl connectPeers h).peerClients a b = true ↔
        h.peerClients a b = true ∨ a ∈ services ∧ b < h.n ∧ b ≠ a := by
  induction services generalizing h with
  | nil => simp
  | cons i rest inductionHypothesis =>
    obtain ⟨connected, same, links⟩ := connectPeers_spec listens i
    have listens' : ∀ j, (h.connectPeers i).listening j = true := by
      rw [same.listening]
      exact listens
    obtain ⟨n, alive, listening, addrs, connectedRest, linksRest⟩ := inductionHypothesis listens'
    refine ⟨n.trans same.n, alive.trans same.alive, listening.trans same.listening,
      addrs.trans same.kvServiceAddrs, fun j => ?_, fun a b => ?_⟩
    · rw [List.foldl_cons, connectedRest, connected, Function.update_apply, List.mem_cons]
      by_cases here : j = i <;> simp [here]
    · rw [List.foldl_cons, linksRest, links, same.n, List.mem_cons]
      constructor
      · rintro ((old | ⟨rfl, new⟩) | ⟨inRest, new⟩)
        · exact Or.inl old
        · exact Or.inr ⟨Or.inl rfl, new⟩
        · exact Or.inr ⟨Or.inr inRest, new⟩
      · rintro (old | ⟨rfl | inRest, new⟩)
        · exact Or.inl (Or.inl old)
        · exact Or.inl (Or.inr ⟨rfl, new⟩)
        · exact Or.inr ⟨inRest, new⟩

/-- `ServeHTTP` changes the port of the service and nothing else. -/
theorem foldl_serveHTTP (services : List Nat) (ports : List Int) (h : Harness) :
    services.foldl (fun h i => h.serveHTTP i (ports.getD i 0)) h =
      { h with
        servedPort := fun i => if i ∈ services then ports.getD i 0 else h.servedPort i } := by
  induction services generalizing h with
  | nil => simp
  | cons i rest inductionHypothesis =>
    rw [List.foldl_cons, inductionHypothesis]
    simp only [serveHTTP, Harness.mk.injEq, true_and, and_true]
    funext j
    simp only [List.mem_cons, Function.update_apply]
    by_cases inRest : j ∈ rest
    · simp [inRest]
    · by_cases here : j = i <;> simp [inRest, here]

/-- A new harness: every service lives, is connected, and is linked with every other one. -/
theorem new_spec (n : Nat) (ports : List Int) :
    (new n ports).n = n ∧ (∀ i, (new n ports).alive i = true) ∧
      (∀ i, (new n ports).listening i = true) ∧
      (∀ i, (new n ports).connected i = true ↔ i < n) ∧
      (∀ a b, (new n ports).peerClients a b = true ↔ a < n ∧ b < n ∧ b ≠ a) ∧
      (∀ i < n, (new n ports).servedPort i = ports.getD i 0) ∧
      ∀ i, (new n ports).kvServiceAddrs i = ports.getD i 0 := by
  obtain ⟨n', alive, listening, addrs, connected, links⟩ :=
    @foldl_connectPeers (List.range n) (blank n ports) fun _ => rfl
  unfold new
  simp only [foldl_serveHTTP]
  refine ⟨n', fun i => congrFun alive i, fun i => congrFun listening i, fun i => ?_, fun a b => ?_,
    fun i bound => if_pos (List.mem_range.mpr bound), fun i => congrFun addrs i⟩
  · rw [connected, List.mem_range]
    simp [blank]
  · rw [links, List.mem_range]
    simp [blank]

theorem new_served (n : Nat) (ports : List Int) : (new n ports).Served := by
  obtain ⟨n', alive, listening, -, links, -, -⟩ := new_spec n ports
  refine ⟨fun i _ => (listening i).trans (alive i).symm, fun i _ dead => ?_, fun a b linked => ?_⟩
  · simp [alive i] at dead
  · rw [n']
    exact ⟨((links a b).mp linked).1, ((links a b).mp linked).2.1⟩

theorem new_isolated (n : Nat) (ports : List Int) : (new n ports).Isolated := by
  obtain ⟨n', -, -, connected, links, -, -⟩ := new_spec n ports
  unfold Isolated
  rw [n']
  refine ⟨fun i j boundI boundJ different off => ?_, fun i j boundI boundJ different _ _ _ _ => ?_⟩
  · simp [(connected i).mpr boundI] at off
  · exact ⟨(links i j).mpr ⟨boundI, boundJ, different.symm⟩,
      (links j i).mpr ⟨boundJ, boundI, different⟩⟩

/-! ### Shutting down -/

theorem foldl_disconnectAll (services : List Nat) (h : Harness) :
    services.foldl
        (fun h i => { h.disconnectAll i with connected := Function.update h.connected i false }) h =
      { h with
        peerClients := fun a b => if a ∈ services then false else h.peerClients a b
        connected := fun i => if i ∈ services then false else h.connected i } := by
  induction services generalizing h with
  | nil => simp
  | cons i rest inductionHypothesis =>
    rw [List.foldl_cons, inductionHypothesis]
    simp only [disconnectAll, Harness.mk.injEq, true_and, and_true]
    refine ⟨?_, ?_⟩
    · funext j
      simp only [List.mem_cons, Function.update_apply]
      by_cases inRest : j ∈ rest
      · simp [inRest]
      · by_cases here : j = i <;> simp [inRest, here]
    · funext a b
      simp only [List.mem_cons]
      by_cases inRest : a ∈ rest
      · simp [inRest]
      · by_cases here : a = i <;> simp [inRest, here]

/-- One round of the second loop of `Shutdown`. -/
theorem shutdownService_cases {h next : Harness} {i : Nat}
    (down : (if h.alive i then
      { h with alive := Function.update h.alive i false }.shutdownService i else some h) =
        some next) :
    next = { h with alive := next.alive, listening := next.listening } ∧
      (∀ j, next.alive j = true ↔ h.alive j = true ∧ j ≠ i) ∧
      ∀ j, h.listening j = h.alive j → next.listening j = next.alive j := by
  cases alive : h.alive i
  · simp only [alive, Bool.false_eq_true, if_false] at down
    obtain rfl := Option.some.inj down
    refine ⟨rfl, fun j => ⟨fun living => ⟨living, ?_⟩, And.left⟩, fun j same => same⟩
    rintro rfl
    simp [alive] at living
  · simp only [alive, if_true, shutdownService] at down
    split at down
    · obtain rfl := Option.some.inj down
      refine ⟨rfl, fun j => ?_, fun j same => ?_⟩
      · simp only [Function.update_apply]
        by_cases here : j = i <;> simp [here]
      · simp only [Function.update_apply]
        by_cases here : j = i <;> simp [here, same]
    · simp at down

/-- The services that are alive are shut down, one after the other. -/
theorem foldl_shutdownService (services : List Nat) {h next : Harness}
    (down : services.foldl (fun h i => h.bind fun h =>
      if h.alive i then { h with alive := Function.update h.alive i false }.shutdownService i
      else some h) (some h) = some next) :
    next = { h with alive := next.alive, listening := next.listening } ∧
      (∀ j, next.alive j = true ↔ h.alive j = true ∧ j ∉ services) ∧
      ∀ j, h.listening j = h.alive j → next.listening j = next.alive j := by
  induction services generalizing h with
  | nil =>
    obtain rfl := Option.some.inj down
    simp
  | cons i rest inductionHypothesis =>
    rw [List.foldl_cons, Option.bind_some] at down
    rcases first : (if h.alive i then
      { h with alive := Function.update h.alive i false }.shutdownService i else some h)
      with _ | middle
    · have stuck : ∀ services : List Nat, services.foldl (fun h i => h.bind fun h : Harness =>
          if h.alive i then { h with alive := Function.update h.alive i false }.shutdownService i
          else some h) none = none := by
        intro services
        induction services with
        | nil => rfl
        | cons _ _ stays => exact stays
      rw [first, stuck] at down
      simp at down
    · rw [first] at down
      obtain ⟨whole, alive, listening⟩ := shutdownService_cases first
      obtain ⟨wholeRest, aliveRest, listeningRest⟩ := inductionHypothesis down
      refine ⟨?_, fun j => ?_, fun j same => listeningRest j (listening j same)⟩
      · rw [wholeRest, whole]
      · rw [aliveRest, alive, List.mem_cons, not_or]
        exact and_assoc

theorem shutdown_isolated {h next : Harness} (served : h.Served) (down : h.shutdown = some next) :
    next.Served ∧ next.Isolated := by
  simp only [shutdown, foldl_disconnectAll] at down
  obtain ⟨whole, -, listening⟩ := foldl_shutdownService _ down
  have n : next.n = h.n := by rw [whole]
  have links : ∀ a b, next.peerClients a b = true → a < h.n → False := by
    intro a b linked bound
    rw [whole] at linked
    simp [bound] at linked
  have off : ∀ i < h.n, next.connected i = false := by
    intro i bound
    rw [whole]
    simp [bound]
  have old : ∀ a b, next.peerClients a b = true → h.peerClients a b = true := by
    intro a b linked
    rw [whole] at linked
    simp only at linked
    split at linked
    · simp at linked
    · exact linked
  refine ⟨⟨fun i bound => ?_, fun i _ _ j => ?_, fun a b linked => ?_⟩,
    ⟨fun i j boundI boundJ _ _ => ?_, fun i j boundI boundJ _ _ _ onI _ => ?_⟩⟩
  · rw [n] at bound
    exact listening i (served.listening i bound)
  · rw [← Bool.not_eq_true]
    exact fun linked => links j i linked (served.within j i (old j i linked)).1
  · rw [n]
    exact served.within a b (old a b linked)
  · rw [n] at boundI boundJ
    rw [← Bool.not_eq_true, ← Bool.not_eq_true]
    exact ⟨fun linked => links i j linked boundI, fun linked => links j i linked boundJ⟩
  · rw [n] at boundI
    simp [off i boundI] at onI

/-! ### Runs -/

theorem step_isolated {h next : Harness} {operation : Operation} (served : h.Served)
    (isolated : h.Isolated) (taken : h.step operation = some next) :
    next.Served ∧ (next.Isolated ↔ h.linksConnected operation = true) := by
  unfold step at taken
  split at taken
  · rename_i bound
    cases operation with
    | disconnectServiceFromPeers id =>
      obtain rfl := Option.some.inj taken
      exact ⟨disconnect_served served id, iff_of_true (disconnect_isolated served isolated id) rfl⟩
    | reconnectServiceToPeers id =>
      obtain rfl := Option.some.inj taken
      have bound : id < h.n := by simpa [Operation.service] using bound
      have inRange : ¬ h.n ≤ id := Nat.not_le_of_lt bound
      cases alive : h.alive id
      · rw [reconnect_dead served bound alive]
        simp only [linksConnected, inRange, alive, decide_false, Bool.false_or, Bool.false_eq_true,
          if_false]
        rcases first : h.firstPeer id (List.range h.n) with _ | j
        · exact connected_dead served isolated alive
        · refine ⟨reconnect_dead_served served bound first, ?_⟩
          simpa using reconnect_dead_isolated served isolated bound first
      · obtain ⟨linked, listening⟩ := reconnect_linked served bound alive
        refine ⟨linked.served bound served listening, ?_⟩
        rw [linked.isolated_iff bound isolated]
        simp [linksConnected, inRange, alive]
    | crashService id =>
      exact ⟨crash_served served taken, iff_of_true (crash_isolated served isolated taken) rfl⟩
    | restartService id =>
      obtain rfl := Option.some.inj taken
      have bound : id < h.n := by simpa [Operation.service] using bound
      cases alive : h.alive id
      · obtain ⟨linked, listening⟩ := restart_linked served bound alive
        refine ⟨linked.served bound served listening, ?_⟩
        rw [linked.isolated_iff bound isolated]
        simp [linksConnected, Nat.not_le_of_lt bound, alive]
      · have unchanged : h.restartService id = h := by simp [restartService, alive]
        rw [unchanged]
        exact ⟨served, iff_of_true isolated (by simp [linksConnected, alive])⟩
    | shutdown =>
      obtain ⟨servedNext, isolatedNext⟩ := shutdown_isolated served taken
      exact ⟨servedNext, iff_of_true isolatedNext rfl⟩
  · simp at taken

theorem linksConnected_of_disabled {h : Harness} {operation : Operation}
    (disabled : h.step operation = none) : h.linksConnected operation = true := by
  cases operation with
  | reconnectServiceToPeers id =>
    by_cases bound : id < h.n
    · simp [step, Operation.service, bound] at disabled
    · simp [linksConnected, Nat.le_of_not_lt bound]
  | restartService id =>
    by_cases bound : id < h.n
    · simp [step, Operation.service, bound] at disabled
    · simp [linksConnected, Nat.le_of_not_lt bound]
  | disconnectServiceFromPeers id => rfl
  | crashService id => rfl
  | shutdown => rfl

/-- In every state of a run the services that are disconnected have no link, and those that are
alive and connected have all of theirs, when each reconnection and each restart finds the peers it
links connected, and only then. -/
theorem disconnected_isolated_iff (n : Nat) (ports : List Int) (operations : List Operation) :
    (∀ h, Visits step (new n ports) operations h →
      (∀ i j, i < h.n → j < h.n → i ≠ j → h.connected i = false →
        h.peerClients i j = false ∧ h.peerClients j i = false) ∧
      ∀ i j, i < h.n → j < h.n → i ≠ j → h.alive i = true → h.alive j = true →
        h.connected i = true → h.connected j = true →
        h.peerClients i j = true ∧ h.peerClients j i = true) ↔
      along step linksConnected (new n ports) operations = true :=
  visits_iff_along Served Isolated (fun _ _ disabled => linksConnected_of_disabled disabled)
    (fun _ _ _ served isolated taken =>
      ⟨fun _ => (step_isolated served isolated taken).1, (step_isolated served isolated taken).2⟩)
    (new_served n ports) (new_isolated n ports)

/-- Two services are disconnected, and one of them is reconnected: it is linked with the other,
which nothing has reconnected. -/
theorem reconnected_to_disconnected :
    ∃ h, execute step (new 3 [14203, 14204, 14205])
        [.disconnectServiceFromPeers 0, .disconnectServiceFromPeers 1,
          .reconnectServiceToPeers 0] = some h ∧
      h.connected 1 = false ∧ h.peerClients 0 1 = true ∧ h.peerClients 1 0 = true := by
  obtain ⟨h, run, wrong⟩ := (Option.any_eq_true _ _).mp (by decide +kernel :
    (execute step (new 3 [14203, 14204, 14205])
      [.disconnectServiceFromPeers 0, .disconnectServiceFromPeers 1,
        .reconnectServiceToPeers 0]).any
        (fun h => !h.connected 1 && h.peerClients 0 1 && h.peerClients 1 0) = true)
  simp only [Bool.and_eq_true, Bool.not_eq_true'] at wrong
  exact ⟨h, run, wrong.1.1, wrong.1.2, wrong.2⟩

end Harness

end RaftInMotion
