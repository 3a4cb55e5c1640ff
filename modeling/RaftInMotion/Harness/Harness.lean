/-
This file embeds the harness of `internal/harness`: the services of a simulated cluster, the flags
`connected` and `alive` that the harness keeps of them, the links between their RPC servers, and the
ports their HTTP servers listen on. What only a name or a text depends on is left out, and so are
the storages, which no function here reads. A link from `i` to `j` stands for a client that is not
nil in `peerClients[j]` of the server of `i`.
-/

import RaftInMotion.Library.Execution
import Mathlib.Algebra.Group.Nat.Defs
import Mathlib.Algebra.Ring.Int.Defs
import Mathlib.Logic.Function.Basic
import Mathlib.Tactic.Cases

namespace RaftInMotion

open Execution

/-! ### Ports -/

/-- A number as an `int32`. -/
def int32 (value : Int) : Int :=
  value.bmod (2 ^ 32)

structure PortManager where
  basePort : Int
deriving DecidableEq, Repr

/-- `NewPortManager`. -/
def PortManager.new (initialPort : Int) : PortManager where
  basePort := int32 initialPort

/-- `NextPortRange`; the base is increased first, and the range begins at what it is then. -/
def PortManager.nextPortRange (pm : PortManager) (count : Nat) : PortManager × List Int :=
  let start := int32 (pm.basePort + int32 count)
  ({ basePort := start }, (List.range count).map fun i : Nat => start + (i : Int))

/-! ### Services -/

structure Harness where
  n : Nat
  connected : Nat → Bool
  alive : Nat → Bool
  /-- The RPC server of the service accepts connections; `quit` is not closed. -/
  listening : Nat → Bool
  peerClients : Nat → Nat → Bool
  /-- The port that `ServeHTTP` of the service was called with. -/
  servedPort : Nat → Int
  /-- The port of the address `localhost:port`. -/
  kvServiceAddrs : Nat → Int

namespace Harness

def setClient (h : Harness) (id peerId : Nat) (open' : Bool) : Harness :=
  { h with peerClients := fun i j => if i = id ∧ j = peerId then open' else h.peerClients i j }

/-- `ConnectToPeer` of the server, and whether it returns no error: dialling succeeds when the peer
listens. -/
def connectToPeer (h : Harness) (id peerId : Nat) : Harness × Bool :=
  if h.peerClients id peerId then (h, true)
  else if h.listening peerId then (h.setClient id peerId true, true)
  else (h, false)

/-- `DisconnectPeer` of the server. -/
def disconnectPeer (h : Harness) (id peerId : Nat) : Harness :=
  h.setClient id peerId false

/-- `DisconnectAll` of the server. -/
def disconnectAll (h : Harness) (id : Nat) : Harness :=
  { h with peerClients := fun i j => if i = id then false else h.peerClients i j }

/-- `Shutdown` of the service; it panics when `quit` is closed already. -/
def shutdownService (h : Harness) (id : Nat) : Option Harness :=
  if h.listening id then some { h with listening := Function.update h.listening id false } else none

/-- `ServeHTTP` of the service. -/
def serveHTTP (h : Harness) (id : Nat) (port : Int) : Harness :=
  { h with servedPort := Function.update h.servedPort id port }

/-- The services of `NewHarness` before the first connection. -/
def blank (n : Nat) (ports : List Int) : Harness where
  n := n
  connected := fun _ => false
  alive := fun _ => true
  listening := fun _ => true
  peerClients := fun _ _ => false
  servedPort := fun _ => 0
  kvServiceAddrs := fun i => ports.getD i 0

/-- The connections of one service in `NewHarness`. -/
def connectPeers (h : Harness) (i : Nat) : Harness :=
  let h := (List.range h.n).foldl (fun h j => if i ≠ j then (h.connectToPeer i j).1 else h) h
  { h with connected := Function.update h.connected i true }

/-- `NewHarness`. -/
def new (n : Nat) (ports : List Int) : Harness :=
  let h := (List.range n).foldl connectPeers (blank n ports)
  (List.range n).foldl (fun h i => h.serveHTTP i (ports.getD i 0)) h

/-! ### Operations -/

def disconnectServiceFromPeers (h : Harness) (id : Nat) : Harness :=
  let h := h.disconnectAll id
  let h := (List.range h.n).foldl (fun h j => if j ≠ id then h.disconnectPeer j id else h) h
  { h with connected := Function.update h.connected id false }

/-- The loop of `ReconnectServiceToPeers`, and whether it comes to its end. -/
def reconnectLoop (id : Nat) : List Nat → Harness → Harness × Bool
  | [], h => (h, true)
  | j :: rest, h =>
    if j ≠ id ∧ h.alive j then
      match h.connectToPeer id j with
      | (h, false) => (h, false)
      | (h, true) =>
        match h.connectToPeer j id with
        | (h, false) => (h, false)
        | (h, true) => reconnectLoop id rest h
    else reconnectLoop id rest h

def reconnectServiceToPeers (h : Harness) (id : Nat) : Harness :=
  match reconnectLoop id (List.range h.n) h with
  | (h, true) => { h with connected := Function.update h.connected id true }
  | (h, false) => h

def crashService (h : Harness) (id : Nat) : Option Harness :=
  let h := h.disconnectServiceFromPeers id
  let h := { h with alive := Function.update h.alive id false }
  h.shutdownService id

/-- `server.New`: a server without clients that listens. -/
def newService (h : Harness) (id : Nat) : Harness :=
  { h.disconnectAll id with listening := Function.update h.listening id true }

def restartService (h : Harness) (id : Nat) : Harness :=
  if h.alive id then h
  else
    let h := (h.newService id).serveHTTP id (14200 + id)
    let h := h.reconnectServiceToPeers id
    { h with alive := Function.update h.alive id true }

/-- `Shutdown` of the harness. -/
def shutdown (h : Harness) : Option Harness :=
  let h := (List.range h.n).foldl
    (fun h i => { h.disconnectAll i with connected := Function.update h.connected i false }) h
  (List.range h.n).foldl (fun h i => h.bind fun h =>
    if h.alive i then { h with alive := Function.update h.alive i false }.shutdownService i
    else some h) (some h)

/-- A call of the harness. -/
inductive Operation
  | disconnectServiceFromPeers (id : Nat)
  | reconnectServiceToPeers (id : Nat)
  | crashService (id : Nat)
  | restartService (id : Nat)
  | shutdown
deriving DecidableEq, Repr

/-- The service an operation is for. -/
def Operation.service : Operation → Option Nat
  | .disconnectServiceFromPeers id | .reconnectServiceToPeers id | .crashService id
  | .restartService id => some id
  | .shutdown => none

/-- A call; an id that is out of range panics. -/
def step (h : Harness) (operation : Operation) : Option Harness :=
  if operation.service.all (· < h.n) then
    match operation with
    | .disconnectServiceFromPeers id => some (h.disconnectServiceFromPeers id)
    | .reconnectServiceToPeers id => some (h.reconnectServiceToPeers id)
    | .crashService id => h.crashService id
    | .restartService id => some (h.restartService id)
    | .shutdown => h.shutdown
  else none

end Harness

end RaftInMotion
