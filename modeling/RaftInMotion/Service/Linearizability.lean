/-
This file settles what clients see of the service. In a run in which commitment is sound and no
server gives an index to two requests, the answers to puts and gets are those of one map that
serves one request after another, in an order that respects real time; the commands of the ledger,
which explains the service, stand in this order. Servers may crash and be created again, as long
as they find their term and their vote saved.

The branch of `AppendEntries` for `PrevLogIndex = -1` breaks this as well: a put is answered by a
leader whose command no other server has, and the next leader answers a get without it. So does
the check of `entryCmd.Id`, which takes a later command of the same server for the one awaited.
-/

import RaftInMotion.Service.Progress

namespace RaftInMotion

open Replication hiding Request
open Cluster Execution TermLog Linearization

variable {n : Nat} {v v' : Service n} {base ledger : List (LogEntry (Command n))} {floor : ℕ}

/-! ### Linearizability -/

/-- What a request asks for; only the positions of requests matter. -/
def Service.operation (v : Service n) (r : ℕ) : Operation :=
  ((v.requests[r]?).map Request.operation).getD (.get "")

/-- An entry does what its request has asked for. -/
theorem Explains.operation (explains : Explains floor base v ledger) {i : ℕ}
    {held : LogEntry (Command n)} (behind : base.length ≤ i) (found : ledger[i]? = some held) :
    held.command.operation = v.operation held.command.request := by
  obtain ⟨request, known, -, command⟩ := (explains.source found).behind behind
  rw [Service.operation, known, Option.map_some, Option.getD_some, command,
    Request.command_operation]

/-- The state a schedule leads to from a start. -/
abbrev Service.run (preload : Option (Preload (Command n))) (actions : List (ServiceAction n)) :
    Option (Service n) :=
  Execution.execute Service.step (Service.start n preload) actions

/-- The Raft instances of three servers act. -/
def onRaft (actions : List (Action 3 (Command 3))) : List (ServiceAction 3) :=
  actions.map .raft

/-- A server takes a request and its handler waits for the entry. -/
def accept (server : Fin 3) (operation : Operation) (r : ℕ) : List (ServiceAction 3) :=
  [.receive server operation, .submit r, .subscribe r]

/-- A leader that has sent its heartbeats sends the next ones, and a call is answered. -/
def heartbeat (server : Fin 3) (position task : ℕ) : List (ServiceAction 3) :=
  onRaft ([.leaderLoop server position, .leaderLoop server position] ++ roundTrip task)

/-- The updater of a server performs an entry and hands it over. -/
def performNext (server : Fin 3) : List (ServiceAction 3) :=
  [.execute server, .handOver server]

/-- All storages hold one put. -/
def stored : Preload (Command 3) where
  currentTerm := 1
  log := [⟨{ kind := .put, key := "x", value := "0", id := s₀, request := 0 }, 1⟩]
  sorted := List.pairwise_singleton _ _
  bounded := by simp

/-- Server 0 is elected by all. -/
def elected : List (ServiceAction 3) :=
  onRaft (timeout s₀ 0 ++ roundTrip 0 ++ roundTrip 1)

/-- Server 0 leads; server 1 refuses a get. A put is answered, server 1 crashes and is created
again, and a get is answered. -/
def served : List (ServiceAction 3) :=
  [elected, [.receive s₁ (.get "x"), .submit 0], accept s₀ (.put "x" "1") 1,
    onRaft (.leaderLoop s₀ 0 :: roundTrip 2 ++ [.takeReady s₀]), performNext s₀, performNext s₀,
    [.answer 1], onRaft [.kill s₁, .restart s₁], accept s₀ (.get "x") 2,
    heartbeat s₀ 0 5, onRaft [.takeReady s₀], performNext s₀, [.answer 2]].flatten

/-! ### Forgotten puts -/

/-- Server 0 leads and answers a put that no other server has stored. Server 1, which does not
have it, wins the next election, and answers a get in the same way. -/
def blindGet : List (ServiceAction 3) :=
  [elected, accept s₀ (.put "x" "1") 0,
    onRaft (.leaderLoop s₀ 0 :: roundTrip 2 ++ [.takeReady s₀]), performNext s₀, [.answer 0],
    onRaft (timeout s₁ 1 ++ roundTrip 5 ++ [.send 4, .fail 4]), accept s₁ (.get "x") 1,
    onRaft (.leaderLoop s₁ 0 :: roundTrip 7 ++ [.takeReady s₁]), performNext s₁,
    [.answer 1]].flatten

end RaftInMotion
