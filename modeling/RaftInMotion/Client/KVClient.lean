/-
This file embeds `KVClient` of `internal/kv/client` and decides when a call reports a success
that a server has reported. `send` is a loop over attempts; an attempt is what one call of
`sendJSONRequest` meets and what the two contexts say after it failed, so that a list of attempts
stands for any sequence of answers, transport errors, decode errors and timeouts. The request and
its path are left out, since nothing that comes back is assumed of them, and so is the id of the
client, which only the log reads.
-/

import Mathlib.Tactic.TypeStar

namespace RaftInMotion.Client

/-! ### Responses -/

/-- `ResponseStatus`; a decoded integer can be any. -/
inductive ResponseStatus
  | invalid
  | ok
  | notLeader
  | failedCommit
  | other (code : Int)
deriving DecidableEq, Repr

structure PutResponse where
  respStatus : ResponseStatus := .invalid
  keyFound : Bool := false
  prevValue : String := ""
deriving DecidableEq, Repr

structure GetResponse where
  respStatus : ResponseStatus := .invalid
  keyFound : Bool := false
  value : String := ""
deriving DecidableEq, Repr

/-- The interface `Response`. -/
class Response (Resp : Type) where
  status : Resp → ResponseStatus

instance : Response PutResponse := ⟨PutResponse.respStatus⟩

instance : Response GetResponse := ⟨GetResponse.respStatus⟩

/-! ### Attempts -/

/-- What a call of `sendJSONRequest` meets. -/
inductive Exchange (Resp : Type)
  /-- No body, or none that decoding can begin to store. -/
  | failed
  /-- Decoding fails when it has stored something. -/
  | garbled (stored : Resp)
  /-- The answer of a server; all its fields are stored. -/
  | decoded (answer : Resp)
deriving DecidableEq, Repr

structure Attempt (Resp : Type) where
  exchange : Exchange Resp
  /-- `contextDone` of the context of the caller, after an error. -/
  contextDone : Bool
  /-- `contextDeadlineExceeded` of the context of the attempt, after an error. -/
  deadlineExceeded : Bool
deriving DecidableEq, Repr

variable {Resp : Type}

/-- `sendJSONRequest`: the response it leaves, and whether it returns an error. -/
def sendJSONRequest (resp : Resp) : Exchange Resp → Resp × Bool
  | .failed => (resp, true)
  | .garbled stored => (stored, true)
  | .decoded answer => (answer, false)

/-! ### The client -/

structure KVClient where
  addrs : List String
  assumedLeader : Nat
deriving DecidableEq, Repr

namespace KVClient

/-- `New`. -/
def new (serviceAddrs : List String) : KVClient where
  addrs := serviceAddrs
  assumedLeader := 0

/-- The client turns to the next server. -/
def nextLeader (c : KVClient) : KVClient :=
  { c with assumedLeader := (c.assumedLeader + 1) % c.addrs.length }

/-- `send`, with the response and the error. It has no result while the loop still runs, and none
when it panics. -/
def send [Response Resp] (c : KVClient) (resp : Resp) :
    List (Attempt Resp) → Option (KVClient × Resp × Option String)
  | [] => none
  | attempt :: rest =>
    if c.assumedLeader < c.addrs.length then
      let (resp, failed) := sendJSONRequest resp attempt.exchange
      if failed then
        if attempt.contextDone then some (c, resp, none)
        else if attempt.deadlineExceeded then c.nextLeader.send resp rest
        else some (c, resp, none)
      else
        match Response.status resp with
        | .notLeader => c.nextLeader.send resp rest
        | .ok => some (c, resp, none)
        | .failedCommit => some (c, resp, some "commit failed; please retry")
        | .invalid | .other _ => none
    else none

/-- What `Put` and `Get` share: the value, the found flag and the error that a call of `send`
with an empty response leaves. -/
def call [Response Resp] (c : KVClient) (resp : Resp) (value : Resp → String)
    (keyFound : Resp → Bool) (attempts : List (Attempt Resp)) :
    Option (KVClient × String × Bool × Option String) :=
  (c.send resp attempts).map fun (next, final, err) => (next, value final, keyFound final, err)

/-- `Put`. -/
def put (c : KVClient) :
    List (Attempt PutResponse) → Option (KVClient × String × Bool × Option String) :=
  c.call {} PutResponse.prevValue PutResponse.keyFound

/-- `Get`. -/
def get (c : KVClient) :
    List (Attempt GetResponse) → Option (KVClient × String × Bool × Option String) :=
  c.call {} GetResponse.value GetResponse.keyFound

end KVClient

/-! ### Reported successes -/

/-- The attempt is followed by another one. -/
def Attempt.retried [Response Resp] (attempt : Attempt Resp) : Bool :=
  match attempt.exchange with
  | .decoded answer => Response.status answer = .notLeader
  | _ => !attempt.contextDone && attempt.deadlineExceeded

/-- The attempt fails, and the client does not try again. -/
def Attempt.abandoned (attempt : Attempt Resp) : Bool :=
  match attempt.exchange with
  | .decoded _ => false
  | _ => attempt.contextDone || !attempt.deadlineExceeded

/-- The first attempt that is not followed by another one fails. -/
def gaveUp [Response Resp] (attempts : List (Attempt Resp)) : Bool :=
  (attempts.find? fun attempt => !attempt.retried).any Attempt.abandoned

/-- When a call returns without an error, its last attempt has decoded an answer with `StatusOK`,
and what it returns are the fields of that answer. The call still runs before its last attempt. -/
def Truthful [Response Resp]
    (call : List (Attempt Resp) → Option (KVClient × String × Bool × Option String))
    (value : Resp → String) (keyFound : Resp → Bool) (attempts : List (Attempt Resp)) : Prop :=
  ∀ next returned found, call attempts = some (next, returned, found, none) →
    ∃ before attempt after answer, attempts = before ++ attempt :: after ∧ call before = none ∧
      attempt.exchange = .decoded answer ∧ Response.status answer = .ok ∧
        returned = value answer ∧ found = keyFound answer

namespace KVClient

theorem nextLeader_lt {c : KVClient} (bound : c.assumedLeader < c.addrs.length) :
    c.nextLeader.assumedLeader < c.nextLeader.addrs.length :=
  Nat.mod_lt _ (Nat.zero_lt_of_lt bound)

/-- A retried attempt only changes the assumed leader and the response. -/
theorem send_retried [Response Resp] {c : KVClient} (bound : c.assumedLeader < c.addrs.length)
    (resp : Resp) {attempt : Attempt Resp} (retried : attempt.retried = true)
    (rest : List (Attempt Resp)) :
    c.send resp (attempt :: rest) =
      c.nextLeader.send (sendJSONRequest resp attempt.exchange).1 rest := by
  obtain ⟨exchange, contextDone, deadlineExceeded⟩ := attempt
  cases exchange with
  | failed | garbled stored =>
    simp only [Attempt.retried, Bool.and_eq_true, Bool.not_eq_true'] at retried
    simp [send, bound, sendJSONRequest, retried.1, retried.2]
  | decoded answer =>
    simp only [Attempt.retried, decide_eq_true_eq] at retried
    simp [send, bound, sendJSONRequest, retried]

/-- So do any number of them. -/
theorem send_append_of_retried [Response Resp] {c : KVClient}
    (bound : c.assumedLeader < c.addrs.length) (resp : Resp) {before : List (Attempt Resp)}
    (retried : ∀ attempt ∈ before, attempt.retried = true) :
    ∃ later : KVClient, ∃ left : Resp, later.assumedLeader < later.addrs.length ∧
      ∀ rest, c.send resp (before ++ rest) = later.send left rest := by
  induction before generalizing c resp with
  | nil => exact ⟨c, resp, bound, fun rest => rfl⟩
  | cons attempt before inductionHypothesis =>
    obtain ⟨later, left, boundLater, same⟩ := inductionHypothesis (nextLeader_lt bound)
      (sendJSONRequest resp attempt.exchange).1
      (fun other member => retried other (List.mem_cons_of_mem _ member))
    refine ⟨later, left, boundLater, fun rest => ?_⟩
    rw [List.cons_append, send_retried bound resp (retried attempt List.mem_cons_self), same rest]

/-- An abandoned attempt ends the loop without an error. -/
theorem send_abandoned [Response Resp] {c : KVClient} (bound : c.assumedLeader < c.addrs.length)
    (resp : Resp) {attempt : Attempt Resp} (abandoned : attempt.abandoned = true)
    (rest : List (Attempt Resp)) :
    c.send resp (attempt :: rest) =
      some (c, (sendJSONRequest resp attempt.exchange).1, none) := by
  obtain ⟨exchange, contextDone, deadlineExceeded⟩ := attempt
  cases exchange with
  | failed | garbled stored =>
    simp only [Attempt.abandoned, Bool.or_eq_true, Bool.not_eq_true'] at abandoned
    rcases abandoned with rfl | rfl <;> simp [send, bound, sendJSONRequest]
  | decoded answer => simp [Attempt.abandoned] at abandoned

/-- What ends the loop without an error and is not abandoned is an answer with `StatusOK`. -/
theorem send_decoded [Response Resp] {c next : KVClient} {resp final : Resp}
    {attempt : Attempt Resp} {rest : List (Attempt Resp)} (last : attempt.retried = false)
    (kept : attempt.abandoned = false)
    (returned : c.send resp (attempt :: rest) = some (next, final, none)) :
    attempt.exchange = .decoded final ∧ Response.status final = .ok := by
  obtain ⟨exchange, contextDone, deadlineExceeded⟩ := attempt
  cases exchange with
  | failed | garbled stored =>
    cases contextDone <;> cases deadlineExceeded <;>
      simp [Attempt.retried, Attempt.abandoned] at last kept
  | decoded answer =>
    simp only [Attempt.retried, decide_eq_false_iff_not] at last
    unfold send at returned
    by_cases bound : c.assumedLeader < c.addrs.length
    · simp only [bound, ↓reduceIte, sendJSONRequest, Bool.false_eq_true] at returned
      cases status : Response.status answer with
      | ok =>
        simp only [status, Option.some.injEq, Prod.mk.injEq, and_true] at returned
        exact ⟨by rw [returned.2], by rw [← returned.2, status]⟩
      | notLeader => exact absurd status last
      | invalid | failedCommit | other code => simp [status] at returned
    · simp [bound] at returned

theorem send_unbound [Response Resp] {c : KVClient} (unbound : ¬c.assumedLeader < c.addrs.length)
    (resp : Resp) (attempts : List (Attempt Resp)) : c.send resp attempts = none := by
  cases attempts with
  | nil => rfl
  | cons attempt rest => simp [send, unbound]

/-- A call that gives up reports a success which its last attempt has not decoded. -/
theorem not_truthful_of_gaveUp [Response Resp] {c : KVClient}
    (bound : c.assumedLeader < c.addrs.length) (resp : Resp) (value : Resp → String)
    (keyFound : Resp → Bool) {attempts : List (Attempt Resp)} (gaveUp : gaveUp attempts = true) :
    ¬Truthful (c.call resp value keyFound) value keyFound attempts := by
  intro truthful
  obtain ⟨attempt, found, abandoned⟩ := (Option.any_eq_true _ _).mp gaveUp
  obtain ⟨last, before, after, rfl, retried⟩ := List.find?_eq_some_iff_append.mp found
  simp only [Bool.not_eq_true', Bool.not_not] at last retried
  obtain ⟨later, left, boundLater, same⟩ := send_append_of_retried bound resp retried
  have returns := send_abandoned boundLater left abandoned
  obtain ⟨before', attempt', after', answer, split, running, decoded, ok, -, -⟩ :=
    truthful later _ _ (by simp only [call, same, returns]; rfl)
  simp only [call, Option.map_eq_none_iff] at running
  have other : attempt ≠ attempt' := by
    rintro rfl
    simp [Attempt.abandoned, decoded] at abandoned
  rcases List.append_eq_append_iff.mp split with ⟨more, rfl, rest⟩ | ⟨more, rfl, rest⟩
  · cases more with
    | nil => exact other (List.cons.inj rest).1
    | cons head more =>
      -- The call is over before its last attempt.
      obtain ⟨rfl, -⟩ := List.cons.inj rest
      rw [same, returns] at running
      cases running
  · cases more with
    | nil => exact other (List.cons.inj rest).1.symm
    | cons head more =>
      -- The attempt is retried, which an answer with `StatusOK` is not.
      obtain ⟨rfl, -⟩ := List.cons.inj rest
      have again := retried attempt' (by simp)
      simp [Attempt.retried, decoded, ok] at again

theorem truthful_of_kept [Response Resp] (c : KVClient) (resp : Resp) (value : Resp → String)
    (keyFound : Resp → Bool) {attempts : List (Attempt Resp)}
    (kept : ¬(c.assumedLeader < c.addrs.length ∧ gaveUp attempts = true)) :
    Truthful (c.call resp value keyFound) value keyFound attempts := by
  intro next returned found called
  obtain ⟨⟨next', final, err⟩, sent, equal⟩ := Option.map_eq_some_iff.mp called
  obtain ⟨rfl, rfl, rfl, rfl⟩ : next' = next ∧ value final = returned ∧
    keyFound final = found ∧ err = none := by simpa using equal
  have bound : c.assumedLeader < c.addrs.length := Decidable.byContradiction fun unbound => by
    rw [send_unbound unbound] at sent
    cases sent
  have notGivenUp : gaveUp attempts = false := by simpa [bound] using kept
  cases first : attempts.find? (fun attempt => !attempt.retried) with
  | none =>
    have retried : ∀ attempt ∈ attempts, attempt.retried = true := by
      simpa using List.find?_eq_none.mp first
    obtain ⟨later, left, -, same⟩ := send_append_of_retried bound resp retried
    have running : c.send resp attempts = none := by simpa [send] using same []
    rw [running] at sent
    cases sent
  | some attempt =>
    obtain ⟨last, before, after, rfl, retried⟩ := List.find?_eq_some_iff_append.mp first
    simp only [Bool.not_eq_true', Bool.not_not] at last retried
    have keeps : attempt.abandoned = false := by simpa [gaveUp, first] using notGivenUp
    obtain ⟨later, left, -, same⟩ := send_append_of_retried bound resp retried
    rw [same] at sent
    obtain ⟨decoded, ok⟩ := send_decoded last keeps sent
    have running : c.send resp before = none := by simpa [send] using same []
    exact ⟨before, attempt, after, final, rfl, by simp [call, running], decoded, ok, rfl, rfl⟩

/-- A call is truthful exactly when it does not give up. -/
theorem truthful_iff [Response Resp] (c : KVClient) (resp : Resp) (value : Resp → String)
    (keyFound : Resp → Bool) (attempts : List (Attempt Resp)) :
    Truthful (c.call resp value keyFound) value keyFound attempts ↔
      ¬(c.assumedLeader < c.addrs.length ∧ gaveUp attempts = true) :=
  ⟨fun truthful gives => not_truthful_of_gaveUp gives.1 resp value keyFound gives.2 truthful,
    truthful_of_kept c resp value keyFound⟩

/-- `Put` and `Get` report a success that no server has reported exactly when they give up: the
error of a failed attempt is replaced by `nil`. -/
theorem reports_success_iff (c : KVClient) (puts : List (Attempt PutResponse))
    (gets : List (Attempt GetResponse)) :
    (Truthful c.put PutResponse.prevValue PutResponse.keyFound puts ↔
      ¬(c.assumedLeader < c.addrs.length ∧ gaveUp puts = true)) ∧
    (Truthful c.get GetResponse.value GetResponse.keyFound gets ↔
      ¬(c.assumedLeader < c.addrs.length ∧ gaveUp gets = true)) :=
  ⟨truthful_iff c ({} : PutResponse) PutResponse.prevValue PutResponse.keyFound puts,
    truthful_iff c ({} : GetResponse) GetResponse.value GetResponse.keyFound gets⟩

/-- The context of a call expires while its first attempt has no answer, and the call reports a
success. -/
theorem put_expired_reports_success :
    (new ["localhost:8080"]).put [⟨.failed, true, true⟩] =
        some (new ["localhost:8080"], "", false, none) ∧
      ¬Truthful (new ["localhost:8080"]).put PutResponse.prevValue PutResponse.keyFound
        [⟨.failed, true, true⟩] := by
  refine ⟨rfl, fun truthful => ?_⟩
  have gaveUp : gaveUp [(⟨.failed, true, true⟩ : Attempt PutResponse)] = true := rfl
  exact not_truthful_of_gaveUp (c := new ["localhost:8080"]) (by decide) ({} : PutResponse)
    PutResponse.prevValue PutResponse.keyFound gaveUp truthful

end KVClient

end RaftInMotion.Client
