/-
This file joins the two ends of the log stream. `WriteLoop` unmarshals every log of a batch and
marshals the batch, with `null` for a log that is not an object; `JSON.parse` makes an array of it,
and `parseLog` refuses the `null`s. What a browser displays or has queued is then what was logged
on the server, in its order, as far as it has been received.
-/

import RaftInMotion.Frontend.Queue
import RaftInMotion.Websocket.Sessions

namespace RaftInMotion.Frontend

open Execution Websocket

variable {Body : Type}

/-! ### Messages -/

section Messages

-- What `json.Unmarshal`, `json.Marshal` and `JSON.parse` make of a log, if it is an object.
variable (unmarshal : List UInt8 → Option (Log Body))

/-- The element of a message that stands for a log. -/
def element (entry : Logger.LogEntry) : RawLog Body :=
  match unmarshal entry.data with
  | some log => .object log
  | none => .other .null

/-- The message for a batch, as `onmessage` receives it. -/
def message (batch : List Logger.LogEntry) : Payload Body :=
  .array (batch.map (element unmarshal))

/-- The log that `parseLog` makes of what is written to the logger. -/
def accept (entry : Logger.LogEntry) : Option (Log Body) :=
  (parseLog (element unmarshal entry)).toOption

theorem accepted_message (batch : List Logger.LogEntry) :
    (message unmarshal batch).accepted = batch.filterMap (accept unmarshal) := by
  simp only [message, Payload.accepted, List.filterMap_map]
  rfl

end Messages

/-! ### What a browser has received -/

/-- The messages since the last `connect` or `clearLogs`. -/
def receive (messages : List (Payload Body)) : Action Body → List (Payload Body)
  | .connect _ | .clearLogs => []
  | .message payload => messages ++ [payload]
  | _ => messages

def received (inputs : List (Action Body)) : List (Payload Body) :=
  inputs.foldl receive []

theorem accepted_foldl (inputs : List (Action Body)) (history : History Body)
    (messages : List (Payload Body)) (same : history.accepted = messages.flatMap Payload.accepted) :
    (inputs.foldl History.record history).accepted =
      (inputs.foldl receive messages).flatMap Payload.accepted := by
  induction inputs generalizing history messages with
  | nil => exact same
  | cons action rest inductionHypothesis =>
    refine inductionHypothesis _ _ ?_
    cases action with
    | message payload => simp [History.record, receive, same]
    | connect constructed => simp [History.record, receive]
    | clearLogs => simp [History.record, receive]
    | _ => exact same

theorem accepted_received (inputs : List (Action Body)) :
    (History.of inputs).accepted = (received inputs).flatMap Payload.accepted :=
  accepted_foldl inputs _ [] rfl

/-! ### From the logger to the screen -/

theorem accepted_messages (unmarshal : List UInt8 → Option (Log Body))
    (batches : List (List Logger.LogEntry)) :
    (batches.map (message unmarshal)).flatMap Payload.accepted =
      batches.flatten.filterMap (accept unmarshal) := by
  induction batches with
  | nil => rfl
  | cons batch rest inductionHypothesis =>
    rw [List.map_cons, List.flatMap_cons, inductionHypothesis, accepted_message,
      List.flatten_cons, List.filterMap_append]

/-- Of all that is written on the server, the browser has a part without gaps; what is missing in
between has been dropped by a full logger. -/
theorem displayed_in_order (unmarshal : List UInt8 → Option (Log Body))
    {actions : List SessionAction} {s : Session}
    (served : execute Session.step Session.new actions = some s) {inputs : List (Action Body)}
    {p : LogsProvider Body} (shown : execute LogsProvider.step LogsProvider.init inputs = some p)
    (delivered : received inputs <:+: s.sent.map (message unmarshal)) :
    (p.logs ++ p.logQueueRef).Sublist
        ((Session.written actions).filterMap (accept unmarshal)) ∧
      (along Session.step (fun s action => !s.overflows action) Session.new actions = true →
        p.logs ++ p.logQueueRef <:+: (Session.written actions).filterMap (accept unmarshal)) := by
  obtain ⟨part, whole⟩ : s.stream.Sublist (Session.written actions) ∧ (_ →
      s.stream = Session.written actions) := Session.served_new.streams served
  have contents : p.logs ++ p.logQueueRef = (received inputs).flatMap Payload.accepted :=
    (LogsProvider.replays_of_run shown).contents.trans (accepted_received inputs)
  have sent : p.logs ++ p.logQueueRef <:+: s.sent.flatten.filterMap (accept unmarshal) := by
    obtain ⟨before, after, split⟩ := delivered
    rw [contents, ← accepted_messages, ← split, List.flatMap_append, List.flatMap_append]
    exact List.infix_append _ _ _
  have front : s.sent.flatten <+: s.stream := by
    unfold Session.stream
    rw [List.append_assoc]
    exact List.prefix_append _ _
  have inStream := sent.trans (front.filterMap (accept unmarshal)).isInfix
  exact ⟨inStream.sublist.trans (part.filterMap _), fun room => whole room ▸ inStream⟩

/-- A log of the election and one that is no object are written and sent, and the first of them is
displayed. -/
def electionLogged : List SessionAction :=
  [.startRead, .read [54], .log [123], .startWrite, .logTick true, .log [123]]

/-- A browser that has received one batch. -/
def electionShown : List (Action Unit) :=
  [.connect true, .opened 0,
    .message (.array [.other .null, .object ⟨some (.string "electionWon"), some (.number 1), ()⟩]),
    .tick 0]

/-- `123` opens an object, and `54` is the number that a browser sends when it connects. -/
def unmarshalObject (data : List UInt8) : Option (Log Unit) :=
  if data = [123] then some ⟨some (.string "electionWon"), some (.number 1), ()⟩ else none

theorem displayed_in_order_election : ∃ (s : Session) (p : LogsProvider Unit),
    execute Session.step Session.new electionLogged = some s ∧
      execute LogsProvider.step LogsProvider.init electionShown = some p ∧ p.logs.length = 1 ∧
        p.logs ++ p.logQueueRef <:+:
          (Session.written electionLogged).filterMap (accept unmarshalObject) := by
  obtain ⟨s, served, batches⟩ := (Option.any_eq_true _ _).mp (by decide +kernel :
    (execute Session.step Session.new electionLogged).any (fun s =>
      decide (received electionShown = s.sent.map (message unmarshalObject))) = true)
  obtain ⟨p, shown, one⟩ := (Option.any_eq_true _ _).mp (by decide +kernel :
    (execute LogsProvider.step LogsProvider.init electionShown).any (fun p =>
      decide (p.logs.length = 1)) = true)
  refine ⟨s, p, served, shown, of_decide_eq_true one, ?_⟩
  exact (displayed_in_order unmarshalObject served shown
    (of_decide_eq_true batches ▸ List.infix_refl _)).2 (by decide +kernel)

end RaftInMotion.Frontend
