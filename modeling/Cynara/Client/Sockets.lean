import Cynara.Protocol.Messages

/-!
# Reconnecting sockets

The asynchronous client and the agent read responses from a socket.  When they connect again,
they clear the queue of the bytes they have read, but not the header of the frame they were
waiting for, which is kept by the protocol.

After a reconnection the responses are the same as those of a new client, unless the header
of a frame had been taken whose body never came.
-/

namespace Cynara

open Str Decoder Receiver ProtocolFrameHeader ProtocolFrameSerializer

/-! ### What is read from a connection -/

/-- What happens on a connection: bytes arrive, or a response is extracted. -/
inductive ReadEvent where
  | receive (bytes : Str)
  | getResponse

namespace Receiver

variable {α : Type} {decode : UInt16 → Decoder ProtocolException α}

/-- The responses and exceptions of a sequence of events; a response that is not complete is
null. -/
def outputs (decode : UInt16 → Decoder ProtocolException α) :
    Receiver → List ReadEvent → List (Except ProtocolException (Option α))
  | _, [] => []
  | r, .receive bytes :: events => outputs decode (r.append bytes) events
  | r, .getResponse :: events =>
      (r.extract decode).1 :: outputs decode (r.extract decode).2 events

/-- The body of the current frame has not been decoded. -/
theorem bodyComplete_extract {r : Receiver} (h : r.header.bodyComplete = false) :
  (r.extract decode).2.header.bodyComplete = false
  := by
  have hstep := extraction decode h
  generalize r.extract decode = result at hstep
  cases hstep with
  | short _ _ => exact h
  | refused _ _ => exact h
  | waiting hdeclares _ => exact hdeclares.bodyComplete
  | decoded _ _ _ => rfl
  | thrown _ _ _ => rfl

/-- Two receivers that are equal, or have the same bytes and no header. -/
def Similar (r r' : Receiver) : Prop :=
  r = r' ∨ r.queue = r'.queue
    ∧ r.header.headerComplete = false ∧ r.header.bodyComplete = false
    ∧ r'.header.headerComplete = false ∧ r'.header.bodyComplete = false

theorem Similar.append {r r' : Receiver} (h : Similar r r') (bytes : Str) :
  Similar (r.append bytes) (r'.append bytes)
  := by
  rcases h with rfl | ⟨hqueue, hflags⟩
  · exact Or.inl rfl
  · refine Or.inr ⟨?_, hflags⟩
    rw [Receiver.append, Receiver.append, hqueue]

theorem Similar.extract (decode : UInt16 → Decoder ProtocolException α) {r r' : Receiver}
    (h : Similar r r') :
  (r.extract decode).1 = (r'.extract decode).1
    ∧ Similar (r.extract decode).2 (r'.extract decode).2
  := by
  rcases h with rfl | ⟨hqueue, hheader, hbody, hheader', hbody'⟩
  · exact ⟨rfl, Or.inl rfl⟩
  · obtain ⟨header, queue⟩ := r
    obtain ⟨header', queue'⟩ := r'
    obtain rfl : queue = queue' := hqueue
    by_cases hshort : queue.length < frameHeaderLength
    · rw [extract_short decode hheader hshort, extract_short decode hheader' hshort]
      exact ⟨rfl, Or.inr ⟨rfl, hheader, hbody, hheader', hbody'⟩⟩
    · have hlong := not_lt.mp hshort
      by_cases hsignature : queue.take signature.length = signature
      · rw [extract_readHeader decode hheader hbody hlong hsignature,
          extract_readHeader decode hheader' hbody' hlong hsignature]
        exact ⟨rfl, Or.inl rfl⟩
      · simp only [Receiver.extract, apply_deserializeHeader hheader hbody hlong,
          apply_deserializeHeader hheader' hbody' hlong, if_neg hsignature]
        exact ⟨trivial, Or.inr ⟨rfl, hheader, hbody, hheader', hbody'⟩⟩

/-- Similar receivers return the same responses. -/
theorem Similar.outputs_eq {r r' : Receiver} (h : Similar r r') (events : List ReadEvent) :
  outputs decode r events = outputs decode r' events
  := by
  induction events generalizing r r' with
  | nil => rfl
  | cons event events ih =>
      cases event with
      | receive bytes => exact ih (h.append bytes)
      | getResponse =>
          obtain ⟨hresult, hnext⟩ := h.extract decode
          rw [outputs, outputs, hresult, ih hnext]

/-- Connecting again clears the queue. -/
def clear (r : Receiver) : Receiver := { r with queue := [] }

/-- A response that a new client reads, and bytes of its frame that are no body. -/
structure Probe (decode : UInt16 → Decoder ProtocolException α) where
  frame : Str
  response : α
  fresh : ((append {} frame).extract decode).1 = .ok (some response)
  stale : ∀ sequenceNumber, ∃ e rest, (decode sequenceNumber).apply frame = (.error e, rest)

/-- A cleared receiver is like a new one exactly when no header has been taken. -/
theorem outputs_clear_iff (probe : Probe decode) {r : Receiver}
    (hbody : r.header.bodyComplete = false) :
  (∀ events, outputs decode r.clear events = outputs decode {} events)
    ↔ r.header.headerComplete = false
  := by
  constructor
  · intro hsame
    by_contra hheader
    rw [Bool.not_eq_false] at hheader
    have hprobe := hsame [.receive probe.frame, .getResponse]
    have hfirst : ((r.clear.append probe.frame).extract decode).1 = .ok (some probe.response) :=
      (List.cons.inj hprobe).1.trans probe.fresh
    have hstep := extraction decode (r := r.clear.append probe.frame) hbody
    have hdeclared : (r.clear.append probe.frame).declared
        = some (r.header.frameLength, probe.frame) := by
      simp [declared, Receiver.append, clear, hheader]
    generalize (r.clear.append probe.frame).extract decode = result at hfirst hstep
    cases hstep with
    | short hnone _ => simp [hdeclared] at hnone
    | refused hnone _ => simp [hdeclared] at hnone
    | waiting _ _ => cases hfirst
    | @decoded h body rest message hdeclares _ happly =>
        obtain rfl : probe.frame = body := by
          have h := hdeclared.symm.trans hdeclares.declared
          exact (Prod.mk.inj (Option.some.inj h)).2
        obtain ⟨e, rest', hthrow⟩ := probe.stale h.sequenceNumber
        rw [hthrow] at happly
        cases happly
    | thrown _ _ _ => cases hfirst
  · intro hheader events
    apply Similar.outputs_eq
    exact Or.inr ⟨rfl, hheader, hbody, rfl, rfl⟩

end Receiver

/-! ### The asynchronous client and the agent -/

/-- `Socket::ConnectionStatus`. -/
inductive ConnectionStatus where
  | ALREADY_CONNECTED
  | CONNECTION_SUCCEEDED
  | CONNECTION_IN_PROGRESS
  | CONNECTION_FAILED
deriving DecidableEq

namespace SocketClientAsync

/-- A new connection starts with an empty receiver. -/
def connect (status : ConnectionStatus) (r : Receiver) : Receiver :=
  if status ≠ .ALREADY_CONNECTED then r.clear else r

/-- A connection that has failed leaves an empty receiver. -/
def completeConnection (status : ConnectionStatus) (r : Receiver) : Receiver :=
  if status = .CONNECTION_FAILED then r.clear else r

/-- A new connection is made at once, or it is completed later. -/
def reconnect (inProgress : Bool) (r : Receiver) : Receiver :=
  if inProgress then
    completeConnection .CONNECTION_SUCCEEDED (connect .CONNECTION_IN_PROGRESS r)
  else connect .CONNECTION_SUCCEEDED r

/-- The states of the client. -/
inductive Reaches : Receiver → Prop where
  | new : Reaches {}
  | connect {r : Receiver} (status : ConnectionStatus) : Reaches r → Reaches (connect status r)
  | completeConnection {r : Receiver} (status : ConnectionStatus) : Reaches r →
      Reaches (completeConnection status r)
  | receiveFromCynara {r : Receiver} (bytes : Str) : Reaches r → Reaches (r.append bytes)
  | getResponse {r : Receiver} : Reaches r → Reaches (r.extract ProtocolClient.deserialize).2

theorem Reaches.bodyComplete {r : Receiver} (h : Reaches r) :
  r.header.bodyComplete = false
  := by
  induction h with
  | new => rfl
  | connect status _ ih =>
      unfold SocketClientAsync.connect
      split_ifs
      · exact ih
      · exact ih
  | completeConnection status _ ih =>
      unfold SocketClientAsync.completeConnection
      split_ifs
      · exact ih
      · exact ih
  | receiveFromCynara bytes _ ih => exact ih
  | getResponse _ ih => exact bodyComplete_extract ih

/-- The answer to a cancellation. -/
def probe : Probe ProtocolClient.deserialize where
  frame := finishSerialization 1 [ProtocolClient.OpCancelResponse]
  response := .cancel 1
  fresh := rfl
  stale _ := ⟨_, _, rfl⟩

end SocketClientAsync

namespace AgentSocketClient

/-- What the client of agents learns when it connects. -/
inductive AgentSocketState where
  | SS_CONNECTED
  | SS_RECONNECTED
  | SS_DISCONNECTED
deriving DecidableEq

/-- The receiver is cleared if there is a new connection. -/
def connect (isConnected : Bool) (status : ConnectionStatus) (r : Receiver) :
    AgentSocketState × Receiver :=
  if isConnected then (.SS_CONNECTED, r)
  else if status = .CONNECTION_SUCCEEDED then (.SS_RECONNECTED, r.clear)
  else (.SS_DISCONNECTED, r)

/-- A new connection is made. -/
def reconnect (r : Receiver) : Receiver := (connect false .CONNECTION_SUCCEEDED r).2

/-- The states of the agent. -/
inductive Reaches : Receiver → Prop where
  | new : Reaches {}
  | connect {r : Receiver} (isConnected : Bool) (status : ConnectionStatus) : Reaches r →
      Reaches (connect isConnected status r).2
  | receiveFromServer {r : Receiver} (bytes : Str) : Reaches r → Reaches (r.append bytes)
  | getResponse {r : Receiver} : Reaches r →
      Reaches (r.extract ProtocolAgent.deserializeResponse).2

theorem Reaches.bodyComplete {r : Receiver} (h : Reaches r) :
  r.header.bodyComplete = false
  := by
  induction h with
  | new => rfl
  | connect isConnected status _ ih =>
      unfold AgentSocketClient.connect
      split_ifs
      · exact ih
      · exact ih
      · exact ih
  | receiveFromServer bytes _ ih => exact ih
  | getResponse _ ih => exact bodyComplete_extract ih

/-- The answer to a registration. -/
def probe : Probe ProtocolAgent.deserializeResponse where
  frame := finishSerialization 1 [ProtocolAgent.OpAgentRegisterResponse, 0, 0]
  response := .register 0 1
  fresh := rfl
  stale _ := ⟨_, _, rfl⟩

end AgentSocketClient

/-- After a reconnection the client and the agent extract what new ones would extract, exactly
when no header had been taken without its body. -/
theorem outputs_reconnected_iff (r : Receiver) (inProgress : Bool) :
  (SocketClientAsync.Reaches r →
      ((∀ events, outputs ProtocolClient.deserialize
            (SocketClientAsync.reconnect inProgress r) events
          = outputs ProtocolClient.deserialize {} events) ↔ r.header.headerComplete = false))
    ∧ (AgentSocketClient.Reaches r →
      ((∀ events, outputs ProtocolAgent.deserializeResponse (AgentSocketClient.reconnect r) events
          = outputs ProtocolAgent.deserializeResponse {} events)
        ↔ r.header.headerComplete = false))
  := by
  constructor
  · intro hr
    cases inProgress with
    | true => exact outputs_clear_iff SocketClientAsync.probe hr.bodyComplete
    | false => exact outputs_clear_iff SocketClientAsync.probe hr.bodyComplete
  · intro hr
    exact outputs_clear_iff AgentSocketClient.probe hr.bodyComplete

/-- The connection is lost in the middle of a header. -/
theorem outputs_reconnected :
  SocketClientAsync.Reaches (append {} (signature.take 3))
    ∧ ∀ events, outputs ProtocolClient.deserialize
        (SocketClientAsync.reconnect true (append {} (signature.take 3))) events
      = outputs ProtocolClient.deserialize {} events
  := by
  have hr : SocketClientAsync.Reaches (append {} (signature.take 3)) := .receiveFromCynara _ .new
  exact ⟨hr, ((outputs_reconnected_iff _ true).1 hr).mpr rfl⟩

/-- The bytes of the header of a response, without its body. -/
def onlyHeader : Str := headerContent 1 [ProtocolClient.OpCancelResponse]

/-- The connection is lost between the header and the body of a response.  The response on the
next connection is refused, where a new client accepts it. -/
theorem outputs_stale :
  SocketClientAsync.Reaches ((append {} onlyHeader).extract ProtocolClient.deserialize).2
    ∧ outputs ProtocolClient.deserialize (SocketClientAsync.reconnect false
          ((append {} onlyHeader).extract ProtocolClient.deserialize).2)
        [.receive SocketClientAsync.probe.frame, .getResponse] = [.error .wrongOpCode]
    ∧ outputs ProtocolClient.deserialize {}
        [.receive SocketClientAsync.probe.frame, .getResponse] = [.ok (some (.cancel 1))]
  := ⟨.getResponse (.receiveFromCynara _ .new), rfl, rfl⟩

end Cynara
