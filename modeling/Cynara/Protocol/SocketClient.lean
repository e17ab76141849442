import Cynara.Library.Runs
import Cynara.Protocol.Messages

/-!
# The synchronous client of a socket

A client sends a request and reads from the socket until a response is complete.  When the
connection is lost before that, it connects again and sends the same request once more.  The
bytes it has read and the header it has taken are kept over such a reconnection, while the bytes
it has not sent are dropped.

A system call may also fail with an exception, which leaves the connection as it is.  What has not
been sent is then sent by the next call, and what has not been read is read by it.

The service answers the requests it has received with one response each, of the same sequence
number, except those of `sendAndForget`.  It may close the connection at any point, and its bytes
may arrive in any pieces.  The run of the client and the service is given by events that say what
the service and the system calls do.

A response is returned for the request it answers, if no bytes have been read when the client
connects again, nothing of an earlier call is left on a connection that is used after an
exception, and the responses fit their frames.
-/

namespace Cynara

open Str Receiver

namespace SocketClient

variable {c : Codec}

/-- What the caller of `askCynaraServer` is doing. -/
inductive Phase (c : Codec) where
  /-- no request is under way -/
  | idle
  /-- the request is about to be sent -/
  | sending (sequenceNumber : UInt16)
  /-- `askCynaraServer` waits for the response -/
  | receiving (sequenceNumber : UInt16)
  /-- `askCynaraServer` has returned null -/
  | disconnected (sequenceNumber : UInt16)
  /-- `askCynaraServer` has returned a response to the request -/
  | answered (sequenceNumber : UInt16) (response : c.Message)

/-- The client and its connection: the bytes that have not been decoded, the numbers of the
requests in the send buffers of the socket, the bytes the service has sent and the client has not
read if there is a connection, and the number of the last request.  The requests of
`sendAndForget` are not recorded, since they are not answered. -/
structure State (c : Codec) where
  receiver : Receiver := {}
  unsent : List UInt16 := []
  link : Option Str := none
  lastNumber : UInt16 := 0
  phase : Phase c := .idle

/-- What becomes of the requests that are to be sent: the connection is lost, all of them are
sent, or an exception is thrown when so many of them have been.  The service answers the first of
those that it receives. -/
inductive Sent (c : Codec) where
  | lost
  | completed (answers : List c.Message)
  | thrown (count : ℕ) (answers : List c.Message)

/-- How `receiveFromServer` ends. -/
inductive ReadEnd where
  | blocked
  | closed
  | thrown

/-- What happens next. -/
inductive Event (c : Codec) where
  /-- `connect`, before a request or after a connection has been lost -/
  | connect (accepted : Bool)
  /-- `askCynaraServer` is called with a new request -/
  | request (sequenceNumber : UInt16)
  | send (sent : Sent c)
  /-- bytes are read, and then there are no more -/
  | receive (bytes : Str) (ending : ReadEnd)
  | sendAndForget (sent : Sent c)

/-- A new connection starts with no bytes of the service and empty send buffers; the bytes read
before stay. -/
def connect (σ : State c) (next : Phase c) (accepted : Bool) : State c :=
  if accepted then { σ with unsent := [], link := some [], phase := next }
  else { σ with unsent := [], link := none, phase := .idle }

/-- The bytes of the answers to the first of some requests. -/
def respond (requests : List UInt16) (answers : List c.Message) : Option Str :=
  if (answers.map c.sequenceNumber).isPrefixOf requests then (c.frames answers).toOption else none

/-- `sendToServer`: requests are sent, and the service puts its answers on the connection.  If an
exception is thrown, the last bytes have not been sent, which are those of the present call. -/
def sendToServer (σ : State c) (requests : List UInt16) (unread : Str) :
    Sent c → Option (State c)
  | .lost => some { σ with unsent := requests }
  | .completed answers =>
      (respond requests answers).map fun bytes =>
        { σ with unsent := [], link := some (unread ++ bytes) }
  | .thrown count answers =>
      if count ≤ σ.unsent.length then
        (respond (requests.take count) answers).map fun bytes =>
          { σ with unsent := requests.drop count, link := some (unread ++ bytes) }
      else none

/-- How `askCynaraServer` goes on after it has sent its request. -/
def Sent.next (sequenceNumber : UInt16) : Sent c → Phase c
  | .lost => .disconnected sequenceNumber
  | .completed _ => .receiving sequenceNumber
  | .thrown _ _ => .idle

/-- One turn of the loop of `askCynaraServer`: after a closed connection or an exception nothing
is decoded. -/
def receive (σ : State c) (sequenceNumber : UInt16) (unread bytes : Str) (ending : ReadEnd) :
    Option (State c) :=
  if bytes.isPrefixOf unread then
    let receiver := σ.receiver.append bytes
    let link := some (unread.drop bytes.length)
    match ending with
    | .closed =>
        some { σ with receiver := receiver, link := link, phase := .disconnected sequenceNumber }
    | .thrown => some { σ with receiver := receiver, link := link, phase := .idle }
    | .blocked =>
        match receiver.extract c.deserialize with
        | (.ok none, receiver) =>
            some { σ with receiver := receiver, link := link, phase := .receiving sequenceNumber }
        | (.ok (some response), receiver) =>
            some
              { σ with
                receiver := receiver, link := link, phase := .answered sequenceNumber response }
        | (.error _, receiver) =>
            some { σ with receiver := receiver, link := link, phase := .idle }
  else none

/-- A new request can be made when none is under way. -/
def Phase.isFree : Phase c → Bool
  | idle => true
  | answered _ _ => true
  | _ => false

/-- The state after an event, if the event can happen. -/
def step (σ : State c) : Event c → Option (State c)
  | .connect accepted =>
      match σ.phase with
      | .idle | .answered _ _ => some (connect σ .idle accepted)
      | .disconnected sequenceNumber => some (connect σ (.sending sequenceNumber) accepted)
      | _ => none
  | .request sequenceNumber =>
      -- the numbers of successive requests differ
      if σ.phase.isFree && sequenceNumber != σ.lastNumber && σ.link.isSome then
        some { σ with lastNumber := sequenceNumber, phase := .sending sequenceNumber }
      else none
  | .send sent =>
      match σ.phase, σ.link with
      | .sending sequenceNumber, some unread =>
          (sendToServer σ (σ.unsent ++ [sequenceNumber]) unread sent).map fun σ =>
            { σ with phase := sent.next sequenceNumber }
      | _, _ => none
  | .receive bytes ending =>
      match σ.phase, σ.link with
      | .receiving sequenceNumber, some unread => receive σ sequenceNumber unread bytes ending
      | _, _ => none
  | .sendAndForget sent =>
      match σ.phase.isFree, σ.link with
      | true, some unread => sendToServer σ σ.unsent unread sent
      | _, _ => none

/-! ### Runs without leftovers -/

/-- Nothing of an earlier call is left: all that was read has been decoded, the send buffers are
empty, and there are no bytes of the service on the connection. -/
structure Quiet (σ : State c) : Prop where
  receiver : σ.receiver.Idle
  unsent : σ.unsent = []
  link : σ.link = some []

/-- The responses the service gives to what is sent. -/
def Sent.answers : Sent c → List c.Message
  | .lost => []
  | .completed answers => answers
  | .thrown _ answers => answers

/-- The condition on an event.  The client connects with nothing left of what it has read.  A call
that has not returned a response leaves nothing on the connection, if this is used again.  And
the responses fit their frames. -/
def Harmless (σ : State c) : Event c → Prop
  | .connect _ => σ.receiver.Idle
  | .request _ =>
      (∃ sequenceNumber response, σ.phase = .answered sequenceNumber response) ∨ Quiet σ
  | .send sent | .sendAndForget sent => ∀ response ∈ sent.answers, c.Fits response
  | .receive _ _ => True

/-- At most one response is on its way, to the present request: some of its bytes have been read,
and some have not. -/
structure Underway (σ : State c) (sequenceNumber : UInt16) (responses : List c.Message)
    (received unread : Str) : Prop where
  fits : ∀ response ∈ responses, c.Fits response
  numbers : responses.map c.sequenceNumber <+: [sequenceNumber]
  unsent : σ.unsent = []
  link : σ.link = some unread
  frames : c.frames responses = .ok (received ++ unread)
  expects : c.Expects responses received σ.receiver

/-- The invariant of runs in which all events are harmless. -/
def Invariant (σ : State c) : Prop :=
  match σ.phase with
  | .idle | .disconnected _ => True
  | .sending _ => Quiet σ
  | .receiving sequenceNumber =>
      ∃ responses received unread, Underway σ sequenceNumber responses received unread
  | .answered sequenceNumber response => Quiet σ ∧ c.sequenceNumber response = sequenceNumber

/-- The service answers some of the first requests, in their order. -/
theorem respond_eq_some {requests : List UInt16} {answers : List c.Message} {bytes : Str}
    (h : respond requests answers = some bytes) :
  answers.map c.sequenceNumber <+: requests ∧ c.frames answers = .ok bytes
  := by
  obtain ⟨hnumbers, hframes⟩ := Option.ite_none_right_eq_some.mp h
  refine ⟨List.isPrefixOf_iff_prefix.mp hnumbers, ?_⟩
  cases hresult : c.frames answers with
  | error e =>
      rw [hresult] at hframes
      cases hframes
  | ok stream =>
      rw [hresult] at hframes
      exact congrArg Except.ok (Option.some.inj hframes)

theorem phase_sendToServer {σ σ' : State c} {requests : List UInt16} {unread : Str} {sent : Sent c}
    (h : sendToServer σ requests unread sent = some σ') :
  σ'.phase = σ.phase
  := by
  cases sent with
  | lost =>
      obtain rfl := Option.some.inj h
      rfl
  | completed answers =>
      obtain ⟨bytes, -, rfl⟩ := Option.map_eq_some_iff.mp h
      rfl
  | thrown count answers =>
      obtain ⟨-, h⟩ := Option.ite_none_right_eq_some.mp h
      obtain ⟨bytes, -, rfl⟩ := Option.map_eq_some_iff.mp h
      rfl

/-- A request is sent when nothing is left of the previous ones. -/
theorem Quiet.send {σ σ' : State c} {sequenceNumber : UInt16} {unread : Str} {sent : Sent c}
    (h : Quiet σ) (hlink : σ.link = some unread)
    (hfits : ∀ response ∈ sent.answers, c.Fits response)
    (hsent : sendToServer σ (σ.unsent ++ [sequenceNumber]) unread sent = some σ') :
  Invariant { σ' with phase := sent.next sequenceNumber }
  := by
  obtain rfl := Option.some.inj (hlink.symm.trans h.link)
  rw [h.unsent, List.nil_append] at hsent
  cases sent with
  | lost => trivial
  | thrown count answers => trivial
  | completed answers =>
      obtain ⟨bytes, hbytes, rfl⟩ := Option.map_eq_some_iff.mp hsent
      obtain ⟨hnumbers, hframes⟩ := respond_eq_some hbytes
      exact ⟨answers, [], bytes, hfits, hnumbers, rfl, rfl, hframes,
        Codec.expects_of_idle hfits h.receiver⟩

/-- A request that is not answered leaves nothing on the connection. -/
theorem Quiet.sendAndForget {σ σ' : State c} {unread : Str} {sent : Sent c} (h : Quiet σ)
    (hlink : σ.link = some unread) (hsent : sendToServer σ σ.unsent unread sent = some σ') :
  Quiet σ'
  := by
  have hnone : ∀ {answers : List c.Message} {bytes}, respond [] answers = some bytes →
      bytes = [] := by
    intro answers bytes hbytes
    obtain ⟨hnumbers, hframes⟩ := respond_eq_some hbytes
    obtain rfl := List.map_eq_nil_iff.mp (List.prefix_nil.mp hnumbers)
    exact (Except.ok.inj hframes).symm
  obtain rfl := Option.some.inj (hlink.symm.trans h.link)
  rw [h.unsent] at hsent
  cases sent with
  | lost =>
      obtain rfl := Option.some.inj hsent
      exact ⟨h.receiver, rfl, h.link⟩
  | completed answers =>
      obtain ⟨bytes, hbytes, rfl⟩ := Option.map_eq_some_iff.mp hsent
      obtain rfl := hnone hbytes
      exact ⟨h.receiver, rfl, rfl⟩
  | thrown count answers =>
      obtain ⟨-, hsent⟩ := Option.ite_none_right_eq_some.mp hsent
      obtain ⟨bytes, hbytes, rfl⟩ := Option.map_eq_some_iff.mp hsent
      rw [List.take_nil] at hbytes
      obtain rfl := hnone hbytes
      exact ⟨h.receiver, List.drop_nil, rfl⟩

/-- Bytes of the response are read; with the last of them the response is returned. -/
theorem Underway.receive {σ σ' : State c} {sequenceNumber : UInt16} {responses : List c.Message}
    {received unread bytes : Str} {ending : ReadEnd}
    (h : Underway σ sequenceNumber responses received unread)
    (hstep : receive σ sequenceNumber unread bytes ending = some σ') :
  Invariant σ'
  := by
  obtain ⟨hbytes, hstep⟩ := Option.ite_none_right_eq_some.mp hstep
  obtain ⟨missing, rfl⟩ := List.isPrefixOf_iff_prefix.mp hbytes
  rw [List.drop_left] at hstep
  have hframes := h.frames
  rw [← List.append_assoc] at hframes
  cases ending with
  | closed =>
      obtain rfl := Option.some.inj hstep
      trivial
  | thrown =>
      obtain rfl := Option.some.inj hstep
      trivial
  | blocked =>
      obtain ⟨receiver, hextract, hexpects⟩ | ⟨response, rest, queue, receiver, rfl, hextract,
        hidle, hrest⟩ := Codec.extract_expects h.fits h.expects hframes
      · simp only [hextract] at hstep
        obtain rfl := Option.some.inj hstep
        exact ⟨responses, received ++ bytes, missing, h.fits, h.numbers, h.unsent, rfl, hframes,
          hexpects⟩
      · -- there is only one response, so nothing follows its last byte
        obtain ⟨hnumber, hnumbers⟩ := List.cons_prefix_cons.mp h.numbers
        obtain rfl := List.map_eq_nil_iff.mp (List.prefix_nil.mp hnumbers)
        have hnil := Except.ok.inj hrest
        rw [eq_comm, List.append_eq_nil_iff] at hnil
        obtain ⟨rfl, rfl⟩ := hnil
        simp only [hextract] at hstep
        obtain rfl := Option.some.inj hstep
        refine ⟨⟨⟨hidle.headerComplete, hidle.bodyComplete, ?_⟩, h.unsent, rfl⟩, hnumber⟩
        rw [Receiver.append, hidle.queue, List.append_nil]

/-- Harmless events keep the invariant. -/
theorem Invariant.step {σ σ' : State c} {event : Event c} (h : Invariant σ)
    (hevent : Harmless σ event) (hstep : step σ event = some σ') :
  Invariant σ'
  := by
  obtain ⟨receiver, unsent, link, lastNumber, phase⟩ := σ
  cases event with
  | connect accepted =>
      cases phase with
      | idle | answered sequenceNumber response =>
          obtain rfl := Option.some.inj hstep
          cases accepted <;> trivial
      | disconnected sequenceNumber =>
          obtain rfl := Option.some.inj hstep
          cases accepted with
          | false => trivial
          | true => exact ⟨hevent, rfl, rfl⟩
      | sending sequenceNumber | receiving sequenceNumber => cases hstep
  | request sequenceNumber =>
      obtain ⟨-, hstep⟩ := Option.ite_none_right_eq_some.mp hstep
      obtain rfl := Option.some.inj hstep
      obtain ⟨sequenceNumber', response, rfl⟩ | hquiet := hevent
      · exact ⟨h.1.receiver, h.1.unsent, h.1.link⟩
      · exact ⟨hquiet.receiver, hquiet.unsent, hquiet.link⟩
  | send sent =>
      simp only [SocketClient.step] at hstep
      split at hstep
      · obtain ⟨σ', hsent, rfl⟩ := Option.map_eq_some_iff.mp hstep
        exact Quiet.send h rfl hevent hsent
      · cases hstep
  | receive bytes ending =>
      simp only [SocketClient.step] at hstep
      split at hstep
      · obtain ⟨responses, received, unread, hunderway⟩ := h
        obtain rfl := Option.some.inj hunderway.link
        exact hunderway.receive hstep
      · cases hstep
  | sendAndForget sent =>
      simp only [SocketClient.step] at hstep
      split at hstep
      · rename_i hfree
        rw [Invariant, phase_sendToServer hstep]
        cases phase with
        | idle => trivial
        | answered sequenceNumber response => exact ⟨h.1.sendAndForget rfl hstep, h.2⟩
        | _ => cases hfree
      · cases hstep

/-- The response to the second request. -/
def allowed : ProtocolClient.responseCodec.Message := .check ⟨PredefinedPolicyType.ALLOW, []⟩ 2

end SocketClient

end Cynara
