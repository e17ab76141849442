import Cynara.Admin.Interface
import Cynara.Client.Sockets
import Cynara.Library.Outcome
import Cynara.Library.Runs
import Cynara.Protocol.Framing
import Cynara.Sockets.SocketManager

/-!
# The connections of the service

The service reads from its connections whatever bytes have arrived, in whatever pieces, appends
them to the queue of the descriptor and executes the requests that can be extracted.  The execution
of a request may queue responses for this connection and for others, and may close all connections
of clients.  A descriptor that has been closed is used again for the next connection that gets its
number.  `select` may have reported a socket as ready that is closed before its turn comes.

What the logic does with a request is a parameter.  It refers to a connection through weak pointers
to the objects of the descriptor, so a response for a connection that is closed goes nowhere, even
if there is another connection with the same number.

From outside, each connection is a pair of queues of messages, as the models of the logic assume:
the requests of a peer are executed in the order in which they were sent, each as soon as it has
been read, and the bytes that are written are the frames of the responses in their order.
-/

namespace Cynara

open Std Str Decoder Layout Receiver ProtocolDeserialization ProtocolFrameHeader

namespace Endpoint

/-- A message of one of the protocols. -/
abbrev Message (direction : Direction) : Type := (p : Protocol) × (p.codec direction).Message

/-- A descriptor, together with what is needed for reading.  The header of the frame that is being
received is kept by the protocol. -/
structure Connection extends Descriptor where
  listen : Bool := false
  client : Bool := false
  protocol : Option Protocol := none
  receiver : Receiver := {}

/-- A connection, as weak pointers refer to it: connections that have the same number one after
the other are told apart. -/
structure Link where
  fd : ℕ
  generation : ℕ
deriving DecidableEq

/-- What has happened on a connection: the bytes that were read, the requests that were executed,
the responses that were queued, and their bytes. -/
structure Record where
  generation : ℕ := 0
  received : Str := []
  executed : List (Message .request) := []
  responses : List (Message .response) := []
  output : Ledger UInt8 := {}

/-- What the logic does when it executes a request. -/
inductive Action where
  | respond (link : Link) (response : Message .response)
  | disconnectAllClients

/-- What the execution of a request comes to. -/
structure Execution (L : Type) where
  logic : L
  actions : List Action
  thrown : Bool

/-- The logic.  Only requests of other protocols than that of clients close the connections of
clients. -/
structure RequestTaker (L : Type) where
  execute : Link → Message .request → L → Execution L
  contextClosed : Link → L → L × List (Link × Message .response)
  closes : ∀ link request logic,
    .disconnectAllClients ∈ (execute link request logic).actions → request.1 ≠ .client

/-- The state of the service. -/
structure State (L : Type) where
  maxDesc : ℤ := -1
  fds : ℕ → Connection := fun _ => {}
  record : ℕ → Record := fun _ => {}
  logic : L

/-- What a call of `read` or `accept` comes to. -/
inductive ReadResult where
  | accepted (clientFd : ℕ)
  | data (bytes : Str)
  | blocked
  | failed
  | closed

/-- What must not happen: a request is extracted by a descriptor without a protocol, or the loop
that extracts requests does not end. -/
inductive Fault where
  | nullPointer
  | endless

section

variable {L : Type}

namespace State

/-- The present connection with this number. -/
def link (σ : State L) (fd : ℕ) : Link := ⟨fd, (σ.record fd).generation⟩

/-- A connection and its record are replaced. -/
def update (σ : State L) (fd : ℕ) (c : Connection) (r : Record) : State L :=
  { σ with fds := Function.update σ.fds fd c, record := Function.update σ.record fd r }

/-- `Descriptor::clear`, after which the number may be given to another connection. -/
def clear (σ : State L) (fd : ℕ) : State L :=
  σ.update fd {} { generation := (σ.record fd).generation + 1 }

/-- Bytes of a response are appended to the queue of a connection. -/
def queue (σ : State L) (fd : ℕ) (response : Message .response) (bytes : Str) : State L :=
  let c := σ.fds fd
  let r := σ.record fd
  σ.update fd { c with toDescriptor := c.toDescriptor.append bytes }
    { r with responses := r.responses ++ [response], output := r.output.queue bytes }

/-- The receiver of a connection is replaced. -/
def setReceiver (σ : State L) (fd : ℕ) (receiver : Receiver) : State L :=
  σ.update fd { σ.fds fd with receiver := receiver } (σ.record fd)

/-- `pushReadBuffer` -/
def push (σ : State L) (fd : ℕ) (bytes : Str) : State L :=
  let c := σ.fds fd
  let r := σ.record fd
  σ.update fd { c with receiver := c.receiver.append bytes }
    { r with received := r.received ++ bytes }

/-- `createDescriptor`, with the properties that are set next; the protocol is a new object. -/
def createDescriptor (σ : State L) (fd : ℕ) (client listen : Bool) (protocol : Option Protocol) :
    State L :=
  let c := σ.fds fd
  let receiver := { c.receiver with header := {} }
  { σ.update fd { c with used := true, client, listen, protocol, receiver } (σ.record fd) with
    maxDesc := if fd > σ.maxDesc then fd else σ.maxDesc }

/-- `prepareWriteBuffer` -/
def prepare (σ : State L) (fd : ℕ) : State L :=
  let c := σ.fds fd
  σ.update fd { c with toDescriptor := c.toDescriptor.prepareWriteBuffer } (σ.record fd)

/-- Bytes that have been written are erased from the buffer. -/
def erase (σ : State L) (fd count : ℕ) : State L :=
  let c := σ.fds fd
  let r := σ.record fd
  σ.update fd { c with toDescriptor := c.toDescriptor.erase count }
    { r with output := r.output.hand (c.writeBuffer.take count) }

/-- The descriptors up to the highest one. -/
def descriptors (σ : State L) : List ℕ := List.range (σ.maxDesc + 1).toNat

end State

/-- `RequestContext::returnResponse`: a response goes to the queue of its connection, unless the
connection is closed.  The protocol refuses strings that are too long and responses that are not
its own. -/
def respond (link : Link) (response : Message .response) (σ : State L) : Outcome Unit (State L) :=
  if (σ.fds link.fd).used ∧ σ.link link.fd = link then
    if (σ.fds link.fd).protocol = some response.1 then
      match (response.1.codec .response).frame response.2 with
      | .ok bytes => .returned (σ.queue link.fd response bytes)
      | .error _ => .threw () σ
    else .threw () σ
  else .returned σ

variable (taker : RequestTaker L)

/-- The logic is told first, and what it throws leaves the descriptor as it is. -/
def closeSocket (fd : ℕ) (σ : State L) : Outcome Unit (State L) :=
  let closed := taker.contextClosed (σ.link fd) σ.logic
  (Outcome.forEach (fun σ r => respond r.1 r.2 σ) closed.2 { σ with logic := closed.1 }).andThen
    fun σ => .returned (σ.clear fd)

/-- `SocketManager::disconnectAllClients`; the sockets that listen stay open. -/
def disconnectAllClients (σ : State L) : Outcome Unit (State L) :=
  Outcome.forEach (fun σ i =>
    if (σ.fds i).used && (σ.fds i).client && !(σ.fds i).listen then closeSocket taker i σ
    else .returned σ) σ.descriptors σ

/-- The logic answers, or closes the connections of the clients. -/
def act (σ : State L) : Action → Outcome Unit (State L)
  | .respond link response => respond link response σ
  | .disconnectAllClients => disconnectAllClients taker σ

/-- A request is passed to the logic. -/
def execute (fd : ℕ) (request : Message .request) (σ : State L) : Outcome Unit (State L) :=
  let e := taker.execute (σ.link fd) request σ.logic
  let r := σ.record fd
  let σ := σ.update fd (σ.fds fd) { r with executed := r.executed ++ [request] }
  (Outcome.forEach (act taker) e.actions { σ with logic := e.logic }).andThen fun σ =>
    .raise (if e.thrown then some () else none) σ

/-- The loop of `handleRead`. -/
def handleLoop (fd : ℕ) : ℕ → State L → Except Fault (Outcome Unit (State L))
  | 0, _ => .error .endless
  | fuel + 1, σ =>
      match (σ.fds fd).protocol with
      | none => .error .nullPointer
      | some p =>
          match (σ.fds fd).receiver.extract (p.codec .request).deserialize with
          | (.error _, r) => .ok (.threw () (σ.setReceiver fd r))
          | (.ok none, r) => .ok (.returned (σ.setReceiver fd r))
          | (.ok (some request), r) =>
              let o := execute taker fd ⟨p, request⟩ (σ.setReceiver fd r)
              match o.thrown with
              | none => handleLoop fd fuel o.state
              | some _ => .ok o

/-- The number of passes is bounded by the number of bytes. -/
def handleRead (fd : ℕ) (bytes : Str) (σ : State L) : Except Fault (Outcome Unit (State L)) :=
  let σ := σ.push fd bytes
  handleLoop taker fd ((σ.fds fd).receiver.queue.length + 1) σ

/-- A connection is accepted; the kernel gives it a number that is not in use. -/
def readyForAccept (fd : ℕ) (result : ReadResult) (σ : State L) : State L :=
  match result with
  | .accepted clientFd =>
      if (σ.fds clientFd).used then σ
      else σ.createDescriptor clientFd (σ.fds fd).client false (σ.fds fd).protocol
  | _ => σ

/-- Reading from a socket that is closed fails. -/
def readyForRead (fd : ℕ) (result : ReadResult) (σ : State L) :
    Except Fault (Outcome Unit (State L)) :=
  if (σ.fds fd).listen then .ok (.returned (readyForAccept fd result σ))
  else
    match if (σ.fds fd).used then result else .failed with
    | .data bytes =>
        match handleRead taker fd bytes σ with
        | .error fault => .error fault
        | .ok o =>
            match o.thrown with
            | none => .ok o
            | some _ => .ok (closeSocket taker fd o.state)
    | .failed | .closed => .ok (closeSocket taker fd σ)
    | .accepted _ | .blocked => .ok (.returned σ)

/-- Writing to a socket that is closed fails. -/
def readyForWrite (fd : ℕ) (result : WriteResult) (σ : State L) : Outcome Unit (State L) :=
  match if (σ.fds fd).used then result else .failed with
  | .blocked => .returned (σ.prepare fd)
  | .failed => closeSocket taker fd (σ.prepare fd)
  | .written count => .returned ((σ.prepare fd).erase fd count)

/-! ### The main loop -/

/-- The calls of the main loop; which sockets are ready, and in which order, is up to `select`. -/
inductive Event where
  | read (fd : ℕ) (result : ReadResult)
  | write (fd : ℕ) (result : WriteResult)

/-- An exception that escapes ends the service. -/
def proceed (o : Outcome Unit (State L)) : Option (State L) :=
  match o.thrown with
  | none => some o.state
  | some _ => none

/-- A socket is ready for reading or for writing. -/
def step (σ : State L) : Event → Option (State L)
  | .read fd result =>
      match readyForRead taker fd result σ with
      | .ok o => proceed o
      | .error _ => none
  | .write fd result => proceed (readyForWrite taker fd result σ)

/-- The sockets that are made before the main loop, with their protocols. -/
def init (logic : L) (listeners : List (ℕ × Protocol)) : State L :=
  listeners.foldl (fun σ l => σ.createDescriptor l.1 (l.2 = .client) true (some l.2))
    { logic := logic }

end

/-! ### A pair of queues -/

/-- What holds of a connection, whatever its peer has sent in the form of frames: the requests
whose frames have been read completely have been executed, in their order and no others; and the
bytes that have been written and those that are kept are the frames of the responses. -/
structure Fifo (p : Protocol) (c : Connection) (r : Record) : Prop where
  input : ∀ messages stream, (∀ message ∈ messages, (p.codec .request).Fits message) →
    (p.codec .request).frames messages = .ok stream → r.received <+: stream →
    ∃ done rest begun part, messages = done ++ rest ∧ r.executed = done.map (Sigma.mk p)
      ∧ (p.codec .request).frames done = .ok begun ∧ r.received = begun ++ part
      ∧ (rest = [] → part = [])
      ∧ ∀ next, rest.head? = some next →
        ∃ frame, (p.codec .request).frame next = .ok frame ∧ part <+: frame ∧ part ≠ frame
  output : ∃ responses, r.responses = responses.map (Sigma.mk p)
    ∧ (p.codec .response).frames responses = .ok (r.output.handed ++ c.kept)

/-! ### Requests take bytes -/

theorem iterate_skip (n : ℕ) (bytes : Str) :
  iterate (Layout.skip 1).rest n bytes = dropFirst n bytes
  := by
  induction n generalizing bytes with
  | zero => rfl
  | succ n ih =>
      cases bytes with
      | nil => rfl
      | cons b bytes =>
          have hfirst : (Layout.skip 1).rest (b :: bytes) = some bytes := rfl
          rw [iterate, hfirst, Option.bind_some, ih]
          simp [dropFirst]

theorem follows_vector :
  deserializeVector.Follows (.sized 4 maxVectorSize)
  := by
  intro bytes
  rw [deserializeVector, remaining_bind (g := fun more =>
      if fromLittleEndian (bytes.take 4) > maxVectorSize then none
      else dropFirst (fromLittleEndian (bytes.take 4)) more), follows_nat]
  · rfl
  · intro length more hlength
    rw [← (eq_of_apply_deserializeNat hlength).1]
    split
    · rfl
    · rw [remaining_times follows_uint8, iterate_skip]

/-- What follows the first byte of a request of an agent. -/
def agentLayout (opCode : UInt8) : Option Layout :=
  if opCode = ProtocolAgent.OpAgentActionRequest then
    some ((Layout.skip 1).seq (.sized 4 maxVectorSize))
  else if opCode = ProtocolAgent.OpAgentRegisterRequest then some stringLayout
  else none

/-- What follows the first byte of a request for entries of the monitor. -/
def monitorLayout (opCode : UInt8) : Option Layout :=
  if opCode = ProtocolMonitorGet.OpMonitorGetEntriesRequest then some (.skip 8)
  else if opCode = ProtocolMonitorGet.OpMonitorGetFlushRequest then some (.skip 0)
  else none

/-- The layouts of the requests of all protocols. -/
def requestLayout : (p : Protocol) → BodyLayout (p.codec .request)
  | .client => ProtocolClient.bodyLayout
  | .admin => ProtocolAdmin.bodyLayout
  | .agent =>
      { layout := agentLayout
        follows := by
          intro sequenceNumber
          apply remaining_switch
          intro opCode bytes
          unfold agentLayout
          split_ifs
          · apply Follows.bind follows_uint8
            intro requestType
            apply Follows.map _ follows_vector
          · apply Follows.map _ follows_string
          · rfl }
  | .monitorGet =>
      { layout := monitorLayout
        follows := by
          intro sequenceNumber
          apply remaining_switch
          intro opCode bytes
          unfold monitorLayout
          split_ifs
          · apply Follows.map
            apply Follows.map
            apply follows_nat
          · apply follows_pure
          · rfl }

/-- A request takes at least one byte. -/
theorem length_lt_of_apply {p : Protocol} {sequenceNumber : UInt16} {body rest : Str}
    {request : (p.codec .request).Message}
    (h : ((p.codec .request).deserialize sequenceNumber).apply body = (.ok request, rest)) :
  rest.length < body.length
  := by
  have hrest := (requestLayout p).follows sequenceNumber body
  rw [remaining, h] at hrest
  cases body with
  | nil => cases hrest
  | cons opCode bytes =>
      obtain ⟨layout, -, hmore⟩ := Option.bind_eq_some_iff.mp hrest.symm
      exact Nat.lt_succ_of_le (length_le_of_rest hmore)

/-- A request that is extracted makes the queue shorter. -/
theorem length_lt_of_extract {p : Protocol} {r r' : Receiver}
    {request : (p.codec .request).Message} (hbody : r.header.bodyComplete = false)
    (h : r.extract (p.codec .request).deserialize = (.ok (some request), r')) :
  r'.queue.length < r.queue.length ∧ r'.header.bodyComplete = false
  := by
  have hstep := extraction (p.codec .request).deserialize hbody
  rw [h] at hstep
  cases hstep with
  | @decoded header body rest _ hdeclares _ happly =>
      refine ⟨?_, rfl⟩
      have hlt := length_lt_of_apply happly
      have hlength := hdeclares.length
      simp only
      omega

/-- With more fuel the same is extracted. -/
theorem extractAll_mono {α : Type} {decode : UInt16 → Decoder ProtocolException α}
    {fuel fuel' : ℕ} (hle : fuel ≤ fuel') {r : Receiver} {e : Extracted α}
    (h : extractAll decode fuel r = some e) :
  extractAll decode fuel' r = some e
  := by
  induction fuel generalizing fuel' r e with
  | zero => cases h
  | succ fuel ih =>
      obtain ⟨fuel', rfl⟩ := Nat.exists_eq_add_one_of_ne_zero (show fuel' ≠ 0 by omega)
      unfold extractAll at h ⊢
      split at h
      · exact h
      · obtain ⟨e', he', rfl⟩ := Option.map_eq_some_iff.mp h
        rw [ih (by omega) he']
        rfl
      · exact h

/-! ### What the others leave -/

section

variable {L : Type} {taker : RequestTaker L} {σ σ' σ'' : State L} {fd : ℕ}

/-- Nothing has been read from a connection or executed for it, and it is still the same. -/
structure Untouched (σ σ' : State L) (fd : ℕ) : Prop where
  used : (σ'.fds fd).used = (σ.fds fd).used
  listen : (σ'.fds fd).listen = (σ.fds fd).listen
  client : (σ'.fds fd).client = (σ.fds fd).client
  protocol : (σ'.fds fd).protocol = (σ.fds fd).protocol
  receiver : (σ'.fds fd).receiver = (σ.fds fd).receiver
  generation : (σ'.record fd).generation = (σ.record fd).generation
  received : (σ'.record fd).received = (σ.record fd).received
  executed : (σ'.record fd).executed = (σ.record fd).executed

theorem untouched_of_eq (hfds : σ'.fds fd = σ.fds fd) (hrecord : σ'.record fd = σ.record fd) :
  Untouched σ σ' fd
  := by
  constructor
  all_goals
    first
      | rw [hfds]
      | rw [hrecord]

theorem Untouched.trans (h : Untouched σ σ' fd) (h' : Untouched σ' σ'' fd) :
  Untouched σ σ'' fd
  where
  used := h'.used.trans h.used
  listen := h'.listen.trans h.listen
  client := h'.client.trans h.client
  protocol := h'.protocol.trans h.protocol
  receiver := h'.receiver.trans h.receiver
  generation := h'.generation.trans h.generation
  received := h'.received.trans h.received
  executed := h'.executed.trans h.executed

theorem untouched_update {i : ℕ} (h : i ≠ fd) (c : Connection) (r : Record) :
  Untouched σ (σ.update i c r) fd
  := by
  apply untouched_of_eq
  · exact Function.update_of_ne (Ne.symm h) c σ.fds
  · exact Function.update_of_ne (Ne.symm h) r σ.record

theorem untouched_queue (i : ℕ) (response : Message .response) (bytes : Str) :
  Untouched σ (σ.queue i response bytes) fd
  := by
  by_cases h : i = fd
  · subst h
    constructor
    all_goals simp only [State.queue, State.update, Function.update_self]
    rfl
  · exact untouched_update h _ _

theorem untouched_respond (link : Link) (response : Message .response) :
  Untouched σ (respond link response σ).state fd
  := by
  unfold respond
  split
  · split
    · split
      · apply untouched_queue
      · exact untouched_of_eq rfl rfl
    · exact untouched_of_eq rfl rfl
  · exact untouched_of_eq rfl rfl

theorem untouched_closeSocket {i : ℕ} (h : i ≠ fd) :
  Untouched σ (closeSocket taker i σ).state fd
  := by
  apply Outcome.andThen_state (P := fun σ' => Untouched σ σ' fd)
  · apply Outcome.forEach_state (P := fun σ' => Untouched σ σ' fd)
    · exact untouched_of_eq rfl rfl
    · intro σ' r _ hσ'
      exact hσ'.trans (untouched_respond r.1 r.2)
  · intro σ' hσ'
    exact hσ'.trans (untouched_update h _ _)

/-- Only clients are disconnected. -/
theorem untouched_disconnectAllClients (h : (σ.fds fd).client = false) :
  Untouched σ (disconnectAllClients taker σ).state fd
  := by
  apply Outcome.forEach_state (P := fun σ' => Untouched σ σ' fd)
  · exact untouched_of_eq rfl rfl
  · intro σ' i _ hσ'
    split
    · rename_i hclient
      have hne : i ≠ fd := by
        rintro rfl
        rw [hσ'.client, h] at hclient
        simp at hclient
      exact hσ'.trans (untouched_closeSocket hne)
    · exact hσ'

/-- The execution of a request does not close its own connection. -/
theorem untouched_execute {request : Message .request}
    (hclient : (σ.fds fd).client = true → request.1 = .client) :
  Untouched (σ.update fd (σ.fds fd)
      { σ.record fd with executed := (σ.record fd).executed ++ [request] })
    (execute taker fd request σ).state fd
  := by
  apply Outcome.andThen_state (P := fun σ' => Untouched _ σ' fd)
  · apply Outcome.forEach_state (P := fun σ' => Untouched _ σ' fd)
    · exact untouched_of_eq rfl rfl
    · intro σ' action haction hσ'
      cases action with
      | respond link response => exact hσ'.trans (untouched_respond link response)
      | disconnectAllClients =>
          have hother := taker.closes _ _ _ haction
          apply hσ'.trans
          apply untouched_disconnectAllClients
          rw [hσ'.client]
          simp only [State.update, Function.update_self]
          cases hflag : (σ.fds fd).client with
          | false => rfl
          | true => exact absurd (hclient hflag) hother
  · intro σ' hσ'
    exact hσ'

end

/-! ### Streams of frames -/

section

variable {c : Codec} {xs ys : List c.Message}

theorem frames_append {first second : Str} (hxs : c.frames xs = .ok first)
    (hys : c.frames ys = .ok second) :
  c.frames (xs ++ ys) = .ok (first ++ second)
  := by
  induction xs generalizing first with
  | nil =>
      obtain rfl := Except.ok.inj hxs
      exact hys
  | cons x xs ih =>
      obtain ⟨frame, others, hframe, hothers, rfl⟩ := concat_cons_eq_ok.mp hxs
      apply concat_cons_eq_ok.mpr
      exact ⟨frame, others ++ second, hframe, ih hothers, List.append_assoc frame others second⟩

/-- A stream of frames is divided where its messages are. -/
theorem frames_of_append {stream : Str} (h : c.frames (xs ++ ys) = .ok stream) :
  ∃ first second, c.frames xs = .ok first ∧ c.frames ys = .ok second ∧ stream = first ++ second
  := by
  induction xs generalizing stream with
  | nil => exact ⟨[], stream, rfl, h, rfl⟩
  | cons x xs ih =>
      obtain ⟨frame, others, hframe, hothers, rfl⟩ := concat_cons_eq_ok.mp h
      obtain ⟨first, second, hfirst, hsecond, rfl⟩ := ih hothers
      refine ⟨frame ++ first, second, ?_, hsecond, (List.append_assoc frame first second).symm⟩
      exact concat_cons_eq_ok.mpr ⟨frame, first, hframe, hfirst, rfl⟩

theorem frames_singleton {message : c.Message} {frame : Str} (h : c.frame message = .ok frame) :
  c.frames [message] = .ok frame
  := concat_cons_eq_ok.mpr ⟨frame, [], h, rfl, (List.append_nil frame).symm⟩

end

/-! ### The invariant -/

/-- If frames have been sent, those that have been read completely have been executed, and the
receiver waits for the rest. -/
def Input (p : Protocol) (receiver : Receiver) (r : Record) : Prop :=
  ∀ messages stream, (∀ message ∈ messages, (p.codec .request).Fits message) →
    (p.codec .request).frames messages = .ok stream → r.received <+: stream →
    ∃ done rest begun part, messages = done ++ rest ∧ r.executed = done.map (Sigma.mk p)
      ∧ (p.codec .request).frames done = .ok begun ∧ r.received = begun ++ part
      ∧ (p.codec .request).Expects rest part receiver

theorem input_start (p : Protocol) {receiver : Receiver} {r : Record} (hidle : receiver.Idle)
    (hreceived : r.received = []) (hexecuted : r.executed = []) :
  Input p receiver r
  := by
  intro messages stream hfits _ _
  exact ⟨[], messages, [], [], rfl, hexecuted, rfl, hreceived, Codec.expects_of_idle hfits hidle⟩

/-- More bytes are read, and the requests that are complete are executed. -/
theorem Input.read {p : Protocol} {receiver receiver' : Receiver} {r : Record}
    (h : Input p receiver r) {bytes : Str} {fuel : ℕ} {requests : List (p.codec .request).Message}
    (hextract : extractAll (p.codec .request).deserialize fuel (receiver.append bytes)
      = some ⟨requests, none, receiver'⟩) {r' : Record}
    (hreceived : r'.received = r.received ++ bytes)
    (hexecuted : r'.executed = r.executed ++ requests.map (Sigma.mk p)) :
  Input p receiver' r'
  := by
  rintro messages stream hfits hstream ⟨later, hlater⟩
  rw [hreceived, List.append_assoc] at hlater
  obtain ⟨done, rest, begun, part, rfl, hdone, hbegun, hpart, hexpects⟩ :=
    h messages stream hfits hstream ⟨bytes ++ later, hlater⟩
  obtain ⟨first, second, hfirst, hsecond, rfl⟩ := frames_of_append hstream
  obtain rfl := Except.ok.inj (hbegun.symm.trans hfirst)
  rw [hpart, List.append_assoc] at hlater
  have hrest : part ++ bytes ++ later = second := by
    rw [List.append_assoc]
    exact List.append_cancel_left hlater
  have hfitsRest : ∀ message ∈ rest, (p.codec .request).Fits message := fun message hmessage =>
    hfits message (List.mem_append_right done hmessage)
  obtain ⟨done', rest', part', stream', receiver'', rfl, hall, hexpects', hstream', hlater'⟩ :=
    Codec.extractAll_expects hfitsRest hexpects hsecond hrest
      (Nat.lt_succ_of_le (le_max_left _ fuel))
  rw [extractAll_mono (Nat.le_succ_of_le (le_max_right _ fuel)) hextract] at hall
  simp only [Option.some.injEq, Extracted.mk.injEq, true_and] at hall
  obtain ⟨rfl, rfl⟩ := hall
  obtain ⟨begun', second', hbegun', hsecond', rfl⟩ := frames_of_append hsecond
  obtain rfl := Except.ok.inj (hsecond'.symm.trans hstream')
  refine ⟨done ++ requests, rest', begun ++ begun', part', ?_, ?_, ?_, ?_, hexpects'⟩
  · rw [List.append_assoc]
  · rw [hexecuted, hdone, List.map_append]
  · exact frames_append hbegun hbegun'
  · rw [← hlater', ← List.append_assoc] at hrest
    rw [hreceived, hpart, List.append_assoc, List.append_cancel_right hrest, List.append_assoc]

/-- What holds of a descriptor at any time. -/
structure Sane (c : Connection) (r : Record) : Prop where
  sound : SocketManager.Sound c.toDescriptor r.output
  client : c.client = true → c.protocol = some .client
  named : c.used = true → c.protocol ≠ none
  listens : c.listen = true → c.used = true
  body : c.receiver.header.bodyComplete = false
  fresh : c.used = false → r.responses = [] ∧ r.output.queued = []
  unread : c.used = false ∨ c.listen = true →
    r.received = [] ∧ r.executed = [] ∧ c.receiver.queue = []
  output : ∀ p, c.protocol = some p → ∃ responses, r.responses = responses.map (Sigma.mk p)
    ∧ (p.codec .response).frames responses = .ok r.output.queued

/-- What holds of a connection between two reads. -/
def Current (c : Connection) (r : Record) : Prop :=
  ∀ p, c.used = true → c.listen = false → c.protocol = some p → Input p c.receiver r

/-- The invariant, except for a connection that is being read. -/
def Invariant {L : Type} (skip : Set ℕ) (σ : State L) : Prop :=
  ∀ i, Sane (σ.fds i) (σ.record i) ∧ (i ∉ skip → Current (σ.fds i) (σ.record i))

theorem sane_clear (generation : ℕ) :
  Sane {} { generation := generation }
  where
  sound := SocketManager.sound_clear
  client := nofun
  named := nofun
  listens := nofun
  body := rfl
  fresh _ := ⟨rfl, rfl⟩
  unread _ := ⟨rfl, rfl, rfl⟩
  output := nofun

section

variable {L : Type} {taker : RequestTaker L} {skip : Set ℕ} {σ : State L} {fd : ℕ}

namespace Invariant

variable (h : Invariant skip σ)

include h

theorem update {c : Connection} {r : Record} (hsane : Sane c r)
    (hcurrent : fd ∉ skip → Current c r) :
  Invariant skip (σ.update fd c r)
  := by
  intro i
  by_cases hi : i = fd
  · subst hi
    simp only [State.update, Function.update_self]
    exact ⟨hsane, hcurrent⟩
  · simp only [State.update, Function.update_of_ne hi]
    exact h i

theorem clear (fd : ℕ) :
  Invariant skip (σ.clear fd)
  := by
  apply h.update (sane_clear _)
  intro _ p hused
  cases hused

/-- A response of the protocol of a connection is queued. -/
theorem queue {response : Message .response} {bytes : Str}
    (hused : (σ.fds fd).used = true) (hprotocol : (σ.fds fd).protocol = some response.1)
    (hbytes : (response.1.codec .response).frame response.2 = .ok bytes) :
  Invariant skip (σ.queue fd response bytes)
  := by
  obtain ⟨hsane, hcurrent⟩ := h fd
  apply h.update
  · refine ⟨hsane.sound.append hused bytes, hsane.client, hsane.named, hsane.listens, hsane.body,
      ?_, hsane.unread, ?_⟩
    · intro hunused
      exact absurd (hused.symm.trans hunused) Bool.noConfusion
    · intro p hp
      obtain rfl := Option.some.inj (hprotocol.symm.trans hp)
      obtain ⟨responses, hresponses, hframes⟩ := hsane.output _ hprotocol
      refine ⟨responses ++ [response.2], ?_, frames_append hframes (frames_singleton hbytes)⟩
      rw [hresponses, List.map_append]
      rfl
  · exact hcurrent

theorem respond (link : Link) (response : Message .response) :
  Invariant skip (Endpoint.respond link response σ).state
  := by
  unfold Endpoint.respond
  split
  · rename_i hlink
    split
    · rename_i hprotocol
      split
      · rename_i bytes hbytes
        exact h.queue hlink.1 hprotocol hbytes
      · exact h
    · exact h
  · exact h

theorem closeSocket (fd : ℕ) :
  Invariant skip (Endpoint.closeSocket taker fd σ).state
  := by
  apply Outcome.andThen_state (P := Invariant skip)
  · apply Outcome.forEach_state (P := Invariant skip)
    · exact h
    · intro σ r _ hσ
      exact hσ.respond r.1 r.2
  · intro σ hσ
    exact hσ.clear fd

/-- Closing the clients keeps the invariant. -/
theorem disconnectAllClients :
  Invariant skip (Endpoint.disconnectAllClients taker σ).state
  := by
  apply Outcome.forEach_state h
  intro σ i _ hσ
  split
  · exact hσ.closeSocket i
  · exact hσ

/-- The execution of a request keeps the invariant of all other connections. -/
theorem execute (hskip : fd ∈ skip) {request : Message .request}
    (hopen : (σ.fds fd).used = true ∧ (σ.fds fd).listen = false) :
  Invariant skip (Endpoint.execute taker fd request σ).state
  := by
  apply Outcome.andThen_state (P := Invariant skip)
  · apply Outcome.forEach_state (P := Invariant skip)
    · obtain ⟨hsane, -⟩ := h fd
      apply h.update _ (fun hnot => absurd hskip hnot)
      refine { hsane with unread := ?_ }
      rw [hopen.1, hopen.2]
      rintro (hclosed | hclosed)
      · cases hclosed
      · cases hclosed
    · intro σ action _ hσ
      cases action with
      | respond link response => exact hσ.respond link response
      | disconnectAllClients => exact hσ.disconnectAllClients
  · intro σ hσ
    exact hσ

theorem setReceiver (hskip : fd ∈ skip) {receiver : Receiver}
    (hopen : (σ.fds fd).used = true ∧ (σ.fds fd).listen = false)
    (hbody : receiver.header.bodyComplete = false) :
  Invariant skip (σ.setReceiver fd receiver)
  := by
  obtain ⟨hsane, -⟩ := h fd
  apply h.update _ (fun hnot => absurd hskip hnot)
  refine ⟨hsane.sound, hsane.client, hsane.named, hsane.listens, hbody, hsane.fresh, ?_,
    hsane.output⟩
  rintro (hclosed | hclosed)
  · exact absurd (hopen.1.symm.trans hclosed) Bool.noConfusion
  · exact absurd (hopen.2.symm.trans hclosed) Bool.noConfusion

end Invariant

/-! ### Reading -/

/-- What the loop of `handleRead` does to its connection: it extracts requests and executes
them. -/
structure Handled (p : Protocol) (σ σ' : State L) (fd : ℕ)
    (requests : List (p.codec .request).Message) (receiver : Receiver) : Prop where
  used : (σ'.fds fd).used = (σ.fds fd).used
  listen : (σ'.fds fd).listen = (σ.fds fd).listen
  client : (σ'.fds fd).client = (σ.fds fd).client
  protocol : (σ'.fds fd).protocol = (σ.fds fd).protocol
  receiver : (σ'.fds fd).receiver = receiver
  received : (σ'.record fd).received = (σ.record fd).received
  executed : (σ'.record fd).executed = (σ.record fd).executed ++ requests.map (Sigma.mk p)

theorem handled_setReceiver (p : Protocol) (σ : State L) (fd : ℕ) (receiver : Receiver) :
  Handled p σ (σ.setReceiver fd receiver) fd [] receiver
  := by
  constructor
  all_goals simp [State.setReceiver, State.update]

theorem Handled.append {p : Protocol} {σ' σ'' : State L}
    {requests requests' : List (p.codec .request).Message} {receiver receiver' : Receiver}
    (h : Handled p σ σ' fd requests receiver) (h' : Handled p σ' σ'' fd requests' receiver') :
  Handled p σ σ'' fd (requests ++ requests') receiver'
  where
  used := h'.used.trans h.used
  listen := h'.listen.trans h.listen
  client := h'.client.trans h.client
  protocol := h'.protocol.trans h.protocol
  receiver := h'.receiver
  received := h'.received.trans h.received
  executed := by rw [h'.executed, h.executed, List.map_append, List.append_assoc]

/-- A request is executed. -/
theorem handled_execute (taker : RequestTaker L) {p : Protocol}
    (request : (p.codec .request).Message) (hclient : (σ.fds fd).client = true → p = .client) :
  Handled p σ (execute taker fd ⟨p, request⟩ σ).state fd [request] (σ.fds fd).receiver
  := by
  have huntouched := @untouched_execute L taker σ fd ⟨p, request⟩ hclient
  obtain ⟨hused, hlisten, hclient, hprotocol, hreceiver, -, hreceived, hexecuted⟩ := huntouched
  simp only [State.update, Function.update_self] at hused hlisten hclient hprotocol hreceiver
  simp only [State.update, Function.update_self] at hreceived hexecuted
  exact ⟨hused, hlisten, hclient, hprotocol, hreceiver, hreceived, hexecuted⟩

/-- The loop ends, and finds a protocol in each pass. -/
theorem handleLoop_spec {p : Protocol} {fuel : ℕ} (hinvariant : Invariant skip σ)
    (hskip : fd ∈ skip) (hopen : (σ.fds fd).used = true ∧ (σ.fds fd).listen = false)
    (hprotocol : (σ.fds fd).protocol = some p) (hclient : (σ.fds fd).client = true → p = .client)
    (hfuel : (σ.fds fd).receiver.queue.length < fuel) :
  ∃ o, handleLoop taker fd fuel σ = .ok o ∧ Invariant skip o.state
    ∧ (o.thrown = none → ∃ requests receiver,
      extractAll (p.codec .request).deserialize fuel (σ.fds fd).receiver
        = some ⟨requests, none, receiver⟩
      ∧ Handled p σ o.state fd requests receiver)
  := by
  induction fuel generalizing σ with
  | zero => omega
  | succ fuel ih =>
      have hbody := (hinvariant fd).1.body
      have hbody' := @bodyComplete_extract _ (p.codec .request).deserialize _ hbody
      simp only [handleLoop, hprotocol, extractAll]
      cases hextract : (σ.fds fd).receiver.extract (p.codec .request).deserialize with
      | mk result receiver =>
          rw [hextract] at hbody'
          have hset := hinvariant.setReceiver hskip hopen hbody'
          have hhandled := handled_setReceiver p σ fd receiver
          cases result with
          | error e =>
              refine ⟨_, rfl, hset, ?_⟩
              intro hthrown
              cases hthrown
          | ok request? =>
              cases request? with
              | none => exact ⟨_, rfl, hset, fun _ => ⟨[], receiver, rfl, hhandled⟩⟩
              | some request =>
                  obtain ⟨hshorter, -⟩ := length_lt_of_extract hbody hextract
                  have hopen' := And.intro (hhandled.used.trans hopen.1)
                    (hhandled.listen.trans hopen.2)
                  have hexecuted := handled_execute taker request (by rwa [hhandled.client])
                  rw [hhandled.receiver] at hexecuted
                  have hhandled := hhandled.append hexecuted
                  have hnext := @Invariant.execute L taker skip _ fd hset hskip ⟨p, request⟩ hopen'
                  simp only
                  generalize execute taker fd ⟨p, request⟩ (σ.setReceiver fd receiver) = o
                    at hhandled hnext ⊢
                  cases hthrown : o.thrown with
                  | some e =>
                      refine ⟨o, rfl, hnext, ?_⟩
                      intro hnone
                      rw [hthrown] at hnone
                      cases hnone
                  | none =>
                      obtain ⟨o', ho', hinvariant', hrest⟩ := ih hnext
                        ⟨hhandled.used.trans hopen.1, hhandled.listen.trans hopen.2⟩
                        (hhandled.protocol.trans hprotocol) (by rwa [hhandled.client])
                        (by rw [hhandled.receiver]; omega)
                      refine ⟨o', ho', hinvariant', ?_⟩
                      intro hnone
                      obtain ⟨requests, receiver', hall, hrest⟩ := hrest hnone
                      rw [hhandled.receiver] at hall
                      refine ⟨request :: requests, receiver', ?_, hhandled.append hrest⟩
                      rw [hall]
                      rfl

namespace Invariant

/-- A connection that was being read is closed. -/
theorem closeSocket_read (h : Invariant {fd} σ)
    (hreturned : (Endpoint.closeSocket taker fd σ).thrown = none) :
  Invariant ∅ (Endpoint.closeSocket taker fd σ).state
  := by
  have hclosed := @closeSocket L taker _ σ h fd
  intro i
  refine ⟨(hclosed i).1, fun _ => ?_⟩
  by_cases hi : i = fd
  · subst hi
    obtain ⟨hresponses, -⟩ := Outcome.andThen_thrown_eq_none.mp hreturned
    intro p hused
    rw [Endpoint.closeSocket] at hused
    rw [Outcome.andThen_of_returned hresponses] at hused
    simp [State.clear, State.update] at hused
  · exact (hclosed i).2 hi

variable (h : Invariant ∅ σ)

include h

theorem push (hopen : (σ.fds fd).used = true ∧ (σ.fds fd).listen = false)
    (bytes : Str) :
  Invariant {fd} (σ.push fd bytes)
  := by
  intro i
  by_cases hi : i = fd
  · subst hi
    obtain ⟨hsane, -⟩ := h i
    refine ⟨?_, fun hnot => absurd rfl hnot⟩
    simp only [State.push, State.update, Function.update_self]
    refine ⟨hsane.sound, hsane.client, hsane.named, hsane.listens, hsane.body, hsane.fresh, ?_,
      hsane.output⟩
    rintro (hclosed | hclosed)
    · exact absurd (hopen.1.symm.trans hclosed) Bool.noConfusion
    · exact absurd (hopen.2.symm.trans hclosed) Bool.noConfusion
  · simp only [State.push, State.update, Function.update_of_ne hi]
    obtain ⟨hsane, hcurrent⟩ := h i
    exact ⟨hsane, fun _ => hcurrent (Set.notMem_empty i)⟩

/-- Bytes are read from an open connection. -/
theorem handleRead (hopen : (σ.fds fd).used = true ∧ (σ.fds fd).listen = false) (bytes : Str) :
  ∃ o, Endpoint.handleRead taker fd bytes σ = .ok o ∧ Invariant {fd} o.state
    ∧ (o.thrown = none → Invariant ∅ o.state)
  := by
  obtain ⟨hsane, hcurrent⟩ := h fd
  obtain ⟨p, hprotocol⟩ := Option.ne_none_iff_exists'.mp (hsane.named hopen.1)
  have hfds : (σ.push fd bytes).fds fd
      = { σ.fds fd with receiver := (σ.fds fd).receiver.append bytes } := by
    simp [State.push, State.update]
  have hrecord : (σ.push fd bytes).record fd
      = { σ.record fd with received := (σ.record fd).received ++ bytes } := by
    simp [State.push, State.update]
  have hclient : (σ.fds fd).client = true → p = .client := by
    intro hclient
    exact Option.some.inj (hprotocol.symm.trans (hsane.client hclient))
  obtain ⟨o, ho, hinvariant, hhandled⟩ := @handleLoop_spec L taker {fd} _ fd p _
    (h.push hopen bytes) rfl (by rw [hfds]; exact hopen) (by rw [hfds]; exact hprotocol)
    (by rw [hfds]; exact hclient) (Nat.lt_succ_self _)
  refine ⟨o, ho, hinvariant, fun hnone => ?_⟩
  obtain ⟨requests, receiver, hextract, hhandled⟩ := hhandled hnone
  intro i
  refine ⟨(hinvariant i).1, fun _ => ?_⟩
  by_cases hi : i = fd
  · subst hi
    intro p' _ _ hp'
    have hsame := hhandled.protocol
    rw [hfds] at hsame
    obtain rfl := Option.some.inj (hp'.symm.trans (hsame.trans hprotocol))
    have hreceived := hhandled.received
    have hexecuted := hhandled.executed
    rw [hrecord] at hreceived hexecuted
    rw [hfds] at hextract
    rw [hhandled.receiver]
    exact (hcurrent (Set.notMem_empty i) p' hopen.1 hopen.2 hprotocol).read hextract hreceived
      hexecuted
  · exact (hinvariant i).2 hi

/-- A descriptor that is not used gets a new connection or listens. -/
theorem createDescriptor (hunused : (σ.fds fd).used = false)
    {client listen : Bool} {p : Protocol} (hclient : client = true → p = .client) :
  Invariant ∅ (σ.createDescriptor fd client listen (some p))
  := by
  obtain ⟨hsane, -⟩ := h fd
  obtain ⟨hreceived, hexecuted, hqueue⟩ := hsane.unread (Or.inl hunused)
  obtain ⟨hresponses, hqueued⟩ := hsane.fresh hunused
  let c : Connection :=
    { σ.fds fd with
      used := true, client := client, listen := listen, protocol := some p,
      receiver := { (σ.fds fd).receiver with header := {} } }
  apply @Invariant.update L ∅ σ fd h c (σ.record fd)
  · refine ⟨⟨hsane.sound.accounts, hsane.sound.queue, nofun⟩, ?_, nofun, fun _ => rfl, rfl, nofun,
      ?_, ?_⟩
    · intro hflag
      exact congrArg some (hclient hflag)
    · exact fun _ => ⟨hreceived, hexecuted, hqueue⟩
    · intro p' _
      refine ⟨[], hresponses, ?_⟩
      rw [hqueued]
      rfl
  · intro _ p' _ _ _
    exact input_start p' ⟨rfl, rfl, hqueue⟩ hreceived hexecuted

theorem readyForAccept (hlisten : (σ.fds fd).listen = true)
    (result : ReadResult) :
  Invariant ∅ (Endpoint.readyForAccept fd result σ)
  := by
  cases result with
  | accepted clientFd =>
      obtain ⟨hsane, -⟩ := h fd
      obtain ⟨p, hprotocol⟩ :=
        Option.ne_none_iff_exists'.mp (hsane.named (hsane.listens hlisten))
      unfold Endpoint.readyForAccept
      simp only
      split
      · exact h
      · rename_i hunused
        rw [hprotocol]
        apply h.createDescriptor (Bool.eq_false_iff.mpr hunused)
        intro hclient
        exact Option.some.inj (hprotocol.symm.trans (hsane.client hclient))
  | _ => exact h

/-- A socket is ready for reading: a protocol is found whenever one is needed. -/
theorem readyForRead (taker : RequestTaker L) (fd : ℕ) (result : ReadResult) :
  ∃ o, Endpoint.readyForRead taker fd result σ = .ok o ∧ (o.thrown = none → Invariant ∅ o.state)
  := by
  unfold Endpoint.readyForRead
  split
  · rename_i hlisten
    exact ⟨_, rfl, fun _ => h.readyForAccept hlisten result⟩
  · rename_i hlisten
    cases hused : (σ.fds fd).used with
    | false => exact ⟨_, rfl, fun _ => h.closeSocket fd⟩
    | true =>
        cases result with
        | data bytes =>
            obtain ⟨o, ho, hread, hdone⟩ := @handleRead L taker σ fd h
              ⟨hused, Bool.eq_false_iff.mpr hlisten⟩ bytes
            simp only [if_true, ho]
            cases hthrown : o.thrown with
            | none => exact ⟨o, rfl, fun _ => hdone hthrown⟩
            | some e => exact ⟨_, rfl, hread.closeSocket_read⟩
        | failed | closed => exact ⟨_, rfl, fun _ => h.closeSocket fd⟩
        | accepted _ | blocked => exact ⟨_, rfl, fun _ => h⟩

theorem prepare (fd : ℕ) :
  Invariant ∅ (σ.prepare fd)
  := by
  obtain ⟨hsane, hcurrent⟩ := h fd
  apply h.update
  · exact ⟨hsane.sound.prepareWriteBuffer, hsane.client, hsane.named, hsane.listens, hsane.body,
      hsane.fresh, hsane.unread, hsane.output⟩
  · exact hcurrent

/-- Bytes of the buffer are written. -/
theorem erase (fd count : ℕ) :
  Invariant ∅ ((σ.prepare fd).erase fd count)
  := by
  obtain ⟨hsane, hcurrent⟩ := h fd
  have hfds : (σ.prepare fd).fds fd
      = { σ.fds fd with toDescriptor := (σ.fds fd).toDescriptor.prepareWriteBuffer } := by
    simp [State.prepare, State.update]
  have hrecord : (σ.prepare fd).record fd = σ.record fd := by simp [State.prepare, State.update]
  apply (h.prepare fd).update
  · rw [hfds, hrecord]
    exact ⟨hsane.sound.erase count, hsane.client, hsane.named, hsane.listens, hsane.body,
      hsane.fresh, hsane.unread, hsane.output⟩
  · rw [hfds, hrecord]
    exact hcurrent

/-- A socket is ready for writing. -/
theorem readyForWrite (fd : ℕ) (result : WriteResult) :
  Invariant ∅ (Endpoint.readyForWrite taker fd result σ).state
  := by
  unfold Endpoint.readyForWrite
  split
  · exact h.prepare fd
  · exact (h.prepare fd).closeSocket fd
  · exact h.erase fd _

/-- Each event keeps the invariant. -/
theorem step {event : Event} {σ' : State L}
    (hstep : Endpoint.step taker σ event = some σ') :
  Invariant ∅ σ'
  := by
  have hproceed : ∀ {o : Outcome Unit (State L)}, (o.thrown = none → Invariant ∅ o.state) →
      proceed o = some σ' → Invariant ∅ σ' := by
    intro o ho hnext
    unfold proceed at hnext
    split at hnext
    · rename_i hthrown
      rw [← Option.some.inj hnext]
      exact ho hthrown
    · cases hnext
  cases event with
  | read fd result =>
      obtain ⟨o, ho, hinvariant⟩ := h.readyForRead taker fd result
      simp only [Endpoint.step, ho] at hstep
      exact hproceed hinvariant hstep
  | write fd result => exact hproceed (fun _ => h.readyForWrite fd result) hstep

end Invariant

/-- The sockets that listen. -/
theorem invariant_init (logic : L) {listeners : List (ℕ × Protocol)}
    (hdistinct : (listeners.map Prod.fst).Nodup) :
  Invariant ∅ (init logic listeners)
  := by
  suffices hgeneral : ∀ (listeners : List (ℕ × Protocol)) (σ : State L), Invariant ∅ σ →
      (listeners.map Prod.fst).Nodup → (∀ l ∈ listeners, (σ.fds l.1).used = false) →
      Invariant ∅ (listeners.foldl
        (fun σ l => σ.createDescriptor l.1 (l.2 = .client) true (some l.2)) σ) by
    apply hgeneral listeners _ _ hdistinct
    · intro l _
      rfl
    · intro i
      refine ⟨sane_clear 0, fun _ p hused => ?_⟩
      cases hused
  intro listeners
  induction listeners with
  | nil =>
      intro σ h _ _
      exact h
  | cons l listeners ih =>
      intro σ h hdistinct hunused
      rw [List.map_cons, List.nodup_cons] at hdistinct
      rw [List.forall_mem_cons] at hunused
      apply ih _ _ hdistinct.2
      · intro l' hl'
        have hne : l'.1 ≠ l.1 := by
          intro heq
          exact hdistinct.1 (heq ▸ List.mem_map_of_mem hl')
        simp only [State.createDescriptor, State.update, Function.update_of_ne hne]
        exact hunused.2 l' hl'
      · apply h.createDescriptor hunused.1
        simp

/-- The invariant of a connection between two reads. -/
theorem Input.fifo {p : Protocol} {c : Connection} {r : Record} (hsane : Sane c r)
    (hprotocol : c.protocol = some p) (hinput : Input p c.receiver r) :
  Fifo p c r
  := by
  constructor
  · intro messages stream hfits hstream hreceived
    obtain ⟨done, rest, begun, part, rfl, hdone, hbegun, hpart, hexpects⟩ :=
      hinput messages stream hfits hstream hreceived
    refine ⟨done, rest, begun, part, rfl, hdone, hbegun, hpart, ?_, ?_⟩
    · rintro rfl
      exact hexpects.1
    · intro next hnext
      cases rest with
      | nil => cases hnext
      | cons message rest =>
          obtain rfl := Option.some.inj hnext
          obtain ⟨body, missing, hbody, hmissing, hframe, -⟩ := hexpects
          refine ⟨_, Codec.frame_eq_ok hbody, ⟨missing, hframe⟩, ?_⟩
          rintro rfl
          apply hmissing
          simpa using hframe
  · obtain ⟨responses, hresponses, hframes⟩ := hsane.output p hprotocol
    refine ⟨responses, hresponses, ?_⟩
    rw [hsane.sound.accounts]
    exact hframes

/-- In every run of the service, whatever its peers send and whatever the logic does with the
requests, each open connection is a pair of queues; and whichever socket is found ready, the loop
that extracts requests comes to its end and never lacks a protocol. -/
theorem fifo_of_reaches {logic : L} {listeners : List (ℕ × Protocol)}
    (hdistinct : (listeners.map Prod.fst).Nodup)
    (h : Runs.Reaches (step taker) (fun _ _ => True) (init logic listeners) σ) :
  (∀ fd, (σ.fds fd).used = true → (σ.fds fd).listen = false →
      ∃ p, (σ.fds fd).protocol = some p ∧ Fifo p (σ.fds fd) (σ.record fd))
    ∧ ∀ fd result, ∃ o, readyForRead taker fd result σ = .ok o
  := by
  have hinvariant : Invariant ∅ σ := by
    apply h.invariant (P := Invariant ∅) (invariant_init logic hdistinct)
    intro σ event σ' hσ _ hstep
    exact hσ.step hstep
  constructor
  · intro fd hused hlisten
    obtain ⟨hsane, hcurrent⟩ := hinvariant fd
    obtain ⟨p, hprotocol⟩ := Option.ne_none_iff_exists'.mp (hsane.named hused)
    exact ⟨p, hprotocol, (hcurrent (Set.notMem_empty fd) p hused hlisten hprotocol).fifo hsane
      hprotocol⟩
  · intro fd result
    obtain ⟨o, ho, -⟩ := hinvariant.readyForRead taker fd result
    exact ⟨o, ho⟩

end

/-- A response that tells that the storage has been changed. -/
def changed : ProtocolAdmin.Response → Bool
  | .code code _ => code == Code.OK.toUInt16
  | _ => false

/-- The logic of the requests of administrators; the others are refused.  After a change all clients
are disconnected. -/
def adminTaker {P : Type} (env : Admin.Surroundings P) : RequestTaker Buckets where
  execute link request s :=
    match request with
    | ⟨.admin, request⟩ =>
        match Logic.answer env false s request with
        | some (.responds response, s') =>
            ⟨s', (if changed response then [.disconnectAllClients] else [])
              ++ [.respond link ⟨.admin, response⟩], false⟩
        -- a service that crashes takes no further requests, so its last outcome does not matter
        | some (.throws, s') | some (.crashes, s') => ⟨s', [], true⟩
        | none => ⟨s, [], true⟩
    | _ => ⟨s, [], true⟩
  contextClosed _ s := (s, [])
  closes link request s h := by
    obtain ⟨p, request⟩ := request
    cases p with
    | client => cases h
    | _ => exact Protocol.noConfusion

/-- An administrator connects and sends a request in two pieces; the first bytes of the answer are
written. -/
def answering : List Event :=
  [.read 4 (.accepted 5), .read 5 (.data [67, 80, 118, 49, 21, 0, 0, 0, 7, 0, 21, 6]),
    .read 5 (.data [0, 0, 0, 116, 97, 114, 103, 101, 116]), .write 5 (.written 4)]

theorem fifo_answering :
  ∃ σ, Runs.Reaches (step (adminTaker Admin.calm)) (fun _ _ => True)
      (init Storage.initial [(3, .client), (4, .admin)]) σ
    ∧ (σ.record 5).executed.length = 1 ∧ (σ.record 5).output.handed = ofString "CPv1"
    ∧ ∃ p, (σ.fds 5).protocol = some p ∧ Fifo p (σ.fds 5) (σ.record 5)
  := by
  have hany : (Runs.run (step (adminTaker Admin.calm)) (fun _ _ => true) answering
      (init Storage.initial [(3, .client), (4, .admin)])).any (fun σ =>
        (σ.record 5).executed.length = 1 ∧ (σ.record 5).output.handed = ofString "CPv1"
          ∧ (σ.fds 5).used = true ∧ (σ.fds 5).listen = false) = true := by decide +kernel
  obtain ⟨σ, hσ, hfacts⟩ := (Option.any_eq_true _ _).mp hany
  obtain ⟨hexecuted, hhanded, hused, hlisten⟩ := of_decide_eq_true hfacts
  have hrun : Runs.Reaches (step (adminTaker Admin.calm)) (fun _ _ => True)
      (init Storage.initial [(3, .client), (4, .admin)]) σ :=
    Runs.Reaches.start.run (fun _ _ _ => trivial) hσ
  refine ⟨σ, hrun, hexecuted, hhanded, ?_⟩
  exact (fifo_of_reaches (by decide) hrun).1 5 hused hlisten

end Endpoint

end Cynara
