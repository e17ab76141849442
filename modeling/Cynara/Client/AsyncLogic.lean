import Cynara.Client.CapacityCache
import Cynara.Client.SequenceContainer
import Cynara.Client.Sockets
import Cynara.Library.Outcome

/-!
# The asynchronous client

The client keeps a map of the checks it has been asked for, from their ids to what it needs
for the requests and for the callbacks.  Ids are taken from the sequence numbers that are free.
Requests are queued, and sent and answered when `process` is called.  When the connection has
been lost, the next operation connects again and queues the requests of all checks that have
not been cancelled.

A callback for an answer or a cancellation may call the client again.  Where it does, the
function of the client that has called it is suspended; these functions are kept on a stack.
In the other callbacks no operation is permitted.

The system calls are given with the events: whether the socket is found connected, how a new
connection turns out, how many of the queued requests are sent and which response is read.
`poll` and `getsockopt` do not fail.  The results that the cache returns are given as well.
-/

namespace Cynara

namespace ClientAsync

open Std ProtocolClient

/-! ### Checks and callbacks -/

/-- The strings of a key are checked before anything is asked. -/
def isStringValid (string : Str) : Bool := string.length ≤ maxIdLength

/-- A key is valid if its three strings are. -/
def isKeyValid (key : PolicyKey) : Bool :=
  isStringValid key.client && isStringValid key.user && isStringValid key.privilege

/-- The strings of a key are checked when the client is called. -/
abbrev ValidKey := { key : PolicyKey // isKeyValid key }

theorem ValidKey.valid (key : ValidKey) :
  isKeyValid key.val
  := key.property

/-- The key of a call whose strings are valid. -/
theorem isKeyValid_of_strings {key : PolicyKey} {session : Str}
    (h : isKeyValid key ∧ isStringValid session) :
  isKeyValid key
  := h.1

/-- A check.  Its callback is identified by its number: checks are numbered in the order they
are created. -/
structure CheckData where
  key : ValidKey
  session : ClientSession
  simple : Bool
  cancelled : Bool
  number : ℕ

namespace CheckData

/-- The check is cancelled; its number stays in use until the service has replied. -/
def cancel (check : CheckData) : CheckData := { check with cancelled := true }

/-- The request that is sent for a check. -/
def request (id : UInt16) (check : CheckData) : Request :=
  if check.simple then .simpleCheck check.key.val id else .check check.key.val id

end CheckData

/-- `cynara_async_call_cause`. -/
inductive CallCause where
  | CYNARA_CALL_CAUSE_ANSWER
  | CYNARA_CALL_CAUSE_CANCEL
  | CYNARA_CALL_CAUSE_FINISH
  | CYNARA_CALL_CAUSE_SERVICE_NOT_AVAILABLE
deriving DecidableEq

/-- A call of the callback of a check. -/
structure Call where
  id : UInt16
  cause : CallCause
  response : Int32
  number : ℕ

/-! ### The socket -/

/-- How an attempt to connect turns out; an exception is thrown if the error is not
`ECONNREFUSED`. -/
inductive Attempt where
  | succeeded
  | inProgress
  | failed
  | thrown
deriving DecidableEq

/-- `Socket::SendStatus`. -/
inductive SendStatus where
  | ALL_DATA_SENT
  | PARTIAL_DATA_SENT
  | CONNECTION_LOST
deriving DecidableEq

/-- `SocketClientAsync` and its `Socket`: the requests that wait in the queue of the client, the
ones that have been moved to the socket but are not sent completely, and those that have been
sent on this connection. -/
structure SocketClient where
  opened : Bool := false
  connectionInProgress : Bool := false
  writeQueue : List Request := []
  sendQueue : List Request := []
  wire : List Request := []

namespace SocketClient

/-- A socket that is not connected is found to be hung up. -/
def isConnected (alive : Bool) (s : SocketClient) : Bool :=
  s.connectionInProgress || s.opened && alive

/-- `Socket::close` drops what has not been sent, and then the queue is cleared unless an
exception is thrown. -/
def connect (attempt : Attempt) (s : SocketClient) : Option ConnectionStatus × SocketClient :=
  let s := { s with opened := false, sendQueue := [], wire := [] }
  match attempt with
  | .succeeded => (some .CONNECTION_SUCCEEDED, { s with opened := true, writeQueue := [] })
  | .inProgress =>
      (some .CONNECTION_IN_PROGRESS,
        { s with opened := true, connectionInProgress := true, writeQueue := [] })
  | .failed => (some .CONNECTION_FAILED, { s with writeQueue := [] })
  | .thrown => (none, s)

/-- The end of a connection that was in progress. -/
def completeConnection (ready alive : Bool) (s : SocketClient) : ConnectionStatus × SocketClient :=
  if ¬ s.connectionInProgress then (.ALREADY_CONNECTED, s)
  else if ¬ ready then (.CONNECTION_IN_PROGRESS, s)
  else
    let s := { s with connectionInProgress := false }
    if s.isConnected alive then (.CONNECTION_SUCCEEDED, s)
    else (.CONNECTION_FAILED, { s with opened := false, writeQueue := [] })

/-- A request waits to be sent. -/
def appendRequest (request : Request) (s : SocketClient) : SocketClient :=
  { s with writeQueue := s.writeQueue ++ [request] }

/-- The queue is moved to the socket, which sends some of the requests. -/
def sendToCynara (status : Option SendStatus) (count : ℕ) (s : SocketClient) : SocketClient :=
  let queue := s.sendQueue ++ s.writeQueue
  let count := if status = some .ALL_DATA_SENT then queue.length else count
  { s with writeQueue := [], sendQueue := queue.drop count, wire := s.wire ++ queue.take count }

/-- All requests that have been queued for the connection, in their order. -/
def requests (s : SocketClient) : List Request := s.wire ++ s.sendQueue ++ s.writeQueue

end SocketClient

/-! ### The cache of the monitor -/

/-- What `clock_gettime` returns. -/
abbrev Clock := Option (Int64 × Int64)

/-- An entry whose key is valid. -/
abbrev ValidEntry := { entry : MonitorEntry // isKeyValid entry.key }

/-- The entries that have not been sent, and the time between the first and the last of them. -/
structure MonitorCache where
  entries : List ValidEntry := []
  cacheAgeSec : Int64 := 0

namespace MonitorCache

/-- The age in seconds at which the entries are sent. -/
def MAX_LOG_AGE_SEC : Int64 := 120

/-- The number of entries at which they are sent. -/
def CACHE_CAPACITY : ℕ := 100

/-- The new entry has the time of the clock; nothing is noted if the clock cannot be read. -/
def update (policyKey : ValidKey) (result : Int32) (clock : Clock) (c : MonitorCache) :
    MonitorCache :=
  match clock with
  | none => c
  | some (tv_sec, tv_nsec) =>
      let result := if result ≠ CYNARA_API_ACCESS_ALLOWED then CYNARA_API_ACCESS_DENIED else result
      let entries := c.entries ++ [⟨⟨policyKey.val, result, tv_sec, tv_nsec⟩, policyKey.valid⟩]
      ⟨entries, tv_sec - (entries.head?.map fun entry => entry.val.tv_sec).getD 0⟩

/-- The entries have been sent. -/
def clear (_ : MonitorCache) : MonitorCache := {}

/-- The entries are sent if they are many or old. -/
def shouldFlush (c : MonitorCache) : Bool :=
  !c.entries.isEmpty && (c.entries.length ≥ CACHE_CAPACITY || c.cacheAgeSec ≥ MAX_LOG_AGE_SEC)

end MonitorCache

/-! ### The client

The strings have been checked, so that each request is written to the queue and no exception is
thrown. -/

/-- What is recorded about a connection: the checks that had not been cancelled when it was
made, and those created since then. -/
structure Connection where
  pending : List (UInt16 × CheckData)
  created : List (UInt16 × CheckData)

/-- The check is made over this connection. -/
def Connection.create (id : UInt16) (check : CheckData) (k : Connection) : Connection :=
  { k with created := k.created ++ [(id, check)] }

/-- The checks whose requests belong to the connection. -/
def Connection.checks (k : Connection) : List (UInt16 × CheckData) := k.pending ++ k.created

/-- The state of the client.  The number of checks created, the calls of their callbacks and the
present connection are recorded. -/
structure Logic where
  monitoringEnabled : Bool
  socketClient : SocketClient := {}
  checks : ExtTreeMap UInt16 CheckData := ∅
  sequenceContainer : SequenceContainer := .new
  operationPermitted : Bool := true
  inAnswerCancelResponseCallback : Bool := false
  monitorCache : MonitorCache := {}
  sequenceNumber : UInt16 := 0
  created : ℕ := 0
  calls : List Call := []
  connection : Option Connection := none

/-- What the system answers when the client looks for a connection: whether the socket is found
connected, and how a new attempt turns out. -/
structure Net where
  alive : Bool
  attempt : Attempt

namespace Logic

/-- `ResponseCallback`: the callback of a check is called. -/
def call (id : UInt16) (cause : CallCause) (response : Int32) (check : CheckData) (σ : Logic) :
    Logic :=
  { σ with calls := σ.calls ++ [⟨id, cause, response, check.number⟩] }

def appendRequest (request : Request) (σ : Logic) : Logic :=
  { σ with socketClient := σ.socketClient.appendRequest request }

/-- The check is over, and its number may be used again. -/
def releaseRequest (id : UInt16) (σ : Logic) : Logic :=
  { σ with
    sequenceContainer := (σ.sequenceContainer.release id).2
    checks := σ.checks.erase id }

/-- No operation is permitted in the callback for the status. -/
def onStatusChange (σ : Logic) : Logic := { σ with operationPermitted := true }

/-- The cache is cleared. -/
def onDisconnected (σ : Logic) : Logic := { σ with operationPermitted := true }

/-- The checks that have not been cancelled. -/
def active (σ : Logic) : List (UInt16 × CheckData) :=
  σ.checks.toList.filter fun check => ¬ check.2.cancelled

/-- The callbacks of all checks that have not been cancelled are called for one cause. -/
def callAll (cause : CallCause) (σ : Logic) : Logic :=
  σ.active.foldl (fun σ check => σ.call check.1 cause 0 check.2) σ

/-- No operation is permitted in the callbacks. -/
def onServiceNotAvailable (σ : Logic) : Logic :=
  { σ.callAll .CYNARA_CALL_CAUSE_SERVICE_NOT_AVAILABLE with
    checks := ∅
    sequenceContainer := σ.sequenceContainer.clear
    operationPermitted := true }

/-- After a new connection a check is sent again, and a cancelled one is forgotten. -/
def prepareRequest (σ : Logic) (check : UInt16 × CheckData) : Logic :=
  if check.2.cancelled then σ.releaseRequest check.1
  else σ.appendRequest (check.2.request check.1)

/-- All checks, in the order of their numbers. -/
def prepareRequestsToSend (σ : Logic) : Logic := σ.checks.toList.foldl prepareRequest σ

/-- Whether there is a connection; there is no result if an exception is thrown. -/
def connect (attempt : Attempt) (σ : Logic) : Option Bool × Logic :=
  let (status, socketClient) := σ.socketClient.connect attempt
  let σ := { σ with socketClient := socketClient, connection := none }
  match status with
  | none => (none, σ)
  | some .CONNECTION_SUCCEEDED | some .CONNECTION_IN_PROGRESS =>
      let σ := { σ with connection := some ⟨σ.active, []⟩ }
      (some true, σ.prepareRequestsToSend.onStatusChange)
  | some _ => (some false, σ.onServiceNotAvailable)

/-- If the connection is lost, a new one is tried. -/
def ensureConnection (net : Net) (σ : Logic) : Option Bool × Logic :=
  if σ.socketClient.isConnected net.alive then (some true, σ)
  else σ.onDisconnected.connect net.attempt

/-- `generateSequenceNumber` counts the requests of the monitor. -/
def flushMonitor (net : Net) (σ : Logic) : Outcome Unit Logic :=
  if ¬ σ.monitoringEnabled then .returned σ
  else if σ.monitorCache.entries.isEmpty then .returned σ
  else
    match σ.ensureConnection net with
    | (none, σ) => .threw () σ
    | (some false, σ) => .returned σ
    | (some true, σ) =>
        let sequenceNumber := σ.sequenceNumber + 1
        let request := .monitorEntriesPut (σ.monitorCache.entries.map Subtype.val) sequenceNumber
        let σ := (σ.appendRequest request).onStatusChange
        .returned
          { σ with sequenceNumber := sequenceNumber, monitorCache := σ.monitorCache.clear }

/-- The result is noted, and what has been noted is sent if it is time. -/
def updateMonitor (policyKey : ValidKey) (result : Int32) (clock : Clock) (net : Net)
    (σ : Logic) : Outcome Unit Logic :=
  if ¬ σ.monitoringEnabled then .returned σ
  else
    let σ := { σ with monitorCache := σ.monitorCache.update policyKey result clock }
    if σ.monitorCache.shouldFlush then σ.flushMonitor net else .returned σ

/-- The result of the cache is given; there is no result if an exception is thrown. -/
def checkCache (key : ValidKey) (cached : Int32) (clock : Clock) (alive : Bool) (net net' : Net)
    (σ : Logic) : Option Int32 × Logic :=
  if ¬ σ.operationPermitted then (some CYNARA_API_OPERATION_NOT_ALLOWED, σ)
  else if ¬ σ.socketClient.isConnected alive then (some CYNARA_API_CACHE_MISS, σ)
  else if σ.monitoringEnabled then
    let updated :=
      if cached ≠ CYNARA_API_CACHE_MISS then σ.updateMonitor key cached clock net
      else .returned σ
    let flushed := updated.andThen fun σ =>
      if σ.monitorCache.shouldFlush then σ.flushMonitor net' else .returned σ
    (if flushed.thrown.isSome then none else some cached, flushed.state)
  else (some cached, σ)

/-- The id of the new check and the numbers that are left. -/
def insertCheck (simple : Bool) (key : ValidKey) (session : ClientSession) (id : UInt16)
    (sequenceContainer : SequenceContainer) (σ : Logic) : Logic :=
  let check : CheckData := ⟨key, session, simple, false, σ.created⟩
  let σ :=
    { σ with
      sequenceContainer := sequenceContainer
      checks := σ.checks.insertIfNew id check
      created := σ.created + 1
      connection := σ.connection.map (Connection.create id check) }
  (σ.appendRequest (check.request id)).onStatusChange

/-- What is returned, and the id of the check if it is created; there is no result if an
exception is thrown. -/
def createRequest (simple : Bool) (key : ValidKey) (session : ClientSession) (net : Net)
    (σ : Logic) : Option (Int32 × Option UInt16) × Logic :=
  if ¬ σ.operationPermitted then (some (CYNARA_API_OPERATION_NOT_ALLOWED, none), σ)
  else
    match σ.ensureConnection net with
    | (none, σ) => (none, σ)
    | (some false, σ) => (some (CYNARA_API_SERVICE_NOT_AVAILABLE, none), σ)
    | (some true, σ) =>
        match σ.sequenceContainer.get with
        | none => (some (CYNARA_API_MAX_PENDING_REQUESTS, none), σ)
        | some (id, sequenceContainer) =>
            (some (CYNARA_API_SUCCESS, some id),
              σ.insertCheck simple key session id sequenceContainer)

/-- What a function comes to: it returns, an exception is thrown, or a callback is called in
which operations are permitted.  In the last case it is said whether this happens in another
such callback. -/
inductive Control where
  | returned (value : Int32)
  | threw
  | callback (onAnswerCancel : Bool)

/-- The check is marked and its callback is called. -/
def cancelCheck (id : UInt16) (check : CheckData) (σ : Logic) : Logic :=
  let σ := σ.appendRequest (.cancel id)
  let σ :=
    { σ with
      checks := σ.checks.insert id check.cancel
      inAnswerCancelResponseCallback := true }
  σ.call id .CYNARA_CALL_CAUSE_CANCEL 0 check

/-- The part of `cancelRequest` before its callback returns. -/
def cancelRequest (checkId : UInt16) (net : Net) (σ : Logic) : Control × Logic :=
  if ¬ σ.operationPermitted then (.returned CYNARA_API_OPERATION_NOT_ALLOWED, σ)
  else
    match σ.ensureConnection net with
    | (none, σ) => (.threw, σ)
    | (some false, σ) => (.returned CYNARA_API_SERVICE_NOT_AVAILABLE, σ)
    | (some true, σ) =>
        match σ.checks[checkId]? with
        | none => (.returned CYNARA_API_INVALID_PARAM, σ)
        | some check =>
            if check.cancelled then (.returned CYNARA_API_INVALID_PARAM, σ)
            else (.callback σ.inAnswerCancelResponseCallback, σ.cancelCheck checkId check)

/-- The callback for the answer, unless the check has been cancelled. -/
def answerCheck (id : UInt16) (check : CheckData) (result : Int32) (σ : Logic) :
    Control × Logic :=
  if check.cancelled then (.returned CYNARA_API_SUCCESS, σ)
  else
    let onAnswerCancel := σ.inAnswerCancelResponseCallback
    let σ := { σ with inAnswerCancelResponseCallback := true }
    (.callback onAnswerCancel, σ.call id .CYNARA_CALL_CAUSE_ANSWER result check)

/-- The check is released before the monitor is updated, and its callback is called after
that. -/
def processCheckResponse (id : UInt16) (cached : Int32) (clock : Clock) (net : Net) (σ : Logic) :
    Control × Logic :=
  match σ.checks[id]? with
  | none => (.threw, σ)
  | some check =>
      let updated := (σ.releaseRequest id).updateMonitor check.key cached clock net
      match updated.thrown with
      | some _ => (.threw, updated.state)
      | none => updated.state.answerCheck id check cached

/-- The answer to a simple check, which is not noted in the monitor. -/
def processSimpleCheckResponse (id : UInt16) (retValue cached : Int32) (σ : Logic) :
    Control × Logic :=
  match σ.checks[id]? with
  | none => (.threw, σ)
  | some check =>
      let result := if retValue = CYNARA_API_SUCCESS then cached else retValue
      (σ.releaseRequest id).answerCheck id check result

/-- The service has confirmed that a check is cancelled. -/
def processCancelResponse (id : UInt16) (σ : Logic) : Control × Logic :=
  match σ.checks[id]? with
  | none => (.threw, σ)
  | some check =>
      if ¬ check.cancelled then (.threw, σ)
      else (.returned CYNARA_API_SUCCESS, σ.releaseRequest id)

/-- One turn of `processResponses`. -/
def processResponse (response : Response) (cached : Int32) (clock : Clock) (net : Net)
    (σ : Logic) : Control × Logic :=
  match response with
  | .check _ id => σ.processCheckResponse id cached clock net
  | .cancel id => σ.processCancelResponse id
  | .simpleCheck retValue _ id => σ.processSimpleCheckResponse id retValue cached

/-- Whether the connection is complete. -/
def completeConnection (ready alive : Bool) (σ : Logic) : Bool × Logic :=
  let (status, socketClient) := σ.socketClient.completeConnection ready alive
  let σ := { σ with socketClient := socketClient }
  match status with
  | .ALREADY_CONNECTED => (true, σ)
  | .CONNECTION_SUCCEEDED => (true, σ.onStatusChange)
  | .CONNECTION_IN_PROGRESS => (false, σ)
  | .CONNECTION_FAILED =>
      let σ := { σ.onDisconnected with connection := none }
      (false, σ.onServiceNotAvailable)

/-- Whether the connection is still there. -/
def processOut (status : Option SendStatus) (count : ℕ) (σ : Logic) : Option Bool × Logic :=
  let σ := { σ with socketClient := σ.socketClient.sendToCynara status count }
  match status with
  | none => (none, σ)
  | some .ALL_DATA_SENT => (some true, σ.onStatusChange)
  | some .PARTIAL_DATA_SENT => (some true, σ)
  | some .CONNECTION_LOST => (some false, σ)

/-- The object is not destroyed in a callback. -/
def isFinishPermitted (σ : Logic) : Bool :=
  σ.operationPermitted && !σ.inAnswerCancelResponseCallback

/-- The entries are sent one by one. -/
def tryFlushMonitor (status : Option SendStatus) (count : ℕ) (σ : Logic) : Outcome Unit Logic :=
  if σ.monitoringEnabled then
    let σ := σ.monitorCache.entries.foldl (fun σ entry =>
      { σ.appendRequest (.monitorEntryPut entry.val (σ.sequenceNumber + 1)) with
        sequenceNumber := σ.sequenceNumber + 1 }) σ
    let σ := { σ with socketClient := σ.socketClient.sendToCynara status count }
    .raise (if status = none then some () else none) σ
  else .returned σ

/-- The destructor. -/
def finish (σ : Logic) : Logic :=
  { σ.callAll .CYNARA_CALL_CAUSE_FINISH with operationPermitted := false }

end Logic

/-! ### Runs of the client -/

/-- Where `process` stands. -/
inductive Phase where
  | completeConnection
  | processOut
  | receiveFromCynara
  | processResponses

/-- A function of the client that has not returned: `process`, or a function that waits for a
callback. -/
inductive Frame where
  | process (phase : Phase)
  | cancelRequest (onAnswerCancel : Bool)
  | processResponse (onAnswerCancel : Bool)

/-- The client and the functions that have not returned, the last one first. -/
structure Client where
  logic : Logic
  stack : List Frame := []
  finished : Bool := false

/-- What happens next.  The first events are calls of the client. -/
inductive Event where
  | createRequest (simple : Bool) (key : PolicyKey) (session : ClientSession) (net : Net)
  | cancelRequest (checkId : UInt16) (net : Net)
  | checkCache (key : PolicyKey) (session : ClientSession) (cached : Int32) (clock : Clock)
      (alive : Bool) (net net' : Net)
  | process
  | finish (status : Option SendStatus) (count : ℕ)
  /-- a callback returns -/
  | callbackReturns
  /-- `process` goes on -/
  | completeConnection (ready alive : Bool)
  | processOut (status : Option SendStatus) (count : ℕ) (attempt : Attempt)
  /-- whether the connection is still there; there is no result if an exception is thrown -/
  | receiveFromCynara (received : Option Bool) (attempt : Attempt)
  | getResponse (response : Response) (cached : Int32) (clock : Clock) (net : Net)
  /-- no response is complete, or an exception is thrown -/
  | noResponse

namespace Client

/-- The user or a callback is running, and not a function of the client. -/
def userRuns : List Frame → Bool
  | .process _ :: _ => false
  | _ => true

/-- The functions of the library may be called. -/
def isCallable (c : Client) : Bool := !c.finished && userRuns c.stack

/-- `process` has lost the connection. -/
def reconnect (attempt : Attempt) (logic : Logic) (stack : List Frame) (c : Client) : Client :=
  match logic.onDisconnected.connect attempt with
  | (some true, logic) =>
      { c with logic := logic, stack := .process .completeConnection :: stack }
  | (_, logic) => { c with logic := logic, stack := stack }

/-- A call of the client, unless it is made where the client is not callable. -/
def perform (c : Client) : Event → Option Client
  | .createRequest simple key session net =>
      if h : isKeyValid key ∧ isStringValid session then
        some
          { c with
            logic := (c.logic.createRequest simple ⟨key, isKeyValid_of_strings h⟩ session net).2 }
      else some c
  | .cancelRequest checkId net =>
      match c.logic.cancelRequest checkId net with
      | (.callback onAnswerCancel, logic) =>
          some { c with logic := logic, stack := .cancelRequest onAnswerCancel :: c.stack }
      | (_, logic) => some { c with logic := logic }
  | .checkCache key session cached clock alive net net' =>
      if h : isKeyValid key ∧ isStringValid session then
        some
          { c with
            logic := (c.logic.checkCache ⟨key, isKeyValid_of_strings h⟩ cached clock alive net
              net').2 }
      else some c
  | .process =>
      if c.logic.operationPermitted then
        some { c with stack := .process .completeConnection :: c.stack }
      else some c
  | .finish status count =>
      if c.logic.isFinishPermitted then
        let flushed := c.logic.tryFlushMonitor status count
        match flushed.thrown with
        | some _ => some { c with logic := flushed.state }
        | none => some { c with logic := flushed.state.finish, finished := true }
      else some c
  | _ => none

/-- The function that has been called last goes on. -/
def resume (c : Client) : Event → Option Client
  | .callbackReturns =>
      match c.stack with
      | .cancelRequest onAnswerCancel :: stack =>
          let logic := { c.logic with inAnswerCancelResponseCallback := onAnswerCancel }
          some { c with logic := logic.onStatusChange, stack := stack }
      | .processResponse onAnswerCancel :: stack =>
          let logic := { c.logic with inAnswerCancelResponseCallback := onAnswerCancel }
          some { c with logic := logic, stack := stack }
      | _ => none
  | .completeConnection ready alive =>
      match c.stack with
      | .process .completeConnection :: stack =>
          match c.logic.completeConnection ready alive with
          | (true, logic) => some { c with logic := logic, stack := .process .processOut :: stack }
          | (false, logic) => some { c with logic := logic, stack := stack }
      | _ => none
  | .processOut status count attempt =>
      match c.stack with
      | .process .processOut :: stack =>
          match c.logic.processOut status count with
          | (some true, logic) =>
              some { c with logic := logic, stack := .process .receiveFromCynara :: stack }
          | (some false, logic) => some (c.reconnect attempt logic stack)
          | (none, logic) => some { c with logic := logic, stack := stack }
      | _ => none
  | .receiveFromCynara received attempt =>
      match c.stack with
      | .process .receiveFromCynara :: stack =>
          match received with
          | some true => some { c with stack := .process .processResponses :: stack }
          | some false => some (c.reconnect attempt c.logic stack)
          | none => some { c with stack := stack }
      | _ => none
  | .getResponse response cached clock net =>
      match c.stack with
      | .process .processResponses :: stack =>
          match c.logic.processResponse response cached clock net with
          | (.returned _, logic) => some { c with logic := logic }
          | (.threw, logic) => some { c with logic := logic, stack := stack }
          | (.callback onAnswerCancel, logic) =>
              some { c with logic := logic, stack := .processResponse onAnswerCancel :: c.stack }
      | _ => none
  | .noResponse =>
      match c.stack with
      | .process .processResponses :: stack => some { c with stack := stack }
      | _ => none
  | _ => none

/-- The state after an event, if the event can happen. -/
def step (c : Client) (event : Event) : Option Client :=
  if c.isCallable then (c.perform event).or (c.resume event)
  else c.resume event

end Client

end ClientAsync

end Cynara
