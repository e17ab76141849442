import Cynara.Client.AsyncLogic

/-!
# The synchronous client

A check is answered from the cache, or the service is asked and its answer is stored in the cache.
The request is sent again as long as the connection is lost before the answer has come, and each
time the cache is cleared.  A result is recorded in the cache of the monitor, which is sent to the
service when it is full or old.

As for the asynchronous client, the results of the system calls are given with the calls of the
client: whether the socket is found connected, whether an attempt to connect succeeds, and what
comes back from the service.  Where such a result is missing an exception is thrown.
-/

namespace Cynara

namespace ClientSync

open ProtocolClient
open ClientAsync (ValidKey ValidEntry MonitorCache Clock)

/-- Whether the socket is found connected, and whether a new attempt succeeds if it is not. -/
structure Net where
  isConnected : Bool
  connect : Option Bool

/-- A turn of the loop of `requestResponse`: what `askCynaraServer` returns, and whether the attempt
to connect again succeeds if it is null. -/
structure Turn where
  response : Option (Option Response)
  connect : Option Bool

/-- What happens when the monitor is flushed: the connection, and whether the request is sent. -/
structure Flush where
  net : Net
  sent : Option Bool

/-- The state of the client.  The requests that have been handed to the socket are recorded. -/
structure Logic where
  cache : CapacityCache
  monitoringEnabled : Bool
  monitorCache : MonitorCache := {}
  sequenceNumber : UInt16 := 0
  requests : List Request := []

namespace Logic

/-- A lost connection makes the cache void. -/
def onDisconnected (σ : Logic) : Logic := { σ with cache := σ.cache.clear }

/-- A new connection is tried if there is none, with an empty cache. -/
def ensureConnection (net : Net) (σ : Logic) : Option Bool × Logic :=
  if net.isConnected then (some true, σ) else (net.connect, σ.onDisconnected)

/-- The request is asked until there is a response or no connection.  There is no outcome if the
turns that are given do not suffice. -/
def askLoop (request : Request) : List Turn → Logic → Option (Option (Option Response) × Logic)
  | [], _ => none
  | turn :: turns, σ =>
      let σ := { σ with requests := σ.requests ++ [request] }
      match turn.response with
      | none => some (none, σ)
      | some (some response) => some (some (some response), σ)
      | some none =>
          match turn.connect with
          | none => some (none, σ.onDisconnected)
          | some false => some (some none, σ.onDisconnected)
          | some true => askLoop request turns σ.onDisconnected

/-- The request is given by its sequence number. -/
def requestResponse (request : UInt16 → Request) (turns : List Turn) (σ : Logic) :
    Option (Option (Option Response) × Logic) :=
  let sequenceNumber := σ.sequenceNumber + 1
  askLoop (request sequenceNumber) turns { σ with sequenceNumber := sequenceNumber }

/-- The code that is returned, and the result if there is one. -/
def requestResult (key : ValidKey) (turns : List Turn) (σ : Logic) :
    Option (Option (Int32 × PolicyResult) × Logic) :=
  (σ.requestResponse (.check key.val) turns).map fun (response, σ) =>
    (response.map fun
      | some (.check result _) => (CYNARA_API_SUCCESS, result)
      | _ => (CYNARA_API_SERVICE_NOT_AVAILABLE, {}), σ)

/-- A simple check at the service, and what it answers. -/
def requestSimpleResult (key : ValidKey) (turns : List Turn) (σ : Logic) :
    Option (Option (Int32 × PolicyResult) × Logic) :=
  (σ.requestResponse (.simpleCheck key.val) turns).map fun (response, σ) =>
    (response.map fun
      | some (.simpleCheck retValue result _) =>
          if retValue ≠ CYNARA_API_SUCCESS then (retValue, {}) else (CYNARA_API_SUCCESS, result)
      | _ => (CYNARA_API_SERVICE_NOT_AVAILABLE, {}), σ)

/-- The entries are cleared if they have been sent. -/
def flushMonitor (flush : Flush) (σ : Logic) : Outcome Unit Logic :=
  if ¬ σ.monitoringEnabled then .returned σ
  else if σ.monitorCache.entries.isEmpty then .returned σ
  else
    match σ.ensureConnection flush.net with
    | (none, σ) => .threw () σ
    | (some false, σ) => .returned σ
    | (some true, σ) =>
        let sequenceNumber := σ.sequenceNumber + 1
        let request := .monitorEntriesPut (σ.monitorCache.entries.map Subtype.val) sequenceNumber
        let σ := { σ with sequenceNumber := sequenceNumber, requests := σ.requests ++ [request] }
        match flush.sent with
        | none => .threw () σ
        | some false => .returned σ
        | some true => .returned { σ with monitorCache := σ.monitorCache.clear }

/-- The result is noted, and what has been noted is sent if it is time. -/
def updateMonitor (policyKey : ValidKey) (result : Int32) (clock : Clock) (flush : Flush)
    (σ : Logic) : Outcome Unit Logic :=
  if ¬ σ.monitoringEnabled then .returned σ
  else
    let σ := { σ with monitorCache := σ.monitorCache.update policyKey result clock }
    if σ.monitorCache.shouldFlush then σ.flushMonitor flush else .returned σ

/-- What happens during a check. -/
structure Surroundings where
  net : Net
  turns : List Turn
  clock : Clock
  flush : Flush

variable (plugins : PolicyType → Option ClientPlugin)

/-- The result is stored, and its translation is returned. -/
def update (session : ClientSession) (key : ValidKey) (result : PolicyResult) (σ : Logic) :
    Option (Option Int32 × Logic) := do
  let (ret, cache) ← σ.cache.update plugins session key.val result
  return (some (Int32.ofInt ret), { σ with cache := cache })

/-- What is returned.  There is no outcome if the cache uses an element that has been erased or
the service is asked without end. -/
def check (key : ValidKey) (session : ClientSession) (env : Surroundings) (σ : Logic) :
    Option (Option Int32 × Logic) :=
  match σ.ensureConnection env.net with
  | (none, σ) => some (none, σ)
  | (some false, σ) => some (some CYNARA_API_SERVICE_NOT_AVAILABLE, σ)
  | (some true, σ) => do
      let (ret, cache) ← σ.cache.get plugins session key.val
      let ret := Int32.ofInt ret
      let σ := { σ with cache := cache }
      if ret ≠ CYNARA_API_CACHE_MISS then
        let updated := σ.updateMonitor key ret env.clock env.flush
        return (if updated.thrown.isSome then none else some ret, updated.state)
      else
        match ← σ.requestResult key env.turns with
        | (none, σ) => return (none, σ)
        | (some (ret, result), σ) =>
            if ret ≠ CYNARA_API_SUCCESS then return (some ret, σ)
            else
              let updated := σ.updateMonitor key ret env.clock env.flush
              if updated.thrown.isSome then return (none, updated.state)
              else updated.state.update plugins session key result

/-- `simpleCheck`, which is not noted in the monitor. -/
def simpleCheck (key : ValidKey) (session : ClientSession) (env : Surroundings) (σ : Logic) :
    Option (Option Int32 × Logic) :=
  match σ.ensureConnection env.net with
  | (none, σ) => some (none, σ)
  | (some false, σ) => some (some CYNARA_API_SERVICE_NOT_AVAILABLE, σ)
  | (some true, σ) => do
      let (ret, cache) ← σ.cache.get plugins session key.val
      let ret := Int32.ofInt ret
      let σ := { σ with cache := cache }
      if ret ≠ CYNARA_API_CACHE_MISS then return (some ret, σ)
      else
        match ← σ.requestSimpleResult key env.turns with
        | (none, σ) => return (none, σ)
        | (some (ret, result), σ) =>
            if ret ≠ CYNARA_API_SUCCESS then return (some ret, σ)
            else σ.update plugins session key result

end Logic

end ClientSync

end Cynara
