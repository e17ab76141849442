import Cynara.Library.Maps
import Cynara.Monitor.EntriesQueue

/-!
# Monitor entries for several clients

The manager keeps the entries that some client has not fetched yet.  Each client has a
cursor, the id of the entry it gets next, and a buffer size.  For each id there is the list of
the clients whose cursor it is; after a fetch the entries before the lowest of these ids are
removed.

The lists and the register of waiting clients refer to the clients by their ids.

A function that may not return gives `none` then: it goes from bucket to bucket and is given fuel,
or it appends clients to the list that it takes them from.
-/

open Std

namespace Cynara

/-- The number of the connection of a monitor. -/
abbrev ClientId := ℤ

/-- `RequestContext::InvalidClientId`. -/
def invalidClientId : ClientId := -1

/-- A monitor: the entry it waits for, and how many it takes at once. -/
structure ClientInfo where
  clientId : ClientId
  fromId : EntryId
  bufferSize : ℤ
deriving DecidableEq

/-- The entries, the monitors, those of them that wait, and who waits for which entry. -/
structure EntriesManager (α : Type) where
  container : EntriesQueue α
  clients : ExtTreeMap ClientId ClientInfo
  registeredClients : ExtTreeSet ClientId
  entryCountMap : ExtTreeMap EntryId (List ClientId)

namespace EntriesManager

variable {α : Type}

/-- The constructor; the source takes the default sizes of the queue. -/
def new (maxQueueSize maxBucketSize : ℕ) : EntriesManager α :=
  ⟨.new maxQueueSize maxBucketSize, ∅, ∅, ∅⟩

/-! ### Cursors -/

/-- A monitor waits for this entry. -/
def addEntryCount (m : EntriesManager α) (entryId : EntryId) (client : ClientId) :
    EntriesManager α :=
  { m with
    entryCountMap := m.entryCountMap.insert entryId (m.entryCountMap.getD entryId [] ++ [client]) }

/-- The only client in a list is removed with the list, without a look at its id. -/
def removeEntryCount (m : EntriesManager α) (entryId : EntryId) (client : ClientId) :
    EntriesManager α :=
  let clientList := m.entryCountMap.getD entryId []
  if clientList.length = 1 then
    { m with entryCountMap := m.entryCountMap.erase entryId }
  else
    { m with entryCountMap := m.entryCountMap.insert entryId (clientList.erase client) }

/-- The next entry of a monitor. -/
def setFrom (m : EntriesManager α) (client : ClientId) (entryId : EntryId) : EntriesManager α :=
  { m with clients := m.clients.modify client fun info => { info with fromId := entryId } }

/-- A monitor goes on to another entry. -/
def updateClient (m : EntriesManager α) (info : ClientInfo) (entryId : EntryId) :
    EntriesManager α :=
  ((m.removeEntryCount info.fromId info.clientId).setFrom info.clientId entryId).addEntryCount
    entryId info.clientId

/-- A monitor waits for a response. -/
def registerClient (m : EntriesManager α) (client : ClientId) : EntriesManager α :=
  { m with registeredClients := m.registeredClients.insert client }

/-- A monitor does not wait any more. -/
def unregisterClient (m : EntriesManager α) (client : ClientId) : EntriesManager α :=
  { m with registeredClients := m.registeredClients.erase client }

/-- The entries before the lowest cursor are removed. -/
def cleanup (fuel : ℕ) (m : EntriesManager α) : Option (EntriesManager α) :=
  if m.clients.isEmpty then
    some { m with container := m.container.clear }
  else
    match m.entryCountMap.keys.head? with
    | none => some m
    | some lowestWaitedEntryId =>
        (m.container.popUntil fuel lowestWaitedEntryId).map fun container =>
          { m with container := container }

/-- The loop of `squashEntries`: the clients of some lists are moved to another cursor, at the end
of the list of this cursor. -/
def squashLists (newId : EntryId) :
    List (EntryId × List ClientId) → EntriesManager α → Option (EntriesManager α)
  | [], m => some m
  | (entryId, clients) :: entries, m =>
      -- a loop over a list that grows with each turn does not end
      if entryId = newId ∧ m.entryCountMap.getD newId [] ≠ [] then none
      else
        squashLists newId entries
          (clients.foldl (fun m client => (m.setFrom client newId).addEntryCount newId client) m)

/-- Clients whose cursors satisfy a condition are moved to another cursor, and their lists are
removed. -/
def squashEntries (m : EntriesManager α) (newId : EntryId) (outdated : EntryId → Bool) :
    Option (EntriesManager α) :=
  let entries := m.entryCountMap.toList.filter fun entry => outdated entry.1
  (squashLists newId entries m).map fun m =>
    { m with
      entryCountMap := entries.foldl (fun countMap entry => countMap.erase entry.1)
        m.entryCountMap }

/-- The cursors that are not between the front and the back of the queue are moved to the front,
which has a list then, even if it is empty. -/
def squashRequests (m : EntriesManager α) : Option (EntriesManager α) :=
  let frontId := m.container.getFrontEntryId
  let backId := m.container.getBackEntryId
  let m :=
    { m with
      entryCountMap := m.entryCountMap.insert frontId (m.entryCountMap.getD frontId []) }
  if frontId > backId then
    m.squashEntries frontId fun entryId => backId ≤ entryId && entryId < frontId
  else do
    let m ← m.squashEntries frontId fun entryId => entryId < frontId
    m.squashEntries frontId fun entryId => backId ≤ entryId

/-! ### Operations -/

/-- There are as many entries as the monitor takes at once. -/
def isClientFilled (m : EntriesManager α) (client : ClientInfo) : Bool :=
  client.bufferSize ≤ m.container.sizeFrom client.fromId

/-- The info of a client that waits for entries. -/
def registered? (m : EntriesManager α) (client : ClientId) : Option ClientInfo :=
  if client ∈ m.registeredClients then m.clients[client]? else none

/-- How many entries a client gets. -/
def entriesToFetch (m : EntriesManager α) (info : ClientInfo) : ℤ :=
  min (m.container.sizeFrom info.fromId) info.bufferSize

/-- The entries for a monitor that waits, if they are enough or are forced; the monitor goes on. -/
def fetchEntriesForClient (fuel : ℕ) (m : EntriesManager α) (client : ClientId) (force : Bool) :
    Option (EntriesManager α × List α) :=
  match m.registered? client with
  | none => some (m, [])
  | some info =>
      if !force && !m.isClientFilled info then some (m, [])
      else do
        let (nextNotFetchedEntry, entries) ←
          m.container.fetch fuel info.fromId (m.entriesToFetch info) []
        let m ← ((m.updateClient info nextNotFetchedEntry).unregisterClient client).cleanup fuel
        return (m, entries)

/-- A new monitor starts behind the last entry. -/
def addClient (m : EntriesManager α) (client : ClientId) (bufferSize : UInt16) :
    EntriesManager α × Bool :=
  if client = invalidClientId then (m, false)
  else if client ∈ m.clients then (m, false)
  else
    let startPoint := m.container.getBackEntryId
    let m :=
      { m with clients := m.clients.insert client ⟨client, startPoint, bufferSize.toNat⟩ }
    ((m.addEntryCount startPoint client).registerClient client, true)

/-- A monitor leaves, and entries that nobody waits for are removed. -/
def removeClient (fuel : ℕ) (m : EntriesManager α) (client : ClientId) :
    Option (EntriesManager α × Bool) :=
  match m.clients[client]? with
  | none => some (m, false)
  | some info =>
      let m := (m.unregisterClient client).removeEntryCount info.fromId info.clientId
      (cleanup fuel { m with clients := m.clients.erase client }).map fun m => (m, true)

/-- A monitor asks again, maybe for another number of entries. -/
def modifyClient (m : EntriesManager α) (client : ClientId) (bufferSize : UInt16) :
    EntriesManager α × Bool :=
  if client ∈ m.clients then
    let m :=
      { m with
        clients := m.clients.modify client fun info =>
          { info with bufferSize := bufferSize.toNat } }
    (m.registerClient client, true)
  else
    (m, false)

/-- A new entry, which is kept only if there is a monitor. -/
def addEntry (m : EntriesManager α) (entry : α) : Option (EntriesManager α × Bool) :=
  if m.clients.isEmpty then some (m, false)
  else
    let (container, overflow) := m.container.push entry
    let m := { m with container := container }
    (if overflow then m.squashRequests else some m).map fun m => (m, true)

end EntriesManager

end Cynara
