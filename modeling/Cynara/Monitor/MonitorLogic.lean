import Cynara.Library.Runs
import Cynara.Monitor.Cursors

/-!
# Responses to monitor clients

A monitor client asks for entries and gets one response, when there are enough entries or when
it asks to flush.  The responses that are due are put into a cache, at most one for each client,
and sent after each request.

A request to flush that comes after the response to the last request for entries is answered
again, with the same sequence number and without entries.  Where this does not happen, the
sequence numbers of the responses to a client are, in order, some of those of its requests for
entries.
-/

open Std

namespace Cynara

variable {α : Type}

/-! ### What the manager does to its registers -/

namespace EntriesManager

/-- `isClientFilled` for the id of a client, which may be unknown or not waiting. -/
def isClientFilledById (m : EntriesManager α) (client : ClientId) : Bool :=
  (m.registered? client).any m.isClientFilled

/-- The first waiting client for which there are enough entries; the source returns -1 if there
is none. -/
def getFilledClientId (m : EntriesManager α) : Option ClientId :=
  m.registeredClients.toList.find? m.isClientFilledById

/-- A client that waits, and has enough entries or flushes, waits no more after a fetch. -/
theorem fetchEntriesForClient_registered {fuel : ℕ} {m m' : EntriesManager α} {c : ClientId}
    {force : Bool} {entries : List α} {info : ClientInfo} (hinfo : m.registered? c = some info)
    (hdue : force = true ∨ m.isClientFilled info = true)
    (h : m.fetchEntriesForClient fuel c force = some (m', entries)) :
  (∀ c', c' ∈ m'.clients ↔ c' ∈ m.clients) ∧ m'.registeredClients = m.registeredClients.erase c
  := by
  have hgo : (!force && !m.isClientFilled info) = false := by
    obtain rfl | hfilled := hdue
    · rfl
    · simp [hfilled]
  simp only [fetchEntriesForClient, hinfo, hgo, Bool.false_eq_true, ↓reduceIte] at h
  obtain ⟨⟨next, fetched⟩, -, h⟩ := Option.bind_eq_some_iff.mp h
  obtain ⟨cleaned, hcleanup, h⟩ := Option.bind_eq_some_iff.mp h
  obtain ⟨rfl, -⟩ := Prod.mk.inj (Option.some.inj h)
  have hupdate := SameClients.updateClient m info next
  have hclean := SameClients.cleanup hcleanup
  constructor
  · intro c'
    exact (hclean.clients c').trans (hupdate.clients c')
  · rw [hclean.registered, unregisterClient, hupdate.registered]

/-- Adding a client: it is refused and nothing changes, or the client is new and waits. -/
theorem addClient_cases (m : EntriesManager α) (c : ClientId) (bufferSize : UInt16) :
  m.addClient c bufferSize = (m, false)
    ∨ (m.addClient c bufferSize).2 = true
      ∧ (∀ c', c' ∈ (m.addClient c bufferSize).1.clients ↔ c = c' ∨ c' ∈ m.clients)
      ∧ (m.addClient c bufferSize).1.registeredClients = m.registeredClients.insert c
  := by
  unfold addClient
  split
  · exact Or.inl rfl
  · split
    · exact Or.inl rfl
    · refine Or.inr ⟨rfl, ?_, rfl⟩
      intro c'
      simp only [registerClient, addEntryCount, ExtTreeMap.mem_insert, Std.compare_eq_iff_eq]

/-- A client that is known is modified, and waits from then on. -/
theorem modifyClient_of_mem {m : EntriesManager α} {c : ClientId} (h : c ∈ m.clients)
    (bufferSize : UInt16) :
  (m.modifyClient c bufferSize).2 = true
    ∧ (∀ c', c' ∈ (m.modifyClient c bufferSize).1.clients ↔ c' ∈ m.clients)
    ∧ (m.modifyClient c bufferSize).1.registeredClients = m.registeredClients.insert c
  := by
  unfold modifyClient
  rw [if_pos h]
  exact ⟨rfl, fun _ => ExtTreeMap.mem_modify, rfl⟩

/-- A client is removed from the registers; one that is not known is not in them. -/
theorem removeClient_clients {fuel : ℕ} {m m' : EntriesManager α} {c : ClientId} {found : Bool}
    (hregistered : ∀ c' ∈ m.registeredClients, c' ∈ m.clients)
    (h : m.removeClient fuel c = some (m', found)) :
  (∀ c', c' ∈ m'.clients ↔ c ≠ c' ∧ c' ∈ m.clients)
    ∧ ∀ c', c' ∈ m'.registeredClients ↔ c ≠ c' ∧ c' ∈ m.registeredClients
  := by
  unfold removeClient at h
  cases hc : m.clients[c]? with
  | none =>
      simp only [hc, Option.some.injEq, Prod.mk.injEq] at h
      obtain ⟨rfl, -⟩ := h
      have hnot : c ∉ m.clients := by simp [ExtTreeMap.mem_iff_isSome_getElem?, hc]
      have hne : ∀ c' ∈ m.clients, c ≠ c' := by
        rintro c' hc' rfl
        exact hnot hc'
      exact ⟨fun c' => ⟨fun h => ⟨hne c' h, h⟩, And.right⟩,
        fun c' => ⟨fun h => ⟨hne c' (hregistered c' h), h⟩, And.right⟩⟩
  | some info =>
      simp only [hc] at h
      obtain ⟨cleaned, hcleanup, h⟩ := Option.map_eq_some_iff.mp h
      obtain ⟨rfl, -⟩ := Prod.mk.inj h
      have hclean := SameClients.cleanup hcleanup
      have hremove := SameClients.removeEntryCount (m.unregisterClient c) info.fromId info.clientId
      constructor
      · intro c'
        rw [hclean.clients, ExtTreeMap.mem_erase, hremove.clients]
        simp [unregisterClient]
      · intro c'
        rw [hclean.registered, show _ = _ from hremove.registered]
        simp [unregisterClient, ExtTreeSet.mem_erase]

/-- A client that waits is registered. -/
theorem mem_of_registered? {m : EntriesManager α} {c : ClientId} {info : ClientInfo}
    (h : m.registered? c = some info) :
  c ∈ m.registeredClients
  := by
  unfold registered? at h
  split at h
  · assumption
  · contradiction

end EntriesManager

/-! ### The logic -/

/-- The connection of a client, given by its descriptor, and the sequence number of its last
request for entries. -/
structure MonitorResponseInfo where
  context : ClientId
  seq : UInt16
deriving DecidableEq

/-- The entries for a monitor, with the request they answer. -/
structure MonitorResponse (α : Type) where
  info : MonitorResponseInfo
  entries : List α
deriving DecidableEq

/-- The entries, the responses that have not been sent, and the requests that wait. -/
structure MonitorLogic (α : Type) where
  manager : EntriesManager α
  responseCache : ExtTreeMap ClientId (MonitorResponse α)
  clients : ExtTreeMap ClientId MonitorResponseInfo

namespace MonitorLogic

def new (maxQueueSize maxBucketSize : ℕ) : MonitorLogic α :=
  ⟨.new maxQueueSize maxBucketSize, ∅, ∅⟩

/-- The entries of a client are fetched and put into the cache, unless there is a response to it
already. -/
def emplace (fuel : ℕ) (m : MonitorLogic α) (info : MonitorResponseInfo) (force : Bool) :
    Option (MonitorLogic α) :=
  (m.manager.fetchEntriesForClient fuel info.context force).map fun (manager, entries) =>
    { m with
      manager := manager
      responseCache := m.responseCache.insertIfNew info.context ⟨info, entries⟩ }

/-- A client is added or its sequence number is replaced; `none` if the manager refuses. -/
def register (m : MonitorLogic α) (context : ClientId) (seq bufferSize : UInt16) :
    Option (MonitorLogic α) :=
  match m.clients[context]? with
  | none =>
      let (manager, success) := m.manager.addClient context bufferSize
      if success then
        some { m with manager := manager, clients := m.clients.insert context ⟨context, seq⟩ }
      else none
  | some info =>
      let (manager, success) := m.manager.modifyClient context bufferSize
      if success then
        some { m with manager := manager, clients := m.clients.insert context { info with seq } }
      else none

/-- A monitor asks for entries. -/
def addClient (fuel : ℕ) (m : MonitorLogic α) (context : ClientId) (seq bufferSize : UInt16) :
    Option (MonitorLogic α) :=
  match m.register context seq bufferSize with
  | none => some m
  | some m =>
      if m.manager.isClientFilledById context then m.emplace fuel ⟨context, seq⟩ false else some m

/-- The loop of `addEntry` over the clients for which there are enough entries. -/
def answerFilled (fuel : ℕ) : ℕ → MonitorLogic α → Option (MonitorLogic α)
  | 0, _ => none
  | turns + 1, m =>
      match m.manager.getFilledClientId with
      | none => some m
      | some id =>
          match m.clients[id]? with
          | none => some m
          | some info => (m.emplace fuel info false).bind (answerFilled fuel turns)

/-- A new entry may fill the response of one or more monitors. -/
def addEntry (fuel : ℕ) (m : MonitorLogic α) (e : α) : Option (MonitorLogic α) :=
  (m.manager.addEntry e).bind fun (manager, added) =>
    if added then answerFilled fuel fuel { m with manager := manager } else some m

/-- A monitor leaves, and its responses with it. -/
def removeClient (fuel : ℕ) (m : MonitorLogic α) (context : ClientId) : Option (MonitorLogic α) :=
  (m.manager.removeClient fuel context).map fun (manager, _) =>
    ⟨manager, m.responseCache.erase context, m.clients.erase context⟩

/-- A monitor asks for what there is. -/
def flushClient (fuel : ℕ) (m : MonitorLogic α) (context : ClientId) : Option (MonitorLogic α) :=
  match m.clients[context]? with
  | none => some m
  | some info => m.emplace fuel info true

/-- The responses in the cache, which is cleared. -/
def getResponses (m : MonitorLogic α) : List (MonitorResponse α) × MonitorLogic α :=
  (m.responseCache.toList.map Prod.snd, { m with responseCache := ∅ })

/-- What the service gets from the connections. -/
inductive Event (α : Type) where
  | getEntries (context : ClientId) (seq bufferSize : UInt16)
  | getFlush (context : ClientId)
  | entriesPut (entries : List α)
  | close (context : ClientId)

/-- The logic with the sequence numbers of the requests for entries that have been received on
each connection, and with the responses that have been sent on the open connections. -/
structure Tracked (α : Type) where
  logic : MonitorLogic α
  received : ClientId → List UInt16
  sent : List (MonitorResponse α)

namespace Tracked

/-- The responses that have been sent to a client. -/
def sentTo (t : Tracked α) (c : ClientId) : List (MonitorResponse α) :=
  t.sent.filter fun response => response.info.context = c

/-- All responses that are ready are sent. -/
def sendMonitorResponses (t : Tracked α) : Tracked α :=
  { t with logic := t.logic.getResponses.2, sent := t.sent ++ t.logic.getResponses.1 }

/-- A request for entries is received. -/
def receive (t : Tracked α) (context : ClientId) (seq : UInt16) : Tracked α :=
  { t with received := Function.update t.received context (t.received context ++ [seq]) }

/-- An entry is put, and the responses are sent. -/
def entryPut (fuel : ℕ) (t : Tracked α) (e : α) : Option (Tracked α) :=
  (t.logic.addEntry fuel e).map fun logic => sendMonitorResponses { t with logic }

/-- The service after a request, or `none` if it is still running.  The descriptor of a closed
connection may be used again, so what was received and sent on it is forgotten. -/
def step (fuel : ℕ) (t : Tracked α) : Event α → Option (Tracked α)
  | .getEntries context seq bufferSize =>
      (t.logic.addClient fuel context seq bufferSize).map fun logic =>
        sendMonitorResponses { t.receive context seq with logic }
  | .getFlush context =>
      (t.logic.flushClient fuel context).map fun logic => sendMonitorResponses { t with logic }
  | .entriesPut entries => entries.foldlM (entryPut fuel) t
  | .close context =>
      (t.logic.removeClient fuel context).map fun logic =>
        { logic
          received := Function.update t.received context []
          sent := t.sent.filter fun response => response.info.context ≠ context }

/-! ### Accounts -/

/-- The responses to a client that have been sent or will be sent. -/
def due (t : Tracked α) (c : ClientId) : List (MonitorResponse α) :=
  t.sentTo c ++ t.logic.responseCache[c]?.toList

/-- The sequence numbers of the responses to a client. -/
def numbers (t : Tracked α) (c : ClientId) : List UInt16 :=
  (t.due c).map fun response => response.info.seq

/-- The registers agree, and the responses to a client are answers to some of its requests: while
it waits, to requests before the last one. -/
structure Accounted (t : Tracked α) : Prop where
  clients : ∀ c, c ∈ t.logic.manager.clients ↔ c ∈ t.logic.clients
  registered : ∀ c ∈ t.logic.manager.registeredClients, c ∈ t.logic.clients
  context : ∀ (c : ClientId) info, t.logic.clients[c]? = some info → info.context = c
  cached : ∀ (c : ClientId) response, t.logic.responseCache[c]? = some response →
    response.info.context = c
  unknown : ∀ c, c ∉ t.logic.clients → t.numbers c = []
  waiting : ∀ c info, t.logic.clients[c]? = some info →
    c ∈ t.logic.manager.registeredClients →
      ∃ before, t.received c = before ++ [info.seq] ∧ (t.numbers c).Sublist before
  answered : ∀ c, (t.numbers c).Sublist (t.received c)

variable {t : Tracked α}

/-- Another state of the manager with the same registers. -/
theorem Accounted.sameClients (h : Accounted t) {manager : EntriesManager α}
    (hsame : EntriesManager.SameClients t.logic.manager manager) :
  Accounted { t with logic := { t.logic with manager } }
  where
  clients c := (hsame.clients c).trans (h.clients c)
  registered c hc := h.registered c (hsame.registered ▸ hc)
  context := h.context
  cached := h.cached
  unknown := h.unknown
  waiting c info hinfo hc := h.waiting c info hinfo (hsame.registered ▸ hc)
  answered := h.answered

/-- A response in the cache counts for the client it is for. -/
theorem numbers_emplace {c c' : ClientId} {manager : EntriesManager α} {info : MonitorResponseInfo}
    {entries : List α} :
  numbers { t with logic := { t.logic with
      manager := manager
      responseCache := t.logic.responseCache.insertIfNew c ⟨info, entries⟩ } } c'
    = if c = c' ∧ c ∉ t.logic.responseCache then t.numbers c' ++ [info.seq] else t.numbers c'
  := by
  simp only [numbers, due, sentTo, ExtTreeMap.getElem?_insertIfNew, Std.compare_eq_iff_eq]
  split
  · rename_i hnew
    obtain ⟨rfl, hnew⟩ := hnew
    simp [hnew]
  · rfl

/-- A client that waits is answered. -/
theorem Accounted.emplace (h : Accounted t) {info : MonitorResponseInfo}
    (hinfo : t.logic.clients[info.context]? = some info) {client : ClientInfo}
    (hclient : t.logic.manager.registered? info.context = some client) {force : Bool}
    (hdue : force = true ∨ t.logic.manager.isClientFilled client = true) {fuel : ℕ}
    {logic : MonitorLogic α} (hemplace : t.logic.emplace fuel info force = some logic) :
  Accounted { t with logic }
  := by
  obtain ⟨⟨manager, entries⟩, hfetch, rfl⟩ := Option.map_eq_some_iff.mp hemplace
  obtain ⟨hclients, hregistered⟩ :=
    EntriesManager.fetchEntriesForClient_registered hclient hdue hfetch
  obtain ⟨before, hreceived, hsublist⟩ :=
    h.waiting info.context info hinfo (EntriesManager.mem_of_registered? hclient)
  have hmem : ∀ c, c ∈ manager.registeredClients
      ↔ info.context ≠ c ∧ c ∈ t.logic.manager.registeredClients := by
    intro c
    simp [hregistered, ExtTreeSet.mem_erase]
  constructor
  · intro c
    exact (hclients c).trans (h.clients c)
  · intro c hc
    exact h.registered c ((hmem c).mp hc).2
  · exact h.context
  · intro c response hresponse
    simp only [ExtTreeMap.getElem?_insertIfNew, Std.compare_eq_iff_eq] at hresponse
    split at hresponse
    · rename_i hnew
      obtain rfl := Option.some.inj hresponse
      exact hnew.1
    · exact h.cached c response hresponse
  · intro c hc
    rw [numbers_emplace, if_neg]
    · exact h.unknown c hc
    · rintro ⟨rfl, -⟩
      apply hc
      rw [ExtTreeMap.mem_iff_isSome_getElem?, hinfo]
      rfl
  · intro c info' hinfo' hc
    obtain ⟨hne, hc⟩ := (hmem c).mp hc
    rw [numbers_emplace, if_neg fun hnew => hne hnew.1]
    exact h.waiting c info' hinfo' hc
  · intro c
    rw [numbers_emplace]
    split
    · rename_i hnew
      obtain ⟨rfl, -⟩ := hnew
      rw [show ({ t with logic := _ } : Tracked α).received = t.received from rfl, hreceived]
      exact hsublist.append_right [info.seq]
    · exact h.answered c

/-- Sending what is in the cache does not change what is due. -/
theorem due_sendMonitorResponses (h : Accounted t) (c : ClientId) :
  t.sendMonitorResponses.due c = t.due c
  := by
  have hcache : (t.logic.responseCache.toList.map Prod.snd).filter
      (fun response => response.info.context = c) = t.logic.responseCache[c]?.toList := by
    have hkeys : t.logic.responseCache.toList.filter
        ((fun response => decide (response.info.context = c)) ∘ Prod.snd)
        = t.logic.responseCache.toList.filter fun e => e.1 = c := by
      apply List.filter_congr
      rintro ⟨c', response⟩ hmem
      have hcontext := h.cached c' response (ExtTreeMap.mem_toList_iff_getElem?_eq_some.mp hmem)
      simp [hcontext]
    rw [List.filter_map, hkeys, ExtTreeMap.filter_toList, List.map_map]
    exact List.map_id _
  simp [due, sentTo, sendMonitorResponses, getResponses, hcache]

theorem Accounted.sendMonitorResponses (h : Accounted t) :
  Accounted t.sendMonitorResponses
  := by
  have hnumbers : ∀ c, t.sendMonitorResponses.numbers c = t.numbers c := by
    intro c
    rw [numbers, numbers, due_sendMonitorResponses h]
  refine ⟨h.clients, h.registered, h.context, ?_, ?_, ?_, ?_⟩
  · intro c response hresponse
    simp [Tracked.sendMonitorResponses, getResponses] at hresponse
  · intro c hc
    rw [hnumbers]
    exact h.unknown c hc
  · intro c info hinfo hc
    rw [hnumbers]
    exact h.waiting c info hinfo hc
  · intro c
    rw [hnumbers]
    exact h.answered c

/-- A client that is known is known to the manager. -/
theorem Accounted.mem_manager (h : Accounted t) {c : ClientId} {info : MonitorResponseInfo}
    (hinfo : t.logic.clients[c]? = some info) :
  c ∈ t.logic.manager.clients
  := by
  rw [h.clients, ExtTreeMap.mem_iff_isSome_getElem?, hinfo]
  rfl

theorem received_receive_self (t : Tracked α) (context : ClientId) (seq : UInt16) :
  (t.receive context seq).received context = t.received context ++ [seq]
  := Function.update_self _ _ _

theorem received_receive_of_ne (t : Tracked α) {context c : ClientId} (hne : context ≠ c)
    (seq : UInt16) :
  (t.receive context seq).received c = t.received c
  := Function.update_of_ne (Ne.symm hne) _ _

theorem sublist_receive (h : Accounted t) (context : ClientId) (seq : UInt16) (c : ClientId) :
  (t.numbers c).Sublist ((t.receive context seq).received c)
  := by
  by_cases hc : context = c
  · subst hc
    rw [received_receive_self]
    exact (h.answered context).trans (List.sublist_append_left _ _)
  · rw [received_receive_of_ne t hc]
    exact h.answered c

/-- A client that asks for entries waits for them, unless it is refused. -/
theorem Accounted.register (h : Accounted t) (context : ClientId) (seq bufferSize : UInt16) :
  match t.logic.register context seq bufferSize with
  | none => Accounted (t.receive context seq)
  | some logic => Accounted { t.receive context seq with logic }
      ∧ logic.clients[context]? = some ⟨context, seq⟩
  := by
  -- the registers after the client has been entered
  have hentered : ∀ manager : EntriesManager α,
      (∀ c, c ∈ manager.clients ↔ context = c ∨ c ∈ t.logic.manager.clients) →
      manager.registeredClients = t.logic.manager.registeredClients.insert context →
      Accounted { t.receive context seq with
        logic := { t.logic with
          manager := manager, clients := t.logic.clients.insert context ⟨context, seq⟩ } } := by
    intro manager hclients hregistered
    have hmem : ∀ c, c ∈ t.logic.clients.insert context ⟨context, seq⟩
        ↔ context = c ∨ c ∈ t.logic.clients := by
      simp [ExtTreeMap.mem_insert]
    refine ⟨?_, ?_, ?_, h.cached, ?_, ?_, sublist_receive h context seq⟩
    · intro c
      rw [hclients, hmem, h.clients]
    · intro c hc
      rw [hregistered, ExtTreeSet.mem_insert, Std.compare_eq_iff_eq] at hc
      rw [hmem]
      exact hc.imp_right (h.registered c)
    · intro c info hinfo
      simp only [ExtTreeMap.getElem?_insert, Std.compare_eq_iff_eq] at hinfo
      split at hinfo
      · rename_i heq
        obtain rfl := Option.some.inj hinfo
        exact heq
      · exact h.context c info hinfo
    · intro c hc
      exact h.unknown c fun hc' => hc ((hmem c).mpr (Or.inr hc'))
    · intro c info hinfo hc
      simp only [ExtTreeMap.getElem?_insert, Std.compare_eq_iff_eq] at hinfo
      split at hinfo
      · rename_i heq
        subst heq
        obtain rfl := Option.some.inj hinfo
        exact ⟨t.received context, received_receive_self t context seq, h.answered context⟩
      · rename_i hne
        rw [hregistered, ExtTreeSet.mem_insert, Std.compare_eq_iff_eq] at hc
        obtain ⟨before, hreceived, hsublist⟩ := h.waiting c info hinfo (hc.resolve_left hne)
        exact ⟨before, (received_receive_of_ne t hne seq).trans hreceived, hsublist⟩
  unfold MonitorLogic.register
  cases hcontext : t.logic.clients[context]? with
  | none =>
      obtain hrefused | ⟨hsuccess, hclients, hregistered⟩ :=
        t.logic.manager.addClient_cases context bufferSize
      · simp only [hrefused, Bool.false_eq_true, ↓reduceIte]
        refine ⟨h.clients, h.registered, h.context, h.cached, h.unknown, ?_,
          sublist_receive h context seq⟩
        intro c info hinfo hc
        have hne : context ≠ c := by
          rintro rfl
          rw [show (t.receive context seq).logic.clients[context]? = none from hcontext] at hinfo
          contradiction
        obtain ⟨before, hreceived, hsublist⟩ := h.waiting c info hinfo hc
        exact ⟨before, (received_receive_of_ne t hne seq).trans hreceived, hsublist⟩
      · simp only [hsuccess, ↓reduceIte]
        exact ⟨hentered _ hclients hregistered, by simp⟩
  | some info =>
      have hmem := h.mem_manager hcontext
      obtain ⟨hsuccess, hclients, hregistered⟩ :=
        EntriesManager.modifyClient_of_mem hmem bufferSize
      obtain ⟨context', seq'⟩ := info
      obtain rfl : context' = context := h.context context _ hcontext
      simp only [hsuccess, ↓reduceIte]
      refine ⟨hentered _ ?_ hregistered, by simp⟩
      intro c
      rw [hclients, iff_or_self]
      rintro rfl
      exact hmem

theorem Accounted.addClient (h : Accounted t) {fuel : ℕ} {context : ClientId}
    {seq bufferSize : UInt16} {logic : MonitorLogic α}
    (hadd : t.logic.addClient fuel context seq bufferSize = some logic) :
  Accounted { t.receive context seq with logic }
  := by
  have hregister := h.register context seq bufferSize
  unfold MonitorLogic.addClient at hadd
  split at hadd
  · rename_i hrefused
    rw [hrefused] at hregister
    obtain rfl := Option.some.inj hadd
    exact hregister
  · rename_i registered hregistered
    rw [hregistered] at hregister
    obtain ⟨hregister, hinfo⟩ := hregister
    split at hadd
    · rename_i hfilled
      obtain ⟨client, hclient, hfilled⟩ := (Option.any_eq_true _ _).mp hfilled
      exact hregister.emplace hinfo hclient (Or.inr hfilled) hadd
    · obtain rfl := Option.some.inj hadd
      exact hregister

/-- The clients with enough entries are answered one after the other. -/
theorem Accounted.answerFilled (h : Accounted t) {fuel turns : ℕ} {logic : MonitorLogic α}
    (hanswer : t.logic.answerFilled fuel turns = some logic) :
  Accounted { t with logic }
  := by
  induction turns generalizing t with
  | zero => contradiction
  | succ turns ih =>
      unfold MonitorLogic.answerFilled at hanswer
      split at hanswer
      · obtain rfl := Option.some.inj hanswer
        exact h
      · rename_i id hid
        split at hanswer
        · obtain rfl := Option.some.inj hanswer
          exact h
        · rename_i info hinfo
          obtain rfl := h.context id info hinfo
          have hfilled : t.logic.manager.isClientFilledById info.context = true :=
            List.find?_some hid
          obtain ⟨client, hclient, hfilled⟩ := (Option.any_eq_true _ _).mp hfilled
          obtain ⟨answered, hemplace, hrest⟩ := Option.bind_eq_some_iff.mp hanswer
          have haccounted := ih (h.emplace hinfo hclient (Or.inr hfilled) hemplace) hrest
          exact haccounted

theorem Accounted.addEntry (h : Accounted t) {fuel : ℕ} {e : α} {logic : MonitorLogic α}
    (hadd : t.logic.addEntry fuel e = some logic) :
  Accounted { t with logic }
  := by
  unfold MonitorLogic.addEntry at hadd
  obtain ⟨⟨manager, added⟩, hmanager, hadd⟩ := Option.bind_eq_some_iff.mp hadd
  dsimp only at hadd
  split at hadd
  · exact (h.sameClients (.addEntry hmanager)).answerFilled hadd
  · obtain rfl := Option.some.inj hadd
    exact h

theorem Accounted.entriesPut (h : Accounted t) {fuel : ℕ} {entries : List α} {t' : Tracked α}
    (hput : entries.foldlM (entryPut fuel) t = some t') :
  Accounted t'
  := by
  induction entries generalizing t with
  | nil =>
      obtain rfl := Option.some.inj hput
      exact h
  | cons e entries ih =>
      rw [List.foldlM_cons] at hput
      obtain ⟨t₁, hfirst, hrest⟩ := Option.bind_eq_some_iff.mp hput
      obtain ⟨logic, hadd, rfl⟩ := Option.map_eq_some_iff.mp hfirst
      exact ih (h.addEntry hadd).sendMonitorResponses hrest

/-- When a connection is closed, what concerns it is forgotten. -/
theorem Accounted.close (h : Accounted t) {fuel : ℕ} {context : ClientId}
    {logic : MonitorLogic α} (hremove : t.logic.removeClient fuel context = some logic) :
  Accounted ⟨logic, Function.update t.received context [],
    t.sent.filter fun response => response.info.context ≠ context⟩
  := by
  obtain ⟨⟨manager, found⟩, hmanager, rfl⟩ := Option.map_eq_some_iff.mp hremove
  obtain ⟨hclients, hregistered⟩ := EntriesManager.removeClient_clients
    (fun c hc => (h.clients c).mpr (h.registered c hc)) hmanager
  have hmem : ∀ c, c ∈ t.logic.clients.erase context ↔ context ≠ c ∧ c ∈ t.logic.clients := by
    simp [ExtTreeMap.mem_erase]
  have hnumbers : ∀ c, numbers ⟨⟨manager, t.logic.responseCache.erase context,
        t.logic.clients.erase context⟩, Function.update t.received context [],
        t.sent.filter fun response => response.info.context ≠ context⟩ c
      = if context = c then [] else t.numbers c := by
    intro c
    simp only [numbers, due, sentTo, ExtTreeMap.getElem?_erase, Std.compare_eq_iff_eq,
      List.filter_filter]
    split
    · rename_i heq
      subst heq
      simp
    · rename_i hne
      have hothers : ∀ response ∈ t.sent,
          (decide (response.info.context = c) && decide (response.info.context ≠ context))
            = decide (response.info.context = c) := by
        intro response _
        by_cases hcontext : response.info.context = c
        · simp [hcontext, Ne.symm hne]
        · simp [hcontext]
      rw [List.filter_congr hothers]
  constructor
  · intro c
    rw [hclients, hmem, h.clients]
  · intro c hc
    obtain ⟨hne, hc⟩ := (hregistered c).mp hc
    exact (hmem c).mpr ⟨hne, h.registered c hc⟩
  · intro c info hinfo
    rw [ExtTreeMap.getElem?_erase] at hinfo
    split at hinfo
    · contradiction
    · exact h.context c info hinfo
  · intro c response hresponse
    rw [ExtTreeMap.getElem?_erase] at hresponse
    split at hresponse
    · contradiction
    · exact h.cached c response hresponse
  · intro c hc
    rw [hnumbers]
    split
    · rfl
    · rename_i hne
      exact h.unknown c fun hc' => hc ((hmem c).mpr ⟨hne, hc'⟩)
  · intro c info hinfo hc
    obtain ⟨hne, hc⟩ := (hregistered c).mp hc
    rw [ExtTreeMap.getElem?_erase, if_neg (by simpa using hne)] at hinfo
    rw [hnumbers, if_neg hne]
    obtain ⟨before, hreceived, hsublist⟩ := h.waiting c info hinfo hc
    exact ⟨before, (Function.update_of_ne (Ne.symm hne) _ _).trans hreceived, hsublist⟩
  · intro c
    rw [hnumbers]
    split
    · exact List.nil_sublist _
    · rename_i hne
      change (t.numbers c).Sublist (Function.update t.received context [] c)
      rw [Function.update_of_ne (Ne.symm hne)]
      exact h.answered c

/-! ### Runs -/

/-- A client that is known flushes only while it waits for a response. -/
def Timely (t : Tracked α) : Event α → Prop
  | .getFlush context =>
      context ∈ t.logic.clients → context ∈ t.logic.manager.registeredClients
  | _ => True

theorem Accounted.flushClient (h : Accounted t) {fuel : ℕ} {context : ClientId}
    (htimely : t.Timely (.getFlush context)) {logic : MonitorLogic α}
    (hflush : t.logic.flushClient fuel context = some logic) :
  Accounted { t with logic }
  := by
  unfold MonitorLogic.flushClient at hflush
  split at hflush
  · obtain rfl := Option.some.inj hflush
    exact h
  · rename_i info hinfo
    have hregistered : context ∈ t.logic.manager.registeredClients := by
      apply htimely
      rw [ExtTreeMap.mem_iff_isSome_getElem?, hinfo]
      rfl
    have hclient : (t.logic.manager.registered? context).isSome := by
      rw [EntriesManager.registered?, if_pos hregistered, ← ExtTreeMap.mem_iff_isSome_getElem?]
      exact h.mem_manager hinfo
    obtain ⟨client, hclient⟩ := Option.isSome_iff_exists.mp hclient
    obtain rfl := h.context context info hinfo
    exact h.emplace hinfo hclient (Or.inl rfl) hflush

/-- Each timely event keeps the responses accounted for. -/
theorem Accounted.step (h : Accounted t) {fuel : ℕ} {event : Event α} (htimely : t.Timely event)
    {t' : Tracked α} (hstep : t.step fuel event = some t') :
  Accounted t'
  := by
  cases event with
  | getEntries context seq bufferSize =>
      obtain ⟨logic, hadd, rfl⟩ := Option.map_eq_some_iff.mp hstep
      exact (h.addClient hadd).sendMonitorResponses
  | getFlush context =>
      obtain ⟨logic, hflush, rfl⟩ := Option.map_eq_some_iff.mp hstep
      exact (h.flushClient htimely hflush).sendMonitorResponses
  | entriesPut entries => exact h.entriesPut hstep
  | close context =>
      obtain ⟨logic, hremove, rfl⟩ := Option.map_eq_some_iff.mp hstep
      exact h.close hremove

/-- The service without clients. -/
def start (maxQueueSize maxBucketSize : ℕ) : Tracked α :=
  ⟨.new maxQueueSize maxBucketSize, fun _ => [], []⟩

theorem accounted_start (maxQueueSize maxBucketSize : ℕ) :
  Accounted (start maxQueueSize maxBucketSize : Tracked α)
  := by
  constructor <;> simp [start, MonitorLogic.new, EntriesManager.new, numbers, due, sentTo]

/-- There are not more responses to a client than requests for entries from it, and each of them
has the sequence number of a request that has not been answered before. -/
structure Answers (t : Tracked α) : Prop where
  count : ∀ c, (t.sentTo c).length ≤ (t.received c).length
  numbers : ∀ c, ((t.sentTo c).map fun response => response.info.seq).Sublist (t.received c)

/-- As long as clients flush only while they wait, every response answers a request. -/
theorem answers_of_timely {fuel maxQueueSize maxBucketSize : ℕ} {t : Tracked α}
    (h : Runs.Reaches (step fuel) Timely (start maxQueueSize maxBucketSize) t) :
  Answers t
  := by
  have haccounted : Accounted t := by
    apply h.invariant (accounted_start maxQueueSize maxBucketSize)
    intro t event t' haccounted htimely hstep
    exact haccounted.step htimely hstep
  have hnumbers : ∀ c, ((t.sentTo c).map fun response => response.info.seq).Sublist
      (t.received c) := by
    intro c
    have hsent : (t.sentTo c).Sublist (t.due c) := List.sublist_append_left _ _
    exact (hsent.map _).trans (haccounted.answered c)
  refine ⟨?_, hnumbers⟩
  intro c
  simpa using (hnumbers c).length_le

instance (t : Tracked α) (event : Event α) : Decidable (t.Timely event) :=
  match event with
  | .getFlush _ => inferInstanceAs (Decidable (_ → _))
  | .getEntries .. | .entriesPut _ | .close _ => inferInstanceAs (Decidable True)

/-- A client asks for one entry, and gets the first that is put. -/
def oneEntry : List (Event ℕ) := [.getEntries 1 7 1, .entriesPut [5]]

theorem answers_oneEntry :
  ∃ t, Runs.Reaches (step 4) Timely (start 2 1) t
    ∧ t.sentTo 1 = [⟨⟨1, 7⟩, [5]⟩] ∧ Answers t
  := by
  have hrun : (Runs.run (step 4) (fun t event => decide (t.Timely event)) oneEntry (start 2 1)).any
      (fun t => t.sentTo 1 = [⟨⟨1, 7⟩, [5]⟩]) := by
    decide +kernel
  obtain ⟨t, ht, hsent⟩ := (Option.any_eq_true _ _).mp hrun
  have hreach : Runs.Reaches (step 4) Timely (start 2 1) t :=
    Runs.Reaches.run (fun _ _ => of_decide_eq_true) .start ht
  exact ⟨t, hreach, of_decide_eq_true hsent, answers_of_timely hreach⟩

/-- A flush that comes after the response is answered with the same sequence number. -/
theorem not_answers_lateFlush :
  ∃ t, Runs.Reaches (step 4) (fun _ _ => True) (start 2 1) t
    ∧ t.received 1 = [7] ∧ t.sentTo 1 = [⟨⟨1, 7⟩, [5]⟩, ⟨⟨1, 7⟩, []⟩]
    ∧ ¬ Answers t
  := by
  have hrun : (Runs.run (step 4) (fun _ _ => true) (oneEntry ++ [.getFlush 1]) (start 2 1)).any
      (fun t => t.received 1 = [7] ∧ t.sentTo 1 = [⟨⟨1, 7⟩, [5]⟩, ⟨⟨1, 7⟩, []⟩]) := by
    decide +kernel
  obtain ⟨t, ht, hdone⟩ := (Option.any_eq_true _ _).mp hrun
  obtain ⟨hreceived, hsent⟩ := of_decide_eq_true hdone
  refine ⟨t, Runs.Reaches.run (fun _ _ _ => trivial) .start ht, hreceived, hsent, ?_⟩
  intro hanswers
  have hcount := hanswers.count 1
  rw [hreceived, hsent] at hcount
  contradiction

end Tracked

end MonitorLogic

end Cynara
