import Cynara.Library.Index
import Cynara.Library.Runs
import Cynara.Monitor.EntriesManager
import Cynara.Monitor.Filling

/-!
# The lists of clients by their cursors

The lists of clients are an index of the cursors: each client is in the list of its cursor, and in
no other one.  So a client that is moved or removed is found in its list.

When the queue overflows, the clients whose cursors are not in the queue any more are moved to the
front.  If the ids of the front and the back are the same then, the front itself is taken for such a
cursor: the clients in its list are moved to this list without an end, and if there are none, the
list is removed together with the clients that have been moved to it.
-/

open Std Index

namespace Cynara

namespace EntriesManager

variable {α : Type} {m m' : EntriesManager α} {c : ClientId} {info : ClientInfo}

/-- The id of the entry that a client gets next. -/
def cursor (m : EntriesManager α) (c : ClientId) : Option EntryId :=
  m.clients[c]?.map ClientInfo.fromId

theorem cursor_of_getElem? (h : m.clients[c]? = some info) :
  m.cursor c = some info.fromId
  := by
  rw [cursor, h, Option.map_some]

/-! ### What the operations do to the cursors -/

/-- What the operations on the lists of clients do to the other fields. -/
theorem removeEntryCount_eq (m : EntriesManager α) (id : EntryId) (c : ClientId) :
  m.removeEntryCount id c = { m with entryCountMap := takeOut m.entryCountMap id c }
  := by
  unfold removeEntryCount takeOut
  dsimp only
  split
  · rfl
  · rfl

/-- The cursor of a client is moved. -/
theorem cursor_setFrom (hc : m.clients[c]? = some info) (id : EntryId) :
  (m.setFrom c id).cursor = Function.update m.cursor c (some id)
  := by
  funext c'
  simp only [cursor, setFrom, ExtTreeMap.getElem?_modify, Std.compare_eq_iff_eq]
  obtain rfl | hne := eq_or_ne c c'
  · rw [if_pos rfl, hc, Function.update_self]
    rfl
  · rw [if_neg hne, Function.update_of_ne hne.symm]
    rfl

theorem info_setFrom {P : ClientId → ClientInfo → Prop}
    (hP : ∀ (c : ClientId) (info : ClientInfo) (id : EntryId), P c info →
      P c { info with fromId := id })
    (h : ∀ (c : ClientId) (info : ClientInfo), m.clients[c]? = some info → P c info)
    (c : ClientId) (id : EntryId) :
  ∀ (c' : ClientId) (info : ClientInfo), (m.setFrom c id).clients[c']? = some info → P c' info
  := by
  intro c' info hinfo
  simp only [setFrom, ExtTreeMap.getElem?_modify, Std.compare_eq_iff_eq] at hinfo
  split at hinfo
  · rename_i hc
    obtain rfl := hc
    obtain ⟨info', hinfo', rfl⟩ := Option.map_eq_some_iff.mp hinfo
    exact hP c info' id (h c info' hinfo')
  · exact h c' info hinfo

theorem cursor_updateClient (hc : m.clients[c]? = some info) (hid : info.clientId = c)
    (id : EntryId) :
  (m.updateClient info id).cursor = Function.update m.cursor c (some id)
  := by
  rw [updateClient, removeEntryCount_eq, hid]
  exact cursor_setFrom (m := { m with entryCountMap := _ }) hc id

/-- The only client in its list is removed with the list before it is put into another one. -/
theorem entryCountMap_updateClient (m : EntriesManager α) (info : ClientInfo) (id : EntryId) :
  (m.updateClient info id).entryCountMap
    = (takeOut m.entryCountMap info.fromId info.clientId).insert id
      ((takeOut m.entryCountMap info.fromId info.clientId).getD id [] ++ [info.clientId])
  := by
  rw [updateClient, removeEntryCount_eq]
  rfl

theorem addClient_of_new (hvalid : c ≠ invalidClientId) (hnew : c ∉ m.clients)
    (bufferSize : UInt16) :
  m.addClient c bufferSize
    = ({ m with
          clients := m.clients.insert c ⟨c, m.container.getBackEntryId, bufferSize.toNat⟩
          registeredClients := m.registeredClients.insert c
          entryCountMap := m.entryCountMap.insert m.container.getBackEntryId
            (m.entryCountMap.getD m.container.getBackEntryId [] ++ [c]) }, true)
  := by
  rw [addClient, if_neg hvalid, if_neg hnew]
  rfl

theorem addClient_of_not_new (h : ¬ (c ≠ invalidClientId ∧ c ∉ m.clients)) (bufferSize : UInt16) :
  m.addClient c bufferSize = (m, false)
  := by
  unfold addClient
  split
  · rfl
  · rename_i hvalid
    rw [if_pos (by simpa [hvalid] using h)]

theorem cursor_insert (m : EntriesManager α) (c : ClientId) (info : ClientInfo)
    (registered : ExtTreeSet ClientId) (countMap : ExtTreeMap EntryId (List ClientId)) :
  cursor ⟨m.container, m.clients.insert c info, registered, countMap⟩
    = Function.update m.cursor c (some info.fromId)
  := by
  funext c'
  simp only [cursor, ExtTreeMap.getElem?_insert, Std.compare_eq_iff_eq, Function.update_apply]
  obtain rfl | hne := eq_or_ne c c'
  · rw [if_pos rfl, if_pos rfl, Option.map_some]
  · rw [if_neg hne, if_neg hne.symm]

theorem cursor_erase (m : EntriesManager α) (c : ClientId) (container : EntriesQueue α)
    (registered : ExtTreeSet ClientId) (countMap : ExtTreeMap EntryId (List ClientId)) :
  cursor ⟨container, m.clients.erase c, registered, countMap⟩
    = Function.update m.cursor c none
  := by
  funext c'
  simp only [cursor, ExtTreeMap.getElem?_erase, Std.compare_eq_iff_eq, Function.update_apply]
  obtain rfl | hne := eq_or_ne c c'
  · rw [if_pos rfl, if_pos rfl, Option.map_none]
  · rw [if_neg hne, if_neg hne.symm]

theorem cursor_modifyClient (m : EntriesManager α) (c : ClientId) (bufferSize : UInt16) :
  (m.modifyClient c bufferSize).1.cursor = m.cursor
  := by
  unfold modifyClient
  split
  · funext c'
    simp only [registerClient, cursor, ExtTreeMap.getElem?_modify, Std.compare_eq_iff_eq]
    split
    · rename_i hc
      rw [hc, Option.map_map]
      rfl
    · rfl
  · rfl

theorem entryCountMap_modifyClient (m : EntriesManager α) (c : ClientId) (bufferSize : UInt16) :
  (m.modifyClient c bufferSize).1.entryCountMap = m.entryCountMap
  := by
  unfold modifyClient
  split
  · rfl
  · rfl

theorem info_modifyClient {P : ClientId → ClientInfo → Prop} {bufferSize : UInt16}
    (h : ∀ (c : ClientId) (info : ClientInfo), m.clients[c]? = some info → P c info)
    (hP : ∀ (c : ClientId) (info : ClientInfo), P c info →
      P c { info with bufferSize := bufferSize.toNat })
    (c : ClientId) :
  ∀ (c' : ClientId) (info : ClientInfo),
    (m.modifyClient c bufferSize).1.clients[c']? = some info → P c' info
  := by
  intro c' info hinfo
  unfold modifyClient at hinfo
  split at hinfo
  · simp only [registerClient, ExtTreeMap.getElem?_modify, Std.compare_eq_iff_eq] at hinfo
    split at hinfo
    · rename_i hc
      obtain rfl := hc
      obtain ⟨info', hinfo', rfl⟩ := Option.map_eq_some_iff.mp hinfo
      exact hP c info' (h c info' hinfo')
    · exact h c' info hinfo
  · exact h c' info hinfo

/-- Entries are removed from the queue, and nothing else happens. -/
theorem cleanup_eq_some {fuel : ℕ} (h : m.cleanup fuel = some m') :
  ∃ container, m' = { m with container := container }
  := by
  unfold cleanup at h
  split at h
  · exact ⟨_, (Option.some.inj h).symm⟩
  · split at h
    · exact ⟨m.container, (Option.some.inj h).symm⟩
    · obtain ⟨container, -, rfl⟩ := Option.map_eq_some_iff.mp h
      exact ⟨container, rfl⟩

/-! ### What the operations do to the registers -/

/-- The clients and those that wait are the same. -/
structure SameClients (m m' : EntriesManager α) : Prop where
  clients : ∀ c, c ∈ m'.clients ↔ c ∈ m.clients
  registered : m'.registeredClients = m.registeredClients

namespace SameClients

theorem trans {m₁ m₂ m₃ : EntriesManager α} (h : SameClients m₁ m₂) (h' : SameClients m₂ m₃) :
  SameClients m₁ m₃
  := ⟨fun c => (h'.clients c).trans (h.clients c), h'.registered.trans h.registered⟩

theorem setFrom (m : EntriesManager α) (c : ClientId) (id : EntryId) :
  SameClients m (m.setFrom c id)
  := ⟨fun _ => ExtTreeMap.mem_modify, rfl⟩

theorem removeEntryCount (m : EntriesManager α) (id : EntryId) (c : ClientId) :
  SameClients m (m.removeEntryCount id c)
  := by
  unfold EntriesManager.removeEntryCount
  simp only
  split
  · exact ⟨fun _ => Iff.rfl, rfl⟩
  · exact ⟨fun _ => Iff.rfl, rfl⟩

theorem updateClient (m : EntriesManager α) (info : ClientInfo) (id : EntryId) :
  SameClients m (m.updateClient info id)
  :=
  (removeEntryCount m info.fromId info.clientId).trans
    ((setFrom _ info.clientId id).trans ⟨fun _ => Iff.rfl, rfl⟩)

/-- The cleaning leaves the monitors as they are. -/
theorem cleanup {fuel : ℕ} {m m' : EntriesManager α} (h : m.cleanup fuel = some m') :
  SameClients m m'
  := by
  obtain ⟨container, rfl⟩ := cleanup_eq_some h
  exact ⟨fun _ => Iff.rfl, rfl⟩

end SameClients

/-! ### Clients that are moved to the front -/

/-- Some clients are moved to another cursor, and to the end of its list. -/
def moveClients (newId : EntryId) (clients : List ClientId) (m : EntriesManager α) :
    EntriesManager α :=
  clients.foldl (fun m client => (m.setFrom client newId).addEntryCount newId client) m

theorem getElem?_moveClients (newId : EntryId) (clients : List ClientId) (m : EntriesManager α)
    (c : ClientId) :
  (m.moveClients newId clients).clients[c]?
    = if c ∈ clients then m.clients[c]?.map fun info => { info with fromId := newId }
      else m.clients[c]?
  := by
  induction clients generalizing m with
  | nil => simp [moveClients]
  | cons client clients ih =>
      have hstep : ((m.setFrom client newId).addEntryCount newId client).clients[c]?
          = if client = c then m.clients[c]?.map fun info => { info with fromId := newId }
            else m.clients[c]? := by
        simp only [addEntryCount, setFrom, ExtTreeMap.getElem?_modify, Std.compare_eq_iff_eq]
        split
        · rename_i hc
          rw [hc]
        · rfl
      rw [moveClients, List.foldl_cons]
      refine (ih _).trans ?_
      rw [hstep]
      by_cases hc : client = c
      · subst hc
        simp only [↓reduceIte, List.mem_cons, true_or, Option.map_map]
        split
        · rfl
        · rfl
      · simp [hc, Ne.symm hc]

theorem getD_moveClients (newId : EntryId) (clients : List ClientId) (m : EntriesManager α)
    (id : EntryId) :
  (m.moveClients newId clients).entryCountMap.getD id []
    = if id = newId then m.entryCountMap.getD newId [] ++ clients
      else m.entryCountMap.getD id []
  := by
  induction clients generalizing m with
  | nil =>
      split
      · rename_i hid
        simp [moveClients, hid]
      · rfl
  | cons client clients ih =>
      rw [moveClients, List.foldl_cons]
      refine (ih _).trans ?_
      simp only [addEntryCount, setFrom, ExtTreeMap.getD_insert, Std.compare_eq_iff_eq]
      by_cases hid : id = newId
      · simp [hid]
      · simp [hid, Ne.symm hid]

theorem mem_moveClients {newId : EntryId} (clients : List ClientId)
    (h : newId ∈ m.entryCountMap) :
  newId ∈ (m.moveClients newId clients).entryCountMap
  := by
  induction clients generalizing m with
  | nil => exact h
  | cons client clients ih => exact ih ExtTreeMap.mem_insert_self

theorem registeredClients_moveClients (newId : EntryId) (clients : List ClientId)
    (m : EntriesManager α) :
  (m.moveClients newId clients).registeredClients = m.registeredClients
  := by
  induction clients generalizing m with
  | nil => rfl
  | cons client clients ih => exact ih _

theorem cursor_moveClients (newId : EntryId) (clients : List ClientId) (m : EntriesManager α)
    (hclients : ∀ c ∈ clients, c ∈ m.clients) (c : ClientId) :
  (m.moveClients newId clients).cursor c = if c ∈ clients then some newId else m.cursor c
  := by
  rw [cursor, getElem?_moveClients]
  split
  · rename_i hc
    obtain ⟨info, hinfo⟩ := Option.isSome_iff_exists.mp
      (ExtTreeMap.mem_iff_isSome_getElem?.mp (hclients c hc))
    rw [hinfo]
    rfl
  · rfl

/-- If the loop over the lists ends, it has moved their clients. -/
theorem squashLists_eq_some {newId : EntryId} {entries : List (EntryId × List ClientId)}
    (h : squashLists newId entries m = some m') :
  m' = m.moveClients newId (entries.flatMap Prod.snd)
  := by
  induction entries generalizing m with
  | nil => exact (Option.some.inj h).symm
  | cons entry entries ih =>
      unfold squashLists at h
      split at h
      · contradiction
      · rw [List.flatMap_cons, moveClients, List.foldl_append]
        exact ih h

/-- The loop ends if it does not come to the list that it appends to. -/
theorem squashLists_of_ne {newId : EntryId} {entries : List (EntryId × List ClientId)}
    (h : ∀ entry ∈ entries, entry.1 ≠ newId) :
  squashLists newId entries m = some (m.moveClients newId (entries.flatMap Prod.snd))
  := by
  have hsome : ∃ m', squashLists newId entries m = some m' := by
    induction entries generalizing m with
    | nil => exact ⟨m, rfl⟩
    | cons entry entries ih =>
        unfold squashLists
        rw [if_neg fun hentry => h entry List.mem_cons_self hentry.1]
        exact ih fun entry hentry => h entry (List.mem_cons_of_mem _ hentry)
  obtain ⟨m', hm'⟩ := hsome
  rw [hm', squashLists_eq_some hm']

/-- The lists after the clients of some of them have been moved. -/
theorem getD_squashEntries {newId : EntryId} {outdated : EntryId → Bool}
    (h : m.squashEntries newId outdated = some m') (hnew : newId ∈ m.entryCountMap)
    (id : EntryId) :
  m'.entryCountMap.getD id []
    = if outdated id = true then []
      else if id = newId then m.entryCountMap.getD newId []
        ++ (select m.entryCountMap outdated).flatMap Prod.snd
      else m.entryCountMap.getD id []
  := by
  obtain ⟨moved, hmoved, rfl⟩ := Option.map_eq_some_iff.mp h
  obtain rfl := squashLists_eq_some hmoved
  refine (getD_foldl_erase_select m.entryCountMap outdated ?_ id).trans ?_
  · intro id' _ hid'
    rw [getD_moveClients, if_neg fun heq : id' = newId => hid' (heq ▸ hnew),
      ExtTreeMap.getD_eq_fallback hid']
  · rw [getD_moveClients]
    rfl

namespace SameClients

theorem moveClients (m : EntriesManager α) (newId : EntryId) (clients : List ClientId) :
  SameClients m (m.moveClients newId clients)
  := by
  refine ⟨fun c => ?_, registeredClients_moveClients newId clients m⟩
  rw [ExtTreeMap.mem_iff_isSome_getElem?, ExtTreeMap.mem_iff_isSome_getElem?,
    getElem?_moveClients]
  split
  · rw [Option.isSome_map]
  · rfl

theorem squashEntries {m m' : EntriesManager α} {newId : EntryId} {outdated : EntryId → Bool}
    (h : m.squashEntries newId outdated = some m') :
  SameClients m m'
  := by
  obtain ⟨moved, hmoved, rfl⟩ := Option.map_eq_some_iff.mp h
  rw [squashLists_eq_some hmoved]
  exact (moveClients m newId _).trans ⟨fun _ => Iff.rfl, rfl⟩

theorem squashRequests {m m' : EntriesManager α} (h : m.squashRequests = some m') :
  SameClients m m'
  := by
  unfold EntriesManager.squashRequests at h
  simp only at h
  have hfront : ∀ countMap, SameClients m { m with entryCountMap := countMap } :=
    fun _ => ⟨fun _ => Iff.rfl, rfl⟩
  split at h
  · exact (hfront _).trans (squashEntries h)
  · obtain ⟨m₁, hm₁, h⟩ := Option.bind_eq_some_iff.mp h
    exact (hfront _).trans ((squashEntries hm₁).trans (squashEntries h))

/-- An entry changes no register. -/
theorem addEntry {m m' : EntriesManager α} {entry : α} {added : Bool}
    (h : m.addEntry entry = some (m', added)) :
  SameClients m m'
  := by
  unfold EntriesManager.addEntry at h
  split at h
  · obtain ⟨rfl, -⟩ := Prod.mk.inj (Option.some.inj h)
    exact ⟨fun _ => Iff.rfl, rfl⟩
  · have hpush : SameClients m { m with container := (m.container.push entry).1 } :=
      ⟨fun _ => Iff.rfl, rfl⟩
    obtain ⟨m₁, hm₁, heq⟩ := Option.map_eq_some_iff.mp h
    obtain ⟨rfl, -⟩ := Prod.mk.inj heq
    split at hm₁
    · exact hpush.trans (squashRequests hm₁)
    · obtain rfl := Option.some.inj hm₁
      exact hpush

end SameClients

/-! ### Each client is in one list -/

/-- Each client is in the list of its cursor, once, and nobody else is in a list; the clients that
wait are among the clients. -/
structure Consistent (m : EntriesManager α) : Prop where
  lists : Indexes m.cursor m.entryCountMap
  info : ∀ (c : ClientId) (info : ClientInfo), m.clients[c]? = some info → info.clientId = c
  registered : ∀ c ∈ m.registeredClients, c ∈ m.clients

/-- The clients that wait are among the clients as long as both are the same. -/
theorem SameClients.registered_subset (h : SameClients m m')
    (hm : ∀ c ∈ m.registeredClients, c ∈ m.clients) :
  ∀ c ∈ m'.registeredClients, c ∈ m'.clients
  := by
  intro c hc
  rw [h.registered] at hc
  exact (h.clients c).mpr (hm c hc)

/-- A client that is to be taken out of its list is found there. -/
theorem Consistent.found (h : Consistent m) (hc : m.clients[c]? = some info) :
  info.fromId ∈ m.entryCountMap ∧ info.clientId ∈ m.entryCountMap.getD info.fromId []
  := by
  have hmem : info.clientId ∈ m.entryCountMap.getD info.fromId [] := by
    rw [h.info c info hc]
    exact (h.lists.mem info.fromId c).mpr (cursor_of_getElem? hc)
  refine ⟨?_, hmem⟩
  by_contra hnot
  rw [ExtTreeMap.getD_eq_fallback hnot] at hmem
  contradiction

theorem consistent_new (Q B : ℕ) :
  Consistent (new Q B : EntriesManager α)
  := by
  refine ⟨?_, ?_, ?_⟩
  · exact Indexes.empty
  · intro c info hc
    simp [new] at hc
  · intro c hc
    simp [new] at hc

theorem Consistent.addClient (h : Consistent m) (c : ClientId) (bufferSize : UInt16) :
  Consistent (m.addClient c bufferSize).1
  := by
  by_cases hc : c ≠ invalidClientId ∧ c ∉ m.clients
  · rw [addClient_of_new hc.1 hc.2]
    have hnone : m.cursor c = none := by
      rw [cursor, ExtTreeMap.getElem?_eq_none hc.2, Option.map_none]
    refine ⟨?_, ?_, ?_⟩
    · rw [cursor_insert]
      exact h.lists.add hnone _
    · intro c' info hinfo
      simp only [ExtTreeMap.getElem?_insert, Std.compare_eq_iff_eq] at hinfo
      split at hinfo
      · rename_i heq
        obtain rfl := Option.some.inj hinfo
        exact heq
      · exact h.info c' info hinfo
    · intro c' hc'
      rw [ExtTreeSet.mem_insert] at hc'
      rw [ExtTreeMap.mem_insert]
      exact hc'.imp_right (h.registered c')
  · rw [addClient_of_not_new hc]
    exact h

theorem Consistent.modifyClient (h : Consistent m) (c : ClientId) (bufferSize : UInt16) :
  Consistent (m.modifyClient c bufferSize).1
  := by
  refine ⟨?_, info_modifyClient h.info (fun _ _ hinfo => hinfo) c, ?_⟩
  · rw [cursor_modifyClient, entryCountMap_modifyClient]
    exact h.lists
  · unfold EntriesManager.modifyClient
    split
    · rename_i hc
      intro c' hc'
      simp only [EntriesManager.registerClient, ExtTreeSet.mem_insert,
        Std.compare_eq_iff_eq] at hc'
      refine ExtTreeMap.mem_modify.mpr ?_
      obtain rfl | hc' := hc'
      · exact hc
      · exact h.registered c' hc'
    · exact h.registered

theorem Consistent.unregisterClient (h : Consistent m) (c : ClientId) :
  Consistent (m.unregisterClient c)
  := ⟨h.lists, h.info, fun c' hc' => h.registered c' (ExtTreeSet.mem_of_mem_erase hc')⟩

/-- A client is taken out of its list and put into another one. -/
theorem Consistent.updateClient (h : Consistent m) (hc : m.clients[c]? = some info)
    (id : EntryId) :
  Consistent (m.updateClient info id)
  := by
  have hid := h.info c info hc
  refine ⟨?_, ?_, ?_⟩
  · have hlists := (h.lists.remove (cursor_of_getElem? hc)).add
      (Function.update_self c none m.cursor) id
    rw [Function.update_idem] at hlists
    rw [cursor_updateClient hc hid, entryCountMap_updateClient, hid]
    exact hlists
  · rw [EntriesManager.updateClient, removeEntryCount_eq]
    exact info_setFrom (m := { m with entryCountMap := _ }) (fun _ _ _ hinfo => hinfo) h.info _ _
  · exact (SameClients.updateClient m info id).registered_subset h.registered

/-- What the queue contains does not matter for the lists. -/
theorem Consistent.cleanup (h : Consistent m) {fuel : ℕ} (hm' : m.cleanup fuel = some m') :
  Consistent m'
  := by
  obtain ⟨container, rfl⟩ := cleanup_eq_some hm'
  exact ⟨h.lists, h.info, h.registered⟩

theorem Consistent.fetchEntriesForClient (h : Consistent m) {fuel : ℕ} {force : Bool}
    {entries : List α} (hm' : m.fetchEntriesForClient fuel c force = some (m', entries)) :
  Consistent m'
  := by
  unfold EntriesManager.fetchEntriesForClient at hm'
  split at hm'
  · obtain ⟨rfl, -⟩ := Prod.mk.inj (Option.some.inj hm')
    exact h
  · rename_i info hinfo
    split at hm'
    · obtain ⟨rfl, -⟩ := Prod.mk.inj (Option.some.inj hm')
      exact h
    · have hc : m.clients[c]? = some info := by
        unfold registered? at hinfo
        exact (Option.ite_none_right_eq_some.mp hinfo).2
      obtain ⟨⟨next, fetched⟩, -, hm'⟩ := Option.bind_eq_some_iff.mp hm'
      obtain ⟨cleaned, hcleaned, hm'⟩ := Option.bind_eq_some_iff.mp hm'
      obtain ⟨rfl, -⟩ := Prod.mk.inj (Option.some.inj hm')
      exact ((h.updateClient hc next).unregisterClient c).cleanup hcleaned

theorem Consistent.removeClient (h : Consistent m) {fuel : ℕ} {success : Bool}
    (hm' : m.removeClient fuel c = some (m', success)) :
  Consistent m'
  := by
  unfold EntriesManager.removeClient at hm'
  split at hm'
  · obtain ⟨rfl, -⟩ := Prod.mk.inj (Option.some.inj hm')
    exact h
  · rename_i info hc
    obtain ⟨cleaned, hcleaned, heq⟩ := Option.map_eq_some_iff.mp hm'
    obtain ⟨rfl, -⟩ := Prod.mk.inj heq
    rw [removeEntryCount_eq, h.info c info hc] at hcleaned
    refine Consistent.cleanup ⟨?_, ?_, ?_⟩ hcleaned
    · rw [cursor_erase]
      exact h.lists.remove (cursor_of_getElem? hc)
    · intro c' info' hinfo'
      simp only [ExtTreeMap.getElem?_erase, Std.compare_eq_iff_eq] at hinfo'
      split at hinfo'
      · contradiction
      · exact h.info c' info' hinfo'
    · intro c' hc'
      simp only [EntriesManager.unregisterClient, ExtTreeSet.mem_erase] at hc'
      exact ExtTreeMap.mem_erase.mpr ⟨hc'.1, h.registered c' hc'.2⟩

/-! ### Overflow -/

/-- Clients are moved to a cursor that is not outdated. -/
theorem Consistent.squashEntries (h : Consistent m) {newId : EntryId}
    (hnew : newId ∈ m.entryCountMap) (outdated : EntryId → Bool)
    (houtdated : outdated newId = false) :
  ∃ m', m.squashEntries newId outdated = some m' ∧ Consistent m' ∧ newId ∈ m'.entryCountMap
  := by
  have hne : ∀ entry ∈ select m.entryCountMap outdated, entry.1 ≠ newId := by
    rintro ⟨id, clients⟩ hentry rfl
    rw [(mem_select.mp hentry).2] at houtdated
    contradiction
  have hclients : ∀ c ∈ (select m.entryCountMap outdated).flatMap Prod.snd, c ∈ m.clients := by
    intro c hc
    obtain ⟨id, hid, -⟩ := h.lists.mem_flatMap_select.mp hc
    obtain ⟨info, hinfo, -⟩ := Option.map_eq_some_iff.mp hid
    rw [ExtTreeMap.mem_iff_isSome_getElem?, hinfo]
    rfl
  have hsquash : m.squashEntries newId outdated = some { m.moveClients newId
      ((select m.entryCountMap outdated).flatMap Prod.snd) with
      entryCountMap := (select m.entryCountMap outdated).foldl
        (fun countMap entry => countMap.erase entry.1) (m.moveClients newId
          ((select m.entryCountMap outdated).flatMap Prod.snd)).entryCountMap } :=
    congrArg (Option.map _) (squashLists_of_ne hne)
  refine ⟨_, hsquash, ⟨?_, ?_, ?_⟩, ?_⟩
  · exact h.lists.gather houtdated (cursor_moveClients newId _ m hclients)
      (getD_squashEntries hsquash hnew)
  · intro c info hinfo
    have hinfo' := (getElem?_moveClients newId _ m c).symm.trans hinfo
    split at hinfo'
    · obtain ⟨old, hold, rfl⟩ := Option.map_eq_some_iff.mp hinfo'
      exact h.info c old hold
    · exact h.info c info hinfo'
  · exact (SameClients.squashEntries hsquash).registered_subset h.registered
  · exact (mem_foldl_erase _ _ newId).mpr ⟨mem_moveClients _ hnew, hne⟩

/-- The front has a list before clients are moved to it. -/
theorem Consistent.insert (h : Consistent m) (id : EntryId) :
  Consistent { m with
    entryCountMap := m.entryCountMap.insert id (m.entryCountMap.getD id []) }
  := by
  refine ⟨h.lists.congr ?_, h.info, h.registered⟩
  intro id'
  rw [ExtTreeMap.getD_insert]
  split
  · rename_i hid
    rw [Std.compare_eq_iff_eq.mp hid]
  · rfl

/-- The clients are moved if the front is not the back. -/
theorem Consistent.squashRequests (h : Consistent m)
    (hne : m.container.getFrontEntryId ≠ m.container.getBackEntryId) :
  ∃ m', m.squashRequests = some m' ∧ Consistent m'
  := by
  have hinsert := h.insert m.container.getFrontEntryId
  unfold EntriesManager.squashRequests
  simp only
  split
  · obtain ⟨m', hm', hconsistent, -⟩ := hinsert.squashEntries ExtTreeMap.mem_insert_self
      (fun id => m.container.getBackEntryId ≤ id && id < m.container.getFrontEntryId) (by simp)
    exact ⟨m', hm', hconsistent⟩
  · rename_i hle
    have hlt := (Int.not_lt.mp hle).lt_of_ne hne
    obtain ⟨m₁, hm₁, hconsistent₁, hmem⟩ := hinsert.squashEntries ExtTreeMap.mem_insert_self
      (fun id => id < m.container.getFrontEntryId) (by simp)
    obtain ⟨m', hm', hconsistent, -⟩ := hconsistent₁.squashEntries hmem
      (fun id => m.container.getBackEntryId ≤ id) (decide_eq_false (Int.not_le.mpr hlt))
    refine ⟨m', ?_, hconsistent⟩
    rw [hm₁]
    exact hm'

/-- If the front is the back, no client is left in a list. -/
theorem Consistent.getD_of_front_eq_back (h : Consistent m)
    (heq : m.container.getFrontEntryId = m.container.getBackEntryId)
    (hm' : m.squashRequests = some m') (id : EntryId) :
  m'.entryCountMap.getD id [] = []
  := by
  unfold EntriesManager.squashRequests at hm'
  simp only [heq, gt_iff_lt, lt_self_iff_false, ↓reduceIte] at hm'
  obtain ⟨m₁, hm₁, -, hmem⟩ := (h.insert m.container.getBackEntryId).squashEntries
    ExtTreeMap.mem_insert_self (fun id => id < m.container.getBackEntryId) (by simp)
  obtain ⟨m₂, hm₂, hm'⟩ := Option.bind_eq_some_iff.mp hm'
  obtain rfl := Option.some.inj (hm₁.symm.trans hm₂)
  rw [getD_squashEntries hm' hmem]
  split
  · rfl
  · rename_i hid
    have hlt : id < m.container.getBackEntryId := Int.not_le.mp fun hle => hid (decide_eq_true hle)
    rw [if_neg (Int.ne_of_lt hlt), getD_squashEntries hm₁ ExtTreeMap.mem_insert_self,
      if_pos (decide_eq_true hlt)]

/-- An entry that overflows the queue does not make its front and its back the same. -/
def Apart (m : EntriesManager α) (entry : α) : Prop :=
  m.clients.isEmpty = false → (m.container.push entry).2 = true →
    (m.container.push entry).1.getFrontEntryId ≠ (m.container.push entry).1.getBackEntryId

/-- An entry is added and each client is in one list, exactly if the front and the back stay
apart. -/
theorem Consistent.addEntry_iff (h : Consistent m) (entry : α) :
  (∃ m' success, m.addEntry entry = some (m', success) ∧ Consistent m') ↔ Apart m entry
  := by
  have hpush : Consistent { m with container := (m.container.push entry).1 } :=
    ⟨h.lists, h.info, h.registered⟩
  unfold EntriesManager.addEntry Apart
  split
  · rename_i hempty
    exact iff_of_true ⟨m, false, rfl, h⟩ (by simp [hempty])
  · rename_i hclients
    simp only [hclients, forall_const]
    split
    · rename_i hoverflow
      simp only [hoverflow, forall_const]
      constructor
      · rintro ⟨m', success, hm', hconsistent⟩ heq
        obtain ⟨m₁, hm₁, hpair⟩ := Option.map_eq_some_iff.mp hm'
        obtain ⟨rfl, -⟩ := Prod.mk.inj hpair
        obtain ⟨c, hc⟩ : ∃ c, c ∈ m.clients := by
          rw [ExtTreeMap.isEmpty_iff, ExtTreeMap.eq_empty_iff_forall_not_mem, not_forall_not]
            at hclients
          exact hclients
        have hc₁ := ((SameClients.squashRequests hm₁).clients c).mpr hc
        obtain ⟨info, hinfo⟩ := Option.isSome_iff_exists.mp
          (ExtTreeMap.mem_iff_isSome_getElem?.mp hc₁)
        have hfound := (hconsistent.found hinfo).2
        rw [hpush.getD_of_front_eq_back heq hm₁] at hfound
        contradiction
      · intro hne
        obtain ⟨m', hm', hconsistent⟩ := hpush.squashRequests hne
        exact ⟨m', true, by rw [hm']; rfl, hconsistent⟩
    · rename_i hoverflow
      exact iff_of_true ⟨_, true, rfl, hpush⟩ (by simp [hoverflow])

/-! ### Runs of the manager -/

inductive Operation (α : Type) where
  | addClient (client : ClientId) (bufferSize : UInt16)
  | modifyClient (client : ClientId) (bufferSize : UInt16)
  | fetchEntries (client : ClientId) (force : Bool)
  | removeClient (client : ClientId)
  | addEntry (entry : α)

/-- The manager after an operation, or `none` if the operation is still running. -/
def perform (fuel : ℕ) (m : EntriesManager α) : Operation α → Option (EntriesManager α)
  | .addClient client bufferSize => some (m.addClient client bufferSize).1
  | .modifyClient client bufferSize => some (m.modifyClient client bufferSize).1
  | .fetchEntries client force => (m.fetchEntriesForClient fuel client force).map Prod.fst
  | .removeClient client => (m.removeClient fuel client).map Prod.fst
  | .addEntry entry => (m.addEntry entry).map Prod.fst

/-- The condition under which no client gets lost. -/
def KeepsApart (m : EntriesManager α) : Operation α → Prop
  | .addEntry entry => Apart m entry
  | _ => True

/-- Each operation that keeps the monitors apart keeps the manager consistent. -/
theorem Consistent.perform (h : Consistent m) {fuel : ℕ} {operation : Operation α}
    (hapart : KeepsApart m operation) (hm' : m.perform fuel operation = some m') :
  Consistent m'
  := by
  cases operation with
  | addClient client bufferSize =>
      obtain rfl := Option.some.inj hm'
      exact h.addClient client bufferSize
  | modifyClient client bufferSize =>
      obtain rfl := Option.some.inj hm'
      exact h.modifyClient client bufferSize
  | fetchEntries client force =>
      obtain ⟨⟨m₁, entries⟩, hm₁, rfl⟩ := Option.map_eq_some_iff.mp hm'
      exact h.fetchEntriesForClient hm₁
  | removeClient client =>
      obtain ⟨⟨m₁, success⟩, hm₁, rfl⟩ := Option.map_eq_some_iff.mp hm'
      exact h.removeClient hm₁
  | addEntry entry =>
      obtain ⟨⟨m₁, success⟩, hm₁, rfl⟩ := Option.map_eq_some_iff.mp hm'
      obtain ⟨m₂, success', hm₂, hconsistent⟩ := (h.addEntry_iff entry).mpr hapart
      obtain ⟨rfl, -⟩ := Prod.mk.inj (Option.some.inj (hm₁.symm.trans hm₂))
      exact hconsistent

/-- As long as an overflow keeps the front and the back of the queue apart, each client is in the
list of its cursor and in no other one, and is found there. -/
theorem consistent_of_reaches {fuel Q B : ℕ}
    (h : Runs.Reaches (perform fuel) KeepsApart (new Q B : EntriesManager α) m) :
  Consistent m ∧ ∀ (c : ClientId) (info : ClientInfo), m.clients[c]? = some info →
    info.fromId ∈ m.entryCountMap ∧ info.clientId ∈ m.entryCountMap.getD info.fromId []
  := by
  have hconsistent : Consistent m :=
    h.invariant (consistent_new Q B) fun _ _ _ hm hapart hm' => hm.perform hapart hm'
  exact ⟨hconsistent, fun c info hc => hconsistent.found hc⟩

instance (m : EntriesManager α) (entry : α) : Decidable (Apart m entry) :=
  inferInstanceAs (Decidable (_ → _ → _))

instance (m : EntriesManager α) (operation : Operation α) : Decidable (KeepsApart m operation) :=
  match operation with
  | .addEntry entry => inferInstanceAs (Decidable (Apart m entry))
  | .addClient .. | .modifyClient .. | .fetchEntries .. | .removeClient _ =>
      inferInstanceAs (Decidable True)

/-- In a queue for two entries the third one moves a client that has not fetched the first one. -/
theorem consistent_thirdEntry :
  ∃ m, Runs.Reaches (perform 4) KeepsApart (new 2 1 : EntriesManager ℕ) m ∧ m.cursor 1 = some 1
    ∧ Consistent m ∧ ∀ (c : ClientId) (info : ClientInfo), m.clients[c]? = some info →
      info.fromId ∈ m.entryCountMap ∧ info.clientId ∈ m.entryCountMap.getD info.fromId []
  := by
  have hrun : (Runs.run (perform 4) (fun m operation => decide (KeepsApart m operation))
      [.addClient 1 1, .addEntry 1, .addEntry 2, .addEntry 3] (new 2 1 : EntriesManager ℕ)).any
      (fun m => m.cursor 1 = some 1) = true := by
    decide +kernel
  obtain ⟨m, hm, hcursor⟩ := (Option.any_eq_true _ _).mp hrun
  have hreach : Runs.Reaches (perform 4) KeepsApart (new 2 1 : EntriesManager ℕ) m :=
    Runs.Reaches.start.run (fun _ _ h => of_decide_eq_true h) hm
  exact ⟨m, hreach, of_decide_eq_true hcursor, consistent_of_reaches hreach⟩

/-! ### A client that gets lost -/

section Lost

open Filling

/-- The managers that are reached by any operations. -/
def Reached (fuel Q B : ℕ) (m : EntriesManager α) : Prop :=
  Runs.Reaches (perform fuel) (fun _ _ => True) (new Q B) m

variable {fuel Q B : ℕ} {q q' : EntriesQueue α} {clients : ExtTreeMap ClientId ClientInfo}
  {registered : ExtTreeSet ClientId} {countMap : ExtTreeMap EntryId (List ClientId)} {e : α}
  {id : EntryId}

theorem Reached.addEntries {n : ℕ} (h : Reached fuel Q B ⟨q, clients, registered, countMap⟩)
    (hq : Takes e n q q') (hclients : clients.isEmpty = false) :
  Reached fuel Q B ⟨q', clients, registered, countMap⟩
  := by
  induction n generalizing q with
  | zero =>
      obtain rfl : q = q' := hq
      exact h
  | succ n ih =>
      refine ih (Runs.Reaches.next (e := .addEntry e) h trivial ?_) hq.2
      simp only [EntriesManager.perform, EntriesManager.addEntry, hclients, Bool.false_eq_true,
        ↓reduceIte, hq.1, Option.map_some]

theorem Reached.addClient (h : Reached fuel Q B ⟨q, clients, registered, countMap⟩)
    (c : ClientId) (id : EntryId) (hid : q.getBackEntryId = id) (bufferSize : UInt16)
    (hvalid : c ≠ invalidClientId) (hnew : c ∉ clients) :
  Reached fuel Q B ⟨q, clients.insert c ⟨c, id, bufferSize.toNat⟩, registered.insert c,
    countMap.insert id (countMap.getD id [] ++ [c])⟩
  := by
  subst hid
  refine Runs.Reaches.next (e := .addClient c bufferSize) h trivial ?_
  rw [EntriesManager.perform, addClient_of_new hvalid hnew]

/-- The last client is not removed, so the entries before the lowest cursor are. -/
theorem Reached.removeClient (h : Reached fuel Q B ⟨q, clients, registered, countMap⟩)
    (hq : q.popUntil fuel id = some q') (c : ClientId) (hc : clients[c]? = some info)
    (hothers : (clients.erase c).isEmpty = false)
    (hlowest : (takeOut countMap info.fromId info.clientId).keys.head? = some id) :
  Reached fuel Q B ⟨q', clients.erase c, registered.erase c,
    takeOut countMap info.fromId info.clientId⟩
  := by
  refine Runs.Reaches.next (e := .removeClient c) h trivial ?_
  simp only [EntriesManager.perform, EntriesManager.removeClient, hc, removeEntryCount_eq,
    EntriesManager.unregisterClient, EntriesManager.cleanup, hothers, Bool.false_eq_true,
    ↓reduceIte, hlowest, hq, Option.map_some]

theorem Reached.overflow (h : Reached fuel Q B ⟨q, clients, registered, countMap⟩)
    (hq : q.push e = (q', true)) (hclients : clients.isEmpty = false)
    {P : EntriesManager α → Bool}
    (hP : (squashRequests ⟨q', clients, registered, countMap⟩).any P = true) :
  ∃ m, Reached fuel Q B m ∧ P m = true
  := by
  obtain ⟨m, hm, hPm⟩ := (Option.any_eq_true _ _).mp hP
  refine ⟨m, Runs.Reaches.next (e := .addEntry e) h trivial ?_, hPm⟩
  simp only [EntriesManager.perform, EntriesManager.addEntry, hclients, Bool.false_eq_true,
    ↓reduceIte, hq, hm, Option.map_some]

/-- The queue of the default sizes with a filling. -/
abbrev ring (s : Filling) : EntriesQueue Unit :=
  s.queue () 258 131070 510

/-- How the queue is filled in a run that loses a client. -/
def stage : ℕ → Filling
  | 0 => ⟨fun _ => 0, fun _ => 0, 0, 0, 0⟩
  | 1 => ⟨fun i => if i < 2 then 510 else if i = 2 then 255 else 0, fun _ => 0, 0, 2, 1275⟩
  | 2 => ⟨fun i => if i = 2 then 255 else 0, fun i => if i = 2 then 255 else 0, 2, 2, 0⟩
  | 3 => ⟨fun i => if i = 1 then 0 else 510, fun i => if i = 2 then 255 else 0, 2, 1, 130815⟩
  | 4 => ⟨fun _ => 0, fun _ => 0, 1, 1, 0⟩
  | 5 => ⟨fun _ => 0, fun i => if i = 2 then 255 else 0, 2, 1, -255⟩
  | 6 => ⟨fun i => if i = 1 then 255 else 0, fun i => if i = 2 then 255 else 0, 2, 1, 0⟩
  | 7 => ⟨fun i => if i = 0 then 0 else 510, fun _ => 0, 2, 0, 130815⟩
  | 8 => ⟨fun i => if i = 1 then 510 else 0, fun i => if i = 1 then 255 else 0, 1, 0, 0⟩
  | 9 => ⟨fun _ => 0, fun _ => 0, 0, 0, -255⟩
  | 10 => ⟨fun _ => 0, fun i => if i = 1 then 255 else 0, 1, 0, -510⟩
  | 11 => ⟨fun _ => 510, fun _ => 0, 1, 0, 131070⟩
  | _ => ⟨fun i => if i = 0 then 511 else 510, fun i => if i = 1 then 1 else 0, 1, 0, 131070⟩

theorem reached_stage_zero :
  Reached 300 MAX_QUEUE_SIZE MAX_BUCKET_SIZE ⟨ring (stage 0), ∅, ∅, ∅⟩
  := by
  have hempty : (List.replicate 258 {} : List (EntriesBucket Unit))
      = (List.range 258).map fun _ => {} := by
    rw [List.map_const', List.length_range]
  have hnew : (new MAX_QUEUE_SIZE MAX_BUCKET_SIZE : EntriesManager Unit)
      = ⟨⟨List.replicate 258 {}, 0, 0, 0, 131070, 510⟩, ∅, ∅, ∅⟩ := rfl
  rw [hempty] at hnew
  exact hnew ▸ .start

/-- The entries that are put into the queue.  They come to the end of the ring in the third and in
the eleventh stage; in the seventh one an offset is lost, because its bucket is created anew. -/
theorem takes_stages :
  Takes () 1275 (ring (stage 0)) (ring (stage 1))
    ∧ Takes () 130815 (ring (stage 2)) (ring (stage 3))
    ∧ Takes () 255 (ring (stage 5)) (ring (stage 6))
    ∧ Takes () 130815 (ring (stage 6)) (ring (stage 7))
    ∧ Takes () 131580 (ring (stage 10)) (ring (stage 11))
  := by
  refine ⟨?_, ?_, ?_, ?_, ?_⟩
  · exact ((takes_fill 2 (by decide) (by decide) (by decide) (by decide) (by decide)).trans
      (takes_grow 255 (by decide) (by decide +kernel) (by decide))).congr (by decide +kernel)
  · exact ((takes_advance (s := stage 2) (N := 258) (Q := 131070) 255 (by decide) (by decide)
        (by decide) (by decide)).trans
      ((takes_fill (B := 510) 255 (by decide) (by decide) (by decide) (by decide +kernel)
          (by decide)).trans
        (takes_fill 1 (by decide) (by decide) (by decide) (by decide) (by decide)))).congr
      (by decide +kernel)
  · exact (takes_grow 255 (by decide) (by decide +kernel) (by decide)).congr (by decide +kernel)
  · exact ((takes_advance (s := stage 6) (N := 258) (Q := 131070) 255 (by decide) (by decide)
        (by decide) (by decide)).trans
      (takes_fill (B := 510) 256 (by decide) (by decide) (by decide) (by decide +kernel)
        (by decide))).congr (by decide +kernel)
  · exact ((takes_fill (s := stage 10) (N := 258) (Q := 131070) (B := 510) 1 (by decide)
        (by decide) (by decide) (by decide) (by decide)).trans
      (takes_fill (B := 510) 257 (by decide) (by decide) (by decide) (by decide +kernel)
        (by decide))).congr (by decide +kernel)

/-- The entries that are removed.  In the fourth and in the ninth stage the lowest cursor is at the
back, so all of them are; after that the front is a place behind the back. -/
theorem popUntil_stages :
  (ring (stage 1)).popUntil 300 1275 = some (ring (stage 2))
    ∧ (ring (stage 3)).popUntil 300 510 = some (ring (stage 4))
    ∧ (ring (stage 4)).popUntil 300 1275 = some (ring (stage 5))
    ∧ (ring (stage 7)).popUntil 300 765 = some (ring (stage 8))
    ∧ (ring (stage 8)).popUntil 300 0 = some (ring (stage 9))
    ∧ (ring (stage 9)).popUntil 300 765 = some (ring (stage 10))
  := by
  refine ⟨?_, ?_, ?_, ?_, ?_, ?_⟩
  · exact popUntil_queue (i := 2) (o := 255) (by decide) rfl rfl
      (eraseBuckets_queue (w := 510) 0 2 298 (by decide) (by decide) (by decide))
      (by decide +kernel)
  · have hfirst : EntriesQueue.eraseBuckets 1 300 (ring (stage 3)) 2
        = EntriesQueue.eraseBuckets 1 299 (ring ((stage 3).clear 2 1 255)) 3 :=
      eraseBuckets_queue 2 1 299 (by decide) (by decide) (by decide)
    have hrest : EntriesQueue.eraseBuckets 1 299 (ring ((stage 3).clear 2 1 255)) 3
        = EntriesQueue.eraseBuckets 1 44 (ring (((stage 3).clear 2 1 255).clear 3 255 510)) 0 :=
      eraseBuckets_queue 3 255 44 (by decide) (by decide +kernel) (by decide +kernel)
    have hlast : EntriesQueue.eraseBuckets 1 44
        (ring (((stage 3).clear 2 1 255).clear 3 255 510)) 0
        = EntriesQueue.eraseBuckets 1 43
          (ring ((((stage 3).clear 2 1 255).clear 3 255 510).clear 0 1 510)) 1 :=
      eraseBuckets_queue 0 1 43 (by decide) (by decide) (by decide)
    exact popUntil_queue (i := 1) (o := 0) (by decide) rfl rfl (hfirst.trans (hrest.trans hlast))
      (by decide +kernel)
  · exact popUntil_queue (i := 2) (o := 255) (by decide) rfl rfl
      (eraseBuckets_queue (w := 0) 1 1 299 (by decide) (by decide) (by decide))
      (by decide +kernel)
  · have hfirst : EntriesQueue.eraseBuckets 1 300 (ring (stage 7)) 2
        = EntriesQueue.eraseBuckets 1 44 (ring ((stage 7).clear 2 256 510)) 0 :=
      eraseBuckets_queue 2 256 44 (by decide) (by decide +kernel) (by decide +kernel)
    have hrest : EntriesQueue.eraseBuckets 1 44 (ring ((stage 7).clear 2 256 510)) 0
        = EntriesQueue.eraseBuckets 1 43 (ring (((stage 7).clear 2 256 510).clear 0 1 0)) 1 :=
      eraseBuckets_queue 0 1 43 (by decide) (by decide) (by decide)
    exact popUntil_queue (i := 1) (o := 255) (by decide) rfl rfl (hfirst.trans hrest)
      (by decide +kernel)
  · have hfirst : EntriesQueue.eraseBuckets 0 300 (ring (stage 8)) 1
        = EntriesQueue.eraseBuckets 0 299 (ring ((stage 8).clear 1 1 255)) 2 :=
      eraseBuckets_queue 1 1 299 (by decide) (by decide) (by decide)
    have hrest : EntriesQueue.eraseBuckets 0 299 (ring ((stage 8).clear 1 1 255)) 2
        = EntriesQueue.eraseBuckets 0 43 (ring (((stage 8).clear 1 1 255).clear 2 256 0)) 0 :=
      eraseBuckets_queue 2 256 43 (by decide) (by decide +kernel) (by decide +kernel)
    exact popUntil_queue (i := 0) (o := 0) (by decide) rfl rfl (hfirst.trans hrest)
      (by decide +kernel)
  · exact popUntil_queue (i := 1) (o := 255) (by decide) rfl rfl
      (eraseBuckets_queue (w := 0) 0 1 299 (by decide) (by decide) (by decide))
      (by decide +kernel)

/-- The size of the queue is too small by a bucket, so an entry is put into a full bucket before the
queue overflows. -/
theorem push_stage_twelve :
  (ring (stage 11)).push () = (ring (stage 12), true)
  := by
  have hsame : Same 258 (((stage 11).grow 1).startAt 1 1) (stage 12) := by
    decide +kernel
  exact (push_of_overflow (by decide) (by decide) (by decide) (by decide) (by decide)).trans
    (congrArg (·, true) hsame.queue_eq)

/-- The third client is left without a list: at the end the front and the back have the id 511, and
the lists from there on are removed, the one of the front with them. -/
theorem lost_client :
  ∃ m : EntriesManager Unit, Runs.Reaches (perform 300) (fun _ _ => True)
      (new MAX_QUEUE_SIZE MAX_BUCKET_SIZE) m
    ∧ m.clients[(2 : ClientId)]? = some ⟨2, 511, 1⟩ ∧ m.entryCountMap.isEmpty = true
    ∧ ¬ Consistent m
  := by
  obtain ⟨htakes₁, htakes₃, htakes₆, htakes₇, htakes₁₁⟩ := takes_stages
  obtain ⟨hpop₂, hpop₄, hpop₅, hpop₈, hpop₉, hpop₁₀⟩ := popUntil_stages
  have hwait := ((reached_stage_zero.addClient 0 0 (by decide +kernel) 1 (by decide)
    (by decide +kernel)).addEntries htakes₁ (by decide +kernel)).addClient 1 1275
    (by decide +kernel) 1 (by decide) (by decide +kernel)
  have haround := (hwait.removeClient hpop₂ 0 rfl (by decide +kernel)
    (by decide +kernel)).addEntries htakes₃ (by decide +kernel)
  -- with two clients at the back, the removal of one of them removes all entries
  have hcut := (((haround.addClient 8 510 (by decide +kernel) 1 (by decide)
    (by decide +kernel)).addClient 9 510 (by decide +kernel) 1 (by decide)
    (by decide +kernel)).removeClient hpop₄ 9 rfl (by decide +kernel)
    (by decide +kernel)).removeClient hpop₅ 8 rfl (by decide +kernel) (by decide +kernel)
  have hthird := (hcut.addEntries htakes₆ (by decide +kernel)).addClient 2 765
    (by decide +kernel) 1 (by decide) (by decide +kernel)
  have hagain := (hthird.addEntries htakes₇ (by decide +kernel)).removeClient hpop₈ 1 rfl
    (by decide +kernel) (by decide +kernel)
  have hcut' := (((hagain.addClient 8 0 (by decide +kernel) 1 (by decide)
    (by decide +kernel)).addClient 9 0 (by decide +kernel) 1 (by decide)
    (by decide +kernel)).removeClient hpop₉ 9 rfl (by decide +kernel)
    (by decide +kernel)).removeClient hpop₁₀ 8 rfl (by decide +kernel) (by decide +kernel)
  obtain ⟨m, hm, hlost⟩ := (hcut'.addEntries htakes₁₁ (by decide +kernel)).overflow
    push_stage_twelve (by decide +kernel)
    (P := fun m => m.clients[(2 : ClientId)]? = some ⟨2, 511, 1⟩ ∧ m.entryCountMap.isEmpty = true)
    (by decide +kernel)
  obtain ⟨hclient, hempty⟩ := of_decide_eq_true hlost
  refine ⟨m, hm, hclient, hempty, fun hconsistent => ?_⟩
  have hfound := (hconsistent.found hclient).1
  rw [ExtTreeMap.isEmpty_iff.mp hempty] at hfound
  simp at hfound

end Lost

end EntriesManager

end Cynara
