import Cynara.Monitor.Cursors
import Cynara.Monitor.QueueRefinement

/-!
# Delivery of monitor entries

What a client has fetched, together with the entries from its cursor on, are the entries that
were added since the client was.  This is kept as long as the entries that are removed after a
fetch are those before the cursors of all clients.

The cursor with the lowest number is taken for the first one.  It is the first one if the
numbers do not start over between the cursors; otherwise a client that has fetched less than
another loses entries.
-/

open Std Index

namespace Cynara

/-! ### The lists of clients by their cursors -/

/-- For each id the list has the clients whose cursor it is, and there are no empty lists. -/
structure Counts (cursor : ClientId → Option EntryId)
    (countMap : ExtTreeMap EntryId (List ClientId)) : Prop where
  mem : ∀ (id : EntryId) (c : ClientId), c ∈ countMap.getD id [] ↔ cursor c = some id
  nodup : ∀ id : EntryId, (countMap.getD id []).Nodup
  nonempty : ∀ id : EntryId, id ∈ countMap → countMap.getD id [] ≠ []

namespace Counts

variable {cursor : ClientId → Option EntryId} {countMap : ExtTreeMap EntryId (List ClientId)}
  {c : ClientId}

theorem index (h : Counts cursor countMap) :
  Indexes cursor countMap
  := ⟨h.mem, h.nodup⟩

theorem empty :
  Counts (fun _ => none) ∅
  := ⟨Indexes.empty.mem, Indexes.empty.nodup, by simp⟩

/-- A client that is in no list is put into one. -/
theorem add (h : Counts cursor countMap) (hc : cursor c = none) (id : EntryId) :
  Counts (Function.update cursor c (some id))
    (countMap.insert id (countMap.getD id [] ++ [c]))
  := by
  refine ⟨(h.index.add hc id).mem, (h.index.add hc id).nodup, ?_⟩
  intro id' hid'
  rw [ExtTreeMap.getD_insert]
  split
  · simp
  · rename_i hne
    rw [ExtTreeMap.mem_insert] at hid'
    apply h.nonempty
    exact hid'.resolve_left hne

/-- A client is taken out of its list; the list is removed with its only client. -/
theorem remove (h : Counts cursor countMap) {id : EntryId} (hc : cursor c = some id) :
  Counts (Function.update cursor c none) (takeOut countMap id c)
  := by
  have hmem : c ∈ countMap.getD id [] := (h.mem id c).mpr hc
  refine ⟨(h.index.remove hc).mem, (h.index.remove hc).nodup, ?_⟩
  intro id' hid'
  rw [getD_takeOut hmem]
  unfold takeOut at hid'
  split at hid'
  · rw [ExtTreeMap.mem_erase, ne_eq, Std.compare_eq_iff_eq] at hid'
    rw [if_neg hid'.1]
    exact h.nonempty id' hid'.2
  · rename_i hlength
    rw [ExtTreeMap.mem_insert, Std.compare_eq_iff_eq] at hid'
    split
    · intro hnil
      have herase := List.length_erase_of_mem hmem
      have hpos := List.length_pos_of_mem hmem
      rw [hnil, List.length_nil] at herase
      omega
    · rename_i hid
      exact h.nonempty id' (hid'.resolve_left hid)

/-- The lowest id that has a list is the lowest cursor. -/
theorem lowest (h : Counts cursor countMap) {id : EntryId}
    (hid : countMap.keys.head? = some id) :
  (∃ c, cursor c = some id) ∧ ∀ c id', cursor c = some id' → id ≤ id'
  := by
  rw [← ExtTreeMap.minKey?_eq_head?_keys, ExtTreeMap.minKey?_eq_some_iff_mem_and_forall] at hid
  obtain ⟨hmem, hle⟩ := hid
  constructor
  · obtain ⟨c, hc⟩ := List.exists_mem_of_ne_nil _ (h.nonempty id hmem)
    exact ⟨c, (h.mem id c).mp hc⟩
  · intro c id' hc
    have hmem' : id' ∈ countMap := by
      by_contra hnot
      have hnone := (h.mem id' c).mpr hc
      rw [ExtTreeMap.getD_eq_fallback hnot] at hnone
      contradiction
    exact Int.isLE_compare.mp (hle id' hmem')

end Counts

namespace EntriesManager

variable {α : Type} {Q B o : ℕ} {m : EntriesManager α} {added delivered : ClientId → List α}
  {kept : List α}

/-! ### What is still to be delivered -/

/-- What the clients have got and what is in the queue from their cursors on are the entries
that were added since they were. -/
structure Delivers (Q B : ℕ) (m : EntriesManager α) (added delivered : ClientId → List α)
    (kept : List α) (o : ℕ) : Prop where
  queue : m.container.Represents Q B kept o
  info : ∀ (c : ClientId) (info : ClientInfo), m.clients[c]? = some info →
    info.clientId = c ∧ 0 ≤ info.bufferSize
  counts : Counts m.cursor m.entryCountMap
  pending : ∀ c id, m.cursor c = some id → ∃ k ≤ (kept.drop o).length,
    id = m.container.idAt k ∧ added c = delivered c ++ (kept.drop o).drop k
  delivered : ∀ c, delivered c <+: added c

/-- The cursors are all at the front or behind it, or are all before it: the ids do not start
over between them. -/
def OneSided (frontId : EntryId) (clients : ExtTreeMap ClientId ClientInfo) : Prop :=
  (∀ client ∈ clients.toList, frontId ≤ client.2.fromId)
    ∨ ∀ client ∈ clients.toList, client.2.fromId < frontId

theorem OneSided.cursor (h : OneSided m.container.getFrontEntryId m.clients) :
  (∀ c id, m.cursor c = some id → m.container.getFrontEntryId ≤ id)
    ∨ ∀ c id, m.cursor c = some id → id < m.container.getFrontEntryId
  := by
  obtain h | h := h
  · refine Or.inl fun c id hc => ?_
    obtain ⟨info, hinfo, rfl⟩ := Option.map_eq_some_iff.mp hc
    exact h (c, info) (ExtTreeMap.mem_toList_iff_getElem?_eq_some.mpr hinfo)
  · refine Or.inr fun c id hc => ?_
    obtain ⟨info, hinfo, rfl⟩ := Option.map_eq_some_iff.mp hc
    exact h (c, info) (ExtTreeMap.mem_toList_iff_getElem?_eq_some.mpr hinfo)

/-- The lowest cursor is the first one. -/
theorem Delivers.le_of_lowest (h : Delivers Q B m added delivered kept o)
    (hside : OneSided m.container.getFrontEntryId m.clients) {k k' : ℕ} {c c' : ClientId}
    (hk : k ≤ (kept.drop o).length) (hk' : k' ≤ (kept.drop o).length)
    (hc : m.cursor c = some (m.container.idAt k)) (hc' : m.cursor c' = some (m.container.idAt k'))
    (hle : m.container.idAt k ≤ m.container.idAt k') :
  k ≤ k'
  := by
  have hsize : m.container.sizeFrom (m.container.idAt k')
      ≤ m.container.sizeFrom (m.container.idAt k) := by
    apply EntriesQueue.sizeFrom_le _ hle
    obtain hside | hside := hside.cursor
    · exact Or.inl (hside c _ hc)
    · exact Or.inr (hside c' _ hc')
  rw [h.queue.sizeFrom hk, h.queue.sizeFrom hk'] at hsize
  omega

/-- The entries that are removed are before all cursors. -/
theorem Delivers.cleanup (h : Delivers Q B m added delivered kept o)
    (hside : OneSided m.container.getFrontEntryId m.clients) {fuel : ℕ}
    (hfuel : Q / B + 1 < fuel) :
  ∃ m' kept' o', m.cleanup fuel = some m' ∧ Delivers Q B m' added delivered kept' o'
  := by
  unfold EntriesManager.cleanup
  split
  · rename_i hempty
    have hclear := EntriesQueue.Represents.clear h.queue.pos h.queue.layout.pos h.queue.dvd
      h.queue.layout.maxQueueSize h.queue.layout.maxBucketSize
    refine ⟨_, [], 0, rfl, hclear, h.info, h.counts, fun c id hc => ?_, h.delivered⟩
    rw [ExtTreeMap.isEmpty_iff] at hempty
    simp [EntriesManager.cursor, hempty] at hc
  · split
    · exact ⟨m, kept, o, rfl, h⟩
    · rename_i id hid
      obtain ⟨⟨c, hc⟩, hlowest⟩ := h.counts.lowest hid
      obtain ⟨k, hk, rfl, -⟩ := h.pending c id hc
      obtain ⟨q, kept', o', hq, hqueue, hdrop, hidAt⟩ := h.queue.popUntil hk hfuel.le
      rw [hq]
      refine ⟨_, kept', o', rfl, hqueue, h.info, h.counts, fun c' id' hc' => ?_, h.delivered⟩
      obtain ⟨k', hk', rfl, hadded⟩ := h.pending c' id' hc'
      have hle := h.le_of_lowest hside hk hk' hc hc' (hlowest c' _ hc')
      refine ⟨k' - k, ?_, ?_, ?_⟩
      · rw [hdrop, List.length_drop]
        omega
      · rw [hidAt, Nat.add_sub_cancel' hle]
      · have hrest : ((kept.drop o).drop k).drop (k' - k) = (kept.drop o).drop k' := by
          rw [List.drop_drop (i := k' - k), Nat.add_sub_cancel' hle]
        rw [hadded, hdrop, hrest]

/-! ### Operations -/

theorem Delivers.unregisterClient (h : Delivers Q B m added delivered kept o) (c : ClientId) :
  Delivers Q B (m.unregisterClient c) added delivered kept o
  := ⟨h.queue, h.info, h.counts, h.pending, h.delivered⟩

/-- A client gets the next entries, and its cursor is moved behind them. -/
theorem Delivers.updateClient (h : Delivers Q B m added delivered kept o) {c : ClientId}
    {info : ClientInfo} (hc : m.clients[c]? = some info) {k n : ℕ}
    (hadded : added c = delivered c ++ (kept.drop o).drop k)
    (hn : k + n ≤ (kept.drop o).length) :
  Delivers Q B (m.updateClient info (m.container.idAt (k + n))) added
    (Function.update delivered c (delivered c ++ ((kept.drop o).drop k).take n)) kept o
  := by
  have hid := (h.info c info hc).1
  have hcursor := cursor_updateClient hc hid (m.container.idAt (k + n))
  have hsplit : delivered c ++ ((kept.drop o).drop k).take n ++ (kept.drop o).drop (k + n)
      = added c := by
    rw [hadded, List.append_assoc, ← List.drop_drop (i := n), List.take_append_drop]
  refine ⟨?_, ?_, ?_, ?_, ?_⟩
  · rw [EntriesManager.updateClient, removeEntryCount_eq]
    exact h.queue
  · rw [EntriesManager.updateClient, removeEntryCount_eq]
    exact info_setFrom (m := { m with entryCountMap := _ }) (fun _ _ _ hinfo => hinfo) h.info _ _
  · have hcounts := (h.counts.remove (cursor_of_getElem? hc)).add
      (Function.update_self c none m.cursor) (m.container.idAt (k + n))
    rw [Function.update_idem] at hcounts
    rw [hcursor, entryCountMap_updateClient, hid]
    exact hcounts
  · intro c' id hc'
    rw [hcursor, Function.update_apply] at hc'
    split at hc'
    · rename_i heq
      obtain rfl := heq
      refine ⟨k + n, hn, ?_, ?_⟩
      · rw [EntriesManager.updateClient, removeEntryCount_eq]
        exact (Option.some.inj hc').symm
      · rw [Function.update_self, hsplit]
    · rename_i hne
      obtain ⟨k', hk', hid', hadded'⟩ := h.pending c' id hc'
      refine ⟨k', hk', ?_, ?_⟩
      · rw [EntriesManager.updateClient, removeEntryCount_eq]
        exact hid'
      · rw [Function.update_of_ne hne, hadded']
  · intro c'
    rw [Function.update_apply]
    split
    · rename_i heq
      rw [heq, ← hsplit]
      exact List.prefix_append _ _
    · exact h.delivered c'

/-- A new client waits for the entries that come after those in the queue. -/
theorem Delivers.addClient (h : Delivers Q B m added delivered kept o) {c : ClientId}
    (hvalid : c ≠ invalidClientId) (hnew : c ∉ m.clients) (bufferSize : UInt16) :
  Delivers Q B (m.addClient c bufferSize).1 (Function.update added c [])
    (Function.update delivered c []) kept o
  := by
  have hnone : m.cursor c = none := by
    rw [EntriesManager.cursor, ExtTreeMap.getElem?_eq_none hnew, Option.map_none]
  rw [addClient_of_new hvalid hnew]
  refine ⟨h.queue, ?_, ?_, ?_, ?_⟩
  · intro c' info hinfo
    simp only [ExtTreeMap.getElem?_insert, Std.compare_eq_iff_eq] at hinfo
    split at hinfo
    · rename_i hc
      obtain rfl := Option.some.inj hinfo
      exact ⟨hc, Int.natCast_nonneg _⟩
    · exact h.info c' info hinfo
  · rw [cursor_insert]
    exact h.counts.add hnone _
  · intro c' id hc'
    rw [cursor_insert, Function.update_apply] at hc'
    split at hc'
    · rename_i heq
      obtain rfl := heq
      refine ⟨(kept.drop o).length, Nat.le_refl _, ?_, ?_⟩
      · rw [← h.queue.getBackEntryId]
        exact (Option.some.inj hc').symm
      · rw [Function.update_self, Function.update_self, List.drop_length, List.nil_append]
    · rename_i hne
      rw [Function.update_of_ne hne, Function.update_of_ne hne]
      exact h.pending c' id hc'
  · intro c'
    rw [Function.update_apply, Function.update_apply]
    split
    · exact List.prefix_refl []
    · exact h.delivered c'

/-- The size of a buffer does not matter for what is still to be delivered. -/
theorem Delivers.modifyClient (h : Delivers Q B m added delivered kept o) (c : ClientId)
    (bufferSize : UInt16) :
  Delivers Q B (m.modifyClient c bufferSize).1 added delivered kept o
  := by
  have hcursor := cursor_modifyClient m c bufferSize
  have hinfo := info_modifyClient h.info
    (fun _ _ hinfo => ⟨hinfo.1, Int.natCast_nonneg bufferSize.toNat⟩) c
  unfold EntriesManager.modifyClient at hcursor hinfo ⊢
  split
  · rename_i hmem
    rw [if_pos hmem] at hcursor hinfo
    exact ⟨h.queue, hinfo, hcursor ▸ h.counts, hcursor ▸ h.pending, h.delivered⟩
  · exact h

/-- A new entry is to be delivered to all clients. -/
theorem Delivers.addEntry (h : Delivers Q B m added delivered kept o)
    (hsize : m.container.size < Q) (e : α) :
  ∃ m' success kept', m.addEntry e = some (m', success)
    ∧ Delivers Q B m' (fun c => added c ++ [e]) delivered kept' o
  := by
  have hdelivered : ∀ c, delivered c <+: added c ++ [e] :=
    fun c => (h.delivered c).trans (List.prefix_append _ _)
  have hle := h.queue.offset_le
  have hlength : (kept.drop o).length = kept.length - o := List.length_drop
  rw [h.queue.layout.size] at hsize
  obtain ⟨hqueue, hfirst, hoverflow⟩ := h.queue.push_of_lt (by omega) e
  unfold EntriesManager.addEntry
  split
  · rename_i hempty
    refine ⟨m, false, kept, rfl, h.queue, h.info, h.counts, fun c id hc => ?_, hdelivered⟩
    rw [ExtTreeMap.isEmpty_iff] at hempty
    simp [EntriesManager.cursor, hempty] at hc
  · dsimp only
    rw [hoverflow, if_neg Bool.false_ne_true]
    refine ⟨_, true, kept ++ [e], rfl, hqueue, h.info, h.counts, fun c id hc => ?_, hdelivered⟩
    obtain ⟨k, hk, rfl, hadded⟩ := h.pending c id hc
    rw [List.drop_append_of_le_length hle]
    refine ⟨k, ?_, ?_, ?_⟩
    · rw [List.length_append]
      exact Nat.le_add_right_of_le hk
    · rw [h.queue.layout.idAt, hqueue.layout.idAt, hfirst]
    · rw [hadded, List.drop_append_of_le_length hk, List.append_assoc]

/-- A client that is gone does not hold entries back. -/
theorem Delivers.removeClient (h : Delivers Q B m added delivered kept o) {c : ClientId}
    {info : ClientInfo} (hc : m.clients[c]? = some info)
    (hside : OneSided m.container.getFrontEntryId (m.clients.erase c)) {fuel : ℕ}
    (hfuel : Q / B + 1 < fuel) :
  ∃ m' kept' o', m.removeClient fuel c = some (m', true)
    ∧ Delivers Q B m' added delivered kept' o'
  := by
  obtain ⟨hid, -⟩ := h.info c info hc
  have hcounts := h.counts.remove (cursor_of_getElem? hc)
  simp only [EntriesManager.removeClient, hc, removeEntryCount_eq, hid]
  let removed : EntriesManager α := { m.unregisterClient c with
    clients := m.clients.erase c
    entryCountMap := takeOut m.entryCountMap info.fromId c }
  have hcursor : removed.cursor = Function.update m.cursor c none := cursor_erase m c _ _ _
  have hremoved : Delivers Q B removed added delivered kept o := by
    refine ⟨h.queue, fun c' info' hinfo => ?_, hcursor ▸ hcounts, fun c' id hc' => ?_,
      h.delivered⟩
    · simp only [removed, ExtTreeMap.getElem?_erase, Std.compare_eq_iff_eq] at hinfo
      split at hinfo
      · contradiction
      · exact h.info c' info' hinfo
    · rw [hcursor, Function.update_apply] at hc'
      split at hc'
      · contradiction
      · exact h.pending c' id hc'
  obtain ⟨m', kept', o', hm', hdelivers⟩ := hremoved.cleanup hside hfuel
  refine ⟨m', kept', o', ?_, hdelivers⟩
  exact congrArg (Option.map fun m => (m, true)) hm'

/-- The cursor of a client after it has got its entries. -/
def nextEntryId (m : EntriesManager α) (info : ClientInfo) : EntryId :=
  (info.fromId + m.entriesToFetch info) % (m.container.entries.length * m.container.maxBucketSize)

/-- A client that is due gets entries. -/
def Due (m : EntriesManager α) (info : ClientInfo) (force : Bool) : Prop :=
  force = true ∨ m.isClientFilled info = true

instance (m : EntriesManager α) (info : ClientInfo) (force : Bool) :
    Decidable (m.Due info force) :=
  inferInstanceAs (Decidable (_ ∨ _))

theorem fetchEntriesForClient_of_not_due {c : ClientId} {force : Bool} (fuel : ℕ)
    (h : ∀ info, m.registered? c = some info → ¬ m.Due info force) :
  m.fetchEntriesForClient fuel c force = some (m, [])
  := by
  unfold fetchEntriesForClient
  split
  · rfl
  · rename_i info hinfo
    have hdue := h info hinfo
    rw [Due, not_or] at hdue
    rw [if_pos]
    simpa using hdue

/-- A client gets the entries at its cursor. -/
theorem Delivers.fetchEntriesForClient (h : Delivers Q B m added delivered kept o)
    {c : ClientId} {info : ClientInfo} {force : Bool} (hc : m.registered? c = some info)
    (hdue : m.Due info force)
    (hside : OneSided m.container.getFrontEntryId (m.setFrom c (m.nextEntryId info)).clients)
    {fuel : ℕ} (hfuel : Q / B + 1 < fuel) :
  ∃ m' entries kept' o', m.fetchEntriesForClient fuel c force = some (m', entries)
    ∧ Delivers Q B m' added (Function.update delivered c (delivered c ++ entries)) kept' o'
  := by
  have hinfo : m.clients[c]? = some info := by
    unfold registered? at hc
    split at hc
    · exact hc
    · contradiction
  obtain ⟨hid, hbuffer⟩ := h.info c info hinfo
  obtain ⟨k, hk, hfrom, hadded⟩ := h.pending c info.fromId (cursor_of_getElem? hinfo)
  -- the number of entries to fetch is not negative, so that the loop of the queue ends
  obtain ⟨n, hn⟩ : ∃ n : ℕ, m.entriesToFetch info = n := by
    apply Int.eq_ofNat_of_zero_le
    rw [entriesToFetch, hfrom, h.queue.sizeFrom hk]
    omega
  have hkn : k + n ≤ (kept.drop o).length := by
    have hle : m.entriesToFetch info ≤ _ := min_le_left _ _
    rw [hfrom, h.queue.sizeFrom hk] at hle
    omega
  have hnext : m.nextEntryId info = m.container.idAt (k + n) := by
    rw [nextEntryId, hn, hfrom, EntriesQueue.idAt, EntriesQueue.idAt, Int.emod_add_emod,
      Nat.cast_add, add_assoc]
  have hupdated := (h.updateClient hinfo hadded hkn).unregisterClient c
  have hside' : OneSided
      ((m.updateClient info
        (m.container.idAt (k + n))).unregisterClient c).container.getFrontEntryId
      ((m.updateClient info (m.container.idAt (k + n))).unregisterClient c).clients := by
    rw [EntriesManager.updateClient, removeEntryCount_eq, hid]
    rw [hnext] at hside
    exact hside
  obtain ⟨m', kept', o', hm', hdelivers⟩ := hupdated.cleanup hside' hfuel
  refine ⟨m', _, kept', o', ?_, hdelivers⟩
  have hcond : ¬ (!force && !m.isClientFilled info) = true := by
    simpa [Due, or_iff_not_imp_left] using hdue
  simp only [EntriesManager.fetchEntriesForClient, hc]
  rw [if_neg hcond, hn, hfrom, h.queue.fetch hkn hfuel]
  simp only [Option.bind_eq_bind, Option.bind_some, hm']
  rfl

/-! ### Runs with what is delivered -/

/-- A manager with the entries that were added since a client was, and with those that were
returned to it. -/
structure Tracked (α : Type) where
  manager : EntriesManager α
  added : ClientId → List α
  delivered : ClientId → List α

/-- The manager after an operation, or `none` if it is still running. -/
def step (fuel : ℕ) (s : Tracked α) : Operation α → Option (Tracked α)
  | .addClient client bufferSize =>
      let (m, success) := s.manager.addClient client bufferSize
      some (if success then
          ⟨m, Function.update s.added client [], Function.update s.delivered client []⟩
        else { s with manager := m })
  | .modifyClient client bufferSize =>
      some { s with manager := (s.manager.modifyClient client bufferSize).1 }
  | .fetchEntries client force =>
      (s.manager.fetchEntriesForClient fuel client force).map fun (m, entries) =>
        ⟨m, s.added, Function.update s.delivered client (s.delivered client ++ entries)⟩
  | .removeClient client =>
      (s.manager.removeClient fuel client).map fun (m, _) => { s with manager := m }
  | .addEntry entry =>
      (s.manager.addEntry entry).map fun (m, _) =>
        ⟨m, fun client => s.added client ++ [entry], s.delivered⟩

/-- The queue does not get more entries than it has room for. -/
def Valid (m : EntriesManager α) : Operation α → Prop
  | .addEntry _ => m.container.size < m.container.maxQueueSize
  | _ => True

/-- The condition under which no entry is lost: when entries are removed, the ids of the queue
do not start over between the cursors. -/
def Harmless (m : EntriesManager α) : Operation α → Prop
  | .fetchEntries client force =>
      ∀ info ∈ m.registered? client, m.Due info force →
        OneSided m.container.getFrontEntryId (m.setFrom client (m.nextEntryId info)).clients
  | .removeClient client =>
      client ∈ m.clients → OneSided m.container.getFrontEntryId (m.clients.erase client)
  | _ => True

/-- The managers that are reached from a new one by operations that satisfy a condition. -/
def Reachable (fuel Q B : ℕ) (condition : EntriesManager α → Operation α → Prop)
    (s : Tracked α) : Prop :=
  Runs.Reaches (step fuel)
    (fun s operation => Valid s.manager operation ∧ condition s.manager operation)
    ⟨new Q B, fun _ => [], fun _ => []⟩ s

/-- The entries are delivered in order: what a client has got is the beginning of what was added
since it was, the rest waits for it in the queue, and no operation runs forever. -/
structure InOrder (fuel : ℕ) (s : Tracked α) : Prop where
  delivered : ∀ c, s.delivered c <+: s.added c
  pending : ∀ (c : ClientId) (info : ClientInfo), s.manager.clients[c]? = some info →
    s.added c = s.delivered c
      ++ s.manager.container.live.drop (s.manager.container.position info.fromId)
  returns : ∀ operation, Valid s.manager operation → Harmless s.manager operation →
    (step fuel s operation).isSome

/-- An operation delivers the next entries, or none. -/
theorem Delivers.step {s : Tracked α} (h : Delivers Q B s.manager s.added s.delivered kept o)
    {fuel : ℕ} (hfuel : Q / B + 1 < fuel) {operation : Operation α}
    (hvalid : Valid s.manager operation) (hharmless : Harmless s.manager operation) :
  ∃ s' kept' o', EntriesManager.step fuel s operation = some s'
    ∧ Delivers Q B s'.manager s'.added s'.delivered kept' o'
  := by
  cases operation with
  | addClient client bufferSize =>
      by_cases hnew : client ≠ invalidClientId ∧ client ∉ s.manager.clients
      · have hsuccess : (s.manager.addClient client bufferSize).2 = true := by
          rw [addClient_of_new hnew.1 hnew.2]
        refine ⟨⟨_, Function.update s.added client [], Function.update s.delivered client []⟩,
          kept, o, ?_, h.addClient hnew.1 hnew.2 bufferSize⟩
        simp only [EntriesManager.step, if_pos hsuccess]
      · refine ⟨s, kept, o, ?_, h⟩
        simp only [EntriesManager.step, addClient_of_not_new hnew, if_neg Bool.false_ne_true]
  | modifyClient client bufferSize =>
      exact ⟨_, kept, o, rfl, h.modifyClient client bufferSize⟩
  | fetchEntries client force =>
      by_cases hdue : ∃ info, s.manager.registered? client = some info ∧ s.manager.Due info force
      · obtain ⟨info, hinfo, hdue⟩ := hdue
        obtain ⟨m', entries, kept', o', hm', hdelivers⟩ :=
          h.fetchEntriesForClient hinfo hdue (hharmless info hinfo hdue) hfuel
        refine ⟨⟨m', s.added, Function.update s.delivered client (s.delivered client ++ entries)⟩,
          kept', o', ?_, hdelivers⟩
        rw [EntriesManager.step, hm', Option.map_some]
      · refine ⟨s, kept, o, ?_, h⟩
        rw [EntriesManager.step, fetchEntriesForClient_of_not_due]
        · simp only [Option.map_some, List.append_nil, Function.update_eq_self]
        · intro info hinfo hinfo'
          exact hdue ⟨info, hinfo, hinfo'⟩
  | removeClient client =>
      cases hc : s.manager.clients[client]? with
      | none =>
          refine ⟨s, kept, o, ?_, h⟩
          simp only [EntriesManager.step, EntriesManager.removeClient, hc, Option.map_some]
      | some info =>
          have hmem : client ∈ s.manager.clients := by
            rw [ExtTreeMap.mem_iff_isSome_getElem?, hc]
            rfl
          obtain ⟨m', kept', o', hm', hdelivers⟩ := h.removeClient hc (hharmless hmem) hfuel
          refine ⟨{ s with manager := m' }, kept', o', ?_, hdelivers⟩
          rw [EntriesManager.step, hm', Option.map_some]
  | addEntry entry =>
      rw [Valid, h.queue.layout.maxQueueSize] at hvalid
      obtain ⟨m', success, kept', hm', hdelivers⟩ := h.addEntry hvalid entry
      refine ⟨⟨m', fun client => s.added client ++ [entry], s.delivered⟩, kept', o, ?_, hdelivers⟩
      rw [EntriesManager.step, hm', Option.map_some]

/-- In every harmless run the monitors get what has been added for them. -/
theorem Reachable.delivers {fuel : ℕ} (hQ : 0 < Q) (hB : 0 < B) (hdvd : B ∣ Q)
    (hfuel : Q / B + 1 < fuel) {s : Tracked α} (h : Reachable fuel Q B Harmless s) :
  ∃ kept o, Delivers Q B s.manager s.added s.delivered kept o
  := by
  apply h.invariant
  · refine ⟨[], 0, EntriesQueue.Represents.clear hQ hB hdvd rfl rfl, ?_, ?_, ?_, ?_⟩
    · intro c info hc
      simp [new] at hc
    · exact Counts.empty
    · intro c id hc
      simp [new, cursor] at hc
    · exact fun c => List.prefix_refl []
  · rintro s operation s' ⟨kept, o, hdelivers⟩ ⟨hvalid, hharmless⟩ hstep
    obtain ⟨s'', kept', o', hs', hdelivers'⟩ := hdelivers.step hfuel hvalid hharmless
    obtain rfl := Option.some.inj (hstep.symm.trans hs')
    exact ⟨kept', o', hdelivers'⟩

/-- As long as the ids of the queue do not start over between the cursors when entries are
removed, the clients get all entries in order. -/
theorem inOrder_of_reachable {fuel : ℕ} (hQ : 0 < Q) (hB : 0 < B) (hdvd : B ∣ Q)
    (hfuel : Q / B + 1 < fuel) {s : Tracked α} (hreach : Reachable fuel Q B Harmless s) :
  InOrder fuel s
  := by
  obtain ⟨kept, o, h⟩ := hreach.delivers hQ hB hdvd hfuel
  refine ⟨h.delivered, fun c info hc => ?_, fun operation hvalid hharmless => ?_⟩
  · obtain ⟨k, hk, hid, hadded⟩ := h.pending c info.fromId (cursor_of_getElem? hc)
    rw [hid, h.queue.position_idAt hk, h.queue.live, hadded]
  · obtain ⟨s', _, _, hs', -⟩ := h.step hfuel hvalid hharmless
    rw [hs']
    rfl

/-! ### Two runs -/

instance (m : EntriesManager α) (operation : Operation α) : Decidable (Valid m operation) :=
  match operation with
  | .addEntry _ => inferInstanceAs (Decidable (_ < _))
  | .addClient .. | .modifyClient .. | .fetchEntries .. | .removeClient _ =>
      inferInstanceAs (Decidable True)

instance (frontId : EntryId) (clients : ExtTreeMap ClientId ClientInfo) :
    Decidable (OneSided frontId clients) :=
  inferInstanceAs (Decidable (_ ∨ _))

instance (m : EntriesManager α) (operation : Operation α) : Decidable (Harmless m operation) :=
  match operation with
  | .fetchEntries client force =>
      inferInstanceAs (Decidable (∀ info ∈ m.registered? client, m.Due info force → OneSided _ _))
  | .removeClient _ => inferInstanceAs (Decidable (_ → _))
  | .addClient .. | .modifyClient .. | .addEntry _ => inferInstanceAs (Decidable True)

/-- Two clients with buffers for one entry get entries from a queue with three places. -/
def lap : List (Operation ℕ) :=
  [.addClient 1 1, .addClient 2 1, .addEntry 1, .fetchEntries 1 false, .fetchEntries 2 false,
    .addEntry 2, .modifyClient 1 1, .modifyClient 2 1, .fetchEntries 1 false,
    .fetchEntries 2 false, .addEntry 3, .modifyClient 1 1, .modifyClient 2 1]

theorem inOrder_lap :
  ∃ s, Reachable 4 2 1 Harmless s ∧ s.delivered 1 = [1, 2] ∧ InOrder 4 s
  := by
  have hrun : (Runs.run (step 4)
      (fun s operation => decide (Valid s.manager operation ∧ Harmless s.manager operation))
      lap ⟨new 2 1, fun _ => [], fun _ => []⟩).any (fun s => s.delivered 1 = [1, 2]) := by
    decide +kernel
  obtain ⟨s, hs, hdelivered⟩ := (Option.any_eq_true _ _).mp hrun
  have hreach : Reachable 4 2 1 Harmless s :=
    Runs.Reaches.run (fun _ _ => of_decide_eq_true) .start hs
  refine ⟨s, hreach, of_decide_eq_true hdelivered, ?_⟩
  exact inOrder_of_reachable (by decide) (by decide) (by decide) (by decide) hreach

/-- The second client gets the third entry and has the place with the lowest id as its cursor.
The third entry is removed, although the first client waits for it, and the first client gets
the entry that comes to its place later. -/
theorem delivered_overtaken :
  ∃ s, Reachable 4 2 1 (fun _ _ => True) s ∧ s.delivered 1 = [1, 2, 6]
    ∧ s.added 1 = [1, 2, 3, 4, 5, 6]
  := by
  have hrun : (Runs.run (step 4) (fun s operation => decide (Valid s.manager operation ∧ True))
      (lap ++ [.fetchEntries 2 false, .addEntry 4, .addEntry 5, .modifyClient 2 1,
        .fetchEntries 2 false, .addEntry 6, .fetchEntries 1 false])
      ⟨new 2 1, fun _ => [], fun _ => []⟩).any
        (fun s => s.delivered 1 = [1, 2, 6] ∧ s.added 1 = [1, 2, 3, 4, 5, 6]) := by
    decide +kernel
  obtain ⟨s, hs, hdelivered⟩ := (Option.any_eq_true _ _).mp hrun
  exact ⟨s, Runs.Reaches.run (fun _ _ => of_decide_eq_true) .start hs,
    of_decide_eq_true hdelivered⟩

end EntriesManager

end Cynara
