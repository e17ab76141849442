import Cynara.Dialogue.Channel

/-!
# Dialogues as exchanges

For each id the dialogue of a client and the service is an exchange: the check that the client has
under this id is the question, and the context that the service keeps under it is the question that
is held.  Each thing that one of the parties does comes to steps of the exchange.
-/

namespace Cynara

open Std ProtocolClient ClientAsync

namespace Channel

/-- The part of a request in the exchange for an id. -/
def ask (id : UInt16) : Request → Option Exchange.Ask
  | .check _ id' => if id' = id then some .request else none
  | .simpleCheck _ id' => if id' = id then some .request else none
  | .cancel id' => if id' = id then some .cancel else none
  | _ => none

/-- A response, as a reply to the check with this number. -/
def reply (id : UInt16) : Response → Option Exchange.Reply
  | .check _ id' => if id' = id then some .answer else none
  | .simpleCheck _ _ id' => if id' = id then some .answer else none
  | .cancel id' => if id' = id then some .cancelled else none

/-- The exchange for an id. -/
def view (σ : Logic) (service : CheckLogic) (id : UInt16) (k : Channel) : Exchange.State where
  asked := σ.checks[id]?.map CheckData.cancelled
  forward := if k.link.isSome then (σ.socketClient.requests.drop k.taken).filterMap (ask id) else []
  held := k.link.bind fun link => (service.getContext link id).map CheckContext.cancelled
  back := k.inbox.filterMap (reply id)

/-- The exchanges are valid.  The checks that have got responses are different, their requests have
been taken, and the contexts that wait for agents are those of other checks. -/
structure Orderly (σ : Logic) (service : CheckLogic) (k : Channel) : Prop where
  tracked : ∀ id ∈ σ.checks, σ.sequenceContainer.Allocated id
  linked : σ.connection.isSome = k.link.isSome
  nodup : k.answered.Nodup
  taken_le : k.link.isSome → k.taken ≤ σ.socketClient.requests.length
  asked_le : k.link.isSome → k.count σ ≤ σ.asking.length
  answered : k.link.isSome → ∀ n ∈ k.answered, n ∈ (k.asked σ).map Prod.snd
  waiting : ∀ link ∈ k.link, ∀ id context, service.getContext link id = some context →
    context.cancelled = false → k.holders id ∉ k.answered ∧ (id, k.holders id) ∈ k.asked σ
  valid : ∀ id, Exchange.Valid (k.view σ service id)

variable {σ σ' : Logic} {service service' : CheckLogic} {k : Channel} {id : UInt16}

theorem ask_of_isMonitorRequest {r : Request} (h : isMonitorRequest r) (id : UInt16) :
  ask id r = none
  := by
  cases r with
  | monitorEntriesPut entries n => rfl
  | monitorEntryPut entry n => rfl
  | cancel n => cases h
  | check key n => cases h
  | simpleCheck key n => cases h

theorem ask_request (id id' : UInt16) (check : CheckData) :
  ask id (check.request id') = if id' = id then some .request else none
  := by
  unfold CheckData.request
  split
  · rfl
  · rfl

theorem ask_of_ne {r : Request} (h : r.sequenceNumber ≠ id) :
  ask id r = none
  := by
  cases r with
  | monitorEntriesPut entries n => rfl
  | monitorEntryPut entry n => rfl
  | cancel n => exact if_neg h
  | check key n => exact if_neg h
  | simpleCheck key n => exact if_neg h

theorem reply_of_ne {r : Response} (h : r.sequenceNumber ≠ id) :
  reply id r = none
  := by
  cases r with
  | cancel n => exact if_neg h
  | check result n => exact if_neg h
  | simpleCheck retValue result n => exact if_neg h

/-! ### What the client does over its connection -/

section Extension

variable {rs : List Request}

theorem count_append (htaken : k.taken ≤ σ.socketClient.requests.length)
    (hrs : σ'.socketClient.requests = σ.socketClient.requests ++ rs) :
  k.count σ' = k.count σ
  := by
  rw [count, count, hrs, List.take_append_of_le_length htaken]

/-- A request that is queued is at the end. -/
theorem view_append (hlink : k.link.isSome) (htaken : k.taken ≤ σ.socketClient.requests.length)
    (hrs : σ'.socketClient.requests = σ.socketClient.requests ++ rs) :
  k.view σ' service id =
    { k.view σ service id with
      asked := σ'.checks[id]?.map CheckData.cancelled
      forward := (k.view σ service id).forward ++ rs.filterMap (ask id) }
  := by
  simp only [view, if_pos hlink, hrs, List.drop_append_of_le_length htaken,
    List.filterMap_append]

/-- Requests that are not about an id do not change its exchange. -/
theorem view_eq_of_forall_ask (htaken : k.link.isSome → k.taken ≤ σ.socketClient.requests.length)
    (hrs : σ'.socketClient.requests = σ.socketClient.requests ++ rs)
    (hnone : ∀ r ∈ rs, ask id r = none) (hcheck : σ'.checks[id]? = σ.checks[id]?) :
  k.view σ' service id = k.view σ service id
  := by
  by_cases hlink : k.link.isSome
  · rw [view_append hlink (htaken hlink) hrs, List.filterMap_eq_nil_iff.mpr hnone, hcheck,
      List.append_nil]
    rfl
  · simp only [view, if_neg hlink, hcheck]

/-- More requests are queued, maybe for more checks. -/
theorem Orderly.extend (h : Orderly σ service k) (as : List (UInt16 × ℕ))
    (htracked : ∀ id ∈ σ'.checks, σ'.sequenceContainer.Allocated id)
    (hconnection : σ'.connection.isSome = σ.connection.isSome)
    (hrs : σ'.socketClient.requests = σ.socketClient.requests ++ rs)
    (has : σ'.asking = σ.asking ++ as)
    (hsteps : ∀ id, Exchange.Steps (k.view σ service id) (k.view σ' service id)) :
  Orderly σ' service k
  := by
  have hcount : k.link.isSome → k.count σ' = k.count σ :=
    fun hlink => count_append (h.taken_le hlink) hrs
  have hasked : k.link.isSome → k.asked σ' = k.asked σ := by
    intro hlink
    rw [asked, asked, hcount hlink, has, List.take_append_of_le_length (h.asked_le hlink)]
  refine ⟨htracked, hconnection.trans h.linked, h.nodup, ?_, ?_, ?_, ?_, ?_⟩
  · intro hlink
    rw [hrs, List.length_append]
    exact Nat.le_add_right_of_le (h.taken_le hlink)
  · intro hlink
    rw [hcount hlink, has, List.length_append]
    exact Nat.le_add_right_of_le (h.asked_le hlink)
  · intro hlink
    rw [hasked hlink]
    exact h.answered hlink
  · intro link hlink
    rw [hasked (Option.isSome_of_mem hlink)]
    exact h.waiting link hlink
  · intro id
    exact (h.valid id).steps (hsteps id)

end Extension

/-- What leaves the checks alone leaves the exchanges in order. -/
theorem Orderly.still (h : Orderly σ service k) (hstill : Logic.Still σ σ') :
  Orderly σ' service k
  := by
  obtain ⟨rs, hrs, hmonitor⟩ := hstill.requests
  apply h.extend [] _ _ hrs
  · rw [Logic.asking, hstill.connection, List.append_nil]
    rfl
  · intro id
    rw [view_eq_of_forall_ask h.taken_le hrs]
    · exact fun r hr => ask_of_isMonitorRequest (hmonitor r hr) id
    · rw [hstill.checks]
  · rw [hstill.checks, hstill.sequenceContainer]
    exact h.tracked
  · rw [hstill.connection]

theorem Orderly.create (h : Orderly σ service k) {sequenceContainer : SequenceContainer}
    (simple : Bool) (key : ValidKey) (session : ClientSession) (hconnection : σ.connection.isSome)
    (hget : σ.sequenceContainer.get = some (id, sequenceContainer)) :
  Orderly (σ.insertCheck simple key session id sequenceContainer) service k
  := by
  obtain ⟨hfree, -, hallocated⟩ := SequenceContainer.get_eq_some hget
  have hnew : id ∉ σ.checks := fun hmem => hfree (h.tracked id hmem)
  have hchecks := Logic.getElem?_insertCheck hnew simple key session sequenceContainer
  have hlink : k.link.isSome := h.linked ▸ hconnection
  have hrs : (σ.insertCheck simple key session id sequenceContainer).socketClient.requests =
      σ.socketClient.requests ++ [CheckData.request id ⟨key, session, simple, false, σ.created⟩] :=
    Logic.requests_appendRequest _ _
  obtain ⟨connection, hsome⟩ := Option.isSome_iff_exists.mp hconnection
  have hsome' : (σ.insertCheck simple key session id sequenceContainer).connection =
      some (connection.create id ⟨key, session, simple, false, σ.created⟩) := by
    change σ.connection.map _ = _
    rw [hsome]
    rfl
  apply h.extend [(id, σ.created)] _ _ hrs
  · simp [Logic.asking, hsome, hsome', Connection.create, Connection.checks]
  · intro id'
    by_cases hid : id = id'
    · subst hid
      have hnone : σ.checks[id]? = none := by simpa using hnew
      rw [view_append hlink (h.taken_le hlink) hrs, hchecks, if_pos rfl]
      apply Relation.ReflTransGen.single
      have hask := Exchange.Step.ask (s := k.view σ service id) (by simp [view, hnone])
      simpa [ask_request] using hask
    · rw [view_eq_of_forall_ask h.taken_le hrs]
      · rw [List.forall_mem_singleton, ask_request, if_neg hid]
      · rw [hchecks, if_neg hid]
  · intro id' hid'
    change sequenceContainer.Allocated id'
    rw [ExtTreeMap.mem_iff_isSome_getElem?, hchecks] at hid'
    rw [hallocated]
    by_cases hid : id = id'
    · exact Or.inl hid.symm
    · rw [if_neg hid] at hid'
      exact Or.inr (h.tracked id' (ExtTreeMap.mem_iff_isSome_getElem?.mpr hid'))
  · rw [hsome, hsome']
    rfl

theorem Orderly.cancel (h : Orderly σ service k) {check : CheckData}
    (hconnection : σ.connection.isSome) (hcheck : σ.checks[id]? = some check)
    (hactive : check.cancelled = false) :
  Orderly (σ.cancelCheck id check) service k
  := by
  have hlink : k.link.isSome := h.linked ▸ hconnection
  have hrs : (σ.cancelCheck id check).socketClient.requests =
      σ.socketClient.requests ++ [.cancel id] := Logic.requests_appendRequest _ σ
  apply h.extend [] _ _ hrs
  · exact (List.append_nil _).symm
  · intro id'
    by_cases hid : id = id'
    · subst hid
      rw [view_append hlink (h.taken_le hlink) hrs, Logic.getElem?_cancelCheck, if_pos rfl]
      apply Relation.ReflTransGen.single
      have hcancel := Exchange.Step.cancel (s := k.view σ service id)
        (by simp [view, hcheck, hactive])
      simpa [ask, CheckData.cancel] using hcancel
    · rw [view_eq_of_forall_ask h.taken_le hrs]
      · rw [List.forall_mem_singleton]
        exact if_neg hid
      · rw [Logic.getElem?_cancelCheck, if_neg hid]
  · intro id' hid'
    change σ.sequenceContainer.Allocated id'
    rw [ExtTreeMap.mem_iff_isSome_getElem?, Logic.getElem?_cancelCheck] at hid'
    apply h.tracked id'
    rw [ExtTreeMap.mem_iff_isSome_getElem?]
    split at hid'
    · rename_i hid
      rw [← hid, hcheck]
      rfl
    · exact hid'
  · rfl

/-- The client keeps the exchanges in order, over one connection. -/
theorem Orderly.act {held held' : List ℕ} (h : Orderly σ service k)
    (hact : Logic.Act held σ held' σ') :
  Orderly σ' service k
  := by
  cases hact with
  | quiet hquiet => exact h.still hquiet.toStill
  | answer id check result => exact h.still (.of_socketClient rfl rfl rfl rfl)
  | create simple key session hconnection hget =>
      exact h.create simple key session hconnection hget
  | cancel hconnection hcheck hactive => exact h.cancel hconnection hcheck hactive

/-! ### Connections that are made -/

/-- Each check that waits is asked for once. -/
theorem filterMap_ask (id : UInt16) (checks : List (UInt16 × CheckData)) :
  (checks.map fun check => check.2.request check.1).filterMap (ask id) =
    List.replicate ((checks.map Prod.fst).count id) .request
  := by
  induction checks with
  | nil => rfl
  | cons check checks ih =>
      rw [List.map_cons, List.map_cons, List.count_cons]
      by_cases hid : check.1 = id
      · simp [ask_request, hid, ih, List.replicate_succ]
      · simp [ask_request, hid, ih]

theorem nodup_active (σ : Logic) :
  (σ.active.map Prod.fst).Nodup
  := by
  have hkeys : (σ.checks.toList.map Prod.fst).Nodup := by
    rw [ExtTreeMap.map_fst_toList_eq_keys]
    exact ExtTreeMap.nodup_keys
  exact hkeys.sublist (List.filter_sublist.map _)

/-- Over a new connection all exchanges begin again. -/
theorem Orderly.renew (h : Orderly σ service k) {s : SocketClient} (hs : s.requests = [])
    {fresh : LinkId} (hfresh : ∀ id, service.getContext fresh id = none) :
  Orderly (Logic.prepareRequestsToSend
    { σ with socketClient := s, connection := some ⟨σ.active, []⟩ }) service { link := some fresh }
  := by
  obtain ⟨sequenceContainer, checks, heq, hallocated, hchecks⟩ :=
    Logic.prepareRequestsToSend_eq
      { σ with socketClient := s, connection := some ⟨σ.active, []⟩ }
  rw [heq]
  have hactive : Logic.active { σ with socketClient := s, connection := some ⟨σ.active, []⟩ } =
      σ.active := rfl
  rw [hactive] at hchecks ⊢
  simp only [SocketClient.requests, List.append_eq_nil_iff] at hs
  refine ⟨?_, rfl, List.nodup_nil, fun _ => Nat.zero_le _, fun _ => ?_,
    fun _ _ hn => absurd hn List.not_mem_nil, ?_, ?_⟩
  · intro id hid
    obtain ⟨check, hcheck⟩ := Option.isSome_iff_exists.mp
      (ExtTreeMap.mem_iff_isSome_getElem?.mp hid)
    obtain ⟨hcheck, hwaits⟩ := Logic.mem_active.mp ((hchecks id check).mp hcheck)
    refine (hallocated id).mpr ⟨h.tracked id ?_, ?_⟩
    · exact ExtTreeMap.mem_iff_isSome_getElem?.mpr (by rw [hcheck]; rfl)
    · intro check' hcheck'
      obtain rfl := Option.some.inj (hcheck.symm.trans hcheck')
      exact hwaits
  · simp [count]
  · rintro link hlink id context hcontext -
    obtain rfl := Option.some.inj hlink
    simp [hfresh id] at hcontext
  · intro id
    have hforward : (s.wire ++ s.sendQueue ++ (s.writeQueue ++
        σ.active.map fun check => check.2.request check.1)).filterMap (ask id) =
          if id ∈ σ.active.map Prod.fst then [.request] else [] := by
      simp only [hs, List.nil_append, filterMap_ask, (nodup_active σ).count]
      split
      · rfl
      · rfl
    simp only [view, SocketClient.requests, Option.isSome_some, if_true, List.drop_zero, hforward,
      Option.bind_some, hfresh id, Option.map_none, List.filterMap_nil]
    cases hcheck : checks[id]? with
    | none =>
        have hnot : id ∉ σ.active.map Prod.fst := by
          intro hid
          obtain ⟨⟨id', check⟩, hmem, rfl⟩ := List.mem_map.mp hid
          rw [(hchecks id' check).mpr hmem] at hcheck
          cases hcheck
        rw [if_neg hnot]
        exact (h.valid id).step .reset
    | some check =>
        have hmem := (hchecks id check).mp hcheck
        rw [if_pos (List.mem_map_of_mem hmem), Option.map_some, (Logic.mem_active.mp hmem).2]
        exact (h.valid id).step .renew

theorem Orderly.refuse (h : Orderly σ service k) (s : SocketClient) :
  Orderly (Logic.onServiceNotAvailable { σ with socketClient := s, connection := none }) service
    { k with link := none, inbox := [] }
  := by
  refine ⟨fun _ hid => absurd hid ExtTreeMap.not_mem_empty, ?_, h.nodup, nofun, nofun, nofun,
    nofun, ?_⟩
  · rw [Logic.onServiceNotAvailable, Logic.callAll_eq]
    rfl
  · exact fun id => (h.valid id).step .reset

theorem Orderly.give (h : Orderly σ service k) (s : SocketClient) :
  Orderly { σ with socketClient := s, connection := none } service { k with link := none }
  := by
  refine ⟨h.tracked, rfl, h.nodup, nofun, nofun, nofun, nofun, ?_⟩
  exact fun id => (h.valid id).step .cut

theorem Orderly.connect (h : Orderly σ service k) {fresh : LinkId}
    (hfresh : ∀ id, service.getContext fresh id = none) (attempt : Attempt) :
  Orderly (σ.onDisconnected.connect attempt).2 service (k.apply fresh (.connect attempt))
  := by
  have hlost := h.still (Logic.quiet_onDisconnected σ).toStill
  cases attempt with
  | succeeded => exact (hlost.renew rfl hfresh).still (Logic.quiet_onStatusChange _).toStill
  | inProgress => exact (hlost.renew rfl hfresh).still (Logic.quiet_onStatusChange _).toStill
  | failed => exact hlost.refuse _
  | thrown => exact hlost.give _

/-- What the client does in a step keeps the exchanges valid. -/
theorem Orderly.does {ops : List ConnectionOp} (h : Orderly σ service k) {fresh : LinkId}
    (hfresh : ∀ id, service.getContext fresh id = none) (hdoes : Client.Does ops σ σ') :
  Orderly σ' service (ops.foldl (apply fresh) k)
  := by
  obtain ⟨held, held', σ₁, hdoes, hstill⟩ := hdoes
  apply Orderly.still _ hstill
  clear hstill
  induction hdoes with
  | refl => exact h
  | act _ hact ih => exact (ih h).act hact
  | connect attempt _ _ ih =>
      rw [List.foldl_append]
      exact (ih h).connect hfresh attempt
  | fail _ _ _ ih =>
      rw [List.foldl_append]
      exact (ih h).refuse _

/-! ### Responses that are read -/

theorem exists_reply (response : Response) :
  ∃ r, reply response.sequenceNumber response = some r ∧
    ∀ id, response = .cancel id → r = .cancelled
  := by
  cases response with
  | cancel id => exact ⟨.cancelled, if_pos rfl, fun _ _ => rfl⟩
  | check result id => exact ⟨.answer, if_pos rfl, nofun⟩
  | simpleCheck retValue result id => exact ⟨.answer, if_pos rfl, nofun⟩

/-- A response that has been sent is expected. -/
theorem Orderly.expects (h : Orderly σ service k) {response : Response} {inbox : List Response}
    (hinbox : k.inbox = response :: inbox) :
  σ.expects response = true
  := by
  obtain ⟨r, hr, hcancel⟩ := exists_reply response
  have hvalid := h.valid response.sequenceNumber
  simp only [view, hinbox, List.filterMap_cons, hr] at hvalid
  obtain ⟨late, cancelled, hasked, -, -, -, hcancelled⟩ := hvalid.of_reply
  obtain ⟨check, hcheck, rfl⟩ := Option.map_eq_some_iff.mp hasked
  unfold Logic.expects
  rw [hcheck]
  cases response with
  | cancel id => exact hcancelled (hcancel id rfl)
  | check result id => rfl
  | simpleCheck retValue result id => rfl

/-- The client reads the next response. -/
theorem Orderly.receive (h : Orderly σ service k) {response : Response} {inbox : List Response}
    (hinbox : k.inbox = response :: inbox) :
  Orderly (σ.releaseRequest response.sequenceNumber) service { k with inbox := inbox }
  := by
  obtain ⟨r, hr, -⟩ := exists_reply response
  refine ⟨?_, h.linked, h.nodup, h.taken_le, h.asked_le, h.answered, h.waiting, ?_⟩
  · intro id hid
    change id ∈ σ.checks.erase _ at hid
    apply SequenceContainer.allocated_release.mpr
    rw [ExtTreeMap.mem_erase] at hid
    refine ⟨?_, h.tracked id hid.2⟩
    rintro rfl
    exact hid.1 Std.compare_self
  · intro id
    by_cases hid : response.sequenceNumber = id
    · subst hid
      have hback : (k.view σ service response.sequenceNumber).back =
          r :: inbox.filterMap (reply response.sequenceNumber) := by
        simp only [view, hinbox, List.filterMap_cons, hr]
      have hnone : (σ.releaseRequest response.sequenceNumber).checks[response.sequenceNumber]? =
          none := by
        rw [Logic.getElem?_releaseRequest, if_pos rfl]
      have hreceive := (h.valid _).step (.receive hback)
      simp only [view, hnone, Option.map_none]
      exact hreceive
    · have hsame := h.valid id
      simp only [view, hinbox, List.filterMap_cons, reply_of_ne hid] at hsame
      simp only [view, Logic.getElem?_releaseRequest, if_neg hid]
      exact hsame

end Channel

end Cynara
