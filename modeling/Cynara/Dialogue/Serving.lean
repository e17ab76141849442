import Cynara.Dialogue.Exchanges

/-!
# What the service does in a dialogue

What the service does to a context of the connection, and what it does for a request of the client,
comes to steps of the exchange for one id; the other exchanges stay as they are.  So the exchanges
stay valid.  A response is for the check whose request has been taken last under its id, and no
check gets two responses.
-/

namespace Cynara

open Std ProtocolClient ClientAsync

namespace Channel

variable {σ : Logic} {service service' service₁ : CheckLogic} {k k' : Channel} {id : UInt16}
  {link : LinkId} {number : Response → ℕ} {request : Request}

/-! ### Responses that are sent -/

theorem link_deliver :
  (k.deliver number service service').link = k.link
  := by
  unfold deliver
  split
  · rfl
  · rfl

theorem holders_deliver :
  (k.deliver number service service').holders = k.holders
  := by
  unfold deliver
  split
  · rfl
  · rfl

theorem responsesTo_append (sent sent' : List (LinkId × Response)) :
  responsesTo link (sent ++ sent') = responsesTo link sent ++ responsesTo link sent'
  := by
  simp [responsesTo]

theorem deliver_eq (hlink : k.link = some link) (rs : List (LinkId × Response))
    (hrs : service'.sent = service.sent ++ rs) :
  k.deliver number service service' =
    { k with
      inbox := k.inbox ++ responsesTo link rs
      answered := k.answered ++ (responsesTo link rs).map number }
  := by
  simp only [deliver, hlink, hrs, List.drop_left]

theorem deliver_trans {rs rs' : List (LinkId × Response)} (hrs : service₁.sent = service.sent ++ rs)
    (hrs' : service'.sent = service₁.sent ++ rs') :
  (k.deliver number service service₁).deliver number service₁ service' =
    k.deliver number service service'
  := by
  cases hlink : k.link with
  | none => simp only [deliver, hlink]
  | some link =>
      have hall : service'.sent = service.sent ++ (rs ++ rs') := by
        rw [hrs', hrs, List.append_assoc]
      rw [deliver_eq (link_deliver.trans hlink) rs' hrs', deliver_eq hlink rs hrs,
        deliver_eq hlink (rs ++ rs') hall]
      simp only [responsesTo_append, List.map_append, List.append_assoc]

theorem deliver_of_sent_eq (h : service'.sent = service.sent) :
  k.deliver number service service' = k
  := by
  cases hlink : k.link with
  | none => simp only [deliver, hlink]
  | some link =>
      rw [deliver_eq hlink [] (by rw [h, List.append_nil])]
      simp [responsesTo]

/-! ### The exchange that is concerned -/

theorem view_eq (hlink : k'.link = k.link)
    (hforward : (σ.socketClient.requests.drop k'.taken).filterMap (ask id) =
      (σ.socketClient.requests.drop k.taken).filterMap (ask id))
    (hcontext : ∀ link ∈ k.link, service'.getContext link id = service.getContext link id)
    (hback : k'.inbox.filterMap (reply id) = k.inbox.filterMap (reply id)) :
  k'.view σ service' id = k.view σ service id
  := by
  have hheld : (k.link.bind fun link =>
      (service'.getContext link id).map CheckContext.cancelled) =
        k.link.bind fun link => (service.getContext link id).map CheckContext.cancelled := by
    cases hk : k.link with
    | none => rfl
    | some link => simp only [Option.bind_some, hcontext link hk]
  simp only [view, hlink, hforward, hheld, hback]

/-- Something happens to the context of one id and to the requests and responses for it.  At most
one check gets a response. -/
structure Changes (σ : Logic) (service service' : CheckLogic) (id : UInt16) (link : LinkId)
    (k k' : Channel) : Prop where
  linked : k.link = some link ∧ k'.link = some link
  taken_le : k'.taken ≤ σ.socketClient.requests.length
  asked_le : k'.count σ ≤ σ.asking.length
  asked : ∀ check ∈ k.asked σ, check ∈ k'.asked σ
  answered : k'.answered = k.answered ∨
    ∃ n, k'.answered = k.answered ++ [n] ∧ (id, n) ∈ k'.asked σ ∧ n ∉ k.answered
  holders : ∀ id' ≠ id, k'.holders id' = k.holders id'
  waiting : ∀ context, service'.getContext link id = some context → context.cancelled = false →
    k'.holders id ∉ k'.answered ∧ (id, k'.holders id) ∈ k'.asked σ
  forward : ∀ id' ≠ id, (σ.socketClient.requests.drop k'.taken).filterMap (ask id') =
    (σ.socketClient.requests.drop k.taken).filterMap (ask id')
  contexts : ∀ id' ≠ id, service'.getContext link id' = service.getContext link id'
  inbox : ∃ rs, k'.inbox = k.inbox ++ rs ∧ ∀ r ∈ rs, r.sequenceNumber = id
  steps : Exchange.Steps (k.view σ service id) (k'.view σ service' id)

theorem Changes.valid (h : Changes σ service service' id link k k')
    (hvalid : ∀ id, Exchange.Valid (k.view σ service id)) (id' : UInt16) :
  Exchange.Valid (k'.view σ service' id')
  := by
  by_cases hid : id' = id
  · subst hid
    exact (hvalid id').steps h.steps
  · obtain ⟨rs, hrs, hids⟩ := h.inbox
    have hnone : rs.filterMap (reply id') = [] := by
      rw [List.filterMap_eq_nil_iff]
      intro r hr
      apply reply_of_ne
      rw [hids r hr]
      exact Ne.symm hid
    rw [view_eq (h.linked.2.trans h.linked.1.symm) (h.forward id' hid)]
    · exact hvalid id'
    · intro link' hlink'
      obtain rfl : link = link' := Option.some.inj (h.linked.1.symm.trans hlink')
      exact h.contexts id' hid
    · rw [hrs, List.filterMap_append, hnone, List.append_nil]

/-- A change of one exchange keeps all of them in order. -/
theorem Orderly.change (h : Orderly σ service k) (hnumbers : (σ.asking.map Prod.snd).Nodup)
    (id : UInt16) (hchange : Changes σ service service' id link k k') :
  Orderly σ service' k'
  := by
  obtain ⟨hlink, hlink'⟩ := hchange.linked
  have hsome : k.link.isSome := by rw [hlink]; rfl
  refine ⟨h.tracked, ?_, ?_, fun _ => hchange.taken_le, fun _ => hchange.asked_le, fun _ => ?_, ?_,
    hchange.valid h.valid⟩
  · rw [h.linked, hlink, hlink']
  · rcases hchange.answered with heq | ⟨n, heq, -, hn⟩
    · rw [heq]
      exact h.nodup
    · rw [heq, List.nodup_append]
      refine ⟨h.nodup, List.nodup_singleton n, ?_⟩
      rintro m hm n' hn' rfl
      obtain rfl := List.mem_singleton.mp hn'
      exact hn hm
  · have hold : ∀ n ∈ k.answered, n ∈ (k'.asked σ).map Prod.snd := by
      intro n hn
      obtain ⟨check, hcheck, rfl⟩ := List.mem_map.mp (h.answered hsome n hn)
      exact List.mem_map_of_mem (hchange.asked check hcheck)
    rcases hchange.answered with heq | ⟨n, heq, hasked, -⟩
    · rw [heq]
      exact hold
    · rw [heq, List.forall_mem_append, List.forall_mem_singleton]
      exact ⟨hold, List.mem_map_of_mem hasked⟩
  · intro link₁ hlink₁ id' context hcontext hactive
    obtain rfl : link = link₁ := Option.some.inj (hlink'.symm.trans hlink₁)
    by_cases hid : id' = id
    · subst hid
      exact hchange.waiting context hcontext hactive
    · rw [hchange.contexts id' hid] at hcontext
      obtain ⟨hnot, hasked⟩ := h.waiting link hlink id' context hcontext hactive
      rw [hchange.holders id' hid]
      refine ⟨?_, hchange.asked _ hasked⟩
      rcases hchange.answered with heq | ⟨n, heq, hn, -⟩
      · rw [heq]
        exact hnot
      · -- the check that gets the response has another id, and so another number
        rw [heq, List.mem_append, List.mem_singleton]
        rintro (hmem | rfl)
        · exact hnot hmem
        · have hpair := List.inj_on_of_nodup_map hnumbers
            (List.mem_of_mem_take (hchange.asked _ hasked)) (List.mem_of_mem_take hn) rfl
          exact hid (congrArg Prod.fst hpair)

/-- Nothing happens to the contexts of the connection. -/
theorem Orderly.congr (h : Orderly σ service k)
    (hcontext : ∀ link ∈ k.link, ∀ id, service'.getContext link id = service.getContext link id) :
  Orderly σ service' k
  := by
  refine ⟨h.tracked, h.linked, h.nodup, h.taken_le, h.asked_le, h.answered, ?_, ?_⟩
  · intro link hlink id context hget
    rw [hcontext link hlink] at hget
    exact h.waiting link hlink id context hget
  · intro id
    rw [view_eq rfl rfl (fun link hlink => hcontext link hlink id) rfl]
    exact h.valid id

/-- No response is sent. -/
theorem Orderly.silent (h : Orderly σ service' k) (hsent : service'.sent = service.sent) :
  Orderly σ service' (k.deliver number service service')
  := by
  rw [deliver_of_sent_eq hsent]
  exact h

/-! ### What happens to contexts -/

section Contexts

variable {context : CheckContext} {forgets : Prop}

/-- Only the context in one place is another one. -/
def Replaces (context : CheckContext) (held : Option CheckContext)
    (service service' : CheckLogic) : Prop :=
  ∀ link id, service'.getContext link id =
    if context.link = link ∧ context.checkId = id then held else service.getContext link id

theorem replaces_remove (service : CheckLogic) (context : CheckContext) :
  Replaces context none service (service.remove context)
  := fun _ _ => CheckRequestManager.getContext_removeRequest

theorem replaces_put (service : CheckLogic) (context : CheckContext) :
  Replaces context (some context) service (service.put context)
  := fun _ _ => CheckRequestManager.getContext_put

theorem Replaces.here {held : Option CheckContext} (h : Replaces context held service service') :
  service'.getContext context.link context.checkId = held
  := by
  rw [h, if_pos ⟨rfl, rfl⟩]

theorem Replaces.other {held : Option CheckContext} (h : Replaces context held service service')
    (hplace : context.link ≠ link ∨ context.checkId ≠ id) :
  service'.getContext link id = service.getContext link id
  := by
  rw [h, if_neg (not_and_or.mpr hplace)]

/-- A context is removed or marked, and no response is sent. -/
theorem Orderly.place {held : Option CheckContext} (h : Orderly σ service k)
    (hnumbers : (σ.asking.map Prod.snd).Nodup) (hplace : Replaces context held service service')
    (hheld : ∀ context' ∈ held, context'.cancelled = true) :
  Orderly σ service' k
  := by
  by_cases hlink : k.link = some context.link
  · have hsome : k.link.isSome := by rw [hlink]; rfl
    refine h.change hnumbers context.checkId
      { linked := ⟨hlink, hlink⟩
        taken_le := h.taken_le hsome
        asked_le := h.asked_le hsome
        asked := fun _ => id
        answered := Or.inl rfl
        holders := fun _ _ => rfl
        waiting := ?_
        forward := fun _ _ => rfl
        contexts := fun id' hid => hplace.other (Or.inr (Ne.symm hid))
        inbox := ⟨[], (List.append_nil _).symm, nofun⟩
        steps := .single ?_ }
    · intro context' hcontext' hactive
      rw [hplace.here] at hcontext'
      simp [hheld context' hcontext'] at hactive
    · cases hsame : held with
      | none =>
          have hdrop := Exchange.Step.drop (s := k.view σ service context.checkId)
          simpa [view, hlink, hplace.here, hsame] using hdrop
      | some context' =>
          have habandon := Exchange.Step.abandon (s := k.view σ service context.checkId)
          simpa [view, hlink, hplace.here, hsame, hheld context' hsame] using habandon
  · apply h.congr
    intro link hmem id
    apply hplace.other
    left
    rintro rfl
    exact hlink hmem

/-- The context of a check that waits is removed, and its response is sent. -/
theorem Orderly.settle {result : PolicyResult} (h : Orderly σ service k)
    (hnumbers : (σ.asking.map Prod.snd).Nodup) (hkeeps : service.Keeps context)
    (hactive : context.cancelled = false)
    (hnumber : k.link = some context.link →
      ∀ response, number response = k.holders response.sequenceNumber)
    (hplace : Replaces context none service service')
    (hsent : service'.sent = service.sent ++ [(context.link, .check result context.checkId)]) :
  Orderly σ service' (k.deliver number service service')
  := by
  cases hk : k.link with
  | none =>
      have hsame : k.deliver number service service' = k := by simp only [deliver, hk]
      rw [hsame]
      exact h.congr (by simp [hk])
  | some link =>
      by_cases hlink : link = context.link
      · subst hlink
        have hsome : k.link.isSome := by rw [hk]; rfl
        obtain ⟨hnot, hasked⟩ := h.waiting context.link hk context.checkId context hkeeps hactive
        rw [deliver_eq hk _ hsent]
        refine h.change hnumbers context.checkId
          { linked := ⟨hk, hk⟩
            taken_le := h.taken_le hsome
            asked_le := h.asked_le hsome
            asked := fun _ => id
            answered := Or.inr ⟨k.holders context.checkId, ?_, hasked, hnot⟩
            holders := fun _ _ => rfl
            waiting := ?_
            forward := fun _ _ => rfl
            contexts := fun id' hid => hplace.other (Or.inr (Ne.symm hid))
            inbox := ⟨_, rfl, by simp [responsesTo, Response.sequenceNumber]⟩
            steps := .single ?_ }
        · simp [responsesTo, hnumber hk, Response.sequenceNumber]
        · intro context' hcontext'
          simp [hplace.here] at hcontext'
        · have hkept : service.getContext context.link context.checkId = some context := hkeeps
          have hsettle := Exchange.Step.settle (s := k.view σ service context.checkId)
            (by simp [view, hk, hkept, hactive])
          simpa [view, hk, hplace.here, responsesTo, reply] using hsettle
      · have hsame : k.deliver number service service' = k := by
          rw [deliver_eq hk _ hsent]
          simp [responsesTo, Ne.symm hlink]
        rw [hsame]
        apply h.congr
        intro link' hlink' id
        obtain rfl : link = link' := Option.some.inj (hk.symm.trans hlink')
        exact hplace.other (Or.inl (Ne.symm hlink))

/-- What happens to the contexts keeps the exchanges valid. -/
theorem Orderly.effect (h : Orderly σ service k) (hnumbers : (σ.asking.map Prod.snd).Nodup)
    (hnumber : ∀ link ∈ k.link,
      link ∈ service.closed ∨ ∀ response, number response = k.holders response.sequenceNumber)
    (heffect : CheckLogic.Effect forgets service service') :
  Orderly σ service' (k.deliver number service service')
  := by
  cases heffect with
  | quiet hquiet =>
      exact (h.congr fun link _ id => hquiet.getContext_eq link id).silent hquiet.sent
  | close link =>
      have hcontexts : Orderly σ (service.close link) k := h.congr fun _ _ _ => rfl
      exact hcontexts.silent rfl
  | settle result hkeeps hactive hopen =>
      refine h.settle hnumbers hkeeps hactive ?_ (replaces_remove service _) rfl
      intro hlink
      exact (hnumber _ hlink).resolve_left hopen
  | drop _ _ => exact (h.place hnumbers (replaces_remove service _) nofun).silent rfl
  | forget _ _ => exact (h.place hnumbers (replaces_remove service _) nofun).silent rfl
  | abandon _ _ =>
      refine (h.place hnumbers (replaces_put service _) ?_).silent rfl
      intro context' hcontext'
      rw [← Option.some.inj hcontext']
      rfl

theorem sent_of_effects (h : CheckLogic.Effects forgets service service') :
  ∃ rs, service'.sent = service.sent ++ rs
  := by
  induction h with
  | refl => exact ⟨[], (List.append_nil _).symm⟩
  | tail _ heffect ih =>
      obtain ⟨rs, hrs⟩ := ih
      obtain ⟨-, rs', hrs'⟩ := heffect.mono
      exact ⟨rs ++ rs', by rw [hrs', hrs, List.append_assoc]⟩

/-- What the service does by itself keeps the exchanges in order. -/
theorem Orderly.effects (h : Orderly σ service k) (hnumbers : (σ.asking.map Prod.snd).Nodup)
    (hnumber : ∀ link ∈ k.link,
      link ∈ service.closed ∨ ∀ response, number response = k.holders response.sequenceNumber)
    (heffects : CheckLogic.Effects forgets service service') :
  Orderly σ service' (k.deliver number service service')
  := by
  induction heffects with
  | refl => exact h.silent rfl
  | tail hfirst heffect ih =>
      obtain ⟨rs, hrs⟩ := sent_of_effects hfirst
      obtain ⟨-, rs', hrs'⟩ := heffect.mono
      rw [← deliver_trans hrs hrs']
      apply ih.effect hnumbers _ heffect
      intro link hlink
      rw [link_deliver] at hlink
      rw [holders_deliver]
      exact (hnumber link hlink).imp_left (CheckLogic.Effects.mem_closed hfirst)

end Contexts

/-! ### Requests that are taken -/

section Requests

theorem sequenceNumber_request (id : UInt16) (check : CheckData) :
  (check.request id).sequenceNumber = id
  := by
  unfold CheckData.request
  split
  · rfl
  · rfl

theorem drop_taken (hrequest : σ.socketClient.requests[k.taken]? = some request) :
  σ.socketClient.requests.drop k.taken =
    request :: σ.socketClient.requests.drop (k.taken + 1)
  := by
  obtain ⟨hlt, rfl⟩ := List.getElem?_eq_some_iff.mp hrequest
  exact List.drop_eq_getElem_cons hlt

/-- The requests for checks are those of the checks of the connection, in their order. -/
theorem getElem?_asking (hexact : σ.Exact) (hconnection : σ.connection.isSome)
    (hrequest : σ.socketClient.requests[k.taken]? = some request)
    (hcheck : isCheckRequest request) :
  σ.asking[k.count σ]? = some (request.sequenceNumber, k.asker σ)
  := by
  obtain ⟨connection, hsome⟩ := Option.isSome_iff_exists.mp hconnection
  have hfilter : (σ.socketClient.requests.filter isCheckRequest)[k.count σ]? = some request := by
    have hsplit := List.take_append_drop k.taken σ.socketClient.requests
    rw [drop_taken hrequest] at hsplit
    rw [count, List.countP_eq_length_filter]
    nth_rewrite 1 [← hsplit]
    rw [List.filter_append, List.filter_cons_of_pos hcheck]
    simp
  rw [hexact.requests connection hsome, List.getElem?_map] at hfilter
  obtain ⟨check, hget, rfl⟩ := Option.map_eq_some_iff.mp hfilter
  have hasking : σ.asking[k.count σ]? = some (check.1, check.2.number) := by
    simp [Logic.asking, hsome, hget]
  rw [asker, List.getD_eq_getElem?_getD, hasking, sequenceNumber_request]
  rfl

theorem count_succ (hrequest : σ.socketClient.requests[k.taken]? = some request)
    (htaken : k'.taken = k.taken + 1) :
  k'.count σ = k.count σ + if isCheckRequest request then 1 else 0
  := by
  rw [count, count, htaken, List.take_add_one, hrequest, List.countP_append]
  simp [List.countP_cons]

theorem nodup_asking (hexact : σ.Exact) :
  (σ.asking.map Prod.snd).Nodup
  := by
  unfold Logic.asking
  cases hconnection : σ.connection with
  | none => exact List.nodup_nil
  | some connection =>
      simp only [Option.map_some, Option.getD_some, List.map_map]
      exact hexact.nodup connection hconnection

theorem asked_succ (hexact : σ.Exact) (hconnection : σ.connection.isSome)
    (hrequest : σ.socketClient.requests[k.taken]? = some request)
    (hcheck : isCheckRequest request) (htaken : k'.taken = k.taken + 1) :
  k'.asked σ = k.asked σ ++ [(request.sequenceNumber, k.asker σ)]
  := by
  rw [asked, count_succ hrequest htaken, if_pos hcheck, List.take_add_one,
    getElem?_asking hexact hconnection hrequest hcheck]
  rfl

/-- The check whose request is taken has got no response yet. -/
theorem Orderly.asker_notMem (h : Orderly σ service k) (hexact : σ.Exact)
    (hlink : k.link = some link) (hrequest : σ.socketClient.requests[k.taken]? = some request)
    (hcheck : isCheckRequest request) :
  k.asker σ ∉ k.answered
  := by
  have hsome : k.link.isSome := by rw [hlink]; rfl
  have hconnection : σ.connection.isSome := h.linked.trans hsome
  have hasked : asked σ { k with taken := k.taken + 1 } = _ :=
    asked_succ hexact hconnection hrequest hcheck rfl
  have hnodup : ((asked σ { k with taken := k.taken + 1 }).map Prod.snd).Nodup :=
    (nodup_asking hexact).sublist ((List.take_sublist _ _).map _)
  rw [hasked, List.map_append, List.nodup_append] at hnodup
  intro hmem
  exact hnodup.2.2 _ (h.answered hsome _ hmem) _ (List.mem_singleton_self _) rfl

/-- A request is taken.  If a check gets a response, it is the one that is asked for, or one that
waits under the same id. -/
theorem Orderly.serve (h : Orderly σ service k) (hexact : σ.Exact) (hlink : k.link = some link)
    (hrequest : σ.socketClient.requests[k.taken]? = some request)
    (hlink' : k'.link = some link) (htaken : k'.taken = k.taken + 1)
    (hanswered : k'.answered = k.answered ∨ ∃ n, k'.answered = k.answered ++ [n] ∧
      (isCheckRequest request ∧ n = k.asker σ ∨
        (request.sequenceNumber, n) ∈ k.asked σ ∧ n ∉ k.answered))
    (hholders : ∀ id' ≠ request.sequenceNumber, k'.holders id' = k.holders id')
    (hwaiting : ∀ context, service'.getContext link request.sequenceNumber = some context →
      context.cancelled = false → k'.answered = k.answered ∧
        (isCheckRequest request ∧ k'.holders request.sequenceNumber = k.asker σ ∨
          service.getContext link request.sequenceNumber = some context ∧
            k'.holders request.sequenceNumber = k.holders request.sequenceNumber))
    (hcontexts : ∀ id' ≠ request.sequenceNumber,
      service'.getContext link id' = service.getContext link id')
    (hinbox : ∃ rs, k'.inbox = k.inbox ++ rs ∧ ∀ r ∈ rs, r.sequenceNumber = request.sequenceNumber)
    (hsteps : Exchange.Steps (k.view σ service request.sequenceNumber)
      (k'.view σ service' request.sequenceNumber)) :
  Orderly σ service' k'
  := by
  have hsome : k.link.isSome := by rw [hlink]; rfl
  have hconnection : σ.connection.isSome := h.linked.trans hsome
  have hcount := count_succ (σ := σ) hrequest htaken
  have hasked : ∀ check ∈ k.asked σ, check ∈ k'.asked σ := by
    intro check hmem
    rw [asked, hcount]
    exact List.take_subset_take_left _ (Nat.le_add_right _ _) hmem
  have hnew : isCheckRequest request → (request.sequenceNumber, k.asker σ) ∈ k'.asked σ := by
    intro hcheck
    rw [asked_succ hexact hconnection hrequest hcheck htaken]
    exact List.mem_append_right _ (List.mem_singleton_self _)
  have hfresh : isCheckRequest request → k.asker σ ∉ k.answered :=
    fun hcheck => h.asker_notMem hexact hlink hrequest hcheck
  refine h.change (nodup_asking hexact) request.sequenceNumber
    { linked := ⟨hlink, hlink'⟩
      taken_le := ?_
      asked_le := ?_
      asked := hasked
      answered := ?_
      holders := hholders
      waiting := ?_
      forward := ?_
      contexts := hcontexts
      inbox := hinbox
      steps := hsteps }
  · obtain ⟨hlt, -⟩ := List.getElem?_eq_some_iff.mp hrequest
    rw [htaken]
    exact hlt
  · rw [hcount]
    split
    · rename_i hcheck
      obtain ⟨hlt, -⟩ := List.getElem?_eq_some_iff.mp
        (getElem?_asking hexact hconnection hrequest hcheck)
      exact hlt
    · exact h.asked_le hsome
  · rcases hanswered with hsame | ⟨n, heq, ⟨hcheck, rfl⟩ | ⟨hmem, hnot⟩⟩
    · exact Or.inl hsame
    · exact Or.inr ⟨_, heq, hnew hcheck, hfresh hcheck⟩
    · exact Or.inr ⟨n, heq, hasked _ hmem, hnot⟩
  · intro context hcontext hactive
    obtain ⟨hsame, ⟨hcheck, heq⟩ | ⟨hkept, heq⟩⟩ := hwaiting context hcontext hactive
    · rw [hsame, heq]
      exact ⟨hfresh hcheck, hnew hcheck⟩
    · rw [hsame, heq]
      obtain ⟨hnot, hmem⟩ := h.waiting link hlink _ context hkept hactive
      exact ⟨hnot, hasked _ hmem⟩
  · intro id' hid
    rw [htaken, drop_taken hrequest, List.filterMap_cons, ask_of_ne (Ne.symm hid)]

theorem forward_cons {x : Exchange.Ask} (service : CheckLogic) (hlink : k.link = some link)
    (hrequest : σ.socketClient.requests[k.taken]? = some request) (hask : ask id request = some x) :
  (k.view σ service id).forward =
    x :: (σ.socketClient.requests.drop (k.taken + 1)).filterMap (ask id)
  := by
  simp only [view, hlink, Option.isSome_some, if_true, drop_taken hrequest, List.filterMap_cons,
    hask]

theorem ask_of_isCheckRequest (h : isCheckRequest request) :
  ask request.sequenceNumber request = some .request
  := by
  cases request with
  | monitorEntriesPut entries n => cases h
  | monitorEntryPut entry n => cases h
  | cancel n => cases h
  | check key n => exact if_pos rfl
  | simpleCheck key n => exact if_pos rfl

theorem ask_cancel (id : UInt16) :
  ask id (.cancel id) = some .cancel
  := if_pos rfl

/-- A context that is kept for a check whose request has not been taken has been cancelled. -/
theorem Orderly.cancelled_of_request (h : Orderly σ service k) (hlink : k.link = some link)
    (hrequest : σ.socketClient.requests[k.taken]? = some request)
    (hcheck : isCheckRequest request) {context : CheckContext}
    (hcontext : service.getContext link request.sequenceNumber = some context) :
  context.cancelled = true
  := by
  have hvalid := h.valid request.sequenceNumber
  have hforward := forward_cons service hlink hrequest (ask_of_isCheckRequest hcheck)
  generalize hview : k.view σ service request.sequenceNumber = s at hvalid hforward
  obtain ⟨asked, forward, held, back⟩ := s
  cases hforward
  obtain ⟨-, -, -, hheld, -⟩ := hvalid.of_request
  have hkept : held = some context.cancelled := by
    have := congrArg Exchange.State.held hview
    simpa [view, hlink, hcontext] using this.symm
  rw [hkept] at hheld
  simpa using hheld

theorem take_eq (hlink : k.link = some link) {n : ℕ} (rs : List (LinkId × Response))
    (hrs : service'.sent = service.sent ++ rs) :
  k.take n request link service service' =
    { link := some link
      taken := k.taken + 1
      inbox := k.inbox ++ responsesTo link rs
      holders := k.hold n request link service
      answered := k.answered ++ (responsesTo link rs).map fun response =>
        if isCheckRequest request then n else k.holders response.sequenceNumber }
  := by
  simp only [take, deliver, hlink, hrs, List.drop_left]

theorem responsesTo_singleton (response : Response) :
  responsesTo link [(link, response)] = [response]
  := by
  simp [responsesTo]

theorem hold_of_ne {n : ℕ} (h : id ≠ request.sequenceNumber) :
  k.hold n request link service id = k.holders id
  := by
  cases request with
  | check key id' =>
      simp only [hold]
      split
      · exact Function.update_of_ne h _ _
      · rfl
  | _ => rfl

/-- A request for a check is answered at once. -/
theorem Orderly.answer {response : Response} (h : Orderly σ service k) (hexact : σ.Exact)
    (hlink : k.link = some link) (hrequest : σ.socketClient.requests[k.taken]? = some request)
    (hcheck : isCheckRequest request)
    (hquiet : CheckLogic.Quiet (service.send link response) service')
    (hreply : reply request.sequenceNumber response = some .answer) :
  Orderly σ service' (k.take (k.asker σ) request link service service')
  := by
  have hcontexts : ∀ id, service'.getContext link id = service.getContext link id :=
    fun id => hquiet.getContext_eq link id
  have hid : response.sequenceNumber = request.sequenceNumber := by
    by_contra hne
    rw [reply_of_ne hne] at hreply
    cases hreply
  rw [take_eq hlink [(link, response)] hquiet.sent, responsesTo_singleton]
  apply h.serve hexact hlink hrequest rfl rfl
  · exact Or.inr ⟨_, rfl, Or.inl ⟨hcheck, if_pos hcheck⟩⟩
  · exact fun id' hid' => hold_of_ne hid'
  · intro context hcontext hactive
    rw [hcontexts] at hcontext
    rw [h.cancelled_of_request hlink hrequest hcheck hcontext] at hactive
    cases hactive
  · exact fun id' _ => hcontexts id'
  · exact ⟨_, rfl, by simp [hid]⟩
  · apply Relation.ReflTransGen.single
    have hanswer := Exchange.Step.answer
      (forward_cons service hlink hrequest (ask_of_isCheckRequest hcheck))
    simpa [view, hlink, hcontexts, hreply] using hanswer

/-- A request for a check is discarded, or an exception is thrown. -/
theorem Orderly.discard (h : Orderly σ service k) (hexact : σ.Exact)
    (hlink : k.link = some link) (hrequest : σ.socketClient.requests[k.taken]? = some request)
    (hcheck : isCheckRequest request) (hquiet : CheckLogic.Quiet service service') :
  Orderly σ service' (k.take (k.asker σ) request link service service')
  := by
  have hcontexts : ∀ id, service'.getContext link id = service.getContext link id :=
    fun id => hquiet.getContext_eq link id
  rw [take_eq hlink [] (by rw [hquiet.sent, List.append_nil])]
  apply h.serve hexact hlink hrequest rfl rfl
  · exact Or.inl (List.append_nil _)
  · exact fun id' hid' => hold_of_ne hid'
  · intro context hcontext hactive
    rw [hcontexts] at hcontext
    rw [h.cancelled_of_request hlink hrequest hcheck hcontext] at hactive
    cases hactive
  · exact fun id' _ => hcontexts id'
  · exact ⟨_, rfl, by simp [responsesTo]⟩
  · apply Relation.ReflTransGen.single
    have hdiscard := Exchange.Step.discard
      (forward_cons service hlink hrequest (ask_of_isCheckRequest hcheck))
    simpa [view, hlink, hcontexts, responsesTo] using hdiscard

/-- A context is made for a request. -/
theorem Orderly.hold {key : PolicyKey} {context : CheckContext} (h : Orderly σ service k)
    (hexact : σ.Exact) (hlink : k.link = some link)
    (hrequest : σ.socketClient.requests[k.taken]? = some (.check key id))
    (hfree : service.getContext link id = none)
    (hplace : context.link = link ∧ context.checkId = id) (hactive : context.cancelled = false)
    (hquiet : CheckLogic.Quiet (service.put context) service') :
  Orderly σ service' (k.take (k.asker σ) (.check key id) link service service')
  := by
  have hcontexts : Replaces context (some context) service service' := by
    intro link id
    rw [hquiet.getContext_eq]
    exact replaces_put service context link id
  have hhere : service'.getContext link id = some context := by
    rw [← hplace.1, ← hplace.2]
    exact hcontexts.here
  rw [take_eq hlink [] (by rw [hquiet.sent]; exact (List.append_nil _).symm)]
  apply h.serve hexact hlink hrequest rfl rfl
  · exact Or.inl (List.append_nil _)
  · exact fun id' hid' => hold_of_ne hid'
  · intro _ _ _
    refine ⟨List.append_nil _, Or.inl ⟨rfl, ?_⟩⟩
    simp [Channel.hold, hfree, Request.sequenceNumber]
  · intro id' hid'
    apply hcontexts.other
    rw [hplace.2]
    exact Or.inr (Ne.symm hid')
  · exact ⟨_, rfl, by simp [responsesTo]⟩
  · apply Relation.ReflTransGen.single
    have hhold := Exchange.Step.hold (forward_cons service hlink hrequest (if_pos rfl))
      (by simp [view, hlink, hfree])
    simpa [view, hlink, hhere, hactive, responsesTo, Request.sequenceNumber] using hhold

/-- A check that waits is cancelled. -/
theorem Orderly.acknowledge {context : CheckContext} (h : Orderly σ service k)
    (hexact : σ.Exact) (hlink : k.link = some link)
    (hrequest : σ.socketClient.requests[k.taken]? = some (.cancel id))
    (hcontext : service.getContext link id = some context) (hactive : context.cancelled = false)
    (hquiet : CheckLogic.Quiet ((service.put context.cancel).send link (.cancel id)) service') :
  Orderly σ service' (k.take (k.asker σ) (.cancel id) link service service')
  := by
  obtain ⟨hplace, hid⟩ := CheckRequestManager.placed_getContext hcontext
  have hcontexts : Replaces context.cancel (some context.cancel) service service' := by
    intro link id
    rw [hquiet.getContext_eq]
    exact replaces_put service context.cancel link id
  have hhere : service'.getContext link id = some context.cancel := by
    rw [← hplace, ← hid]
    exact hcontexts.here
  obtain ⟨hnot, hasked⟩ := h.waiting link hlink id context hcontext hactive
  have hsent : service'.sent = service.sent ++ [(link, .cancel id)] := hquiet.sent
  rw [take_eq hlink [(link, .cancel id)] hsent, responsesTo_singleton]
  apply h.serve hexact hlink hrequest rfl rfl
  · exact Or.inr ⟨k.holders id, rfl, Or.inr ⟨hasked, hnot⟩⟩
  · exact fun _ _ => rfl
  · intro context' hcontext' hactive'
    obtain rfl := Option.some.inj (hhere.symm.trans hcontext')
    cases hactive'
  · intro id' hid'
    apply hcontexts.other
    right
    rintro rfl
    exact hid' hid
  · exact ⟨_, rfl, by simp [Response.sequenceNumber, Request.sequenceNumber]⟩
  · apply Relation.ReflTransGen.single
    have hacknowledge := Exchange.Step.acknowledge
      (forward_cons service hlink hrequest (if_pos rfl))
      (by simp [view, hlink, hcontext, hactive])
    simpa [view, hlink, hhere, CheckContext.cancel, reply, Request.sequenceNumber]
      using hacknowledge

/-- Nothing is done for a request that asks for no check. -/
theorem Orderly.ignore (h : Orderly σ service k) (hexact : σ.Exact) (hlink : k.link = some link)
    (hrequest : σ.socketClient.requests[k.taken]? = some request)
    (hcheck : isCheckRequest request = false)
    (hsteps : ∀ k' : Channel, k'.link = some link → k'.taken = k.taken + 1 →
      k'.inbox = k.inbox → Exchange.Steps (k.view σ service request.sequenceNumber)
        (k'.view σ service request.sequenceNumber)) :
  Orderly σ service (k.take (k.asker σ) request link service service)
  := by
  rw [take_eq hlink [] (List.append_nil _).symm]
  have hhold : k.hold (k.asker σ) request link service = k.holders := by
    cases request with
    | check key id' => cases hcheck
    | _ => rfl
  apply h.serve hexact hlink hrequest rfl rfl
  · exact Or.inl (List.append_nil _)
  · exact fun id' hid' => hold_of_ne hid'
  · intro context hcontext _
    exact ⟨List.append_nil _, Or.inr ⟨hcontext, congrFun hhold _⟩⟩
  · exact fun _ _ => rfl
  · exact ⟨_, rfl, by simp [responsesTo]⟩
  · exact hsteps _ rfl rfl (List.append_nil _)

/-- The service executes a request and keeps the exchanges in order. -/
theorem Orderly.serves (h : Orderly σ service k) (hexact : σ.Exact) (hlink : k.link = some link)
    (hrequest : σ.socketClient.requests[k.taken]? = some request)
    (hserves : CheckLogic.Serves link request service service') :
  Orderly σ service' (k.take (k.asker σ) request link service service')
  := by
  -- requests of the monitor are in no exchange
  have hmonitor : isMonitorRequest request = true → ∀ k' : Channel, k'.link = some link →
      k'.taken = k.taken + 1 → k'.inbox = k.inbox →
        Exchange.Steps (k.view σ service request.sequenceNumber)
          (k'.view σ service request.sequenceNumber) := by
    intro hmonitor k' hlink' htaken hinbox
    have hview : k'.view σ service request.sequenceNumber =
        k.view σ service request.sequenceNumber := by
      apply view_eq (hlink'.trans hlink.symm) _ (fun _ _ => rfl) (by rw [hinbox])
      rw [htaken, drop_taken hrequest, List.filterMap_cons, ask_of_isMonitorRequest hmonitor]
    rw [hview]
  cases hserves with
  | answer key result hfree hquiet =>
      exact h.answer hexact hlink hrequest rfl hquiet (if_pos rfl)
  | discard key hcontext => exact h.discard hexact hlink hrequest rfl ⟨rfl, rfl, rfl⟩
  | hold key talker hfree hquiet =>
      exact h.hold hexact hlink hrequest hfree ⟨rfl, rfl⟩ rfl hquiet
  | simple key retValue result checkId hquiet =>
      exact h.answer hexact hlink hrequest rfl hquiet (if_pos rfl)
  | acknowledge hcontext hactive hquiet =>
      exact h.acknowledge hexact hlink hrequest hcontext hactive hquiet
  | @ignore _ checkId hcancelled =>
      apply h.ignore hexact hlink hrequest rfl
      intro k' hlink' htaken hinbox
      apply Relation.ReflTransGen.single
      have hignore := Exchange.Step.ignore
        (forward_cons service hlink hrequest (ask_cancel checkId)) (by
          simp only [view, hlink, Option.bind_some, ne_eq, Option.map_eq_some_iff, not_exists,
            not_and]
          intro context hcontext
          simp [hcancelled context hcontext])
      simpa [view, hlink, hlink', htaken, hinbox, Request.sequenceNumber] using hignore
  | monitorEntries entries sequenceNumber =>
      exact h.ignore hexact hlink hrequest rfl (hmonitor rfl)
  | monitorEntry entry sequenceNumber => exact h.ignore hexact hlink hrequest rfl (hmonitor rfl)

end Requests

end Channel

end Cynara
