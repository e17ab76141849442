import Cynara.Dialogue.Serving

/-!
# Every response is expected

In every run of a dialogue the exchanges are valid.  A response that has been sent is for a check
that the client still has, and it acknowledges a cancellation only if the client has cancelled the
check.  No check gets two responses over one connection.
-/

namespace Cynara

open Std ProtocolClient ClientAsync

namespace CheckLogic

variable {service service' : CheckLogic} {link : LinkId} {request : Request}

/-- What a request over one link does to the others: nothing. -/
theorem Serves.elsewhere (h : Serves link request service service') :
  (∀ link' ≠ link, ∀ id, service'.getContext link' id = service.getContext link' id) ∧
    ∃ rs, service'.sent = service.sent ++ rs ∧ ∀ r ∈ rs, r.1 = link
  := by
  have hput : ∀ (context : CheckContext) (link' : LinkId), context.link = link → link' ≠ link →
      ∀ id, (service.put context).getContext link' id = service.getContext link' id := by
    intro context link' hlink hne id
    apply (Channel.replaces_put service context).other
    exact Or.inl fun heq => hne (heq.symm.trans hlink)
  cases h with
  | answer key result hfree hquiet =>
      exact ⟨fun link' _ id => hquiet.getContext_eq link' id, _, hquiet.sent, by simp⟩
  | discard key hcontext => exact ⟨fun _ _ _ => rfl, [], by simp⟩
  | hold key talker hfree hquiet =>
      refine ⟨fun link' hne id => ?_, [], hquiet.sent.trans (List.append_nil _).symm, nofun⟩
      rw [hquiet.getContext_eq]
      exact hput _ link' rfl hne id
  | simple key retValue result checkId hquiet =>
      exact ⟨fun link' _ id => hquiet.getContext_eq link' id, _, hquiet.sent, by simp⟩
  | @acknowledge _ _ _ context hcontext hactive hquiet =>
      obtain ⟨hplace, -⟩ := CheckRequestManager.placed_getContext hcontext
      refine ⟨fun link' hne id => ?_, _, hquiet.sent, by simp⟩
      rw [hquiet.getContext_eq]
      exact hput context.cancel link' hplace hne id
  | ignore _ => exact ⟨fun _ _ _ => rfl, [], by simp⟩
  | monitorEntries _ _ => exact ⟨fun _ _ _ => rfl, [], by simp⟩
  | monitorEntry _ _ => exact ⟨fun _ _ _ => rfl, [], by simp⟩

/-- A request is served, or one for a check throws an exception; then the connection is closed. -/
theorem step_request {verdict : Verdict}
    (h : service.step (.request link request verdict) = some service') :
  ∃ service₁, (Serves link request service service₁
      ∨ isCheckRequest request ∧ Quiet service service₁) ∧
    (service' = service₁ ∨ service' = service₁.closeSocket link)
  := by
  unfold step at h
  split at h
  · cases h
  · rename_i hopen
    obtain rfl := Option.some.inj h
    refine ⟨(service.executeRequest link verdict request).state, ?_, ?_⟩
    · cases request with
      | cancel checkId => exact Or.inl (serves_executeCancel hopen checkId)
      | check key checkId =>
          exact (executes_executeCheck hopen key checkId verdict).imp_right
            fun hthrown => ⟨rfl, hthrown.2⟩
      | simpleCheck key checkId =>
          exact (executes_executeSimpleCheck hopen key checkId verdict).imp_right
            fun hthrown => ⟨rfl, hthrown.2⟩
      | monitorEntriesPut entries sequenceNumber =>
          exact Or.inl (.monitorEntries entries sequenceNumber)
      | monitorEntryPut entry sequenceNumber =>
          exact Or.inl (.monitorEntry entry sequenceNumber)
    · unfold handle
      split
      · exact Or.inl rfl
      · exact Or.inr rfl

end CheckLogic

namespace Channel

variable {σ : Logic} {service service' : CheckLogic} {k : Channel} {link : LinkId}
  {request : Request}

/-- The service takes the next request. -/
theorem Orderly.serveRequest {verdict : Verdict} (h : Orderly σ service k) (hexact : σ.Exact)
    (hlink : k.link = some link) (hrequest : σ.socketClient.requests[k.taken]? = some request)
    (hstep : service.step (.request link request verdict) = some service') :
  Orderly σ service' (k.take (k.asker σ) request link service service')
  := by
  obtain ⟨service₁, hserved, hclosed⟩ := CheckLogic.step_request hstep
  have horderly : Orderly σ service₁ (k.take (k.asker σ) request link service service₁) := by
    rcases hserved with hserves | ⟨hcheck, hquiet⟩
    · exact h.serves hexact hlink hrequest hserves
    · exact h.discard hexact hlink hrequest hcheck hquiet
  have hsent : ∃ rs, service₁.sent = service.sent ++ rs := by
    rcases hserved with hserves | ⟨-, hquiet⟩
    · obtain ⟨-, rs, hrs, -⟩ := hserves.elsewhere
      exact ⟨rs, hrs⟩
    · exact ⟨[], hquiet.sent.trans (List.append_nil _).symm⟩
  rcases hclosed with rfl | rfl
  · exact horderly
  · -- nothing is written to the link any more
    have hclose : Orderly σ (service₁.close link)
        (k.take (k.asker σ) request link service service₁) := horderly.congr fun _ _ _ => rfl
    have heffects : CheckLogic.Effects False (service₁.close link) (service₁.closeSocket link) :=
      CheckLogic.effects_contextClosed List.mem_cons_self
    obtain ⟨rs, hrs⟩ := hsent
    obtain ⟨rs', hrs'⟩ := sent_of_effects heffects
    unfold take
    simp only
    rw [← deliver_trans hrs hrs']
    refine hclose.effects (nodup_asking hexact) ?_ heffects
    intro link' hlink'
    rw [take, link_deliver] at hlink'
    obtain rfl : link = link' := Option.some.inj (hlink.symm.trans hlink')
    exact Or.inl List.mem_cons_self

theorem Orderly.elsewhere (h : Orderly σ service k) (hlink : k.link ≠ some link)
    (hserves : CheckLogic.Serves link request service service') (number : Response → ℕ) :
  Orderly σ service' (k.deliver number service service')
  := by
  obtain ⟨hcontexts, rs, hrs, hother⟩ := hserves.elsewhere
  have hsame : k.deliver number service service' = k := by
    cases hk : k.link with
    | none => simp only [deliver, hk]
    | some link' =>
        have hnone : responsesTo link' rs = [] := by
          rw [responsesTo, List.map_eq_nil_iff, List.filter_eq_nil_iff]
          intro r hr
          rw [hother r hr]
          rintro heq
          exact hlink (hk.trans (congrArg some (of_decide_eq_true heq).symm))
        rw [deliver_eq hk rs hrs, hnone]
        simp
  rw [hsame]
  apply h.congr
  intro link' hlink' id
  apply hcontexts
  rintro rfl
  exact hlink hlink'

/-- The service does something else. -/
theorem Orderly.event {event : CheckLogic.Event} (h : Orderly σ service k) (hexact : σ.Exact)
    (hconcerns : k.concerns event = false) (hstep : service.step event = some service') :
  Orderly σ service'
    (k.deliver (fun response => k.holders response.sequenceNumber) service service')
  := by
  have hnumbers := nodup_asking hexact
  obtain ⟨-, ⟨link, request, verdict, rfl, service₁, hserves, hclose⟩ | heffects⟩ :=
    CheckLogic.step_cases hstep
  · have hlink : k.link ≠ some link := of_decide_eq_false hconcerns
    have hserved := h.elsewhere hlink hserves fun response => k.holders response.sequenceNumber
    rcases hclose with rfl | ⟨heffects, -⟩
    · exact hserved
    · obtain ⟨-, rs, hrs, -⟩ := hserves.elsewhere
      obtain ⟨rs', hrs'⟩ := sent_of_effects heffects
      rw [← deliver_trans hrs hrs']
      refine hserved.effects hnumbers (fun _ _ => Or.inr ?_) heffects
      rw [holders_deliver]
      exact fun _ => rfl
  · exact h.effects hnumbers (fun _ _ => Or.inr fun _ => rfl) heffects

end Channel

namespace Dialogue

/-! ### Runs -/

/-- What holds in every state. -/
structure Inv (d : Dialogue) : Prop where
  client : ∃ held, Client.Inv held d.client
  orderly : d.channel.Orderly d.client.logic d.service

variable {d d' : Dialogue}

theorem getContext_of_isFresh {service : CheckLogic} {link : LinkId} (h : service.isFresh link)
    (id : UInt16) :
  service.getContext link id = none
  := by
  simp only [CheckLogic.isFresh, decide_eq_true_eq, List.isEmpty_iff] at h
  by_contra hsome
  obtain ⟨context, hcontext⟩ := Option.ne_none_iff_exists'.mp hsome
  have hmem : context ∈ service.checkRequestManager.contextsOf link :=
    Nested.mem_values.mpr ⟨id, hcontext⟩
  rw [h.2] at hmem
  cases hmem

/-- The client reads a response only if it expects it. -/
theorem Inv.read {event : ClientAsync.Event} {k : Channel} (h : d.Inv)
    (hread : d.channel.read event = some k) :
  k.Orderly (d.client.released event) d.service
  := by
  cases event with
  | getResponse response cached clock net =>
      simp only [Channel.read] at hread
      split at hread
      · cases hread
      · rename_i head inbox hinbox
        split at hread
        · rename_i hhead
          subst hhead
          obtain rfl := Option.some.inj hread
          rw [Client.released, if_pos (h.orderly.expects hinbox)]
          exact h.orderly.receive hinbox
        · cases hread
  | _ =>
      obtain rfl := Option.some.inj hread
      exact h.orderly

/-- A step of the client keeps the invariant. -/
theorem Inv.stepClient {event : ClientAsync.Event} {fresh : LinkId} (h : d.Inv)
    (hstep : d.stepClient event fresh = some d') :
  d'.Inv
  := by
  obtain ⟨held, hinv⟩ := h.client
  unfold Dialogue.stepClient at hstep
  split at hstep
  · rename_i hfresh
    split at hstep
    · rename_i k client hread hclient
      obtain rfl := Option.some.inj hstep
      obtain ⟨held', hinv', -⟩ := hinv.step hclient
      exact ⟨⟨held', hinv'⟩, (h.read hread).does (getContext_of_isFresh hfresh)
        (Client.does_step hinv hclient)⟩
    · cases hstep
  · cases hstep

theorem requests_of_wire {s : SocketClient} {n : ℕ} {request : Request}
    (h : s.wire[n]? = some request) :
  s.requests[n]? = some request
  := by
  obtain ⟨hlt, -⟩ := List.getElem?_eq_some_iff.mp h
  rw [SocketClient.requests, List.append_assoc, List.getElem?_append_left hlt]
  exact h

theorem Inv.stepRequest {verdict : Verdict} (h : d.Inv)
    (hstep : d.stepRequest verdict = some d') :
  d'.Inv
  := by
  obtain ⟨held, hinv⟩ := h.client
  unfold Dialogue.stepRequest at hstep
  split at hstep
  · rename_i link request hlink hwire
    obtain ⟨service, hservice, rfl⟩ := Option.map_eq_some_iff.mp hstep
    exact ⟨h.client, h.orderly.serveRequest hinv.exact hlink (requests_of_wire hwire) hservice⟩
  · cases hstep

/-- A step of the service that is not about the client keeps the invariant. -/
theorem Inv.stepService {event : CheckLogic.Event} (h : d.Inv)
    (hstep : d.stepService event = some d') :
  d'.Inv
  := by
  obtain ⟨held, hinv⟩ := h.client
  unfold Dialogue.stepService at hstep
  split at hstep
  · cases hstep
  · rename_i hconcerns
    obtain ⟨service, hservice, rfl⟩ := Option.map_eq_some_iff.mp hstep
    exact ⟨h.client, h.orderly.event hinv.exact (by simpa using hconcerns) hservice⟩

theorem inv_start (monitoringEnabled : Bool) :
  (start monitoringEnabled).Inv
  := by
  refine ⟨⟨[], Client.inv_start monitoringEnabled⟩, ?_, rfl, List.nodup_nil, nofun, nofun, nofun,
    nofun, fun _ => ?_⟩
  · exact fun _ hid => absurd hid ExtTreeMap.not_mem_empty
  · exact Exchange.Valid.free false nofun

/-- The invariant holds in every run. -/
theorem inv_of_reaches {monitoringEnabled : Bool}
    (h : Runs.Reaches step (fun _ _ => True) (start monitoringEnabled) d) :
  d.Inv
  := by
  apply h.invariant (inv_start monitoringEnabled)
  intro d input d' hinv _ hstep
  cases input with
  | client event fresh => exact hinv.stepClient hstep
  | request verdict => exact hinv.stepRequest hstep
  | service event => exact hinv.stepService hstep

/-- The exceptions of `checkResponseValid` and `processCancelResponse` are not thrown for a response
that is expected. -/
theorem attempt_of_threw {σ : Logic} {response : Response} {cached : Int32} {clock : Clock}
    {net : Net} (hexpects : σ.expects response)
    (h : (σ.processResponse response cached clock net).1 = .threw) :
  net.attempt = .thrown
  := by
  have hanswer : ∀ (σ : Logic) id check result, (σ.answerCheck id check result).1 ≠ .threw := by
    intro σ id check result
    unfold Logic.answerCheck
    split
    · exact nofun
    · exact nofun
  cases response with
  | check result id =>
      cases hcheck : σ.checks[id]? with
      | none => simp [Logic.expects, Response.sequenceNumber, hcheck] at hexpects
      | some check =>
          simp only [Logic.processResponse, Logic.processCheckResponse, hcheck] at h
          split at h
          · rename_i e hthrown
            exact (Logic.thrown_updateMonitor (by rw [hthrown]; rfl)).2.2.2
          · exact absurd h (hanswer _ _ _ _)
  | cancel id =>
      cases hcheck : σ.checks[id]? with
      | none => simp [Logic.expects, Response.sequenceNumber, hcheck] at hexpects
      | some check =>
          simp only [Logic.expects, Response.sequenceNumber, hcheck] at hexpects
          simp [Logic.processResponse, Logic.processCancelResponse, hcheck, hexpects] at h
  | simpleCheck retValue result id =>
      cases hcheck : σ.checks[id]? with
      | none => simp [Logic.expects, Response.sequenceNumber, hcheck] at hexpects
      | some check =>
          simp only [Logic.processResponse, Logic.processSimpleCheckResponse, hcheck] at h
          exact absurd h (hanswer _ _ _ _)

theorem exists_check_of_expects {σ : Logic} {response : Response} (h : σ.expects response) :
  ∃ check, σ.checks[response.sequenceNumber]? = some check ∧
    ∀ id, response = .cancel id → check.cancelled = true
  := by
  unfold Logic.expects at h
  split at h
  · cases h
  · rename_i check id hcheck
    exact ⟨check, hcheck, fun _ _ => h⟩
  · rename_i check hnot hcheck
    exact ⟨check, hcheck, fun id heq => absurd heq (hnot id)⟩

/-- In every run of a dialogue, there is a check for the response that the client reads next, and
if the response acknowledges a cancellation, the client has cancelled the check.  So the response
is processed, and an exception is thrown only if the client has to connect again for the monitor.
No check has got two responses over the connection. -/
theorem expects_of_reaches (monitoringEnabled : Bool) (d : Dialogue)
    (h : Runs.Reaches step (fun _ _ => True) (start monitoringEnabled) d) :
  (∀ response inbox, d.channel.inbox = response :: inbox →
      (∃ check, d.client.logic.checks[response.sequenceNumber]? = some check ∧
          ∀ id, response = .cancel id → check.cancelled = true) ∧
        ∀ cached clock net,
          (d.client.logic.processResponse response cached clock net).1 = .threw →
            net.attempt = .thrown) ∧
    d.channel.answered.Nodup
  := by
  have hinv := inv_of_reaches h
  refine ⟨?_, hinv.orderly.nodup⟩
  intro response inbox hinbox
  have hexpects := hinv.orderly.expects hinbox
  exact ⟨exists_check_of_expects hexpects, fun _ _ _ hthrew => attempt_of_threw hexpects hthrew⟩

/-- A plugin that needs an agent. -/
def needsAgent : Verdict where
  dbCorrupted := false
  stored := some { policyType := 7 }
  plugin := some ⟨.ANSWER_NOTREADY, {}, Str.ofString "agent", []⟩

/-- The client sends its requests, after it has connected. -/
def sending : List Input :=
  [.client .process 6, .client (.completeConnection true true) 6,
    .client (.processOut (some .ALL_DATA_SENT) 0 .succeeded) 6]

/-- An agent registers, and the client asks for a check. -/
def askFirst : List Input :=
  [.service (.agentRegister 9 (Str.ofString "agent") 0),
    .client (.createRequest false ⟨[97], [], []⟩ [] ⟨true, .succeeded⟩) 5] ++ sending

/-- The check waits for the agent, and the client cancels it. -/
def cancelFirst : List Input :=
  [.client (.receiveFromCynara (some true) .succeeded) 6, .client .noResponse 6,
    .request needsAgent, .client (.cancelRequest 0 ⟨true, .succeeded⟩) 6,
    .client .callbackReturns 6] ++ sending

/-- A cancellation is acknowledged, and the client has cancelled the check. -/
theorem expects_cancelFirst :
  ∃ d, Runs.Reaches step (fun _ _ => True) (start false) d ∧ d.channel.inbox = [.cancel 0] ∧
    (∃ check, d.client.logic.checks[(0 : UInt16)]? = some check ∧ check.cancelled = true) ∧
    d.channel.answered.Nodup
  := by
  have hrun : (Runs.run step (fun _ _ => true) (askFirst ++ cancelFirst ++ [.request needsAgent])
      (start false)).any (fun d => d.channel.inbox == [.cancel 0]) = true := by
    decide +kernel
  obtain ⟨d, hd, hfinal⟩ := (Option.any_eq_true _ _).mp hrun
  have hinbox := eq_of_beq hfinal
  have hreach := Runs.Reaches.run (fun _ _ _ => trivial) .start hd
  obtain ⟨hexpects, hnodup⟩ := expects_of_reaches false d hreach
  obtain ⟨⟨check, hcheck, hcancelled⟩, -⟩ := hexpects _ _ hinbox
  exact ⟨d, hreach, hinbox, ⟨check, hcheck, hcancelled 0 rfl⟩, hnodup⟩

end Dialogue

end Cynara
