import Cynara.Library.Runs
import Cynara.Service.CheckEffects

/-!
# Checks that wait for agents

A context should not be removed while its connection is open unless the client has got a
response: the answer to its check, or the acknowledgement that it has been cancelled.  This is so
in every step of every run except when an agent replies to a check that has not been cancelled
with another type than `CYNARA_MSG_TYPE_ACTION`.
-/

namespace Cynara

open Std PredefinedPolicyType ProtocolClient

namespace CheckLogic

/-! ### Answers -/

/-- The response is an answer to the check of the context, or it acknowledges that the check has
been cancelled. -/
def settles (context : CheckContext) : LinkId × Response → Bool
  | (link, .check _ checkId) => link = context.link ∧ checkId = context.checkId
  | (link, .cancel checkId) => link = context.link ∧ checkId = context.checkId
  | (_, .simpleCheck _ _ _) => false

/-- Such a response has been sent since the context was created. -/
def Answered (σ : CheckLogic) (context : CheckContext) : Prop :=
  ∃ response ∈ σ.sent.drop context.since, settles context response = true

/-- The context is not kept any more, marked or not. -/
def Removed (σ σ' : CheckLogic) (context : CheckContext) : Prop :=
  σ.Keeps context ∧ ∀ context', σ'.Keeps context' → context'.cancel ≠ context.cancel

/-- The check has not got an answer if it waits for one, and if it has been cancelled and its
connection is open, it has got an acknowledgement. -/
structure Told (σ : CheckLogic) (context : CheckContext) : Prop where
  since_le : context.since ≤ σ.sent.length
  waiting : context.cancelled = false → ¬ σ.Answered context
  cancelled : context.cancelled = true → context.link ∈ σ.closed ∨ σ.Answered context

/-- This holds of all contexts. -/
def Sound (σ : CheckLogic) : Prop := ∀ context, σ.Keeps context → σ.Told context

variable {σ σ' : CheckLogic} {forgets : Prop} {context context' : CheckContext} {link : LinkId}
  {response : Response}

theorem keeps_put :
  (σ.put context).Keeps context' ↔
    context' = context ∨
      ¬ (context.link = context'.link ∧ context.checkId = context'.checkId) ∧ σ.Keeps context'
  := by
  unfold Keeps
  rw [show (σ.put context).getContext _ _ = _ from CheckRequestManager.getContext_put]
  split
  · rename_i hplace
    rw [Option.some.injEq, eq_comm]
    simp [hplace]
  · rename_i hplace
    constructor
    · intro hkeeps
      exact Or.inr ⟨hplace, hkeeps⟩
    · rintro (rfl | ⟨-, hkeeps⟩)
      · exact absurd ⟨rfl, rfl⟩ hplace
      · exact hkeeps

theorem keeps_remove :
  (σ.remove context).Keeps context' ↔
    ¬ (context.link = context'.link ∧ context.checkId = context'.checkId) ∧ σ.Keeps context'
  := by
  unfold Keeps
  rw [show (σ.remove context).getContext _ _ = _ from
    CheckRequestManager.getContext_removeRequest]
  split
  · rename_i hplace
    simp [hplace]
  · rename_i hplace
    exact (and_iff_right hplace).symm

/-- A context keeps its place when it is marked. -/
theorem place_of_cancel_eq (h : context'.cancel = context.cancel) :
  context'.link = context.link ∧ context'.checkId = context.checkId
  := by
  have hlink := congrArg CheckContext.link h
  have hid := congrArg CheckContext.checkId h
  exact ⟨hlink, hid⟩

theorem Quiet.keeps_iff (h : Quiet σ σ') :
  σ'.Keeps context ↔ σ.Keeps context
  := by
  rw [Keeps, Keeps, h.getContext_eq]

theorem Quiet.answered_iff (h : Quiet σ σ') :
  σ'.Answered context ↔ σ.Answered context
  := by
  rw [Answered, Answered, h.sent]

/-- The responses to the check of a context settle no other check that is kept. -/
theorem place_of_settles (h : settles context (link, response) = true) :
  link = context.link ∧ response.sequenceNumber = context.checkId
  := by
  cases response with
  | cancel checkId => simpa [settles, Response.sequenceNumber] using h
  | check result checkId => simpa [settles, Response.sequenceNumber] using h
  | simpleCheck retValue result checkId => cases h

theorem answered_send (hsince : context.since ≤ σ.sent.length) :
  (σ.send link response).Answered context ↔
    σ.Answered context ∨ settles context (link, response) = true
  := by
  change (∃ r ∈ (σ.sent ++ [(link, response)]).drop context.since, _) ↔ _
  rw [List.drop_append_of_le_length hsince, Answered]
  simp [or_and_right, exists_or]

/-! ### Effects -/

theorem Told.quiet (h : Told σ context) (hquiet : Quiet σ σ') :
  Told σ' context
  := by
  constructor
  · rw [hquiet.sent]
    exact h.since_le
  · rw [hquiet.answered_iff]
    exact h.waiting
  · rw [hquiet.closed, hquiet.answered_iff]
    exact h.cancelled

/-- Whatever happens to the contexts. -/
theorem Told.congr (h : Told σ context) (hsent : σ'.sent = σ.sent)
    (hclosed : ∀ link ∈ σ.closed, link ∈ σ'.closed) :
  Told σ' context
  := by
  have hanswered : σ'.Answered context ↔ σ.Answered context := by
    rw [Answered, Answered, hsent]
  constructor
  · rw [hsent]
    exact h.since_le
  · rw [hanswered]
    exact h.waiting
  · intro hcancelled
    rw [hanswered]
    apply (h.cancelled hcancelled).imp_left
    apply hclosed

/-- A response is sent that does not settle the check, or the check has been cancelled. -/
theorem Told.send (h : Told σ context)
    (hsettles : context.cancelled = false → settles context (link, response) = false) :
  Told (σ.send link response) context
  := by
  have hle := h.since_le
  constructor
  · simp only [CheckLogic.send, List.length_append]
    omega
  · intro hactive
    rw [answered_send hle]
    simp [h.waiting hactive, hsettles hactive]
  · intro hcancelled
    rw [answered_send hle]
    rcases h.cancelled hcancelled with hclosed | hanswered
    · exact Or.inl hclosed
    · exact Or.inr (Or.inl hanswered)

/-- A response for another check is sent. -/
theorem Told.send_other (h : Told σ context)
    (hplace : ¬ (link = context.link ∧ response.sequenceNumber = context.checkId)) :
  Told (σ.send link response) context
  := by
  apply h.send
  intro _
  by_contra hsettles
  exact hplace (place_of_settles (by simpa using hsettles))

theorem Sound.put (hnew : Told σ context)
    (h : ∀ context', ¬ (context.link = context'.link ∧ context.checkId = context'.checkId) →
      σ.Keeps context' → σ.Told context') :
  Sound (σ.put context)
  := by
  intro context' hkeeps
  rcases keeps_put.mp hkeeps with rfl | ⟨hplace, hkeeps⟩
  · exact hnew.congr rfl fun _ => id
  · exact (h context' hplace hkeeps).congr rfl fun _ => id

theorem Sound.remove
    (h : ∀ context', ¬ (context.link = context'.link ∧ context.checkId = context'.checkId) →
      σ.Keeps context' → σ.Told context') :
  Sound (σ.remove context)
  := by
  intro context' hkeeps
  obtain ⟨hplace, hkeeps⟩ := keeps_remove.mp hkeeps
  exact (h context' hplace hkeeps).congr rfl fun _ => id

theorem Sound.quiet (h : Sound σ) (hquiet : Quiet σ σ') :
  Sound σ'
  := by
  intro context hkeeps
  exact (h context (hquiet.keeps_iff.mp hkeeps)).quiet hquiet

theorem Sound.effect (h : Sound σ) (heffect : Effect forgets σ σ') :
  Sound σ'
  := by
  cases heffect with
  | quiet hquiet => exact h.quiet hquiet
  | close link =>
      intro context hkeeps
      exact (h context hkeeps).congr rfl fun _ => List.mem_cons_of_mem link
  | settle result hkeeps hactive hopen =>
      apply Sound.remove
      intro context' hplace hkeeps'
      exact (h context' hkeeps').send_other hplace
  | drop hkeeps _ => exact Sound.remove fun context' _ => h context'
  | forget _ hkeeps => exact Sound.remove fun context' _ => h context'
  | abandon hkeeps hclosed =>
      apply Sound.put
      · exact ⟨(h _ hkeeps).since_le, nofun, fun _ => Or.inl hclosed⟩
      · exact fun context' _ => h context'

theorem Sound.effects (h : Sound σ) (heffects : Effects forgets σ σ') :
  Sound σ'
  := by
  induction heffects with
  | refl => exact h
  | tail _ heffect ih => exact ih.effect heffect

/-! ### Requests -/

/-- A context that is created has got no response. -/
theorem told_of_new (hsince : context.since = σ.sent.length)
    (hactive : context.cancelled = false) :
  Told σ context
  := by
  refine ⟨hsince.le, ?_, ?_⟩
  · rintro - ⟨response, hmem, -⟩
    rw [hsince, List.drop_length] at hmem
    cases hmem
  · intro hcancelled
    simp [hactive] at hcancelled

/-- A request of a client keeps what has been told. -/
theorem Sound.serves {request : Request} (h : Sound σ) (hserves : Serves link request σ σ') :
  Sound σ'
  := by
  cases hserves with
  | answer key result hfree hquiet =>
      apply Sound.quiet _ hquiet
      intro context hkeeps
      apply (h context hkeeps).send_other
      rintro ⟨hlink, hid⟩
      have hkept : σ.getContext context.link context.checkId = some context := hkeeps
      rw [← hlink, ← hid] at hkept
      exact absurd (hfree.symm.trans hkept) nofun
  | discard key hcontext => exact h
  | hold key talker hfree hquiet =>
      apply Sound.quiet _ hquiet
      apply Sound.put (told_of_new rfl rfl)
      exact fun context' _ => h context'
  | simple key retValue result checkId hquiet =>
      apply Sound.quiet _ hquiet
      intro context hkeeps
      exact (h context hkeeps).send fun _ => rfl
  | @acknowledge _ _ checkId context hcontext hactive hquiet =>
      obtain ⟨hlink, hid⟩ := CheckRequestManager.placed_getContext hcontext
      have htold := h context (keeps_of_getContext hcontext)
      apply Sound.quiet _ hquiet
      apply Sound.put (σ := σ.send link (.cancel checkId))
      · have hsettles : settles context (link, .cancel checkId) = true := by
          simp [settles, hlink, hid]
        have hanswered : (σ.send link (.cancel checkId)).Answered context :=
          (answered_send htold.since_le).mpr (Or.inr hsettles)
        refine ⟨?_, nofun, fun _ => Or.inr hanswered⟩
        exact htold.since_le.trans (by simp [CheckLogic.send])
      · intro context' hplace hkeeps'
        apply (h context' hkeeps').send_other
        rintro ⟨hlink', hid'⟩
        exact hplace ⟨hlink.trans hlink', hid.trans hid'⟩
  | ignore _ => exact h
  | monitorEntries _ _ => exact h
  | monitorEntry _ _ => exact h

/-- Each event keeps what has been told. -/
theorem Sound.step {event : Event} (h : Sound σ) (hstep : σ.step event = some σ') :
  Sound σ'
  := by
  obtain ⟨-, ⟨link, request, verdict, rfl, σ₁, hserves, hclose⟩ | heffects⟩ := step_cases hstep
  · rcases hclose with rfl | ⟨heffects, -⟩
    · exact h.serves hserves
    · exact (h.serves hserves).effects heffects
  · exact h.effects heffects

theorem sound_of_reaches (h : Runs.Reaches step (fun _ _ => True) {} σ) :
  Sound σ
  := by
  apply h.invariant
  · intro context hkeeps
    simp [Keeps, getContext, CheckRequestManager.getContext, CheckRequestManager.empty] at hkeeps
  · intro σ event σ' hsound _ hstep
    exact hsound.step hstep

/-! ### Contexts that are removed -/

/-- A context that has been kept is still kept, marked or not, or its connection has been closed,
or the client has got a response. -/
def Accounted (σ : CheckLogic) (context : CheckContext) : Prop :=
  (∃ context', σ.Keeps context' ∧ context'.cancel = context.cancel)
    ∨ context.link ∈ σ.closed ∨ σ.Answered context

theorem accounted_cancel :
  σ.Accounted context.cancel ↔ σ.Accounted context
  := Iff.rfl

/-- Only one context is kept in a place. -/
theorem Keeps.eq_of_place (h : σ.Keeps context) (h' : σ.Keeps context')
    (hplace : context.link = context'.link ∧ context.checkId = context'.checkId) :
  context = context'
  := by
  have hkept : σ.getContext context.link context.checkId = some context := h
  rw [hplace.1, hplace.2] at hkept
  exact Option.some.inj (hkept.symm.trans h')

/-- No context is forgotten. -/
theorem accounted_of_keeps (h : σ.Keeps context) (hsound : Sound σ) (heffect : Effect False σ σ') :
  σ'.Accounted context
  := by
  cases heffect with
  | quiet hquiet => exact Or.inl ⟨context, hquiet.keeps_iff.mpr h, rfl⟩
  | close link => exact Or.inl ⟨context, h, rfl⟩
  | @settle removed result hremoved hactive hopen =>
      by_cases hplace : removed.link = context.link ∧ removed.checkId = context.checkId
      · obtain rfl := hremoved.eq_of_place h hplace
        have hsettles : settles removed (removed.link, .check result removed.checkId) = true := by
          simp [settles]
        exact Or.inr (Or.inr ((answered_send (hsound removed h).since_le).mpr (Or.inr hsettles)))
      · exact Or.inl ⟨context, keeps_remove.mpr ⟨hplace, h⟩, rfl⟩
  | @drop removed hremoved hdrop =>
      by_cases hplace : removed.link = context.link ∧ removed.checkId = context.checkId
      · obtain rfl := hremoved.eq_of_place h hplace
        rcases hdrop with hcancelled | hclosed
        · exact Or.inr ((hsound removed h).cancelled hcancelled)
        · exact Or.inr (Or.inl hclosed)
      · exact Or.inl ⟨context, keeps_remove.mpr ⟨hplace, h⟩, rfl⟩
  | forget hforget _ => cases hforget
  | @abandon marked hmarked hclosed =>
      by_cases hplace : marked.link = context.link ∧ marked.checkId = context.checkId
      · obtain rfl := hmarked.eq_of_place h hplace
        exact Or.inl ⟨marked.cancel, keeps_put.mpr (Or.inl rfl), rfl⟩
      · exact Or.inl ⟨context, keeps_put.mpr (Or.inr ⟨hplace, h⟩), rfl⟩

/-- Responses are not taken back, and connections are not opened again. -/
theorem Effect.mono (h : Effect forgets σ σ') :
  (∀ link ∈ σ.closed, link ∈ σ'.closed) ∧ ∃ rs, σ'.sent = σ.sent ++ rs
  := by
  cases h with
  | quiet hquiet =>
      rw [hquiet.closed]
      exact ⟨fun _ => id, [], by rw [hquiet.sent, List.append_nil]⟩
  | close link => exact ⟨fun _ => List.mem_cons_of_mem link, [], (List.append_nil _).symm⟩
  | settle result _ _ _ => exact ⟨fun _ => id, _, rfl⟩
  | drop _ _ => exact ⟨fun _ => id, [], (List.append_nil _).symm⟩
  | forget _ _ => exact ⟨fun _ => id, [], (List.append_nil _).symm⟩
  | abandon _ _ => exact ⟨fun _ => id, [], (List.append_nil _).symm⟩

theorem Accounted.effect (h : σ.Accounted context) (hsound : Sound σ)
    (heffect : Effect False σ σ') :
  σ'.Accounted context
  := by
  obtain ⟨hclosed, rs, hrs⟩ := heffect.mono
  rcases h with ⟨context', hkeeps, hcancel⟩ | hlink | ⟨response, hmem, hsettles⟩
  · rw [← accounted_cancel, ← hcancel, accounted_cancel]
    exact accounted_of_keeps hkeeps hsound heffect
  · exact Or.inr (Or.inl (hclosed _ hlink))
  · refine Or.inr (Or.inr ⟨response, ?_, hsettles⟩)
    rw [hrs, List.drop_append]
    exact List.mem_append_left _ hmem

theorem Accounted.effects (h : σ.Accounted context) (hsound : Sound σ)
    (heffects : Effects False σ σ') :
  σ'.Accounted context
  := by
  induction heffects with
  | refl => exact h
  | tail hfirst heffect ih => exact ih.effect (hsound.effects hfirst) heffect

/-- A request removes no context. -/
theorem accounted_of_serves {request : Request} (h : σ.Keeps context)
    (hserves : Serves link request σ σ') :
  σ'.Accounted context
  := by
  cases hserves with
  | answer key result hfree hquiet => exact Or.inl ⟨context, hquiet.keeps_iff.mpr h, rfl⟩
  | discard key hcontext => exact Or.inl ⟨context, h, rfl⟩
  | hold key talker hfree hquiet =>
      refine Or.inl ⟨context, hquiet.keeps_iff.mpr (keeps_put.mpr (Or.inr ⟨?_, h⟩)), rfl⟩
      rintro ⟨hlink, hid⟩
      have hkept : σ.getContext context.link context.checkId = some context := h
      rw [← hlink, ← hid] at hkept
      exact absurd (hfree.symm.trans hkept) nofun
  | simple key retValue result checkId hquiet =>
      exact Or.inl ⟨context, hquiet.keeps_iff.mpr h, rfl⟩
  | @acknowledge _ _ _ marked hmarked hactive hquiet =>
      by_cases hplace : marked.link = context.link ∧ marked.checkId = context.checkId
      · obtain rfl := (keeps_of_getContext hmarked).eq_of_place h hplace
        exact Or.inl ⟨marked.cancel, hquiet.keeps_iff.mpr (keeps_put.mpr (Or.inl rfl)), rfl⟩
      · exact Or.inl ⟨context, hquiet.keeps_iff.mpr (keeps_put.mpr (Or.inr ⟨hplace, h⟩)), rfl⟩
  | ignore _ => exact Or.inl ⟨context, h, rfl⟩
  | monitorEntries _ _ => exact Or.inl ⟨context, h, rfl⟩
  | monitorEntry _ _ => exact Or.inl ⟨context, h, rfl⟩

/-- A check that is kept is accounted for after each proper event. -/
theorem accounted_of_step {event : Event} (hsound : Sound σ) (hproper : σ.Proper event)
    (hstep : σ.step event = some σ') (h : σ.Keeps context) :
  σ'.Accounted context
  := by
  obtain ⟨-, ⟨link, request, verdict, rfl, σ₁, hserves, hclose⟩ | heffects⟩ := step_cases hstep
  · have haccounted := accounted_of_serves h hserves
    rcases hclose with rfl | ⟨heffects, -⟩
    · exact haccounted
    · exact haccounted.effects (hsound.serves hserves) heffects
  · have hforgets : (¬ σ.Proper event) = False := eq_false (not_not.mpr hproper)
    rw [hforgets] at heffects
    exact Accounted.effects (Or.inl ⟨context, h, rfl⟩) hsound heffects

/-- A reply of another type removes the context of a check that waits, and nothing is sent. -/
theorem step_of_not_proper {event : Event} (hopen : event.link ∉ σ.closed)
    (h : ¬ σ.Proper event) :
  ∃ context σ₁, σ.Keeps context ∧ context.cancelled = false ∧ context.link ∉ σ.closed ∧
    σ.step event = some σ₁ ∧ Quiet (σ.remove context) σ₁
  := by
  cases event with
  | request link request verdict => exact absurd trivial h
  | agentRegister link agentType sequenceNumber => exact absurd trivial h
  | close link => exact absurd trivial h
  | agentAction link sequenceNumber type answer =>
      simp only [Proper, not_forall] at h
      obtain ⟨talker, htalker, context, hcontext, hactive, hlink, htype⟩ := h
      have hanswer : σ.answerContext context type answer = .returned σ := by
        unfold answerContext
        simp [hactive, htype]
      let agentManager := σ.agentManager.removeTalker talker
      refine ⟨context, { σ.remove context with agentManager := agentManager },
        keeps_of_getContextOf hcontext, hactive, hlink, ?_, ?_⟩
      · rw [step, if_neg hopen, execute, executeAgentAction, htalker]
        simp only [show σ.checkRequestManager.getContextOf talker = some context from hcontext,
          hanswer, Outcome.andThen_returned, handle, Outcome.returned_thrown,
          Outcome.returned_state]
        rfl
      · exact ⟨rfl, rfl, rfl⟩

/-- In a step of a run, the clients of the contexts that are removed have got responses if their
connections are open.  This is so exactly if the step is not a reply of another type than
`CYNARA_MSG_TYPE_ACTION` to a check that waits. -/
theorem answered_iff_proper {event : Event}
    (h : Runs.Reaches step (fun _ _ => True) {} σ) (hstep : σ.step event = some σ') :
  (∀ context, Removed σ σ' context → context.link ∉ σ'.closed → σ'.Answered context)
    ↔ σ.Proper event
  := by
  have hsound := sound_of_reaches h
  constructor
  · intro hanswered
    by_contra hproper
    obtain ⟨context, σ₁, hkeeps, hactive, hopen, hsilent, hquiet⟩ :=
      step_of_not_proper (step_cases hstep).1 hproper
    obtain rfl : σ' = σ₁ := Option.some.inj (hstep.symm.trans hsilent)
    have hremoved : Removed σ σ' context := by
      refine ⟨hkeeps, ?_⟩
      intro context' hkeeps' hcancel
      obtain ⟨hplace, -⟩ := keeps_remove.mp (hquiet.keeps_iff.mp hkeeps')
      obtain ⟨hlink, hid⟩ := place_of_cancel_eq hcancel
      exact hplace ⟨hlink.symm, hid.symm⟩
    have hopen' : context.link ∉ σ'.closed := by
      rw [hquiet.closed]
      exact hopen
    exact (hsound context hkeeps).waiting hactive
      (hquiet.answered_iff.mp (hanswered context hremoved hopen'))
  · intro hproper context hremoved hopen
    rcases accounted_of_step hsound hproper hstep hremoved.1 with
      ⟨context', hkeeps, hcancel⟩ | hclosed | hanswered
    · exact absurd hcancel (hremoved.2 context' hkeeps)
    · exact absurd hclosed hopen
    · exact hanswered

/-- An agent is registered, and a check needs it. -/
def waitingEvents : List Event :=
  [.agentRegister 1 (Str.ofString "agent") 0,
    .request 0 (.check ⟨[], [], []⟩ 7) ⟨false, some ⟨NONE, []⟩,
      some ⟨.ANSWER_NOTREADY, {}, Str.ofString "agent", []⟩⟩]

/-- The reply of the agent. -/
def replyEvent (type : UInt8) : Event :=
  .agentAction 1 0 type fun _ => ⟨.SUCCESS, { policyType := ALLOW }⟩

theorem reaches_waiting :
  ∃ σ context, Runs.Reaches step (fun _ _ => True) {} σ ∧ σ.getContext 0 7 = some context ∧
    (σ.step (replyEvent CYNARA_MSG_TYPE_ACTION)).isSome ∧
    ∃ σ', σ.step (replyEvent CYNARA_MSG_TYPE_CANCEL) = some σ' ∧ σ'.getContext 0 7 = none ∧
      0 ∉ σ'.closed ∧ σ'.sent = []
  := by
  have hrun : (Runs.run step (fun _ _ => true) waitingEvents {}).any (fun σ =>
      (σ.getContext 0 7).isSome && (σ.step (replyEvent CYNARA_MSG_TYPE_ACTION)).isSome &&
      (σ.step (replyEvent CYNARA_MSG_TYPE_CANCEL)).any fun σ' =>
        (σ'.getContext 0 7).isNone && σ'.closed.isEmpty && σ'.sent.isEmpty) = true := by
    decide +kernel
  obtain ⟨σ, hσ, hwaiting⟩ := (Option.any_eq_true _ _).mp hrun
  simp only [Bool.and_eq_true] at hwaiting
  obtain ⟨⟨hsome, haction⟩, hcancel⟩ := hwaiting
  obtain ⟨σ', hstep, hsilent⟩ := (Option.any_eq_true _ _).mp hcancel
  simp only [Bool.and_eq_true, Option.isNone_iff_eq_none, List.isEmpty_iff] at hsilent
  obtain ⟨context, hcontext⟩ := Option.isSome_iff_exists.mp hsome
  refine ⟨σ, context, .run (fun _ _ _ => trivial) .start hσ, hcontext, haction, σ', hstep,
    hsilent.1.1, ?_, hsilent.2⟩
  simp [hsilent.1.2]

/-- The agent replies with the type `CYNARA_MSG_TYPE_ACTION`. -/
theorem answered_action :
  ∃ σ σ', Runs.Reaches step (fun _ _ => True) {} σ ∧
    σ.step (replyEvent CYNARA_MSG_TYPE_ACTION) = some σ' ∧
    ∀ context, Removed σ σ' context → context.link ∉ σ'.closed → σ'.Answered context
  := by
  obtain ⟨σ, context, hreaches, -, haction, -⟩ := reaches_waiting
  obtain ⟨σ', hstep⟩ := Option.isSome_iff_exists.mp haction
  refine ⟨σ, σ', hreaches, hstep, ?_⟩
  apply (answered_iff_proper hreaches hstep).mpr
  intro _ _ _ _ _ _
  rfl

/-- The agent replies with the type `CYNARA_MSG_TYPE_CANCEL`: the context is removed, and the
client gets no response. -/
theorem not_answered_cancel :
  ∃ σ σ' context, Runs.Reaches step (fun _ _ => True) {} σ ∧
    σ.step (replyEvent CYNARA_MSG_TYPE_CANCEL) = some σ' ∧ Removed σ σ' context ∧
    context.link ∉ σ'.closed ∧ ¬ σ'.Answered context
  := by
  obtain ⟨σ, context, hreaches, hcontext, -, σ', hstep, hnone, hopen, hsent⟩ := reaches_waiting
  obtain ⟨hlink, hid⟩ := CheckRequestManager.placed_getContext hcontext
  refine ⟨σ, σ', context, hreaches, hstep, ⟨keeps_of_getContext hcontext, ?_⟩, ?_, ?_⟩
  · intro context' hkeeps hcancel
    obtain ⟨hlink', hid'⟩ := place_of_cancel_eq hcancel
    rw [Keeps, hlink', hid', hlink, hid, hnone] at hkeeps
    cases hkeeps
  · rw [hlink]
    exact hopen
  · rintro ⟨response, hmem, -⟩
    rw [hsent, List.drop_nil] at hmem
    cases hmem

end CheckLogic

end Cynara
