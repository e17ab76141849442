import Cynara.Client.AsyncChecks
import Cynara.Library.Runs

/-!
# Runs of the asynchronous client

The ids that are allocated are those of the checks of the client, in every state of every run.
A check that has been created gets one callback: when it is answered or cancelled, when the
service is not available, or when the client is destroyed.  The exception is a check that has
been answered while the monitor is due to be flushed: if the attempt to connect throws an
exception then, the check has been released, and its callback is not called.

On a connection there is one request for each check that had not been cancelled when the
connection was made, and one for each check that has been created since then.
-/

namespace Cynara

namespace ClientAsync

open Std ProtocolClient

namespace Client

/-- The functions that have not returned have been called by the user or by callbacks.  The flag
of the client says whether a callback is running in which operations are permitted, and each
function that waits for such a callback has kept the flag from before it. -/
def Nested : List Frame → Bool → Prop
  | [], inCallback => inCallback = false
  | .process _ :: stack, inCallback => userRuns stack ∧ Nested stack inCallback
  | .cancelRequest onAnswerCancel :: stack, inCallback =>
      inCallback = true ∧ userRuns stack ∧ Nested stack onAnswerCancel
  | .processResponse onAnswerCancel :: .process .processResponses :: stack, inCallback =>
      inCallback = true ∧ userRuns stack ∧ Nested stack onAnswerCancel
  | .processResponse _ :: _, _ => False

/-- `process` sends and receives only when the connection is complete. -/
def Completed : List Frame → Logic → Prop
  | .process .processOut :: _, σ => σ.socketClient.connectionInProgress = false
  | .process .receiveFromCynara :: _, σ => σ.socketClient.connectionInProgress = false
  | _, _ => True

/-- The callbacks of all checks that have been created have been called once, except for those
that are held. -/
structure Done (held : List ℕ) (σ : Logic) : Prop where
  allocated : ∀ id, σ.sequenceContainer.Allocated id ↔ id ∈ σ.checks
  nodup : (σ.called ++ held).Nodup
  mem_called : ∀ n, n ∈ σ.called ++ held ↔ n < σ.created

/-- What holds in every state. -/
structure Inv (held : List ℕ) (c : Client) : Prop where
  nested : Nested c.stack c.logic.inAnswerCancelResponseCallback
  completed : Completed c.stack c.logic
  exact : c.logic.Exact
  settled : c.finished = false → c.logic.Settled held
  done : c.finished = true → c.stack = [] ∧ Done held c.logic

/-- The event is not an answer to a check that has not been cancelled, with the monitor due to
be flushed, the connection lost and an attempt to connect that throws an exception. -/
def Careful (c : Client) : Event → Prop
  | .getResponse (.check _ id) cached clock net =>
      ∀ check ∈ c.logic.checks[id]?, check.cancelled = false → c.logic.monitoringEnabled →
        (c.logic.monitorCache.update check.key cached clock).shouldFlush →
        c.logic.socketClient.isConnected net.alive = false → net.attempt ≠ .thrown
  | _ => True

variable {c c' : Client} {held held' : List ℕ} {event : Event} {σ : Logic} {stack : List Frame}

theorem completed_of_userRuns (h : userRuns stack) (σ : Logic) :
  Completed stack σ
  := by
  unfold Completed
  split
  · cases h
  · cases h
  · trivial

/-- No callback is running if the user runs and the flag is not set. -/
theorem Nested.eq_nil (h : Nested stack false) (huser : userRuns stack) :
  stack = []
  := by
  match stack, h with
  | [], _ => rfl
  | .process _ :: _, _ => cases huser
  | .cancelRequest _ :: _, h => cases h.1
  | .processResponse _ :: .process .processResponses :: _, h => cases h.1

theorem Inv.unfinished (h : Inv held c) (hstack : c.stack ≠ []) :
  c.finished = false
  := by
  by_contra hfinished
  exact hstack (h.done (by simpa using hfinished)).1

/-- The client does something to its checks, and the functions that have not returned change. -/
theorem Inv.keep (h : Inv held c) (hfinished : c.finished = false)
    (hkeep : c.logic.Settled held → c.logic.Exact → σ.Settled held' ∧ σ.Exact)
    (hnested : Nested stack σ.inAnswerCancelResponseCallback) (hcompleted : Completed stack σ) :
  Inv held' { c with logic := σ, stack := stack }
  := by
  obtain ⟨hsettled, hexact⟩ := hkeep (h.settled hfinished) h.exact
  refine ⟨hnested, hcompleted, hexact, fun _ => hsettled, ?_⟩
  intro hdone
  simp [hfinished] at hdone

theorem Inv.quiet (h : Inv held c) (hfinished : c.finished = false)
    (hquiet : Logic.Quiet c.logic σ)
    (hnested : Nested stack σ.inAnswerCancelResponseCallback) (hcompleted : Completed stack σ) :
  Inv held { c with logic := σ, stack := stack }
  := h.keep hfinished (Logic.Does.quiet hquiet).keep hnested hcompleted

/-- The functions that have not returned are the same. -/
theorem Inv.sameStack {ops : List ConnectionOp} (h : Inv held c) (hcallable : c.isCallable)
    (hdoes : Logic.Does ops held c.logic held' σ)
    (hflag : σ.inAnswerCancelResponseCallback = c.logic.inAnswerCancelResponseCallback) :
  Inv held' { c with logic := σ }
  := by
  obtain ⟨hfinished, huser⟩ := by simpa [isCallable] using hcallable
  exact h.keep hfinished hdoes.keep (hflag ▸ h.nested) (completed_of_userRuns huser σ)

theorem Inv.finish (h : Inv held c) (hcallable : c.isCallable)
    (hpermitted : c.logic.isFinishPermitted) (status : Option SendStatus) (count : ℕ) :
  Inv held
    { c with logic := (c.logic.tryFlushMonitor status count).state.finish, finished := true }
  := by
  obtain ⟨hfinished, huser⟩ := by simpa [isCallable] using hcallable
  simp only [Logic.isFinishPermitted, Bool.and_eq_true, Bool.not_eq_true'] at hpermitted
  have hnested := h.nested
  rw [hpermitted.2] at hnested
  have hstack := hnested.eq_nil huser
  have hquiet := Logic.quiet_tryFlushMonitor status count c.logic
  have hsettled := (h.settled hfinished).quiet hquiet
  have hexact := h.exact.quiet hquiet
  have hflag := Logic.inCallback_tryFlushMonitor status count c.logic
  clear hquiet
  generalize (c.logic.tryFlushMonitor status count).state = σ at hsettled hexact hflag
  obtain ⟨hnodup, hmem⟩ := hsettled.callAll .CYNARA_CALL_CAUSE_FINISH
  rw [Logic.callAll_eq] at hnodup hmem
  constructor
  · rw [Logic.finish, Logic.callAll_eq, hstack]
    exact hflag.trans hpermitted.2
  · rw [hstack]
    trivial
  · rw [Logic.finish, Logic.callAll_eq]
    exact ⟨hexact.linked, hexact.requests, hexact.nodup, hexact.number_lt, hexact.pending⟩
  · intro hnot
    cases hnot
  · intro _
    rw [Logic.finish, Logic.callAll_eq]
    exact ⟨hstack, hsettled.allocated, hnodup, hmem⟩

/-- The calls of the client. -/
theorem Inv.perform (h : Inv held c) (hcallable : c.isCallable)
    (hstep : c.perform event = some c') :
  Inv held c'
  := by
  obtain ⟨hfinished, huser⟩ := by simpa [isCallable] using hcallable
  cases event with
  | createRequest simple key session net =>
      simp only [Client.perform] at hstep
      split at hstep
      · cases hstep
        exact h.sameStack hcallable (Logic.does_createRequest held h.exact.linked _ _ _ _)
          (Logic.inCallback_createRequest _ _ _ _ _)
      · cases hstep
        exact h
  | cancelRequest checkId net =>
      have hdoes := Logic.does_cancelRequest held h.exact.linked checkId net
      have hnests := Logic.nests_cancelRequest checkId net c.logic
      simp only [Client.perform] at hstep
      generalize c.logic.cancelRequest checkId net = result at hstep hdoes hnests
      obtain ⟨control, σ⟩ := result
      cases control with
      | returned value =>
          cases hstep
          exact h.sameStack hcallable hdoes hnests
      | threw =>
          cases hstep
          exact h.sameStack hcallable hdoes hnests
      | callback onAnswerCancel =>
          cases hstep
          have hnested : Nested (.cancelRequest onAnswerCancel :: c.stack)
              σ.inAnswerCancelResponseCallback := ⟨hnests.2, huser, hnests.1 ▸ h.nested⟩
          exact h.keep hfinished hdoes.keep hnested trivial
  | checkCache key session cached clock alive net net' =>
      simp only [Client.perform] at hstep
      split at hstep
      · cases hstep
        exact h.sameStack hcallable (Logic.does_checkCache held _ _ _ _ _ _ _)
          (Logic.inCallback_checkCache _ _ _ _ _ _ _)
      · cases hstep
        exact h
  | process =>
      simp only [Client.perform] at hstep
      split at hstep
      · cases hstep
        exact h.keep hfinished And.intro ⟨huser, h.nested⟩ trivial
      · cases hstep
        exact h
  | finish status count =>
      simp only [Client.perform] at hstep
      split at hstep
      · rename_i hpermitted
        split at hstep
        · cases hstep
          exact h.sameStack hcallable (.quiet (Logic.quiet_tryFlushMonitor status count c.logic))
            (Logic.inCallback_tryFlushMonitor status count c.logic)
        · cases hstep
          exact h.finish hcallable hpermitted status count
      · cases hstep
        exact h
  | callbackReturns => cases hstep
  | completeConnection ready alive => cases hstep
  | processOut status count attempt => cases hstep
  | receiveFromCynara received attempt => cases hstep
  | getResponse response cached clock net => cases hstep
  | noResponse => cases hstep

theorem Inv.reconnect (h : Inv held c) (hfinished : c.finished = false) (attempt : Attempt)
    (hquiet : Logic.Quiet c.logic σ)
    (hprogress : σ.socketClient.connectionInProgress = false) (huser : userRuns stack)
    (hnested : Nested stack σ.inAnswerCancelResponseCallback) :
  Inv held (c.reconnect attempt σ stack)
  := by
  have hdoes : Logic.Does [] held c.logic held σ := .quiet hquiet
  have hconnect := hdoes.connect attempt hprogress
  have hflag := (Logic.apart_connect attempt σ.onDisconnected).inCallback
  unfold Client.reconnect
  generalize σ.onDisconnected.connect attempt = result at hconnect hflag
  obtain ⟨connected, σ'⟩ := result
  have hnested' : Nested stack σ'.inAnswerCancelResponseCallback := by
    rw [show σ'.inAnswerCancelResponseCallback = _ from hflag]
    exact hnested
  rcases connected with _ | _ | _
  · exact h.keep hfinished hconnect.keep hnested' (completed_of_userRuns huser _)
  · exact h.keep hfinished hconnect.keep hnested' (completed_of_userRuns huser _)
  · have hprocess : Nested (.process .completeConnection :: stack)
        σ'.inAnswerCancelResponseCallback := ⟨huser, hnested'⟩
    exact h.keep hfinished hconnect.keep hprocess trivial

/-- A callback returns. -/
theorem Inv.callbackReturns (h : Inv held c) (hstep : c.resume .callbackReturns = some c') :
  Inv held c'
  := by
  have hnested := h.nested
  simp only [Client.resume] at hstep
  split at hstep
  · rename_i onAnswerCancel stack hstack
    cases hstep
    have hfinished := h.unfinished (by simp [hstack])
    rw [hstack] at hnested
    exact h.quiet hfinished (.of_socketClient rfl rfl rfl rfl rfl rfl) hnested.2.2
      (completed_of_userRuns hnested.2.1 _)
  · rename_i onAnswerCancel stack hstack
    cases hstep
    have hfinished := h.unfinished (by simp [hstack])
    rw [hstack] at hnested
    match stack, hnested with
    | .process .processResponses :: stack, hnested =>
        exact h.quiet hfinished (.of_socketClient rfl rfl rfl rfl rfl rfl) hnested.2 trivial
  · cases hstep

theorem Inv.completeConnection (h : Inv held c) {ready alive : Bool}
    (hstep : c.resume (.completeConnection ready alive) = some c') :
  Inv held c'
  := by
  have hnested := h.nested
  simp only [Client.resume] at hstep
  split at hstep
  · rename_i stack hstack
    have hfinished := h.unfinished (by simp [hstack])
    rw [hstack] at hnested
    have hdoes := Logic.does_completeConnection held ready alive c.logic
    have hflag := Logic.inCallback_completeConnection ready alive c.logic
    have hprogress := Logic.not_inProgress_of_completed ready alive c.logic
    generalize c.logic.completeConnection ready alive = result at hstep hdoes hflag hprogress
    obtain ⟨completed, σ⟩ := result
    rw [← show σ.inAnswerCancelResponseCallback = _ from hflag] at hnested
    cases completed with
    | true =>
        cases hstep
        exact h.keep hfinished hdoes.keep hnested (hprogress rfl)
    | false =>
        cases hstep
        exact h.keep hfinished hdoes.keep hnested.2 (completed_of_userRuns hnested.1 _)
  · cases hstep

theorem Inv.processOut (h : Inv held c) {status : Option SendStatus} {count : ℕ}
    {attempt : Attempt} (hstep : c.resume (.processOut status count attempt) = some c') :
  Inv held c'
  := by
  have hnested := h.nested
  have hcompleted := h.completed
  simp only [Client.resume] at hstep
  split at hstep
  · rename_i stack hstack
    have hfinished := h.unfinished (by simp [hstack])
    rw [hstack] at hnested hcompleted
    have hquiet := Logic.quiet_processOut status count c.logic
    have hflag := Logic.inCallback_processOut status count c.logic
    have hprogress : (c.logic.processOut status count).2.socketClient.connectionInProgress =
        false := by
      rw [Logic.inProgress_processOut]
      exact hcompleted
    generalize c.logic.processOut status count = result at hstep hquiet hflag hprogress
    obtain ⟨connected, σ⟩ := result
    rw [← show σ.inAnswerCancelResponseCallback = _ from hflag] at hnested
    rcases connected with _ | _ | _
    · cases hstep
      exact h.quiet hfinished hquiet hnested.2 (completed_of_userRuns hnested.1 _)
    · cases hstep
      exact h.reconnect hfinished attempt hquiet hprogress hnested.1 hnested.2
    · cases hstep
      exact h.quiet hfinished hquiet hnested hprogress
  · cases hstep

theorem Inv.receiveFromCynara (h : Inv held c) {received : Option Bool} {attempt : Attempt}
    (hstep : c.resume (.receiveFromCynara received attempt) = some c') :
  Inv held c'
  := by
  have hnested := h.nested
  have hcompleted := h.completed
  simp only [Client.resume] at hstep
  split at hstep
  · rename_i stack hstack
    have hfinished := h.unfinished (by simp [hstack])
    rw [hstack] at hnested hcompleted
    rcases received with _ | _ | _
    · cases hstep
      exact h.keep hfinished And.intro hnested.2 (completed_of_userRuns hnested.1 _)
    · cases hstep
      have hquiet : Logic.Quiet c.logic c.logic := .of_socketClient rfl rfl rfl rfl rfl rfl
      exact h.reconnect hfinished attempt hquiet hcompleted hnested.1 hnested.2
    · cases hstep
      exact h.keep hfinished And.intro hnested trivial
  · cases hstep

theorem keep_processResponse (held : List ℕ) (response : Response) (cached : Int32) (clock : Clock)
    (net : Net) (c : Client) :
  ∃ held', (c.logic.Settled held → c.logic.Exact →
      (c.logic.processResponse response cached clock net).2.Settled held' ∧
        (c.logic.processResponse response cached clock net).2.Exact) ∧
    (c.Careful (.getResponse response cached clock net) → held' = held)
  := by
  cases hexpects : c.logic.expects response with
  | false =>
      obtain ⟨-, hthrows⟩ := Logic.processResponse_of_not_expects hexpects cached clock net
      rw [hthrows]
      exact ⟨held, And.intro, fun _ => rfl⟩
  | true =>
      obtain ⟨check, hcheck⟩ := Logic.exists_of_expects hexpects
      obtain ⟨held', hdoes, hheld⟩ :=
        Logic.does_processResponse held hexpects hcheck cached clock net
      refine ⟨held', ?_, ?_⟩
      · intro hsettled hexact
        exact hdoes.keep (hsettled.release hcheck) (hexact.releaseRequest _)
      · intro hcareful
        rcases hheld with hsame | ⟨result, id, rfl, hactive, hthrown⟩
        · exact hsame
        · obtain ⟨henabled, hflush, hconnected, hattempt⟩ := Logic.thrown_updateMonitor hthrown
          exact absurd hattempt (hcareful check hcheck hactive henabled hflush hconnected)

/-- A response is processed.  Another check may be held after that if the client is not
careful. -/
theorem Inv.getResponse (h : Inv held c) {response : Response} {cached : Int32} {clock : Clock}
    {net : Net} (hstep : c.resume (.getResponse response cached clock net) = some c') :
  ∃ held', Inv held' c' ∧ (c.Careful (.getResponse response cached clock net) → held' = held)
  := by
  have hnested := h.nested
  simp only [Client.resume] at hstep
  split at hstep
  · rename_i stack hstack
    have hfinished := h.unfinished (by simp [hstack])
    rw [hstack] at hnested hstep
    obtain ⟨held', hkeep, hheld⟩ := keep_processResponse held response cached clock net c
    refine ⟨held', ?_, hheld⟩
    have hnests := Logic.nests_processResponse response cached clock net c.logic
    generalize c.logic.processResponse response cached clock net = result
      at hstep hkeep hnests
    obtain ⟨control, σ⟩ := result
    cases control with
    | returned value =>
        cases hstep
        rw [← show σ.inAnswerCancelResponseCallback = _ from hnests] at hnested
        exact h.keep hfinished hkeep hnested trivial
    | threw =>
        cases hstep
        rw [← show σ.inAnswerCancelResponseCallback = _ from hnests] at hnested
        exact h.keep hfinished hkeep hnested.2 (completed_of_userRuns hnested.1 _)
    | callback onAnswerCancel =>
        cases hstep
        have hcallback : Nested
            (.processResponse onAnswerCancel :: .process .processResponses :: stack)
            σ.inAnswerCancelResponseCallback := by
          rw [show onAnswerCancel = _ from hnests.1]
          exact ⟨hnests.2, hnested⟩
        exact h.keep hfinished hkeep hcallback trivial
  · cases hstep

theorem Inv.noResponse (h : Inv held c) (hstep : c.resume .noResponse = some c') :
  Inv held c'
  := by
  have hnested := h.nested
  simp only [Client.resume] at hstep
  split at hstep
  · rename_i stack hstack
    cases hstep
    have hfinished := h.unfinished (by simp [hstack])
    rw [hstack] at hnested
    exact h.keep hfinished And.intro hnested.2 (completed_of_userRuns hnested.1 _)
  · cases hstep

/-- The rest of a function, after a callback. -/
theorem Inv.resume (h : Inv held c) (hstep : c.resume event = some c') :
  ∃ held', Inv held' c' ∧ (c.Careful event → held' = held)
  := by
  cases event with
  | callbackReturns => exact ⟨held, h.callbackReturns hstep, fun _ => rfl⟩
  | completeConnection ready alive => exact ⟨held, h.completeConnection hstep, fun _ => rfl⟩
  | processOut status count attempt => exact ⟨held, h.processOut hstep, fun _ => rfl⟩
  | receiveFromCynara received attempt => exact ⟨held, h.receiveFromCynara hstep, fun _ => rfl⟩
  | getResponse response cached clock net => exact h.getResponse hstep
  | noResponse => exact ⟨held, h.noResponse hstep, fun _ => rfl⟩
  | createRequest simple key session net => cases hstep
  | cancelRequest checkId net => cases hstep
  | checkCache key session cached clock alive net net' => cases hstep
  | process => cases hstep
  | finish status count => cases hstep

/-- A step keeps the invariant, and a careful one holds back no check. -/
theorem Inv.step (h : Inv held c) (hstep : c.step event = some c') :
  ∃ held', Inv held' c' ∧ (c.Careful event → held' = held)
  := by
  unfold Client.step at hstep
  split at hstep
  · rename_i hcallable
    rcases Option.or_eq_some_iff.mp hstep with hperform | ⟨-, hresume⟩
    · exact ⟨held, h.perform hcallable hperform, fun _ => rfl⟩
    · exact h.resume hresume
  · exact h.resume hstep

/-- A new client. -/
def start (monitoringEnabled : Bool) : Client := { logic := { monitoringEnabled } }

theorem inv_start (monitoringEnabled : Bool) :
  Inv [] (start monitoringEnabled)
  := by
  refine ⟨rfl, trivial, Logic.exact_of_not_connected rfl rfl rfl, ?_, ?_⟩
  · intro _
    constructor
    · intro id
      simpa [start] using SequenceContainer.not_allocated_new id
    · simp [start]
    · simp [start]
    · exact List.nodup_nil
    · simp [start, Logic.called]
  · intro hfinished
    cases hfinished

/-! ### The callbacks of the checks -/

/-- The ids that are allocated are those of the checks.  A check that has been created has got
no callback as long as it waits for one, and else it has got one.  After the client has been
destroyed, every check has got one. -/
structure Accounted (c : Client) : Prop where
  allocated : ∀ id, c.logic.sequenceContainer.Allocated id ↔ id ∈ c.logic.checks
  awaiting : c.finished = false → ∀ n < c.logic.created, c.logic.Awaits n →
    c.logic.called.count n = 0
  called : c.finished = false → ∀ n < c.logic.created, ¬ c.logic.Awaits n →
    c.logic.called.count n = 1
  finished : c.finished = true → ∀ n < c.logic.created, c.logic.called.count n = 1

/-- Without a check that is held back, all checks have their callbacks. -/
theorem Inv.accounted (h : Inv [] c) :
  c.Accounted
  := by
  cases hfinished : c.finished with
  | false =>
      have hsettled := h.settled hfinished
      have hmem := hsettled.mem_called
      have hnodup := hsettled.nodup
      rw [List.append_nil] at hmem hnodup
      refine ⟨hsettled.allocated, ?_, ?_, ?_⟩
      · intro _ n _ hawaits
        rw [List.count_eq_zero, hmem]
        exact fun hn => hn.2 hawaits
      · intro _ n hn hawaits
        exact List.count_eq_one_of_mem hnodup ((hmem n).mpr ⟨hn, hawaits⟩)
      · intro hnot
        simp [hfinished] at hnot
  | true =>
      obtain ⟨-, hdone⟩ := h.done hfinished
      have hmem := hdone.mem_called
      have hnodup := hdone.nodup
      rw [List.append_nil] at hmem hnodup
      refine ⟨hdone.allocated, ?_, ?_, ?_⟩
      · intro hnot
        simp [hfinished] at hnot
      · intro hnot
        simp [hfinished] at hnot
      · intro _ n hn
        exact List.count_eq_one_of_mem hnodup ((hmem n).mpr hn)

/-- In every run in which no monitor is flushed with an exception while a check is answered, the
ids that are allocated are those of the checks, and every check that is created gets one
callback. -/
theorem accounted_of_careful (monitoringEnabled : Bool) (c : Client)
    (h : Runs.Reaches step Careful (start monitoringEnabled) c) :
  c.Accounted
  := by
  apply Inv.accounted
  apply h.invariant (inv_start monitoringEnabled)
  intro c event c' hinv hcareful hstep
  obtain ⟨held', hinv', hheld⟩ := hinv.step hstep
  rw [← hheld hcareful]
  exact hinv'

/-- Two checks are created and answered, the second one at a time when the entry of the first
one is two minutes old and the connection has been lost. -/
def twoAnswers (attempt : Attempt) : List Event :=
  [.createRequest false ⟨[97], [], []⟩ [] ⟨true, .succeeded⟩,
    .createRequest false ⟨[98], [], []⟩ [] ⟨true, .succeeded⟩,
    .process,
    .completeConnection true true,
    .processOut (some .ALL_DATA_SENT) 0 .succeeded,
    .receiveFromCynara (some true) .succeeded,
    .getResponse (.check ⟨0, []⟩ 0) 2 (some (0, 0)) ⟨true, .succeeded⟩,
    .callbackReturns,
    .getResponse (.check ⟨0, []⟩ 1) 2 (some (120, 0)) ⟨false, attempt⟩,
    .callbackReturns,
    .noResponse,
    .finish (some .ALL_DATA_SENT) 0]

/-- The service is not available when the monitor is flushed. -/
theorem accounted_twoAnswers :
  ∃ c, Runs.Reaches step Careful (start true) c ∧ c.finished = true ∧ c.logic.created = 2 ∧
    c.Accounted
  := by
  have hrun : (Runs.run step
      (fun _ event =>
        match event with
        | .getResponse _ _ _ net => net.attempt ≠ .thrown
        | _ => true)
      (twoAnswers .failed) (start true)).any
        (fun c => c.finished && c.logic.created == 2) = true := by
    decide +kernel
  obtain ⟨c, hc, hfinal⟩ := (Option.any_eq_true _ _).mp hrun
  simp only [Bool.and_eq_true, beq_iff_eq] at hfinal
  have hreach : Runs.Reaches step Careful (start true) c := by
    refine Runs.Reaches.run ?_ .start hc
    intro c event hmeets
    cases event with
    | getResponse response cached clock net =>
        cases response with
        | check result id =>
            intro _ _ _ _ _ _
            exact of_decide_eq_true hmeets
        | cancel id => trivial
        | simpleCheck retValue result id => trivial
    | _ => trivial
  exact ⟨c, hreach, hfinal.1, hfinal.2, accounted_of_careful true c hreach⟩

/-- The attempt to connect throws an exception when the monitor is flushed.  The second check
gets no callback, although the client is destroyed. -/
theorem not_called_twoAnswers :
  ∃ c, Runs.Reaches step (fun _ _ => True) (start true) c ∧ c.finished = true ∧
    c.logic.created = 2 ∧ c.logic.called.count 1 = 0
  := by
  have hrun : (Runs.run step (fun _ _ => true)
      ((twoAnswers .thrown).take 9 ++ [.finish (some .ALL_DATA_SENT) 0]) (start true)).any
        (fun c => c.finished && c.logic.created == 2 && c.logic.called.count 1 == 0) = true := by
    decide +kernel
  obtain ⟨c, hc, hfinal⟩ := (Option.any_eq_true _ _).mp hrun
  simp only [Bool.and_eq_true, beq_iff_eq] at hfinal
  exact ⟨c, Runs.Reaches.run (fun _ _ _ => trivial) .start hc, hfinal.1.1, hfinal.1.2, hfinal.2⟩

/-! ### The requests of the connections -/

/-- The requests of a client are those of its checks, in every run. -/
theorem exact_of_reaches {monitoringEnabled : Bool}
    (h : Runs.Reaches step (fun _ _ => True) (start monitoringEnabled) c) :
  c.logic.Exact
  := by
  have hinv : ∃ held, Inv held c := by
    apply h.invariant ⟨[], inv_start monitoringEnabled⟩
    rintro c event c' ⟨held, hinv⟩ - hstep
    obtain ⟨held', hinv', -⟩ := hinv.step hstep
    exact ⟨held', hinv'⟩
  obtain ⟨held, hinv⟩ := hinv
  exact hinv.exact

/-- The requests for checks on the present connection, sent or queued, are those of the checks
that had not been cancelled when the connection was made and of those created since then, one
for each of them.  A check that waits for its answer is one of them. -/
theorem requests_of_connection (monitoringEnabled : Bool) (c : Client)
    (h : Runs.Reaches step (fun _ _ => True) (start monitoringEnabled) c) :
  (c.logic.socketClient.opened ∨ c.logic.socketClient.connectionInProgress →
      c.logic.connection.isSome) ∧
    ∀ k ∈ c.logic.connection,
      c.logic.socketClient.requests.filter isCheckRequest =
          k.checks.map (fun check => check.2.request check.1) ∧
        (k.checks.map fun check => check.2.number).Nodup ∧
        ∀ check ∈ c.logic.active, check ∈ k.checks
  := by
  have hexact := exact_of_reaches h
  refine ⟨hexact.linked, ?_⟩
  intro k hk
  exact ⟨hexact.requests k hk, hexact.nodup k hk, hexact.pending k hk⟩

/-- Of two checks the first one is cancelled.  The connection is lost, and a third check makes a
new one. -/
theorem requests_reconnected :
  ∃ c, Runs.Reaches step (fun _ _ => True) (start false) c ∧
    c.logic.socketClient.requests = [.check ⟨[98], [], []⟩ 1, .simpleCheck ⟨[99], [], []⟩ 0] ∧
    ∃ k ∈ c.logic.connection, c.logic.socketClient.requests.filter isCheckRequest =
      k.checks.map (fun check => check.2.request check.1)
  := by
  have hrun : (Runs.run step (fun _ _ => true)
      [.createRequest false ⟨[97], [], []⟩ [] ⟨true, .succeeded⟩,
        .createRequest false ⟨[98], [], []⟩ [] ⟨true, .succeeded⟩,
        .cancelRequest 0 ⟨true, .succeeded⟩,
        .callbackReturns,
        .createRequest true ⟨[99], [], []⟩ [] ⟨false, .inProgress⟩] (start false)).any
        (fun c => c.logic.connection.isSome && c.logic.socketClient.requests ==
          [.check ⟨[98], [], []⟩ 1, .simpleCheck ⟨[99], [], []⟩ 0]) = true := by
    decide +kernel
  obtain ⟨c, hc, hfinal⟩ := (Option.any_eq_true _ _).mp hrun
  simp only [Bool.and_eq_true, beq_iff_eq] at hfinal
  have hreach : Runs.Reaches step (fun _ _ => True) (start false) c :=
    Runs.Reaches.run (fun _ _ _ => trivial) .start hc
  obtain ⟨k, hk⟩ := Option.isSome_iff_exists.mp hfinal.1
  exact ⟨c, hreach, hfinal.2, k, hk, ((requests_of_connection false c hreach).2 k hk).1⟩

end Client

end ClientAsync

end Cynara
