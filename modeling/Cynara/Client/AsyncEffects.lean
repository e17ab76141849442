import Cynara.Client.AsyncLogic

/-!
# What the asynchronous client does to its checks

Each function of the client does a few things, one after the other: a check is created or
cancelled, the callback of a check is called, requests of the monitor are queued, or a new
connection is made.  Whatever else the function does leaves the checks and the connection alone.
Which functions make a connection, and how often, depends on the state and on the system calls;
this is computed apart from what else they do.

A check that has been released and not been cancelled is held until its callback is called.
-/

namespace Cynara

namespace ClientAsync

open Std ProtocolClient

/-- Requests that ask for a check. -/
def isCheckRequest : Request → Bool
  | .check _ _ => true
  | .simpleCheck _ _ => true
  | _ => false

/-- Requests that put entries of the monitor. -/
def isMonitorRequest : Request → Bool
  | .monitorEntriesPut _ _ => true
  | .monitorEntryPut _ _ => true
  | _ => false

namespace Logic

/-! ### Loops over the checks -/

theorem callAll_eq (cause : CallCause) (σ : Logic) :
  σ.callAll cause =
    { σ with calls := σ.calls ++ σ.active.map fun check => ⟨check.1, cause, 0, check.2.number⟩ }
  := by
  have hfold : ∀ (l : List (UInt16 × CheckData)) (σ : Logic),
      l.foldl (fun σ check => σ.call check.1 cause 0 check.2) σ =
        { σ with calls := σ.calls ++ l.map fun check => ⟨check.1, cause, 0, check.2.number⟩ } := by
    intro l
    induction l with
    | nil =>
        intro σ
        simp
    | cons check l ih =>
        intro σ
        rw [List.foldl_cons, ih]
        simp [call]
  exact hfold σ.active σ

/-- The checks of a list that have been cancelled are released, and the requests of the others
are queued. -/
theorem foldl_prepareRequest (l : List (UInt16 × CheckData)) (σ : Logic) :
  ∃ sequenceContainer checks,
    l.foldl prepareRequest σ =
      { σ with
        sequenceContainer := sequenceContainer
        checks := checks
        socketClient :=
          { σ.socketClient with
            writeQueue := σ.socketClient.writeQueue ++
              (l.filter fun check => ¬ check.2.cancelled).map fun check =>
                check.2.request check.1 } } ∧
    (∀ id, sequenceContainer.Allocated id ↔
      σ.sequenceContainer.Allocated id ∧ ∀ check ∈ l, check.2.cancelled → check.1 ≠ id) ∧
    ∀ (id : UInt16) check, checks[id]? = some check ↔
      σ.checks[id]? = some check ∧ ∀ check ∈ l, check.2.cancelled → check.1 ≠ id
  := by
  induction l generalizing σ with
  | nil => exact ⟨σ.sequenceContainer, σ.checks, by simp⟩
  | cons check l ih =>
      obtain ⟨sequenceContainer, checks, heq, hallocated, hchecks⟩ := ih (σ.prepareRequest check)
      refine ⟨sequenceContainer, checks, ?_, ?_, ?_⟩
      · rw [List.foldl_cons, heq, prepareRequest]
        split
        · rename_i hcancelled
          simp [releaseRequest, hcancelled]
        · rename_i hcancelled
          simp [appendRequest, SocketClient.appendRequest, hcancelled]
      · intro id
        rw [hallocated, prepareRequest, List.forall_mem_cons]
        split
        · rename_i hcancelled
          simp only [releaseRequest, SequenceContainer.allocated_release, hcancelled,
            forall_const, ne_comm (a := id)]
          tauto
        · rename_i hcancelled
          simp [appendRequest, hcancelled]
      · intro id check'
        rw [hchecks, prepareRequest, List.forall_mem_cons]
        split
        · rename_i hcancelled
          simp only [releaseRequest, ExtTreeMap.getElem?_erase, hcancelled, forall_const]
          by_cases hid : check.1 = id
          · simp [hid]
          · simp [hid]
        · rename_i hcancelled
          simp [appendRequest, hcancelled]

theorem mem_active {σ : Logic} {id : UInt16} {check : CheckData} :
  (id, check) ∈ σ.active ↔ σ.checks[id]? = some check ∧ check.cancelled = false
  := by
  simp [active, ExtTreeMap.mem_toList_iff_getElem?_eq_some]

/-- The checks that have been cancelled are released, and the requests of the others are
queued. -/
theorem prepareRequestsToSend_eq (σ : Logic) :
  ∃ sequenceContainer checks,
    σ.prepareRequestsToSend =
      { σ with
        sequenceContainer := sequenceContainer
        checks := checks
        socketClient :=
          { σ.socketClient with
            writeQueue := σ.socketClient.writeQueue ++
              σ.active.map fun check => check.2.request check.1 } } ∧
    (∀ id, sequenceContainer.Allocated id ↔
      σ.sequenceContainer.Allocated id ∧
        ∀ check, σ.checks[id]? = some check → check.cancelled = false) ∧
    ∀ (id : UInt16) check, checks[id]? = some check ↔ (id, check) ∈ σ.active
  := by
  obtain ⟨sequenceContainer, checks, heq, hallocated, hchecks⟩ :=
    foldl_prepareRequest σ.checks.toList σ
  have hkept : ∀ id : UInt16,
      (∀ check ∈ σ.checks.toList, check.2.cancelled → check.1 ≠ id) ↔
        ∀ check, σ.checks[id]? = some check → check.cancelled = false := by
    intro id
    simp only [Prod.forall, ExtTreeMap.mem_toList_iff_getElem?_eq_some]
    constructor
    · intro h check hcheck
      by_contra hcancelled
      exact h id check hcheck (by simpa using hcancelled) rfl
    · rintro h id' check hcheck hcancelled rfl
      simp [h check hcheck] at hcancelled
  refine ⟨sequenceContainer, checks, heq, ?_, ?_⟩
  · intro id
    rw [hallocated, hkept]
  · intro id check
    rw [hchecks, hkept, mem_active]
    constructor
    · rintro ⟨hcheck, h⟩
      exact ⟨hcheck, h check hcheck⟩
    · rintro ⟨hcheck, hactive⟩
      refine ⟨hcheck, ?_⟩
      intro check' hcheck'
      obtain rfl : check = check' := Option.some.inj (hcheck.symm.trans hcheck')
      exact hactive

end Logic

/-! ### Connections that are replaced -/

/-- What the client does when its connection is lost. -/
inductive ConnectionOp where
  | onDisconnected
  | connect (attempt : Attempt)
  /-- a connection that was in progress has failed -/
  | completionFailed

namespace Logic

/-- A new connection is tried if there is none. -/
def ensureConnectionOps (net : Net) (σ : Logic) : List ConnectionOp :=
  if σ.socketClient.isConnected net.alive then [] else [.onDisconnected, .connect net.attempt]

/-- A flush of the monitor needs a connection if there is something to send. -/
def flushMonitorOps (net : Net) (σ : Logic) : List ConnectionOp :=
  if ¬ σ.monitoringEnabled then []
  else if σ.monitorCache.entries.isEmpty then []
  else σ.ensureConnectionOps net

/-- An update of the monitor may be followed by a flush. -/
def updateMonitorOps (policyKey : ValidKey) (result : Int32) (clock : Clock) (net : Net)
    (σ : Logic) : List ConnectionOp :=
  if ¬ σ.monitoringEnabled then []
  else
    let σ := { σ with monitorCache := σ.monitorCache.update policyKey result clock }
    if σ.monitorCache.shouldFlush then σ.flushMonitorOps net else []

/-- A look at the cache may cause an update and a flush. -/
def checkCacheOps (key : ValidKey) (cached : Int32) (clock : Clock) (alive : Bool)
    (net net' : Net) (σ : Logic) : List ConnectionOp :=
  if ¬ σ.operationPermitted then []
  else if ¬ σ.socketClient.isConnected alive then []
  else if σ.monitoringEnabled then
    let (updated, ops) :=
      if cached ≠ CYNARA_API_CACHE_MISS then
        (σ.updateMonitor key cached clock net, σ.updateMonitorOps key cached clock net)
      else (.returned σ, [])
    if updated.thrown = none ∧ updated.state.monitorCache.shouldFlush then
      ops ++ updated.state.flushMonitorOps net'
    else ops
  else []

/-- The same for `createRequest` and `cancelRequest`. -/
def callOps (net : Net) (σ : Logic) : List ConnectionOp :=
  if ¬ σ.operationPermitted then [] else σ.ensureConnectionOps net

/-- An answer is noted in the monitor, unless its check has been cancelled or is unknown. -/
def processResponseOps (response : Response) (cached : Int32) (clock : Clock) (net : Net)
    (σ : Logic) : List ConnectionOp :=
  match response with
  | .check _ id =>
      match σ.checks[id]? with
      | none => []
      | some check => (σ.releaseRequest id).updateMonitorOps check.key cached clock net
  | _ => []

/-- A connection that was in progress may turn out to have failed. -/
def completeConnectionOps (ready alive : Bool) (σ : Logic) : List ConnectionOp :=
  if (σ.socketClient.completeConnection ready alive).1 = .CONNECTION_FAILED then
    [.completionFailed, .onDisconnected]
  else []

end Logic

namespace Logic

/-! ### What the client does -/

/-- Nothing happens to the checks and to the connection, and only requests of the monitor are
queued. -/
structure Still (σ σ' : Logic) : Prop where
  checks : σ'.checks = σ.checks
  sequenceContainer : σ'.sequenceContainer = σ.sequenceContainer
  connection : σ'.connection = σ.connection
  opened : σ'.socketClient.opened = σ.socketClient.opened
  requests : ∃ rs, σ'.socketClient.requests = σ.socketClient.requests ++ rs ∧
    ∀ r ∈ rs, isMonitorRequest r

/-- No callback is called either. -/
structure Quiet (σ σ' : Logic) : Prop extends Still σ σ' where
  created : σ'.created = σ.created
  calls : σ'.calls = σ.calls
  inProgress : σ'.socketClient.connectionInProgress → σ.socketClient.connectionInProgress

/-- What the client does while it keeps its connection.  The lists have the numbers of the checks
that are held. -/
inductive Act : List ℕ → Logic → List ℕ → Logic → Prop
  | quiet {held : List ℕ} {σ σ' : Logic} : Quiet σ σ' → Act held σ held σ'
  | create {held : List ℕ} {σ : Logic} {id : UInt16} {sequenceContainer : SequenceContainer}
      (simple : Bool) (key : ValidKey) (session : ClientSession) : σ.connection.isSome →
      σ.sequenceContainer.get = some (id, sequenceContainer) →
      Act held σ held (σ.insertCheck simple key session id sequenceContainer)
  | cancel {held : List ℕ} {σ : Logic} {id : UInt16} {check : CheckData} : σ.connection.isSome →
      σ.checks[id]? = some check → check.cancelled = false →
      Act held σ held (σ.cancelCheck id check)
  /-- the callback of a check that is held is called -/
  | answer {held : List ℕ} {σ : Logic} (id : UInt16) (check : CheckData) (result : Int32) :
      Act (check.number :: held) σ held (σ.call id .CYNARA_CALL_CAUSE_ANSWER result check)

/-- Several such things, one after the other, and the connections that are made between them. -/
inductive Does : List ConnectionOp → List ℕ → Logic → List ℕ → Logic → Prop
  | refl {held : List ℕ} {σ : Logic} : Does [] held σ held σ
  | act {ops : List ConnectionOp} {held held₁ held' : List ℕ} {σ σ₁ σ' : Logic} :
      Does ops held σ held₁ σ₁ → Act held₁ σ₁ held' σ' → Does ops held σ held' σ'
  | connect {ops : List ConnectionOp} {held held' : List ℕ} {σ σ' : Logic} (attempt : Attempt) :
      Does ops held σ held' σ' → σ'.socketClient.connectionInProgress = false →
      Does (ops ++ [.onDisconnected, .connect attempt]) held σ
        held' (σ'.onDisconnected.connect attempt).2
  | fail {ops : List ConnectionOp} {held held' : List ℕ} {σ σ' : Logic} {s : SocketClient} :
      Does ops held σ held' σ' → s.opened = false → s.connectionInProgress = false →
      Does (ops ++ [.completionFailed, .onDisconnected]) held σ
        held' (onServiceNotAvailable { σ' with socketClient := s, connection := none })

variable {σ σ' σ₁ : Logic} {held held' held₁ : List ℕ} {net net' : Net}
  {ops ops' : List ConnectionOp}

/-- Changes of the fields that no check and no connection is about. -/
theorem Still.of_socketClient (hchecks : σ'.checks = σ.checks)
    (hcontainer : σ'.sequenceContainer = σ.sequenceContainer)
    (hconnection : σ'.connection = σ.connection) (hsocket : σ'.socketClient = σ.socketClient) :
  Still σ σ'
  := by
  refine ⟨hchecks, hcontainer, hconnection, ?_, [], ?_⟩
  · rw [hsocket]
  · simp [hsocket]

theorem Quiet.of_socketClient (hchecks : σ'.checks = σ.checks)
    (hcontainer : σ'.sequenceContainer = σ.sequenceContainer) (hcreated : σ'.created = σ.created)
    (hcalls : σ'.calls = σ.calls) (hconnection : σ'.connection = σ.connection)
    (hsocket : σ'.socketClient = σ.socketClient) :
  Quiet σ σ'
  := by
  refine ⟨.of_socketClient hchecks hcontainer hconnection hsocket, hcreated, hcalls, ?_⟩
  rw [hsocket]
  exact id

theorem Still.trans (h : Still σ σ₁) (h' : Still σ₁ σ') :
  Still σ σ'
  := by
  obtain ⟨rs, hrs, hmonitor⟩ := h.requests
  obtain ⟨rs', hrs', hmonitor'⟩ := h'.requests
  refine ⟨h'.checks.trans h.checks, h'.sequenceContainer.trans h.sequenceContainer,
    h'.connection.trans h.connection, h'.opened.trans h.opened, rs ++ rs', ?_, ?_⟩
  · rw [hrs', hrs, List.append_assoc]
  · exact List.forall_mem_append.mpr ⟨hmonitor, hmonitor'⟩

theorem Quiet.trans (h : Quiet σ σ₁) (h' : Quiet σ₁ σ') :
  Quiet σ σ'
  := ⟨h.toStill.trans h'.toStill, h'.created.trans h.created, h'.calls.trans h.calls,
    fun hprogress => h.inProgress (h'.inProgress hprogress)⟩

theorem Does.quiet (h : Quiet σ σ') :
  Does [] held σ held σ'
  := .act .refl (.quiet h)

theorem Does.trans (h : Does ops held σ held₁ σ₁) (h' : Does ops' held₁ σ₁ held' σ') :
  Does (ops ++ ops') held σ held' σ'
  := by
  induction h' with
  | refl =>
      rw [List.append_nil]
      exact h
  | act _ hact ih => exact (ih h).act hact
  | connect attempt _ hprogress ih =>
      rw [← List.append_assoc]
      exact (ih h).connect attempt hprogress
  | fail _ hopened hprogress ih =>
      rw [← List.append_assoc]
      exact (ih h).fail hopened hprogress

/-! ### The functions of the client -/

theorem quiet_onDisconnected (σ : Logic) :
  Quiet σ σ.onDisconnected
  := .of_socketClient rfl rfl rfl rfl rfl rfl

theorem quiet_onStatusChange (σ : Logic) :
  Quiet σ σ.onStatusChange
  := .of_socketClient rfl rfl rfl rfl rfl rfl

theorem not_inProgress_of_not_isConnected {alive : Bool}
    (h : ¬ σ.socketClient.isConnected alive = true) :
  σ.socketClient.connectionInProgress = false
  := by
  simp only [SocketClient.isConnected, Bool.or_eq_true, not_or, Bool.not_eq_true] at h
  exact h.1

/-- A connection is made only where it is said. -/
theorem does_ensureConnection (held : List ℕ) (net : Net) (σ : Logic) :
  Does (σ.ensureConnectionOps net) held σ held (σ.ensureConnection net).2
  := by
  unfold ensureConnectionOps ensureConnection
  split
  · exact .refl
  · rename_i hconnected
    exact .connect net.attempt .refl (not_inProgress_of_not_isConnected hconnected)

theorem requests_appendRequest (r : Request) (σ : Logic) :
  (σ.appendRequest r).socketClient.requests = σ.socketClient.requests ++ [r]
  := by
  simp [appendRequest, SocketClient.appendRequest, SocketClient.requests]

theorem quiet_appendRequest {r : Request} (hr : isMonitorRequest r) (σ : Logic) :
  Quiet σ (σ.appendRequest r)
  := by
  refine ⟨⟨rfl, rfl, rfl, rfl, [r], requests_appendRequest r σ, ?_⟩, rfl, rfl, id⟩
  rw [List.forall_mem_singleton]
  exact hr

/-- A flush of the monitor does nothing else than to make a connection, and to queue a request. -/
theorem does_flushMonitor (held : List ℕ) (net : Net) (σ : Logic) :
  Does (σ.flushMonitorOps net) held σ held (σ.flushMonitor net).state
  := by
  unfold flushMonitorOps flushMonitor
  split
  · exact .refl
  · split
    · exact .refl
    · have hensure := does_ensureConnection held net σ
      generalize σ.ensureConnection net = result at hensure
      obtain ⟨connected, σ₁⟩ := result
      cases connected with
      | none => exact hensure
      | some connected =>
          cases connected with
          | false => exact hensure
          | true =>
              apply hensure.act
              apply Act.quiet
              apply (quiet_appendRequest _ σ₁).trans
              · exact .of_socketClient rfl rfl rfl rfl rfl rfl
              · rfl

theorem does_updateMonitor (held : List ℕ) (key : ValidKey) (result : Int32) (clock : Clock)
    (net : Net) (σ : Logic) :
  Does (σ.updateMonitorOps key result clock net) held σ held
    (σ.updateMonitor key result clock net).state
  := by
  unfold updateMonitorOps updateMonitor
  split
  · exact .refl
  · have hupdate : Does [] held σ held
        { σ with monitorCache := σ.monitorCache.update key result clock } :=
      .quiet (.of_socketClient rfl rfl rfl rfl rfl rfl)
    change Does (ite _ _ _) held σ held (ite _ _ _ : Outcome Unit Logic).state
    split
    · exact hupdate.trans (does_flushMonitor held net _)
    · exact hupdate

/-- The second flush of `checkCache`. -/
theorem Does.andFlush {o : Outcome Unit Logic} (h : Does ops held σ held o.state) :
  Does
    (if o.thrown = none ∧ o.state.monitorCache.shouldFlush then
      ops ++ o.state.flushMonitorOps net'
    else ops) held σ held
    (o.andThen fun σ =>
      if σ.monitorCache.shouldFlush then σ.flushMonitor net' else .returned σ).state
  := by
  cases hthrown : o.thrown with
  | some e =>
      rw [Outcome.andThen_of_thrown hthrown, if_neg nofun]
      exact h
  | none =>
      rw [Outcome.andThen_of_returned hthrown]
      simp only [true_and]
      split
      · exact h.trans (does_flushMonitor held net' _)
      · exact h

theorem does_checkCache (held : List ℕ) (key : ValidKey) (cached : Int32) (clock : Clock)
    (alive : Bool) (net net' : Net) (σ : Logic) :
  Does (σ.checkCacheOps key cached clock alive net net') held σ held
    (σ.checkCache key cached clock alive net net').2
  := by
  unfold checkCacheOps checkCache
  split
  · exact .refl
  · split
    · exact .refl
    · split
      · by_cases hmiss : cached ≠ CYNARA_API_CACHE_MISS
        · simp only [if_pos hmiss]
          exact (does_updateMonitor held key cached clock net σ).andFlush
        · simp only [if_neg hmiss]
          exact Does.andFlush (o := .returned σ) .refl
      · exact .refl

/-- Where a client goes on after it has looked for its connection, there is one. -/
theorem isSome_connection_ensureConnection (net : Net)
    (hlinked : σ.socketClient.opened ∨ σ.socketClient.connectionInProgress →
      σ.connection.isSome) (h : (σ.ensureConnection net).1 = some true) :
  (σ.ensureConnection net).2.connection.isSome
  := by
  have hprepare : ∀ σ : Logic, σ.prepareRequestsToSend.connection = σ.connection := by
    intro σ
    obtain ⟨sequenceContainer, checks, heq, -⟩ := prepareRequestsToSend_eq σ
    rw [heq]
  unfold ensureConnection at h ⊢
  split
  · rename_i hconnected
    simp only [SocketClient.isConnected, Bool.or_eq_true, Bool.and_eq_true] at hconnected
    exact hlinked (hconnected.symm.imp_left And.left)
  · rename_i hconnected
    rw [if_neg hconnected] at h
    cases hattempt : net.attempt with
    | succeeded => exact congrArg Option.isSome (hprepare _)
    | inProgress => exact congrArg Option.isSome (hprepare _)
    | failed =>
        rw [hattempt] at h
        cases h
    | thrown =>
        rw [hattempt] at h
        cases h

/-- A check is created over a connection. -/
theorem does_createRequest (held : List ℕ)
    (hlinked : σ.socketClient.opened ∨ σ.socketClient.connectionInProgress →
      σ.connection.isSome)
    (simple : Bool) (key : ValidKey) (session : ClientSession) (net : Net) :
  Does (σ.callOps net) held σ held (σ.createRequest simple key session net).2
  := by
  unfold callOps createRequest
  split
  · exact .refl
  · have hensure := does_ensureConnection held net σ
    have hsome := isSome_connection_ensureConnection net hlinked
    generalize σ.ensureConnection net = result at hensure hsome
    obtain ⟨connected, σ₁⟩ := result
    cases connected with
    | none => exact hensure
    | some connected =>
        cases connected with
        | false => exact hensure
        | true =>
            cases hget : σ₁.sequenceContainer.get with
            | none =>
                simp only [hget]
                exact hensure
            | some result =>
                simp only [hget]
                exact hensure.act (.create simple key session (hsome rfl) hget)

/-- A check is cancelled over a connection. -/
theorem does_cancelRequest (held : List ℕ)
    (hlinked : σ.socketClient.opened ∨ σ.socketClient.connectionInProgress →
      σ.connection.isSome) (checkId : UInt16) (net : Net) :
  Does (σ.callOps net) held σ held (σ.cancelRequest checkId net).2
  := by
  unfold callOps cancelRequest
  split
  · exact .refl
  · have hensure := does_ensureConnection held net σ
    have hsome := isSome_connection_ensureConnection net hlinked
    generalize σ.ensureConnection net = result at hensure hsome
    obtain ⟨connected, σ₁⟩ := result
    cases connected with
    | none => exact hensure
    | some connected =>
        cases connected with
        | false => exact hensure
        | true =>
            cases hcheck : σ₁.checks[checkId]? with
            | none =>
                simp only [hcheck]
                exact hensure
            | some check =>
                simp only [hcheck]
                split
                · exact hensure
                · rename_i hcancelled
                  exact hensure.act (.cancel (hsome rfl) hcheck (by simpa using hcancelled))

/-- The callback of a check that is held is called. -/
theorem does_answerCheck (held : List ℕ) (id : UInt16) (check : CheckData) (result : Int32)
    (σ : Logic) :
  Does [] (if check.cancelled then held else check.number :: held) σ
    held (σ.answerCheck id check result).2
  := by
  unfold answerCheck
  split
  · exact .refl
  · have hflag : Quiet σ { σ with inAnswerCancelResponseCallback := true } :=
      .of_socketClient rfl rfl rfl rfl rfl rfl
    exact (Does.quiet hflag).act (.answer id check result)

/-- The four ways in which a connection that was in progress goes on. -/
theorem completeConnection_cases (ready alive : Bool) (s : SocketClient) :
  s.connectionInProgress = false ∧ s.completeConnection ready alive = (.ALREADY_CONNECTED, s)
    ∨ s.completeConnection ready alive = (.CONNECTION_IN_PROGRESS, s)
    ∨ s.completeConnection ready alive
        = (.CONNECTION_SUCCEEDED, { s with connectionInProgress := false })
    ∨ s.completeConnection ready alive
        = (.CONNECTION_FAILED,
          { s with connectionInProgress := false, opened := false, writeQueue := [] })
  := by
  unfold SocketClient.completeConnection
  split
  · rename_i hprogress
    exact Or.inl ⟨by simpa using hprogress, rfl⟩
  · split
    · exact Or.inr (Or.inl rfl)
    · cases halive : SocketClient.isConnected alive { s with connectionInProgress := false } with
      | true => exact Or.inr (Or.inr (Or.inl (if_pos halive)))
      | false => exact Or.inr (Or.inr (Or.inr (if_neg (by simp [halive]))))

theorem does_completeConnection (held : List ℕ) (ready alive : Bool) (σ : Logic) :
  Does (σ.completeConnectionOps ready alive) held σ held (σ.completeConnection ready alive).2
  := by
  unfold completeConnectionOps
  rcases completeConnection_cases ready alive σ.socketClient with ⟨-, h⟩ | h | h | h
  · simp only [completeConnection, h]
    exact .refl
  · simp only [completeConnection, h]
    exact .refl
  · simp only [completeConnection, h]
    apply Does.quiet
    refine ⟨⟨rfl, rfl, rfl, rfl, [], ?_⟩, rfl, rfl, ?_⟩
    · simp [SocketClient.requests, onStatusChange]
    · simp [onStatusChange]
  · simp only [completeConnection, h]
    exact .fail (.quiet (quiet_onDisconnected σ)) rfl rfl

theorem not_inProgress_of_completed (ready alive : Bool) (σ : Logic)
    (h : (σ.completeConnection ready alive).1 = true) :
  (σ.completeConnection ready alive).2.socketClient.connectionInProgress = false
  := by
  rcases completeConnection_cases ready alive σ.socketClient with ⟨hprogress, heq⟩ | heq | heq | heq
  · simp only [completeConnection, heq]
    exact hprogress
  · simp [completeConnection, heq] at h
  · simp only [completeConnection, heq]
    rfl
  · simp [completeConnection, heq] at h

theorem requests_sendToCynara (status : Option SendStatus) (count : ℕ) (s : SocketClient) :
  (s.sendToCynara status count).requests = s.requests
  := by
  simp only [SocketClient.sendToCynara, SocketClient.requests, List.append_nil]
  rw [List.append_assoc, List.take_append_drop, List.append_assoc]

theorem quiet_sendToCynara (status : Option SendStatus) (count : ℕ) (σ : Logic) :
  Quiet σ { σ with socketClient := σ.socketClient.sendToCynara status count }
  := by
  refine ⟨⟨rfl, rfl, rfl, rfl, [], ?_, by simp⟩, rfl, rfl, id⟩
  rw [List.append_nil]
  exact requests_sendToCynara status count σ.socketClient

theorem quiet_processOut (status : Option SendStatus) (count : ℕ) (σ : Logic) :
  Quiet σ (σ.processOut status count).2
  := by
  have hsend := quiet_sendToCynara status count σ
  unfold processOut
  rcases status with _ | _ | _ | _
  · exact hsend
  · exact hsend.trans (quiet_onStatusChange _)
  · exact hsend
  · exact hsend

theorem inProgress_processOut (status : Option SendStatus) (count : ℕ) (σ : Logic) :
  (σ.processOut status count).2.socketClient.connectionInProgress =
    σ.socketClient.connectionInProgress
  := by
  unfold processOut
  rcases status with _ | _ | _ | _
  · rfl
  · rfl
  · rfl
  · rfl

theorem quiet_tryFlushMonitor (status : Option SendStatus) (count : ℕ) (σ : Logic) :
  Quiet σ (σ.tryFlushMonitor status count).state
  := by
  unfold tryFlushMonitor
  split
  · apply Quiet.trans _ (quiet_sendToCynara status count _)
    apply List.foldlRecOn σ.monitorCache.entries _ (motive := Quiet σ)
    · exact .of_socketClient rfl rfl rfl rfl rfl rfl
    · intro σ' hσ' entry _
      apply (hσ'.trans (quiet_appendRequest _ σ')).trans
      · exact .of_socketClient rfl rfl rfl rfl rfl rfl
      · rfl
  · exact .of_socketClient rfl rfl rfl rfl rfl rfl

/-- The end of the client only calls the callbacks that are left. -/
theorem still_finish (σ : Logic) :
  Still σ σ.finish
  := by
  rw [finish, callAll_eq]
  exact .of_socketClient rfl rfl rfl rfl

/-! ### Responses -/

/-- There is a check for the response, as `checkResponseValid` demands; for the response to a
cancellation, the check has been cancelled. -/
def expects (response : Response) (σ : Logic) : Bool :=
  match σ.checks[response.sequenceNumber]?, response with
  | none, _ => false
  | some check, .cancel _ => check.cancelled
  | some _, _ => true

theorem exists_of_expects {response : Response} (h : σ.expects response = true) :
  ∃ check, σ.checks[response.sequenceNumber]? = some check
  := by
  unfold expects at h
  cases hcheck : σ.checks[response.sequenceNumber]? with
  | none => simp [hcheck] at h
  | some check => exact ⟨check, rfl⟩

/-- A response that is not expected is refused with an exception. -/
theorem processResponse_of_not_expects {response : Response} (h : σ.expects response = false)
    (cached : Int32) (clock : Clock) (net : Net) :
  σ.processResponseOps response cached clock net = [] ∧
    σ.processResponse response cached clock net = (.threw, σ)
  := by
  cases response with
  | check result id =>
      cases hcheck : σ.checks[id]? with
      | none => simp [hcheck, processResponseOps, processResponse, processCheckResponse]
      | some check => simp [expects, Response.sequenceNumber, hcheck] at h
  | cancel id =>
      cases hcheck : σ.checks[id]? with
      | none => simp [hcheck, processResponseOps, processResponse, processCancelResponse]
      | some check =>
          have hactive : check.cancelled = false := by
            simpa [expects, Response.sequenceNumber, hcheck] using h
          simp [hcheck, hactive, processResponseOps, processResponse, processCancelResponse]
  | simpleCheck retValue result id =>
      cases hcheck : σ.checks[id]? with
      | none => simp [hcheck, processResponseOps, processResponse, processSimpleCheckResponse]
      | some check => simp [expects, Response.sequenceNumber, hcheck] at h

/-- The check of a response that is expected is released before anything else happens.  It is held
for ever if the monitor throws an exception. -/
theorem does_processResponse (held : List ℕ) {response : Response} {check : CheckData}
    (h : σ.expects response = true) (hcheck : σ.checks[response.sequenceNumber]? = some check)
    (cached : Int32) (clock : Clock) (net : Net) :
  ∃ held', Does (σ.processResponseOps response cached clock net)
      (if check.cancelled then held else check.number :: held)
      (σ.releaseRequest response.sequenceNumber)
      held' (σ.processResponse response cached clock net).2 ∧
    (held' = held ∨ ∃ result id, response = .check result id ∧ check.cancelled = false ∧
      ((σ.releaseRequest id).updateMonitor check.key cached clock net).thrown.isSome)
  := by
  cases response with
  | check result id =>
      rw [Response.sequenceNumber] at hcheck
      simp only [processResponseOps, processResponse, processCheckResponse, hcheck,
        Response.sequenceNumber]
      have hupdate := fun held => does_updateMonitor held check.key cached clock net
        (σ.releaseRequest id)
      cases hthrown : ((σ.releaseRequest id).updateMonitor check.key cached clock net).thrown with
      | some _ =>
          refine ⟨_, hupdate _, ?_⟩
          cases hcancelled : check.cancelled with
          | true => exact Or.inl rfl
          | false => exact Or.inr ⟨result, id, rfl, rfl, by simp [hthrown]⟩
      | none =>
          refine ⟨held, ?_, Or.inl rfl⟩
          have hanswered := (hupdate _).trans (does_answerCheck held id check cached _)
          rw [List.append_nil] at hanswered
          exact hanswered
  | cancel id =>
      rw [Response.sequenceNumber] at hcheck
      have hcancelled : check.cancelled = true := by
        simpa [expects, Response.sequenceNumber, hcheck] using h
      refine ⟨held, ?_, Or.inl rfl⟩
      simp only [processResponseOps, processResponse, processCancelResponse, hcheck, hcancelled,
        Response.sequenceNumber, not_true_eq_false, if_true, if_false]
      exact .refl
  | simpleCheck retValue result id =>
      rw [Response.sequenceNumber] at hcheck
      simp only [processResponseOps, processResponse, processSimpleCheckResponse, hcheck,
        Response.sequenceNumber]
      exact ⟨held, does_answerCheck held id check _ _, Or.inl rfl⟩

/-! ### Nested callbacks -/

/-- What the connection does not concern. -/
structure Apart (σ σ' : Logic) : Prop where
  inCallback : σ'.inAnswerCancelResponseCallback = σ.inAnswerCancelResponseCallback
  created : σ'.created = σ.created
  monitorCache : σ'.monitorCache = σ.monitorCache

theorem apart_prepareRequestsToSend (σ : Logic) :
  Apart σ σ.prepareRequestsToSend
  := by
  obtain ⟨sequenceContainer, checks, heq, -⟩ := prepareRequestsToSend_eq σ
  rw [heq]
  exact ⟨rfl, rfl, rfl⟩

theorem apart_onServiceNotAvailable (σ : Logic) :
  Apart σ σ.onServiceNotAvailable
  := by
  rw [onServiceNotAvailable, callAll_eq]
  exact ⟨rfl, rfl, rfl⟩

theorem apart_connect (attempt : Attempt) (σ : Logic) :
  Apart σ (σ.connect attempt).2
  := by
  cases attempt with
  | succeeded =>
      constructor
      · exact (apart_prepareRequestsToSend _).inCallback
      · exact (apart_prepareRequestsToSend _).created
      · exact (apart_prepareRequestsToSend _).monitorCache
  | inProgress =>
      constructor
      · exact (apart_prepareRequestsToSend _).inCallback
      · exact (apart_prepareRequestsToSend _).created
      · exact (apart_prepareRequestsToSend _).monitorCache
  | failed =>
      constructor
      · exact (apart_onServiceNotAvailable _).inCallback
      · exact (apart_onServiceNotAvailable _).created
      · exact (apart_onServiceNotAvailable _).monitorCache
  | thrown => exact ⟨rfl, rfl, rfl⟩

theorem apart_ensureConnection (net : Net) (σ : Logic) :
  Apart σ (σ.ensureConnection net).2
  := by
  unfold ensureConnection
  split
  · exact ⟨rfl, rfl, rfl⟩
  · have hconnect := apart_connect net.attempt σ.onDisconnected
    exact ⟨hconnect.inCallback, hconnect.created, hconnect.monitorCache⟩

theorem inCallback_flushMonitor (net : Net) (σ : Logic) :
  (σ.flushMonitor net).state.inAnswerCancelResponseCallback = σ.inAnswerCancelResponseCallback
  := by
  unfold flushMonitor
  split
  · rfl
  · split
    · rfl
    · have hensure := (apart_ensureConnection net σ).inCallback
      generalize σ.ensureConnection net = result at hensure
      obtain ⟨connected, σ₁⟩ := result
      rcases connected with _ | _ | _
      · exact hensure
      · exact hensure
      · exact hensure

theorem inCallback_updateMonitor (key : ValidKey) (result : Int32) (clock : Clock) (net : Net)
    (σ : Logic) :
  (σ.updateMonitor key result clock net).state.inAnswerCancelResponseCallback =
    σ.inAnswerCancelResponseCallback
  := by
  unfold updateMonitor
  split
  · rfl
  · change (ite _ _ _ : Outcome Unit Logic).state.inAnswerCancelResponseCallback = _
    split
    · exact inCallback_flushMonitor net _
    · rfl

theorem inCallback_checkCache (key : ValidKey) (cached : Int32) (clock : Clock) (alive : Bool)
    (net net' : Net) (σ : Logic) :
  (σ.checkCache key cached clock alive net net').2.inAnswerCancelResponseCallback =
    σ.inAnswerCancelResponseCallback
  := by
  unfold checkCache
  split
  · rfl
  · split
    · rfl
    · split
      · apply Outcome.andThen_state (P := fun σ' : Logic => σ'.inAnswerCancelResponseCallback =
          σ.inAnswerCancelResponseCallback)
        · split
          · exact inCallback_updateMonitor key cached clock net σ
          · rfl
        · intro σ' hσ'
          split
          · exact (inCallback_flushMonitor net' σ').trans hσ'
          · exact hσ'
      · rfl

theorem inCallback_createRequest (simple : Bool) (key : ValidKey) (session : ClientSession)
    (net : Net) (σ : Logic) :
  (σ.createRequest simple key session net).2.inAnswerCancelResponseCallback =
    σ.inAnswerCancelResponseCallback
  := by
  unfold createRequest
  split
  · rfl
  · have hensure := (apart_ensureConnection net σ).inCallback
    generalize σ.ensureConnection net = result at hensure
    obtain ⟨connected, σ₁⟩ := result
    rcases connected with _ | _ | _
    · exact hensure
    · exact hensure
    · cases hget : σ₁.sequenceContainer.get with
      | none =>
          simp only [hget]
          exact hensure
      | some result =>
          simp only [hget]
          exact hensure

/-- A function that calls a callback says whether this happens in another one. -/
def Nests (σ : Logic) (result : Control × Logic) : Prop :=
  match result.1 with
  | .callback onAnswerCancel =>
      onAnswerCancel = σ.inAnswerCancelResponseCallback ∧
        result.2.inAnswerCancelResponseCallback = true
  | _ => result.2.inAnswerCancelResponseCallback = σ.inAnswerCancelResponseCallback

theorem nests_cancelRequest (checkId : UInt16) (net : Net) (σ : Logic) :
  σ.Nests (σ.cancelRequest checkId net)
  := by
  unfold cancelRequest
  split
  · rfl
  · have hensure := (apart_ensureConnection net σ).inCallback
    generalize σ.ensureConnection net = result at hensure
    obtain ⟨connected, σ₁⟩ := result
    rcases connected with _ | _ | _
    · exact hensure
    · exact hensure
    · cases hcheck : σ₁.checks[checkId]? with
      | none =>
          simp only [hcheck]
          exact hensure
      | some check =>
          simp only [hcheck]
          split
          · exact hensure
          · exact ⟨hensure, rfl⟩

theorem nests_answerCheck {σ₀ : Logic} (id : UInt16) (check : CheckData) (result : Int32)
    (h : σ.inAnswerCancelResponseCallback = σ₀.inAnswerCancelResponseCallback) :
  σ₀.Nests (σ.answerCheck id check result)
  := by
  unfold answerCheck
  split
  · exact h
  · exact ⟨h, rfl⟩

theorem nests_processResponse (response : Response) (cached : Int32) (clock : Clock) (net : Net)
    (σ : Logic) :
  σ.Nests (σ.processResponse response cached clock net)
  := by
  cases response with
  | check result id =>
      change σ.Nests (σ.processCheckResponse id cached clock net)
      unfold processCheckResponse
      split
      · rfl
      · rename_i check hcheck
        have hupdate := inCallback_updateMonitor check.key cached clock net (σ.releaseRequest id)
        cases hthrown :
            ((σ.releaseRequest id).updateMonitor check.key cached clock net).thrown with
        | some _ =>
            simp only [hthrown]
            exact hupdate
        | none =>
            simp only [hthrown]
            exact nests_answerCheck id check cached hupdate
  | cancel id =>
      change σ.Nests (σ.processCancelResponse id)
      unfold processCancelResponse
      split
      · rfl
      · split
        · rfl
        · rfl
  | simpleCheck retValue result id =>
      change σ.Nests (σ.processSimpleCheckResponse id retValue cached)
      unfold processSimpleCheckResponse
      split
      · rfl
      · exact nests_answerCheck id _ _ rfl

theorem inCallback_completeConnection (ready alive : Bool) (σ : Logic) :
  (σ.completeConnection ready alive).2.inAnswerCancelResponseCallback =
    σ.inAnswerCancelResponseCallback
  := by
  rcases completeConnection_cases ready alive σ.socketClient with ⟨-, h⟩ | h | h | h
  · simp only [completeConnection, h]
  · simp only [completeConnection, h]
  · simp only [completeConnection, h]
    rfl
  · simp only [completeConnection, h, onServiceNotAvailable, callAll_eq]
    rfl

theorem inCallback_processOut (status : Option SendStatus) (count : ℕ) (σ : Logic) :
  (σ.processOut status count).2.inAnswerCancelResponseCallback = σ.inAnswerCancelResponseCallback
  := by
  unfold processOut
  rcases status with _ | _ | _ | _
  · rfl
  · rfl
  · rfl
  · rfl

theorem inCallback_tryFlushMonitor (status : Option SendStatus) (count : ℕ) (σ : Logic) :
  (σ.tryFlushMonitor status count).state.inAnswerCancelResponseCallback =
    σ.inAnswerCancelResponseCallback
  := by
  unfold tryFlushMonitor
  split
  · apply List.foldlRecOn σ.monitorCache.entries _ (motive := fun σ' : Logic =>
      σ'.inAnswerCancelResponseCallback = σ.inAnswerCancelResponseCallback)
    · rfl
    · exact fun _ hflag _ _ => hflag
  · rfl

/-! ### The exception -/

theorem thrown_ensureConnection {net : Net} (h : (σ.ensureConnection net).1 = none) :
  σ.socketClient.isConnected net.alive = false ∧ net.attempt = .thrown
  := by
  unfold ensureConnection at h
  split at h
  · cases h
  · rename_i hconnected
    refine ⟨by simpa using hconnected, ?_⟩
    cases hattempt : net.attempt with
    | thrown => rfl
    | succeeded =>
        rw [hattempt] at h
        cases h
    | inProgress =>
        rw [hattempt] at h
        cases h
    | failed =>
        rw [hattempt] at h
        cases h

/-- A flush throws only if a connection is tried. -/
theorem thrown_flushMonitor {net : Net} (h : (σ.flushMonitor net).thrown.isSome) :
  σ.socketClient.isConnected net.alive = false ∧ net.attempt = .thrown
  := by
  apply thrown_ensureConnection
  unfold flushMonitor at h
  split at h
  · cases h
  · split at h
    · cases h
    · generalize σ.ensureConnection net = result at h
      obtain ⟨connected, σ₁⟩ := result
      rcases connected with _ | _ | _
      · rfl
      · cases h
      · cases h

/-- The monitor throws an exception only if it is due to be flushed, the connection has been
lost and the attempt to connect throws an exception. -/
theorem thrown_updateMonitor {key : ValidKey} {result : Int32} {clock : Clock} {net : Net}
    (h : (σ.updateMonitor key result clock net).thrown.isSome) :
  σ.monitoringEnabled ∧ (σ.monitorCache.update key result clock).shouldFlush ∧
    σ.socketClient.isConnected net.alive = false ∧ net.attempt = .thrown
  := by
  unfold updateMonitor at h
  split at h
  · cases h
  · rename_i henabled
    change (ite _ _ _ : Outcome Unit Logic).thrown.isSome at h
    split at h
    · rename_i hflush
      obtain ⟨hconnected, hattempt⟩ := thrown_flushMonitor h
      exact ⟨by simpa using henabled, hflush, hconnected, hattempt⟩
    · cases h

end Logic

end ClientAsync

end Cynara
