import Cynara.Client.AsyncRuns

/-!
# The connection of the asynchronous client

Whenever the client finds that its connection is lost it calls `onDisconnected`, which clears the
cache, and connects again.  A call of `checkCache` keeps a connection that stays alive.  A step of
the client is made up of the connections it makes, and of things that leave the connection alone.
-/

namespace Cynara

namespace ClientAsync

open Std ProtocolClient

namespace Client

/-- What happens to the connection in a step. -/
def ops (c : Client) : Event → List ConnectionOp
  | .createRequest _ key session net =>
      if isKeyValid key ∧ isStringValid session then c.logic.callOps net else []
  | .cancelRequest _ net => c.logic.callOps net
  | .checkCache key session cached clock alive net net' =>
      if h : isKeyValid key ∧ isStringValid session then
        c.logic.checkCacheOps ⟨key, isKeyValid_of_strings h⟩ cached clock alive net net'
      else []
  | .completeConnection ready alive => c.logic.completeConnectionOps ready alive
  | .processOut status _ attempt =>
      if status = some .CONNECTION_LOST then [.onDisconnected, .connect attempt] else []
  | .receiveFromCynara received attempt =>
      if received = some false then [.onDisconnected, .connect attempt] else []
  | .getResponse response cached clock net => c.logic.processResponseOps response cached clock net
  | _ => []

end Client

/-! ### The cache is cleared first -/

/-- If the connection is replaced, the cache is cleared. -/
def Clears (ops : List ConnectionOp) : Prop :=
  ops = [] ∨ .onDisconnected ∈ ops

theorem Clears.append {ops ops' : List ConnectionOp} (h : Clears ops) (h' : Clears ops') :
  Clears (ops ++ ops')
  := by
  rcases h with rfl | h
  · exact h'
  · exact Or.inr (List.mem_append_left _ h)

namespace Logic

theorem clears_ensureConnectionOps (net : Net) (σ : Logic) :
  Clears (σ.ensureConnectionOps net)
  := by
  unfold ensureConnectionOps
  split
  · exact Or.inl rfl
  · exact Or.inr List.mem_cons_self

theorem clears_flushMonitorOps (net : Net) (σ : Logic) :
  Clears (σ.flushMonitorOps net)
  := by
  unfold flushMonitorOps
  split
  · exact Or.inl rfl
  · split
    · exact Or.inl rfl
    · exact clears_ensureConnectionOps net σ

theorem clears_updateMonitorOps (key : ValidKey) (result : Int32) (clock : Clock) (net : Net)
    (σ : Logic) :
  Clears (σ.updateMonitorOps key result clock net)
  := by
  unfold updateMonitorOps
  split
  · exact Or.inl rfl
  · change Clears (ite _ _ _)
    split
    · exact clears_flushMonitorOps net _
    · exact Or.inl rfl

theorem clears_checkCacheOps (key : ValidKey) (cached : Int32) (clock : Clock) (alive : Bool)
    (net net' : Net) (σ : Logic) :
  Clears (σ.checkCacheOps key cached clock alive net net')
  := by
  unfold checkCacheOps
  split
  · exact Or.inl rfl
  · split
    · exact Or.inl rfl
    · split
      · by_cases hmiss : cached ≠ CYNARA_API_CACHE_MISS
        · simp only [if_pos hmiss]
          split
          · exact (clears_updateMonitorOps key cached clock net σ).append
              (clears_flushMonitorOps net' _)
          · exact clears_updateMonitorOps key cached clock net σ
        · simp only [if_neg hmiss]
          split
          · exact clears_flushMonitorOps net' _
          · exact Or.inl rfl
      · exact Or.inl rfl

theorem clears_callOps (net : Net) (σ : Logic) :
  Clears (σ.callOps net)
  := by
  unfold callOps
  split
  · exact Or.inl rfl
  · exact clears_ensureConnectionOps net σ

theorem clears_processResponseOps (response : Response) (cached : Int32) (clock : Clock)
    (net : Net) (σ : Logic) :
  Clears (σ.processResponseOps response cached clock net)
  := by
  unfold processResponseOps
  split
  · split
    · exact Or.inl rfl
    · exact clears_updateMonitorOps _ _ _ _ _
  · exact Or.inl rfl

end Logic

/-- In no step is the connection replaced without clearing the cache. -/
theorem Client.clears_ops (c : Client) (event : Event) :
  Clears (c.ops event)
  := by
  cases event with
  | createRequest simple key session net =>
      simp only [ops]
      split
      · exact Logic.clears_callOps net c.logic
      · exact Or.inl rfl
  | cancelRequest checkId net => exact Logic.clears_callOps net c.logic
  | checkCache key session cached clock alive net net' =>
      simp only [ops]
      split
      · exact Logic.clears_checkCacheOps _ cached clock alive net net' c.logic
      · exact Or.inl rfl
  | completeConnection ready alive =>
      simp only [ops, Logic.completeConnectionOps]
      split
      · exact Or.inr (by simp)
      · exact Or.inl rfl
  | processOut status count attempt =>
      simp only [ops]
      split
      · exact Or.inr List.mem_cons_self
      · exact Or.inl rfl
  | receiveFromCynara received attempt =>
      simp only [ops]
      split
      · exact Or.inr List.mem_cons_self
      · exact Or.inl rfl
  | getResponse response cached clock net =>
      exact Logic.clears_processResponseOps response cached clock net c.logic
  | _ => exact Or.inl rfl

/-! ### Connections that `checkCache` finds -/

theorem SocketClient.isConnected_mono {s : SocketClient} {alive alive' : Bool}
    (h : alive = true → alive' = true) (hconnected : s.isConnected alive = true) :
  s.isConnected alive' = true
  := by
  simp only [SocketClient.isConnected, Bool.or_eq_true, Bool.and_eq_true] at hconnected ⊢
  exact hconnected.imp_right fun hboth => ⟨hboth.1, h hboth.2⟩

namespace Logic

variable {σ : Logic} {net net' : Net}

theorem flushMonitorOps_of_isConnected (h : σ.socketClient.isConnected net.alive = true) :
  σ.flushMonitorOps net = []
  := by
  unfold flushMonitorOps
  split
  · rfl
  · split
    · rfl
    · rw [ensureConnectionOps, if_pos h]

theorem updateMonitorOps_of_isConnected {key : ValidKey} {result : Int32} {clock : Clock}
    (h : σ.socketClient.isConnected net.alive = true) :
  σ.updateMonitorOps key result clock net = []
  := by
  unfold updateMonitorOps
  split
  · rfl
  · change ite _ _ _ = []
    split
    · exact flushMonitorOps_of_isConnected h
    · rfl

theorem ensureConnection_of_ops (h : σ.ensureConnectionOps net = []) :
  σ.ensureConnection net = (some true, σ)
  := by
  unfold ensureConnectionOps at h
  split at h
  · rename_i hconnected
    rw [ensureConnection, if_pos hconnected]
  · cases h

/-- A flush that finds the connection only queues a request. -/
theorem socketClient_flushMonitor (h : σ.flushMonitorOps net = []) :
  ∃ queue, (σ.flushMonitor net).state.socketClient = { σ.socketClient with writeQueue := queue }
  := by
  unfold flushMonitorOps at h
  unfold flushMonitor
  split
  · exact ⟨_, rfl⟩
  · rename_i hmonitoring
    rw [if_neg hmonitoring] at h
    split
    · exact ⟨_, rfl⟩
    · rename_i hentries
      rw [if_neg hentries] at h
      rw [ensureConnection_of_ops h]
      exact ⟨_, rfl⟩

theorem socketClient_updateMonitor {key : ValidKey} {result : Int32} {clock : Clock}
    (h : σ.updateMonitorOps key result clock net = []) :
  ∃ queue, (σ.updateMonitor key result clock net).state.socketClient
    = { σ.socketClient with writeQueue := queue }
  := by
  unfold updateMonitorOps at h
  unfold updateMonitor
  split
  · exact ⟨_, rfl⟩
  · rename_i hmonitoring
    rw [if_neg hmonitoring] at h
    change ∃ queue, (ite _ _ _ : Outcome Unit Logic).state.socketClient = _
    change ite _ _ _ = [] at h
    split
    · rename_i hflush
      rw [if_pos hflush] at h
      exact socketClient_flushMonitor h
    · exact ⟨_, rfl⟩

/-- A connection that stays alive during `checkCache` is not replaced. -/
theorem checkCacheOps_of_alive {key : ValidKey} {cached : Int32} {clock : Clock} {alive : Bool}
    (hconnected : σ.socketClient.isConnected alive = true)
    (h : alive = true → net.alive = true ∧ net'.alive = true) :
  σ.checkCacheOps key cached clock alive net net' = []
  := by
  have hupdate : σ.updateMonitorOps key cached clock net = [] :=
    updateMonitorOps_of_isConnected
      (SocketClient.isConnected_mono (fun halive => (h halive).1) hconnected)
  have hlater : σ.socketClient.isConnected net'.alive = true :=
    SocketClient.isConnected_mono (fun halive => (h halive).2) hconnected
  unfold checkCacheOps
  split
  · rfl
  · split
    · by_cases hmiss : cached ≠ CYNARA_API_CACHE_MISS
      · obtain ⟨queue, hqueue⟩ := socketClient_updateMonitor hupdate
        simp only [if_pos hmiss, hupdate, List.nil_append]
        split
        · apply flushMonitorOps_of_isConnected
          rw [hqueue]
          exact hlater
        · rfl
      · simp only [if_neg hmiss, List.nil_append]
        split
        · exact flushMonitorOps_of_isConnected hlater
        · rfl
    · rfl

end Logic

/-! ### Steps of the client -/

/-- The functions of the client keep the connection unless they make another one. -/
theorem Logic.Does.opened {ops : List ConnectionOp} {held held' : List ℕ} {σ σ' : Logic}
    (h : Logic.Does ops held σ held' σ') (hops : ops = []) :
  σ'.socketClient.opened = σ.socketClient.opened
  := by
  induction h with
  | refl => rfl
  | act _ hact ih =>
      refine Eq.trans ?_ (ih hops)
      cases hact with
      | quiet hquiet => exact hquiet.opened
      | create simple key session _ _ => rfl
      | cancel _ _ _ => rfl
      | answer _ _ _ => rfl
  | connect attempt _ _ _ => simp at hops
  | fail _ _ _ _ => simp at hops

namespace Client

variable {c c' : Client} {event : Event}

/-- The check that an event answers has been released. -/
def released (c : Client) : Event → Logic
  | .getResponse response _ _ _ =>
      if c.logic.expects response then c.logic.releaseRequest response.sequenceNumber else c.logic
  | _ => c.logic

/-- A step of the client is made up of the things it does, and of what leaves its checks and its
connection alone. -/
def Does (ops : List ConnectionOp) (σ σ' : Logic) : Prop :=
  ∃ held held' σ₁, Logic.Does ops held σ held' σ₁ ∧ Logic.Still σ₁ σ'

theorem Does.of_logic {ops : List ConnectionOp} {held held' : List ℕ} {σ σ' : Logic}
    (h : Logic.Does ops held σ held' σ') :
  Does ops σ σ'
  := ⟨held, held', σ', h, (Logic.Quiet.of_socketClient rfl rfl rfl rfl rfl rfl).toStill⟩

theorem does_refl (σ : Logic) :
  Does [] σ σ
  := .of_logic (.refl : Logic.Does [] [] σ [] σ)

theorem does_quiet {σ σ' : Logic} (h : Logic.Quiet σ σ') :
  Does [] σ σ'
  := .of_logic (.quiet h : Logic.Does [] [] σ [] σ')

/-- A function that is called does what is said of it. -/
theorem does_perform (hexact : c.logic.Exact) (hstep : c.perform event = some c') :
  Does (c.ops event) c.logic c'.logic
  := by
  cases event with
  | createRequest simple key session net =>
      simp only [perform] at hstep
      simp only [ops]
      split at hstep
      · rename_i hvalid
        rw [if_pos hvalid]
        obtain rfl := Option.some.inj hstep
        exact .of_logic (Logic.does_createRequest [] hexact.linked simple _ session net)
      · rename_i hvalid
        rw [if_neg hvalid]
        obtain rfl := Option.some.inj hstep
        exact does_refl _
  | cancelRequest checkId net =>
      simp only [perform] at hstep
      have hdoes := Does.of_logic (Logic.does_cancelRequest [] hexact.linked checkId net)
      simp only [ops]
      split at hstep
      all_goals
        rename_i hresult
        obtain rfl := Option.some.inj hstep
        rw [hresult] at hdoes
        exact hdoes
  | checkCache key session cached clock alive net net' =>
      simp only [perform] at hstep
      simp only [ops]
      split at hstep
      · rename_i hvalid
        rw [dif_pos hvalid]
        obtain rfl := Option.some.inj hstep
        exact .of_logic (Logic.does_checkCache [] _ cached clock alive net net' c.logic)
      · rename_i hvalid
        rw [dif_neg hvalid]
        obtain rfl := Option.some.inj hstep
        exact does_refl _
  | process =>
      simp only [perform] at hstep
      split at hstep
      · obtain rfl := Option.some.inj hstep
        exact does_refl _
      · obtain rfl := Option.some.inj hstep
        exact does_refl _
  | finish status count =>
      simp only [perform] at hstep
      have hflush := Logic.quiet_tryFlushMonitor status count c.logic
      split at hstep
      · split at hstep
        · obtain rfl := Option.some.inj hstep
          exact does_quiet hflush
        · obtain rfl := Option.some.inj hstep
          exact ⟨[], [], _, .quiet hflush, Logic.still_finish _⟩
      · obtain rfl := Option.some.inj hstep
        exact does_refl _
  | _ => cases hstep

/-- `process` has lost the connection. -/
theorem does_reconnect (attempt : Attempt) {σ : Logic} (hquiet : Logic.Quiet c.logic σ)
    (hprogress : σ.socketClient.connectionInProgress = false) (stack : List Frame) :
  Does [.onDisconnected, .connect attempt] c.logic (c.reconnect attempt σ stack).logic
  := by
  have hdoes : Logic.Does [] [] c.logic [] σ := .quiet hquiet
  have hconnect := Does.of_logic (.connect attempt hdoes hprogress)
  unfold reconnect
  split
  · rename_i hresult
    rw [hresult] at hconnect
    exact hconnect
  · rename_i hresult
    rw [hresult] at hconnect
    exact hconnect

/-- The rest of a function that has been left for a callback does what is said of it. -/
theorem does_resume (hcompleted : Completed c.stack c.logic) (hstep : c.resume event = some c') :
  Does (c.ops event) (c.released event) c'.logic
  := by
  cases event with
  | callbackReturns =>
      simp only [resume] at hstep
      split at hstep
      · obtain rfl := Option.some.inj hstep
        exact does_quiet (.of_socketClient rfl rfl rfl rfl rfl rfl)
      · obtain rfl := Option.some.inj hstep
        exact does_quiet (.of_socketClient rfl rfl rfl rfl rfl rfl)
      · cases hstep
  | completeConnection ready alive =>
      simp only [resume] at hstep
      have hdoes := Does.of_logic (Logic.does_completeConnection [] ready alive c.logic)
      split at hstep
      · split at hstep
        all_goals
          rename_i hresult
          obtain rfl := Option.some.inj hstep
          rw [hresult] at hdoes
          exact hdoes
      · cases hstep
  | processOut status count attempt =>
      simp only [resume] at hstep
      have hquiet := Logic.quiet_processOut status count c.logic
      split at hstep
      · rename_i hstack
        rw [hstack] at hcompleted
        have hprogress := (Logic.inProgress_processOut status count c.logic).trans hcompleted
        rcases status with _ | _ | _ | _
        · obtain rfl := Option.some.inj hstep
          exact does_quiet hquiet
        · obtain rfl := Option.some.inj hstep
          exact does_quiet hquiet
        · obtain rfl := Option.some.inj hstep
          exact does_quiet hquiet
        · obtain rfl := Option.some.inj hstep
          exact does_reconnect attempt hquiet hprogress _
      · cases hstep
  | receiveFromCynara received attempt =>
      simp only [resume] at hstep
      split at hstep
      · rename_i hstack
        rw [hstack] at hcompleted
        rcases received with _ | _ | _
        · obtain rfl := Option.some.inj hstep
          exact does_refl _
        · obtain rfl := Option.some.inj hstep
          exact does_reconnect attempt (.of_socketClient rfl rfl rfl rfl rfl rfl) hcompleted _
        · obtain rfl := Option.some.inj hstep
          exact does_refl _
      · cases hstep
  | getResponse response cached clock net =>
      have hlogic : c'.logic = (c.logic.processResponse response cached clock net).2 := by
        simp only [resume] at hstep
        split at hstep
        · split at hstep
          all_goals
            rename_i hresult
            obtain rfl := Option.some.inj hstep
            rw [hresult]
        · cases hstep
      rw [hlogic]
      simp only [ops, released]
      cases hexpects : c.logic.expects response with
      | true =>
          obtain ⟨check, hcheck⟩ := Logic.exists_of_expects hexpects
          obtain ⟨held', hdoes, -⟩ :=
            Logic.does_processResponse [] hexpects hcheck cached clock net
          exact .of_logic hdoes
      | false =>
          obtain ⟨hops, hthrows⟩ := Logic.processResponse_of_not_expects hexpects cached clock net
          rw [hops, hthrows]
          exact does_refl _
  | noResponse =>
      simp only [resume] at hstep
      split at hstep
      · obtain rfl := Option.some.inj hstep
        exact does_refl _
      · cases hstep
  | _ => cases hstep

/-- What a step of the client is made up of. -/
theorem does_step {held : List ℕ} (hinv : Inv held c) (hstep : c.step event = some c') :
  Does (c.ops event) (c.released event) c'.logic
  := by
  have hperform : c.perform event = some c' → c.released event = c.logic := by
    intro hperform
    cases event with
    | getResponse response cached clock net => cases hperform
    | _ => rfl
  unfold step at hstep
  split at hstep
  · obtain h | ⟨-, hresume⟩ := Option.or_eq_some_iff.mp hstep
    · rw [hperform h]
      exact does_perform hinv.exact h
    · exact does_resume hinv.completed hresume
  · exact does_resume hinv.completed hstep

/-- A step that makes no connection keeps the one that is there. -/
theorem opened_step {held : List ℕ} (hinv : Inv held c) (hstep : c.step event = some c')
    (h : c.ops event = []) :
  c'.logic.socketClient.opened = c.logic.socketClient.opened
  := by
  have hreleased : (c.released event).socketClient = c.logic.socketClient := by
    unfold released
    split
    · split
      · rfl
      · rfl
    · rfl
  obtain ⟨_, _, σ₁, hdoes, hstill⟩ := does_step hinv hstep
  rw [hstill.opened, hdoes.opened h, hreleased]

end Client

end ClientAsync

end Cynara
