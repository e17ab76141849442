import Cynara.Client.Coherence
import Cynara.Client.SyncLogic
import Cynara.Service.Admin
import Cynara.Service.Verdicts
import Cynara.Storage.Check

/-!
# Changes of the policies and the synchronous client

The service and a synchronous client are put together.  While the client waits in one of its system
calls, the service goes on: it executes requests of administrators, accepts and closes connections
or is started again.  Before a change of the policies is answered, the connections of all clients
are closed.  A connection that has not been accepted yet is not among them, but nothing has been
answered over it either.

An answer of the client, from the cache or not, is one that the service would have given at some
moment between the call and the return: no answer outlives the policies it was given by.

This needs conditions on what happens while the client waits.  A request that is not answered with
`OK` must not have changed the policies, since the clients stay connected then.  A response that is
read must be the reply of the service to the check in question, given over the present connection.
And the monitor must not be flushed over a new connection between the reply and the update of the
cache: the result that belongs to the old connection is then cached for the new one.

`clear` has no plugins here: it returns, which the source does as long as the client has a plugin
for every policy type it has been answered with.
-/

namespace Cynara

open Std PredefinedPolicyType Recency

/-! ### The answers of the service -/

/-- The results of a plugin.  If an agent is asked, this may be any result. -/
def PluginCheck.Gives (plugin : Option PluginCheck) (result : PolicyResult) : Prop :=
  match plugin with
  | none => result = { policyType := DENY }
  | some plugin =>
      match plugin.status with
      | .ANSWER_READY => result = plugin.result
      | .ANSWER_NOTREADY => True
      | _ => result = { policyType := DENY }

/-- A plugin answers at once with a result it gives, or it asks an agent. -/
theorem PluginCheck.gives_of_pluginResult {m : AgentManager} {plugin : Option PluginCheck}
    {result : PolicyResult}
    (h : CheckLogic.pluginResult m plugin = some result ∨ CheckLogic.pluginResult m plugin = none) :
  PluginCheck.Gives plugin result
  := by
  unfold CheckLogic.pluginResult at h
  unfold PluginCheck.Gives
  cases plugin with
  | none => simp_all
  | some plugin => cases hstatus : plugin.status <;> simp_all

namespace Verdict

/-- The results a check may be answered with. -/
def Gives (verdict : Verdict) (result : PolicyResult) : Prop :=
  match if verdict.dbCorrupted then some { policyType := DENY } else verdict.stored with
  | none => False
  | some stored =>
      if stored.policyType = ALLOW ∨ stored.policyType = DENY then result = stored
      else PluginCheck.Gives verdict.plugin result

variable {verdict : Verdict} {stored result : PolicyResult} {m : AgentManager}

/-- A predefined policy is the only result. -/
theorem gives_of_predefined
    (hstored : (if verdict.dbCorrupted then some { policyType := DENY } else verdict.stored)
      = some stored)
    (hpredefined : stored.policyType = ALLOW ∨ stored.policyType = DENY) :
  verdict.Gives result ↔ result = stored
  := by
  unfold Gives
  rw [hstored]
  simp only [if_pos hpredefined]

/-- Other policies leave the result to the plugin. -/
theorem gives_of_plugin
    (hstored : (if verdict.dbCorrupted then some { policyType := DENY } else verdict.stored)
      = some stored)
    (hother : ¬ (stored.policyType = ALLOW ∨ stored.policyType = DENY)) :
  verdict.Gives result ↔ PluginCheck.Gives verdict.plugin result
  := by
  unfold Gives
  rw [hstored]
  simp only [if_neg hother]

/-- A check is answered at once with a result it gives. -/
theorem gives_of_directResult (h : CheckLogic.directResult m verdict = some result) :
  verdict.Gives result
  := by
  unfold CheckLogic.directResult at h
  split at h
  · cases h
  · rename_i stored hstored
    split at h
    · rename_i hpredefined
      apply (gives_of_predefined hstored hpredefined).mpr
      exact (Option.some.inj h).symm
    · rename_i hother
      apply (gives_of_plugin hstored hother).mpr
      exact PluginCheck.gives_of_pluginResult (Or.inl h)

/-- A check that is not answered at once waits for an agent. -/
theorem gives_of_waiting (h : CheckLogic.directResult m verdict = none)
    (hstored : verdict.dbCorrupted = true ∨ verdict.stored ≠ none) (result : PolicyResult) :
  verdict.Gives result
  := by
  unfold CheckLogic.directResult at h
  split at h
  · rename_i hnone
    split at hnone
    · cases hnone
    · simp_all
  · rename_i stored hstored
    split at h
    · cases h
    · rename_i hother
      apply (gives_of_plugin hstored hother).mpr
      exact PluginCheck.gives_of_pluginResult (Or.inr h)

/-- A simple check is answered with success and a result it gives. -/
theorem gives_of_simpleResult (hintact : verdict.dbCorrupted = false)
    (hstored : verdict.stored = some stored)
    (h : CheckLogic.simpleResult stored verdict.plugin = (CYNARA_API_SUCCESS, result)) :
  verdict.Gives result
  := by
  have hstored : (if verdict.dbCorrupted then some { policyType := DENY } else verdict.stored)
      = some stored := by
    rw [hintact, hstored]
    rfl
  unfold CheckLogic.simpleResult at h
  split at h
  · rename_i hpredefined
    apply (gives_of_predefined hstored hpredefined).mpr
    exact (congrArg Prod.snd h).symm
  · rename_i hother
    apply (gives_of_plugin hstored hother).mpr
    unfold PluginCheck.Gives
    cases hplugin : verdict.plugin with
    | none =>
        rw [hplugin] at h
        exact (congrArg Prod.snd h).symm
    | some plugin =>
        rw [hplugin] at h
        cases hstatus : plugin.status <;>
          simp_all [CYNARA_API_SUCCESS, CYNARA_API_ACCESS_NOT_RESOLVED]

/-- A simple check has succeeded or is not resolved. -/
theorem fst_simpleResult (stored : PolicyResult) (plugin : Option PluginCheck) :
  (CheckLogic.simpleResult stored plugin).1 = CYNARA_API_SUCCESS
    ∨ (CheckLogic.simpleResult stored plugin).1 = CYNARA_API_ACCESS_NOT_RESOLVED
  := by
  unfold CheckLogic.simpleResult
  split
  · exact Or.inl rfl
  · cases plugin with
    | none => exact Or.inl rfl
    | some plugin => cases hstatus : plugin.status <;> simp [hstatus]

end Verdict

namespace Database

/-- The results that the service may answer a check of a key with, whatever its plugins are. -/
def Answers (d : Database) (key : PolicyKey) (result : PolicyResult) : Prop :=
  ∃ fuel order plugins verdict, d.verdict fuel order plugins key = some verdict ∧
    verdict.Gives result

/-- The results that the service replies to a check with: it has one at once, or an agent is
asked. -/
def RepliesCheck (d : Database) (key : PolicyKey) (result : PolicyResult) : Prop :=
  ∃ fuel order plugins verdict m, d.verdict fuel order plugins key = some verdict ∧
    (verdict.dbCorrupted = true ∨ verdict.stored ≠ none) ∧
    (CheckLogic.directResult m verdict = some result ∨ CheckLogic.directResult m verdict = none)

/-- What the service replies to a simple check. -/
def RepliesSimpleCheck (d : Database) (key : PolicyKey) (retValue : Int32)
    (result : PolicyResult) : Prop :=
  ∃ fuel order plugins verdict stored, d.verdict fuel order plugins key = some verdict ∧
    verdict.stored = some stored ∧
    CheckLogic.simpleResult stored verdict.plugin = (retValue, result)

variable {d : Database} {key : PolicyKey} {result : PolicyResult}

/-- A direct reply is one of the answers. -/
theorem RepliesCheck.answers (h : d.RepliesCheck key result) :
  d.Answers key result
  := by
  obtain ⟨fuel, order, plugins, verdict, m, hverdict, hstored, hdirect | hwaiting⟩ := h
  · exact ⟨fuel, order, plugins, verdict, hverdict, Verdict.gives_of_directResult hdirect⟩
  · exact ⟨fuel, order, plugins, verdict, hverdict,
      Verdict.gives_of_waiting hwaiting hstored result⟩

theorem RepliesSimpleCheck.answers {retValue : Int32}
    (h : d.RepliesSimpleCheck key retValue result) :
  retValue = CYNARA_API_SUCCESS ∧ d.Answers key result ∨ retValue = CYNARA_API_ACCESS_NOT_RESOLVED
  := by
  obtain ⟨fuel, order, plugins, verdict, stored, hverdict, hstored, hsimple⟩ := h
  have hintact : verdict.dbCorrupted = false := by
    rw [dbCorrupted_verdict hverdict]
    by_contra hcorrupted
    rw [stored_of_corrupted hverdict (by simpa using hcorrupted)] at hstored
    cases hstored
  obtain hsuccess | hunresolved := Verdict.fst_simpleResult stored verdict.plugin
  · rw [hsimple] at hsuccess
    subst hsuccess
    refine Or.inl ⟨rfl, fuel, order, plugins, verdict, hverdict, ?_⟩
    exact Verdict.gives_of_simpleResult hintact hstored hsimple
  · rw [hsimple] at hunresolved
    exact Or.inr hunresolved

theorem buckets_execute {d : Database} {hasPlugin : PolicyType → Bool} {save : Save} {fuel : ℕ}
    {request : Request} {code : Option Code} {s : Buckets}
    (h : Logic.execute ⟨d.dbCorrupted, hasPlugin, save⟩ fuel d.buckets request = some (code, s))
    (hcorrupted : d.dbCorrupted = true) :
  s = ⟨∅, Buckets.keyed_empty⟩
  := by
  rw [Logic.execute, if_pos hcorrupted] at h
  rw [← d.empty_of_corrupted hcorrupted]
  exact (congrArg Prod.snd (Option.some.inj h)).symm

/-- A request of an administrator is executed. -/
def execute (hasPlugin : PolicyType → Bool) (save : Save) (fuel : ℕ) (request : Request)
    (d : Database) : Option (Option Code × Database) :=
  match h : Logic.execute ⟨d.dbCorrupted, hasPlugin, save⟩ fuel d.buckets request with
  | none => none
  | some (code, s) => some (code, ⟨s, d.dbCorrupted, buckets_execute h⟩)

end Database

/-! ### The service goes on -/

namespace ClientSync

open ClientAsync (ValidKey Clock)

/-- The connection of the client: there is none or it is lost, it waits to be accepted, or the
service has accepted it. -/
inductive Link where
  | lost
  | waiting
  | accepted
deriving DecidableEq

/-- `SocketManager::disconnectAllClients`. -/
def Link.disconnectAllClients : Link → Link
  | .accepted => .lost
  | link => link

/-- The service, and the connection of the client. -/
structure World where
  database : Database
  link : Link

/-- What happens without the client. -/
inductive ServiceEvent where
  | accept
  | disconnect
  | execute (hasPlugin : PolicyType → Bool) (save : Save) (fuel : ℕ) (request : Cynara.Request)
  | restart (database : Database)

namespace World

/-- An event of the service; a request answered with `OK` closes the connections of the clients. -/
def step (w : World) : ServiceEvent → Option World
  | .accept => if w.link = .waiting then some { w with link := .accepted } else none
  | .disconnect => some { w with link := .lost }
  | .execute hasPlugin save fuel request =>
      (w.database.execute hasPlugin save fuel request).map fun (code, database) =>
        ⟨database, if code = some .OK then w.link.disconnectAllClients else w.link⟩
  | .restart database => some ⟨database, .lost⟩

/-- A request that is not answered with `OK` leaves the database as it was. -/
def Steady (w : World) : ServiceEvent → Prop
  | .execute hasPlugin save fuel request =>
      ∀ code database, w.database.execute hasPlugin save fuel request = some (code, database) →
        code ≠ some .OK → database = w.database
  | _ => True

/-- The service has gone on. -/
def Later (w w' : World) : Prop := Runs.Reaches step Steady w w'

/-- The service has gone on, and the client may have made connections. -/
def Passes (w w' : World) : Prop :=
  Relation.ReflTransGen (fun w w' => w.Later w' ∨ w'.database = w.database) w w'

variable {w w' : World}

theorem Later.passes (h : w.Later w') :
  w.Passes w'
  := .single (Or.inl h)

theorem Later.trans {w'' : World} (h : w.Later w') (h' : w'.Later w'') :
  w.Later w''
  := Runs.Reaches.trans h h'

theorem passes_link (w : World) (link : Link) :
  w.Passes { w with link := link }
  := .single (Or.inr rfl)

/-- What an event does to a connection. -/
theorem step_cases {e : ServiceEvent} (hsteady : w.Steady e) (h : w.step e = some w') :
  w'.link = .lost ∨ w'.database = w.database ∧ w'.link = w.link
    ∨ w.link = .waiting ∧ (w'.link = .waiting ∨ w'.database = w.database)
  := by
  cases e with
  | accept =>
      obtain ⟨hwaiting, h⟩ := Option.ite_none_right_eq_some.mp h
      obtain rfl := Option.some.inj h
      exact Or.inr (Or.inr ⟨hwaiting, Or.inr rfl⟩)
  | disconnect =>
      obtain rfl := Option.some.inj h
      exact Or.inl rfl
  | execute hasPlugin save fuel request =>
      obtain ⟨⟨code, database⟩, hexecute, rfl⟩ := Option.map_eq_some_iff.mp h
      by_cases hcode : code = some .OK
      · simp only [if_pos hcode]
        cases w.link with
        | lost => exact Or.inl rfl
        | waiting => exact Or.inr (Or.inr ⟨rfl, Or.inl rfl⟩)
        | accepted => exact Or.inl rfl
      · simp only [if_neg hcode]
        exact Or.inr (Or.inl ⟨hsteady code database hexecute hcode, trivial⟩)
  | restart database =>
      obtain rfl := Option.some.inj h
      exact Or.inl rfl

/-- As long as an accepted connection is there, the policies have not changed. -/
theorem Later.of_accepted (h : w.Later w') (haccepted : w.link = .accepted) :
  w'.link = .lost ∨ w'.link = .accepted ∧ w'.database = w.database
  := by
  apply h.invariant (P := fun w' => w'.link = .lost ∨ w'.link = .accepted ∧
    w'.database = w.database) (Or.inr ⟨haccepted, rfl⟩)
  intro w₁ e w₂ hw₁ hsteady hstep
  obtain hlost | ⟨hdatabase, hlink⟩ | ⟨hwaiting, -⟩ := step_cases hsteady hstep
  · exact Or.inl hlost
  · rw [hdatabase, hlink]
    exact hw₁
  · rw [hwaiting] at hw₁
    simp at hw₁

end World

/-! ### What the client finds -/

open World

/-- The socket is looked at.  If it is not found connected, the client tries to connect. -/
inductive Probes : World → Net → World → Prop
  | connected {w w₁ : World} {connect : Option Bool} :
      w.Later w₁ → w₁.link ≠ .lost → Probes w ⟨true, connect⟩ w₁
  | connects {w w₁ : World} : w.Later w₁ → Probes w ⟨false, some true⟩ { w₁ with link := .waiting }
  | fails {w w₁ : World} {connect : Option Bool} :
      w.Later w₁ → connect ≠ some true → Probes w ⟨false, connect⟩ { w₁ with link := .lost }

/-- The turns of `requestResponse`, and the response if there is one: the service has replied over
the connection, an exception is thrown, or the connection is lost and the client tries to connect
again. -/
inductive Asks (Replies : Database → ProtocolClient.Response → Prop) :
    World → List Turn → Option ProtocolClient.Response → World → Prop
  | replied {w w₁ w₂ : World} {response : ProtocolClient.Response} {connect : Option Bool}
      {turns : List Turn} :
      w.Later w₁ → w₁.link = .accepted → Replies w₁.database response → w₁.Later w₂ →
      Asks Replies w (⟨some (some response), connect⟩ :: turns) (some response) w₂
  | thrown {w w₁ : World} {connect : Option Bool} {turns : List Turn} :
      w.Later w₁ → Asks Replies w (⟨none, connect⟩ :: turns) none w₁
  | fails {w w₁ : World} {connect : Option Bool} {turns : List Turn} :
      w.Later w₁ → connect ≠ some true →
      Asks Replies w (⟨some none, connect⟩ :: turns) none { w₁ with link := .lost }
  | again {w w₁ w₂ : World} {response : Option ProtocolClient.Response} {turns : List Turn} :
      w.Later w₁ → Asks Replies { w₁ with link := .waiting } turns response w₂ →
      Asks Replies w (⟨some none, some true⟩ :: turns) response w₂

/-- The two calls of the client. -/
inductive Kind where
  | check
  | simpleCheck
deriving DecidableEq

/-- The replies of the service. -/
def Kind.Replies (key : PolicyKey) : Kind → Database → ProtocolClient.Response → Prop
  | .check, d, response =>
      ∃ result sequenceNumber, response = .check result sequenceNumber ∧ d.RepliesCheck key result
  | .simpleCheck, d, response =>
      ∃ retValue result sequenceNumber, response = .simpleCheck retValue result sequenceNumber ∧
        d.RepliesSimpleCheck key retValue result

variable {supported : Set PolicyType} {plugins : PolicyType → Option ClientPlugin}
variable {key : ValidKey} {session : ClientSession} {env : Logic.Surroundings}
variable {w w' : World} {σ σ' : Logic} {c : CapacityCache} {m m' : CapacityCache.Results}

/-! ### The cache is fresh -/

/-- The results that are remembered have been answered over the present connection. -/
def Fresh (w : World) (m : CapacityCache.Results) : Prop :=
  ∀ key result prevSession, m.value key = some (result, prevSession) →
    w.link ≠ .waiting ∧ (w.link = .accepted → w.database.Answers key result)

theorem fresh_clear (w : World) (m : CapacityCache.Results) :
  Fresh w m.clear
  := nofun

/-- What is remembered stays fresh while the service goes on. -/
theorem Fresh.later (h : Fresh w m) (hlater : w.Later w') :
  Fresh w' m
  := by
  intro key result prevSession hvalue
  apply hlater.invariant (P := fun w' => w'.link ≠ .waiting ∧
    (w'.link = .accepted → w'.database.Answers key result)) (h key result prevSession hvalue)
  intro w₁ e w₂ hw₁ hsteady hstep
  obtain hlost | ⟨hdatabase, hlink⟩ | ⟨hwaiting, -⟩ := step_cases hsteady hstep
  · simp [hlost]
  · rw [hdatabase, hlink]
    exact hw₁
  · exact absurd hwaiting hw₁.1

/-- A look at the cache makes no result stale. -/
theorem Fresh.get (h : Fresh w m) (capacity : ℕ) (plugins : PolicyType → Option ClientPlugin)
    (session : ClientSession) (key : PolicyKey) :
  Fresh w (m.next capacity (.get plugins session key))
  := by
  intro key' result prevSession hvalue
  obtain ⟨-, hstores | ⟨-, prevSession', hvalue'⟩⟩ :=
    CapacityCache.value_next_iff.mp ⟨prevSession, hvalue⟩
  · exact hstores.elim
  · exact h key' result prevSession' hvalue'

/-- A result is cached that the service has answered over the connection. -/
theorem Fresh.update {w₁ : World} {result : PolicyResult} {key : PolicyKey} (h : Fresh w m)
    (haccepted : w₁.link = .accepted) (hanswers : w₁.database.Answers key result)
    (hlater : w₁.Later w) (capacity : ℕ) (plugins : PolicyType → Option ClientPlugin)
    (session : ClientSession) :
  Fresh w (m.next capacity (.update plugins session key result))
  := by
  intro key' result' prevSession hvalue
  obtain ⟨-, ⟨rfl, rfl, -⟩ | ⟨-, prevSession', hvalue'⟩⟩ :=
    CapacityCache.value_next_iff.mp ⟨prevSession, hvalue⟩
  · obtain hlost | ⟨hlink, hdatabase⟩ := hlater.of_accepted haccepted
    · simp [hlost]
    · simp only [hlink, hdatabase]
      exact ⟨by decide, fun _ => hanswers⟩
  · exact h key' result' prevSession' hvalue'

/-- The cache holds what is remembered, and this is fresh. -/
def Current (supported : Set PolicyType) (w : World) (c : CapacityCache)
    (m : CapacityCache.Results) : Prop :=
  CapacityCache.Tracks supported c m ∧ Fresh w m

theorem Current.later (h : Current supported w c m) (hlater : w.Later w') :
  Current supported w' c m
  := ⟨h.1, h.2.later hlater⟩

/-- The cache is cleared when the client finds that the connection is lost. -/
theorem Current.clear (h : Current supported w c m) (w' : World) :
  Current supported w' c.clear m.clear
  := ⟨h.1.clear, fresh_clear w' m⟩

/-- Nothing is remembered that was not remembered before. -/
def Keeps (m m' : CapacityCache.Results) : Prop :=
  ∀ key, m.value key = none → m'.value key = none

theorem keeps_refl (m : CapacityCache.Results) :
  Keeps m m
  := fun _ hnone => hnone

theorem keeps_clear (m m' : CapacityCache.Results) :
  Keeps m m'.clear
  := fun _ _ => rfl

/-- After `ensureConnection` the cache is fresh. -/
theorem Current.ensureConnection {net : Net} (h : Current supported w σ.cache m)
    (hprobes : Probes w net w') :
  ∃ m', Current supported w' (σ.ensureConnection net).2.cache m' ∧ Keeps m m' ∧ w.Passes w'
    ∧ ((σ.ensureConnection net).1 = some true → w'.link ≠ .lost)
    ∧ (net.isConnected = true → w.Later w' ∧ m' = m ∧ (σ.ensureConnection net).2.cache = σ.cache)
  := by
  cases hprobes with
  | connected hlater hlink =>
      exact ⟨m, h.later hlater, keeps_refl m, hlater.passes, fun _ => hlink,
        fun _ => ⟨hlater, rfl, rfl⟩⟩
  | connects hlater =>
      refine ⟨m.clear, h.clear _, keeps_clear m m, ?_, fun _ => by simp, nofun⟩
      exact hlater.passes.trans (passes_link _ _)
  | fails hlater hconnect =>
      refine ⟨m.clear, h.clear _, keeps_clear m m, ?_, fun hret => absurd hret hconnect, nofun⟩
      exact hlater.passes.trans (passes_link _ _)

/-- The service has replied at some moment, and the connection has not been replaced since. -/
def Replied (Replies : Database → ProtocolClient.Response → Prop)
    (response : ProtocolClient.Response) (w w' : World) : Prop :=
  ∃ w₁ : World, w.Passes w₁ ∧ w₁.link = .accepted ∧ Replies w₁.database response ∧ w₁.Later w'

/-- However often the request is sent again, the cache stays current. -/
theorem Current.askLoop {Replies : Database → ProtocolClient.Response → Prop}
    (request : ProtocolClient.Request) {turns : List Turn}
    {response : Option ProtocolClient.Response} (hasks : Asks Replies w turns response w')
    (h : Current supported w σ.cache m) :
  ∃ asked σ' m', σ.askLoop request turns = some (asked, σ') ∧ Current supported w' σ'.cache m'
    ∧ Keeps m m' ∧ w.Passes w' ∧ σ'.monitorCache = σ.monitorCache
    ∧ σ'.monitoringEnabled = σ.monitoringEnabled
    ∧ (response = none → asked = none ∨ asked = some none)
    ∧ ∀ reply, response = some reply → asked = some (some reply) ∧ Replied Replies reply w w'
  := by
  induction hasks generalizing σ m with
  | replied hlater hlink hreply hlater' =>
      refine ⟨_, _, m, rfl, (h.later hlater).later hlater', keeps_refl m,
        hlater.passes.trans hlater'.passes, rfl, rfl, nofun, ?_⟩
      rintro reply ⟨⟩
      exact ⟨rfl, _, hlater.passes, hlink, hreply, hlater'⟩
  | thrown hlater =>
      exact ⟨_, _, m, rfl, h.later hlater, keeps_refl m, hlater.passes, rfl, rfl,
        fun _ => Or.inl rfl, nofun⟩
  | @fails w₀ w₁ connect turns hlater hconnect =>
      have hpasses := hlater.passes.trans (passes_link w₁ .lost)
      cases connect with
      | none =>
          exact ⟨_, _, m.clear, rfl, h.clear _, keeps_clear m m, hpasses, rfl, rfl,
            fun _ => Or.inl rfl, nofun⟩
      | some connect =>
          obtain rfl : connect = false := by simpa using hconnect
          exact ⟨_, _, m.clear, rfl, h.clear _, keeps_clear m m, hpasses, rfl, rfl,
            fun _ => Or.inr rfl, nofun⟩
  | @again w₀ w₁ w₂ response turns hlater hasks ih =>
      have hpasses := hlater.passes.trans (passes_link w₁ .waiting)
      obtain ⟨asked, σ', m', hloop, hcurrent, hkeeps, hpasses', hmonitor, henabled, hnone, hsome⟩ :=
        ih (σ := { σ with requests := σ.requests ++ [request] }.onDisconnected) (h.clear _)
      refine ⟨asked, σ', m', hloop, hcurrent, ?_, hpasses.trans hpasses', hmonitor, henabled, hnone,
        ?_⟩
      · intro key _
        exact hkeeps key rfl
      · intro reply hreply
        obtain ⟨hasked, w₃, hw₃, hlink, hreplies, hlater'⟩ := hsome reply hreply
        exact ⟨hasked, w₃, hpasses.trans hw₃, hlink, hreplies, hlater'⟩

theorem Current.get (h : Current supported w c m)
    (hplugins : CapacityCache.Faithful supported plugins) (session : ClientSession)
    (key : PolicyKey) :
  ∃ c', c.get plugins session key = some (m.answer plugins session key, c')
    ∧ Current supported w c' (m.next c.capacity (.get plugins session key))
  := by
  obtain ⟨c', hget, -, htracks⟩ := h.1.get hplugins session key
  exact ⟨c', hget, htracks, h.2.get _ _ _ _⟩

/-- A result is cached that the service has answered at some moment.  The cache stays fresh if the
connection has not been replaced since then. -/
theorem Current.update {w₁ : World} {result : PolicyResult} {key : PolicyKey}
    (h : Current supported w c m) (hplugins : CapacityCache.Faithful supported plugins)
    (hnone : m.value key = none) (haccepted : w₁.link = .accepted)
    (hanswers : w₁.database.Answers key result) (session : ClientSession) :
  ∃ c', c.update plugins session key result
      = some (CapacityCache.translate plugins session result, c')
    ∧ (w₁.Later w →
      Current supported w c' (m.next c.capacity (.update plugins session key result)))
  := by
  have hkey : CapacityCache.keyToString key ∉ c.keyValue := by
    rw [← h.1.mem_held]
    simp [Memory.held, hnone]
  obtain ⟨c', hperform, -, htracks⟩ := h.1.update hplugins session result hkey
  obtain ⟨⟨answer, c''⟩, hupdate, rfl⟩ := Option.map_eq_some_iff.mp hperform
  obtain rfl := CapacityCache.update_answer hupdate
  refine ⟨c'', hupdate, ?_⟩
  intro hlater
  exact ⟨htracks, h.2.update haccepted hanswers hlater _ _ _⟩

/-- No translation of a result is the code for a miss. -/
def NoMiss (plugins : PolicyType → Option ClientPlugin) : Prop :=
  ∀ session result, Int32.ofInt (CapacityCache.translate plugins session result)
    ≠ CYNARA_API_CACHE_MISS

/-- A miss leaves no entry for the key, and a hit is the translation of what is remembered. -/
theorem answer_cases (hplugins : NoMiss plugins) (capacity : ℕ) (m : CapacityCache.Results)
    (session : ClientSession) (key : PolicyKey) :
  Int32.ofInt (m.answer plugins session key) = CYNARA_API_CACHE_MISS
      ∧ (m.next capacity (.get plugins session key)).value key = none
    ∨ Int32.ofInt (m.answer plugins session key) ≠ CYNARA_API_CACHE_MISS
      ∧ ∃ result prevSession, m.value key = some (result, prevSession)
        ∧ m.answer plugins session key = CapacityCache.translate plugins session result
  := by
  cases hvalue : m.value key with
  | none =>
      have hanswer : m.answer plugins session key = CYNARA_API_CACHE_MISS := by
        simp [CapacityCache.Results.answer, hvalue]
      refine Or.inl ⟨hanswer ▸ rfl, ?_⟩
      simp [CapacityCache.Results.next, hvalue, Memory.tick]
  | some v =>
      obtain ⟨result, prevSession⟩ := v
      by_cases husable : CapacityCache.usable plugins session prevSession result
      · have hanswer : m.answer plugins session key
            = CapacityCache.translate plugins session result := by
          simp [CapacityCache.Results.answer, hvalue, husable]
        rw [hanswer]
        exact Or.inr ⟨hplugins session result, result, prevSession, rfl, rfl⟩
      · have hanswer : m.answer plugins session key = CYNARA_API_CACHE_MISS := by
          simp [CapacityCache.Results.answer, hvalue, husable]
        refine Or.inl ⟨hanswer ▸ rfl, ?_⟩
        simp [CapacityCache.Results.next, hvalue, husable, Memory.forget]

/-! ### The monitor -/

/-- Whether `updateMonitor` flushes the monitor. -/
def Logic.flushes (key : ValidKey) (ret : Int32) (clock : Clock) (σ : Logic) : Bool :=
  σ.monitoringEnabled && (σ.monitorCache.update key ret clock).shouldFlush

/-- The connection is looked at when the monitor is flushed. -/
def Flushes (flushes : Bool) (flush : Flush) (w w' : World) : Prop :=
  if flushes then Probes w flush.net w' else w.Later w'

/-- A flush of the monitor touches the cache only through a new connection. -/
theorem cache_flushMonitor (flush : Flush) (σ : Logic)
    (hentries : σ.monitorCache.entries.isEmpty = false) (henabled : σ.monitoringEnabled = true) :
  (σ.flushMonitor flush).state.cache = (σ.ensureConnection flush.net).2.cache
  := by
  simp only [Logic.flushMonitor, henabled, hentries, not_true_eq_false, Bool.false_eq_true,
    ↓reduceIte]
  generalize σ.ensureConnection flush.net = ensured
  obtain ⟨ret, σ₁⟩ := ensured
  cases ret with
  | none => rfl
  | some ret =>
      cases ret with
      | false => rfl
      | true =>
          cases flush.sent with
          | none => rfl
          | some sent => cases sent <;> rfl

theorem cache_updateMonitor (key : ValidKey) (ret : Int32) (clock : Clock) (flush : Flush)
    (σ : Logic) :
  (σ.updateMonitor key ret clock flush).state.cache
    = if σ.flushes key ret clock then (σ.ensureConnection flush.net).2.cache else σ.cache
  := by
  unfold Logic.updateMonitor Logic.flushes
  cases henabled : σ.monitoringEnabled with
  | false => simp
  | true =>
      simp only [not_true_eq_false, ↓reduceIte, Bool.true_and]
      split
      · rename_i hflush
        rw [cache_flushMonitor flush _ _ rfl]
        · unfold Logic.ensureConnection
          split <;> rfl
        · simp only [ClientAsync.MonitorCache.shouldFlush, Bool.and_eq_true,
            Bool.not_eq_true'] at hflush
          exact hflush.1
      · rfl

/-- The cache stays current when the monitor is updated. -/
theorem Current.updateMonitor {ret : Int32} {clock : Clock} {flush : Flush}
    (h : Current supported w σ.cache m)
    (hflushes : Flushes (σ.flushes key ret clock) flush w w') :
  ∃ m', Current supported w' (σ.updateMonitor key ret clock flush).state.cache m' ∧ Keeps m m'
    ∧ w.Passes w'
    ∧ ((σ.flushes key ret clock = true → flush.net.isConnected = true) → w.Later w')
  := by
  rw [cache_updateMonitor]
  unfold Flushes at hflushes
  cases hflush : σ.flushes key ret clock with
  | true =>
      rw [hflush] at hflushes
      obtain ⟨m', hcurrent, hkeeps, hpasses, -, hconnected⟩ := h.ensureConnection hflushes
      refine ⟨m', hcurrent, hkeeps, hpasses, ?_⟩
      intro hnet
      exact (hconnected (hnet rfl)).1
  | false =>
      rw [hflush] at hflushes
      refine ⟨m, h.later hflushes, keeps_refl m, World.Later.passes hflushes, ?_⟩
      intro _
      exact hflushes

/-! ### Checks -/

/-- A simple check is not recorded by the monitor. -/
def Kind.flushes (key : ValidKey) (ret : Int32) (clock : Clock) (σ : Logic) : Kind → Bool
  | .check => σ.flushes key ret clock
  | .simpleCheck => false

/-- The function of the library that is called. -/
def Kind.call (plugins : PolicyType → Option ClientPlugin) (key : ValidKey)
    (session : ClientSession) (env : Logic.Surroundings) (σ : Logic) :
    Kind → Option (Option Int32 × Logic)
  | .check => σ.check plugins key session env
  | .simpleCheck => σ.simpleCheck plugins key session env

/-- What happens while a key is checked.  The client is not connected; there is a result in the
cache; the service has replied; or it has not, because the client is not connected any more or an
exception is thrown. -/
inductive During (plugins : PolicyType → Option ClientPlugin) (kind : Kind) (key : ValidKey)
    (session : ClientSession) (env : Logic.Surroundings) (σ : Logic) : World → World → Prop
  | refused {w w' : World} :
      Probes w env.net w' → (σ.ensureConnection env.net).1 ≠ some true →
      During plugins kind key session env σ w w'
  | hit {w w₁ w' : World} {σ₁ : Logic} {answer : Int} {cache : CapacityCache} :
      Probes w env.net w₁ → σ.ensureConnection env.net = (some true, σ₁) →
      σ₁.cache.get plugins session key.val = some (answer, cache) →
      Int32.ofInt answer ≠ CYNARA_API_CACHE_MISS →
      Flushes (kind.flushes key (Int32.ofInt answer) env.clock σ) env.flush w₁ w' →
      During plugins kind key session env σ w w'
  | replied {w w₁ w₂ w' : World} {σ₁ : Logic} {answer : Int} {cache : CapacityCache}
      {response : ProtocolClient.Response} :
      Probes w env.net w₁ → σ.ensureConnection env.net = (some true, σ₁) →
      σ₁.cache.get plugins session key.val = some (answer, cache) →
      Int32.ofInt answer = CYNARA_API_CACHE_MISS →
      Asks (kind.Replies key.val) w₁ env.turns (some response) w₂ →
      Flushes (kind.flushes key CYNARA_API_SUCCESS env.clock σ) env.flush w₂ w' →
      During plugins kind key session env σ w w'
  | unanswered {w w₁ w' : World} {σ₁ : Logic} {answer : Int} {cache : CapacityCache} :
      Probes w env.net w₁ → σ.ensureConnection env.net = (some true, σ₁) →
      σ₁.cache.get plugins session key.val = some (answer, cache) →
      Int32.ofInt answer = CYNARA_API_CACHE_MISS →
      Asks (kind.Replies key.val) w₁ env.turns none w' →
      During plugins kind key session env σ w w'

/-- If the service is asked, the monitor is not flushed over a new connection before the answer is
cached. -/
def Undisturbed (plugins : PolicyType → Option ClientPlugin) (kind : Kind) (key : ValidKey)
    (session : ClientSession) (env : Logic.Surroundings) (σ : Logic) : Prop :=
  ∀ answer cache,
    (σ.ensureConnection env.net).2.cache.get plugins session key.val = some (answer, cache) →
    Int32.ofInt answer = CYNARA_API_CACHE_MISS →
    kind.flushes key CYNARA_API_SUCCESS env.clock σ = true →
    env.flush.net.isConnected = true

/-- The answer is the translation of a result that the service gave at a moment in between. -/
def Timely (plugins : PolicyType → Option ClientPlugin) (key : PolicyKey) (session : ClientSession)
    (w w' : World) (answer : Int32) : Prop :=
  ∃ w₁ result, w.Passes w₁ ∧ w₁.Passes w' ∧ w₁.database.Answers key result ∧
    answer = Int32.ofInt (CapacityCache.translate plugins session result)

theorem ensureConnection_flushes (σ : Logic) (key : ValidKey) (net : Net) (ret : Int32)
    (clock : Clock) :
  (σ.ensureConnection net).2.flushes key ret clock = σ.flushes key ret clock
  := by
  unfold Logic.ensureConnection
  split <;> rfl

/-- What is remembered for the key is timely. -/
theorem Current.timely {result : PolicyResult} {prevSession : ClientSession} {key : PolicyKey}
    {w₁ : World} (h : Current supported w₁ c m) (hlink : w₁.link ≠ .lost)
    (hvalue : m.value key = some (result, prevSession)) (hpasses : w.Passes w₁)
    (hpasses' : w₁.Passes w') (session : ClientSession) :
  Timely plugins key session w w' (Int32.ofInt (CapacityCache.translate plugins session result))
  := by
  obtain ⟨hwaiting, hanswers⟩ := h.2 key result prevSession hvalue
  have haccepted : w₁.link = .accepted := by
    cases hw : w₁.link with
    | lost => exact absurd hw hlink
    | waiting => exact absurd hw hwaiting
    | accepted => rfl
  exact ⟨w₁, result, hpasses, hpasses', hanswers haccepted, rfl⟩

theorem call_refused (plugins : PolicyType → Option ClientPlugin) (key : ValidKey)
    (session : ClientSession) (kind : Kind)
    (hconnect : (σ.ensureConnection env.net).1 ≠ some true) :
  ∃ answer, kind.call plugins key session env σ = some (answer, (σ.ensureConnection env.net).2)
    ∧ (answer = none ∨ answer = some CYNARA_API_SERVICE_NOT_AVAILABLE)
  := by
  unfold Kind.call Logic.check Logic.simpleCheck
  generalize σ.ensureConnection env.net = ensured at hconnect ⊢
  obtain ⟨ret, σ₁⟩ := ensured
  cases ret with
  | none => cases kind <;> exact ⟨_, rfl, Or.inl rfl⟩
  | some ret =>
      obtain rfl : ret = false := by simpa using hconnect
      cases kind <;> exact ⟨_, rfl, Or.inr rfl⟩

section

variable {σ₁ : Logic} {answer : Int} {cache : CapacityCache}
  (hensure : σ.ensureConnection env.net = (some true, σ₁))
  (hget : σ₁.cache.get plugins session key.val = some (answer, cache))

include hensure hget

theorem check_hit (hhit : Int32.ofInt answer ≠ CYNARA_API_CACHE_MISS) :
  let updated := { σ₁ with cache := cache }.updateMonitor key (Int32.ofInt answer) env.clock
    env.flush
  σ.check plugins key session env
    = some (if updated.thrown.isSome then none else some (Int32.ofInt answer), updated.state)
  := by
  simp [Logic.check, hensure, hget, hhit]

theorem simpleCheck_hit (hhit : Int32.ofInt answer ≠ CYNARA_API_CACHE_MISS) :
  σ.simpleCheck plugins key session env
    = some (some (Int32.ofInt answer), { σ₁ with cache := cache })
  := by
  simp [Logic.simpleCheck, hensure, hget, hhit]

/-- The service is asked. -/
theorem check_miss (hmiss : Int32.ofInt answer = CYNARA_API_CACHE_MISS) :
  σ.check plugins key session env
    = ({ σ₁ with cache := cache }.requestResult key env.turns).bind fun (asked, σ₂) =>
        match asked with
        | none => some (none, σ₂)
        | some (ret, result) =>
            if ret ≠ CYNARA_API_SUCCESS then some (some ret, σ₂)
            else
              let updated := σ₂.updateMonitor key ret env.clock env.flush
              if updated.thrown.isSome then some (none, updated.state)
              else updated.state.update plugins session key result
  := by
  simp only [Logic.check, hensure, hget, hmiss, Option.bind_eq_bind, Option.bind_some, ne_eq,
    not_true_eq_false, ↓reduceIte]
  congr 1
  funext asked
  obtain ⟨_ | asked, σ₂⟩ := asked
  · rfl
  · rfl

theorem simpleCheck_miss (hmiss : Int32.ofInt answer = CYNARA_API_CACHE_MISS) :
  σ.simpleCheck plugins key session env
    = ({ σ₁ with cache := cache }.requestSimpleResult key env.turns).bind fun (asked, σ₂) =>
        match asked with
        | none => some (none, σ₂)
        | some (ret, result) =>
            if ret ≠ CYNARA_API_SUCCESS then some (some ret, σ₂)
            else σ₂.update plugins session key result
  := by
  simp only [Logic.simpleCheck, hensure, hget, hmiss, Option.bind_eq_bind, Option.bind_some, ne_eq,
    not_true_eq_false, ↓reduceIte]
  congr 1
  funext asked
  obtain ⟨_ | asked, σ₂⟩ := asked
  · rfl
  · rfl

end

/-- What is returned is timely, unless an exception is thrown or the service is not available, or a
simple check is not resolved. -/
def Acceptable (plugins : PolicyType → Option ClientPlugin) (kind : Kind) (key : PolicyKey)
    (session : ClientSession) (w w' : World) (answer : Option Int32) : Prop :=
  ∀ ret, answer = some ret → ret = CYNARA_API_SERVICE_NOT_AVAILABLE
    ∨ kind = .simpleCheck ∧ ret = CYNARA_API_ACCESS_NOT_RESOLVED
    ∨ Timely plugins key session w w' ret

/-- A call returns, and what it returns is acceptable.  The cache is fresh again afterwards, unless
the call has been disturbed. -/
def Serves (supported : Set PolicyType) (plugins : PolicyType → Option ClientPlugin) (kind : Kind)
    (key : ValidKey) (session : ClientSession) (env : Logic.Surroundings) (σ : Logic)
    (w w' : World) : Prop :=
  ∃ answer σ', kind.call plugins key session env σ = some (answer, σ')
    ∧ Acceptable plugins kind key.val session w w' answer
    ∧ (Undisturbed plugins kind key session env σ → ∃ m', Current supported w' σ'.cache m')

/-- A call without a connection says so. -/
theorem Current.refused {kind : Kind} (h : Current supported w σ.cache m)
    (hprobes : Probes w env.net w') (hconnect : (σ.ensureConnection env.net).1 ≠ some true) :
  Serves supported plugins kind key session env σ w w'
  := by
  obtain ⟨m', hcurrent, -⟩ := h.ensureConnection hprobes
  obtain ⟨answer, hcall, hanswer⟩ := call_refused plugins key session kind hconnect
  refine ⟨answer, _, hcall, ?_, fun _ => ⟨m', hcurrent⟩⟩
  rintro ret rfl
  obtain hnone | hret := hanswer
  · cases hnone
  · exact Or.inl (Option.some.inj hret)

/-- A result that the service has replied is cached and returned. -/
theorem Current.store {kind : Kind} {result : PolicyResult} {w₁ : World}
    (h : Current supported w' σ.cache m) (hplugins : CapacityCache.Faithful supported plugins)
    (hnone : m.value key.val = none) (hpasses : w.Passes w₁) (haccepted : w₁.link = .accepted)
    (hanswers : w₁.database.Answers key.val result) (hpasses' : w₁.Passes w') :
  ∃ answer σ', σ.update plugins session key result = some (answer, σ')
    ∧ Acceptable plugins kind key.val session w w' answer
    ∧ (w₁.Later w' → ∃ m', Current supported w' σ'.cache m')
  := by
  obtain ⟨c, hupdate, hcurrent⟩ := h.update hplugins hnone haccepted hanswers session
  have hreturned : σ.update plugins session key result
      = some (some (Int32.ofInt (CapacityCache.translate plugins session result)),
        { σ with cache := c }) := by
    simp [Logic.update, hupdate]
  refine ⟨_, _, hreturned, ?_, fun hlater => ⟨_, hcurrent hlater⟩⟩
  intro ret hret
  obtain rfl := Option.some.inj hret
  exact Or.inr (Or.inr ⟨w₁, result, hpasses, hpasses', hanswers, rfl⟩)

theorem acceptable_none {kind : Kind} {key : PolicyKey} :
  Acceptable plugins kind key session w w' none
  := nofun

theorem acceptable_notAvailable {kind : Kind} {key : PolicyKey} :
  Acceptable plugins kind key session w w' (some CYNARA_API_SERVICE_NOT_AVAILABLE)
  := by
  rintro ret ⟨⟩
  exact Or.inl rfl

section

variable {kind : Kind} {w₁ : World} {σ₁ : Logic} {answer : Int} {cache : CapacityCache}
  (hplugins : CapacityCache.Faithful supported plugins) (hnoMiss : NoMiss plugins)
  (hprobes : Probes w env.net w₁) (hensure : σ.ensureConnection env.net = (some true, σ₁))
  (hget : σ₁.cache.get plugins session key.val = some (answer, cache))

include hplugins hnoMiss hprobes hensure hget

/-- A call that finds its answer in the cache. -/
theorem Current.hit (h : Current supported w σ.cache m)
    (hhit : Int32.ofInt answer ≠ CYNARA_API_CACHE_MISS)
    (hflushes : Flushes (kind.flushes key (Int32.ofInt answer) env.clock σ) env.flush w₁ w') :
  Serves supported plugins kind key session env σ w w'
  := by
  obtain ⟨m₁, hcurrent, -, hpasses, hlink, -⟩ := h.ensureConnection hprobes
  rw [hensure] at hcurrent hlink
  obtain ⟨c, hget', hgot⟩ := hcurrent.get hplugins session key.val
  obtain ⟨rfl, rfl⟩ := Prod.mk.inj (Option.some.inj (hget'.symm.trans hget))
  obtain ⟨hmiss, -⟩ | ⟨-, result, prevSession, hvalue, hanswer⟩ :=
    answer_cases hnoMiss σ₁.cache.capacity m₁ session key.val
  · exact absurd hmiss hhit
  cases kind with
  | check =>
      have hflushes' : Flushes ({ σ₁ with cache := c }.flushes key
          (Int32.ofInt (m₁.answer plugins session key.val)) env.clock) env.flush w₁ w' := by
        have hsame := ensureConnection_flushes σ key env.net
          (Int32.ofInt (m₁.answer plugins session key.val)) env.clock
        rw [hensure] at hsame
        rw [show Logic.flushes key _ env.clock { σ₁ with cache := c } = σ₁.flushes key _ env.clock
          from rfl, hsame]
        exact hflushes
      obtain ⟨m₂, hcurrent', -, hpasses', -⟩ := Current.updateMonitor (σ := { σ₁ with cache := c })
        hgot hflushes'
      refine ⟨_, _, check_hit hensure hget hhit, ?_, fun _ => ⟨m₂, hcurrent'⟩⟩
      intro ret hret
      split at hret
      · cases hret
      · obtain rfl := Option.some.inj hret
        rw [hanswer]
        exact Or.inr (Or.inr (hcurrent.timely (hlink rfl) hvalue hpasses hpasses' session))
  | simpleCheck =>
      have hlater : w₁.Later w' := hflushes
      refine ⟨_, _, simpleCheck_hit hensure hget hhit, ?_, fun _ => ⟨_, hgot.later hlater⟩⟩
      intro ret hret
      obtain rfl := Option.some.inj hret
      rw [hanswer]
      exact Or.inr (Or.inr (hcurrent.timely (hlink rfl) hvalue hpasses hlater.passes session))

/-- The service is asked. -/
theorem Current.asked {response : Option ProtocolClient.Response} {w₂ : World}
    (h : Current supported w σ.cache m)
    (hmiss : Int32.ofInt answer = CYNARA_API_CACHE_MISS)
    (hasks : Asks (kind.Replies key.val) w₁ env.turns response w₂)
    (request : ProtocolClient.Request) (sequenceNumber : UInt16) :
  ∃ asked σ₂ m₂,
    { σ₁ with cache := cache, sequenceNumber := sequenceNumber }.askLoop request env.turns
        = some (asked, σ₂)
    ∧ Current supported w₂ σ₂.cache m₂ ∧ m₂.value key.val = none ∧ w.Passes w₂
    ∧ (∀ ret clock, σ₂.flushes key ret clock = σ.flushes key ret clock)
    ∧ (response = none → asked = none ∨ asked = some none)
    ∧ ∀ reply, response = some reply →
        asked = some (some reply) ∧ Replied (kind.Replies key.val) reply w w₂
  := by
  obtain ⟨m₁, hcurrent, -, hpasses, -⟩ := h.ensureConnection hprobes
  rw [hensure] at hcurrent
  obtain ⟨c, hget', hgot⟩ := hcurrent.get hplugins session key.val
  obtain ⟨rfl, rfl⟩ := Prod.mk.inj (Option.some.inj (hget'.symm.trans hget))
  obtain ⟨-, hnone⟩ | ⟨hhit, -⟩ := answer_cases hnoMiss σ₁.cache.capacity m₁ session key.val
  · obtain ⟨asked, σ₂, m₂, hloop, hcurrent', hkeeps, hpasses', hmonitor, henabled, hfailed,
        hreplied⟩ :=
      Current.askLoop (σ := { σ₁ with cache := c, sequenceNumber := sequenceNumber })
        request hasks hgot
    refine ⟨asked, σ₂, m₂, hloop, hcurrent', hkeeps _ hnone, hpasses.trans hpasses', ?_, hfailed,
      ?_⟩
    · intro ret clock
      have hsame := ensureConnection_flushes σ key env.net ret clock
      rw [hensure] at hsame
      rw [← hsame, Logic.flushes, hmonitor, henabled]
      rfl
    · intro reply hreply
      obtain ⟨hasked, w₃, hw₃, haccepted, hreplies, hlater⟩ := hreplied reply hreply
      exact ⟨hasked, w₃, hpasses.trans hw₃, haccepted, hreplies, hlater⟩
  · exact absurd hmiss hhit

/-- A call that gets no answer. -/
theorem Current.unanswered (h : Current supported w σ.cache m)
    (hmiss : Int32.ofInt answer = CYNARA_API_CACHE_MISS)
    (hasks : Asks (kind.Replies key.val) w₁ env.turns none w') :
  Serves supported plugins kind key session env σ w w'
  := by
  have hasked := h.asked hplugins hnoMiss hprobes hensure hget hmiss hasks
  cases kind with
  | check =>
      obtain ⟨asked, σ₂, m₂, hloop, hcurrent, -, -, -, hfailed, -⟩ := hasked (.check key.val _) _
      rw [Serves, Kind.call, check_miss hensure hget hmiss, Logic.requestResult,
        Logic.requestResponse, hloop]
      obtain rfl | rfl := hfailed rfl
      · exact ⟨_, _, rfl, acceptable_none, fun _ => ⟨m₂, hcurrent⟩⟩
      · exact ⟨_, _, rfl, acceptable_notAvailable, fun _ => ⟨m₂, hcurrent⟩⟩
  | simpleCheck =>
      obtain ⟨asked, σ₂, m₂, hloop, hcurrent, -, -, -, hfailed, -⟩ :=
        hasked (.simpleCheck key.val _) _
      rw [Serves, Kind.call, simpleCheck_miss hensure hget hmiss, Logic.requestSimpleResult,
        Logic.requestResponse, hloop]
      obtain rfl | rfl := hfailed rfl
      · exact ⟨_, _, rfl, acceptable_none, fun _ => ⟨m₂, hcurrent⟩⟩
      · exact ⟨_, _, rfl, acceptable_notAvailable, fun _ => ⟨m₂, hcurrent⟩⟩

/-- A call that is answered by the service. -/
theorem Current.replied {response : ProtocolClient.Response} {w₂ : World}
    (h : Current supported w σ.cache m) (hmiss : Int32.ofInt answer = CYNARA_API_CACHE_MISS)
    (hasks : Asks (kind.Replies key.val) w₁ env.turns (some response) w₂)
    (hflushes : Flushes (kind.flushes key CYNARA_API_SUCCESS env.clock σ) env.flush w₂ w') :
  Serves supported plugins kind key session env σ w w'
  := by
  have hasked := h.asked hplugins hnoMiss hprobes hensure hget hmiss hasks
  cases kind with
  | check =>
      obtain ⟨asked, σ₂, m₂, hloop, hcurrent, hnone, hpasses, hsame, -, hreplied⟩ :=
        hasked (.check key.val _) _
      obtain ⟨rfl, w₃, hw₃, haccepted, ⟨result, sequenceNumber, rfl, hreplies⟩, hlater⟩ :=
        hreplied _ rfl
      have hflushes' : Flushes (σ₂.flushes key CYNARA_API_SUCCESS env.clock)
          env.flush w₂ w' := by
        rw [hsame]
        exact hflushes
      obtain ⟨m₃, hcurrent', hkeeps, hpasses', hquiet⟩ := hcurrent.updateMonitor hflushes'
      rw [Serves, Kind.call, check_miss hensure hget hmiss, Logic.requestResult,
        Logic.requestResponse, hloop]
      simp only [Option.map_some, Option.bind_some, ne_eq, not_true_eq_false, ↓reduceIte]
      split
      · exact ⟨_, _, rfl, acceptable_none, fun _ => ⟨m₃, hcurrent'⟩⟩
      · obtain ⟨answer', σ', hupdate, hacceptable, hfresh⟩ := hcurrent'.store hplugins
          (hkeeps _ hnone) hw₃ haccepted hreplies.answers (hlater.passes.trans hpasses')
        refine ⟨answer', σ', hupdate, hacceptable, ?_⟩
        intro hundisturbed
        apply hfresh
        have hnet := hundisturbed answer cache (by rw [hensure]; exact hget) hmiss
        exact hlater.trans (hquiet (by rw [hsame]; exact hnet))
  | simpleCheck =>
      obtain ⟨asked, σ₂, m₂, hloop, hcurrent, hnone, hpasses, -, -, hreplied⟩ :=
        hasked (.simpleCheck key.val _) _
      obtain ⟨rfl, w₃, hw₃, haccepted,
        ⟨retValue, result, sequenceNumber, rfl, hreplies⟩, hlater⟩ := hreplied _ rfl
      have hlater' : w₂.Later w' := hflushes
      rw [Serves, Kind.call, simpleCheck_miss hensure hget hmiss, Logic.requestSimpleResult,
        Logic.requestResponse, hloop]
      obtain ⟨rfl, hanswers⟩ | rfl := hreplies.answers
      · obtain ⟨answer', σ', hupdate, hacceptable, hfresh⟩ := (hcurrent.later hlater').store
          hplugins hnone hw₃ haccepted hanswers (hlater.passes.trans hlater'.passes)
        refine ⟨answer', σ', ?_, hacceptable, fun _ => hfresh (hlater.trans hlater')⟩
        simpa using hupdate
      · refine ⟨some CYNARA_API_ACCESS_NOT_RESOLVED, σ₂, rfl, ?_,
          fun _ => ⟨m₂, hcurrent.later hlater'⟩⟩
        rintro ret ⟨⟩
        exact Or.inr (Or.inl ⟨rfl, rfl⟩)

end

/-- Whatever the service does during a call, what is returned is acceptable. -/
theorem Current.serves {kind : Kind} (h : Current supported w σ.cache m)
    (hplugins : CapacityCache.Faithful supported plugins) (hnoMiss : NoMiss plugins)
    (hduring : During plugins kind key session env σ w w') :
  Serves supported plugins kind key session env σ w w'
  := by
  cases hduring with
  | refused hprobes hconnect => exact h.refused hprobes hconnect
  | hit hprobes hensure hget hhit hflushes =>
      exact h.hit hplugins hnoMiss hprobes hensure hget hhit hflushes
  | replied hprobes hensure hget hmiss hasks hflushes =>
      exact h.replied hplugins hnoMiss hprobes hensure hget hmiss hasks hflushes
  | unanswered hprobes hensure hget hmiss hasks =>
      exact h.unanswered hplugins hnoMiss hprobes hensure hget hmiss hasks

/-! ### Runs -/

/-- The states that are reached by calls, none of which is disturbed, while the service goes on.
The plugins of the client are those of the call. -/
inductive Reaches (supported : Set PolicyType) (w₀ : World) (σ₀ : Logic) : World → Logic → Prop
  | start : Reaches supported w₀ σ₀ w₀ σ₀
  | later {w w' : World} {σ : Logic} :
      Reaches supported w₀ σ₀ w σ → w.Later w' → Reaches supported w₀ σ₀ w' σ
  | call {w w' : World} {σ σ' : Logic} {plugins : PolicyType → Option ClientPlugin} {kind : Kind}
      {key : ValidKey} {session : ClientSession} {env : Logic.Surroundings}
      {answer : Option Int32} :
      Reaches supported w₀ σ₀ w σ → CapacityCache.Faithful supported plugins → NoMiss plugins →
      During plugins kind key session env σ w w' → Undisturbed plugins kind key session env σ →
      kind.call plugins key session env σ = some (answer, σ') → Reaches supported w₀ σ₀ w' σ'

def someKey : ValidKey := ⟨⟨[97], [], []⟩, rfl⟩

/-- A client with room for two results. -/
def newLogic : Logic := { cache := ⟨2, .empty, ∅⟩, monitoringEnabled := true }

/-- A call at a given time.  The service replies at once if it is asked. -/
def callAt (time : Int64) (isConnected : Bool) : Logic.Surroundings :=
  ⟨⟨isConnected, some true⟩, [⟨some (some (.check { policyType := DENY } 1)), none⟩],
    some (time, 0), ⟨⟨true, none⟩, some true⟩⟩

/-- The client after its first call. -/
def asked : Logic :=
  ((newLogic.check naivePlugins someKey [] (callAt 0 false)).getD (none, newLogic)).2

end ClientSync

end Cynara
