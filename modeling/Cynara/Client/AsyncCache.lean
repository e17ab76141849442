import Cynara.Client.AsyncConnection

/-!
# The cache of the asynchronous client

The service closes the connections of all clients when policies have changed, so an answer may
be cached only as long as the connection over which it has come is there.  The client clears its
cache whenever it finds that the connection is lost, before it makes a new one.

Here the client is put together with its cache and with the responses that it has read and not
processed yet.  The connections are numbered, and for each entry of the cache it is recorded over
which connection the answer has come.

There are two ways in which an answer outlives its connection.  An exception that is thrown when
the client connects leaves the responses that have been read, and they are processed although
there is no connection any more.  And `checkCache` looks its answer up before it flushes the
monitor: if the connection turns out to be lost then, the client clears the cache and makes a new
connection, but still returns the answer.  In all other runs the answers are fresh.
-/

namespace Cynara

namespace ClientAsync

open Std ProtocolClient PredefinedPolicyType

/-! ### The client and its cache -/

/-- A call of `checkCache` that has returned what it found in the cache: the answer, the number
of the connection over which it has come, unless there is none, and that of the connection when
the call returns. -/
structure Lookup where
  answer : Int
  source : Option ℕ
  connection : Option ℕ

/-- The client, its cache, the number of connections made so far, and the responses that have
been read with the numbers of the connections they have come over.  The connections over which
the entries of the cache have come and the calls of `checkCache` are recorded. -/
structure CachingClient where
  client : Client
  cache : CapacityCache
  connections : ℕ := 0
  readQueue : List (ℕ × Response) := []
  origin : Str → ℕ := fun _ => 0
  lookups : List Lookup := []

namespace CachingClient

variable (plugins : PolicyType → Option ClientPlugin)

/-- The part of the state that is not the cache. -/
def logic (c : CachingClient) : Logic := c.client.logic

/-- The number of the connection, if there is one. -/
def current (c : CachingClient) : Option ℕ :=
  if c.logic.socketClient.opened then some c.connections else none

/-- The cache is cleared by `onDisconnected`; the queue is cleared by a new connection and one
that has failed, but not if an exception is thrown. -/
def apply (c : CachingClient) : ConnectionOp → CachingClient
  | .onDisconnected => { c with cache := c.cache.clear }
  | .connect .succeeded => { c with connections := c.connections + 1, readQueue := [] }
  | .connect .inProgress => { c with connections := c.connections + 1, readQueue := [] }
  | .connect .failed => { c with readQueue := [] }
  | .connect .thrown => c
  | .completionFailed => { c with readQueue := [] }

/-- `checkCache` looks the answer up. -/
def looksUp (c : CachingClient) : Event → Bool
  | .checkCache key session _ _ alive _ _ =>
      isKeyValid key && isStringValid session && c.logic.operationPermitted
        && c.logic.socketClient.isConnected alive
  | _ => false

/-- The result of a check that has been answered is stored. -/
def update (number : ℕ) (check : CheckData) (result : PolicyResult) (cached : Int32)
    (c : CachingClient) : Option CachingClient := do
  let operation := CapacityCache.Operation.update plugins check.session check.key.val result
  let (answer, cache) ← c.cache.update plugins check.session check.key.val result
  if cached.toInt = answer then
    some { c with
      cache := cache
      origin :=
        if (c.cache.used operation).isSome then
          Function.update c.origin (CapacityCache.keyToString check.key.val) number
        else c.origin }
  else none

/-- The cache is used before anything else happens in a step, and the event has the answer that it
gives. -/
def consult (c : CachingClient) (event : Event) : Option CachingClient :=
  match event with
  | .checkCache key session cached _ _ _ _ =>
      if c.looksUp event then do
        let (answer, cache) ← c.cache.get plugins session key
        if cached.toInt = answer then some { c with cache := cache } else none
      else some c
  | .getResponse response cached _ _ =>
      match c.readQueue with
      | [] => none
      | (number, head) :: readQueue =>
          if head = response then
            let c := { c with readQueue := readQueue }
            match response, c.logic.checks[response.sequenceNumber]? with
            | .check result _, some check => c.update plugins number check result cached
            | .simpleCheck retValue result _, some check =>
                if retValue = CYNARA_API_SUCCESS then c.update plugins number check result cached
                else some c
            | _, _ => some c
          else none
  | _ => some c

/-- `receiveFromCynara` reads responses from the socket. -/
def receive (event : Event) (responses : List Response) (c : CachingClient) : CachingClient :=
  match event with
  | .receiveFromCynara _ _ =>
      if c.logic.socketClient.opened then
        { c with
          readQueue := c.readQueue ++ responses.map fun response => (c.connections, response) }
      else c
  | _ => c

/-- What `checkCache` has returned, unless an exception was thrown. -/
def record (before : CachingClient) (event : Event) (c : CachingClient) : CachingClient :=
  match event with
  | .checkCache key session cached clock alive net net' =>
      if h : isKeyValid key ∧ isStringValid session then
        if before.looksUp event
            ∧ (before.logic.checkCache ⟨key, isKeyValid_of_strings h⟩ cached clock alive net
              net').1.isSome then
          let source :=
            if cached = CYNARA_API_CACHE_MISS then none
            else some (before.origin (CapacityCache.keyToString key))
          { c with lookups := c.lookups ++ [⟨cached.toInt, source, c.current⟩] }
        else c
      else c
  | _ => c

/-- The state after an event, if the event can happen.  The responses are those that are read if
the event is a call of `receiveFromCynara`. -/
def step (c : CachingClient) (input : Event × List Response) : Option CachingClient := do
  let consulted ← c.consult plugins input.1
  let client ← c.client.step input.1
  let received := consulted.receive input.1 input.2
  let replaced := (c.client.ops input.1).foldl apply received
  return record c input.1 { replaced with client := client }

/-- A client that has just been made, with an empty cache. -/
def start (monitoringEnabled : Bool) (capacity : ℕ) : CachingClient where
  client := Client.start monitoringEnabled
  cache := { capacity := capacity }

/-- Every entry of the cache has come over the present connection, and so has every answer that
`checkCache` has returned, at the time when it did. -/
structure Fresh (c : CachingClient) : Prop where
  cached : ∀ k ∈ c.cache.keyValue, c.current = some (c.origin k)
  returned : ∀ lookup ∈ c.lookups, lookup.answer ≠ CYNARA_API_CACHE_MISS →
    lookup.source.isSome ∧ lookup.source = lookup.connection

/-- A response is processed only while there is a connection, and the connection that `checkCache`
has found is not lost before it returns. -/
def Attached (c : CachingClient) (input : Event × List Response) : Prop :=
  match input.1 with
  | .getResponse _ _ _ _ => c.logic.socketClient.opened = true
  | .checkCache _ _ _ _ alive net net' => alive = true → net.alive = true ∧ net'.alive = true
  | _ => True

instance (c : CachingClient) (input : Event × List Response) : Decidable (c.Attached input) :=
  match input with
  | (.getResponse _ _ _ _, _) => inferInstanceAs (Decidable (_ = true))
  | (.checkCache _ _ _ _ alive net net', _) =>
      inferInstanceAs (Decidable (alive = true → net.alive = true ∧ net'.alive = true))
  | (.createRequest _ _ _ _, _) => .isTrue trivial
  | (.cancelRequest _ _, _) => .isTrue trivial
  | (.process, _) => .isTrue trivial
  | (.finish _ _, _) => .isTrue trivial
  | (.callbackReturns, _) => .isTrue trivial
  | (.completeConnection _ _, _) => .isTrue trivial
  | (.processOut _ _ _, _) => .isTrue trivial
  | (.receiveFromCynara _ _, _) => .isTrue trivial
  | (.noResponse, _) => .isTrue trivial

end CachingClient

/-! ### Answers that stay fresh -/

namespace CachingClient

variable {plugins : PolicyType → Option ClientPlugin} {c c₁ : CachingClient} {event : Event}

/-- The answers of the cache and those of the past are fresh, and so are the responses that have
been read. -/
structure Current (c : CachingClient) : Prop extends c.Fresh where
  read : ∀ item ∈ c.readQueue, item.1 = c.connections

/-- An operation on the connection records nothing. -/
theorem apply_eq (op : ConnectionOp) (c : CachingClient) :
  (c.apply op).client = c.client ∧ (c.apply op).origin = c.origin
    ∧ (c.apply op).lookups = c.lookups
  := by
  rcases op with _ | (_ | _ | _ | _) | _ <;> exact ⟨rfl, rfl, rfl⟩

theorem lookups_foldl_apply (ops : List ConnectionOp) (c : CachingClient) :
  (ops.foldl apply c).lookups = c.lookups
  := List.foldlRecOn ops _ (motive := fun c' : CachingClient => c'.lookups = c.lookups) rfl
    fun c' hc' op _ => (apply_eq op c').2.2.trans hc'

theorem read_foldl_apply {ops : List ConnectionOp}
    (h : ∀ item ∈ c.readQueue, item.1 = c.connections) :
  ∀ item ∈ (ops.foldl apply c).readQueue, item.1 = (ops.foldl apply c).connections
  := by
  apply List.foldlRecOn ops _
    (motive := fun c' : CachingClient => ∀ item ∈ c'.readQueue, item.1 = c'.connections) h
  intro c' hc' op _
  rcases op with _ | (_ | _ | _ | _) | _
  · exact hc'
  · exact fun _ hitem => absurd hitem List.not_mem_nil
  · exact fun _ hitem => absurd hitem List.not_mem_nil
  · exact fun _ hitem => absurd hitem List.not_mem_nil
  · exact hc'
  · exact fun _ hitem => absurd hitem List.not_mem_nil

/-- A lost connection leaves an empty cache. -/
theorem keyValue_foldl_apply {ops : List ConnectionOp}
    (h : .onDisconnected ∈ ops ∨ c.cache.keyValue = ∅) :
  (ops.foldl apply c).cache.keyValue = ∅
  := by
  induction ops generalizing c with
  | nil => exact h.resolve_left List.not_mem_nil
  | cons op ops ih =>
      apply ih
      rcases h with hmem | hempty
      · rcases List.mem_cons.mp hmem with rfl | hmem
        · exact Or.inr rfl
        · exact Or.inl hmem
      · right
        rcases op with _ | (_ | _ | _ | _) | _
        · rfl
        all_goals exact hempty

/-- An answer that is stored came over the present connection. -/
theorem Current.update {number : ℕ} {check : CheckData} {result : PolicyResult} {cached : Int32}
    (hc : c.Current) (hopened : c.logic.socketClient.opened = true)
    (hnumber : number = c.connections)
    (h : c.update plugins number check result cached = some c₁) :
  c₁.Current ∧ c₁.client = c.client ∧ c₁.connections = c.connections
  := by
  cases hupdate : c.cache.update plugins check.session check.key.val result with
  | none => simp [CachingClient.update, hupdate] at h
  | some updated =>
      obtain ⟨answer, cache⟩ := updated
      simp only [CachingClient.update, hupdate, Option.bind_eq_bind, Option.bind_some] at h
      split at h
      · obtain rfl := Option.some.inj h
        refine ⟨⟨⟨?_, hc.returned⟩, hc.read⟩, rfl, rfl⟩
        intro k hk
        rcases CapacityCache.mem_of_update hupdate hk with hk | ⟨rfl, hused⟩
        · -- an entry that is kept has come over the connection, as the new one has
          have hold : c.current = some (c.origin k) := hc.cached k hk
          have hcurrent : c.current = some c.connections := if_pos hopened
          change c.current = some ((ite _ _ _ : Str → ℕ) k)
          split
          · by_cases hkey : k = CapacityCache.keyToString check.key.val
            · rw [hkey, Function.update_self, hnumber, hcurrent]
            · rw [Function.update_of_ne hkey, hold]
          · exact hold
        · have hcurrent : c.current = some c.connections := if_pos hopened
          change c.current = some ((ite _ _ _ : Str → ℕ) _)
          rw [if_pos hused, Function.update_self, hnumber, hcurrent]
      · cases h

theorem Current.tail {item : ℕ × Response} {readQueue : List (ℕ × Response)} (hc : c.Current)
    (h : c.readQueue = item :: readQueue) :
  { c with readQueue := readQueue }.Current
  := ⟨⟨hc.cached, hc.returned⟩,
    fun other hother => hc.read other (h ▸ List.mem_cons_of_mem item hother)⟩

/-- The use of the cache in a step keeps the client. -/
theorem Current.consult {responses : List Response} (hc : c.Current)
    (hattached : c.Attached (event, responses)) (h : c.consult plugins event = some c₁) :
  c₁.Current ∧ c₁.client = c.client ∧ c₁.connections = c.connections
  := by
  cases event with
  | checkCache key session cached clock alive net net' =>
      simp only [CachingClient.consult] at h
      split at h
      · cases hget : c.cache.get plugins session key with
        | none => simp [hget] at h
        | some found =>
            simp only [hget, Option.bind_eq_bind, Option.bind_some] at h
            split at h
            · obtain rfl := Option.some.inj h
              have hkeys := (CapacityCache.mem_of_get hget).1
              exact ⟨⟨⟨fun k hk => hc.cached k (hkeys k hk), hc.returned⟩, hc.read⟩, rfl, rfl⟩
            · cases h
      · obtain rfl := Option.some.inj h
        exact ⟨hc, rfl, rfl⟩
  | getResponse response cached clock net =>
      cases hqueue : c.readQueue with
      | nil => simp [CachingClient.consult, hqueue] at h
      | cons item readQueue =>
          have htail := hc.tail hqueue
          have hnumber : item.1 = c.connections := hc.read item (by simp [hqueue])
          simp only [CachingClient.consult, hqueue] at h
          split at h
          · split at h
            · exact htail.update hattached hnumber h
            · split at h
              · exact htail.update hattached hnumber h
              · obtain rfl := Option.some.inj h
                exact ⟨htail, rfl, rfl⟩
            · obtain rfl := Option.some.inj h
              exact ⟨htail, rfl, rfl⟩
          · cases h
  | _ =>
      obtain rfl := Option.some.inj h
      exact ⟨hc, rfl, rfl⟩

theorem Current.receive (event : Event) (responses : List Response) (hc : c.Current) :
  (c.receive event responses).Current ∧ (c.receive event responses).client = c.client
    ∧ (c.receive event responses).connections = c.connections
  := by
  unfold CachingClient.receive
  split
  · split
    · refine ⟨⟨⟨hc.cached, hc.returned⟩, ?_⟩, rfl, rfl⟩
      intro item hitem
      rcases List.mem_append.mp hitem with hitem | hitem
      · exact hc.read item hitem
      · obtain ⟨response, -, rfl⟩ := List.mem_map.mp hitem
        rfl
    · exact ⟨hc, rfl, rfl⟩
  · exact ⟨hc, rfl, rfl⟩

/-- A client that keeps its connection keeps its answers; one that replaces it has none. -/
theorem Current.replace {client : Client} {held : List ℕ} (hc : c.Current)
    (hinv : Client.Inv held c.client) (hstep : c.client.step event = some client) :
  { (c.client.ops event).foldl apply c with client := client }.Current
  := by
  rcases Client.clears_ops c.client event with hops | hops
  · have hopened := Client.opened_step hinv hstep hops
    rw [hops]
    refine ⟨⟨fun k hk => ?_, hc.returned⟩, hc.read⟩
    change (if client.logic.socketClient.opened then some c.connections else none) = _
    rw [hopened]
    exact hc.cached k hk
  · have hempty := keyValue_foldl_apply (c := c) (Or.inl hops)
    refine ⟨⟨fun k hk => ?_, ?_⟩, read_foldl_apply hc.read⟩
    · change k ∈ (List.foldl apply c (c.client.ops event)).cache.keyValue at hk
      rw [hempty] at hk
      exact absurd hk ExtTreeMap.not_mem_empty
    · change ∀ lookup ∈ (List.foldl apply c (c.client.ops event)).lookups, _
      rw [lookups_foldl_apply]
      exact hc.returned

/-- What `checkCache` returns has come over the connection that it has found, and this is still the
connection when it returns. -/
theorem Current.record {c' : CachingClient} {responses : List Response} (hc : c.Current)
    (hc' : c'.Current) (hattached : c.Attached (event, responses))
    (hconsult : c.consult plugins event = some c₁)
    (hcurrent : c.client.ops event = [] → c'.current = c.current) :
  (CachingClient.record c event c').Current
  := by
  cases event with
  | checkCache key session cached clock alive net net' =>
      simp only [CachingClient.record]
      split
      · rename_i hvalid
        split
        · rename_i hlooksUp
          refine ⟨⟨hc'.cached, ?_⟩, hc'.read⟩
          intro lookup hlookup hanswer
          rcases List.mem_append.mp hlookup with hlookup | hlookup
          · exact hc'.returned lookup hlookup hanswer
          · obtain rfl := List.mem_singleton.mp hlookup
            have hmiss : cached ≠ CYNARA_API_CACHE_MISS := by
              rintro rfl
              apply hanswer
              change (CYNARA_API_CACHE_MISS : Int32).toInt = _
              decide
            have hconnected : c.logic.socketClient.isConnected alive = true := by
              have hall := hlooksUp.1
              simp only [looksUp, Bool.and_eq_true] at hall
              exact hall.2
            have hops : c.client.ops (.checkCache key session cached clock alive net net')
                = [] := by
              simp only [Client.ops, dif_pos hvalid]
              exact Logic.checkCacheOps_of_alive hconnected hattached
            have hcached : c.current = some (c.origin (CapacityCache.keyToString key)) := by
              simp only [CachingClient.consult, if_pos hlooksUp.1] at hconsult
              cases hget : c.cache.get plugins session key with
              | none => simp [hget] at hconsult
              | some found =>
                  simp only [hget, Option.bind_eq_bind, Option.bind_some] at hconsult
                  split at hconsult
                  · rename_i hfound
                    apply hc.cached
                    apply (CapacityCache.mem_of_get hget).2
                    rw [← hfound]
                    exact hanswer
                  · cases hconsult
            rw [if_neg hmiss]
            exact ⟨rfl, hcached.symm.trans (hcurrent hops).symm⟩
        · exact hc'
      · exact hc'
  | _ => exact hc'

/-- What is cached was answered over the present connection, after each step. -/
theorem Current.step {input : Event × List Response} {c' : CachingClient} {held : List ℕ}
    (hc : c.Current) (hinv : Client.Inv held c.client) (hattached : c.Attached input)
    (h : c.step plugins input = some c') :
  c'.Current
  := by
  obtain ⟨event, responses⟩ := input
  cases hconsult : c.consult plugins event with
  | none => simp [CachingClient.step, hconsult] at h
  | some c₁ =>
      cases hstep : c.client.step event with
      | none => simp [CachingClient.step, hconsult, hstep] at h
      | some client =>
          obtain ⟨hc₁, hclient, hconnections⟩ := hc.consult hattached hconsult
          simp only [CachingClient.step, hconsult, hstep, Option.bind_eq_bind, Option.bind_some,
            Option.pure_def, Option.some.injEq] at h
          obtain ⟨hread, hclient', hconnections'⟩ := hc₁.receive event responses
          rw [hclient] at hclient'
          rw [← hclient'] at h hstep
          have hinv' : Client.Inv held (c₁.receive event responses).client := by
            rw [hclient']
            exact hinv
          rw [← h]
          refine hc.record (hread.replace hinv' hstep) hattached hconsult fun hops => ?_
          rw [← hclient'] at hops
          rw [hops]
          change (if client.logic.socketClient.opened then
            some (c₁.receive event responses).connections else none) = _
          rw [Client.opened_step hinv' hstep hops, hclient', hconnections', hconnections]
          rfl

/-- The steps are those of the client. -/
theorem step_client {input : Event × List Response} {c' : CachingClient}
    (h : c.step plugins input = some c') :
  c.client.step input.1 = some c'.client
  := by
  cases hconsult : c.consult plugins input.1 with
  | none => simp [CachingClient.step, hconsult] at h
  | some c₁ =>
      cases hstep : c.client.step input.1 with
      | none => simp [CachingClient.step, hconsult, hstep] at h
      | some client =>
          simp only [CachingClient.step, hconsult, hstep, Option.bind_eq_bind, Option.bind_some,
            Option.pure_def, Option.some.injEq] at h
          rw [← h]
          unfold CachingClient.record
          split
          · split
            · split
              · rfl
              · rfl
            · rfl
          · rfl

/-- As long as responses are processed only while there is a connection and the connection is not
lost during a call of `checkCache`, the cache holds only what has come over the present connection,
and `checkCache` returns nothing else. -/
theorem fresh_of_attached (plugins : PolicyType → Option ClientPlugin) (monitoringEnabled : Bool)
    (capacity : ℕ) (c : CachingClient)
    (h : Runs.Reaches (step plugins) Attached (start monitoringEnabled capacity) c) :
  c.Fresh
  := by
  have hinvariant : c.Current ∧ ∃ held, Client.Inv held c.client := by
    apply h.invariant
    · refine ⟨⟨⟨fun _ hk => absurd hk ExtTreeMap.not_mem_empty, ?_⟩, ?_⟩, [], ?_⟩
      · exact fun _ hlookup => absurd hlookup List.not_mem_nil
      · exact fun _ hitem => absurd hitem List.not_mem_nil
      · exact Client.inv_start monitoringEnabled
    · rintro c input c' ⟨hc, held, hinv⟩ hattached hstep
      obtain ⟨held', hinv', -⟩ := hinv.step (step_client hstep)
      exact ⟨hc.step hinv hattached hstep, held', hinv'⟩
  exact hinvariant.1.toFresh

/-- A check is answered, and `checkCache` is called for its key two minutes later. -/
def answerLookedUp (net : Net) : List (Event × List Response) :=
  [(.createRequest false ⟨[97], [], []⟩ [] ⟨true, .succeeded⟩, []),
    (.process, []),
    (.completeConnection true true, []),
    (.processOut (some .ALL_DATA_SENT) 0 .succeeded, []),
    (.receiveFromCynara (some true) .succeeded, [.check ⟨ALLOW, []⟩ 0]),
    (.getResponse (.check ⟨ALLOW, []⟩ 0) 2 (some (0, 0)) ⟨true, .succeeded⟩, []),
    (.callbackReturns, []),
    (.noResponse, []),
    (.checkCache ⟨[97], [], []⟩ [] 2 (some (120, 0)) true net ⟨true, .succeeded⟩, [])]

/-- Two checks are answered.  In the callback for the first answer a check is created; the
connection has been lost, and the attempt to connect throws an exception. -/
def answerDetached : List (Event × List Response) :=
  [(.createRequest false ⟨[97], [], []⟩ [] ⟨true, .succeeded⟩, []),
    (.createRequest false ⟨[98], [], []⟩ [] ⟨true, .succeeded⟩, []),
    (.process, []),
    (.completeConnection true true, []),
    (.processOut (some .ALL_DATA_SENT) 0 .succeeded, []),
    (.receiveFromCynara (some true) .succeeded, [.check ⟨ALLOW, []⟩ 0, .check ⟨ALLOW, []⟩ 1]),
    (.getResponse (.check ⟨ALLOW, []⟩ 0) 2 (some (0, 0)) ⟨true, .succeeded⟩, []),
    (.createRequest false ⟨[99], [], []⟩ [] ⟨false, .thrown⟩, []),
    (.callbackReturns, []),
    (.getResponse (.check ⟨ALLOW, []⟩ 1) 2 (some (0, 0)) ⟨true, .succeeded⟩, [])]

/-- The connection is there all the time, and the answer is found in the cache. -/
theorem fresh_answerLookedUp :
  ∃ c, Runs.Reaches (step naivePlugins) Attached (start true 10) c ∧
    c.lookups.map (fun lookup => lookup.answer) = [2] ∧ c.Fresh
  := by
  have hrun : (Runs.run (step naivePlugins) (fun c input => c.Attached input)
      (answerLookedUp ⟨true, .succeeded⟩) (start true 10)).any
        (fun c => c.lookups.map (fun lookup => lookup.answer) == [2]) = true := by
    decide +kernel
  obtain ⟨c, hc, hfinal⟩ := (Option.any_eq_true _ _).mp hrun
  have hreach := Runs.Reaches.run (fun _ _ => of_decide_eq_true) .start hc
  exact ⟨c, hreach, eq_of_beq hfinal, fresh_of_attached naivePlugins true 10 c hreach⟩

/-- The connection is lost during a call of `checkCache`, which returns over the second connection
that access is allowed, as it was over the first.  And the cache holds an answer although there is
no connection. -/
theorem not_fresh_lost :
  (∃ c, Runs.Reaches (step naivePlugins) (fun _ _ => True) (start true 10) c ∧
      ∃ lookup ∈ c.lookups, lookup.answer = CYNARA_API_ACCESS_ALLOWED ∧
        lookup.source = some 1 ∧ lookup.connection = some 2) ∧
    ∃ c, Runs.Reaches (step naivePlugins) (fun _ _ => True) (start false 10) c ∧
      c.current = none ∧ CapacityCache.keyToString ⟨[98], [], []⟩ ∈ c.cache.keyValue
  := by
  constructor
  · have hrun : (Runs.run (step naivePlugins) (fun _ _ => true)
        (answerLookedUp ⟨false, .succeeded⟩) (start true 10)).any
          (fun c => c.lookups.any fun lookup => lookup.answer == CYNARA_API_ACCESS_ALLOWED
            && lookup.source == some 1 && lookup.connection == some 2) = true := by
      decide +kernel
    obtain ⟨c, hc, hfinal⟩ := (Option.any_eq_true _ _).mp hrun
    obtain ⟨lookup, hmem, hlookup⟩ := List.any_eq_true.mp hfinal
    simp only [Bool.and_eq_true, beq_iff_eq] at hlookup
    exact ⟨c, Runs.Reaches.run (fun _ _ _ => trivial) .start hc, lookup, hmem, hlookup.1.1,
      hlookup.1.2, hlookup.2⟩
  · have hrun : (Runs.run (step naivePlugins) (fun _ _ => true) answerDetached
        (start false 10)).any (fun c => c.current == none
          && decide (CapacityCache.keyToString ⟨[98], [], []⟩ ∈ c.cache.keyValue)) = true := by
      decide +kernel
    obtain ⟨c, hc, hfinal⟩ := (Option.any_eq_true _ _).mp hrun
    simp only [Bool.and_eq_true, beq_iff_eq, decide_eq_true_eq] at hfinal
    exact ⟨c, Runs.Reaches.run (fun _ _ _ => trivial) .start hc, hfinal⟩

end CachingClient

end ClientAsync

end Cynara
