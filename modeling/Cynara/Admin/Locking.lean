import Cynara.Admin.Interface
import Cynara.Service.Restart

/-!
# The lock on the database

The service and the library of administrators work on the same files.  The service takes the lock
before it loads the database and keeps it as long as it runs.  A call of the library tries to take
it: if it succeeds, the call loads the database and does its work itself; otherwise it sends its
request to the service.  When the call returns, the lock is given back, and so it is when a process
ends.

Any number of processes run at once.  They change the directory one instruction at a time, and each
of them may be stopped between any two instructions.  What has happened is recorded in a log: the
calls that have begun, the loads, and the requests that were rejected or saved, with their calls.

As long as no two threads use one handle of the library at the same time, at most one process has
the database open, and every call that returns has taken effect at one moment between its begin and
its end: it returns what it returns on the buckets of that moment, and the buckets that it saves are
those that the next one finds.  The buckets of a moment are those of the log: the buckets that were
saved last, and what the service keeps in memory of the requests that it has rejected since then.
-/

open Std

namespace Cynara

open PredefinedPolicyType InMemoryStorageBackend Str StoragePath Integrity Admin

namespace Locking

/-! ### The processes -/

/-- A thread that calls the library, or a process of the service. -/
abbrev Caller := ℕ

/-- A lock file that has been opened, a `Lockable`. -/
abbrev Handle := ℕ

/-- A call of the library, with the place of its begin in the log. -/
structure Call where
  function : Function
  since : ℕ

/-- What is recorded of a run: a call begins; a process has read the database; the service rejects
the request of a call; and the save of a call has created its guard. -/
inductive Entry where
  | begun (function : Function)
  | loaded
  | rejected (call : Call)
  | saved (call : Call)

/-- Who has the lock. -/
inductive Role where
  | library (call : Call)
  | service

/-- Only the function that lists the descriptions of the plugins does not need the database. -/
def Role.Loads : Role → Prop
  | .library call => call.function ≠ .listDescriptions
  | .service => True

/-- What is done with an open database: it is being loaded, it is in memory, or it is being saved
after a request; there may be a client of the service that waits for the end of the save. -/
inductive Work where
  | loading (s : Buckets) (todo : List Instruction)
  | ready (s : Buckets)
  | saving (client : Option Caller) (call : Call) (request : Request) (s : Buckets)
      (todo : List Instruction)

/-- The instructions that are left. -/
def Work.todo : Work → List Instruction
  | .loading _ todo => todo
  | .ready _ => []
  | .saving _ _ _ _ todo => todo

/-- What a thread or process is doing: the service waits for the lock; with the lock the database
is opened; without it a call waits for the service; in the end a call has a result.  An instruction
or a load that fails, and an exception that no handler catches, lead to `failed`. -/
inductive Activity where
  | idle
  | waiting
  | locked (role : Role)
  | opened (role : Role) (work : Work)
  | failed
  | online (call : Call)
  | finished (call : Call) (ret : ApiCode) (output : Output)

/-- The threads and processes, the disk, the handle that has the lock, and the log. -/
structure System where
  disk : Disk
  owner : Option Handle
  activity : Caller → Activity
  log : List Entry

/-- The service does not answer on a connection that is lost. -/
def Work.forget (c : Caller) : Work → Work
  | .saving client call request s todo =>
      .saving (client.filter fun d => d ≠ c) call request s todo
  | work => work

/-- The service does not answer to a caller that has left. -/
def Activity.forget (c : Caller) : Activity → Activity
  | .opened role work => .opened role (work.forget c)
  | activity => activity

namespace System

/-- A caller goes on to something else. -/
def set (σ : System) (c : Caller) (activity : Activity) : System :=
  { σ with activity := Function.update σ.activity c activity }

/-- The log gets an entry. -/
def record (σ : System) (entry : Entry) : System := { σ with log := σ.log ++ [entry] }

/-- All connections of a caller are lost. -/
def disconnect (σ : System) (c : Caller) : System :=
  { σ with activity := fun d => (σ.activity d).forget c }

/-- The service answers to a client, if there is one. -/
def answer (σ : System) (client : Option Caller) (call : Call) (ret : ApiCode) (output : Output) :
    System :=
  match client with
  | some c => σ.set c (.finished call ret output)
  | none => σ

variable (handle : Caller → Handle)

/-- A file that is locked through a handle can be locked again through the same handle. -/
def Available (σ : System) (c : Caller) : Prop := σ.owner = none ∨ σ.owner = some (handle c)

/-- The lock is taken through the handle of a caller. -/
def lock (σ : System) (c : Caller) : System := { σ with owner := some (handle c) }

/-- The destructor of `FileLock`, which does not ask whether the lock was taken. -/
def unlock (σ : System) (c : Caller) : System :=
  { σ with owner := if σ.owner = some (handle c) then none else σ.owner }

end System

/-- The texts of a function that can be saved. -/
def Separated : Function → Prop
  | .change request => request.Separated
  | _ => True

variable {P : Type}

/-- The surroundings of one call; the save is not a part of it. -/
def surroundings (plugins : PluginManager P) (order : IterationOrder Str) (fuel : ℕ) :
    Surroundings P :=
  ⟨plugins, order, fuel, .saved⟩

/-! ### The steps -/

section

variable (digest : Str → Vector UInt8 16) (plugins : PluginManager P) (handle : Caller → Handle)

/-- The steps of the system. -/
inductive Step : System → System → Prop where
  -- `Logic::callApiFunction`
  | offline {σ : System} {c : Caller} (f : Function) (idle : σ.activity c = .idle)
      (available : σ.Available handle c) :
      Step σ (((σ.record (.begun f)).lock handle c).set c (.locked (.library ⟨f, σ.log.length⟩)))
  | online {σ : System} {c : Caller} (f : Function) (idle : σ.activity c = .idle)
      (taken : ¬ σ.Available handle c) :
      Step σ ((σ.record (.begun f)).set c (.online ⟨f, σ.log.length⟩))
  -- the service is started and waits for the lock
  | boot {σ : System} {c : Caller} (idle : σ.activity c = .idle) : Step σ (σ.set c .waiting)
  | lock {σ : System} {c : Caller} (waiting : σ.activity c = .waiting)
      (available : σ.Available handle c) :
      Step σ ((σ.lock handle c).set c (.locked .service))
  -- with the lock, the database is loaded
  | load {σ : System} {c : Caller} {role : Role} {s : Buckets} {todo : List Instruction}
      (order dirOrder : IterationOrder Str) (locked : σ.activity c = .locked role)
      (loads : role.Loads)
      (loaded : startLoad digest order dirOrder σ.disk = .loading s todo) :
      Step σ (σ.set c (.opened role (.loading s todo)))
  | loadFails {σ : System} {c : Caller} {role : Role} (order dirOrder : IterationOrder Str)
      (locked : σ.activity c = .locked role) (loads : role.Loads)
      (corrupted : startLoad digest order dirOrder σ.disk = .failed) : Step σ (σ.set c .failed)
  | loadStep {σ : System} {c : Caller} {role : Role} {s : Buckets} {i : Instruction}
      {rest more : List Instruction} {disk : Disk}
      (opened : σ.activity c = .opened role (.loading s (i :: rest)))
      (hexec : exec i σ.disk = some (disk, more)) :
      Step σ ({ σ with disk := disk }.set c (.opened role (.loading s (more ++ rest))))
  | loaded {σ : System} {c : Caller} {role : Role} {s : Buckets}
      (opened : σ.activity c = .opened role (.loading s [])) :
      Step σ ((σ.record .loaded).set c (.opened role (.ready s)))
  | describe {σ : System} {c : Caller} {call : Call}
      (locked : σ.activity c = .locked (.library call))
      (lists : call.function = .listDescriptions) :
      Step σ (σ.set c (.finished call .SUCCESS
        (.descriptions (predefinedPolicyDescr ++ plugins.getPolicyDescriptions))))
  -- the work of a call offline, which is saved or not
  | work {σ : System} {c : Caller} {call : Call} {s : Buckets} {ret : ApiCode} {output : Output}
      (order : IterationOrder Str) (fuel : ℕ)
      (opened : σ.activity c = .opened (.library call) (.ready s))
      (called : OfflineLogic.call (surroundings plugins order fuel) (.returned s) call.function
        = some (ret, output, none)) :
      Step σ (σ.set c (.finished call ret output))
  | save {σ : System} {c : Caller} {call : Call} {request : Request} {s s' : Buckets}
      {ret : ApiCode} {output : Output} (order : IterationOrder Str) (fuel : ℕ)
      (dumpOrder : DumpOrder) (opened : σ.activity c = .opened (.library call) (.ready s))
      (change : call.function = .change request)
      (called : OfflineLogic.call (surroundings plugins order fuel) (.returned s) call.function
        = some (ret, output, some s')) :
      Step σ (σ.set c (.opened (.library call) (.saving none call request s'
        (InMemoryStorageBackend.save digest dumpOrder s'))))
  -- the service executes a request to change the database
  | accept {σ : System} {c d : Caller} {call : Call} {request : Request} {s s' : Buckets}
      (order : IterationOrder Str) (fuel : ℕ) (dumpOrder : DumpOrder)
      (opened : σ.activity c = .opened .service (.ready s)) (asked : σ.activity d = .online call)
      (change : call.function = .change request)
      (executed : Logic.execute ((surroundings plugins order fuel).service false) fuel s request
        = some (some .OK, s')) :
      Step σ (σ.set c (.opened .service (.saving (some d) call request s'
        (InMemoryStorageBackend.save digest dumpOrder s'))))
  | reject {σ : System} {c d : Caller} {call : Call} {request : Request} {s s' : Buckets}
      {code : Code} (order : IterationOrder Str) (fuel : ℕ)
      (opened : σ.activity c = .opened .service (.ready s)) (asked : σ.activity d = .online call)
      (change : call.function = .change request) (rejected : code ≠ .OK)
      (executed : Logic.execute ((surroundings plugins order fuel).service false) fuel s request
        = some (some code, s')) (delivered : Bool) :
      Step σ (((σ.record (.rejected call)).set c (.opened .service (.ready s'))).answer
        (if delivered then some d else none) call
        (OnlineLogic.interpretCodeResponse code.toUInt16) .nothing)
  | throws {σ : System} {c d : Caller} {call : Call} {request : Request} {s s' : Buckets}
      (order : IterationOrder Str) (fuel : ℕ)
      (opened : σ.activity c = .opened .service (.ready s)) (asked : σ.activity d = .online call)
      (change : call.function = .change request)
      (executed : Logic.execute ((surroundings plugins order fuel).service false) fuel s request
        = some (none, s')) :
      Step σ (σ.set c .failed)
  -- the service answers a question
  | respond {σ : System} {c d : Caller} {call : Call} {s s' : Buckets}
      {response : ProtocolAdmin.Response} (order : IterationOrder Str) (fuel : ℕ)
      (sequenceNumber : UInt16) (opened : σ.activity c = .opened .service (.ready s))
      (asked : σ.activity d = .online call) (question : ∀ request, call.function ≠ .change request)
      (answered : Logic.answer (surroundings plugins order fuel) false s
        (OnlineLogic.request sequenceNumber call.function) = some (.responds response, s'))
      (delivered : Bool) :
      Step σ ((σ.set c (.opened .service (.ready s'))).answer (if delivered then some d else none)
        call (OnlineLogic.interpret call.function response).1
        (OnlineLogic.interpret call.function response).2)
  | throwsAsked {σ : System} {c d : Caller} {call : Call} {s s' : Buckets}
      (order : IterationOrder Str) (fuel : ℕ) (sequenceNumber : UInt16)
      (opened : σ.activity c = .opened .service (.ready s)) (asked : σ.activity d = .online call)
      (question : ∀ request, call.function ≠ .change request)
      (answered : Logic.answer (surroundings plugins order fuel) false s
        (OnlineLogic.request sequenceNumber call.function) = some (.throws, s')) :
      Step σ (σ.set c .failed)
  -- a save; it is recorded when its guard is created
  | saveStep {σ : System} {c : Caller} {role : Role} {client : Option Caller} {call : Call}
      {request : Request} {s : Buckets} {i : Instruction} {rest more : List Instruction}
      {disk : Disk}
      (opened : σ.activity c = .opened role (.saving client call request s (i :: rest)))
      (hexec : exec i σ.disk = some (disk, more)) :
      Step σ (System.set
        { σ with disk := disk, log := if commits i then σ.log ++ [.saved call] else σ.log } c
        (.opened role (.saving client call request s (more ++ rest))))
  | fails {σ : System} {c : Caller} {role : Role} {work : Work} {i : Instruction}
      {rest : List Instruction} (opened : σ.activity c = .opened role work)
      (todo : work.todo = i :: rest) (hexec : exec i σ.disk = none) : Step σ (σ.set c .failed)
  | savedOffline {σ : System} {c : Caller} {client : Option Caller} {call : Call}
      {request : Request} {s : Buckets}
      (opened : σ.activity c = .opened (.library call) (.saving client call request s [])) :
      Step σ (σ.set c (.finished call .SUCCESS .nothing))
  | savedOnline {σ : System} {c : Caller} {client : Option Caller} {call : Call}
      {request : Request} {s : Buckets}
      (opened : σ.activity c = .opened .service (.saving client call request s []))
      (invalidates : plugins.invalidateAll.isSome) :
      Step σ ((σ.set c (.opened .service (.ready s))).answer client call .SUCCESS .nothing)
  | crashes {σ : System} {c : Caller} {client : Option Caller} {call : Call}
      {request : Request} {s : Buckets}
      (opened : σ.activity c = .opened .service (.saving client call request s []))
      (null : plugins.invalidateAll.isNone) : Step σ (σ.set c .failed)
  -- a connection is lost: the request is sent again, or the service is not there any more
  | reconnect {σ : System} {c : Caller} {call : Call} (waits : σ.activity c = .online call) :
      Step σ (σ.disconnect c)
  | giveUp {σ : System} {c : Caller} {call : Call} (waits : σ.activity c = .online call) :
      Step σ ((σ.disconnect c).set c (.finished call .SERVICE_NOT_AVAILABLE .nothing))
  -- a call returns, and a process ends or is killed
  | returns {σ : System} {c : Caller} {call : Call} {ret : ApiCode} {output : Output}
      (finished : σ.activity c = .finished call ret output) :
      Step σ ((σ.unlock handle c).set c .idle)
  | stop {σ : System} (c : Caller) : Step σ (((σ.disconnect c).unlock handle c).set c .idle)

end

/-! ### One call after the other -/

section

variable (plugins : PluginManager P)

/-- A call has begun where it says. -/
def Call.Begun (call : Call) (log : List Entry) : Prop :=
  log[call.since]? = some (.begun call.function)

/-- The buckets that are saved and those in memory after what a log records: a load reads what is
saved; a request that is rejected may change what is in memory, and one that is accepted is saved.
All requests are those of calls that have begun before. -/
inductive Applies (s₀ : Buckets) : List Entry → Buckets → Buckets → Prop where
  | start : Applies s₀ [] s₀ s₀
  | begun {log : List Entry} {saved memory : Buckets} (function : Function)
      (before : Applies s₀ log saved memory) :
      Applies s₀ (log ++ [.begun function]) saved memory
  | loaded {log : List Entry} {saved memory : Buckets} (before : Applies s₀ log saved memory) :
      Applies s₀ (log ++ [.loaded]) saved saved
  | rejected {log : List Entry} {saved memory s : Buckets} {call : Call} {request : Request}
      {code : Code} (order : IterationOrder Str) (fuel : ℕ)
      (before : Applies s₀ log saved memory) (begun : call.Begun log)
      (change : call.function = .change request) (rejected : code ≠ .OK)
      (executed : Logic.execute ((surroundings plugins order fuel).service false) fuel memory
        request = some (some code, s)) :
      Applies s₀ (log ++ [.rejected call]) saved s
  | saved {log : List Entry} {saved memory s : Buckets} {call : Call} {request : Request}
      (order : IterationOrder Str) (fuel : ℕ)
      (before : Applies s₀ log saved memory) (begun : call.Begun log)
      (change : call.function = .change request)
      (executed : Logic.execute ((surroundings plugins order fuel).service false) fuel memory
        request = some (some .OK, s)) :
      Applies s₀ (log ++ [.saved call]) s s

/-- A call takes effect at one moment since it began: it returns what it returns on the buckets in
memory at that moment, and if it saves buckets, this is what is recorded next. -/
structure TakesEffect (s₀ : Buckets) (log : List Entry) (call : Call) (ret : ApiCode)
    (output : Output) (moment : ℕ) : Prop where
  begun : call.Begun (log.take moment)
  bound : moment ≤ log.length
  effect : ∃ order fuel saved memory result, Applies plugins s₀ (log.take moment) saved memory
    ∧ OfflineLogic.call (surroundings plugins order fuel) (.returned memory) call.function
      = some (ret, output, result)
    ∧ ∀ s, result = some s →
      log[moment]? = some (.saved call) ∧ Applies plugins s₀ (log.take (moment + 1)) s s

/-- A call has taken effect, or it has found no service. -/
def Answered (s₀ : Buckets) (log : List Entry) (call : Call) (ret : ApiCode) (output : Output) :
    Prop :=
  ret = .SERVICE_NOT_AVAILABLE ∨ ∃ moment, TakesEffect plugins s₀ log call ret output moment

end

/-- The database is locked, and read or written. -/
def Activity.Opens : Activity → Prop
  | .locked _ | .opened _ _ => True
  | _ => False

section

variable {env : Surroundings P} {s s' : Buckets} {request : Request}

/-- The two outcomes of a request that the library executes. -/
theorem call_change {o : Outcome ServiceException Buckets}
    (h : Logic.perform (env.service false) env.fuel s request = some o) :
  (o.thrown = none
      ∧ OfflineLogic.call env (.returned s) (.change request)
        = some (.SUCCESS, .nothing, some o.state))
    ∨ ∃ e, o.thrown = some e
      ∧ OfflineLogic.call env (.returned s) (.change request)
        = some (OfflineLogic.tryCatch (OfflineLogic.catches request (.service e)), .nothing, none)
  := by
  have hwork : OfflineLogic.work env s request = some o := h
  cases hthrown : o.thrown with
  | none =>
      refine Or.inl ⟨rfl, ?_⟩
      simp only [OfflineLogic.call, OfflineLogic.acquireDatabase, Outcome.returned_thrown,
        Outcome.returned_state, hwork, Option.map_some, hthrown]
  | some e =>
      refine Or.inr ⟨e, rfl, ?_⟩
      simp only [OfflineLogic.call, OfflineLogic.acquireDatabase, Outcome.returned_thrown,
        Outcome.returned_state, hwork, Option.map_some, hthrown]

/-- The library saves what the service saves. -/
theorem call_saves_iff {ret : ApiCode} {output : Output} :
  OfflineLogic.call env (.returned s) (.change request) = some (ret, output, some s') ↔
    Logic.execute (env.service false) env.fuel s request = some (some .OK, s')
      ∧ ret = .SUCCESS ∧ output = .nothing
  := by
  have hintact : ¬ (env.service false).dbCorrupted = true := Bool.false_ne_true
  rw [Logic.execute, if_neg hintact]
  constructor
  · intro h
    obtain ⟨o, hperform, -⟩ := Option.map_eq_some_iff.mp h
    have ho : Logic.perform (env.service false) env.fuel s request = some o := hperform
    obtain ⟨hthrown, hcall⟩ | ⟨e, -, hcall⟩ := call_change ho
    · rw [hcall] at h
      simp only [Option.some.injEq, Prod.mk.injEq] at h
      obtain ⟨rfl, rfl, rfl⟩ := h
      rw [ho, Option.map_some, hthrown]
      exact ⟨rfl, rfl, rfl⟩
    · rw [hcall] at h
      cases h
  · rintro ⟨h, rfl, rfl⟩
    obtain ⟨o, ho, hcode⟩ := Option.map_eq_some_iff.mp h
    obtain ⟨hthrown, hcall⟩ | ⟨e, hthrown, -⟩ := call_change ho
    · rw [hthrown] at hcode
      obtain ⟨-, rfl⟩ := Prod.mk.inj hcode
      exact hcall
    · rw [hthrown] at hcode
      exact absurd (Prod.mk.inj hcode).1 (Logic.catches_ne_ok request e)

/-- The library has the same code as the service for a request that is rejected. -/
theorem call_of_rejected (hsave : env.save = .saved) {code : Code} (hcode : code ≠ .OK)
    (h : Logic.execute (env.service false) env.fuel s request = some (some code, s')) :
  OfflineLogic.call env (.returned s) (.change request)
    = some (OnlineLogic.interpretCodeResponse code.toUInt16, .nothing, none)
  := by
  have hintact : ¬ (env.service false).dbCorrupted = true := Bool.false_ne_true
  rw [Logic.execute, if_neg hintact] at h
  obtain ⟨o, ho, heq⟩ := Option.map_eq_some_iff.mp h
  obtain ⟨hthrown, -⟩ | ⟨e, hthrown, hcall⟩ := call_change ho
  · rw [hthrown] at heq
    exact absurd (Option.some.inj (Prod.mk.inj heq).1).symm hcode
  · rw [hthrown] at heq
    obtain ⟨code', hcode', hoffline⟩ := Logic.catches_of_saved hsave ho hthrown
    obtain rfl := Option.some.inj (hcode'.symm.trans (Prod.mk.inj heq).1)
    rw [hcall, hoffline]
    rfl

/-- A question is answered by the service as by the library, and changes nothing. -/
theorem call_of_answer {f : Function} (hf : ∀ request, f ≠ .change request)
    {sequenceNumber : UInt16} {response : ProtocolAdmin.Response}
    (h : Logic.answer env false s (OnlineLogic.request sequenceNumber f)
      = some (.responds response, s')) :
  s' = s ∧ OfflineLogic.call env (.returned s) f
    = some ((OnlineLogic.interpret f response).1, (OnlineLogic.interpret f response).2, none)
  := by
  obtain ⟨⟨ret, output, saved⟩, hcall⟩ := call_of_answer_eq_some h
  obtain ⟨rfl, response', hanswer, -, hinterpret⟩ := answer_question hf sequenceNumber hcall
  rw [h] at hanswer
  obtain ⟨hresponse, hs⟩ := Prod.mk.inj (Option.some.inj hanswer)
  rw [Reaction.responds.inj hresponse, hinterpret]
  exact ⟨hs, hcall⟩

/-- No exception leaves the handlers of the requests that change the database. -/
theorem execute_ne_none (hsave : env.save = .saved) :
  Logic.execute (env.service false) env.fuel s request ≠ some (none, s')
  := by
  have hintact : ¬ (env.service false).dbCorrupted = true := Bool.false_ne_true
  intro h
  rw [Logic.execute, if_neg hintact] at h
  obtain ⟨o, ho, heq⟩ := Option.map_eq_some_iff.mp h
  cases hthrown : o.thrown with
  | none =>
      rw [hthrown] at heq
      cases heq
  | some e =>
      obtain ⟨code, hcode, -⟩ := Logic.catches_of_saved hsave ho hthrown
      rw [hthrown] at heq
      cases hcode.symm.trans (Prod.mk.inj heq).1

/-- No exception leaves the handlers of the questions. -/
theorem answer_ne_throws {f : Function} (hf : ∀ request, f ≠ .change request)
    (sequenceNumber : UInt16) :
  Logic.answer env false s (OnlineLogic.request sequenceNumber f) ≠ some (.throws, s')
  := by
  intro h
  obtain ⟨⟨ret, output, saved⟩, hcall⟩ := call_of_answer_eq_some h
  obtain ⟨-, response, hanswer, -⟩ := answer_question hf sequenceNumber hcall
  rw [h] at hanswer
  cases hanswer

end

/-! ### The invariant -/

variable {digest : Str → Vector UInt8 16} {plugins : PluginManager P} {handle : Caller → Handle}
  {s₀ : Buckets}

/-- What the texts of the calls have to satisfy. -/
def AllSeparated (log : List Entry) : Prop := ∀ f, .begun f ∈ log → Separated f

section

variable (digest plugins s₀)

/-- A save that has not created its guard: the buckets that it writes are those of a request that
was executed on what was in memory. -/
structure Uncommitted (disk : Disk) (log : List Entry) (request : Request) (s : Buckets)
    (todo : List Instruction) : Prop where
  split : ∃ pre post, todo = pre ++ .createGuard s :: post ∧ (∀ i ∈ pre, commits i = false)
    ∧ ∀ i ∈ post, commits i = false
  executed : ∃ order fuel memory, Applies plugins s₀ log disk.committed memory
    ∧ Logic.execute ((surroundings plugins order fuel).service false) fuel memory request
      = some (some .OK, s)

/-- A save that has created its guard: its call has taken effect. -/
structure Committed (disk : Disk) (log : List Entry) (call : Call) (s : Buckets)
    (todo : List Instruction) : Prop where
  quiet : ∀ i ∈ todo, commits i = false
  committed : disk.committed = s
  applies : Applies plugins s₀ log s s
  effect : ∃ moment, TakesEffect plugins s₀ log call .SUCCESS .nothing moment

/-- What holds of an open database. -/
def Work.Sound (disk : Disk) (log : List Entry) : Work → Prop
  | .loading s todo =>
      s = disk.committed ∧ (∀ i ∈ todo, commits i = false) ∧ Safe digest (Clean digest) todo disk
  | .ready s => Clean digest disk ∧ Storable s ∧ Applies plugins s₀ log disk.committed s
  | .saving _ call request s todo =>
      Safe digest (Clean digest) todo disk ∧ Storable s ∧ call.Begun log
        ∧ call.function = .change request
        ∧ (Uncommitted plugins s₀ disk log request s todo
          ∨ Committed plugins s₀ disk log call s todo)

/-- What holds of a thread or process. -/
def Activity.Sound (disk : Disk) (log : List Entry) : Activity → Prop
  | .idle | .waiting | .locked .service => True
  | .locked (.library call) | .online call => call.Begun log
  | .opened role work =>
      (∀ call, role = .library call → call.Begun log) ∧ work.Sound digest plugins s₀ disk log
  | .failed => False
  | .finished call ret output => Answered plugins s₀ log call ret output

/-- The client that waits for the end of a save. -/
def Activity.client : Activity → Option (Caller × Call)
  | .opened _ (.saving (some d) call _ _ _) => some (d, call)
  | _ => none

/-- The invariant of the system. -/
structure Invariant (handle : Caller → Handle) (σ : System) : Prop where
  owner : ∀ c, (σ.activity c).Opens → σ.owner = some (handle c)
  sound : ∀ c, (σ.activity c).Sound digest plugins s₀ σ.disk σ.log
  recoverable : Recoverable digest σ.disk
  storable : Storable σ.disk.committed
  applies : ∃ memory, Applies plugins s₀ σ.log σ.disk.committed memory
  clients : ∀ c d call, (σ.activity c).client = some (d, call) → σ.activity d = .online call

end

/-! ### What other steps leave -/

section

variable {disk : Disk} {log log' : List Entry} {call : Call} {ret : ApiCode} {output : Output}

/-- What has begun stays in the log. -/
theorem Call.Begun.mono (h : call.Begun log) (hlog : log <+: log') :
  call.Begun log'
  := by
  obtain ⟨later, rfl⟩ := hlog
  obtain ⟨hlt, -⟩ := List.getElem?_eq_some_iff.mp h
  exact (List.getElem?_append_left hlt).trans h

/-- The texts of a call that has begun can be saved. -/
theorem Call.Begun.separated (h : call.Begun log) (hlog : AllSeparated log) {request : Request}
    (hchange : call.function = .change request) :
  request.Separated
  := by
  have hseparated := hlog call.function (List.mem_of_getElem? h)
  rw [hchange] at hseparated
  exact hseparated

/-- What a call has done does not depend on what is recorded later. -/
theorem TakesEffect.mono {moment : ℕ}
    (h : TakesEffect plugins s₀ log call ret output moment) (hlog : log <+: log') :
  TakesEffect plugins s₀ log' call ret output moment
  := by
  obtain ⟨later, rfl⟩ := hlog
  obtain ⟨hbegun, hbound, order, fuel, saved, memory, result, hmemory, hcall, heffect⟩ := h
  have htake : (log ++ later).take moment = log.take moment :=
    List.take_append_of_le_length hbound
  refine ⟨?_, ?_, order, fuel, saved, memory, result, ?_, hcall, ?_⟩
  · rw [htake]
    exact hbegun
  · rw [List.length_append]
    omega
  · rw [htake]
    exact hmemory
  · intro s hs
    obtain ⟨hnext, happlies⟩ := heffect s hs
    obtain ⟨hlt, -⟩ := List.getElem?_eq_some_iff.mp hnext
    refine ⟨(List.getElem?_append_left hlt).trans hnext, ?_⟩
    rw [List.take_append_of_le_length hlt]
    exact happlies

/-- What a call has returned stays explained while the log grows. -/
theorem Answered.mono (h : Answered plugins s₀ log call ret output) (hlog : log <+: log') :
  Answered plugins s₀ log' call ret output
  := by
  obtain hret | ⟨moment, hmoment⟩ := h
  · exact Or.inl hret
  · exact Or.inr ⟨moment, hmoment.mono hlog⟩

/-- A thread or process that has not opened the database is not affected by the others. -/
theorem Activity.Sound.mono {a : Activity} (h : a.Sound digest plugins s₀ disk log)
    (hopens : ¬ a.Opens) (hlog : log <+: log') (disk' : Disk) :
  a.Sound digest plugins s₀ disk' log'
  := by
  cases a with
  | idle | waiting => trivial
  | locked role => exact absurd trivial hopens
  | opened role work => exact absurd trivial hopens
  | failed => exact h
  | online call => exact Call.Begun.mono h hlog
  | finished call ret output => exact Answered.mono h hlog

/-- The begin of a call affects nobody, whatever is open. -/
theorem Activity.Sound.begun {a : Activity} (h : a.Sound digest plugins s₀ disk log)
    (f : Function) :
  a.Sound digest plugins s₀ disk (log ++ [.begun f])
  := by
  have hlog : log <+: log ++ [.begun f] := List.prefix_append _ _
  cases a with
  | locked role =>
      cases role with
      | library call => exact Call.Begun.mono h hlog
      | service => trivial
  | opened role work =>
      obtain ⟨hbegun, hwork⟩ := h
      refine ⟨fun call hcall => (hbegun call hcall).mono hlog, ?_⟩
      cases work with
      | loading s todo => exact hwork
      | ready s => exact ⟨hwork.1, hwork.2.1, .begun f hwork.2.2⟩
      | saving client call request s todo =>
          obtain ⟨hsafe, hs, hcall, hchange, hstate⟩ := hwork
          refine ⟨hsafe, hs, hcall.mono hlog, hchange, ?_⟩
          obtain ⟨hsplit, order, fuel, memory, hmemory, hexecuted⟩
            | ⟨hquiet, hdone, happlies, moment, heffect⟩ := hstate
          · exact Or.inl ⟨hsplit, order, fuel, memory, .begun f hmemory, hexecuted⟩
          · exact Or.inr ⟨hquiet, hdone, .begun f happlies, moment, heffect.mono hlog⟩
  | _ => exact h.mono id hlog disk

end

/-! ### Lost connections -/

namespace Activity

variable {a : Activity} {c : Caller}

theorem client_saving (role : Role) (client : Option Caller) (call : Call) (request : Request)
    (s : Buckets) (todo : List Instruction) :
  (opened role (.saving client call request s todo)).client = client.map fun d => (d, call)
  := by
  cases client with
  | none => rfl
  | some d => rfl

/-- Only the one that has the database open has a client. -/
theorem opens_of_client {d : Caller} {call : Call} (h : a.client = some (d, call)) :
  a.Opens
  := by
  cases a with
  | locked _ | opened _ _ => trivial
  | _ => cases h

theorem opens_of_forget (h : (a.forget c).Opens) :
  a.Opens
  := by
  cases a with
  | _ => exact h

theorem Sound.forget {disk : Disk} {log : List Entry}
    (h : a.Sound digest plugins s₀ disk log) :
  (a.forget c).Sound digest plugins s₀ disk log
  := by
  cases a with
  | opened role work =>
      cases work with
      | _ => exact h
  | _ => exact h

theorem client_of_forget {d : Caller} {call : Call} (h : (a.forget c).client = some (d, call)) :
  a.client = some (d, call) ∧ d ≠ c
  := by
  cases a with
  | opened role work =>
      cases work with
      | saving client call' request s todo =>
          cases client with
          | none => cases h
          | some e =>
              by_cases he : e = c
              · have hfilter : Option.filter (fun d => d ≠ c) (some e) = none := by simp [he]
                rw [Activity.forget, Work.forget, hfilter] at h
                cases h
              · have hfilter : Option.filter (fun d => d ≠ c) (some e) = some e := by simp [he]
                rw [Activity.forget, Work.forget, hfilter] at h
                cases h
                exact ⟨rfl, he⟩
      | _ => cases h
  | _ => cases h

end Activity

/-! ### Instructions -/

section

variable {disk disk' : Disk} {log : List Entry} {i : Instruction} {rest more : List Instruction}
  {s : Buckets}

theorem notCommits_append (h : ∀ j ∈ i :: rest, commits j = false)
    (hmore : ∀ j ∈ more, commits j = false) :
  ∀ j ∈ more ++ rest, commits j = false
  := by
  intro j hj
  obtain hj | hj := List.mem_append.mp hj
  · exact hmore j hj
  · exact h j (List.mem_cons_of_mem i hj)

/-- An instruction of a load. -/
theorem Work.sound_loadStep
    (h : Work.Sound digest plugins s₀ disk log (.loading s (i :: rest)))
    (hexec : exec i disk = some (disk', more)) :
  Work.Sound digest plugins s₀ disk' log (.loading s (more ++ rest))
    ∧ disk'.committed = disk.committed
  := by
  obtain ⟨hs, hquiet, hsafe⟩ := h
  obtain ⟨d, more', hexec', hrest⟩ := safe_cons hsafe
  obtain ⟨rfl, rfl⟩ := Prod.mk.inj (Option.some.inj (hexec'.symm.trans hexec))
  obtain ⟨hcommitted, hmore⟩ := committed_exec hexec (hquiet i List.mem_cons_self)
  exact ⟨⟨hs.trans hcommitted.symm, notCommits_append hquiet hmore, hrest⟩, hcommitted⟩

/-- When the guard is created, the call takes effect. -/
theorem takesEffect_of_execute {call : Call} {request : Request} {saved memory : Buckets}
    (hmemory : Applies plugins s₀ log saved memory) (hbegun : call.Begun log)
    (hchange : call.function = .change request) (order : IterationOrder Str) (fuel : ℕ)
    (hexecuted : Logic.execute ((surroundings plugins order fuel).service false) fuel memory request
      = some (some .OK, s)) :
  TakesEffect plugins s₀ (log ++ [.saved call]) call .SUCCESS .nothing log.length
  := by
  have hnext : Applies plugins s₀ (log ++ [.saved call]) s s :=
    .saved order fuel hmemory hbegun hchange hexecuted
  refine ⟨?_, ?_, order, fuel, saved, memory, some s, ?_, ?_, ?_⟩
  · rw [List.take_left]
    exact hbegun
  · rw [List.length_append]
    omega
  · rw [List.take_left]
    exact hmemory
  · rw [hchange]
    exact call_saves_iff.mpr ⟨hexecuted, rfl, rfl⟩
  · rintro s' hs'
    obtain rfl := Option.some.inj hs'
    refine ⟨List.getElem?_concat_length, ?_⟩
    rw [List.take_of_length_le (by rw [List.length_append]; rfl)]
    exact hnext

/-- An instruction of a save: the guard commits the buckets, the others do not. -/
theorem Work.sound_saveStep {client : Option Caller} {call : Call} {request : Request}
    (happlies : ∃ memory, Applies plugins s₀ log disk.committed memory)
    (hstorable : Storable disk.committed)
    (h : Work.Sound digest plugins s₀ disk log (.saving client call request s (i :: rest)))
    (hexec : exec i disk = some (disk', more)) :
  Work.Sound digest plugins s₀ disk' (if commits i then log ++ [.saved call] else log)
      (.saving client call request s (more ++ rest))
    ∧ (∃ memory, Applies plugins s₀ (if commits i then log ++ [.saved call] else log)
      disk'.committed memory)
    ∧ Storable disk'.committed
  := by
  obtain ⟨hsafe, hs, hbegun, hchange, huncommitted | hdone⟩ := h
  all_goals
    obtain ⟨d, more', hexec', hrest⟩ := safe_cons hsafe
    obtain ⟨rfl, rfl⟩ := Prod.mk.inj (Option.some.inj (hexec'.symm.trans hexec))
  · obtain ⟨⟨pre, post, htodo, hpre, hpost⟩, order, fuel, memory, hmemory, hexecuted⟩ :=
      huncommitted
    cases pre with
    | nil =>
        obtain ⟨rfl, rfl⟩ := List.cons.inj htodo
        obtain ⟨dir, -, hdisk⟩ := Option.map_eq_some_iff.mp hexec
        obtain ⟨rfl, rfl⟩ := Prod.mk.inj hdisk
        have hsaved : Applies plugins s₀ (log ++ [.saved call]) s s :=
          .saved order fuel hmemory hbegun hchange hexecuted
        refine ⟨⟨hrest, hs, hbegun.mono (List.prefix_append _ _), hchange, Or.inr ?_⟩,
          ⟨s, hsaved⟩, hs⟩
        exact ⟨hpost, rfl, hsaved, log.length,
          takesEffect_of_execute hmemory hbegun hchange order fuel hexecuted⟩
    | cons j pre =>
        obtain ⟨rfl, rfl⟩ := List.cons.inj htodo
        have hquiet : commits i = false := hpre i List.mem_cons_self
        obtain ⟨hcommitted, hmore⟩ := committed_exec hexec hquiet
        rw [hquiet, hcommitted]
        refine ⟨⟨hrest, hs, hbegun, hchange, Or.inl ⟨?_, ?_⟩⟩, happlies, hstorable⟩
        · exact ⟨more' ++ pre, post, (List.append_assoc more' pre _).symm,
            notCommits_append hpre hmore, hpost⟩
        · rw [hcommitted]
          exact ⟨order, fuel, memory, hmemory, hexecuted⟩
  · obtain ⟨hquiet, hdone, hsaved, heffect⟩ := hdone
    have hi : commits i = false := hquiet i List.mem_cons_self
    obtain ⟨hcommitted, hmore⟩ := committed_exec hexec hi
    rw [hi, hcommitted]
    refine ⟨⟨hrest, hs, hbegun, hchange, Or.inr ⟨?_, ?_, hsaved, heffect⟩⟩, happlies, hstorable⟩
    · exact notCommits_append hquiet hmore
    · exact hcommitted.trans hdone

/-- A save begins. -/
theorem Work.sound_save {call : Call} {request : Request} {memory : Buckets}
    (hready : Work.Sound digest plugins s₀ disk log (.ready memory)) (hbegun : call.Begun log)
    (hlog : AllSeparated log) (hchange : call.function = .change request)
    (order : IterationOrder Str) (fuel : ℕ) (dumpOrder : DumpOrder)
    (hexecuted : Logic.execute ((surroundings plugins order fuel).service false) fuel memory request
      = some (some .OK, s)) (client : Option Caller) :
  Work.Sound digest plugins s₀ disk log
    (.saving client call request s (InMemoryStorageBackend.save digest dumpOrder s))
  := by
  obtain ⟨hclean, hstorable, hmemory⟩ := hready
  have hs := Logic.execute_storable hexecuted (hbegun.separated hlog hchange) hstorable
  exact ⟨safe_save hs dumpOrder hclean, hs, hbegun, hchange,
    Or.inl ⟨save_split digest dumpOrder s, order, fuel, memory, hmemory, hexecuted⟩⟩

/-- A save has come to its end. -/
theorem Work.sound_saved {client : Option Caller} {call : Call} {request : Request}
    (h : Work.Sound digest plugins s₀ disk log (.saving client call request s [])) :
  Work.Sound digest plugins s₀ disk log (.ready s)
    ∧ Answered plugins s₀ log call .SUCCESS .nothing
  := by
  obtain ⟨hsafe, hs, -, -, huncommitted | hcommitted⟩ := h
  · obtain ⟨⟨pre, post, htodo, -⟩, -⟩ := huncommitted
    simp at htodo
  · obtain ⟨-, hdone, hsaved, heffect⟩ := hcommitted
    refine ⟨?_, Or.inr heffect⟩
    cases hsafe with
    | done _ hclean =>
        refine ⟨hclean, hs, ?_⟩
        rw [hdone]
        exact hsaved

/-- The service rejects a request, and keeps what it has changed in memory. -/
theorem Work.sound_rejected {call : Call} {request : Request} {memory : Buckets} {code : Code}
    (hready : Work.Sound digest plugins s₀ disk log (.ready memory)) (hbegun : call.Begun log)
    (hlog : AllSeparated log) (hchange : call.function = .change request) (hcode : code ≠ .OK)
    (order : IterationOrder Str) (fuel : ℕ)
    (hexecuted : Logic.execute ((surroundings plugins order fuel).service false) fuel memory request
      = some (some code, s)) :
  Work.Sound digest plugins s₀ disk (log ++ [.rejected call]) (.ready s)
  := by
  obtain ⟨hclean, hstorable, hmemory⟩ := hready
  exact ⟨hclean, Logic.execute_storable hexecuted (hbegun.separated hlog hchange) hstorable,
    .rejected order fuel hmemory hbegun hchange hcode hexecuted⟩

/-- No instruction fails. -/
theorem Work.exec_ne_none {work : Work} (h : work.Sound digest plugins s₀ disk log)
    (htodo : work.todo = i :: rest) :
  exec i disk ≠ none
  := by
  have hsafe : Safe digest (Clean digest) (i :: rest) disk := by
    rw [← htodo]
    cases work with
    | loading s todo => exact h.2.2
    | ready s => cases htodo
    | saving client call request s todo => exact h.1
  obtain ⟨d, more', hexec, -⟩ := safe_cons hsafe
  rw [hexec]
  exact Option.some_ne_none _

/-- A call that saves nothing takes effect where it does its work. -/
theorem takesEffect_of_call {call : Call} {ret : ApiCode} {output : Output}
    {saved memory : Buckets} (hmemory : Applies plugins s₀ log saved memory)
    (hbegun : call.Begun log) (order : IterationOrder Str) (fuel : ℕ)
    (hcall : OfflineLogic.call (surroundings plugins order fuel) (.returned memory) call.function
      = some (ret, output, none)) :
  TakesEffect plugins s₀ log call ret output log.length
  := by
  refine ⟨?_, le_rfl, order, fuel, saved, memory, none, ?_, hcall, ?_⟩
  · rw [List.take_length]
    exact hbegun
  · rw [List.take_length]
    exact hmemory
  · intro s' hs'
    cases hs'

end

namespace Invariant

variable {σ : System} {c : Caller} (h : Invariant digest plugins s₀ handle σ)

include h

/-- Nobody else has the database open. -/
theorem alone (hhandle : Function.Injective handle)
    (hc : (σ.activity c).Opens) {d : Caller} (hd : (σ.activity d).Opens) :
  d = c
  := by
  apply hhandle
  exact Option.some.inj ((h.owner d hd).symm.trans (h.owner c hc))

/-- One thread or process makes a step.  The others keep the lock, and the disk and the log may
change only if none of them has the database open. -/
theorem update {a : Activity} {disk : Disk} {owner : Option Handle} {log : List Entry}
    (howner : ∀ d, d ≠ c → (σ.activity d).Opens → owner = some (handle d))
    (hopens : a.Opens → owner = some (handle c)) (hlog : σ.log <+: log)
    (hframe : disk = σ.disk ∧ log = σ.log ∨ ∀ d, d ≠ c → ¬ (σ.activity d).Opens)
    (hsound : a.Sound digest plugins s₀ disk log) (hrecoverable : Recoverable digest disk)
    (hstorable : Storable disk.committed)
    (happlies : ∃ memory, Applies plugins s₀ log disk.committed memory)
    (hclient : ∀ d call, a.client = some (d, call) → σ.activity d = .online call)
    (hkept : ∀ call, σ.activity c = .online call →
      ∀ d call', (σ.activity d).client ≠ some (c, call'))
    (hself : ∀ call, a.client ≠ some (c, call)) :
  Invariant digest plugins s₀ handle ⟨disk, owner, Function.update σ.activity c a, log⟩
  := by
  constructor
  · intro d hd
    by_cases hdc : d = c
    · subst hdc
      apply hopens
      simpa using hd
    · apply howner d hdc
      simpa [hdc] using hd
  · intro d
    by_cases hdc : d = c
    · subst hdc
      simpa using hsound
    · simp only [Function.update_of_ne hdc]
      obtain ⟨rfl, rfl⟩ | hframe := hframe
      · exact h.sound d
      · exact (h.sound d).mono (hframe d hdc) hlog disk
  · exact hrecoverable
  · exact hstorable
  · exact happlies
  · intro d e call he
    have hwaits : σ.activity e = .online call ∧ e ≠ c := by
      by_cases hdc : d = c
      · subst hdc
        simp only [Function.update_self] at he
        refine ⟨hclient e call he, ?_⟩
        rintro rfl
        exact hself call he
      · simp only [Function.update_of_ne hdc] at he
        have honline := h.clients d e call he
        refine ⟨honline, ?_⟩
        rintro rfl
        exact hkept call honline d call he
    simp only [Function.update_of_ne hwaits.2]
    exact hwaits.1

theorem sound_opened {role : Role} {work : Work} (hopened : σ.activity c = .opened role work) :
  (∀ call, role = .library call → call.Begun σ.log)
    ∧ work.Sound digest plugins s₀ σ.disk σ.log
  := by
  have hsound := h.sound c
  rw [hopened] at hsound
  exact hsound

theorem begun {d : Caller} {call : Call} (hasked : σ.activity d = .online call) :
  call.Begun σ.log
  := by
  have hsound := h.sound d
  rw [hasked] at hsound
  exact hsound

/-- A call begins. -/
theorem record (f : Function) :
  Invariant digest plugins s₀ handle (σ.record (.begun f))
  where
  owner := h.owner
  sound c := (h.sound c).begun f
  recoverable := h.recoverable
  storable := h.storable
  applies := by
    obtain ⟨memory, hmemory⟩ := h.applies
    exact ⟨memory, .begun f hmemory⟩
  clients := h.clients

/-- A step after which the database is not open, whether it was before or not. -/
theorem set {a : Activity} (hclosed : ¬ a.Opens) (hsound : a.Sound digest plugins s₀ σ.disk σ.log)
    (hkept : ∀ call, σ.activity c = .online call →
      ∀ d call', (σ.activity d).client ≠ some (c, call')) :
  Invariant digest plugins s₀ handle (σ.set c a)
  := by
  apply h.update _ (fun hopens => absurd hopens hclosed) List.prefix_rfl (Or.inl ⟨rfl, rfl⟩) hsound
    h.recoverable h.storable h.applies _ hkept
  · intro call hcall
    exact hclosed (Activity.opens_of_client hcall)
  · intro d _ hd
    exact h.owner d hd
  · intro d call hcall
    exact absurd (Activity.opens_of_client hcall) hclosed

/-- A step of the one that has the database open. -/
theorem set_opened (hhandle : Function.Injective handle)
    {role : Role} {work work' : Work}
    (hopened : σ.activity c = .opened role work) {disk : Disk} {log : List Entry}
    (hlog : σ.log <+: log) (hwork : work'.Sound digest plugins s₀ disk log)
    (hrecoverable : Recoverable digest disk)
    (hstorable : Storable disk.committed)
    (happlies : ∃ memory, Applies plugins s₀ log disk.committed memory)
    (hclient : ∀ d call, (Activity.opened role work').client = some (d, call) →
      σ.activity d = .online call) :
  Invariant digest plugins s₀ handle
    (System.set { σ with disk := disk, log := log } c (.opened role work'))
  := by
  have hopens : (σ.activity c).Opens := by
    rw [hopened]
    trivial
  have halone : ∀ d, d ≠ c → ¬ (σ.activity d).Opens := by
    intro d hd hdopens
    exact hd (h.alone hhandle hopens hdopens)
  have hsound := h.sound c
  rw [hopened] at hsound
  apply h.update _ (fun _ => h.owner c hopens) hlog (Or.inr halone) _ hrecoverable hstorable
    happlies hclient
  · intro call hcall
    rw [hopened] at hcall
    cases hcall
  · intro call hcall
    have honline := hclient c call hcall
    rw [hopened] at honline
    cases honline
  · intro d hd hdopens
    exact absurd hdopens (halone d hd)
  · exact ⟨fun call hcall => (hsound.1 call hcall).mono hlog, hwork⟩

/-- Nobody waits on a connection that is lost. -/
theorem disconnect (c : Caller) :
  Invariant digest plugins s₀ handle (σ.disconnect c)
  := by
  constructor
  · intro d hd
    exact h.owner d (Activity.opens_of_forget hd)
  · intro d
    exact (h.sound d).forget
  · exact h.recoverable
  · exact h.storable
  · exact h.applies
  · intro d e call he
    have hwaits := h.clients d e call (Activity.client_of_forget he).1
    show (σ.activity e).forget c = .online call
    rw [hwaits]
    rfl

omit h in
theorem client_disconnect (σ : System) (c d : Caller) (call : Call) :
  ((σ.disconnect c).activity d).client ≠ some (c, call)
  := by
  intro h
  exact (Activity.client_of_forget h).2 rfl

/-- The lock is taken. -/
theorem lock (hhandle : Function.Injective handle)
    (hc : ∀ call, σ.activity c ≠ .online call) (havailable : σ.Available handle c) (role : Role)
    (hsound : (Activity.locked role).Sound digest plugins s₀ σ.disk σ.log) :
  Invariant digest plugins s₀ handle ((σ.lock handle c).set c (.locked role))
  := by
  apply h.update _ (fun _ => rfl) List.prefix_rfl (Or.inl ⟨rfl, rfl⟩) hsound h.recoverable
    h.storable h.applies
  · intro d call hcall
    cases hcall
  · intro call hcall
    exact absurd hcall (hc call)
  · intro call hcall
    cases hcall
  · intro d hd hopens
    have howner := h.owner d hopens
    obtain hfree | hown := havailable
    · rw [hfree] at howner
      cases howner
    · rw [hown] at howner
      exact absurd (hhandle (Option.some.inj howner)).symm hd

/-- The lock is given back. -/
theorem unlock (hhandle : Function.Injective handle) (hkept : ∀ call, σ.activity c = .online call →
      ∀ d call', (σ.activity d).client ≠ some (c, call')) :
  Invariant digest plugins s₀ handle ((σ.unlock handle c).set c .idle)
  := by
  have hclosed : ¬ Activity.idle.Opens := fun hopens => hopens
  apply h.update _ (fun hopens => absurd hopens hclosed) List.prefix_rfl (Or.inl ⟨rfl, rfl⟩) trivial
    h.recoverable h.storable h.applies _ hkept
  · intro call hcall
    cases hcall
  · intro d hd hopens
    have howner := h.owner d hopens
    have hother : ¬ σ.owner = some (handle c) := by
      rw [howner]
      intro hsame
      exact hd (hhandle (Option.some.inj hsame))
    rw [System.unlock, if_neg hother, howner]
  · intro d call hcall
    cases hcall

/-- The service, which has nothing to save, answers to a client. -/
theorem answer (hhandle : Function.Injective handle)
    {s : Buckets} (hready : σ.activity c = .opened .service (.ready s)) {client : Option Caller}
    {call : Call} {ret : ApiCode} {output : Output}
    (hanswered : Answered plugins s₀ σ.log call ret output) :
  Invariant digest plugins s₀ handle (σ.answer client call ret output)
  := by
  cases client with
  | none => exact h
  | some d =>
      apply h.set
      · exact id
      · exact hanswered
      · intro call' _ e call'' he
        have hopens : (σ.activity c).Opens := by
          rw [hready]
          trivial
        obtain rfl := h.alone hhandle hopens (Activity.opens_of_client he)
        rw [hready] at he
        cases he

/-- The service has done what was asked, and answers. -/
theorem serve (hhandle : Function.Injective handle)
    {work : Work} (hopened : σ.activity c = .opened .service work) {s : Buckets}
    {log : List Entry} (hlog : σ.log <+: log)
    (hready : (Work.ready s).Sound digest plugins s₀ σ.disk log) (client : Option Caller)
    {call : Call} {ret : ApiCode} {output : Output}
    (hanswered : Answered plugins s₀ log call ret output) :
  Invariant digest plugins s₀ handle
    ((System.set { σ with log := log } c (.opened .service (.ready s))).answer client call ret
      output)
  := by
  have hnext : Invariant digest plugins s₀ handle
      (System.set { σ with log := log } c (.opened .service (.ready s))) := by
    apply h.set_opened hhandle hopened hlog hready h.recoverable h.storable ⟨s, hready.2.2⟩
    intro d call hcall
    cases hcall
  apply hnext.answer hhandle (c := c) (s := s) _ hanswered
  exact Function.update_self c _ σ.activity

/-- The database has been read. -/
theorem load {role : Role} (hlocked : σ.activity c = .locked role) {s : Buckets}
    {todo : List Instruction} {order dirOrder : IterationOrder Str}
    (hload : startLoad digest order dirOrder σ.disk = .loading s todo) :
  Invariant digest plugins s₀ handle (σ.set c (.opened role (.loading s todo)))
  := by
  obtain ⟨isBackupValid, hload', hsafe⟩ := safe_startLoad order dirOrder h.recoverable
  rw [hload', Process.loading.injEq] at hload
  obtain ⟨rfl, rfl⟩ := hload
  have hopens : (σ.activity c).Opens := by
    rw [hlocked]
    trivial
  have hsound := h.sound c
  rw [hlocked] at hsound
  apply h.update _ (fun _ => h.owner c hopens) List.prefix_rfl (Or.inl ⟨rfl, rfl⟩) _ h.recoverable
    h.storable h.applies
  · intro d call hcall
    cases hcall
  · simp [hlocked]
  · intro call hcall
    cases hcall
  · intro d _ hd
    exact h.owner d hd
  · refine ⟨?_, rfl, commits_postLoadCleanup order dirOrder _ isBackupValid, hsafe⟩
    rintro call rfl
    exact hsound

/-- Each step keeps the invariant. -/
theorem step (hhandle : Function.Injective handle) (hplugins : plugins.NoNull)
    (hlog : AllSeparated σ.log) {σ' : System} (hstep : Step digest plugins handle σ σ') :
  Invariant digest plugins s₀ handle σ'
  := by
  cases hstep with
  | @offline c f idle available =>
      have hidle : ∀ call, (σ.record (.begun f)).activity c ≠ .online call := by
        simp [System.record, idle]
      apply (h.record f).lock hhandle hidle available (.library ⟨f, σ.log.length⟩)
      exact List.getElem?_concat_length
  | @online c f idle taken =>
      apply (h.record f).set
      · exact id
      · exact List.getElem?_concat_length
      · simp [System.record, idle]
  | @boot c idle =>
      apply h.set
      · exact id
      · trivial
      · simp [idle]
  | @lock c waiting available =>
      apply h.lock hhandle (by simp [waiting]) available .service
      trivial
  | @load c role s todo order dirOrder locked loads loaded => exact h.load locked loaded
  | @loadFails c role order dirOrder locked loads corrupted =>
      obtain ⟨isBackupValid, hload, -⟩ := safe_startLoad order dirOrder h.recoverable
      rw [hload] at corrupted
      cases corrupted
  | @loadStep c role s i rest more disk opened hexec =>
      obtain ⟨-, hwork⟩ := h.sound_opened opened
      obtain ⟨hwork', hcommitted⟩ := Work.sound_loadStep hwork hexec
      apply h.set_opened hhandle opened List.prefix_rfl hwork'
      · exact hwork'.2.2.recoverable_start
      · rw [hcommitted]
        exact h.storable
      · rw [hcommitted]
        exact h.applies
      · intro d call hcall
        cases hcall
  | @loaded c role s opened =>
      obtain ⟨-, rfl, -, hsafe⟩ := h.sound_opened opened
      obtain ⟨memory, hmemory⟩ := h.applies
      have hloaded := Applies.loaded hmemory
      apply h.set_opened hhandle opened (List.prefix_append _ _) _ h.recoverable h.storable
        ⟨_, hloaded⟩
      · intro d call hcall
        cases hcall
      · cases hsafe with
        | done _ hclean => exact ⟨hclean, h.storable, hloaded⟩
  | @describe c call locked lists =>
      have hbegun := h.sound c
      rw [locked] at hbegun
      obtain ⟨memory, hmemory⟩ := h.applies
      apply h.set
      · exact id
      · refine Or.inr ⟨_, takesEffect_of_call hmemory hbegun .sorted 0 ?_⟩
        rw [lists]
        rfl
      · simp [locked]
  | @work c call s ret output order fuel opened called =>
      obtain ⟨hbegun, -, -, hmemory⟩ := h.sound_opened opened
      apply h.set
      · exact id
      · exact Or.inr ⟨_, takesEffect_of_call hmemory (hbegun call rfl) order fuel called⟩
      · simp [opened]
  | @save c call request s s' ret output order fuel dumpOrder opened change called =>
      obtain ⟨hbegun, hready⟩ := h.sound_opened opened
      apply h.set_opened hhandle opened List.prefix_rfl _ h.recoverable h.storable h.applies
      · intro d call hcall
        cases hcall
      · rw [change] at called
        exact Work.sound_save hready (hbegun call rfl) hlog change order fuel dumpOrder
          (call_saves_iff.mp called).1 none
  | @accept c d call request s s' order fuel dumpOrder opened asked change executed =>
      obtain ⟨-, hready⟩ := h.sound_opened opened
      apply h.set_opened hhandle opened List.prefix_rfl _ h.recoverable h.storable h.applies
      · intro e call' hcall
        cases hcall
        exact asked
      · exact Work.sound_save hready (h.begun asked) hlog change order fuel dumpOrder executed
          (some d)
  | @reject c d call request s s' code order fuel opened asked change rejected executed
      delivered =>
      obtain ⟨-, hready⟩ := h.sound_opened opened
      have hbegun := h.begun asked
      have hcall : OfflineLogic.call (surroundings plugins order fuel) (.returned s)
          (.change request) = _ := call_of_rejected rfl rejected executed
      rw [← change] at hcall
      have hprefix : σ.log <+: σ.log ++ [.rejected call] := List.prefix_append _ _
      apply h.serve hhandle opened hprefix
      · exact Work.sound_rejected hready hbegun hlog change rejected order fuel executed
      · exact Or.inr ⟨_, (takesEffect_of_call hready.2.2 hbegun order fuel hcall).mono hprefix⟩
  | @throws c d call request s s' order fuel opened asked change executed =>
      exact absurd executed (execute_ne_none rfl)
  | @respond c d call s s' response order fuel sequenceNumber opened asked question answered
      delivered =>
      obtain ⟨-, hready⟩ := h.sound_opened opened
      obtain ⟨rfl, hcall⟩ := call_of_answer question answered
      apply h.serve hhandle opened List.prefix_rfl hready
      exact Or.inr ⟨_, takesEffect_of_call hready.2.2 (h.begun asked) order fuel hcall⟩
  | @throwsAsked c d call s s' order fuel sequenceNumber opened asked question answered =>
      exact absurd answered (answer_ne_throws question sequenceNumber)
  | @saveStep c role client call request s i rest more disk opened hexec =>
      obtain ⟨-, hwork⟩ := h.sound_opened opened
      obtain ⟨hwork', happlies, hstorable⟩ :=
        Work.sound_saveStep h.applies h.storable hwork hexec
      apply h.set_opened hhandle opened _ hwork' hwork'.1.recoverable_start hstorable happlies
      · intro d call' hcall
        apply h.clients c d call'
        rw [opened, Activity.client_saving]
        rw [Activity.client_saving] at hcall
        exact hcall
      · split
        · exact List.prefix_append _ _
        · exact List.prefix_rfl
  | @fails c role work i rest opened todo hexec =>
      exact absurd hexec (Work.exec_ne_none (h.sound_opened opened).2 todo)
  | @savedOffline c client call request s opened =>
      apply h.set
      · exact id
      · exact (Work.sound_saved (h.sound_opened opened).2).2
      · simp [opened]
  | @savedOnline c client call request s opened invalidates =>
      obtain ⟨hready, hanswered⟩ := Work.sound_saved (h.sound_opened opened).2
      exact h.serve hhandle opened List.prefix_rfl hready client hanswered
  | @crashes c client call request s opened null =>
      rw [← Option.not_isSome, hplugins.invalidateAll] at null
      cases null
  | @reconnect c call waits => exact h.disconnect c
  | @giveUp c call waits =>
      apply (h.disconnect c).set
      · exact id
      · exact Or.inl rfl
      · intro call _ d call'
        apply client_disconnect
  | @returns c call ret output finished =>
      apply h.unlock hhandle
      simp [finished]
  | stop c =>
      apply (h.disconnect c).unlock hhandle
      intro call _ d call'
      apply client_disconnect

end Invariant

/-! ### Runs -/

/-- No process has been started yet. -/
def initial (dir : Directory) (s₀ : Buckets) : System := ⟨⟨dir, s₀⟩, none, fun _ => .idle, []⟩

end Locking

end Cynara
