import Cynara.Library.Runs
import Mathlib

/-!
# Finishing a monitor

The library of the monitors is used by several threads: one waits for entries, others ask the
service to send what it has, and one may destroy the object.  For this it wakes the thread that
waits, and then waits itself until this thread is done.

A call of `entriesGet` holds a mutex that no other call gets, so at most one thread is in it.  A
section that holds the other mutex is one step here, except that a wait for a condition releases the
mutex.  A wait may end without a notification.

Once `notifyFinish` has been called no other function is.  Then it ends, after a number of steps
that only wakings without a notification can make larger, as long as the service lets the thread in
`entriesGet` connect, send its request and read a response.  No thread is in `sendAndFetch` when the
object is destroyed, with two exceptions: a call of `entriesGet` that has the mutex but has not yet
set the flag is not noticed, and it is not waited for if it cannot be notified.  And a thread that
has left `sendAndFetch` may still have to notify and to unlock.
-/

namespace Cynara

namespace MonitorThreads

/-- Where the thread in `entriesGet` is: what it does next. -/
inductive GetPlace where
  | start
  | connect
  | send
  | poll
  | fetch
  | snooze
  | leave
  | notifyAll
  | unlock
deriving DecidableEq

/-- Where a thread in `entriesFlush` is; `none` if it is not in this function. -/
inductive FlushPlace where
  | resolve
  | waiting
  | send
deriving DecidableEq

/-- Where the thread in `cynara_monitor_finish` is. -/
inductive FinishPlace where
  | notify
  | check
  | waiting
  | delete
  | deleted
deriving DecidableEq

/-- The object, and the threads that use it.  The mutex of `entriesGet` is locked if there is a
getter.  `hasty` records that `notifyFinish` was called between the locking of this mutex and the
setting of the flag, or that it could not notify. -/
structure State where
  getter : Option GetPlace := none
  flush : ℕ → Option FlushPlace := fun _ => none
  finisher : Option FinishPlace := none
  isRunning : Bool := false
  connectionResolved : Bool := false
  isConnected : Bool := false
  notifications : ℕ := 0
  hasty : Bool := false

/-- What the threads and the service do. -/
inductive Event where
  | entriesGet
  /-- The thread in `entriesGet` goes on; what it calls may fail. -/
  | getter (succeeds : Bool)
  /-- Something can be read from the service. -/
  | arrival
  /-- The response has been read, or the connection is lost. -/
  | received (succeeds : Bool)
  | entriesFlush (thread : ℕ)
  | flusher (thread : ℕ) (succeeds : Bool)
  | notifyFinish
  /-- The thread that destroys the object goes on; the notification may fail. -/
  | finisher (succeeds : Bool)
  /-- A thread wakes up without having been notified. -/
  | wakeFlusher (thread : ℕ)
  | wakeFinisher
deriving DecidableEq

/-- A thread that waits is woken. -/
def FlushPlace.woken : FlushPlace → FlushPlace
  | .waiting => .resolve
  | p => p

/-- The thread that destroys the object is woken. -/
def FinishPlace.woken : FinishPlace → FinishPlace
  | .waiting => .check
  | p => p

namespace State

variable (σ : State)

/-- The thread in `entriesGet` goes on. -/
def stepGetter (succeeds : Bool) : Option State :=
  σ.getter.bind fun place =>
    match place with
    | .start => some { σ with getter := some .connect, isRunning := true }
    | .connect =>
        let connected := σ.isConnected || succeeds
        some
          { σ with
            getter := some (if connected then .send else .leave)
            flush := fun t => (σ.flush t).map FlushPlace.woken
            connectionResolved := true
            isConnected := connected }
    | .send =>
        some
          { σ with
            getter := some (if succeeds then .poll else .leave)
            isConnected := σ.isConnected && succeeds }
    | .poll =>
        if succeeds then
          if 0 < σ.notifications then some { σ with getter := some .snooze } else none
        else some { σ with getter := some .leave }
    | .fetch => none
    | .snooze =>
        if 0 < σ.notifications then some { σ with getter := some .leave, notifications := 0 }
        else none
    | .leave => some { σ with getter := some .notifyAll, isRunning := false }
    | .notifyAll =>
        some { σ with getter := some .unlock, finisher := σ.finisher.map FinishPlace.woken }
    | .unlock => some { σ with getter := none }

/-- A thread in `entriesFlush` goes on. -/
def stepFlusher (thread : ℕ) (succeeds : Bool) : Option State :=
  (σ.flush thread).bind fun place =>
    match place with
    | .resolve =>
        let next :=
          if σ.connectionResolved then
            if σ.isConnected then some FlushPlace.send else none
          else some .waiting
        some { σ with flush := Function.update σ.flush thread next }
    | .waiting => none
    | .send =>
        some
          { σ with
            flush := Function.update σ.flush thread none
            isConnected := σ.isConnected && succeeds }

/-- The thread that destroys the object goes on. -/
def stepFinisher (succeeds : Bool) : Option State :=
  σ.finisher.bind fun place =>
    match place with
    | .notify =>
        if succeeds then
          some { σ with finisher := some .check, notifications := σ.notifications + 1 }
        else some { σ with finisher := some .delete, hasty := true }
    | .check => some { σ with finisher := some (if σ.isRunning then .waiting else .delete) }
    | .waiting => none
    | .delete => some { σ with finisher := some .deleted }
    | .deleted => none

end State

/-- Nobody uses an object that is destroyed. -/
def step (σ : State) (event : Event) : Option State :=
  if σ.finisher = some .deleted then none
  else
    match event with
    | .entriesGet =>
        if σ.finisher = none ∧ σ.getter = none then some { σ with getter := some .start } else none
    | .getter succeeds => σ.stepGetter succeeds
    | .arrival => if σ.getter = some .poll then some { σ with getter := some .fetch } else none
    | .received succeeds =>
        if σ.getter = some .fetch then
          some { σ with getter := some .leave, isConnected := σ.isConnected && succeeds }
        else none
    | .entriesFlush t =>
        if σ.finisher = none ∧ σ.flush t = none ∧ σ.isRunning then
          some { σ with flush := Function.update σ.flush t (some .resolve) }
        else none
    | .flusher t succeeds => σ.stepFlusher t succeeds
    | .notifyFinish =>
        if σ.finisher = none then
          some
            { σ with
              finisher := some (if σ.isRunning then .notify else .delete)
              hasty := σ.getter = some .start }
        else none
    | .finisher succeeds => σ.stepFinisher succeeds
    | .wakeFlusher t =>
        if σ.flush t = some .waiting then
          some { σ with flush := Function.update σ.flush t (some .resolve) }
        else none
    | .wakeFinisher =>
        if σ.finisher = some .waiting then some { σ with finisher := some .check } else none

/-! ### What is expected -/

/-- The places in `sendAndFetch`. -/
def GetPlace.inSendAndFetch : GetPlace → Bool
  | .connect | .send | .poll | .fetch | .snooze | .leave => true
  | _ => false

/-- The places at which the thread will still notify all that wait for its end. -/
def GetPlace.willNotify (p : GetPlace) : Bool := p.inSendAndFetch || p == .notifyAll

/-- The places at which a notification has not yet been taken. -/
def GetPlace.beforeSnooze : GetPlace → Bool
  | .connect | .send | .poll | .snooze => true
  | _ => false

/-- The places at which the thread may have to wait for the service: while it connects, with the
mutex of the flag locked, while it sends its request, for which another thread may have locked the
socket, and while it reads a response. -/
def GetPlace.awaitsService : GetPlace → Bool
  | .connect | .send | .fetch => true
  | _ => false

/-- The events of the thread in `entriesGet` and of the thread that destroys the object. -/
def Event.concernsEnd : Event → Bool
  | .getter _ | .arrival | .received _ | .finisher _ => true
  | _ => false

/-- What is expected of the library: the flag tells whether a thread is in `sendAndFetch`; whoever
waits will be notified; no thread is in `sendAndFetch` when the object is destroyed, unless this is
done too hastily; and until then one of the two threads can go on, or one waits for the service, and
there are few steps left, apart from those after wakings without a notification. -/
structure Orderly (σ : State) : Prop where
  running : σ.isRunning = true ↔ ∃ g, σ.getter = some g ∧ g.inSendAndFetch = true
  flush : ∀ t, σ.flush t = some .waiting → σ.getter = some .connect
  finish : σ.finisher = some .waiting → ∃ g, σ.getter = some g ∧ g.willNotify = true
  deleted : σ.finisher = some .deleted → σ.hasty = false →
    ∀ g, σ.getter = some g → g = .notifyAll ∨ g = .unlock
  proceeds : σ.finisher ≠ none → σ.finisher ≠ some .deleted →
    σ.getter.any GetPlace.awaitsService = true
      ∨ (step σ (.getter true)).isSome = true ∨ (step σ (.finisher true)).isSome = true
  ends : σ.finisher ≠ none → ∀ events σ', Runs.run step (fun _ _ => true) events σ = some σ' →
    events.countP Event.concernsEnd ≤ 19 + events.countP fun event => event == .wakeFinisher

/-! ### What holds in every run -/

/-- What holds while a thread is in `entriesFlush`: it waits for the connection only as long as
there is a thread that will try to connect. -/
def FlushPlace.Consistent (resolved : Bool) (getter : Option GetPlace) : FlushPlace → Prop
  | .resolve => resolved = true ∨ getter = some .connect
  | .waiting => resolved = false ∧ getter = some .connect
  | .send => True

/-- What holds while the object is being destroyed: a thread that waits for the end of
`sendAndFetch` will be notified, and there is a notification for a thread in `sendAndFetch`. -/
def FinishPlace.Consistent (getter : Option GetPlace) (notifications : ℕ) (hasty : Bool) :
    FinishPlace → Prop
  | .notify => getter ≠ some .start
  | .check =>
      getter ≠ some .start ∧ (getter.any GetPlace.beforeSnooze = true → 0 < notifications)
  | .waiting =>
      getter.any GetPlace.willNotify = true
        ∧ (getter.any GetPlace.beforeSnooze = true → 0 < notifications)
  | .delete | .deleted =>
      hasty = false → getter = none ∨ getter = some .notifyAll ∨ getter = some .unlock

/-- What holds in every state. -/
structure Invariant (σ : State) : Prop where
  running : σ.isRunning = σ.getter.any GetPlace.inSendAndFetch
  resolved : σ.isRunning = true → σ.connectionResolved = true ∨ σ.getter = some .connect
  flush : ∀ t p, σ.flush t = some p → p.Consistent σ.connectionResolved σ.getter
  notified : σ.getter = some .snooze → 0 < σ.notifications
  finisher : ∀ p, σ.finisher = some p → p.Consistent σ.getter σ.notifications σ.hasty

theorem invariant_init :
  Invariant {}
  := by
  constructor <;> simp

/-- A thread that is not about to connect may go on. -/
theorem FlushPlace.Consistent.of_ne {resolved : Bool} {getter getter' : Option GetPlace}
    {p : FlushPlace} (h : p.Consistent resolved getter) (hne : getter ≠ some .connect) :
  p.Consistent resolved getter'
  := by
  cases p with
  | resolve => exact Or.inl (h.resolve_right hne)
  | waiting => exact absurd h.2 hne
  | send => trivial

/-- Nobody waits for a connection that is resolved. -/
theorem FlushPlace.consistent_woken (getter : Option GetPlace) (p : FlushPlace) :
  p.woken.Consistent true getter
  := by
  cases p with
  | resolve => exact Or.inl rfl
  | waiting => exact Or.inl rfl
  | send => trivial

/-- The thread in `entriesGet` goes on without having to wake the one that destroys the object. -/
theorem FinishPlace.Consistent.move {p : FinishPlace} {g : GetPlace} {g' : Option GetPlace}
    {n n' : ℕ} {hasty : Bool} (h : p.Consistent (some g) n hasty) (hstart : g' ≠ some .start)
    (hnotify : g.willNotify = true → g'.any GetPlace.willNotify = true)
    (hbefore : g'.any GetPlace.beforeSnooze = true → g.beforeSnooze = true ∧ n ≤ n')
    (hover : g = .unlock → g' = none ∨ g' = some .unlock) (hlast : g ≠ .notifyAll) :
  p.Consistent g' n' hasty
  := by
  have hpending : ((some g).any GetPlace.beforeSnooze = true → 0 < n) →
      g'.any GetPlace.beforeSnooze = true → 0 < n' := by
    intro hn hg'
    obtain ⟨hg, hle⟩ := hbefore hg'
    exact (hn hg).trans_le hle
  cases p with
  | notify => exact hstart
  | check => exact ⟨hstart, hpending h.2⟩
  | waiting => exact ⟨hnotify h.1, hpending h.2⟩
  | delete | deleted =>
      intro hhasty
      obtain hg | hg | hg := h hhasty
      · cases hg
      · exact absurd (Option.some.inj hg) hlast
      · exact (hover (Option.some.inj hg)).imp_right Or.inr

/-- The thread that waits is woken, or it will find the flag unset. -/
theorem FinishPlace.consistent_woken {p : FinishPlace} {n : ℕ} {hasty : Bool}
    (h : p.Consistent (some .notifyAll) n hasty) :
  p.woken.Consistent (some .unlock) n hasty
  := by
  cases p with
  | notify => exact fun h => by cases h
  | check | waiting => exact ⟨by decide, fun h => absurd h (by decide)⟩
  | delete | deleted => exact fun _ => Or.inr (Or.inr rfl)

namespace Invariant

variable {σ σ' : State} (h : Invariant σ)

include h

/-- The thread in `entriesGet` goes on from a place where it is not about to connect. -/
theorem move (g' : Option GetPlace) {g : GetPlace} (hg : σ.getter = some g)
    (hconnect : g ≠ .connect) {running connected : Bool} {n : ℕ}
    (hrunning : running = g'.any GetPlace.inSendAndFetch)
    (hresolved : running = true → σ.isRunning = true ∨ g' = some .connect)
    (hsnooze : g' = some .snooze → 0 < n)
    (hfinisher : ∀ p, σ.finisher = some p → p.Consistent g' n σ.hasty) :
  Invariant
    { σ with getter := g', isRunning := running, isConnected := connected, notifications := n }
  := by
  have hne : σ.getter ≠ some .connect := by
    rw [hg]
    exact fun heq => hconnect (Option.some.inj heq)
  refine ⟨hrunning, ?_, ?_, hsnooze, hfinisher⟩
  · intro hrunning
    obtain hrunning | hg' := hresolved hrunning
    · exact Or.inl ((h.resolved hrunning).resolve_right hne)
    · exact Or.inr hg'
  · intro t p hp
    exact (h.flush t p hp).of_ne hne

/-- A thread that goes on in `sendAndFetch` need not wake the one that destroys the object. -/
theorem finisher_inside {g g' : GetPlace} (hg : σ.getter = some g)
    (hin : g.inSendAndFetch = true) (hin' : g'.inSendAndFetch = true) {n : ℕ}
    (hbefore : g'.beforeSnooze = true → g.beforeSnooze = true ∧ σ.notifications ≤ n)
    (p : FinishPlace) (hp : σ.finisher = some p) :
  p.Consistent (some g') n σ.hasty
  := by
  have hconsistent := h.finisher p hp
  rw [hg] at hconsistent
  apply hconsistent.move
  · rintro ⟨⟩
    cases hin'
  · intro _
    rw [Option.any_some, GetPlace.willNotify, hin', Bool.true_or]
  · exact hbefore
  · rintro rfl
    cases hin
  · rintro rfl
    cases hin

/-- The thread in `entriesGet` goes on in `sendAndFetch`. -/
theorem advance (g' : GetPlace) {g : GetPlace} (hg : σ.getter = some g)
    (hconnect : g ≠ .connect) (hin : g.inSendAndFetch = true) (hin' : g'.inSendAndFetch = true)
    {n : ℕ} (hbefore : g'.beforeSnooze = true → g.beforeSnooze = true ∧ σ.notifications ≤ n)
    (hsnooze : g' = .snooze → 0 < n) (connected : Bool) :
  Invariant { σ with getter := some g', isConnected := connected, notifications := n }
  := by
  apply h.move (some g') hg hconnect
  · rw [h.running, hg]
    exact hin.trans hin'.symm
  · exact Or.inl
  · exact fun heq => hsnooze (Option.some.inj heq)
  · exact h.finisher_inside hg hin hin' hbefore

/-- The connection is resolved, and all that wait for it are woken. -/
theorem resolve (g' : GetPlace) (hg : σ.getter = some .connect)
    (hin' : g'.inSendAndFetch = true) (hsnooze : g' ≠ .snooze) (connected : Bool) :
  Invariant
    { σ with
      getter := some g'
      flush := fun t => (σ.flush t).map FlushPlace.woken
      connectionResolved := true
      isConnected := connected }
  := by
  refine ⟨?_, fun _ => Or.inl rfl, ?_, fun heq => absurd (Option.some.inj heq) hsnooze, ?_⟩
  · rw [h.running, hg]
    exact hin'.symm
  · intro t p hp
    obtain ⟨p, -, rfl⟩ := Option.map_eq_some_iff.mp hp
    apply FlushPlace.consistent_woken
  · exact h.finisher_inside hg rfl hin' fun _ => ⟨rfl, le_rfl⟩

/-- The thread in `entriesGet` keeps the invariant. -/
theorem stepGetter {succeeds : Bool} (hstep : σ.stepGetter succeeds = some σ') :
  Invariant σ'
  := by
  obtain ⟨place, hplace, hstep⟩ := Option.bind_eq_some_iff.mp hstep
  have hfinisher := h.finisher
  rw [hplace] at hfinisher
  cases place with
  | start =>
      obtain rfl := Option.some.inj hstep
      apply h.move (some .connect) hplace nofun rfl (fun _ => Or.inr rfl) nofun
      intro p hp
      have hconsistent := hfinisher p hp
      cases p with
      | notify => exact absurd rfl hconsistent
      | check => exact absurd rfl hconsistent.1
      | waiting => exact absurd hconsistent.1 (by decide)
      | delete | deleted =>
          intro hhasty
          have hplaces := hconsistent hhasty
          simp at hplaces
  | connect =>
      obtain rfl := Option.some.inj hstep
      by_cases hconnected : (σ.isConnected || succeeds) = true
      · rw [if_pos hconnected]
        exact h.resolve .send hplace rfl nofun _
      · rw [if_neg hconnected]
        exact h.resolve .leave hplace rfl nofun _
  | send =>
      obtain rfl := Option.some.inj hstep
      cases succeeds with
      | false => exact h.advance .leave hplace nofun rfl rfl nofun nofun _
      | true => exact h.advance .poll hplace nofun rfl rfl (fun _ => ⟨rfl, le_rfl⟩) nofun _
  | poll =>
      cases succeeds with
      | false =>
          obtain rfl := Option.some.inj hstep
          exact h.advance .leave hplace nofun rfl rfl nofun nofun _
      | true =>
          obtain ⟨hnotifications, hstep⟩ := Option.ite_none_right_eq_some.mp hstep
          obtain rfl := Option.some.inj hstep
          exact h.advance .snooze hplace nofun rfl rfl (fun _ => ⟨rfl, le_rfl⟩)
            (fun _ => hnotifications) _
  | fetch => cases hstep
  | snooze =>
      obtain ⟨-, hstep⟩ := Option.ite_none_right_eq_some.mp hstep
      obtain rfl := Option.some.inj hstep
      exact h.advance .leave hplace nofun rfl rfl nofun nofun _
  | leave =>
      obtain rfl := Option.some.inj hstep
      apply h.move (some .notifyAll) hplace nofun rfl nofun nofun
      intro p hp
      apply (hfinisher p hp).move
      · nofun
      · exact fun _ => rfl
      · nofun
      · nofun
      · nofun
  | notifyAll =>
      obtain rfl := Option.some.inj hstep
      have hrunning := h.running
      rw [hplace] at hrunning
      refine ⟨hrunning, fun hrunning' => absurd (hrunning.symm.trans hrunning') nofun, ?_, nofun,
        ?_⟩
      · intro t p hp
        apply (h.flush t p hp).of_ne
        rw [hplace]
        nofun
      · intro p' hp'
        obtain ⟨p, hp, rfl⟩ := Option.map_eq_some_iff.mp hp'
        exact FinishPlace.consistent_woken (hfinisher p hp)
  | unlock =>
      obtain rfl := Option.some.inj hstep
      have hrunning := h.running
      rw [hplace] at hrunning
      apply h.move none hplace nofun hrunning Or.inl nofun
      intro p hp
      apply (hfinisher p hp).move
      · nofun
      · nofun
      · nofun
      · exact fun _ => Or.inl rfl
      · nofun

/-- A thread enters, leaves or goes on in `entriesFlush`. -/
theorem setFlush (t : ℕ) (next : Option FlushPlace) (connected : Bool)
    (hnext : ∀ p, next = some p → p.Consistent σ.connectionResolved σ.getter) :
  Invariant { σ with flush := Function.update σ.flush t next, isConnected := connected }
  := by
  refine ⟨h.running, h.resolved, ?_, h.notified, h.finisher⟩
  intro u p hp
  change Function.update σ.flush t next u = some p at hp
  by_cases hu : u = t
  · subst hu
    rw [Function.update_self] at hp
    exact hnext p hp
  · rw [Function.update_of_ne hu] at hp
    exact h.flush u p hp

theorem stepFlusher {t : ℕ} {succeeds : Bool}
    (hstep : σ.stepFlusher t succeeds = some σ') :
  Invariant σ'
  := by
  obtain ⟨place, hplace, hstep⟩ := Option.bind_eq_some_iff.mp hstep
  have hconsistent := h.flush t place hplace
  cases place with
  | resolve =>
      obtain rfl := Option.some.inj hstep
      apply h.setFlush
      intro p hp
      split_ifs at hp with hresolved hconnected
      · obtain rfl := Option.some.inj hp
        trivial
      · obtain rfl := Option.some.inj hp
        have hunresolved : σ.connectionResolved = false := by simpa using hresolved
        exact ⟨hunresolved, hconsistent.resolve_left hresolved⟩
  | waiting => cases hstep
  | send =>
      obtain rfl := Option.some.inj hstep
      apply h.setFlush
      nofun

/-- The thread that destroys the object goes on. -/
theorem setFinisher (p : FinishPlace) {n : ℕ} (hn : σ.notifications ≤ n)
    {hasty : Bool} (hp : p.Consistent σ.getter n hasty) :
  Invariant { σ with finisher := some p, notifications := n, hasty := hasty }
  := by
  refine ⟨h.running, h.resolved, h.flush, fun hg => (h.notified hg).trans_le hn, ?_⟩
  intro p' hp'
  obtain rfl := Option.some.inj hp'
  exact hp

/-- Once the flag is unset, the thread in `entriesGet` is at its beginning or at its end. -/
theorem of_not_running (hrunning : σ.isRunning = false) :
  σ.getter = some .start ∨ σ.getter = none ∨ σ.getter = some .notifyAll ∨ σ.getter = some .unlock
  := by
  have hplace := h.running.symm.trans hrunning
  cases hgetter : σ.getter with
  | none => exact Or.inr (Or.inl rfl)
  | some g =>
      rw [hgetter] at hplace
      cases g with
      | start => exact Or.inl rfl
      | notifyAll => exact Or.inr (Or.inr (Or.inl rfl))
      | unlock => exact Or.inr (Or.inr (Or.inr rfl))
      | _ => cases hplace

theorem willNotify_of_running (hrunning : σ.isRunning = true) :
  σ.getter.any GetPlace.willNotify = true ∧ σ.getter ≠ some .start
  := by
  have hplace := h.running.symm.trans hrunning
  cases hgetter : σ.getter with
  | none =>
      rw [hgetter] at hplace
      cases hplace
  | some g =>
      rw [hgetter, Option.any_some] at hplace
      constructor
      · rw [Option.any_some, GetPlace.willNotify, hplace, Bool.true_or]
      · rintro ⟨⟩
        cases hplace

/-- The thread that destroys the object keeps the invariant. -/
theorem stepFinisher {succeeds : Bool} (hstep : σ.stepFinisher succeeds = some σ') :
  Invariant σ'
  := by
  obtain ⟨place, hplace, hstep⟩ := Option.bind_eq_some_iff.mp hstep
  have hconsistent := h.finisher place hplace
  cases place with
  | notify =>
      cases succeeds with
      | true =>
          obtain rfl := Option.some.inj hstep
          exact h.setFinisher .check (Nat.le_succ _) ⟨hconsistent, fun _ => Nat.succ_pos _⟩
      | false =>
          obtain rfl := Option.some.inj hstep
          exact h.setFinisher .delete le_rfl nofun
  | check =>
      obtain rfl := Option.some.inj hstep
      apply h.setFinisher _ le_rfl
      split_ifs with hrunning
      · exact ⟨(h.willNotify_of_running hrunning).1, hconsistent.2⟩
      · rw [Bool.not_eq_true] at hrunning
        exact fun _ => (h.of_not_running hrunning).resolve_left hconsistent.1
  | waiting => cases hstep
  | delete =>
      obtain rfl := Option.some.inj hstep
      exact h.setFinisher .deleted le_rfl hconsistent
  | deleted => cases hstep

protected theorem step {event : Event} (hstep : step σ event = some σ') :
  Invariant σ'
  := by
  obtain ⟨-, hstep⟩ := Option.ite_none_left_eq_some.mp hstep
  cases event with
  | entriesGet =>
      obtain ⟨⟨hfinisher, hgetter⟩, hstep⟩ := Option.ite_none_right_eq_some.mp hstep
      obtain rfl := Option.some.inj hstep
      have hrunning := h.running
      rw [hgetter] at hrunning
      refine ⟨hrunning, fun hrunning' => absurd (hrunning.symm.trans hrunning') nofun, ?_, nofun,
        ?_⟩
      · intro t p hp
        apply (h.flush t p hp).of_ne
        rw [hgetter]
        nofun
      · intro p hp
        rw [hfinisher] at hp
        cases hp
  | getter succeeds => exact h.stepGetter hstep
  | arrival =>
      obtain ⟨hgetter, hstep⟩ := Option.ite_none_right_eq_some.mp hstep
      obtain rfl := Option.some.inj hstep
      exact h.advance .fetch hgetter nofun rfl rfl nofun nofun _
  | received succeeds =>
      obtain ⟨hgetter, hstep⟩ := Option.ite_none_right_eq_some.mp hstep
      obtain rfl := Option.some.inj hstep
      exact h.advance .leave hgetter nofun rfl rfl nofun nofun _
  | entriesFlush t =>
      obtain ⟨⟨-, -, hrunning⟩, hstep⟩ := Option.ite_none_right_eq_some.mp hstep
      obtain rfl := Option.some.inj hstep
      apply h.setFlush
      intro p hp
      obtain rfl := Option.some.inj hp
      exact h.resolved hrunning
  | flusher t succeeds => exact h.stepFlusher hstep
  | notifyFinish =>
      obtain ⟨-, hstep⟩ := Option.ite_none_right_eq_some.mp hstep
      obtain rfl := Option.some.inj hstep
      apply h.setFinisher _ le_rfl
      split_ifs with hrunning
      · exact (h.willNotify_of_running hrunning).2
      · rw [Bool.not_eq_true] at hrunning
        intro hhasty
        apply (h.of_not_running hrunning).resolve_left
        simpa using hhasty
  | finisher succeeds => exact h.stepFinisher hstep
  | wakeFlusher t =>
      obtain ⟨hflush, hstep⟩ := Option.ite_none_right_eq_some.mp hstep
      obtain rfl := Option.some.inj hstep
      apply h.setFlush
      intro p hp
      obtain rfl := Option.some.inj hp
      exact Or.inr (h.flush t _ hflush).2
  | wakeFinisher =>
      obtain ⟨hfinisher, hstep⟩ := Option.ite_none_right_eq_some.mp hstep
      obtain rfl := Option.some.inj hstep
      obtain ⟨hnotify, hpending⟩ := h.finisher _ hfinisher
      apply h.setFinisher .check le_rfl
      refine ⟨?_, hpending⟩
      intro hstart
      rw [hstart] at hnotify
      cases hnotify

/-- One of the two threads can go on, unless the service is waited for. -/
theorem proceeds (hfinisher : σ.finisher ≠ none) (hdeleted : σ.finisher ≠ some .deleted) :
  σ.getter.any GetPlace.awaitsService = true
    ∨ (step σ (.getter true)).isSome = true ∨ (step σ (.finisher true)).isSome = true
  := by
  obtain ⟨p, hp⟩ := Option.ne_none_iff_exists'.mp hfinisher
  have hconsistent := h.finisher p hp
  cases p with
  | notify | check | delete =>
      refine Or.inr (Or.inr ?_)
      rw [step, if_neg hdeleted]
      simp only [State.stepFinisher, hp]
      rfl
  | waiting =>
      obtain ⟨hnotify, hpending⟩ := hconsistent
      cases hg : σ.getter with
      | none =>
          rw [hg] at hnotify
          cases hnotify
      | some g =>
          rw [hg] at hnotify hpending
          cases g with
          | start | unlock => cases hnotify
          | connect | send | fetch => exact Or.inl rfl
          | poll | snooze =>
              refine Or.inr (Or.inl ?_)
              rw [step, if_neg hdeleted]
              simp [State.stepGetter, hg, hpending rfl]
          | leave | notifyAll =>
              refine Or.inr (Or.inl ?_)
              rw [step, if_neg hdeleted]
              simp only [State.stepGetter, hg]
              rfl
  | deleted => exact absurd hp hdeleted

end Invariant

/-! ### The end -/

/-- The number of steps that are left in `entriesGet`. -/
def GetPlace.left : GetPlace → ℕ
  | .start => 8
  | .connect => 7
  | .send => 6
  | .poll => 5
  | .fetch => 4
  | .snooze => 4
  | .leave => 3
  | .notifyAll => 2
  | .unlock => 1

/-- The steps that the thread that destroys the object has left. -/
def FinishPlace.left : FinishPlace → ℕ
  | .notify => 3
  | .check => 2
  | .waiting => 1
  | .delete => 1
  | .deleted => 0

/-- The thread that destroys the object may have to look at the flag once more when it is woken. -/
def State.left (σ : State) : ℕ :=
  2 * σ.getter.elim 0 GetPlace.left + σ.finisher.elim 0 FinishPlace.left

theorem left_of_getter {σ σ' : State} (hfinisher : σ'.finisher = σ.finisher)
    (hgetter : σ'.getter.elim 0 GetPlace.left < σ.getter.elim 0 GetPlace.left) :
  σ'.left < σ.left
  := by
  rw [State.left, State.left, hfinisher]
  omega

/-- The thread in `entriesGet` has fewer steps left, and it wakes the other one with its last but
one. -/
theorem stepGetter_cases {σ σ' : State} {succeeds : Bool}
    (hstep : σ.stepGetter succeeds = some σ') :
  σ'.finisher = σ.finisher
      ∧ σ'.getter.elim 0 GetPlace.left < σ.getter.elim 0 GetPlace.left
    ∨ σ.getter = some .notifyAll ∧ σ'.getter = some .unlock
      ∧ σ'.finisher = σ.finisher.map FinishPlace.woken
  := by
  obtain ⟨place, hplace, hstep⟩ := Option.bind_eq_some_iff.mp hstep
  cases place with
  | start | leave | unlock =>
      obtain rfl := Option.some.inj hstep
      rw [hplace]
      exact Or.inl ⟨rfl, by simp [GetPlace.left]⟩
  | connect =>
      obtain rfl := Option.some.inj hstep
      refine Or.inl ⟨rfl, ?_⟩
      rw [hplace]
      dsimp only
      split_ifs
      · simp [GetPlace.left]
      · simp [GetPlace.left]
  | send =>
      obtain rfl := Option.some.inj hstep
      refine Or.inl ⟨rfl, ?_⟩
      rw [hplace]
      cases succeeds <;> simp [GetPlace.left]
  | poll =>
      rw [hplace]
      cases succeeds with
      | false =>
          obtain rfl := Option.some.inj hstep
          exact Or.inl ⟨rfl, by simp [GetPlace.left]⟩
      | true =>
          obtain ⟨-, hstep⟩ := Option.ite_none_right_eq_some.mp hstep
          obtain rfl := Option.some.inj hstep
          exact Or.inl ⟨rfl, by simp [GetPlace.left]⟩
  | fetch => cases hstep
  | snooze =>
      obtain ⟨-, hstep⟩ := Option.ite_none_right_eq_some.mp hstep
      obtain rfl := Option.some.inj hstep
      rw [hplace]
      exact Or.inl ⟨rfl, by simp [GetPlace.left]⟩
  | notifyAll =>
      obtain rfl := Option.some.inj hstep
      exact Or.inr ⟨hplace, rfl, rfl⟩

theorem left_stepGetter {σ σ' : State} {succeeds : Bool} (hfinisher : σ.finisher ≠ none)
    (hstep : σ.stepGetter succeeds = some σ') :
  σ'.finisher ≠ none ∧ σ'.left < σ.left
  := by
  obtain ⟨hsame, hlt⟩ | ⟨hgetter, hgetter', hwoken⟩ := stepGetter_cases hstep
  · rw [hsame]
    exact ⟨hfinisher, left_of_getter hsame hlt⟩
  · obtain ⟨p, hp⟩ := Option.ne_none_iff_exists'.mp hfinisher
    rw [State.left, State.left, hgetter, hgetter', hwoken, hp]
    refine ⟨nofun, ?_⟩
    cases p <;> decide

/-- The thread that destroys the object has one step less left. -/
theorem left_stepFinisher {σ σ' : State} {succeeds : Bool}
    (hstep : σ.stepFinisher succeeds = some σ') :
  σ'.finisher ≠ none ∧ σ'.left < σ.left
  := by
  obtain ⟨place, hplace, hstep⟩ := Option.bind_eq_some_iff.mp hstep
  cases place with
  | notify =>
      cases succeeds with
      | _ =>
          obtain rfl := Option.some.inj hstep
          refine ⟨by simp, ?_⟩
          simp [State.left, hplace, FinishPlace.left]
  | delete =>
      obtain rfl := Option.some.inj hstep
      refine ⟨by simp, ?_⟩
      simp [State.left, hplace, FinishPlace.left]
  | check =>
      obtain rfl := Option.some.inj hstep
      refine ⟨by simp, ?_⟩
      simp only [State.left, hplace]
      split_ifs
      · simp [FinishPlace.left]
      · simp [FinishPlace.left]
  | waiting | deleted => cases hstep

/-- A thread in `entriesFlush` does not matter. -/
theorem left_stepFlusher {σ σ' : State} {t : ℕ} {succeeds : Bool}
    (hstep : σ.stepFlusher t succeeds = some σ') :
  σ'.finisher = σ.finisher ∧ σ'.left = σ.left
  := by
  obtain ⟨place, -, hstep⟩ := Option.bind_eq_some_iff.mp hstep
  cases place with
  | resolve | send =>
      obtain rfl := Option.some.inj hstep
      exact ⟨rfl, rfl⟩
  | waiting => cases hstep

/-- Once the object is being destroyed, every step of the two threads is one of those that are
left, and a waking without a notification adds one to them. -/
theorem left_step {σ σ' : State} {event : Event} (hfinisher : σ.finisher ≠ none)
    (hstep : step σ event = some σ') :
  σ'.finisher ≠ none ∧ σ'.left + (if event.concernsEnd then 1 else 0)
    ≤ σ.left + if event == .wakeFinisher then 1 else 0
  := by
  obtain ⟨-, hstep⟩ := Option.ite_none_left_eq_some.mp hstep
  cases event with
  | entriesGet =>
      obtain ⟨⟨hnone, -⟩, -⟩ := Option.ite_none_right_eq_some.mp hstep
      contradiction
  | getter succeeds => exact left_stepGetter hfinisher hstep
  | arrival | received succeeds =>
      obtain ⟨hgetter, hstep⟩ := Option.ite_none_right_eq_some.mp hstep
      obtain rfl := Option.some.inj hstep
      refine ⟨hfinisher, Nat.succ_le_of_lt ?_⟩
      apply left_of_getter
      · rfl
      · rw [hgetter]
        simp [GetPlace.left]
  | entriesFlush t =>
      obtain ⟨⟨hnone, -⟩, -⟩ := Option.ite_none_right_eq_some.mp hstep
      contradiction
  | flusher t succeeds =>
      obtain ⟨hsame, hleft⟩ := left_stepFlusher hstep
      rw [hsame, hleft]
      exact ⟨hfinisher, le_rfl⟩
  | notifyFinish =>
      obtain ⟨hnone, -⟩ := Option.ite_none_right_eq_some.mp hstep
      contradiction
  | finisher succeeds => exact left_stepFinisher hstep
  | wakeFlusher t =>
      obtain ⟨-, hstep⟩ := Option.ite_none_right_eq_some.mp hstep
      obtain rfl := Option.some.inj hstep
      exact ⟨hfinisher, le_rfl⟩
  | wakeFinisher =>
      obtain ⟨hwaiting, hstep⟩ := Option.ite_none_right_eq_some.mp hstep
      obtain rfl := Option.some.inj hstep
      refine ⟨by simp, ?_⟩
      rw [State.left, State.left, hwaiting]
      exact le_rfl

theorem left_le (σ : State) :
  σ.left ≤ 19
  := by
  have hgetter : ∀ g : Option GetPlace, g.elim 0 GetPlace.left ≤ 8 := by
    rintro (_ | g)
    · decide
    · cases g <;> decide
  have hfinisher : ∀ p : Option FinishPlace, p.elim 0 FinishPlace.left ≤ 3 := by
    rintro (_ | p)
    · decide
    · cases p <;> decide
  have := hgetter σ.getter
  have := hfinisher σ.finisher
  rw [State.left]
  omega

/-- The library is orderly, whatever its threads do. -/
theorem orderly_of_reaches {σ : State} (h : Runs.Reaches step (fun _ _ => True) {} σ) :
  Orderly σ
  := by
  have hinvariant : Invariant σ := by
    apply h.invariant invariant_init
    intro σ event σ' hσ _ hstep
    exact hσ.step hstep
  constructor
  · rw [hinvariant.running]
    cases σ.getter with
    | none => simp
    | some g => simp
  · exact fun t ht => (hinvariant.flush t _ ht).2
  · intro hfinisher
    have hnotify := (hinvariant.finisher _ hfinisher).1
    cases hg : σ.getter with
    | none =>
        rw [hg] at hnotify
        cases hnotify
    | some g =>
        rw [hg] at hnotify
        exact ⟨g, rfl, hnotify⟩
  · intro hfinisher hhasty g hg
    have hplaces := hinvariant.finisher _ hfinisher hhasty
    rw [hg] at hplaces
    simpa using hplaces
  · exact hinvariant.proceeds
  · intro hfinisher events σ' hrun
    have hcount := Runs.countP_add_le_of_run (P := fun σ => σ.finisher ≠ none) (μ := State.left)
      hfinisher (fun _ _ _ hσ _ hstep => left_step hσ hstep) hrun
    have := left_le σ
    omega

/-- A thread waits for entries and another one for its end. -/
theorem orderly_waiting :
  ∃ σ, Runs.Reaches step (fun _ _ => True) {} σ ∧ σ.finisher = some .waiting
    ∧ σ.getter = some .poll ∧ Orderly σ
  := by
  have hrun : (Runs.run step (fun _ _ => true)
      [.entriesGet, .getter true, .entriesFlush 0, .flusher 0 true, .getter true, .getter true,
        .notifyFinish, .finisher true, .finisher true] {}).any
      (fun σ => σ.finisher = some .waiting && σ.getter = some .poll) = true := by decide +kernel
  obtain ⟨σ, hσ, hplaces⟩ := (Option.any_eq_true _ _).mp hrun
  have hreaches : Runs.Reaches step (fun _ _ => True) {} σ :=
    Runs.Reaches.run (fun _ _ _ => trivial) .start hσ
  simp only [Bool.and_eq_true, decide_eq_true_eq] at hplaces
  exact ⟨σ, hreaches, hplaces.1, hplaces.2, orderly_of_reaches hreaches⟩

/-- The object may be destroyed while a thread is in `sendAndFetch`, if this thread had not yet set
the flag. -/
example :
  (Runs.run step (fun _ _ => true)
      [.entriesGet, .notifyFinish, .getter true, .finisher true] {}).any
    (fun σ => σ.finisher = some .deleted && σ.getter = some .connect && σ.hasty) = true
  := by decide +kernel

/-- Neither is the thread waited for if it cannot be notified. -/
example :
  (Runs.run step (fun _ _ => true)
    [.entriesGet, .getter true, .notifyFinish, .finisher false, .finisher true] {}).any
    (fun σ => σ.finisher = some .deleted && σ.getter = some .connect && σ.hasty) = true
  := by decide +kernel

/-- And it may be destroyed before a thread that has left `sendAndFetch` has notified the others. -/
example :
  (Runs.run step (fun _ _ => true)
    [.entriesGet, .getter true, .getter false, .notifyFinish, .finisher true, .getter true,
      .finisher true, .finisher true] {}).any
    (fun σ => σ.finisher = some .deleted && σ.getter = some .notifyAll && !σ.hasty) = true
  := by decide +kernel

end MonitorThreads

end Cynara
