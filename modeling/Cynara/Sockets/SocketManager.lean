import Mathlib.Data.Finset.Lattice.Fold
import Mathlib.Data.Finset.Basic
import Cynara.Sockets.Socket

/-!
# Sending to the clients

The service keeps a descriptor for each of its sockets, with a queue for the bytes of its answers
and a buffer.  In each pass of its main loop it waits until some sockets are ready.  Requests that
are read are executed, and this may queue bytes for any connection and close any of them.  When a
socket is ready for writing, the queue of its descriptor is moved to the end of the buffer, and
what the kernel takes is erased from the front.  At the end of the pass the sockets that have
something to write are added to the set of those that `select` is asked about.

What the requests do is given with the pass, as a list of effects, as is what `select` and `write`
return.  A queue is modelled by its bytes; the descriptors are below `FD_SETSIZE`.
-/

namespace Cynara

/-- A descriptor, without what is needed for reading. -/
structure Descriptor where
  used : Bool := false
  writeQueue : Option Str := none
  writeBuffer : Str := []

namespace Descriptor

/-- `Descriptor::checkQueues`, which makes a queue if there is none. -/
def checkQueues (d : Descriptor) : Descriptor :=
  { d with writeQueue := some (d.writeQueue.getD []) }

/-- `writeQueue`, and an answer that is appended to it. -/
def append (bytes : Str) (d : Descriptor) : Descriptor :=
  { d.checkQueues with writeQueue := d.checkQueues.writeQueue.map (· ++ bytes) }

/-- There are bytes in the queue or in the buffer. -/
def hasDataToWrite (d : Descriptor) : Bool :=
  match d.writeQueue with
  | some queue => !(queue.isEmpty && d.writeBuffer.isEmpty)
  | none => false

/-- The queue is moved to the end of the buffer. -/
def prepareWriteBuffer (d : Descriptor) : Descriptor :=
  { d with writeQueue := some [], writeBuffer := d.writeBuffer ++ d.writeQueue.getD [] }

/-- The bytes that have been written are erased from the front of the buffer. -/
def erase (count : ℕ) (d : Descriptor) : Descriptor :=
  { d with writeBuffer := d.writeBuffer.drop count }

/-- The descriptor may be used for another connection. -/
def clear (_ : Descriptor) : Descriptor := {}

/-- The bytes that have not been written. -/
def kept (d : Descriptor) : Str := d.writeBuffer ++ d.writeQueue.getD []

end Descriptor

/-- What `write` comes to: it takes some bytes, it would block or is interrupted, or it fails. -/
inductive WriteResult where
  | written (count : ℕ)
  | blocked
  | failed

/-- What the execution of requests does: it queues bytes for a connection, accepts a new one, or
closes one. -/
inductive Effect where
  | queue (fd : ℕ) (bytes : Str)
  | accept (fd : ℕ)
  | close (fd : ℕ)

/-- The state of the service.  The bytes that are queued and those handed to the kernel are recorded
for each connection. -/
structure SocketManager where
  maxDesc : ℤ := -1
  readSet : Finset ℕ := ∅
  writeSet : Finset ℕ := ∅
  fds : ℕ → Descriptor := fun _ => {}
  output : ℕ → Ledger UInt8 := fun _ => {}

namespace SocketManager

/-- A descriptor is used from now on. -/
def createDescriptor (fd : ℕ) (σ : SocketManager) : SocketManager :=
  { σ with
    maxDesc := if fd > σ.maxDesc then fd else σ.maxDesc
    fds := Function.update σ.fds fd { σ.fds fd with used := true } }

/-- `select` will be asked whether the socket can be read. -/
def addReadSocket (fd : ℕ) (σ : SocketManager) : SocketManager :=
  { σ with readSet := insert fd σ.readSet }

def removeReadSocket (fd : ℕ) (σ : SocketManager) : SocketManager :=
  { σ with readSet := σ.readSet.erase fd }

/-- `select` will be asked whether the socket can be written. -/
def addWriteSocket (fd : ℕ) (σ : SocketManager) : SocketManager :=
  { σ with writeSet := insert fd σ.writeSet }

def removeWriteSocket (fd : ℕ) (σ : SocketManager) : SocketManager :=
  { σ with writeSet := σ.writeSet.erase fd }

/-- `closeSocket`, after the logic has been told. -/
def closeSocket (fd : ℕ) (σ : SocketManager) : SocketManager :=
  let σ := (σ.removeReadSocket fd).removeWriteSocket fd
  { σ with
    fds := Function.update σ.fds fd (σ.fds fd).clear
    output := Function.update σ.output fd {} }

/-- Bytes are appended to the queue of a connection. -/
def queue (fd : ℕ) (bytes : Str) (σ : SocketManager) : SocketManager :=
  { σ with
    fds := Function.update σ.fds fd ((σ.fds fd).append bytes)
    output := Function.update σ.output fd ((σ.output fd).queue bytes) }

/-- An answer for a connection that is closed is dropped.  The kernel gives a new connection a
number that is not in use. -/
def apply (σ : SocketManager) : Effect → SocketManager
  | .queue fd bytes => if (σ.fds fd).used then σ.queue fd bytes else σ
  | .accept fd => if (σ.fds fd).used then σ else (σ.createDescriptor fd).addReadSocket fd
  | .close fd => σ.closeSocket fd

/-- A socket is ready for reading: a connection is accepted, or requests are executed. -/
def readyForRead (effects : List Effect) (σ : SocketManager) : SocketManager :=
  effects.foldl apply σ

/-- A socket is ready for writing.  The effects are those of telling the logic that the connection
is closed. -/
def readyForWrite (fd : ℕ) (result : WriteResult) (effects : List Effect) (σ : SocketManager) :
    SocketManager :=
  let d := (σ.fds fd).prepareWriteBuffer
  let σ := { σ with fds := Function.update σ.fds fd d }
  match result with
  | .blocked => σ
  | .failed => (effects.foldl apply σ).closeSocket fd
  | .written count =>
      let σ :=
        { σ with
          fds := Function.update σ.fds fd (d.erase count)
          output := Function.update σ.output fd ((σ.output fd).hand (d.writeBuffer.take count)) }
      if (d.erase count).writeBuffer.isEmpty then σ.removeWriteSocket fd else σ

/-- The sockets that `select` has found ready, and what happens when they are read and written. -/
structure Ready where
  readSet : Finset ℕ
  writeSet : Finset ℕ
  reads : ℕ → List Effect
  writes : ℕ → WriteResult × List Effect

/-- What `select` comes to. -/
inductive Selected where
  | interrupted
  | ready (r : Ready)

/-- The loop over the sockets that are ready; `ret` is the number of those that are left. -/
def readyLoop (r : Ready) : List ℕ → ℕ → SocketManager → SocketManager
  | [], _, σ => σ
  | i :: is, ret, σ =>
      if (i : ℤ) < σ.maxDesc + 1 ∧ ret ≠ 0 then
        let (ret, σ) := if i ∈ r.readSet then (ret - 1, σ.readyForRead (r.reads i)) else (ret, σ)
        let (ret, σ) :=
          if i ∈ r.writeSet then (ret - 1, σ.readyForWrite i (r.writes i).1 (r.writes i).2)
          else (ret, σ)
        readyLoop r is ret σ
      else σ

/-- The descriptors up to the highest one. -/
def descriptors (σ : SocketManager) : List ℕ := List.range (σ.maxDesc + 1).toNat

/-- A socket that has something to write is added to the set. -/
def watch (σ : SocketManager) (i : ℕ) : SocketManager :=
  if (σ.fds i).used && (σ.fds i).hasDataToWrite then σ.addWriteSocket i else σ

/-- A pass of the main loop.  `select` reports only sockets it was asked about, so none of them is
above the highest descriptor; the first loop ends there at the latest. -/
def pass (σ : SocketManager) : Selected → SocketManager
  | .interrupted => σ
  | .ready r =>
      let r := { r with readSet := r.readSet ∩ σ.readSet, writeSet := r.writeSet ∩ σ.writeSet }
      let ret := r.readSet.card + r.writeSet.card
      if ret > 0 then
        let σ := readyLoop r σ.descriptors ret σ
        σ.descriptors.foldl watch σ
      else σ

/-- The sockets that are made before the main loop. -/
def init (fds : List ℕ) : SocketManager :=
  fds.foldl (fun σ fd => (σ.createDescriptor fd).addReadSocket fd) {}

/-! ### The bytes that are kept -/

/-- The bytes that are kept account for the ledger; there is a queue if there are bytes in the
buffer, and a descriptor that is not used keeps nothing. -/
structure Sound (d : Descriptor) (l : Ledger UInt8) : Prop where
  accounts : l.Accounts d.kept
  queue : d.writeQueue = none → d.writeBuffer = []
  unused : d.used = false → d.kept = []

theorem sound_clear :
  Sound {} {}
  := ⟨rfl, fun _ => rfl, fun _ => rfl⟩

variable {d : Descriptor} {l : Ledger UInt8}

theorem Sound.hasDataToWrite_iff (h : Sound d l) :
  d.hasDataToWrite = true ↔ d.kept ≠ []
  := by
  cases hqueue : d.writeQueue with
  | none => simp [Descriptor.hasDataToWrite, Descriptor.kept, hqueue, h.queue hqueue]
  | some queue => simp [Descriptor.hasDataToWrite, Descriptor.kept, hqueue, imp_iff_not_or, or_comm]

theorem Sound.append (h : Sound d l) (hused : d.used = true) (bytes : Str) :
  Sound (d.append bytes) (l.queue bytes)
  := by
  refine ⟨?_, nofun, fun hunused => absurd (hused.symm.trans hunused) Bool.noConfusion⟩
  have haccounts := h.accounts.queue bytes
  rw [Descriptor.kept, List.append_assoc] at haccounts
  exact haccounts

theorem Sound.prepareWriteBuffer (h : Sound d l) :
  Sound d.prepareWriteBuffer l
  := by
  have hkept : d.prepareWriteBuffer.kept = d.kept := List.append_nil _
  refine ⟨?_, nofun, fun hunused => ?_⟩
  · rw [hkept]
    exact h.accounts
  · rw [hkept]
    exact h.unused hunused

/-- The bytes that the kernel takes are handed on, and the others are kept. -/
theorem Sound.erase (h : Sound d l) (count : ℕ) :
  Sound (d.prepareWriteBuffer.erase count)
    (l.hand (d.prepareWriteBuffer.writeBuffer.take count))
  := by
  have hkept : (d.prepareWriteBuffer.erase count).kept = d.kept.drop count := List.append_nil _
  refine ⟨?_, nofun, fun hunused => ?_⟩
  · rw [hkept]
    exact h.accounts.hand count
  · rw [hkept, h.unused hunused, List.drop_nil]

/-- All descriptors are sound, and none that is used is above the highest one. -/
structure Accounted (σ : SocketManager) : Prop where
  sound : ∀ fd, Sound (σ.fds fd) (σ.output fd)
  bounded : ∀ fd, (σ.fds fd).used = true → (fd : ℤ) ≤ σ.maxDesc

variable {σ σ' : SocketManager}

/-- One descriptor and its ledger are changed. -/
theorem Accounted.update (h : σ.Accounted) (fd : ℕ) {d : Descriptor} {l : Ledger UInt8}
    (hsound : Sound d l) (hbounded : d.used = true → (fd : ℤ) ≤ σ'.maxDesc)
    (hfds : σ'.fds = Function.update σ.fds fd d)
    (houtput : σ'.output = Function.update σ.output fd l) (hmax : σ.maxDesc ≤ σ'.maxDesc) :
  σ'.Accounted
  := by
  constructor
  · intro i
    rw [hfds, houtput]
    by_cases hi : i = fd
    · subst hi
      simpa using hsound
    · simpa [hi] using h.sound i
  · intro i
    rw [hfds]
    by_cases hi : i = fd
    · subst hi
      simpa using hbounded
    · simpa [hi] using fun hused => (h.bounded i hused).trans hmax

theorem Accounted.closeSocket (h : σ.Accounted) (fd : ℕ) :
  (σ.closeSocket fd).Accounted
  := h.update fd sound_clear nofun rfl rfl le_rfl

/-- A descriptor that keeps nothing is taken into use. -/
theorem Accounted.createDescriptor (h : σ.Accounted) (fd : ℕ) :
  (σ.createDescriptor fd).Accounted
  := by
  have hsound := h.sound fd
  have hcreated : Sound { σ.fds fd with used := true } (σ.output fd) :=
    ⟨hsound.accounts, hsound.queue, fun hused => Bool.noConfusion hused⟩
  refine h.update fd hcreated (fun _ => ?_) rfl (Function.update_eq_self fd σ.output).symm ?_
  · dsimp only [SocketManager.createDescriptor]
    split
    · exact le_rfl
    · omega
  · dsimp only [SocketManager.createDescriptor]
    split
    · omega
    · exact le_rfl

theorem Accounted.apply (h : σ.Accounted) (effect : Effect) :
  (σ.apply effect).Accounted
  := by
  cases effect with
  | queue fd bytes =>
      simp only [SocketManager.apply]
      split
      · rename_i hused
        exact h.update fd ((h.sound fd).append hused bytes) (h.bounded fd) rfl rfl le_rfl
      · exact h
  | accept fd =>
      simp only [SocketManager.apply]
      split
      · exact h
      · have hcreated := h.createDescriptor fd
        exact ⟨hcreated.sound, hcreated.bounded⟩
  | close fd => exact h.closeSocket fd

theorem Accounted.foldl_apply (h : σ.Accounted) (effects : List Effect) :
  (effects.foldl SocketManager.apply σ).Accounted
  := List.foldlRecOn effects SocketManager.apply h fun _ hσ effect _ => hσ.apply effect

/-- What is written comes from the front of what is kept. -/
theorem Accounted.readyForWrite (h : σ.Accounted) (fd : ℕ) (result : WriteResult)
    (effects : List Effect) :
  (σ.readyForWrite fd result effects).Accounted
  := by
  have hprepared : Accounted
      { σ with fds := Function.update σ.fds fd (σ.fds fd).prepareWriteBuffer } :=
    h.update fd (h.sound fd).prepareWriteBuffer (h.bounded fd) rfl
      (Function.update_eq_self fd σ.output).symm le_rfl
  cases result with
  | blocked => exact hprepared
  | failed => exact (hprepared.foldl_apply effects).closeSocket fd
  | written count =>
      simp only [SocketManager.readyForWrite]
      split
      · refine h.update fd ((h.sound fd).erase count) (h.bounded fd) ?_ rfl le_rfl
        exact Function.update_idem _ _ _
      · refine h.update fd ((h.sound fd).erase count) (h.bounded fd) ?_ rfl le_rfl
        exact Function.update_idem _ _ _

theorem Accounted.readyLoop (h : σ.Accounted) (r : Ready) (is : List ℕ) (ret : ℕ) :
  (SocketManager.readyLoop r is ret σ).Accounted
  := by
  induction is generalizing ret σ with
  | nil => exact h
  | cons i is ih =>
      unfold SocketManager.readyLoop
      split
      · by_cases hread : i ∈ r.readSet
        · have hafter : (σ.readyForRead (r.reads i)).Accounted := h.foldl_apply (r.reads i)
          by_cases hwrite : i ∈ r.writeSet
          · simp only [hread, hwrite, ↓reduceIte]
            exact ih (hafter.readyForWrite i _ _) _
          · simp only [hread, hwrite, ↓reduceIte]
            exact ih hafter _
        · by_cases hwrite : i ∈ r.writeSet
          · simp only [hread, hwrite, ↓reduceIte]
            exact ih (h.readyForWrite i _ _) _
          · simp only [hread, hwrite, ↓reduceIte]
            exact ih h _
      · exact h

/-! ### The sockets that are watched -/

/-- Whatever has something to write is in the set. -/
def Watched (σ : SocketManager) : Prop :=
  ∀ fd, (σ.fds fd).used = true → (σ.fds fd).kept ≠ [] → fd ∈ σ.writeSet

theorem watch_eq (σ : SocketManager) (i : ℕ) :
  ∃ writeSet, σ.watch i = { σ with writeSet := writeSet } ∧ σ.writeSet ⊆ writeSet
    ∧ ((σ.fds i).used = true → (σ.fds i).hasDataToWrite = true → i ∈ writeSet)
  := by
  unfold watch
  split
  · exact ⟨_, rfl, Finset.subset_insert _ _, fun _ _ => Finset.mem_insert_self _ _⟩
  · rename_i hno
    refine ⟨_, rfl, Finset.Subset.refl _, fun hused hdata => ?_⟩
    exact absurd (Bool.and_eq_true_iff.mpr ⟨hused, hdata⟩) hno

/-- The loop at the end of a pass only adds sockets to the set, all that have something to write. -/
theorem foldl_watch (is : List ℕ) (σ : SocketManager) :
  ∃ writeSet, is.foldl watch σ = { σ with writeSet := writeSet } ∧ σ.writeSet ⊆ writeSet
    ∧ ∀ i ∈ is, (σ.fds i).used = true → (σ.fds i).hasDataToWrite = true → i ∈ writeSet
  := by
  induction is generalizing σ with
  | nil => exact ⟨σ.writeSet, rfl, Finset.Subset.refl _, nofun⟩
  | cons i is ih =>
      obtain ⟨first, hfirst, hsubset, hi⟩ := watch_eq σ i
      obtain ⟨writeSet, heq, hsubset', hall⟩ := ih (σ.watch i)
      rw [hfirst] at heq hsubset' hall
      refine ⟨writeSet, by rw [List.foldl_cons, hfirst, heq], hsubset.trans hsubset', ?_⟩
      rw [List.forall_mem_cons]
      exact ⟨fun hused hdata => hsubset' (hi hused hdata), hall⟩

/-- The loop at the end of a pass comes to all descriptors that are used. -/
theorem Accounted.watchAll (h : σ.Accounted) :
  (σ.descriptors.foldl watch σ).Accounted ∧ (σ.descriptors.foldl watch σ).Watched
  := by
  obtain ⟨writeSet, heq, -, hall⟩ := foldl_watch σ.descriptors σ
  rw [heq]
  refine ⟨⟨h.sound, h.bounded⟩, fun fd hused hkept => ?_⟩
  have hmem : fd ∈ σ.descriptors := by
    have hbounded := h.bounded fd hused
    rw [descriptors, List.mem_range]
    omega
  exact hall fd hmem hused ((h.sound fd).hasDataToWrite_iff.mpr hkept)

/-- A pass keeps the bytes accounted for, and all that have something to write are watched after
it. -/
theorem Accounted.pass (h : σ.Accounted) (hwatched : σ.Watched) (selected : Selected) :
  (σ.pass selected).Accounted ∧ (σ.pass selected).Watched
  := by
  cases selected with
  | interrupted => exact ⟨h, hwatched⟩
  | ready r =>
      simp only [SocketManager.pass]
      split
      · exact (h.readyLoop _ _ _).watchAll
      · exact ⟨h, hwatched⟩

/-- At first nothing is queued. -/
theorem accounted_init (fds : List ℕ) :
  (init fds).Accounted ∧ (init fds).Watched
  := by
  have hinit : (init fds).Accounted ∧ ∀ fd, ((init fds).fds fd).kept = [] := by
    apply List.foldlRecOn fds _ (motive := fun σ : SocketManager =>
      σ.Accounted ∧ ∀ fd, (σ.fds fd).kept = [])
    · exact ⟨⟨fun _ => sound_clear, nofun⟩, fun _ => rfl⟩
    · rintro σ ⟨haccounted, hkept⟩ fd -
      have hcreated := haccounted.createDescriptor fd
      refine ⟨⟨hcreated.sound, hcreated.bounded⟩, fun i => ?_⟩
      by_cases hi : i = fd
      · subst hi
        simpa [addReadSocket, createDescriptor, Descriptor.kept] using hkept i
      · simpa [addReadSocket, createDescriptor, hi] using hkept i
  exact ⟨hinit.1, fun fd _ hkept => absurd (hinit.2 fd) hkept⟩

/-- The passes of the main loop. -/
def step (σ : SocketManager) (selected : Selected) : Option SocketManager :=
  some (σ.pass selected)

/-- In every run nothing is lost, and whatever is kept is watched. -/
theorem accounted_of_reaches {fds : List ℕ}
    (h : Runs.Reaches step (fun _ _ => True) (init fds) σ) :
  σ.Accounted ∧ σ.Watched
  := by
  apply h.invariant (P := fun σ => σ.Accounted ∧ σ.Watched) (accounted_init fds)
  rintro σ selected σ' ⟨haccounted, hwatched⟩ - hstep
  obtain rfl := Option.some.inj hstep
  exact haccounted.pass hwatched selected

end SocketManager

/-- In every run of the service and of a client, the bytes that have been handed to the kernel for a
connection, followed by those that are kept in its buffer and its queue, are the bytes that were
queued for it.  After every pass of the main loop of the service, a connection for which bytes are
kept is in the set of those that are watched for writing. -/
theorem output_accounted (fds : List ℕ) (σ : SocketManager)
    (hσ : Runs.Reaches SocketManager.step (fun _ _ => True) (SocketManager.init fds) σ)
    (c : Sender) (hc : Runs.Reaches Sender.step (fun _ _ => True) {} c) :
  (∀ fd, (σ.output fd).handed ++ (σ.fds fd).kept = (σ.output fd).queued)
    ∧ (∀ fd, (σ.fds fd).used = true → (σ.fds fd).kept ≠ [] → fd ∈ σ.writeSet)
    ∧ c.socket.output.handed ++ c.kept = c.socket.output.queued
  := by
  obtain ⟨haccounted, hwatched⟩ := SocketManager.accounted_of_reaches hσ
  exact ⟨fun fd => (haccounted.sound fd).accounts, hwatched, Sender.accounts_of_reaches hc⟩

namespace SocketManager

/-- A socket is found ready for reading, which has the given effects. -/
def reading (fd : ℕ) (effects : List Effect) : Selected :=
  .ready ⟨{fd}, ∅, fun _ => effects, fun _ => (.blocked, [])⟩

/-- A socket is found ready for writing, and some bytes are taken. -/
def writing (fd count : ℕ) : Selected :=
  .ready ⟨∅, {fd}, fun _ => [], fun _ => (.written count, [])⟩

/-- A client connects, five bytes are queued for it, and three of them are written. -/
def served : SocketManager :=
  (((init [3]).pass (reading 3 [.accept 4])).pass (reading 4 [.queue 4 [1, 2, 3, 4, 5]])).pass
    (writing 4 3)

end SocketManager

/-- Five bytes are sent by a client, of which the kernel takes two. -/
def sentInPart : Option Sender :=
  (Sender.step {} (.append [1, 2, 3, 4, 5])).bind fun c =>
    c.step (.sendToServer [] [.sent 2, .timeout])

/-- The bytes that are left after a write in part. -/
theorem output_accounted_inPart :
  (SocketManager.served.output 4).handed = [1, 2, 3]
    ∧ (SocketManager.served.fds 4).kept = [4, 5] ∧ 4 ∈ SocketManager.served.writeSet
    ∧ ∃ c, sentInPart = some c ∧ c.socket.output.handed = [1, 2]
      ∧ c.socket.output.handed ++ c.kept = [1, 2, 3, 4, 5]
  := by
  have hserved : Runs.Reaches SocketManager.step (fun _ _ => True) (SocketManager.init [3])
      SocketManager.served :=
    .next (.next (.next .start trivial rfl) trivial rfl) trivial rfl
  have hsent : sentInPart.any (fun c => c.socket.output.handed = [1, 2] ∧
      c.socket.output.queued = [1, 2, 3, 4, 5]) = true := by decide +kernel
  obtain ⟨c, hc, hbytes⟩ := (Option.any_eq_true _ _).mp hsent
  obtain ⟨hhanded, hqueued⟩ := of_decide_eq_true hbytes
  obtain ⟨c₁, happend, hsend⟩ := Option.bind_eq_some_iff.mp hc
  obtain ⟨-, hwatched, hkept⟩ := output_accounted [3] SocketManager.served hserved c
    (.next (.next .start trivial happend) trivial hsend)
  have hrest : (SocketManager.served.fds 4).kept = [4, 5] := by decide +kernel
  refine ⟨by decide +kernel, hrest, ?_, c, hc, hhanded, hkept.trans hqueued⟩
  apply hwatched 4 (by decide +kernel)
  rw [hrest]
  exact List.cons_ne_nil _ _

end Cynara
