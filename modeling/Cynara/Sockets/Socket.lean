import Cynara.Library.Ledger
import Cynara.Library.Runs
import Cynara.Library.Strings

/-!
# Sending to the service

A client appends its messages to a queue.  To send them, the queue is moved to that of the socket,
and from there to a buffer as soon as the buffer has been sent.  The buffer is never made smaller,
so that it may hold bytes that have been sent before; a position and an end say which bytes are to
be sent.

A queue is modelled by its bytes.  What `poll` and `send` return is given with the calls.
-/

namespace Cynara

/-- `Socket::SendStatus`. -/
inductive SendStatus where
  | PARTIAL_DATA_SENT
  | ALL_DATA_SENT
  | CONNECTION_LOST
deriving DecidableEq

/-- What happens in a turn of the loop of `sendBuffer`: `poll` times out or fails, or `send` takes
some bytes, would block, finds the connection closed, or fails. -/
inductive SendTurn where
  | timeout
  | pollFailed
  | sent (count : ℕ)
  | again
  | closed
  | failed

/-- The socket of a client.  The bytes that are queued and those handed to the kernel are recorded
for each connection. -/
structure Socket where
  sendBuffer : Str := []
  sendBufferPos : ℕ := 0
  sendBufferEnd : ℕ := 0
  sendQueue : Str := []
  output : Ledger UInt8 := {}

namespace Socket

/-- The loop of `sendBuffer`: the status that is returned, unless an exception is thrown.  There is
no outcome if the turns that are given do not suffice. -/
def sendLoop : List SendTurn → Socket → Option (Option SendStatus × Socket)
  | [], s => if s.sendBufferEnd = s.sendBufferPos then some (some .ALL_DATA_SENT, s) else none
  | turn :: turns, s =>
      if s.sendBufferEnd = s.sendBufferPos then some (some .ALL_DATA_SENT, s)
      else
        match turn with
        | .timeout => some (some .PARTIAL_DATA_SENT, s)
        | .pollFailed => some (none, s)
        | .sent count =>
            -- the kernel takes at most the bytes it is given
            let t := min count (s.sendBufferEnd - s.sendBufferPos)
            let bytes := (s.sendBuffer.drop s.sendBufferPos).take t
            sendLoop turns
              { s with sendBufferPos := s.sendBufferPos + t, output := s.output.hand bytes }
        | .again => sendLoop turns s
        | .closed => some (some .CONNECTION_LOST, s)
        | .failed => some (none, s)

/-- The bytes of the queue are written over the front of the buffer, which is made larger if they do
not fit. -/
def fillBuffer (s : Socket) : Socket :=
  let sendBuffer := s.sendBuffer ++ List.replicate (s.sendQueue.length - s.sendBuffer.length) 0
  { s with
    sendBuffer := s.sendQueue ++ sendBuffer.drop s.sendQueue.length
    sendBufferEnd := s.sendQueue.length
    sendBufferPos := 0
    sendQueue := [] }

/-- What was left before is sent first. -/
def sendToServer (queue : Str) (turns turns' : List SendTurn) (s : Socket) :
    Option (Option SendStatus × Socket) :=
  let s := { s with sendQueue := s.sendQueue ++ queue }
  (s.sendLoop turns).bind fun
    | (some .ALL_DATA_SENT, s) => s.fillBuffer.sendLoop turns'
    | (status, s) => some (status, s)

/-- The connection is closed.  The buffer stays as it is. -/
def close (s : Socket) : Socket :=
  { s with sendBufferPos := 0, sendBufferEnd := 0, sendQueue := [], output := {} }

/-- The bytes of the buffer that have not been sent. -/
def unsent (s : Socket) : Str :=
  (s.sendBuffer.drop s.sendBufferPos).take (s.sendBufferEnd - s.sendBufferPos)

/-- The bytes that are kept account for those queued, if the last ones are still in the queue of the
client. -/
def Accounts (s : Socket) (queue : Str) : Prop :=
  s.sendBufferPos ≤ s.sendBufferEnd ∧ s.sendBufferEnd ≤ s.sendBuffer.length
    ∧ s.output.Accounts (s.unsent ++ s.sendQueue ++ queue)

variable {s s' : Socket} {queue : Str} {status : Option SendStatus}

theorem length_unsent (hend : s.sendBufferEnd ≤ s.sendBuffer.length) :
  s.unsent.length = s.sendBufferEnd - s.sendBufferPos
  := by
  rw [unsent, List.length_take, List.length_drop]
  omega

/-- The first of the unsent bytes are handed to the kernel. -/
theorem Accounts.sent (h : s.Accounts queue) {t : ℕ}
    (ht : t ≤ s.sendBufferEnd - s.sendBufferPos) :
  Accounts
    { s with
      sendBufferPos := s.sendBufferPos + t
      output := s.output.hand ((s.sendBuffer.drop s.sendBufferPos).take t) } queue
  := by
  obtain ⟨hpos, hend, haccounts⟩ := h
  have hlength := length_unsent hend
  refine ⟨show s.sendBufferPos + t ≤ s.sendBufferEnd by omega, hend, ?_⟩
  have hhanded := haccounts.hand t
  rw [List.append_assoc, List.take_append_of_le_length (by omega),
    List.drop_append_of_le_length (by omega)] at hhanded
  have htake : s.unsent.take t = (s.sendBuffer.drop s.sendBufferPos).take t := by
    rw [unsent, List.take_take, Nat.min_eq_left ht]
  have hdrop : s.unsent.drop t = (s.sendBuffer.drop (s.sendBufferPos + t)).take
      (s.sendBufferEnd - (s.sendBufferPos + t)) := by
    rw [unsent, List.drop_take, List.drop_drop, Nat.sub_sub]
  rw [htake, hdrop, ← List.append_assoc] at hhanded
  exact hhanded

/-- The loop sends from the front, and keeps what is left. -/
theorem Accounts.sendLoop {turns : List SendTurn} (h : s.Accounts queue)
    (hloop : s.sendLoop turns = some (status, s')) :
  s'.Accounts queue ∧ (status = some .ALL_DATA_SENT → s'.unsent = [])
  := by
  induction turns generalizing s with
  | nil =>
      unfold Socket.sendLoop at hloop
      split at hloop
      · rename_i hend
        cases hloop
        refine ⟨h, fun _ => ?_⟩
        simp [unsent, hend]
      · cases hloop
  | cons turn turns ih =>
      unfold Socket.sendLoop at hloop
      split at hloop
      · rename_i hend
        cases hloop
        refine ⟨h, fun _ => ?_⟩
        simp [unsent, hend]
      · cases turn with
        | timeout =>
            cases hloop
            exact ⟨h, nofun⟩
        | pollFailed =>
            cases hloop
            exact ⟨h, nofun⟩
        | sent count =>
            exact ih (h.sent (Nat.min_le_right _ _)) hloop
        | again => exact ih h hloop
        | closed =>
            cases hloop
            exact ⟨h, nofun⟩
        | failed =>
            cases hloop
            exact ⟨h, nofun⟩

/-- The queue is moved to the buffer when this has been sent. -/
theorem Accounts.fillBuffer (h : s.Accounts queue) (hsent : s.unsent = []) :
  s.fillBuffer.Accounts queue
  := by
  have hunsent : s.fillBuffer.unsent = s.sendQueue := by
    simp [unsent, Socket.fillBuffer]
  refine ⟨Nat.zero_le _, ?_, ?_⟩
  · rw [Socket.fillBuffer, List.length_append]
    exact Nat.le_add_right _ _
  · have haccounts := h.2.2
    rw [hsent, List.nil_append] at haccounts
    rw [hunsent]
    simpa [Socket.fillBuffer] using haccounts

theorem Accounts.sendToServer {turns turns' : List SendTurn} (h : s.Accounts queue)
    (hsend : s.sendToServer queue turns turns' = some (status, s')) :
  s'.Accounts []
  := by
  have hmoved : Accounts { s with sendQueue := s.sendQueue ++ queue } [] := by
    refine ⟨h.1, h.2.1, ?_⟩
    have haccounts := h.2.2
    rw [List.append_assoc] at haccounts
    rw [List.append_nil]
    exact haccounts
  obtain ⟨⟨first, s₁⟩, hfirst, hsend⟩ := Option.bind_eq_some_iff.mp hsend
  obtain ⟨haccounts, hsent⟩ := hmoved.sendLoop hfirst
  match first with
  | some .ALL_DATA_SENT => exact ((haccounts.fillBuffer (hsent rfl)).sendLoop hsend).1
  | some .PARTIAL_DATA_SENT =>
      cases hsend
      exact haccounts
  | some .CONNECTION_LOST =>
      cases hsend
      exact haccounts
  | none =>
      cases hsend
      exact haccounts

end Socket

/-- A client that sends: its queue and its socket. -/
structure Sender where
  writeQueue : Str := []
  socket : Socket := {}

namespace Sender

/-- What the client does: it appends a message to its queue, sends, or makes a new connection, for
which it may clear its queue. -/
inductive Event where
  | append (message : Str)
  | sendToServer (turns turns' : List SendTurn)
  | connect (cleared : Bool)

/-- Requests are appended, and the socket sends them. -/
def step (c : Sender) : Event → Option Sender
  | .append message =>
      some ⟨c.writeQueue ++ message, { c.socket with output := c.socket.output.queue message }⟩
  | .sendToServer turns turns' =>
      (c.socket.sendToServer c.writeQueue turns turns').map fun (_, socket) => ⟨[], socket⟩
  | .connect cleared =>
      let writeQueue := if cleared then [] else c.writeQueue
      some ⟨writeQueue, { c.socket.close with output := Ledger.queue writeQueue {} }⟩

/-- The bytes that remain with the client. -/
def kept (c : Sender) : Str := c.socket.unsent ++ c.socket.sendQueue ++ c.writeQueue

theorem accounts_step {c c' : Sender} {event : Event} (h : c.socket.Accounts c.writeQueue)
    (hstep : c.step event = some c') :
  c'.socket.Accounts c'.writeQueue
  := by
  cases event with
  | append message =>
      cases hstep
      refine ⟨h.1, h.2.1, ?_⟩
      have haccounts := h.2.2.queue message
      rw [List.append_assoc] at haccounts
      exact haccounts
  | sendToServer turns turns' =>
      obtain ⟨⟨status, socket⟩, hsend, heq⟩ := Option.map_eq_some_iff.mp hstep
      cases heq
      exact h.sendToServer hsend
  | connect cleared =>
      cases hstep
      exact ⟨le_rfl, Nat.zero_le _, rfl⟩

/-- In every run of a client, the bytes it keeps account for those it has queued for its
connection. -/
theorem accounts_of_reaches {c : Sender} (h : Runs.Reaches step (fun _ _ => True) {} c) :
  c.socket.output.Accounts c.kept
  := by
  have hinvariant : c.socket.Accounts c.writeQueue := by
    apply h.invariant (P := fun c : Sender => c.socket.Accounts c.writeQueue)
    · exact ⟨le_rfl, le_rfl, rfl⟩
    · intro c event c' hc _ hstep
      exact accounts_step hc hstep
  exact hinvariant.2.2

end Sender

end Cynara
