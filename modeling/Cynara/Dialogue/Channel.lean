import Cynara.Client.AsyncConnection
import Cynara.Library.Exchange
import Cynara.Service.CheckRuns

/-!
# The dialogue of a client and the service

The asynchronous client and the service are put together.  The service takes the requests of the
client one after the other, as far as they have been sent, and what it responds is read by the
client in the same order.  In between the service may do anything else: it serves other clients,
agents register, reply and disconnect, and connections are closed.

When the client makes a new connection it gets a new link, and what was under way over the old one
is lost.  If the attempt throws an exception, the responses that have been read are still there.

Checks are identified by their numbers.  It is recorded which checks have got responses over the
connection.
-/

namespace Cynara

open Std ProtocolClient ClientAsync

/-- The ids and the numbers of the checks whose requests belong to the connection. -/
def ClientAsync.Logic.asking (σ : Logic) : List (UInt16 × ℕ) :=
  ((σ.connection.map Connection.checks).getD []).map fun check => (check.1, check.2.number)

/-- The responses that have been sent to a link. -/
def responsesTo (link : LinkId) (sent : List (LinkId × Response)) : List Response :=
  (sent.filter fun response => response.1 = link).map Prod.snd

/-- The connection of the client: its link, how many requests the service has taken from it, and
the responses that the client has not processed.  It is recorded for which checks there are contexts
and which checks have got responses. -/
structure Channel where
  link : Option LinkId := none
  taken : ℕ := 0
  inbox : List Response := []
  holders : UInt16 → ℕ := fun _ => 0
  answered : List ℕ := []

namespace Channel

/-- What happens when the client connects, or fails to. -/
def apply (fresh : LinkId) (k : Channel) : ConnectionOp → Channel
  | .onDisconnected => k
  | .connect .succeeded => { link := some fresh }
  | .connect .inProgress => { link := some fresh }
  | .connect .failed => { k with link := none, inbox := [] }
  | .connect .thrown => { k with link := none }
  | .completionFailed => { k with link := none, inbox := [] }

/-- The client reads the next response. -/
def read (k : Channel) : ClientAsync.Event → Option Channel
  | .getResponse response _ _ _ =>
      match k.inbox with
      | [] => none
      | head :: inbox => if head = response then some { k with inbox := inbox } else none
  | _ => some k

/-- How many of the requests that have been taken ask for checks. -/
def count (σ : Logic) (k : Channel) : ℕ :=
  (σ.socketClient.requests.take k.taken).countP isCheckRequest

/-- The checks whose requests have been taken. -/
def asked (σ : Logic) (k : Channel) : List (UInt16 × ℕ) := σ.asking.take (k.count σ)

/-- The number of the check whose request is taken next. -/
def asker (σ : Logic) (k : Channel) : ℕ := (σ.asking.getD (k.count σ) (0, 0)).2

/-- The responses that the service has sent since it was in another state. -/
def deliver (number : Response → ℕ) (service service' : CheckLogic) (k : Channel) : Channel :=
  match k.link with
  | none => k
  | some link =>
      let responses := responsesTo link (service'.sent.drop service.sent.length)
      { k with
        inbox := k.inbox ++ responses
        answered := k.answered ++ responses.map number }

/-- If a context is made for the request, it is for the check with the given number. -/
def hold (number : ℕ) (request : Request) (link : LinkId) (service : CheckLogic) (k : Channel) :
    UInt16 → ℕ :=
  match request with
  | .check _ id =>
      if (service.getContext link id).isNone then Function.update k.holders id number
      else k.holders
  | _ => k.holders

/-- A request of the check with the given number has been taken. -/
def take (number : ℕ) (request : Request) (link : LinkId) (service service' : CheckLogic)
    (k : Channel) : Channel :=
  let k' := { k with taken := k.taken + 1, holders := k.hold number request link service }
  k'.deliver
    (fun response =>
      if isCheckRequest request then number else k.holders response.sequenceNumber)
    service service'

/-- Whether an event of the service is a request over this connection. -/
def concerns (k : Channel) : CheckLogic.Event → Bool
  | .close _ => false
  | event => k.link = some event.link

end Channel

/-- A link that has not been used. -/
def CheckLogic.isFresh (link : LinkId) (service : CheckLogic) : Bool :=
  link ∉ service.closed ∧ (service.checkRequestManager.contextsOf link).isEmpty

/-- A client, the service and the connection between them. -/
structure Dialogue where
  client : Client
  service : CheckLogic := {}
  channel : Channel := {}

namespace Dialogue

/-- What happens next.  If the client makes a connection, it gets the link. -/
inductive Input where
  | client (event : ClientAsync.Event) (fresh : LinkId)
  | request (verdict : Verdict)
  | service (event : CheckLogic.Event)

/-- The client makes a step; a connection it makes gets a link that is not in use. -/
def stepClient (event : ClientAsync.Event) (fresh : LinkId) (d : Dialogue) : Option Dialogue :=
  if d.service.isFresh fresh then
    match d.channel.read event, d.client.step event with
    | some channel, some client =>
        let channel := (d.client.ops event).foldl (Channel.apply fresh) channel
        some { d with client := client, channel := channel }
    | _, _ => none
  else none

/-- The service takes the next request of the client. -/
def stepRequest (verdict : Verdict) (d : Dialogue) : Option Dialogue :=
  match d.channel.link, d.client.logic.socketClient.wire[d.channel.taken]? with
  | some link, some request =>
      (d.service.step (.request link request verdict)).map fun service =>
        let number := d.channel.asker d.client.logic
        { d with
          service := service
          channel := d.channel.take number request link d.service service }
  | _, _ => none

/-- The service does something else. -/
def stepService (event : CheckLogic.Event) (d : Dialogue) : Option Dialogue :=
  if d.channel.concerns event then none
  else
    (d.service.step event).map fun service =>
      { d with
        service := service
        channel := d.channel.deliver (fun response => d.channel.holders response.sequenceNumber)
          d.service service }

/-- The state after an input, if it can happen. -/
def step (d : Dialogue) : Input → Option Dialogue
  | .client event fresh => d.stepClient event fresh
  | .request verdict => d.stepRequest verdict
  | .service event => d.stepService event

/-- Nothing has been sent yet. -/
def start (monitoringEnabled : Bool) : Dialogue where
  client := Client.start monitoringEnabled

end Dialogue

end Cynara
