import Cynara.Library.Nested
import Cynara.Library.Outcome
import Cynara.Protocol.Messages
import Cynara.Types.ErrorCodes

/-!
# Checks of the service

The service answers a check from its storage or by a plugin.  A plugin may need an agent: then
the service makes a talker for the agent and keeps a context for the check, until the agent
replies or is disconnected.  A check that is cancelled keeps its context as well, but it is not
answered any more.

A link is the queue for the responses of one connection, and links are never used again.  What
is written to the link of a connection that has been closed is lost.  When a request throws an
exception, its connection is closed.

What the storage and the plugins return is given with the events.
-/

namespace Cynara

open Std PredefinedPolicyType ProtocolClient

/-- Connections, agents, and what plugins and agents tell each other. -/
abbrev LinkId := ℕ
abbrev AgentType := Str
abbrev PluginData := Str

/-- The types of the messages to agents, and of their replies. -/
def CYNARA_MSG_TYPE_ACTION : UInt8 := 0
def CYNARA_MSG_TYPE_CANCEL : UInt8 := 1

/-- `AgentRegisterResponse::Code`. -/
inductive RegisterCode where
  | DONE
  | REJECTED
  | ERROR
deriving DecidableEq

/-- The code that is sent to the agent. -/
def RegisterCode.toUInt16 : RegisterCode → UInt16
  | DONE => 0
  | REJECTED => 1
  | ERROR => 2

/-! ### Talkers -/

/-- Talkers are compared by their addresses. -/
structure AgentTalker where
  agentType : AgentType
  linkId : LinkId
  checkId : UInt16
  address : ℕ

/-- The agents that are registered, the talkers of each link by their numbers, the next number
for a talker and the next address. -/
structure AgentManager where
  agents : ExtTreeMap AgentType LinkId
  talkers : Nested LinkId UInt16 AgentTalker
  sequenceNumber : UInt16
  address : ℕ
  placed : ∀ (link : LinkId) (checkId : UInt16) (talker : AgentTalker),
    talkers.find link checkId = some talker →
      talker.linkId = link ∧ talker.checkId = checkId ∧ talker.address < address

namespace AgentManager

def empty : AgentManager := ⟨∅, ∅, 0, 0, by simp⟩

/-- There is at most one agent of each type. -/
def registerAgent (agentType : AgentType) (linkId : LinkId) (m : AgentManager) :
    RegisterCode × AgentManager :=
  if agentType ∈ m.agents then (.REJECTED, m)
  else (.DONE, { m with agents := m.agents.insert agentType linkId })

/-- The first type that is registered for a link. -/
def getAgentType (linkId : LinkId) (m : AgentManager) : Option AgentType :=
  (m.agents.toList.find? fun agent => agent.2 = linkId).map Prod.fst

/-- The agent type is forgotten, and the talkers of the link. -/
def forget (agentType : AgentType) (linkId : LinkId) (m : AgentManager) : AgentManager where
  agents := m.agents.erase agentType
  talkers := m.talkers.erase linkId
  sequenceNumber := m.sequenceNumber
  address := m.address
  placed := by
    intro link checkId talker h
    rw [Nested.find_erase] at h
    split at h
    · cases h
    · exact m.placed link checkId talker h

/-- Only one type is unregistered. -/
def unregisterAgent (linkId : LinkId) (m : AgentManager) : AgentManager :=
  match m.getAgentType linkId with
  | none => m
  | some agentType => m.forget agentType linkId

/-- The numbers start again after the last one. -/
def generateSequenceNumber (m : AgentManager) : UInt16 × AgentManager :=
  (m.sequenceNumber, { m with sequenceNumber := m.sequenceNumber + 1 })

/-- A new talker. -/
def insertTalker (agentType : AgentType) (linkId : LinkId) (checkId : UInt16) (m : AgentManager) :
    AgentTalker × AgentManager :=
  let talker : AgentTalker := ⟨agentType, linkId, checkId, m.address⟩
  (talker,
    { agents := m.agents
      talkers := m.talkers.put linkId checkId talker
      sequenceNumber := m.sequenceNumber
      address := m.address + 1
      placed := by
        intro link checkId talker h
        rw [Nested.find_put] at h
        split at h
        · rename_i hplace
          cases h
          exact ⟨hplace.1, hplace.2, Nat.lt_succ_self _⟩
        · obtain ⟨hlink, hid, haddress⟩ := m.placed link checkId talker h
          exact ⟨hlink, hid, haddress.trans (Nat.lt_succ_self _)⟩ })

/-- A number is used up even if the agent is not registered.  No talker is made if the number is
in use. -/
def createTalker (agentType : AgentType) (m : AgentManager) : Option AgentTalker × AgentManager :=
  let (checkId, m) := m.generateSequenceNumber
  match m.agents[agentType]? with
  | none => (none, m)
  | some linkId =>
      match m.talkers.find linkId checkId with
      | some _ => (none, m)
      | none =>
          let (talker, m) := m.insertTalker agentType linkId checkId
          (some talker, m)

/-- The question with this number to this agent. -/
def getTalker (linkId : LinkId) (requestId : UInt16) (m : AgentManager) : Option AgentTalker :=
  m.talkers.find linkId requestId

def removeTalker (agentTalker : AgentTalker) (m : AgentManager) : AgentManager where
  agents := m.agents
  talkers := m.talkers.remove agentTalker.linkId agentTalker.checkId
  sequenceNumber := m.sequenceNumber
  address := m.address
  placed := by
    intro link checkId talker h
    rw [Nested.find_remove] at h
    split at h
    · cases h
    · exact m.placed link checkId talker h

/-- The talkers of a link. -/
def talkersOf (linkId : LinkId) (m : AgentManager) : List AgentTalker := m.talkers.values linkId

end AgentManager

/-! ### Contexts -/

/-- A check that waits for an agent.  It is recorded how many responses had been sent when it
was created. -/
structure CheckContext where
  agentTalker : AgentTalker
  checkId : UInt16
  key : PolicyKey
  link : LinkId
  cancelled : Bool
  since : ℕ

/-- The client does not want the answer any more. -/
def CheckContext.cancel (context : CheckContext) : CheckContext :=
  { context with cancelled := true }

/-- The contexts of each link.  A context is found under its own link and id. -/
structure CheckRequestManager where
  checks : Nested LinkId UInt16 CheckContext
  placed : ∀ (link : LinkId) (checkId : UInt16) (context : CheckContext),
    checks.find link checkId = some context → context.link = link ∧ context.checkId = checkId

namespace CheckRequestManager

def empty : CheckRequestManager := ⟨∅, by simp⟩

def getContext (link : LinkId) (checkId : UInt16) (m : CheckRequestManager) :
    Option CheckContext :=
  m.checks.find link checkId

/-- The context of a talker. -/
def getContextOf (talker : AgentTalker) (m : CheckRequestManager) : Option CheckContext :=
  m.checks.search fun context => context.agentTalker.address = talker.address

/-- A context takes the place of the one under its link and id. -/
def put (context : CheckContext) (m : CheckRequestManager) : CheckRequestManager where
  checks := m.checks.put context.link context.checkId context
  placed := by
    intro link checkId context' h
    rw [Nested.find_put] at h
    split at h
    · rename_i hplace
      cases h
      exact hplace
    · exact m.placed link checkId context' h

/-- There is no result if there is a context already. -/
def createContext (key : PolicyKey) (link : LinkId) (checkId : UInt16) (agentTalker : AgentTalker)
    (since : ℕ) (m : CheckRequestManager) : Option CheckRequestManager :=
  match m.getContext link checkId with
  | some _ => none
  | none => some (m.put ⟨agentTalker, checkId, key, link, false, since⟩)

def removeRequest (context : CheckContext) (m : CheckRequestManager) : CheckRequestManager where
  checks := m.checks.remove context.link context.checkId
  placed := by
    intro link checkId context' h
    rw [Nested.find_remove] at h
    split at h
    · cases h
    · exact m.placed link checkId context' h

/-- A context is marked where it is kept. -/
def cancel (link : LinkId) (checkId : UInt16) (m : CheckRequestManager) : CheckRequestManager :=
  match m.getContext link checkId with
  | none => m
  | some context => m.put context.cancel

/-- The contexts of a link. -/
def contextsOf (link : LinkId) (m : CheckRequestManager) : List CheckContext :=
  m.checks.values link

variable {m : CheckRequestManager} {context : CheckContext} {link : LinkId} {checkId : UInt16}

theorem placed_getContext (h : m.getContext link checkId = some context) :
  context.link = link ∧ context.checkId = checkId
  := m.placed link checkId context h

theorem getContext_put :
  (m.put context).getContext link checkId =
    if context.link = link ∧ context.checkId = checkId then some context
    else m.getContext link checkId
  := Nested.find_put

theorem getContext_removeRequest :
  (m.removeRequest context).getContext link checkId =
    if context.link = link ∧ context.checkId = checkId then none
    else m.getContext link checkId
  := Nested.find_remove

/-- The context of a talker is kept under its link and id. -/
theorem getContext_of_getContextOf {talker : AgentTalker}
    (h : m.getContextOf talker = some context) :
  m.getContext context.link context.checkId = some context
    ∧ context.agentTalker.address = talker.address
  := by
  obtain ⟨haddress, link, checkId, hfind⟩ := Nested.search_eq_some h
  obtain ⟨rfl, rfl⟩ := m.placed link checkId context hfind
  exact ⟨hfind, by simpa using haddress⟩

end CheckRequestManager

/-! ### Requests -/

/-- `ServicePluginInterface::PluginStatus`. -/
inductive PluginStatus where
  | SUCCESS
  | ANSWER_READY
  | ANSWER_NOTREADY
  | ERROR
deriving DecidableEq

/-- What `check` of a plugin returns. -/
structure PluginCheck where
  status : PluginStatus
  result : PolicyResult
  requiredAgent : AgentType
  pluginData : PluginData

/-- What `update` of a plugin returns. -/
structure PluginUpdate where
  status : PluginStatus
  result : PolicyResult

/-- What a check depends on: whether the database was found corrupted, the result from the
storage, unless an exception is thrown, and what the plugin returns, if there is a plugin of the
service for this result. -/
structure Verdict where
  dbCorrupted : Bool
  stored : Option PolicyResult
  plugin : Option PluginCheck

/-- The exceptions that close a connection. -/
inductive LogicException where
  | storage
  | protocol (e : ProtocolException)
  | pluginError (key : PolicyKey)
deriving DecidableEq

/-- The managers of the service.  The responses to clients and to agents and the links that have
been closed are recorded. -/
structure CheckLogic where
  agentManager : AgentManager := .empty
  checkRequestManager : CheckRequestManager := .empty
  sent : List (LinkId × Response) := []
  agentSent : List (LinkId × ProtocolAgent.Response) := []
  closed : List LinkId := []

namespace CheckLogic

def getContext (link : LinkId) (checkId : UInt16) (σ : CheckLogic) : Option CheckContext :=
  σ.checkRequestManager.getContext link checkId

/-- `RequestContext::returnResponse` for a client. -/
def returnResponse (link : LinkId) (response : Response) (σ : CheckLogic) :
    Outcome LogicException CheckLogic :=
  if link ∈ σ.closed then .returned σ
  else
    match serialize response with
    | .error e => .threw (.protocol e) σ
    | .ok _ => .returned { σ with sent := σ.sent ++ [(link, response)] }

/-- `AgentTalker::sendMessage`. -/
def sendMessage (talker : AgentTalker) (type : UInt8) (data : Str) (σ : CheckLogic) :
    Outcome LogicException CheckLogic :=
  let response := .action type data talker.checkId
  match ProtocolAgent.serializeResponse response with
  | .error e => .threw (.protocol e) σ
  | .ok _ => .returned { σ with agentSent := σ.agentSent ++ [(talker.linkId, response)] }

/-- The result, unless the check waits for an agent. -/
def pluginCheck (link : LinkId) (key : PolicyKey) (checkId : UInt16)
    (plugin : Option PluginCheck) (σ : CheckLogic) :
    Option PolicyResult × Outcome LogicException CheckLogic :=
  match plugin with
  | none => (some { policyType := DENY }, .returned σ)
  | some plugin =>
      match plugin.status with
      | .ANSWER_READY => (some plugin.result, .returned σ)
      | .ANSWER_NOTREADY =>
          match σ.agentManager.createTalker plugin.requiredAgent with
          | (none, agentManager) =>
              (some { policyType := DENY }, .returned { σ with agentManager := agentManager })
          | (some agentTalker, agentManager) =>
              match σ.checkRequestManager.createContext key link checkId agentTalker
                  σ.sent.length with
              | none =>
                  let agentManager := agentManager.removeTalker agentTalker
                  (some { policyType := DENY }, .returned { σ with agentManager := agentManager })
              | some checkRequestManager =>
                  let σ :=
                    { σ with
                      agentManager := agentManager
                      checkRequestManager := checkRequestManager }
                  (none, σ.sendMessage agentTalker CYNARA_MSG_TYPE_ACTION plugin.pluginData)
      | _ => (some { policyType := DENY }, .returned σ)

/-- The result, unless the check waits for an agent or there is a context for its id. -/
def check (link : LinkId) (key : PolicyKey) (checkId : UInt16) (verdict : Verdict)
    (σ : CheckLogic) : Option PolicyResult × Outcome LogicException CheckLogic :=
  match σ.getContext link checkId with
  | some _ => (none, .returned σ)
  | none =>
      match if verdict.dbCorrupted then some { policyType := DENY } else verdict.stored with
      | none => (none, .threw .storage σ)
      | some result =>
          if result.policyType = ALLOW ∨ result.policyType = DENY then
            (some result, .returned σ)
          else σ.pluginCheck link key checkId verdict.plugin

/-- A check is answered now, or later when the agent has answered. -/
def executeCheck (link : LinkId) (key : PolicyKey) (checkId : UInt16) (verdict : Verdict)
    (σ : CheckLogic) : Outcome LogicException CheckLogic :=
  match σ.check link key checkId verdict with
  | (some result, checked) => checked.andThen (returnResponse link (.check result checkId))
  | (none, checked) => checked

/-- The value and the result for a check that does not ask an agent. -/
def simpleResult (result : PolicyResult) (plugin : Option PluginCheck) : Int32 × PolicyResult :=
  if result.policyType = ALLOW ∨ result.policyType = DENY then (CYNARA_API_SUCCESS, result)
  else
    match plugin with
    | none => (CYNARA_API_SUCCESS, { policyType := DENY })
    | some plugin =>
        match plugin.status with
        | .ANSWER_READY => (CYNARA_API_SUCCESS, plugin.result)
        | .ANSWER_NOTREADY => (CYNARA_API_ACCESS_NOT_RESOLVED, plugin.result)
        | _ => (CYNARA_API_SUCCESS, { policyType := DENY })

/-- A simple check does not wait for an agent. -/
def executeSimpleCheck (link : LinkId) (checkId : UInt16) (verdict : Verdict) (σ : CheckLogic) :
    Outcome LogicException CheckLogic :=
  match verdict.stored with
  | none => .threw .storage σ
  | some result =>
      let (retValue, result) := simpleResult result verdict.plugin
      σ.returnResponse link (.simpleCheck retValue result checkId)

/-- The message to the agent has no data, so that it does not throw. -/
def cancelContext (context : CheckContext) (σ : CheckLogic) : CheckLogic :=
  let checkRequestManager := σ.checkRequestManager.cancel context.link context.checkId
  let σ := { σ with checkRequestManager := checkRequestManager }
  (σ.sendMessage context.agentTalker CYNARA_MSG_TYPE_CANCEL []).state

/-- A check that waits is cancelled, at the agent too. -/
def executeCancel (link : LinkId) (checkId : UInt16) (σ : CheckLogic) :
    Outcome LogicException CheckLogic :=
  match σ.getContext link checkId with
  | none => .returned σ
  | some context =>
      if context.cancelled then .returned σ
      else (σ.cancelContext context).returnResponse link (.cancel checkId)

/-- The requests of clients; those for the monitor are not about checks. -/
def executeRequest (link : LinkId) (verdict : Verdict) (σ : CheckLogic) :
    Request → Outcome LogicException CheckLogic
  | .check key checkId => σ.executeCheck link key checkId verdict
  | .simpleCheck _ checkId => σ.executeSimpleCheck link checkId verdict
  | .cancel checkId => σ.executeCancel link checkId
  | _ => .returned σ

/-! ### Agents and connections -/

/-- The agent gets a response, whether it is accepted or not. -/
def executeAgentRegister (link : LinkId) (agentType : AgentType) (sequenceNumber : UInt16)
    (σ : CheckLogic) : CheckLogic :=
  let (code, agentManager) := σ.agentManager.registerAgent agentType link
  let response := .register code.toUInt16 sequenceNumber
  { σ with agentManager := agentManager, agentSent := σ.agentSent ++ [(link, response)] }

/-- What the plugin returns for the key of the check is given. -/
def update (context : CheckContext) (answer : PolicyKey → PluginUpdate) (σ : CheckLogic) :
    Outcome LogicException CheckLogic :=
  let answer := answer context.key
  match answer.status with
  | .SUCCESS => σ.returnResponse context.link (.check answer.result context.checkId)
  | .ERROR => σ.returnResponse context.link (.check { policyType := DENY } context.checkId)
  | _ => .threw (.pluginError context.key) σ

/-- What is done for a context before it is removed. -/
def answerContext (context : CheckContext) (type : UInt8)
    (answer : PolicyKey → PluginUpdate) (σ : CheckLogic) : Outcome LogicException CheckLogic :=
  if context.cancelled then .returned σ
  else if type = CYNARA_MSG_TYPE_CANCEL then .returned σ
  else if type = CYNARA_MSG_TYPE_ACTION then σ.update context answer
  else .returned σ

/-- The answer of an agent, which is dropped if nothing is known of its question. -/
def executeAgentAction (link : LinkId) (sequenceNumber : UInt16) (type : UInt8)
    (answer : PolicyKey → PluginUpdate) (σ : CheckLogic) : Outcome LogicException CheckLogic :=
  match σ.agentManager.getTalker link sequenceNumber with
  | none => .returned σ
  | some talker =>
      match σ.checkRequestManager.getContextOf talker with
      | none => .returned { σ with agentManager := σ.agentManager.removeTalker talker }
      | some context =>
          (σ.answerContext context type answer).andThen fun σ =>
            .returned
              { σ with
                agentManager := σ.agentManager.removeTalker talker
                checkRequestManager := σ.checkRequestManager.removeRequest context }

/-- The response has no metadata, so that it does not throw. -/
def handleAgentTalkerDisconnection (σ : CheckLogic) (talker : AgentTalker) : CheckLogic :=
  match σ.checkRequestManager.getContextOf talker with
  | none => σ
  | some context =>
      let σ :=
        if context.cancelled then σ
        else
          (σ.returnResponse context.link (.check { policyType := DENY } context.checkId)).state
      { σ with checkRequestManager := σ.checkRequestManager.removeRequest context }

/-- The agent is told, unless the check had been cancelled before. -/
def handleClientDisconnection (σ : CheckLogic) (context : CheckContext) : CheckLogic :=
  if context.cancelled then σ else σ.cancelContext context

/-- `cleanupAgent` and `cancelRequests`. -/
def contextClosed (link : LinkId) (σ : CheckLogic) : CheckLogic :=
  let σ := (σ.agentManager.talkersOf link).foldl handleAgentTalkerDisconnection σ
  let σ := { σ with agentManager := σ.agentManager.unregisterAgent link }
  (σ.checkRequestManager.contextsOf link).foldl handleClientDisconnection σ

/-- The queue of the connection is dropped after `contextClosed`, and what is written to it there
is lost. -/
def closeSocket (link : LinkId) (σ : CheckLogic) : CheckLogic :=
  contextClosed link { σ with closed := link :: σ.closed }

/-! ### Runs of the service -/

/-- What may happen to the service. -/
inductive Event where
  | request (link : LinkId) (request : Request) (verdict : Verdict)
  | agentRegister (link : LinkId) (agentType : AgentType) (sequenceNumber : UInt16)
  | agentAction (link : LinkId) (sequenceNumber : UInt16) (type : UInt8)
      (answer : PolicyKey → PluginUpdate)
  | close (link : LinkId)

/-- The connection an event comes from. -/
def Event.link : Event → LinkId
  | request link _ _ => link
  | agentRegister link _ _ => link
  | agentAction link _ _ _ => link
  | close link => link

def execute (σ : CheckLogic) : Event → Outcome LogicException CheckLogic
  | .request link request verdict => σ.executeRequest link verdict request
  | .agentRegister link agentType sequenceNumber =>
      .returned (σ.executeAgentRegister link agentType sequenceNumber)
  | .agentAction link sequenceNumber type answer =>
      σ.executeAgentAction link sequenceNumber type answer
  | .close link => .returned (σ.closeSocket link)

/-- `SocketManager::handleRead`: an exception closes the connection. -/
def handle (link : LinkId) (executed : Outcome LogicException CheckLogic) : CheckLogic :=
  match executed.thrown with
  | none => executed.state
  | some _ => executed.state.closeSocket link

/-- The state after an event, if its connection has not been closed. -/
def step (σ : CheckLogic) (event : Event) : Option CheckLogic :=
  if event.link ∈ σ.closed then none else some (handle event.link (σ.execute event))

end CheckLogic

end Cynara
