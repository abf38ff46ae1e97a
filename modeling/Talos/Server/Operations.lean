import Talos.Interactive.Program
import Talos.Rust.Json
import Talos.Server.Directory

/-!
# What a handler of the server does

A request and a socket are handled by programs whose operations are the accesses to
the shared maps under their locks, the requests to the API, the messages to agents
and the waiting for their answers. Between two operations other handlers run, so an
answer is what the map holds or the API says at that moment.

Certificates and keys of a session, the counters of the log and the metadata of audit
events are left out.
-/

namespace Talos.Server

open Interactive Rust

abbrev Instant := ℕ

/-! ## Sessions -/

/-- The five maps of sessions. -/
inductive SessionKind where
  | desktop | shell | fileTransfer | registry | chat
deriving DecidableEq

inductive SessionTransportMode where
  | remoteDesktop | headlessRemoteDesktop | fileTransfer | remoteRegistry | shell | chat
deriving DecidableEq

structure ReflexAddress where
  ip : String
  port : ℕ

structure RemoteDesktopCapabilities where
  codecs : List String
  encoding : String
  transports : List String
  platform : AgentPlatform
  features : AgentFeatureCapabilities
  displayProfiles : List String
  selectedDisplayProfile : Option String

/-- A record of one of the maps. What a kind does not have is empty: only a chat has a
parent, and the host name and the system of the agent are kept for a desktop. -/
structure Session where
  token : String
  agentId : String
  viewerUserId : Option String
  viewerUserEmail : Option String
  parentDesktopSessionId : Option String
  mode : SessionTransportMode
  hideCursor : Bool
  capabilities : RemoteDesktopCapabilities
  agentReflex : Option ReflexAddress
  viewerReflex : Option ReflexAddress
  agentHost : Option String
  agentLocalAddrs : List LocalAddr
  relayUrl : Option String
  agentHostname : Option String
  agentOs : Option String
  agentVersion : Option String
  createdAt : Instant
  attachedAt : Option Instant
  viewerConnectedAt : Option Instant
  viewerLastHeartbeatAt : Option Instant

/-- What a handler writes into a record that it found. -/
inductive Touch where
  | attached
  | connected
  | heartbeat
  | reflex (viewerReflex : ReflexAddress)

def Touch.apply (now : Instant) : Touch → Session → Session
  | .attached, session => { session with attachedAt := some now }
  | .connected, session =>
    { session with
      attachedAt := some now
      viewerConnectedAt := session.viewerConnectedAt.or (some now)
      viewerLastHeartbeatAt := some now }
  | .heartbeat, session =>
    { session with attachedAt := some now, viewerLastHeartbeatAt := some now }
  | .reflex viewerReflex, session =>
    { session with viewerReflex := some viewerReflex, attachedAt := some now }

structure ViewerIdentity where
  userId : String
  userEmail : Option String

def Session.viewerIdentity (session : Session) : Option ViewerIdentity :=
  session.viewerUserId.map fun userId => ⟨userId, session.viewerUserEmail⟩

/-! ## Messages -/

inductive ShellRunAs where
  | system | user
deriving DecidableEq

inductive UpgradeStage where
  | preflight | stageIso | start

inductive Message where
  | fetchDetails (requestId : String)
  | requestFullSnapshot (requestId : String)
  | shellCommand (requestId command : String)
  | patchJobsAvailable (reason : String) (requestedBy : Option String)
  | featureUpgradeJobsAvailable (stage : UpgradeStage) (reason : String)
      (requestedBy : Option String)
  | remediationJobsAvailable (reason : String)
  | rdpSessionsRequest (requestId : String)
  | sessionCapabilitiesRequest (requestId : String)
  | tunnelPrepare (sessionId : String) (relayUrl : Option String) (mode : SessionTransportMode)
      (selectedDisplayProfile : Option String) (hideCursor : Bool)
      (viewerSessionToken parentDesktopSessionId : Option String)
  | shellStart (sessionId token : String) (runAs : ShellRunAs) (targetSessionId : Option ℕ)
      (relayUrl : Option String)
  | relayPrepare (sessionId relayUrl : String) (mode : SessionTransportMode)
      (selectedDisplayProfile : Option String) (hideCursor : Bool)
  | punchStart (sessionId : String) (peerReflex : ReflexAddress)
  | sessionEnd (sessionId kind : String)
  | patchJobs (requestId : String) (jobs : List Value)
  | patchActionPlan (requestId : Option String) (plan : Value)
  | featureUpgradeJobs (stage : UpgradeStage) (requestId : String) (jobs : List Value)
  | remediationJobs (requestId : String) (jobs : List Value)
  | linuxShellCredentialStored (credentialId storedAt : String)

structure ShellOffer where
  sessionId : String
  streamPort : ℕ
  host : String
  localAddrs : List LocalAddr
  reflex : Option ReflexAddress

inductive ShellOfferOutcome where
  | offered (offer : ShellOffer)
  | refused (message : String)
  | aborted
  | timedOut

structure ShellOutput where
  output : String
  exitCode : Option Int

inductive QuicReflexResult where
  | success (reflex : ReflexAddress)
  | displayUnavailable (reason : String) (message : Option String)

/-! ## Requests to the API -/

structure EnrollmentResponse where
  enrolled : Bool
  organizationId : String

structure DeviceScope where
  organizationId : String
  customerId : Option String
  siteId : Option String

structure UserContext where
  userId : String
  organizationId : String
  role : String
  email : Option String

structure PatchActionResult where
  operationId : String
  action : String
  status : String
  updateKeys : List String
  evidence : Value

structure JobUpdate where
  id : String
  status : String
  stepIndex : Option Int
  evidence : Option Value

structure ProgressPayload where
  agentId : String
  organizationId : String
  status : String
  phase : String
  rest : Value

structure LinuxShellCredential where
  agentId : String
  username : String
  password : String
  credentialId : String
  version : Int
  generatedAt : String

structure CredentialStoreResponse where
  accepted : Bool
  credentialId : String
  storedAt : String

structure ValidationResponse where
  allowed : Bool
  reason : Option String
  matchedPolicyId : Option String

structure CommandLog where
  organizationId : String
  userId : String
  agentId : String
  command : String
  wasAllowed : Bool
  denialReason : Option String
  exitCode : Option Int

structure AuditEvent where
  organizationId : String
  agentId : String
  viewer : Option ViewerIdentity
  actionType : String
  result : String
  sessionId : Option String

inductive ApiCall where
  | enroll (token agentId hostname os ip : String) (version : Option String)
  | upsertDevice (agentId organizationId hostname os ip : String) (version : Option String)
  | upsertInventory (agentId organizationId hostname os ip : String) (version : Option String)
      (inventory : Value)
  | connectionStatus (agentId : String) (organizationId : Option String) (status : String)
      (version : Option String)
  | ingestSnapshot (organizationId agentId collectedAt : String) (snapshot : Value)
      (snapshotRequestId : Option String)
  | projectSnapshot (organizationId agentId collectedAt : String) (snapshot : Value)
      (snapshotRequestId : Option String)
  | ingestEvents (organizationId agentId : String) (events : List Value)
  | claimPatchJobs (agentId : String) (limit : ℕ)
  | patchCheckin (agentId : String) (observedAt : Option String) (patchState : Value)
  | patchActionResult (agentId : String) (result : PatchActionResult)
  | patchJobStatus (agentId : String) (update : JobUpdate)
  | patchProgress (progress : ProgressPayload)
  | macosAccountStatus (agentId : String) (status : Value)
  | claimUpgradeJobs (stage : UpgradeStage) (agentId : String) (limit : ℕ)
  | upgradeProgress (stage : UpgradeStage) (progress : ProgressPayload)
  | claimRemediationJobs (agentId : String) (limit : ℕ)
  | remediationStatus (agentId : String) (update : JobUpdate)
  | storeCredential (credential : LinuxShellCredential)
  | userContext (token : String)
  | ensureDeviceInOrganization (agentId organizationId : String)
  | deviceScope (agentId : String)
  | registerSnapshotRequest (agentId requestId status : String)
  | updateDeviceDetails (agentId : String) (details : Value)
  | deviceSummary (agentId : String)
  | validatePolicy (command organizationId : String) (customerId : Option String) (role : String)
  | logCommand (log : CommandLog)
  | auditEvent (event : AuditEvent)
  | revealCredential (agentId userId : String)

/-- What a successful response is parsed to. -/
@[reducible] def ApiCall.Response : ApiCall → Type
  | .enroll .. => EnrollmentResponse
  | .ingestSnapshot .. | .projectSnapshot .. | .ingestEvents .. => Bool
  | .claimPatchJobs .. | .claimUpgradeJobs .. | .claimRemediationJobs .. => List Value
  | .patchCheckin .. => Value
  | .patchActionResult .. | .patchJobStatus .. | .patchProgress .. | .macosAccountStatus ..
  | .upgradeProgress .. => Bool
  | .remediationStatus .. => Bool × String
  | .storeCredential .. => CredentialStoreResponse
  | .userContext .. => UserContext
  | .deviceScope .. => DeviceScope
  | .updateDeviceDetails .. | .deviceSummary .. | .revealCredential .. => Value
  | .validatePolicy .. => ValidationResponse
  | .upsertDevice .. | .upsertInventory .. | .connectionStatus .. | .ensureDeviceInOrganization ..
  | .registerSnapshotRequest .. | .logCommand .. | .auditEvent .. => Unit

/-! ## Operations -/

inductive Op where
  | api (call : ApiCall)
  /-- `Uuid::new_v4()`. -/
  | uuid
  | now
  | getAgent (agentId : String)
  | connectedAgents
  | registerAgent (agentId : String) (registration : AgentRegistration)
  | disconnectUnlessReplaced (agentId : String) (sender : ℕ)
  | getSession (kind : SessionKind) (sessionId : String)
  | listSessions (kind : SessionKind)
  | insertSession (kind : SessionKind) (sessionId : String) (session : Session)
  | touchSession (kind : SessionKind) (sessionId : String) (touch : Touch)
  /-- Looks the record up again and removes it under the lock. -/
  | removeSession (kind : SessionKind) (sessionId : String)
  | removeSessions (kind : SessionKind) (sessionIds : List String)
  /-- Removes the record unless it is of another agent. -/
  | removeSessionOf (kind : SessionKind) (sessionId agentId : String)
  /-- Records the request unless the last one was less than 30 seconds ago. -/
  | claimSnapshotSlot (agentId : String)
  /-- Sends to the connection of an agent. -/
  | send (agentId : String) (sender : ℕ) (message : Message)
  /-- Sends on the socket that is being handled. -/
  | answer (message : Message)
  /-- Hands the answer of an agent to the request that waits for it. -/
  | deliver
  | awaitDetails (requestId : String)
  | awaitShellOutput (requestId : String)
  | awaitRdpSessions (requestId : String)
  | awaitCapabilities (requestId : String)
  | awaitQuicReflex (sessionId : String)
  | awaitShellOffer (sessionId : String)

/-- The answer to an operation; a wait that times out is `none`. -/
@[reducible] def Op.Answer : Op → Type
  | .api call => Except AppError call.Response
  | .uuid => String
  | .now => Instant
  | .getAgent _ => Option AgentConnection
  | .connectedAgents => List String
  | .registerAgent .. => Unit
  | .disconnectUnlessReplaced .. => Bool
  | .getSession .. => Option Session
  | .listSessions _ => List (String × Session)
  | .insertSession .. | .touchSession .. | .removeSessions .. | .deliver => Unit
  | .removeSession .. => Bool
  | .removeSessionOf .. => Option Bool
  | .claimSnapshotSlot _ => Bool
  | .send .. | .answer _ => Bool
  | .awaitDetails _ => Option Value
  | .awaitShellOutput _ => Option ShellOutput
  | .awaitRdpSessions _ => Option (List Value)
  | .awaitCapabilities _ => Option RemoteDesktopCapabilities
  | .awaitQuicReflex _ => Option QuicReflexResult
  | .awaitShellOffer _ => ShellOfferOutcome

abbrev Handler := Program Op.Answer AppError

abbrev History := List (Event Op.Answer)

open Program

def ask (op : Op) : Handler op.Answer := perform op

/-- `api_request(..).await?`. -/
def request (call : ApiCall) : Handler call.Response := do
  let outcome ← ask (.api call)
  ofOutcome outcome

def orFail {α : Type} (error : AppError) : Option α → Handler α
  | some value => pure value
  | none => fail error

def ensure (error : AppError) (condition : Bool) : Handler Unit :=
  if condition then pure () else fail error

/-- `agent.sender.send(..).await`, where a closed channel is an error. -/
def sendTo (agentId : String) (agent : AgentConnection) (message : Message) : Handler Unit := do
  let sent ← ask (.send agentId agent.sender message)
  ensure (.badRequest "agent unavailable") sent

def fetchDeviceScope (agentId : String) : Handler DeviceScope := do
  let response ← request (.deviceScope agentId)
  let organizationId := trim response.organizationId
  ensure (.forbidden "device is not assigned to an organization") (organizationId ≠ "")
  pure { response with organizationId := organizationId }

def logAuditEvent (event : AuditEvent) : Handler Unit := request (.auditEvent event)

/-! ## Rules

The answer types reduce, so they are no part of the pattern that `simp` looks up. -/

section Safe

variable {α : Type} {Q : History → Op → Prop} {h : History}

@[simp] theorem safe_ask {op : Op}
    {R : History → Except AppError (no_index op.Answer) → Prop} :
    @Safe Op Op.Answer AppError (no_index op.Answer) Q h (ask op) R ↔
      Q h op ∧ ∀ answer, R (h ++ [⟨op, answer⟩]) (.ok answer) := Iff.rfl

@[simp] theorem safe_request {call : ApiCall}
    {R : History → Except AppError (no_index call.Response) → Prop} :
    @Safe Op Op.Answer AppError (no_index call.Response) Q h (request call) R ↔ Q h (.api call) ∧
      (∀ response, R (h ++ [⟨.api call, .ok response⟩]) (.ok response)) ∧
      ∀ e, R (h ++ [⟨.api call, .error e⟩]) (.error e) := by
  constructor
  · rintro ⟨hop, hnext⟩
    exact ⟨hop, fun response => hnext (.ok response), fun e => hnext (.error e)⟩
  · rintro ⟨hop, hok, herror⟩
    refine ⟨hop, fun outcome => ?_⟩
    cases outcome with
    | ok response => exact hok response
    | error e => exact herror e

@[simp] theorem safe_ensure {error : AppError} {condition : Bool}
    {R : History → Except AppError Unit → Prop} :
    Safe Q h (ensure error condition) R ↔
      (condition = true → R h (.ok ())) ∧ (condition = false → R h (.error error)) := by
  cases condition <;> simp [ensure]

end Safe

section Confined

variable {α : Type} {P : Op → Prop}

@[simp] theorem confined_ask {op : Op} {S : Except AppError (no_index op.Answer) → Prop} :
    @Confined Op Op.Answer AppError (no_index op.Answer) P (ask op) S ↔
      P op ∧ ∀ answer, S (.ok answer) := Iff.rfl

@[simp] theorem confined_request {call : ApiCall}
    {S : Except AppError (no_index call.Response) → Prop} :
    @Confined Op Op.Answer AppError (no_index call.Response) P (request call) S ↔
      P (.api call) ∧ (∀ response, S (.ok response)) ∧ ∀ e, S (.error e) := by
  constructor
  · rintro ⟨hop, hnext⟩
    exact ⟨hop, fun response => hnext (.ok response), fun e => hnext (.error e)⟩
  · rintro ⟨hop, hok, herror⟩
    refine ⟨hop, fun outcome => ?_⟩
    cases outcome with
    | ok response => exact hok response
    | error e => exact herror e

@[simp] theorem confined_ensure {error : AppError} {condition : Bool}
    {S : Except AppError Unit → Prop} :
    Confined P (ensure error condition) S ↔
      (condition = true → S (.ok ())) ∧ (condition = false → S (.error error)) := by
  cases condition <;> simp [ensure]

@[simp] theorem confined_orFail {error : AppError} {value : Option α}
    {S : Except AppError α → Prop} :
    Confined P (orFail error value) S ↔
      (∀ a, value = some a → S (.ok a)) ∧ (value = none → S (.error error)) := by
  cases value <;> simp [orFail]

end Confined

end Talos.Server
