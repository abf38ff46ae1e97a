import Talos.Server.Operations

/-!
# The socket of an agent

`handle_agent_message` for every type of message. The socket keeps one agent id, which
messages set and others use: an agent introduces itself with `agent_hello` or
`inventory_update`, and the server asks the API whether the registration token of the
socket may enroll it. A message whose text does not parse, or whose handling fails,
ends the socket.
-/

namespace Talos.Server

open Interactive Program Rust

structure AgentHello where
  agentId : String
  hostname : String
  os : String
  ip : String
  localAddrs : Option (List LocalAddr)
  version : Option String
  isAdmin : Bool
  platform : AgentPlatform
  features : AgentFeatureCapabilities

structure InventoryUpdate where
  agentId : String
  hostname : String
  os : String
  ip : String
  version : Option String
  inventory : Value

structure FullSnapshotUpdate where
  agentId : String
  collectedAt : String
  snapshot : Value
  snapshotRequestId : Option String

/-- A message of an agent, parsed. -/
inductive AgentMessage where
  | unparsable (reason : String)
  | agentHello (payload : AgentHello)
  | inventoryUpdate (payload : InventoryUpdate)
  | fullSnapshot (payload : FullSnapshotUpdate)
  | telemetryEvents (agentId : String) (events : List Value)
  | patchJobsPoll (requestId : String) (limit : Option ℕ)
  | patchStateCheckin (requestId observedAt : Option String) (patchState : Value)
  | patchActionResult (result : PatchActionResult)
  | patchJobUpdate (update : JobUpdate)
  | patchJobProgress (progress : ProgressPayload)
  | macosUpdateAccountStatus (agentId : String) (status : Value)
  | featureUpgradeJobsPoll (stage : UpgradeStage) (requestId : String) (limit : Option ℕ)
  | featureUpgradeProgress (stage : UpgradeStage) (progress : ProgressPayload)
  | remediationJobsPoll (requestId : String) (limit : Option ℕ)
  | remediationJobUpdate (update : JobUpdate)
  | linuxShellCredential (credential : LinuxShellCredential)
  /-- Device details, shell offers, errors and outputs, remote sessions, capabilities and
  addresses: the answers to what the server asked. -/
  | response
  | unknown (messageType : String)

structure Socket where
  registrationToken : String
  sender : ℕ
  /-- `telemetry_producer_url` is configured. -/
  hasProducer : Bool

def enrollAgent (registrationToken agentId hostname os ip : String) (version : Option String) :
    Handler EnrollmentResponse := do
  let response ← request (.enroll registrationToken agentId hostname os ip version)
  ensure (.forbidden "agent enrollment was rejected") response.enrolled
  ensure (.forbidden "agent enrollment did not return organization scope")
    (trim response.organizationId ≠ "")
  pure response

def AgentHello.registration (payload : AgentHello) (sender : ℕ) : AgentRegistration :=
  let os := normalizeTextValue (some payload.os)
  let platform := normalizeAgentPlatform payload.platform os
  { sender := sender
    host := normalizeHost payload.ip
    localAddrs := payload.localAddrs
    isAdmin := some payload.isAdmin
    hostname := normalizeTextValue (some payload.hostname)
    os := os
    version := normalizeTextValue payload.version
    platform := platform
    features :=
      if payload.features = defaultFeatures && platform ≠ .windows then .forPlatform platform
      else payload.features }

variable (socket : Socket)

def handleAgentHello (payload : AgentHello) : Handler Unit := do
  let enrollment ← enrollAgent socket.registrationToken payload.agentId payload.hostname payload.os
    payload.ip payload.version
  request (.upsertDevice payload.agentId enrollment.organizationId payload.hostname payload.os
    payload.ip payload.version)
  -- a report that fails is only logged
  let _ ← ask (.api (.connectionStatus payload.agentId (some enrollment.organizationId) "connected"
    (normalizeTextValue payload.version)))
  ask (.registerAgent payload.agentId (payload.registration socket.sender))

def InventoryUpdate.registration (payload : InventoryUpdate) (sender : ℕ) : AgentRegistration :=
  let os := normalizeTextValue (some payload.os)
  let platform := normalizeAgentPlatform .unknown os
  { sender := sender
    host := normalizeHost payload.ip
    localAddrs := none
    isAdmin := none
    hostname := normalizeTextValue (some payload.hostname)
    os := os
    version := normalizeTextValue payload.version
    platform := platform
    features := .forPlatform platform }

def handleInventoryUpdate (payload : InventoryUpdate) : Handler Unit := do
  let enrollment ← enrollAgent socket.registrationToken payload.agentId payload.hostname payload.os
    payload.ip payload.version
  request (.upsertInventory payload.agentId enrollment.organizationId payload.hostname payload.os
    payload.ip payload.version payload.inventory)
  let _ ← ask (.api (.connectionStatus payload.agentId (some enrollment.organizationId) "connected"
    (normalizeTextValue payload.version)))
  ask (.registerAgent payload.agentId (payload.registration socket.sender))

def upsertFullSnapshot (payload : FullSnapshotUpdate) : Handler Unit := do
  let deviceScope ← fetchDeviceScope payload.agentId
  let accepted ← request (.ingestSnapshot deviceScope.organizationId payload.agentId
    payload.collectedAt payload.snapshot payload.snapshotRequestId)
  ensure (.internal "telemetry api did not accept snapshot") accepted
  if socket.hasProducer then do
    let projected ← request (.projectSnapshot deviceScope.organizationId payload.agentId
      payload.collectedAt payload.snapshot payload.snapshotRequestId)
    ensure (.internal "telemetry api did not project snapshot") projected
  else pure ()

def upsertTelemetryEvents (agentId : String) (events : List Value) : Handler Unit := do
  let deviceScope ← fetchDeviceScope agentId
  let accepted ← request (.ingestEvents deviceScope.organizationId agentId events)
  ensure (.internal "telemetry api did not accept events") accepted

/-- A message from a socket without an agent id is only logged. -/
def withAgent (agentId : Option String) (act : String → Handler Unit) : Handler Unit :=
  match agentId with
  | none => pure ()
  | some agentId => act agentId

def sendAnswer (message : Message) : Handler Unit := do
  let sent ← ask (.answer message)
  ensure (.internal "send to the agent") sent

/-- The jobs that were claimed, none when the claim fails, go back on the socket. -/
def answerPoll (message : List Value → Message) (claimed : Except AppError (List Value)) :
    Handler Unit :=
  match claimed with
  | .ok jobs => sendAnswer (message jobs)
  | .error _ => sendAnswer (message [])

/-- `limit.unwrap_or(1).clamp(1, most)`. -/
def clampLimit (limit : Option ℕ) (most : ℕ) : ℕ := max 1 (min most (limit.getD 1))

/-- The plan of an agent whose check-in could not be evaluated; its time is left out. -/
def emptyPlan (agentId : String) : Value :=
  .object [("schemaVersion", .number (.posInt 1)), ("agentId", .string agentId),
    ("managedMode", .bool false), ("nativeWindowsUpdateControl", .bool false),
    ("actions", .array [])]

def answerCheckin (agentId : String) (requestId : Option String) (plan : Except AppError Value) :
    Handler Unit :=
  match plan with
  | .ok plan => sendAnswer (.patchActionPlan requestId plan)
  | .error _ => sendAnswer (.patchActionPlan requestId (emptyPlan agentId))

/-- The report of an agent about another one is rejected; one that fails is only
logged. -/
def reportProgress (connectedAgentId agentId : String) (call : ApiCall) : Handler Unit :=
  if agentId ≠ connectedAgentId then pure ()
  else do
    let _ ← ask (.api call)
    pure ()

def report (call : ApiCall) : Handler Unit := do
  let _ ← ask (.api call)
  pure ()

def storeLinuxShellCredential (credential : LinuxShellCredential) : Handler Unit := do
  let stored ← request (.storeCredential credential)
  ensure (.internal "api did not accept Linux shell credential") stored.accepted
  sendAnswer (.linuxShellCredentialStored stored.credentialId stored.storedAt)

/-- Handles one message; the value is the agent id of the socket afterwards. -/
def handleAgentMessage (agentId : Option String) : AgentMessage → Handler (Option String)
  | .unparsable reason => fail (.internal reason)
  | .agentHello payload => do
      handleAgentHello socket payload
      pure (some payload.agentId)
  | .inventoryUpdate payload => do
      handleInventoryUpdate socket payload
      pure (some payload.agentId)
  | .fullSnapshot payload => do
      upsertFullSnapshot socket payload
      pure (some payload.agentId)
  | .telemetryEvents sender events => do
      upsertTelemetryEvents sender events
      pure (some sender)
  | .patchJobsPoll requestId limit => do
      withAgent agentId fun agentId => do
        let claimed ← ask (.api (.claimPatchJobs agentId (clampLimit limit 3)))
        answerPoll (.patchJobs requestId) claimed
      pure agentId
  | .patchStateCheckin requestId observedAt patchState => do
      withAgent agentId fun agentId => do
        let plan ← ask (.api (.patchCheckin agentId observedAt patchState))
        answerCheckin agentId requestId plan
      pure agentId
  | .patchActionResult result => do
      withAgent agentId fun agentId => report (.patchActionResult agentId result)
      pure agentId
  | .patchJobUpdate update => do
      withAgent agentId fun agentId => report (.patchJobStatus agentId update)
      pure agentId
  | .patchJobProgress progress => do
      withAgent agentId fun agentId =>
        reportProgress agentId progress.agentId (.patchProgress progress)
      pure agentId
  | .macosUpdateAccountStatus sender status => do
      withAgent agentId fun agentId =>
        reportProgress agentId sender (.macosAccountStatus agentId status)
      pure agentId
  | .featureUpgradeJobsPoll stage requestId limit => do
      withAgent agentId fun agentId => do
        let claimed ← ask (.api (.claimUpgradeJobs stage agentId (clampLimit limit 3)))
        answerPoll (.featureUpgradeJobs stage requestId) claimed
      pure agentId
  | .featureUpgradeProgress stage progress => do
      withAgent agentId fun agentId =>
        reportProgress agentId progress.agentId (.upgradeProgress stage progress)
      pure agentId
  | .remediationJobsPoll requestId limit => do
      withAgent agentId fun agentId => do
        let claimed ← ask (.api (.claimRemediationJobs agentId (clampLimit limit 10)))
        answerPoll (.remediationJobs requestId) claimed
      pure agentId
  | .remediationJobUpdate update => do
      withAgent agentId fun agentId => report (.remediationStatus agentId update)
      pure agentId
  | .linuxShellCredential credential => do
      storeLinuxShellCredential credential
      pure (some credential.agentId)
  | .response => do
      ask .deliver
      pure agentId
  | .unknown _ => pure agentId

/-- The sessions of the agent are looked up, and then removed. -/
def removeAgentSessions (kind : SessionKind) (agentId : String) : Handler Unit := do
  let sessions ← ask (.listSessions kind)
  let stale := (sessions.filter fun entry => entry.2.agentId = agentId).map Prod.fst
  if stale ≠ [] then ask (.removeSessions kind stale) else pure ()

/-- What `handle_socket` does when its loop has ended. -/
def closeSocket (sender : ℕ) : Option String → Handler Unit
  | none => pure ()
  | some agentId => do
      let disconnected : Bool ← ask (.disconnectUnlessReplaced agentId sender)
      if disconnected then do
        report (.connectionStatus agentId none "disconnected" none)
        removeAgentSessions .shell agentId
        removeAgentSessions .fileTransfer agentId
        removeAgentSessions .desktop agentId
        removeAgentSessions .registry agentId
        removeAgentSessions .chat agentId
      else pure ()

end Talos.Server
