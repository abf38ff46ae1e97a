import Mathlib.Data.List.Sort
import Talos.Server.SessionStart

/-!
# The requests to the server

The routes of the router apart from the socket of the agents, with what is read from the
path, the query and the body, and the handler of each. What cannot be parsed is
rejected before its handler runs and is no request here.
-/

namespace Talos.Server

open Interactive Program Rust

/-! ## Headers -/

/-- The headers by lower-case name; a value that is not text is `none`. -/
abbrev HeaderMap := List (String × Option String)

variable (headers : HeaderMap)

def HeaderMap.text (name : String) : Option String :=
  (headers.lookup name).bind id

def extractBearer : Option String :=
  (HeaderMap.text headers "authorization").bind fun value =>
    let scheme := trim (String.ofList (value.toList.takeWhile (· ≠ ' ')))
    match value.toList.dropWhile (· ≠ ' ') with
    | [] => none
    | _ :: rest =>
      let token := trim (String.ofList rest)
      if eqIgnoreAsciiCase scheme "bearer" && token ≠ "" then some token else none

def extractApiBase : Option String :=
  (((headers.lookup "x-forwarded-host").or (headers.lookup "host")).bind id).map fun host =>
    (HeaderMap.text headers "x-forwarded-proto").getD "http" ++ "://" ++ host

variable (config : Config)

def Config.internalServerKey : Option String :=
  (config.talosServerApiKey.map trim).filter (· ≠ "")

/-- The key that a request presents, which is empty when there is none. -/
def presentedServerKey : String :=
  ((HeaderMap.text headers "x-rmm-server-key").map trim).getD ""

def requireInternalServerKey (headers : HeaderMap) : Handler Unit :=
  match config.internalServerKey with
  | none => fail (.serviceUnavailable "RMM_SERVER_API_KEY must be configured")
  | some expected => ensure (.unauthorized "unauthorized") (presentedServerKey headers = expected)

/-! ## Bodies and queries -/

structure NotifyRequest where
  agentIds : Option (List String)
  reason : Option String
  requestedBy : Option String

structure RemediationCommandJob where
  commandId : String
  organizationId : String
  agentId : String
  intentId : String
  approvalState : String
  steps : List Value

structure InternalAiRunnerConnectRequest where
  organizationId : String
  apiBaseUrl : Option String
  desktopMode : Option String
  displayProfilePreference : List String
  hideCursor : Option Bool
  runAs : Option ShellRunAs
  targetSessionId : Option ℕ

structure ShellConnectQuery where
  runAs : Option ShellRunAs
  targetSessionId : Option ℕ
  session : Option String
  token : Option String

structure AiRunnerSessionCleanupRequest where
  sessionId : String
  kind : String
  agentId : String

/-! ## Responses -/

structure ViewerSessionSnapshot where
  sessionId : String
  kind : SessionKind
  agentId : String
  userId : Option String
  userEmail : Option String
  attachedAt : Option Instant
  viewerConnectedAt : Option Instant
  viewerLastHeartbeatAt : Option Instant

inductive Response where
  | text (body : String)
  | status (code : ℕ)
  | device (agentId : String) (summary : Value)
  | snapshotRequested (requestId : String)
  | script (agentId : String) (output : ShellOutput)
  | notified (connectedAgents notifiedAgents : ℕ)
  | remediationQueued (queued connectedAgents notifiedAgents : ℕ)
  | connect (agentId : String) (response : ConnectResponse)
  | rdpSessions (agentId : String) (sessions : List Value)
  | viewerStatus (snapshot : ViewerSessionSnapshot) (connected : Bool)
  | viewerConnections (snapshots : List ViewerSessionSnapshot)
  | capabilities (session : Session)
  | deviceInfo (agentId : String) (summary : Value) (refreshed : Bool)
      (refreshError : Option String)
  | credential (agentId : String) (credential : Value)
  | cleanedUp (removed : Bool)

/-! ## Users -/

def requireUserContext : Handler UserContext := do
  let token ← orFail (.unauthorized "missing bearer token") (extractBearer headers)
  request (.userContext token)

variable (agentId : String)

def ensureDeviceInOrganization (organizationId : String) : Handler Unit :=
  request (.ensureDeviceInOrganization agentId organizationId)

def requireDeviceScope (user : UserContext) : Handler DeviceScope := do
  ensureDeviceInOrganization agentId user.organizationId
  let deviceScope ← fetchDeviceScope agentId
  ensure (.forbidden "device does not belong to your organization")
    (deviceScope.organizationId = user.organizationId)
  pure deviceScope

def UserContext.viewerIdentity (user : UserContext) : ViewerIdentity := ⟨user.userId, user.email⟩

/-! ## Devices -/

/-- An error that is no answer of a handler becomes a 500. -/
def internalServerError : AppError := .internal "internal server error"

def fetchDeviceDetailsForAgent : Handler Value := do
  let agent ← getConnectedAgent agentId
  let requestId ← ask .uuid
  sendTo agentId agent (.fetchDetails requestId)
  let details ← ask (.awaitDetails requestId)
  let details ← orFail (.timeout "device details request timed out") details
  let updated ← ask (.api (.updateDeviceDetails agentId details))
  match updated with
  | .ok summary => pure summary
  | .error _ => fail internalServerError

def fetchDeviceSummaryFromApi : Handler Value := request (.deviceSummary agentId)

def fetchDeviceDetails : Handler Response := do
  let device ← fetchDeviceDetailsForAgent agentId
  pure (.device agentId device)

def requestSnapshot : Handler Response := do
  let claimed : Bool ← ask (.claimSnapshotSlot agentId)
  ensure (.badRequest "snapshot request is limited to once every 30 seconds") claimed
  let agent ← getConnectedAgent agentId
  let requestId ← ask .uuid
  request (.registerSnapshotRequest agentId requestId "pending")
  let sent : Bool ← ask (.send agentId agent.sender (.requestFullSnapshot requestId))
  if sent then pure (.snapshotRequested requestId)
  else do
    let _ ← ask (.api (.registerSnapshotRequest agentId requestId "failed"))
    fail (.badRequest "agent unavailable")

def commandLog (user : UserContext) (agentId script : String) (wasAllowed : Bool)
    (denialReason : Option String) (exitCode : Option Int) : ApiCall :=
  .logCommand ⟨user.organizationId, user.userId, agentId, script, wasAllowed, denialReason,
    exitCode⟩

/-- The output is returned as it came; the server cuts it to a limit. -/
def executeScript (script : String) : Handler Response := do
  ensure (.badRequest "script must not be empty") (trim script ≠ "")
  let user ← requireUserContext headers
  let deviceScope ← requireDeviceScope agentId user
  let validation ←
    request (.validatePolicy script user.organizationId deviceScope.customerId user.role)
  let reason := validation.reason.getD "Command not allowed"
  if !validation.allowed then do
    request (commandLog user agentId script false (some reason) none)
    fail (.forbidden reason)
  else do
    let agent ← getConnectedAgent agentId
    let requestId ← ask .uuid
    sendTo agentId agent (.shellCommand requestId script)
    let output : Option ShellOutput ← ask (.awaitShellOutput requestId)
    let output ← orFail (.timeout "script execution timed out") output
    request (commandLog user agentId script true none output.exitCode)
    pure (.script agentId output)

def listRdpSessions : Handler Response := do
  let agent ← getConnectedAgent agentId
  let requestId ← ask .uuid
  sendTo agentId agent (.rdpSessionsRequest requestId)
  let sessions ← ask (.awaitRdpSessions requestId)
  let sessions ← orFail (.timeout "rdp session enumeration timed out") sessions
  pure (.rdpSessions agentId sessions)

/-! ## Notifications -/

def sendAvailable (message : Message) : Handler Bool := do
  let agent : Option AgentConnection ← ask (.getAgent agentId)
  match agent with
  | none => pure false
  | some agent => do
      sendTo agentId agent message
      pure true

/-- The number of agents that were reached; an agent whose channel is closed does not
stop the loop. -/
def notifyAgents (message : Message) : List String → Handler ℕ
  | [] => pure 0
  | agentId :: rest => do
      let notified ← (sendAvailable agentId message).attempt
      let count ← notifyAgents message rest
      match notified with
      | .ok true => pure (count + 1)
      | _ => pure count

def notifyPatchJobsForDevice : Handler Response := do
  let user ← requireUserContext headers
  let _ ← requireDeviceScope agentId user
  -- the name of the target in the audit event is left out, the look-up is not
  let _ ← ask (.getAgent agentId)
  let notified ← sendAvailable agentId (.patchJobsAvailable "manual" (some user.userId))
  logAuditEvent
    { organizationId := user.organizationId
      agentId := agentId
      viewer := some user.viewerIdentity
      actionType := "patch.jobs.notify"
      result := if notified then "success" else "failure"
      sessionId := none }
  pure (.notified notified.toNat notified.toNat)

/-- The agents to notify: all that are connected, unless some are named. -/
def notificationAgents (agentIds : Option (List String)) (connected : List String) : List String :=
  let targets := ((agentIds.getD []).map trim).filter (· ≠ "")
  if targets = [] then connected else targets.filter (connected.contains ·)

def notifyInternal (headers : HeaderMap) (body : NotifyRequest) (message : Message) :
    Handler Response := do
  requireInternalServerKey config headers
  let connected : List String ← ask .connectedAgents
  let agents := notificationAgents body.agentIds connected
  let notifiedAgents ← notifyAgents message agents
  pure (.notified agents.length notifiedAgents)

def notifyPatchJobsInternal (headers : HeaderMap) (body : NotifyRequest) : Handler Response :=
  notifyInternal config headers body
    (.patchJobsAvailable (body.reason.getD "patch_jobs_available") body.requestedBy)

def UpgradeStage.availableReason : UpgradeStage → String
  | .preflight => "feature_upgrade_preflight_available"
  | .stageIso => "feature_upgrade_stage_iso_available"
  | .start => "feature_upgrade_start_available"

/-- The three routes of the stages. -/
def notifyFeatureUpgradeInternal (headers : HeaderMap) (stage : UpgradeStage)
    (body : NotifyRequest) : Handler Response :=
  notifyInternal config headers body
    (.featureUpgradeJobsAvailable stage (body.reason.getD stage.availableReason) body.requestedBy)

def RemediationCommandJob.eligible (command : RemediationCommandJob) : Bool :=
  !(trim command.commandId = "" || trim command.organizationId = "" || trim command.agentId = ""
    || trim command.intentId = "" || command.steps.isEmpty
    || command.approvalState = "pending_approval" || command.intentId = "talos.patch.install")

/-- The number of commands and the agents they are for. -/
def notificationTargets (commands : List RemediationCommandJob) : ℕ × List String :=
  let eligible := commands.filter (·.eligible)
  ((eligible.map fun command => (command.agentId, command.commandId)).dedup.length,
    ((eligible.map (·.agentId)).dedup).insertionSort (· ≤ ·))

def enqueueRemediationCommandsInternal (headers : HeaderMap)
    (commands : List RemediationCommandJob) : Handler Response := do
  requireInternalServerKey config headers
  let targets := notificationTargets commands
  let connected : List String ← ask .connectedAgents
  let notifiedAgents ←
    notifyAgents (.remediationJobsAvailable "remediation_command_queued") targets.2
  pure (.remediationQueued targets.1 (targets.2.filter (connected.contains ·)).length
    notifiedAgents)

end Talos.Server
