import Talos.Server.Requests

/-!
# The requests about sessions

Users of the dashboard and the AI runner open sessions; the viewer works on a session
with its token, and opens further sessions of the same agent with it.
-/

namespace Talos.Server

open Interactive Program Rust

/-! ## Opening a session for a user -/

/-- The handlers of `connect`, `connect-file-transfer` and `connect-registry`. -/
def connectWith (headers : HeaderMap) (agentId : String)
    (start : Option String → Option ViewerIdentity → Handler ConnectResponse) :
    Handler Response := do
  let user ← requireUserContext headers
  let _ ← requireDeviceScope agentId user
  let response ← start (extractApiBase headers) (some user.viewerIdentity)
  pure (.connect agentId response)

variable (config : Config) (headers : HeaderMap) (agentId : String)

def connectDevice : Handler Response :=
  connectWith headers agentId fun apiBase viewerIdentity =>
    startRemoteDesktopSession config agentId apiBase "desktop" .remoteDesktop viewerIdentity none
      false

def connectFileTransfer : Handler Response :=
  connectWith headers agentId (startFileTransferSession config agentId)

def connectRegistry : Handler Response :=
  connectWith headers agentId (startRemoteRegistrySession config agentId)

variable (kind : SessionKind)

def checkedSession (missing invalid : String) (sessionId token : String) : Handler Session := do
  let session : Option Session ← ask (.getSession kind sessionId)
  let session ← orFail (.notFound missing) session
  ensure (.unauthorized invalid) (session.token = token)
  pure session

inductive ShellConnectAuth where
  | bearer (user : UserContext) (deviceScope : DeviceScope)
  | sessionToken (viewerIdentity : Option ViewerIdentity)

variable (query : ShellConnectQuery)

def shellConnectAuth : Handler ShellConnectAuth :=
  if (extractBearer headers).isSome then do
    let user ← requireUserContext headers
    let deviceScope ← requireDeviceScope agentId user
    pure (.bearer user deviceScope)
  else
    match query.session, query.token with
    | some sessionId, some token => do
        let session ←
          checkedSession .desktop "session not found" "invalid session token" sessionId token
        ensure (.forbidden "session does not match agent") (session.agentId = agentId)
        pure (.sessionToken session.viewerIdentity)
    | _, _ => fail (.unauthorized "missing bearer token")

def ShellConnectAuth.viewerIdentity : ShellConnectAuth → Option ViewerIdentity
  | .bearer user _ => some user.viewerIdentity
  | .sessionToken viewerIdentity => viewerIdentity

def ShellConnectAuth.auditScope : ShellConnectAuth → Handler DeviceScope
  | .bearer _ deviceScope => pure deviceScope
  | .sessionToken _ => fetchDeviceScope agentId

/-- A user may name the id and the token of the session. -/
def ShellConnectAuth.reuseSession : ShellConnectAuth → Option (String × String)
  | .bearer .. =>
    match query.session, query.token with
    | some sessionId, some token => some (sessionId, token)
    | _, _ => none
  | .sessionToken _ => none

def connectShell : Handler Response := do
  let auth ← shellConnectAuth headers agentId query
  let auditScope ← auth.auditScope agentId
  let response ← startShellSession config agentId
    { apiBase := extractApiBase headers
      runAs := query.runAs.getD .system
      targetSessionId := query.targetSessionId
      viewerIdentity := auth.viewerIdentity
      auditScope := auditScope
      auditAction := "shell.start"
      reuseSession := auth.reuseSession query }
  pure (.connect agentId response)

/-! ## Opening a session for the AI runner -/

variable (body : InternalAiRunnerConnectRequest)

def InternalAiRunnerConnectRequest.apiBase (headers : HeaderMap) : Option String :=
  ((body.apiBaseUrl.map trim).filter (· ≠ "")).or (extractApiBase headers)

/-- The key and the organization that the request has to name. -/
def requireAiRunner : Handler DeviceScope := do
  requireInternalServerKey config headers
  let organizationId := trim body.organizationId
  ensure (.badRequest "organizationId is required") (organizationId ≠ "")
  let deviceScope ← fetchDeviceScope agentId
  ensure (.forbidden "device does not belong to the requested organization")
    (deviceScope.organizationId = organizationId)
  pure deviceScope

def aiRunnerAudit (deviceScope : DeviceScope) (agentId actionType : String)
    (response : ConnectResponse) : Handler Response := do
  logAuditEvent
    { organizationId := deviceScope.organizationId
      agentId := agentId
      viewer := none
      actionType := actionType
      result := "success"
      sessionId := some response.sessionId }
  pure (.connect agentId response)

/-- `AiRunnerDesktopMode::from_request(..) == Interactive`. -/
def isInteractive (desktopMode : Option String) : Bool :=
  match (desktopMode.map trim).filter (· ≠ "") with
  | some value => eqIgnoreAsciiCase value "interactive"
  | none => false

def connectAiRunnerDesktopSessionInternal : Handler Response := do
  let deviceScope ← requireAiRunner config headers agentId body
  let interactive := isInteractive body.desktopMode
  let response ← startRemoteDesktopSession config agentId (body.apiBase headers) "headless"
    (if interactive then .remoteDesktop else .headlessRemoteDesktop) none
    (if interactive then some body.displayProfilePreference else none)
    (body.hideCursor.getD interactive)
  aiRunnerAudit deviceScope agentId "ai_runner.headless_session_lease" response

def connectAiRunnerChatApprovalInternal : Handler Response := do
  let deviceScope ← requireAiRunner config headers agentId body
  let response ← startChatSession config agentId (body.apiBase headers) none none
  aiRunnerAudit deviceScope agentId "ai_runner.chat_approval_session" response

def connectAiRunnerShellSessionInternal : Handler Response := do
  let deviceScope ← requireAiRunner config headers agentId body
  let response ← startShellSession config agentId
    { apiBase := body.apiBase headers
      runAs := body.runAs.getD .system
      targetSessionId := body.targetSessionId
      viewerIdentity := none
      auditScope := deviceScope
      auditAction := "ai_runner.shell_session_lease"
      reuseSession := none }
  pure (.connect agentId response)

/-! ## Sessions as the dashboard sees them -/

variable (sessionId : String)

def Session.snapshot (session : Session) : ViewerSessionSnapshot where
  sessionId := sessionId
  kind := kind
  agentId := session.agentId
  userId := session.viewerUserId
  userEmail := session.viewerUserEmail
  attachedAt := session.attachedAt
  viewerConnectedAt := session.viewerConnectedAt
  viewerLastHeartbeatAt := session.viewerLastHeartbeatAt

/-- The order in which the maps are searched. -/
def sessionKinds : List SessionKind := [.desktop, .shell, .fileTransfer, .registry, .chat]

def findViewerSessionSnapshot (sessionId : String) :
    List SessionKind → Handler (Option ViewerSessionSnapshot)
  | [] => pure none
  | kind :: rest => do
      let session : Option Session ← ask (.getSession kind sessionId)
      match session with
      | some session => pure (some (session.snapshot kind sessionId))
      | none => findViewerSessionSnapshot sessionId rest

/-- `VIEWER_HEARTBEAT_TTL`, in nanoseconds. -/
def viewerHeartbeatTtl : ℕ := 6 * 10 ^ 9

def isPresenceLive (now : Instant) (lastHeartbeatAt : Option Instant) : Bool :=
  match lastHeartbeatAt with
  | none => false
  | some last => now - last ≤ viewerHeartbeatTtl

def getViewerSessionStatus : Handler Response := do
  let user ← requireUserContext headers
  let snapshot ← findViewerSessionSnapshot sessionId sessionKinds
  let snapshot ← orFail (.notFound "viewer session not found") snapshot
  let _ ← requireDeviceScope snapshot.agentId user
  let now ← ask .now
  pure (.viewerStatus snapshot (isPresenceLive now snapshot.viewerLastHeartbeatAt))

/-- The sessions with a live viewer, of one agent if the query names one. -/
def liveSnapshots (agentId : Option String) :
    List SessionKind → Handler (List ViewerSessionSnapshot)
  | [] => pure []
  | kind :: rest => do
      let now : Instant ← ask .now
      let sessions : List (String × Session) ← ask (.listSessions kind)
      let live := sessions.filter fun entry =>
        isPresenceLive now entry.2.viewerLastHeartbeatAt && agentId.all (· = entry.2.agentId)
      let others ← liveSnapshots agentId rest
      pure (live.map (fun entry => entry.2.snapshot kind entry.1) ++ others)

def authorizedSnapshots (organizationId : String) :
    List ViewerSessionSnapshot → Handler (List ViewerSessionSnapshot)
  | [] => pure []
  | snapshot :: rest => do
      let deviceScope ← fetchDeviceScope snapshot.agentId
      let others ← authorizedSnapshots organizationId rest
      if deviceScope.organizationId = organizationId then pure (snapshot :: others) else pure others

def latestFirst (snapshots : List ViewerSessionSnapshot) : List ViewerSessionSnapshot :=
  snapshots.insertionSort fun a b =>
    b.viewerLastHeartbeatAt.getD 0 ≤ a.viewerLastHeartbeatAt.getD 0

def listViewerConnections (agentId : Option String) : Handler Response := do
  let user ← requireUserContext headers
  match agentId with
  | some agentId => do
      let _ ← requireDeviceScope agentId user
  | none => pure ()
  let snapshots ← liveSnapshots agentId sessionKinds
  let authorized ← authorizedSnapshots user.organizationId snapshots
  pure (.viewerConnections (latestFirst authorized))

/-! ## Opening further sessions with a token -/

/-- The handlers that open a session with the token of another one. -/
def openWith (parent : Handler Session) (headers : HeaderMap)
    (start : String → Option String → Option ViewerIdentity → Handler ConnectResponse) :
    Handler Response := do
  let session ← parent
  let response ← start session.agentId (extractApiBase headers) session.viewerIdentity
  pure (.connect session.agentId response)

variable (token : String)

def shellParent : Handler Session :=
  checkedSession .shell "shell session not found" "invalid shell session token" sessionId token

def desktopParent : Handler Session :=
  checkedSession .desktop "session not found" "invalid session token" sessionId token

def openDesktopFromShell : Handler Response :=
  openWith (shellParent sessionId token) headers fun agentId apiBase viewerIdentity =>
    startRemoteDesktopSession config agentId apiBase "desktop" .remoteDesktop viewerIdentity none
      false

def openFileTransferFromShell : Handler Response :=
  openWith (shellParent sessionId token) headers (startFileTransferSession config)

def openRegistryFromShell : Handler Response :=
  openWith (shellParent sessionId token) headers (startRemoteRegistrySession config)

def openFileTransferFromSession : Handler Response :=
  openWith (desktopParent sessionId token) headers (startFileTransferSession config)

def openRegistryFromSession : Handler Response :=
  openWith (desktopParent sessionId token) headers (startRemoteRegistrySession config)

def openChatFromSession : Handler Response :=
  openWith (desktopParent sessionId token) headers fun agentId apiBase viewerIdentity =>
    startChatSession config agentId apiBase viewerIdentity (some sessionId)

/-! ## What a viewer asks for -/

def getLinuxShellCredentialForShellSession (token : Option String) : Handler Response := do
  let token ← orFail (.unauthorized "missing session token") (token.filter (trim · ≠ ""))
  let session ←
    checkedSession .shell "shell session not found" "invalid session token" sessionId token
  let userId ← orFail (.forbidden "viewer identity unavailable") session.viewerUserId
  let credential ← request (.revealCredential session.agentId userId)
  pure (.credential session.agentId credential)

def parseRefreshFlag (value : Option String) : Bool :=
  match value with
  | none => true
  | some raw => !(["0", "false", "no", "off"].contains (toAsciiLowercase (trim raw)))

def getSessionDeviceInfo (refresh : Option String) : Handler Response := do
  let session ←
    checkedSession .desktop "session not found" "invalid session token" sessionId token
  if parseRefreshFlag refresh then do
    let details ← (fetchDeviceDetailsForAgent session.agentId).attempt
    match details with
    | .ok device => pure (.deviceInfo session.agentId device true none)
    | .error e => do
        let device ← fetchDeviceSummaryFromApi session.agentId
        pure (.deviceInfo session.agentId device false (some e.message))
  else do
    let device ← fetchDeviceSummaryFromApi session.agentId
    pure (.deviceInfo session.agentId device false none)

def capabilitiesOf (missing : String) (sessionId token : String) : Handler Response := do
  let session ← checkedSession kind missing "invalid session token" sessionId token
  pure (.capabilities session)

def getSessionCapabilities : String → String → Handler Response :=
  capabilitiesOf .desktop "session not found"

def getShellCapabilities : String → String → Handler Response :=
  capabilitiesOf .shell "shell session not found"

def getFileTransferCapabilities : String → String → Handler Response :=
  capabilitiesOf .fileTransfer "file transfer session not found"

def getRegistryCapabilities : String → String → Handler Response :=
  capabilitiesOf .registry "remote registry session not found"

def getChatCapabilities : String → String → Handler Response :=
  capabilitiesOf .chat "chat session not found"

/-- The record may have gone since its token was checked. -/
def viewerTouch (missing invalid : String) (touch : Touch) (sessionId token : String) :
    Handler Response := do
  let _ ← checkedSession kind missing invalid sessionId token
  ask (.touchSession kind sessionId touch)
  pure (.status 200)

def viewerConnected : String → String → Handler Response :=
  viewerTouch .desktop "session not found" "invalid session token" .connected

def viewerHeartbeat : String → String → Handler Response :=
  viewerTouch .desktop "session not found" "invalid session token" .heartbeat

def fileTransferViewerConnected : String → String → Handler Response :=
  viewerTouch .fileTransfer "file transfer session not found" "invalid session token" .connected

def fileTransferViewerHeartbeat : String → String → Handler Response :=
  viewerTouch .fileTransfer "file transfer session not found" "invalid session token" .heartbeat

def registryViewerConnected : String → String → Handler Response :=
  viewerTouch .registry "remote registry session not found" "invalid session token" .connected

def registryViewerHeartbeat : String → String → Handler Response :=
  viewerTouch .registry "remote registry session not found" "invalid session token" .heartbeat

def chatViewerConnected : String → String → Handler Response :=
  viewerTouch .chat "chat session not found" "invalid session token" .connected

def chatViewerHeartbeat : String → String → Handler Response :=
  viewerTouch .chat "chat session not found" "invalid session token" .heartbeat

def shellViewerConnected : String → String → Handler Response :=
  viewerTouch .shell "shell session not found" "invalid shell session token" .connected

def shellViewerHeartbeat : String → String → Handler Response :=
  viewerTouch .shell "shell session not found" "invalid shell session token" .heartbeat

/-- Sends to the agent if it is connected, whether or not its channel is closed. -/
def notifyAgent (message : Message) : Handler Unit := do
  let agent : Option AgentConnection ← ask (.getAgent agentId)
  match agent with
  | some agent => do
      let _ ← ask (.send agentId agent.sender message)
  | none => pure ()

/-- The address of the viewer is recorded and the agent, if connected, told to punch. -/
def viewerReflexOf (missing : String) (sessionId token : String) (reflex : ReflexAddress) :
    Handler Response := do
  let session ← checkedSession kind missing "invalid session token" sessionId token
  ask (.touchSession kind sessionId (.reflex reflex))
  notifyAgent session.agentId (.punchStart sessionId reflex)
  pure (.status 200)

def viewerReflex : String → String → ReflexAddress → Handler Response :=
  viewerReflexOf .desktop "session not found"

def fileTransferViewerReflex : String → String → ReflexAddress → Handler Response :=
  viewerReflexOf .fileTransfer "file transfer session not found"

def registryViewerReflex : String → String → ReflexAddress → Handler Response :=
  viewerReflexOf .registry "remote registry session not found"

def chatViewerReflex : String → String → ReflexAddress → Handler Response :=
  viewerReflexOf .chat "chat session not found"

def shellViewerReflex : String → String → ReflexAddress → Handler Response :=
  viewerReflexOf .shell "shell session not found"

/-! ## Relays -/

def requestRelayOf (missing invalid unconfigured : String) (prepare : Session → String → Message)
    (sessionId token : String) : Handler Response := do
  let session ← checkedSession kind missing invalid sessionId token
  let relayUrl ← orFail (.badRequest unconfigured) session.relayUrl
  let agent ← getConnectedAgent session.agentId
  ask (.touchSession kind sessionId .attached)
  sendTo session.agentId agent (prepare session relayUrl)
  pure (.status 200)

def requestRelay : Handler Response :=
  requestRelayOf .desktop "session not found" "invalid session token"
    "relay not configured for this session"
    (fun session relayUrl => .relayPrepare sessionId relayUrl session.mode
      session.capabilities.selectedDisplayProfile session.hideCursor)
    sessionId token

def requestFileTransferRelay : Handler Response :=
  requestRelayOf .fileTransfer "file transfer session not found" "invalid session token"
    "relay not configured for this session"
    (fun _ relayUrl => .relayPrepare sessionId relayUrl .fileTransfer none false)
    sessionId token

def requestRegistryRelay : Handler Response :=
  requestRelayOf .registry "remote registry session not found" "invalid session token"
    "relay not configured for this session"
    (fun _ relayUrl => .relayPrepare sessionId relayUrl .remoteRegistry none false)
    sessionId token

def requestShellRelay : Handler Response :=
  requestRelayOf .shell "shell session not found" "invalid shell session token"
    "shell relay not configured"
    (fun _ relayUrl => .relayPrepare sessionId relayUrl .shell none false)
    sessionId token

/-- A chat compares its relay with the configured one, reads its record twice and is
touched after the message. -/
def requestChatRelay : Handler Response := do
  let session ←
    checkedSession .chat "chat session not found" "invalid session token" sessionId token
  let configured ←
    orFail (.serviceUnavailable "relay unavailable on server configuration") config.relayUrl
  ensure (.badRequest "relay url mismatch") (session.relayUrl = some configured)
  let agent : Option AgentConnection ← ask (.getAgent session.agentId)
  let agent ← orFail (.badRequest "agent unavailable") agent
  let existing : Option Session ← ask (.getSession .chat sessionId)
  let existing ← orFail (.notFound "chat session not found") existing
  let relayUrl ← orFail (.badRequest "relay url missing") existing.relayUrl
  sendTo session.agentId agent (.relayPrepare sessionId relayUrl .chat none false)
  ask (.touchSession .chat sessionId .heartbeat)
  pure (.status 200)

/-! ## Ending sessions -/

def notifyAgentSessionEnd (kind : String) : Handler Unit :=
  notifyAgent agentId (.sessionEnd sessionId kind)

/-- The token is checked, and then the record is removed if it is still there. -/
def takeSession (missing invalid : String) (sessionId token : String) : Handler Session := do
  let session ← checkedSession kind missing invalid sessionId token
  let removed : Bool ← ask (.removeSession kind sessionId)
  ensure (.notFound missing) removed
  pure session

def endSessionOf (missing invalid kindText actionType : String) (sessionId token : String) :
    Handler Response := do
  let session ← takeSession kind missing invalid sessionId token
  notifyAgentSessionEnd session.agentId sessionId kindText
  auditSession session.agentId session.viewerIdentity actionType sessionId
  pure (.status 200)

def endFileTransferSession : String → String → Handler Response :=
  endSessionOf .fileTransfer "file transfer session not found" "invalid session token"
    "file_transfer" "file_transfer.end"

def endRemoteRegistrySession : String → String → Handler Response :=
  endSessionOf .registry "remote registry session not found" "invalid session token"
    "remote_registry" "registry.end"

def endShellSession : String → String → Handler Response :=
  endSessionOf .shell "shell session not found" "invalid shell session token" "shell" "shell.end"

def endChatSession : String → String → Handler Response :=
  endSessionOf .chat "chat session not found" "invalid session token" "chat" "chat.end"

/-- The chats that were opened from a desktop session and satisfy `keep`. -/
def removeChildChats (keep : Session → Bool) : Handler (List String) := do
  let chats : List (String × Session) ← ask (.listSessions .chat)
  let childChatIds := (chats.filter fun entry =>
    entry.2.parentDesktopSessionId = some sessionId && keep entry.2).map Prod.fst
  if childChatIds ≠ [] then do
    ask (.removeSessions .chat childChatIds)
    pure childChatIds
  else pure childChatIds

def notifyChildChats (agentId : String) : List String → Handler Unit
  | [] => pure ()
  | chatSessionId :: rest => do
      notifyAgentSessionEnd agentId chatSessionId "chat"
      notifyChildChats agentId rest

def endRemoteDesktopSession : Handler Response := do
  let session ← takeSession .desktop "session not found" "invalid session token" sessionId token
  let childChatIds ← removeChildChats sessionId fun _ => true
  notifyAgentSessionEnd session.agentId sessionId "remote_desktop"
  notifyChildChats session.agentId childChatIds
  auditSession session.agentId session.viewerIdentity "remote_desktop.end" sessionId
  pure (.status 200)

/-- The record of the agent is removed; one of another agent is an error. -/
def cleanupSession (agentId : String) : Handler Bool := do
  let removed : Option Bool ← ask (.removeSessionOf kind sessionId agentId)
  orFail (.forbidden "session belongs to another agent") removed

def cleanupOf (kindText sessionId agentId : String) : Handler Bool := do
  let removed ← cleanupSession kind sessionId agentId
  if removed then do
    notifyAgentSessionEnd agentId sessionId kindText
    pure removed
  else pure removed

def cleanupDesktop (agentId : String) : Handler Bool := do
  let removed ← cleanupSession .desktop sessionId agentId
  let childChatIds ← removeChildChats sessionId fun chat => chat.agentId = agentId
  if removed then notifyAgentSessionEnd agentId sessionId "remote_desktop" else pure ()
  notifyChildChats agentId childChatIds
  pure removed

def cleanupKind (kind sessionId agentId : String) : Handler Bool :=
  if kind = "desktop" || kind = "remote_desktop" then cleanupDesktop sessionId agentId
  else if kind = "shell" then cleanupOf .shell "shell" sessionId agentId
  else if kind = "chat" then cleanupOf .chat "chat" sessionId agentId
  else fail (.badRequest "unsupported session kind")

def cleanupAiRunnerSessionInternal (body : AiRunnerSessionCleanupRequest) : Handler Response := do
  requireInternalServerKey config headers
  let sessionId := trim body.sessionId
  let agentId := trim body.agentId
  ensure (.badRequest "sessionId and agentId are required") (sessionId ≠ "" && agentId ≠ "")
  let removed ← cleanupKind (toAsciiLowercase (trim body.kind)) sessionId agentId
  pure (.cleanedUp removed)

end Talos.Server
