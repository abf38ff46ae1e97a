import Talos.Server.Operations

/-!
# Starting a session

A session is started by messages to the socket of the agent and recorded in the map of
its kind, under an id and with a token that are generated here. Only a shell session
can take both from the caller, and its record is written over whatever the map holds
under that id.
-/

namespace Talos.Server

open Interactive Program Rust

structure Config where
  relayUrl : Option String
  talosServerApiKey : Option String

structure ConnectResponse where
  url : String
  sessionId : String

/-! ## Links for the viewer -/

def withApi (apiBase : Option String) (url : String) : String :=
  match apiBase with
  | some api => url ++ "&api=" ++ api
  | none => url

variable (sessionId token : String)

def buildDesktopConnectUrlWithMode (agentId : String) (apiBase : Option String) (mode : String) :
    String :=
  withApi apiBase ("rmm://connect?session=" ++ sessionId ++ "&token=" ++ token ++ "&agent=" ++
    agentId ++ "&mode=" ++ mode)

def buildFileTransferConnectUrl (agentId : String) (apiBase : Option String) : String :=
  buildDesktopConnectUrlWithMode sessionId token agentId apiBase "file-transfer"

def buildRegistryConnectUrl (agentId : String) (apiBase : Option String) : String :=
  buildDesktopConnectUrlWithMode sessionId token agentId apiBase "registry"

def buildChatConnectUrl (agentId : String) (apiBase : Option String) : String :=
  buildDesktopConnectUrlWithMode sessionId token agentId apiBase "chat"

def ShellRunAs.text : ShellRunAs → String
  | .user => "user"
  | .system => "system"

/-- The link of a shell; the key of the relay, which follows its address, is left out. -/
def buildConnectUrl (host : String) (port : ℕ) (sessionId token agentId : String)
    (apiBase : Option String) (runAs : ShellRunAs) (targetSessionId : Option ℕ)
    (systemSupported : Bool) (relayUrl : Option String) : String :=
  let url := "rmm://connect?host=" ++ host ++ "&port=" ++ toString port ++ "&session=" ++ sessionId
    ++ "&token=" ++ token ++ "&agent=" ++ agentId ++ "&mode=shell" ++ "&runAs=" ++ runAs.text
  let url := match targetSessionId with
    | some target => url ++ "&targetSessionId=" ++ toString target
    | none => url
  let url := if systemSupported then url ++ "&system=1" else url
  let url := withApi apiBase url
  match relayUrl with
  | some relay => url ++ "&relayUrl=" ++ relay
  | none => url

/-! ## Display profiles -/

def normalProfiles : List String := ["modern_gpu", "legacy", "modern_cpu", "experimental"]

variable (capabilities : RemoteDesktopCapabilities)

def remoteDesktopProfileSupported (profileId : String) : Bool :=
  capabilities.displayProfiles.contains profileId

def chooseRemoteDesktopProfile (preferScreenshotOnly : Bool) : Option String :=
  let preferredProfiles :=
    if preferScreenshotOnly then "screenshot_only" :: normalProfiles else normalProfiles
  (preferredProfiles.find? (remoteDesktopProfileSupported capabilities)).or
    ((capabilities.selectedDisplayProfile.filter
      (remoteDesktopProfileSupported capabilities)).filter
      fun selected => preferScreenshotOnly || selected ≠ "screenshot_only")

def chooseRemoteDesktopNormalProfile : Option String :=
  chooseRemoteDesktopProfile capabilities false

def chooseRemoteDesktopPreferredProfile (preferredProfiles : List String) : Option String :=
  (((preferredProfiles.map trim).filter (· ≠ "")).filter (· ≠ "screenshot_only")).find?
    (remoteDesktopProfileSupported capabilities)

def chooseRemoteDesktopHeadlessProfile : Except AppError (Option String) :=
  if remoteDesktopProfileSupported capabilities "screenshot_only" then
    .ok (chooseRemoteDesktopProfile capabilities true)
  else
    .error (.serviceUnavailable "Headless screenshot capture is not supported by this agent")

def chooseRemoteDesktopLegacyFallbackProfile : Option String :=
  ["legacy", "modern_cpu"].find? (remoteDesktopProfileSupported capabilities)

def remoteDesktopH264StartupFailure (reason : String) : Bool :=
  reason = "h264_encoder_unavailable" || reason = "h264_encode_failed"

/-- The profile that a desktop starts with. -/
def chooseStartProfile (mode : SessionTransportMode)
    (displayProfilePreference : Option (List String)) : Except AppError (Option String) :=
  if mode = .headlessRemoteDesktop then chooseRemoteDesktopHeadlessProfile capabilities
  else
    match displayProfilePreference with
    | some preferredProfiles =>
      .ok ((chooseRemoteDesktopPreferredProfile capabilities preferredProfiles).or
        (chooseRemoteDesktopNormalProfile capabilities))
    | none => .ok (chooseRemoteDesktopNormalProfile capabilities)

/-! ## What the starts share -/

def getConnectedAgent (agentId : String) : Handler AgentConnection := do
  let agent ← ask (.getAgent agentId)
  orFail (.notFound "agent not connected") agent

def requestCapabilities (agentId : String) (agent : AgentConnection) :
    Handler RemoteDesktopCapabilities := do
  let requestId ← ask .uuid
  sendTo agentId agent (.sessionCapabilitiesRequest requestId)
  let capabilities ← ask (.awaitCapabilities requestId)
  orFail (.timeout "capabilities request timed out") capabilities

def agentLocalAddrs (agent : AgentConnection) : List LocalAddr :=
  match agent.localAddrs, agent.host with
  | addr :: rest, _ => addr :: rest
  | [], some ip => [⟨ip, 24⟩]
  | [], none => []

def auditSession (agentId : String) (viewerIdentity : Option ViewerIdentity)
    (actionType sessionId : String) : Handler Unit := do
  let deviceScope ← fetchDeviceScope agentId
  logAuditEvent
    { organizationId := deviceScope.organizationId
      agentId := agentId
      viewer := viewerIdentity
      actionType := actionType
      result := "success"
      sessionId := some sessionId }

/-! ## Desktops -/

variable (config : Config)

def tunnelPrepare (sessionId : String) (mode : SessionTransportMode)
    (selectedDisplayProfile : Option String) (hideCursor : Bool) : Message :=
  .tunnelPrepare sessionId config.relayUrl mode selectedDisplayProfile hideCursor none none

def displayUnavailable {α : Type} (reason : String) (message : Option String) : Handler α :=
  fail (.serviceUnavailable ("Remote desktop unavailable: " ++ message.getD reason))

variable (agentId : String) (agent : AgentConnection)

/-- One turn of the loop: the address of the agent, if it finds one in time, and the
profile that was asked for. -/
def prepareDesktop (sessionId : String) (mode : SessionTransportMode) (hideCursor : Bool)
    (profile : Option String)
    (unavailable : String → Option String → Handler (Option ReflexAddress × Option String)) :
    Handler (Option ReflexAddress × Option String) := do
  sendTo agentId agent (tunnelPrepare config sessionId mode profile hideCursor)
  let result : Option QuicReflexResult ← ask (.awaitQuicReflex sessionId)
  match result with
  | some (.success reflex) => pure (some reflex, profile)
  | some (.displayUnavailable reason message) => unavailable reason message
  | none => pure (none, profile)

/-- The loop is left after its second turn: a failure of the encoder is answered by one
more turn with a legacy profile. -/
def prepareDesktopWithFallback (sessionId : String) (mode : SessionTransportMode)
    (hideCursor : Bool) (capabilities : RemoteDesktopCapabilities) (profile : Option String) :
    Handler (Option ReflexAddress × Option String) :=
  let turn := prepareDesktop config agentId agent sessionId mode hideCursor
  turn profile fun reason message =>
    if remoteDesktopH264StartupFailure reason then
      match chooseRemoteDesktopLegacyFallbackProfile capabilities with
      | some fallback => turn (some fallback) displayUnavailable
      | none => displayUnavailable reason message
    else displayUnavailable reason message

def prepareHeadless (sessionId : String) (mode : SessionTransportMode) (hideCursor : Bool)
    (profile : Option String) : Handler (Option ReflexAddress × Option String) := do
  sendTo agentId agent (tunnelPrepare config sessionId mode profile hideCursor)
  pure (none, profile)

variable (apiBase : Option String) (viewerIdentity : Option ViewerIdentity)

def startRemoteDesktopSession (deepLinkMode : String) (mode : SessionTransportMode)
    (viewerIdentity : Option ViewerIdentity) (displayProfilePreference : Option (List String))
    (hideCursor : Bool) : Handler ConnectResponse := do
  let agent ← getConnectedAgent agentId
  let sessionId ← ask .uuid
  let token ← ask .uuid
  let capabilities ← requestCapabilities agentId agent
  let profile ← ofOutcome (chooseStartProfile capabilities mode displayProfilePreference)
  ensure (appErrorForUnsupported "remote_desktop" capabilities.platform)
    capabilities.features.remoteDesktop
  let prepared ←
    if mode = .headlessRemoteDesktop then
      prepareHeadless config agentId agent sessionId mode hideCursor profile
    else
      prepareDesktopWithFallback config agentId agent sessionId mode hideCursor capabilities profile
  let now ← ask .now
  ask (.insertSession .desktop sessionId
    { token := token
      agentId := agentId
      viewerUserId := viewerIdentity.map (·.userId)
      viewerUserEmail := viewerIdentity.bind (·.userEmail)
      parentDesktopSessionId := none
      mode := mode
      hideCursor := hideCursor
      capabilities := { capabilities with selectedDisplayProfile := prepared.2 }
      agentReflex := prepared.1
      viewerReflex := none
      agentHost := agent.host
      agentLocalAddrs := agentLocalAddrs agent
      relayUrl := config.relayUrl
      agentHostname := agent.hostname
      agentOs := agent.os
      agentVersion := agent.version
      createdAt := now
      attachedAt := none
      viewerConnectedAt := none
      viewerLastHeartbeatAt := none })
  auditSession agentId viewerIdentity "remote_desktop.start" sessionId
  pure ⟨buildDesktopConnectUrlWithMode sessionId token agentId apiBase deepLinkMode, sessionId⟩

/-! ## File transfers, registries and chats -/

/-- What the three starts differ in. -/
structure TunnelKind where
  kind : SessionKind
  mode : SessionTransportMode
  feature : String
  supported : AgentFeatureCapabilities → Bool
  /-- The token is part of the message to the agent. -/
  sendsToken : Bool
  buildUrl : String → String → String → Option String → String
  actionType : String

def startTunnelSession (tunnel : TunnelKind) (config : Config) (agentId : String)
    (apiBase : Option String) (viewerIdentity : Option ViewerIdentity)
    (parentDesktopSessionId : Option String) : Handler ConnectResponse := do
  let agent ← getConnectedAgent agentId
  let sessionId ← ask .uuid
  let token ← ask .uuid
  let capabilities ← requestCapabilities agentId agent
  ensure (appErrorForUnsupported tunnel.feature capabilities.platform)
    (tunnel.supported capabilities.features)
  sendTo agentId agent (.tunnelPrepare sessionId config.relayUrl tunnel.mode none false
    (if tunnel.sendsToken then some token else none) parentDesktopSessionId)
  let result : Option QuicReflexResult ← ask (.awaitQuicReflex sessionId)
  let agentReflex := match result with
    | some (.success reflex) => some reflex
    | some (.displayUnavailable ..) | none => none
  let now ← ask .now
  ask (.insertSession tunnel.kind sessionId
    { token := token
      agentId := agentId
      viewerUserId := viewerIdentity.map (·.userId)
      viewerUserEmail := viewerIdentity.bind (·.userEmail)
      parentDesktopSessionId := parentDesktopSessionId
      mode := tunnel.mode
      hideCursor := false
      capabilities :=
        { capabilities with
          codecs := []
          encoding := ""
          displayProfiles := []
          selectedDisplayProfile := none }
      agentReflex := agentReflex
      viewerReflex := none
      agentHost := agent.host
      agentLocalAddrs := agentLocalAddrs agent
      relayUrl := config.relayUrl
      agentHostname := none
      agentOs := none
      agentVersion := none
      createdAt := now
      attachedAt := none
      viewerConnectedAt := none
      viewerLastHeartbeatAt := none })
  auditSession agentId viewerIdentity tunnel.actionType sessionId
  pure ⟨tunnel.buildUrl sessionId token agentId apiBase, sessionId⟩

def startFileTransferSession : Handler ConnectResponse :=
  startTunnelSession
    { kind := .fileTransfer
      mode := .fileTransfer
      feature := "file_transfer"
      supported := (·.fileTransfer)
      sendsToken := false
      buildUrl := buildFileTransferConnectUrl
      actionType := "file_transfer.start" }
    config agentId apiBase viewerIdentity none

def startRemoteRegistrySession : Handler ConnectResponse :=
  startTunnelSession
    { kind := .registry
      mode := .remoteRegistry
      feature := "remote_registry"
      supported := (·.remoteRegistry)
      sendsToken := false
      buildUrl := buildRegistryConnectUrl
      actionType := "registry.start" }
    config agentId apiBase viewerIdentity none

def startChatSession (parentDesktopSessionId : Option String) : Handler ConnectResponse :=
  startTunnelSession
    { kind := .chat
      mode := .chat
      feature := "chat"
      supported := (·.chat)
      sendsToken := true
      buildUrl := buildChatConnectUrl
      actionType := "chat.start" }
    config agentId apiBase viewerIdentity parentDesktopSessionId

/-! ## Shells -/

structure ShellSessionStartOptions where
  apiBase : Option String
  runAs : ShellRunAs
  targetSessionId : Option ℕ
  viewerIdentity : Option ViewerIdentity
  auditScope : DeviceScope
  auditAction : String
  /-- The id and the token of the session, given by the caller. -/
  reuseSession : Option (String × String)

def checkShellSupport (runAs : ShellRunAs) : Except AppError Unit :=
  if !(featuresForAgent agent).systemShell then
    if agent.platform = .macos && !agent.isAdmin then
      .error (.badRequest (systemShellRequiresElevationMessage agent.platform))
    else .error (appErrorForUnsupported "system_shell" agent.platform)
  else if runAs = .user && agent.platform ≠ .windows then
    .error (.badRequest (userShellUnsupportedMessage agent.platform))
  else if runAs = .system && !agent.isAdmin then
    .error (.badRequest (systemShellRequiresElevationMessage agent.platform))
  else .ok ()

def shellSessionKey : Option (String × String) → Handler (String × String)
  | some key => pure key
  | none => do
      let sessionId ← ask .uuid
      let token ← ask .uuid
      pure (sessionId, token)

def shellOffer : Handler ShellOffer := do
  let outcome : ShellOfferOutcome ← ask (.awaitShellOffer sessionId)
  match outcome with
  | .offered offer => pure offer
  | .refused message => fail (.badRequest message)
  | .aborted => fail (.badRequest "shell session aborted")
  | .timedOut => fail (.timeout "shell session timed out")

def startShellSession (options : ShellSessionStartOptions) : Handler ConnectResponse := do
  let agent ← getConnectedAgent agentId
  ofOutcome (checkShellSupport agent options.runAs)
  let key ← shellSessionKey options.reuseSession
  let sessionId := key.1
  let token := key.2
  sendTo agentId agent
    (.shellStart sessionId token options.runAs options.targetSessionId config.relayUrl)
  let offer ← shellOffer sessionId
  let host := if trim offer.host = "" then agent.host.getD "127.0.0.1" else offer.host
  let transports := (if offer.reflex.isSome then ["quic"] else [])
    ++ (if config.relayUrl.isSome then ["relay"] else [])
  let now ← ask .now
  ask (.insertSession .shell sessionId
    { token := token
      agentId := agentId
      viewerUserId := options.viewerIdentity.map (·.userId)
      viewerUserEmail := options.viewerIdentity.bind (·.userEmail)
      parentDesktopSessionId := none
      mode := .shell
      hideCursor := false
      capabilities :=
        { codecs := []
          encoding := ""
          transports := transports
          platform := agent.platform
          features := featuresForAgent agent
          displayProfiles := []
          selectedDisplayProfile := none }
      agentReflex := offer.reflex
      viewerReflex := none
      agentHost := some host
      agentLocalAddrs := offer.localAddrs
      relayUrl := config.relayUrl
      agentHostname := none
      agentOs := none
      agentVersion := none
      createdAt := now
      attachedAt := some now
      viewerConnectedAt := none
      viewerLastHeartbeatAt := none })
  logAuditEvent
    { organizationId := options.auditScope.organizationId
      agentId := agentId
      viewer := options.viewerIdentity
      actionType := options.auditAction
      result := "success"
      sessionId := some sessionId }
  pure ⟨buildConnectUrl host offer.streamPort offer.sessionId token agentId options.apiBase
    options.runAs options.targetSessionId agent.isAdmin config.relayUrl, sessionId⟩

end Talos.Server
