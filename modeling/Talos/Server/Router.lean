import Talos.Server.SessionRequests

/-!
# The router

Every route of the server apart from the socket of the agents, with its handler.
-/

namespace Talos.Server

open Interactive Program

inductive Route where
  | health
  | listDevices
  | bulkUpdateCustomer
  | bulkDeleteDevices
  | getDevice (agentId : String)
  | deleteDevice (agentId : String)
  | fetchDetails (agentId : String)
  | requestSnapshot (agentId : String)
  | executeScript (agentId script : String)
  | notifyPatchJobs (agentId : String)
  | notifyPatchJobsInternal (body : NotifyRequest)
  | notifyFeatureUpgradeInternal (stage : UpgradeStage) (body : NotifyRequest)
  | enqueueRemediationInternal (commands : List RemediationCommandJob)
  | aiRunnerConnect (agentId : String) (body : InternalAiRunnerConnectRequest)
  | aiRunnerChatApproval (agentId : String) (body : InternalAiRunnerConnectRequest)
  | aiRunnerConnectShell (agentId : String) (body : InternalAiRunnerConnectRequest)
  | aiRunnerCleanup (body : AiRunnerSessionCleanupRequest)
  | rdpSessions (agentId : String)
  | connect (agentId : String)
  | connectFileTransfer (agentId : String)
  | connectShell (agentId : String) (query : ShellConnectQuery)
  | connectRegistry (agentId : String)
  | viewerConnections (agentId : Option String)
  | viewerSessionStatus (sessionId : String)
  | openDesktopFromShell (sessionId token : String)
  | openFileTransferFromShell (sessionId token : String)
  | openRegistryFromShell (sessionId token : String)
  | linuxShellCredential (sessionId : String) (token : Option String)
  | openFileTransferFromSession (sessionId token : String)
  | openRegistryFromSession (sessionId token : String)
  | openChatFromSession (sessionId token : String)
  | deviceInfo (sessionId token : String) (refresh : Option String)
  | capabilities (kind : SessionKind) (sessionId token : String)
  | requestRelay (kind : SessionKind) (sessionId token : String)
  | viewerReflex (kind : SessionKind) (sessionId token : String) (reflex : ReflexAddress)
  | viewerConnected (kind : SessionKind) (sessionId token : String)
  | viewerHeartbeat (kind : SessionKind) (sessionId token : String)
  | endSession (kind : SessionKind) (sessionId token : String)

structure Request where
  headers : HeaderMap
  route : Route

def capabilitiesHandler : SessionKind → String → String → Handler Response
  | .desktop => getSessionCapabilities
  | .shell => getShellCapabilities
  | .fileTransfer => getFileTransferCapabilities
  | .registry => getRegistryCapabilities
  | .chat => getChatCapabilities

def relayHandler (config : Config) : SessionKind → String → String → Handler Response
  | .desktop => Server.requestRelay
  | .shell => requestShellRelay
  | .fileTransfer => requestFileTransferRelay
  | .registry => requestRegistryRelay
  | .chat => requestChatRelay config

def reflexHandler : SessionKind → String → String → ReflexAddress → Handler Response
  | .desktop => Server.viewerReflex
  | .shell => shellViewerReflex
  | .fileTransfer => fileTransferViewerReflex
  | .registry => registryViewerReflex
  | .chat => chatViewerReflex

def connectedHandler : SessionKind → String → String → Handler Response
  | .desktop => Server.viewerConnected
  | .shell => shellViewerConnected
  | .fileTransfer => fileTransferViewerConnected
  | .registry => registryViewerConnected
  | .chat => chatViewerConnected

def heartbeatHandler : SessionKind → String → String → Handler Response
  | .desktop => Server.viewerHeartbeat
  | .shell => shellViewerHeartbeat
  | .fileTransfer => fileTransferViewerHeartbeat
  | .registry => registryViewerHeartbeat
  | .chat => chatViewerHeartbeat

def endHandler : SessionKind → String → String → Handler Response
  | .desktop => endRemoteDesktopSession
  | .shell => endShellSession
  | .fileTransfer => endFileTransferSession
  | .registry => endRemoteRegistrySession
  | .chat => endChatSession

def handle (config : Config) (request : Request) : Handler Response :=
  match request.route with
  | .health => pure (.text "ok")
  | .listDevices => fail (.gone "devices list has moved to the API backend")
  | .bulkUpdateCustomer => fail (.gone "bulk customer updates have moved to the API backend")
  | .bulkDeleteDevices => fail (.gone "bulk device deletes have moved to the API backend")
  | .getDevice _ => fail (.gone "device details have moved to the API backend")
  | .deleteDevice _ => fail (.gone "device deletes have moved to the API backend")
  | .fetchDetails agentId => fetchDeviceDetails agentId
  | .requestSnapshot agentId => Server.requestSnapshot agentId
  | .executeScript agentId script => Server.executeScript request.headers agentId script
  | .notifyPatchJobs agentId => notifyPatchJobsForDevice request.headers agentId
  | .notifyPatchJobsInternal body => Server.notifyPatchJobsInternal config request.headers body
  | .notifyFeatureUpgradeInternal stage body =>
    Server.notifyFeatureUpgradeInternal config request.headers stage body
  | .enqueueRemediationInternal commands =>
    enqueueRemediationCommandsInternal config request.headers commands
  | .aiRunnerConnect agentId body =>
    connectAiRunnerDesktopSessionInternal config request.headers agentId body
  | .aiRunnerChatApproval agentId body =>
    connectAiRunnerChatApprovalInternal config request.headers agentId body
  | .aiRunnerConnectShell agentId body =>
    connectAiRunnerShellSessionInternal config request.headers agentId body
  | .aiRunnerCleanup body => cleanupAiRunnerSessionInternal config request.headers body
  | .rdpSessions agentId => listRdpSessions agentId
  | .connect agentId => connectDevice config request.headers agentId
  | .connectFileTransfer agentId => Server.connectFileTransfer config request.headers agentId
  | .connectShell agentId query => Server.connectShell config request.headers agentId query
  | .connectRegistry agentId => Server.connectRegistry config request.headers agentId
  | .viewerConnections agentId => listViewerConnections request.headers agentId
  | .viewerSessionStatus sessionId => getViewerSessionStatus request.headers sessionId
  | .openDesktopFromShell sessionId token =>
    Server.openDesktopFromShell config request.headers sessionId token
  | .openFileTransferFromShell sessionId token =>
    Server.openFileTransferFromShell config request.headers sessionId token
  | .openRegistryFromShell sessionId token =>
    Server.openRegistryFromShell config request.headers sessionId token
  | .linuxShellCredential sessionId token => getLinuxShellCredentialForShellSession sessionId token
  | .openFileTransferFromSession sessionId token =>
    Server.openFileTransferFromSession config request.headers sessionId token
  | .openRegistryFromSession sessionId token =>
    Server.openRegistryFromSession config request.headers sessionId token
  | .openChatFromSession sessionId token =>
    Server.openChatFromSession config request.headers sessionId token
  | .deviceInfo sessionId token refresh => getSessionDeviceInfo sessionId token refresh
  | .capabilities kind sessionId token => capabilitiesHandler kind sessionId token
  | .requestRelay kind sessionId token => relayHandler config kind sessionId token
  | .viewerReflex kind sessionId token reflex => reflexHandler kind sessionId token reflex
  | .viewerConnected kind sessionId token => connectedHandler kind sessionId token
  | .viewerHeartbeat kind sessionId token => heartbeatHandler kind sessionId token
  | .endSession kind sessionId token => endHandler kind sessionId token

end Talos.Server
