import Talos.Server.Router

/-!
# What a handler does

The handlers that work for one agent read its connection and send to it and to no other,
and only the starts of sessions insert a record. Both are stated for a predicate `P` on
operations that permits the agent.
-/

namespace Talos.Server

open Interactive Program

/-- The agent whose connection an operation reads or sends to. -/
def Op.consults : Op → Option String
  | .getAgent agentId => some agentId
  | .send agentId _ _ => some agentId
  | _ => none

def Op.inserts : Op → Bool
  | .insertSession .. => true
  | _ => false

/-- The operation changes the directory of agents. -/
def Op.enlists : Op → Bool
  | .registerAgent .. | .disconnectUnlessReplaced .. => true
  | _ => false

/-- A record as the starts write it: only a shell is attached from the beginning. -/
def Launched (kind : SessionKind) (session : Session) : Prop :=
  session.attachedAt = none ↔ kind ≠ .shell

/-- What `P` holds for, apart from the insertions: all that concerns no agent, and the
connection of this agent. Only sockets change the directory. -/
structure Permits (P : Op → Prop) (agentId : String) : Prop where
  plain : ∀ op : Op, op.consults = none → op.inserts = false → op.enlists = false → P op
  getAgent : P (.getAgent agentId)
  send : ∀ sender message, P (.send agentId sender message)

section Plain

variable {P : Op → Prop} {agentId : String} (hP : Permits P agentId)

include hP

theorem Permits.api (call : ApiCall) : P (.api call) := hP.plain _ rfl rfl rfl

theorem Permits.uuid : P .uuid := hP.plain _ rfl rfl rfl

theorem Permits.now : P .now := hP.plain _ rfl rfl rfl

theorem Permits.awaitCapabilities (requestId : String) : P (.awaitCapabilities requestId) :=
  hP.plain _ rfl rfl rfl

theorem Permits.awaitQuicReflex (sessionId : String) : P (.awaitQuicReflex sessionId) :=
  hP.plain _ rfl rfl rfl

end Plain

/-- `P` holds for all that a request does apart from the insertions. -/
structure Ordinary (P : Op → Prop) : Prop where
  holds : ∀ op : Op, op.inserts = false → op.enlists = false → P op

theorem Ordinary.permits {P : Op → Prop} (hP : Ordinary P) (agentId : String) :
    Permits P agentId where
  plain op _ := hP.holds op
  getAgent := hP.holds _ rfl rfl
  send _ _ := hP.holds _ rfl rfl

/-- The operations one by one, for `simp`. -/
theorem Ordinary.each {P : Op → Prop} (hP : Ordinary P) :
    (∀ call, P (.api call)) ∧ P .uuid ∧ P .now ∧ (∀ agentId, P (.getAgent agentId)) ∧
      (∀ agentId sender message, P (.send agentId sender message)) ∧
      (∀ kind sessionId, P (.getSession kind sessionId)) ∧
      (∀ kind sessionId touch, P (.touchSession kind sessionId touch)) ∧
      (∀ kind sessionId, P (.removeSession kind sessionId)) ∧
      (∀ kind sessionId agentId, P (.removeSessionOf kind sessionId agentId)) ∧
      (∀ agentId, P (.claimSnapshotSlot agentId)) ∧ (∀ id, P (.awaitShellOutput id)) ∧
      ∀ id, P (.awaitRdpSessions id) := by
  refine ⟨?_, ?_, ?_, ?_, ?_, ?_, ?_, ?_, ?_, ?_, ?_, ?_⟩ <;> intros <;> exact hP.holds _ rfl rfl

theorem Ordinary.ask {P : Op → Prop} (hP : Ordinary P) {op : Op} (hinserts : op.inserts = false)
    (henlists : op.enlists = false) : Within P (ask op) :=
  ⟨hP.holds op hinserts henlists, fun _ => trivial⟩

/-! ## Starting sessions -/

section Start

variable {P : Op → Prop} {agentId : String} {config : Config} (hP : Permits P agentId)

include hP

variable (agent : AgentConnection)

theorem confined_sendTo (message : Message) : Within P (sendTo agentId agent message) := by
  simp [sendTo, hP.send]

theorem confined_getConnectedAgent : Within P (getConnectedAgent agentId) := by
  simp [getConnectedAgent, hP.getAgent]

theorem confined_requestCapabilities : Within P (requestCapabilities agentId agent) := by
  simp [requestCapabilities, sendTo, hP.send, hP.uuid, hP.awaitCapabilities]

theorem confined_fetchDeviceScope (other : String) : Within P (fetchDeviceScope other) := by
  simp [fetchDeviceScope, hP.api]

variable (sessionId : String)

theorem confined_auditSession (other : String) (viewerIdentity : Option ViewerIdentity)
    (actionType sessionId : String) :
    Within P (auditSession other viewerIdentity actionType sessionId) := by
  simp [auditSession, fetchDeviceScope, logAuditEvent, hP.api]

variable (mode : SessionTransportMode) (hideCursor : Bool)

theorem confined_prepareHeadless (profile : Option String) :
    Within P (prepareHeadless config agentId agent sessionId mode hideCursor profile) := by
  simp [prepareHeadless, confined_sendTo hP]

theorem confined_prepareDesktop (profile : Option String)
    {unavailable : String → Option String → Handler (Option ReflexAddress × Option String)}
    (hunavailable : ∀ reason message, Within P (unavailable reason message)) : Within P
      (prepareDesktop config agentId agent sessionId mode hideCursor profile unavailable) := by
  refine (confined_sendTo hP agent _).bind fun _ => ⟨hP.plain _ rfl rfl rfl, ?_⟩
  rintro (_ | reflex | ⟨reason, message⟩)
  · trivial
  · trivial
  · exact hunavailable reason message

theorem confined_prepareDesktopWithFallback (capabilities : RemoteDesktopCapabilities)
    (profile : Option String) : Within P
      (prepareDesktopWithFallback config agentId agent sessionId mode hideCursor capabilities
        profile) := by
  refine confined_prepareDesktop hP agent sessionId mode hideCursor profile fun reason message => ?_
  split
  · split
    · exact confined_prepareDesktop hP agent sessionId mode hideCursor _ fun _ _ => trivial
    · trivial
  · trivial

theorem confined_shellSessionKey (reuseSession : Option (String × String)) :
    Within P (shellSessionKey reuseSession) := by
  cases reuseSession <;> simp [shellSessionKey, hP.uuid]

theorem confined_shellOffer : Within P (shellOffer sessionId) := by
  refine ⟨hP.plain _ rfl rfl rfl, ?_⟩
  rintro (offer | message | _ | _) <;> trivial

/-! The starts also insert the record. -/

section Insert

variable (hinsert : ∀ kind sessionId session, Launched kind session →
  P (.insertSession kind sessionId session))

include hinsert

theorem confined_startTunnelSession {tunnel : TunnelKind} (htunnel : tunnel.kind ≠ .shell)
    (apiBase : Option String) (viewerIdentity : Option ViewerIdentity) (parent : Option String) :
    Within P (startTunnelSession tunnel config agentId apiBase viewerIdentity parent) := by
  have hunattached : ∀ sessionId session, session.attachedAt = none →
      P (.insertSession tunnel.kind sessionId session) :=
    fun _ _ hnone => hinsert _ _ _ (iff_of_true hnone htunnel)
  simp [startTunnelSession, getConnectedAgent, requestCapabilities, sendTo, hP.getAgent, hP.send,
    hP.uuid, hP.now, hP.awaitCapabilities, hP.awaitQuicReflex, hunattached,
    confined_auditSession hP]

theorem confined_startRemoteDesktopSession (apiBase : Option String) (deepLinkMode : String)
    (mode : SessionTransportMode) (viewerIdentity : Option ViewerIdentity)
    (displayProfilePreference : Option (List String)) (hideCursor : Bool) :
    Within P (startRemoteDesktopSession config agentId apiBase deepLinkMode mode viewerIdentity
        displayProfilePreference hideCursor) := by
  have hunattached : ∀ sessionId session, session.attachedAt = none →
      P (.insertSession .desktop sessionId session) :=
    fun _ _ hnone => hinsert _ _ _ (iff_of_true hnone nofun)
  simp [startRemoteDesktopSession, getConnectedAgent, requestCapabilities, sendTo, hP.getAgent,
    hP.send, hP.uuid, hP.now, hP.awaitCapabilities, hunattached, confined_prepareHeadless hP,
    confined_prepareDesktopWithFallback hP, confined_auditSession hP]

theorem confined_startShellSession (options : ShellSessionStartOptions) :
    Within P (startShellSession config agentId options) := by
  refine (confined_getConnectedAgent hP).bind fun agent => ?_
  refine Within.then (p := ofOutcome (checkShellSupport agent options.runAs)) trivial
    (fun _ => trivial) fun _ => ?_
  refine (confined_shellSessionKey hP options.reuseSession).bind fun key => ?_
  refine (confined_sendTo hP agent _).bind fun _ => ?_
  refine (confined_shellOffer hP key.1).bind fun offer => ?_
  have hattached : ∀ sessionId session, session.attachedAt ≠ none →
      P (.insertSession .shell sessionId session) :=
    fun _ _ hsome => hinsert _ _ _ (iff_of_false hsome fun hother => hother rfl)
  simp [logAuditEvent, hattached, hP.api, hP.now]

end Insert

end Start

/-! ## Handlers that know their agent -/

section Known

variable {P : Op → Prop} {agentId : String} (hP : Permits P agentId)

include hP

theorem confined_fetchDeviceDetailsForAgent : Within P (fetchDeviceDetailsForAgent agentId) := by
  refine (confined_getConnectedAgent hP).bind fun agent => ?_
  refine ⟨hP.plain _ rfl rfl rfl, fun requestId => ?_⟩
  refine (confined_sendTo hP agent _).bind fun _ => ?_
  refine ⟨hP.plain _ rfl rfl rfl, fun details => ?_⟩
  rcases details with _ | details
  · trivial
  · refine ⟨hP.plain _ rfl rfl rfl, ?_⟩
    rintro (e | summary) <;> trivial

theorem confined_sendAvailable (message : Message) : Within P (sendAvailable agentId message) := by
  refine ⟨hP.getAgent, ?_⟩
  rintro (_ | agent)
  · trivial
  · exact (confined_sendTo hP agent message).bind fun _ => trivial

theorem confined_notifyAgent (message : Message) : Within P (notifyAgent agentId message) := by
  refine ⟨hP.getAgent, ?_⟩
  rintro (_ | agent)
  · trivial
  · exact ⟨hP.send _ _, fun _ => trivial⟩

theorem confined_notifyChildChats (chatSessionIds : List String) :
    Within P (notifyChildChats agentId chatSessionIds) := by
  induction chatSessionIds with
  | nil => trivial
  | cons chatSessionId rest ih => exact (confined_notifyAgent hP _).bind fun _ => ih

theorem confined_removeChildChats (sessionId : String) (keep : Session → Bool) :
    Within P (removeChildChats sessionId keep) := by
  have hlist : P (.listSessions .chat) := hP.plain _ rfl rfl rfl
  have hremove : ∀ ids, P (.removeSessions .chat ids) := fun _ => hP.plain _ rfl rfl rfl
  simp [removeChildChats, hlist, hremove]

end Known

/-! ## Handlers that start no session -/

section Quiet

variable {P : Op → Prop} {config : Config} {headers : HeaderMap} (hP : Ordinary P)

include hP

theorem confined_requireUserContext (headers : HeaderMap) :
    Within P (requireUserContext headers) := by
  simp [requireUserContext, hP.each]

variable (agentId : String)

theorem confined_requireDeviceScope (user : UserContext) :
    Within P (requireDeviceScope agentId user) := by
  simp [requireDeviceScope, ensureDeviceInOrganization, fetchDeviceScope, hP.each]

omit hP in
theorem confined_requireInternalServerKey (config : Config) (headers : HeaderMap) :
    Within P (requireInternalServerKey config headers) := by
  rw [requireInternalServerKey]
  split <;> simp

variable (kind : SessionKind)

theorem confined_checkedSession (missing invalid sessionId token : String) :
    Within P (checkedSession kind missing invalid sessionId token) := by
  simp [checkedSession, hP.each]

theorem confined_notifyAgents (message : Message) (agentIds : List String) :
    Within P (notifyAgents message agentIds) := by
  induction agentIds with
  | nil => trivial
  | cons agentId rest ih =>
    refine Within.then (confined_attempt.mpr (confined_sendAvailable (hP.permits agentId) _))
      (fun _ => trivial) fun notified => ?_
    refine Within.bind ih fun count => ?_
    split <;> trivial

theorem confined_fetchDeviceDetails : Within P (fetchDeviceDetails agentId) :=
  (confined_fetchDeviceDetailsForAgent (hP.permits agentId)).bind fun _ => trivial

theorem confined_requestSnapshot : Within P (requestSnapshot agentId) := by
  simp [requestSnapshot, getConnectedAgent, hP.each]

theorem confined_executeScript (headers : HeaderMap) (agentId script : String) :
    Within P (executeScript headers agentId script) := by
  simp [executeScript, requireUserContext, requireDeviceScope, ensureDeviceInOrganization,
    fetchDeviceScope, commandLog, getConnectedAgent, sendTo, hP.each]

theorem confined_listRdpSessions : Within P (listRdpSessions agentId) := by
  simp [listRdpSessions, getConnectedAgent, sendTo, hP.each]

theorem confined_notifyPatchJobsForDevice (headers : HeaderMap) (agentId : String) :
    Within P (notifyPatchJobsForDevice headers agentId) := by
  refine (confined_requireUserContext hP headers).bind fun user => ?_
  refine (confined_requireDeviceScope hP agentId user).bind fun _ => ?_
  refine (hP.ask rfl rfl).bind fun _ => ?_
  refine (confined_sendAvailable (hP.permits agentId) _).bind fun _ => ?_
  simp [logAuditEvent, hP.each]

theorem confined_notifyInternal (config : Config) (headers : HeaderMap) (body : NotifyRequest)
    (message : Message) : Within P (notifyInternal config headers body message) := by
  refine (confined_requireInternalServerKey config headers).bind fun _ => ?_
  refine (hP.ask rfl rfl).bind fun connected => ?_
  exact (confined_notifyAgents hP message _).bind fun _ => trivial

theorem confined_enqueueRemediationCommandsInternal (config : Config) (headers : HeaderMap)
    (commands : List RemediationCommandJob) :
    Within P (enqueueRemediationCommandsInternal config headers commands) := by
  refine (confined_requireInternalServerKey config headers).bind fun _ => ?_
  refine (hP.ask rfl rfl).bind fun connected => ?_
  exact (confined_notifyAgents hP _ _).bind fun _ => trivial

variable (sessionId : String)

theorem confined_findViewerSessionSnapshot (kinds : List SessionKind) :
    Within P (findViewerSessionSnapshot sessionId kinds) := by
  induction kinds with
  | nil => trivial
  | cons kind rest ih =>
    refine ⟨hP.holds _ rfl rfl, ?_⟩
    rintro (_ | session)
    · exact ih
    · trivial

theorem confined_getViewerSessionStatus (headers : HeaderMap) (sessionId : String) :
    Within P (getViewerSessionStatus headers sessionId) := by
  refine (confined_requireUserContext hP headers).bind fun user => ?_
  refine (confined_findViewerSessionSnapshot hP sessionId _).bind fun snapshot => ?_
  refine Within.bind (by simp) fun snapshot => ?_
  refine (confined_requireDeviceScope hP snapshot.agentId user).bind fun _ => ?_
  exact (hP.ask rfl rfl).bind fun _ => trivial

theorem confined_liveSnapshots (filter : Option String) (kinds : List SessionKind) :
    Within P (liveSnapshots filter kinds) := by
  induction kinds with
  | nil => trivial
  | cons kind rest ih =>
    refine (hP.ask rfl rfl).bind fun now => ?_
    refine (hP.ask rfl rfl).bind fun sessions => ?_
    exact Within.bind ih fun _ => trivial

theorem confined_authorizedSnapshots (organizationId : String)
    (snapshots : List ViewerSessionSnapshot) :
    Within P (authorizedSnapshots organizationId snapshots) := by
  induction snapshots with
  | nil => trivial
  | cons snapshot rest ih =>
    refine (confined_fetchDeviceScope (hP.permits snapshot.agentId) _).bind fun scope => ?_
    refine Within.bind ih fun others => ?_
    split <;> trivial

theorem confined_listViewerConnections (headers : HeaderMap) (filter : Option String) :
    Within P (listViewerConnections headers filter) := by
  refine (confined_requireUserContext hP headers).bind fun user => ?_
  have hrest : (Within P (do
      let snapshots ← liveSnapshots filter sessionKinds
      let authorized ← authorizedSnapshots user.organizationId snapshots
      pure (Response.viewerConnections (latestFirst authorized)))) := by
    refine (confined_liveSnapshots hP filter _).bind fun snapshots => ?_
    exact (confined_authorizedSnapshots hP _ _).bind fun _ => trivial
  cases filter with
  | none => exact hrest
  | some agentId =>
    exact (confined_requireDeviceScope hP agentId user).bind fun _ => hrest

theorem confined_getLinuxShellCredential (token : Option String) :
    Within P (getLinuxShellCredentialForShellSession sessionId token) := by
  simp [getLinuxShellCredentialForShellSession, checkedSession, hP.each]

theorem confined_getSessionDeviceInfo (token : String) (refresh : Option String) :
    Within P (getSessionDeviceInfo sessionId token refresh) := by
  refine (confined_checkedSession hP ..).bind fun session => ?_
  split
  · refine Within.then (confined_attempt.mpr
      (confined_fetchDeviceDetailsForAgent (hP.permits session.agentId))) (fun _ => trivial) ?_
    rintro (e | device)
    · simp [fetchDeviceSummaryFromApi, hP.each]
    · trivial
  · simp [fetchDeviceSummaryFromApi, hP.each]

theorem confined_capabilitiesOf (missing sessionId token : String) :
    Within P (capabilitiesOf kind missing sessionId token) := by
  simp [capabilitiesOf, checkedSession, hP.each]

theorem confined_viewerTouch (missing invalid : String) (touch : Touch) (sessionId token : String) :
    Within P (viewerTouch kind missing invalid touch sessionId token) := by
  simp [viewerTouch, checkedSession, hP.each]

theorem confined_viewerReflexOf (missing sessionId token : String) (reflex : ReflexAddress) :
    Within P (viewerReflexOf kind missing sessionId token reflex) := by
  refine (confined_checkedSession hP ..).bind fun session => ?_
  refine (hP.ask rfl rfl).bind fun _ => ?_
  exact (confined_notifyAgent (hP.permits session.agentId) _).bind fun _ => trivial

theorem confined_requestRelayOf (missing invalid unconfigured : String)
    (prepare : Session → String → Message) (sessionId token : String) :
    Within P (requestRelayOf kind missing invalid unconfigured prepare sessionId token) := by
  simp [requestRelayOf, checkedSession, getConnectedAgent, sendTo, hP.each]

theorem confined_requestChatRelay (config : Config) (sessionId token : String) :
    Within P (requestChatRelay config sessionId token) := by
  simp [requestChatRelay, checkedSession, sendTo, hP.each]

theorem confined_takeSession (missing invalid sessionId token : String) :
    Within P (takeSession kind missing invalid sessionId token) := by
  simp [takeSession, checkedSession, hP.each]

theorem confined_endSessionOf (missing invalid kindText actionType sessionId token : String) :
    Within P (endSessionOf kind missing invalid kindText actionType sessionId token) := by
  refine (confined_takeSession hP ..).bind fun session => ?_
  have hquiet := hP.permits session.agentId
  refine (confined_notifyAgent hquiet _).bind fun _ => ?_
  exact (confined_auditSession hquiet _ _ _ _).bind fun _ => trivial

theorem confined_endRemoteDesktopSession (token : String) :
    Within P (endRemoteDesktopSession sessionId token) := by
  refine (confined_takeSession hP ..).bind fun session => ?_
  have hquiet := hP.permits session.agentId
  refine (confined_removeChildChats hquiet _ _).bind fun childChatIds => ?_
  refine (confined_notifyAgent hquiet _).bind fun _ => ?_
  refine (confined_notifyChildChats hquiet childChatIds).bind fun _ => ?_
  exact (confined_auditSession hquiet _ _ _ _).bind fun _ => trivial

theorem confined_cleanupSession (agentId : String) :
    Within P (cleanupSession kind sessionId agentId) := by
  simp [cleanupSession, hP.each]

theorem confined_cleanupOf (kindText sessionId agentId : String) :
    Within P (cleanupOf kind kindText sessionId agentId) := by
  refine (confined_cleanupSession hP kind sessionId agentId).bind fun removed => ?_
  split
  · exact (confined_notifyAgent (hP.permits agentId) _).bind fun _ => trivial
  · trivial

theorem confined_cleanupDesktop (agentId : String) :
    Within P (cleanupDesktop sessionId agentId) := by
  have hquiet := hP.permits agentId
  refine (confined_cleanupSession hP .desktop sessionId agentId).bind fun removed => ?_
  refine (confined_removeChildChats hquiet _ _).bind fun childChatIds => ?_
  have hrest : Within P (notifyChildChats agentId childChatIds >>= fun _ => pure removed) :=
    (confined_notifyChildChats hquiet childChatIds).bind fun _ => trivial
  refine confined_ite.mpr ⟨fun _ => ?_, fun _ => hrest⟩
  exact (confined_notifyAgent hquiet _).bind fun _ => hrest

theorem confined_cleanupAiRunnerSession (config : Config) (headers : HeaderMap)
    (body : AiRunnerSessionCleanupRequest) :
    Within P (cleanupAiRunnerSessionInternal config headers body) := by
  have hkind (kind sessionId agentId : String) : Within P (cleanupKind kind sessionId agentId) := by
    simp [cleanupKind, confined_cleanupDesktop hP, confined_cleanupOf hP]
  rw [cleanupAiRunnerSessionInternal]
  refine (confined_requireInternalServerKey config headers).bind fun _ => ?_
  simp [hkind]

theorem confined_requireAiRunner (body : InternalAiRunnerConnectRequest) :
    Within P (requireAiRunner config headers agentId body) := by
  rw [requireAiRunner]
  refine (confined_requireInternalServerKey config headers).bind fun _ => ?_
  simp [fetchDeviceScope, hP.each]

theorem confined_aiRunnerAudit (deviceScope : DeviceScope) (agentId actionType : String)
    (response : ConnectResponse) :
    Within P (aiRunnerAudit deviceScope agentId actionType response) := by
  simp [aiRunnerAudit, logAuditEvent, hP.each]

/-- The tables of the router differ in their texts only. -/
theorem confined_tables (config : Config) (kind : SessionKind) (sessionId token : String) :
    (Within P (capabilitiesHandler kind sessionId token)) ∧
      (Within P (relayHandler config kind sessionId token)) ∧
      (∀ reflex, (Within P (reflexHandler kind sessionId token reflex))) ∧
      (Within P (connectedHandler kind sessionId token)) ∧
      (Within P (heartbeatHandler kind sessionId token)) ∧
      Within P (endHandler kind sessionId token) := by
  refine ⟨?_, ?_, fun reflex => ?_, ?_, ?_, ?_⟩
  · cases kind <;> exact confined_capabilitiesOf hP ..
  · cases kind with
    | chat => exact confined_requestChatRelay hP config sessionId token
    | _ => exact confined_requestRelayOf hP ..
  · cases kind <;> exact confined_viewerReflexOf hP ..
  · cases kind <;> exact confined_viewerTouch hP ..
  · cases kind <;> exact confined_viewerTouch hP ..
  · cases kind with
    | desktop => exact confined_endRemoteDesktopSession hP sessionId token
    | _ => exact confined_endSessionOf hP ..

def Route.starts : Route → Bool
  | .connect _ | .connectFileTransfer _ | .connectRegistry _ | .connectShell ..
  | .aiRunnerConnect .. | .aiRunnerChatApproval .. | .aiRunnerConnectShell ..
  | .openDesktopFromShell .. | .openFileTransferFromShell .. | .openRegistryFromShell ..
  | .openFileTransferFromSession .. | .openRegistryFromSession .. | .openChatFromSession .. => true
  | _ => false

theorem confined_quiet {route : Route} (hquiet : route.starts = false) :
    Within P (handle config ⟨headers, route⟩) := by
  cases route with
  | connect | connectFileTransfer | connectRegistry | connectShell | aiRunnerConnect
  | aiRunnerChatApproval | aiRunnerConnectShell | openDesktopFromShell | openFileTransferFromShell
  | openRegistryFromShell | openFileTransferFromSession | openRegistryFromSession
  | openChatFromSession => exact nomatch hquiet
  | health | listDevices | bulkUpdateCustomer | bulkDeleteDevices | getDevice agentId
  | deleteDevice agentId => trivial
  | fetchDetails agentId => exact confined_fetchDeviceDetails hP agentId
  | requestSnapshot agentId => exact confined_requestSnapshot hP agentId
  | executeScript agentId script => exact confined_executeScript hP headers agentId script
  | notifyPatchJobs agentId => exact confined_notifyPatchJobsForDevice hP headers agentId
  | notifyPatchJobsInternal body | notifyFeatureUpgradeInternal stage body =>
    exact confined_notifyInternal hP config headers body _
  | enqueueRemediationInternal commands =>
    exact confined_enqueueRemediationCommandsInternal hP config headers commands
  | aiRunnerCleanup body => exact confined_cleanupAiRunnerSession hP config headers body
  | rdpSessions agentId => exact confined_listRdpSessions hP agentId
  | viewerConnections filter => exact confined_listViewerConnections hP headers filter
  | viewerSessionStatus sessionId =>
    exact confined_getViewerSessionStatus hP headers sessionId
  | linuxShellCredential sessionId token =>
    exact confined_getLinuxShellCredential hP sessionId token
  | deviceInfo sessionId token refresh =>
    exact confined_getSessionDeviceInfo hP sessionId token refresh
  | capabilities kind sessionId token =>
    exact (confined_tables hP config kind sessionId token).1
  | requestRelay kind sessionId token =>
    exact (confined_tables hP config kind sessionId token).2.1
  | viewerReflex kind sessionId token reflex =>
    exact (confined_tables hP config kind sessionId token).2.2.1 reflex
  | viewerConnected kind sessionId token =>
    exact (confined_tables hP config kind sessionId token).2.2.2.1
  | viewerHeartbeat kind sessionId token =>
    exact (confined_tables hP config kind sessionId token).2.2.2.2.1
  | endSession kind sessionId token =>
    exact (confined_tables hP config kind sessionId token).2.2.2.2.2

end Quiet

end Talos.Server
