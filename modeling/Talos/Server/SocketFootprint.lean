import Talos.Server.Footprint
import Talos.Server.SessionMaps

/-!
# Which programs change the directory

A request never changes the directory of agents. A socket registers the agent that a
hello or an inventory introduces, as the last operation of the message, and takes an
agent out when it closes, always with its own channel. Both are stated for a predicate
`P` on operations that holds for the ordinary ones.
-/

namespace Talos.Server

open Interactive Program Rust

-- no text is compared here, and unfolding the comparisons is slow
attribute [local irreducible] trim

def AgentMessage.introduces : AgentMessage → Option String
  | .agentHello payload => some payload.agentId
  | .inventoryUpdate payload => some payload.agentId
  | _ => none

/-- The agent id that a message sets for its socket. -/
def AgentMessage.names : AgentMessage → Option String
  | .agentHello payload => some payload.agentId
  | .inventoryUpdate payload => some payload.agentId
  | .fullSnapshot payload => some payload.agentId
  | .telemetryEvents agentId _ => some agentId
  | .linuxShellCredential credential => some credential.agentId
  | _ => none

variable {message : AgentMessage}

theorem AgentMessage.names_of_introduces {agentId : String}
    (hintroduces : message.introduces = some agentId) : message.names = some agentId := by
  cases message <;> first | exact hintroduces | exact nomatch hintroduces

section Sockets

variable {P : Op → Prop} (socket : Socket) (current : Option String)

/-- What a socket does for an agent that introduces itself: it asks the API, and then
registers the agent under its own channel. -/
theorem introduces_eq {agentId : String} (hintroduces : message.introduces = some agentId) :
    ∃ (enroll : Handler Unit) (registration : AgentRegistration),
      handleAgentMessage socket current message = (enroll >>= fun _ =>
        ask (.registerAgent agentId registration) >>= fun _ => pure (some agentId)) ∧
      registration.sender = socket.sender ∧
      ∀ {P : Op → Prop}, Ordinary P → Within P enroll := by
  cases message with
  | agentHello payload =>
    cases hintroduces
    refine ⟨do
      let enrollment ← enrollAgent socket.registrationToken payload.agentId payload.hostname
        payload.os payload.ip payload.version
      request (.upsertDevice payload.agentId enrollment.organizationId payload.hostname
        payload.os payload.ip payload.version)
      report (.connectionStatus payload.agentId (some enrollment.organizationId) "connected"
        (normalizeTextValue payload.version)), payload.registration socket.sender, ?_, rfl, ?_⟩
    · simp only [handleAgentMessage, handleAgentHello, report, bind_bind, pure_bind_eq]
    · intro P hP
      simp [enrollAgent, report, hP.each]
  | inventoryUpdate payload =>
    cases hintroduces
    refine ⟨do
      let enrollment ← enrollAgent socket.registrationToken payload.agentId payload.hostname
        payload.os payload.ip payload.version
      request (.upsertInventory payload.agentId enrollment.organizationId payload.hostname
        payload.os payload.ip payload.version payload.inventory)
      report (.connectionStatus payload.agentId (some enrollment.organizationId) "connected"
        (normalizeTextValue payload.version)), payload.registration socket.sender, ?_, rfl, ?_⟩
    · simp only [handleAgentMessage, handleInventoryUpdate, report, bind_bind, pure_bind_eq]
    · intro P hP
      simp [enrollAgent, report, hP.each]
  | _ => cases hintroduces

variable {socket current} (hP : Ordinary P)

include hP

theorem confined_sendAnswer (message : Message) : Within P (sendAnswer message) :=
  (hP.ask rfl rfl).bind fun _ => by simp

omit hP in
/-- Whatever a socket does for its agent, a socket without an agent id ignores. -/
theorem confined_withAgent {act : String → Handler Unit} (agentId : Option String)
    (hact : ∀ agentId, Within P (act agentId)) :
    Within P (withAgent agentId act) := by
  cases agentId with
  | none => trivial
  | some agentId => exact hact agentId

theorem confined_answerPoll (message : List Value → Message)
    (claimed : Except AppError (List Value)) :
    Within P (answerPoll message claimed) := by
  cases claimed <;> exact confined_sendAnswer hP _

variable (agentId : String)

theorem confined_answerCheckin (requestId : Option String) (plan : Except AppError Value) :
    Within P (answerCheckin agentId requestId plan) := by
  cases plan <;> exact confined_sendAnswer hP _

theorem confined_report (call : ApiCall) : Within P (report call) :=
  ⟨hP.holds _ rfl rfl, fun _ => trivial⟩

theorem confined_reportProgress (connected agentId : String) (call : ApiCall) :
    Within P (reportProgress connected agentId call) := by
  rw [reportProgress]
  split
  · trivial
  · exact confined_report hP call

/-- The socket has the agent id that the message names, or the one it had. -/
theorem confined_handleAgentMessage
    (hregister : ∀ agentId registration, message.introduces = some agentId →
      registration.sender = socket.sender → P (.registerAgent agentId registration)) :
    Confined P (handleAgentMessage socket current message) fun outcome =>
      ∀ after, outcome = .ok after → after = message.names.or current := by
  have herror (e : AppError) : ∀ after, (.error e : Except AppError (Option String)) = .ok after →
      after = message.names.or current := fun _ hok => nomatch hok
  have hpoll : ∀ {act : String → Handler Unit}, (∀ agentId, Within P (act agentId)) →
      Confined P (withAgent current act >>= fun _ => pure current) fun outcome =>
        ∀ after, outcome = .ok after → after = current := fun hact =>
    (confined_withAgent current hact).then (fun _ _ hok => nomatch hok)
      fun _ _ hok => (Except.ok.inj hok).symm
  have hintroduce (agentId : String) (hintroduces : message.introduces = some agentId) :
      Confined P (handleAgentMessage socket current message) fun outcome =>
        ∀ after, outcome = .ok after → after = message.names.or current := by
    obtain ⟨enroll, registration, heq, hsender, hordinary⟩ :=
      introduces_eq socket current hintroduces
    rw [heq, AgentMessage.names_of_introduces hintroduces]
    exact (hordinary hP).then (fun _ _ hok => nomatch hok) fun _ =>
      ⟨hregister _ _ hintroduces hsender, fun _ _ hok => (Except.ok.inj hok).symm⟩
  cases message with
  | unparsable reason => exact herror _
  | agentHello payload => exact hintroduce payload.agentId rfl
  | inventoryUpdate payload => exact hintroduce payload.agentId rfl
  | fullSnapshot payload =>
    simp [handleAgentMessage, upsertFullSnapshot, fetchDeviceScope, AgentMessage.names, hP.each]
  | telemetryEvents sender events =>
    simp [handleAgentMessage, upsertTelemetryEvents, fetchDeviceScope, AgentMessage.names, hP.each]
  | linuxShellCredential credential =>
    refine Within.then ?_ herror fun _ _ hok => (Except.ok.inj hok).symm
    simp [storeLinuxShellCredential, confined_sendAnswer hP, hP.each]
  | response => exact ⟨hP.holds _ rfl rfl, fun _ _ hok => (Except.ok.inj hok).symm⟩
  | unknown messageType => exact fun _ hok => (Except.ok.inj hok).symm
  | patchJobsPoll | featureUpgradeJobsPoll | remediationJobsPoll =>
    exact hpoll fun _ => (hP.ask rfl rfl).bind fun _ =>
      confined_answerPoll hP _ _
  | patchStateCheckin =>
    exact hpoll fun _ => (hP.ask rfl rfl).bind fun _ =>
      confined_answerCheckin hP _ _ _
  | patchActionResult | patchJobUpdate | remediationJobUpdate =>
    exact hpoll fun _ => confined_report hP _
  | patchJobProgress | macosUpdateAccountStatus | featureUpgradeProgress =>
    exact hpoll fun _ => confined_reportProgress hP _ _ _

theorem confined_removeAgentSessions (kind : SessionKind) (agentId : String) :
    Within P (removeAgentSessions kind agentId) := by
  refine (hP.ask rfl rfl).bind fun sessions => ?_
  exact confined_ite.mpr ⟨fun _ => hP.ask rfl rfl, fun _ => trivial⟩

/-- What a socket does after its agent was taken out. -/
theorem confined_cleanup (disconnected : Bool) : Within P (if disconnected then do
        report (.connectionStatus agentId none "disconnected" none)
        removeAgentSessions .shell agentId
        removeAgentSessions .fileTransfer agentId
        removeAgentSessions .desktop agentId
        removeAgentSessions .registry agentId
        removeAgentSessions .chat agentId
      else pure ()) := by
  have hremove (kind : SessionKind) := confined_removeAgentSessions hP kind agentId
  refine confined_ite.mpr ⟨fun _ => ?_, fun _ => trivial⟩
  refine (confined_report hP _).bind fun _ => ?_
  refine (hremove .shell).bind fun _ => ?_
  refine (hremove .fileTransfer).bind fun _ => ?_
  refine (hremove .desktop).bind fun _ => ?_
  exact (hremove .registry).bind fun _ => hremove .chat

theorem confined_closeSocket {sender : ℕ} (agentId : Option String)
    (hdisconnect : ∀ agentId, P (.disconnectUnlessReplaced agentId sender)) :
    Within P (closeSocket sender agentId) := by
  cases agentId with
  | none => trivial
  | some agentId => exact ⟨hdisconnect agentId, fun disconnected => confined_cleanup hP agentId _⟩

theorem confined_handleSocket (agentId : Option String) (frames : List Frame)
    (hregister : ∀ agentId registration, registration.sender = socket.sender →
      P (.registerAgent agentId registration))
    (hdisconnect : ∀ agentId, P (.disconnectUnlessReplaced agentId socket.sender)) :
    Within P (handleSocket socket agentId frames) := by
  induction frames generalizing agentId with
  | nil => exact confined_closeSocket hP _ hdisconnect
  | cons frame frames ih =>
    cases frame with
    | ignored => exact ih agentId
    | close => exact confined_closeSocket hP _ hdisconnect
    | text message =>
      have hmessage : Within P (handleAgentMessage socket agentId message) :=
        (confined_handleAgentMessage hP fun _ _ _ hsender => hregister _ _ hsender).mono
          (fun _ hop => hop) fun _ _ => trivial
      refine Within.bind (confined_attempt.mpr hmessage) ?_
      rintro (e | agentId)
      · exact confined_closeSocket hP _ hdisconnect
      · exact ih agentId

end Sockets

/-! ## Requests -/

section Requests

variable {P : Op → Prop} {config : Config} {headers : HeaderMap} (hP : Ordinary P)
  (hinsert : ∀ kind sessionId session, Launched kind session →
    P (.insertSession kind sessionId session))

include hP

theorem confined_connectWith {agentId : String}
    {start : Option String → Option ViewerIdentity → Handler ConnectResponse}
    (hstart : ∀ apiBase viewerIdentity, Within P (start apiBase viewerIdentity)) :
    Within P (connectWith headers agentId start) := by
  refine (confined_requireUserContext hP headers).bind fun user => ?_
  refine (confined_requireDeviceScope hP agentId user).bind fun _ => ?_
  exact (hstart _ _).bind fun _ => trivial

omit hP in
theorem confined_openWith {parent : Handler Session}
    {start : String → Option String → Option ViewerIdentity → Handler ConnectResponse}
    (hparent : Within P parent)
    (hstart : ∀ agentId apiBase viewerIdentity, Within P (start agentId apiBase viewerIdentity)) :
    Within P (openWith parent headers start) :=
  hparent.bind fun _ => (hstart _ _ _).bind fun _ => trivial

theorem confined_shellConnect (agentId : String) (query : ShellConnectQuery) :
    Within P (shellConnectAuth headers agentId query) := by
  refine confined_ite.mpr ⟨fun _ => ?_, fun _ => ?_⟩
  · refine (confined_requireUserContext hP headers).bind fun user => ?_
    exact (confined_requireDeviceScope hP agentId user).bind fun _ => trivial
  · split
    · refine (confined_checkedSession hP ..).bind fun session => ?_
      exact Within.bind (by simp) fun _ => trivial
    · trivial

include hinsert

theorem confined_handle (request : Request) : Within P (handle config request) := by
  obtain ⟨headers, route⟩ := request
  have htunnel {tunnel : TunnelKind} (hkind : tunnel.kind ≠ .shell) (agentId : String)
      (apiBase : Option String) (viewerIdentity : Option ViewerIdentity) (parent : Option String) :
      Within P (startTunnelSession tunnel config agentId apiBase viewerIdentity parent) :=
    confined_startTunnelSession (hP.permits agentId) hinsert hkind _ _ _
  cases route with
  | connect agentId =>
    change Confined P (connectDevice config headers agentId) _
    rw [connectDevice]
    exact confined_connectWith hP fun _ _ =>
      confined_startRemoteDesktopSession (hP.permits _) hinsert _ _ _ _ _ _
  | connectFileTransfer agentId =>
    change Confined P (connectFileTransfer config headers agentId) _
    rw [connectFileTransfer]
    exact confined_connectWith hP fun _ _ => htunnel (by decide) _ _ _ _
  | connectRegistry agentId =>
    change Confined P (connectRegistry config headers agentId) _
    rw [connectRegistry]
    exact confined_connectWith hP fun _ _ => htunnel (by decide) _ _ _ _
  | connectShell agentId query =>
    refine (confined_shellConnect hP agentId query).bind fun auth => ?_
    have hscope : Within P (auth.auditScope agentId) := by
      cases auth with
      | bearer user scope => trivial
      | sessionToken viewer => exact confined_fetchDeviceScope (hP.permits agentId) _
    refine hscope.bind fun _ => ?_
    exact (confined_startShellSession (hP.permits _) hinsert _).bind fun _ => trivial
  | aiRunnerConnect agentId body =>
    refine (confined_requireAiRunner hP agentId body).bind fun scope => ?_
    exact (confined_startRemoteDesktopSession (hP.permits _) hinsert _ _ _ _ _ _).bind fun _ =>
      confined_aiRunnerAudit hP scope agentId _ _
  | aiRunnerChatApproval agentId body =>
    refine (confined_requireAiRunner hP agentId body).bind fun scope => ?_
    exact (htunnel (by decide) _ _ _ _).bind fun _ => confined_aiRunnerAudit hP scope agentId _ _
  | aiRunnerConnectShell agentId body =>
    refine (confined_requireAiRunner hP agentId body).bind fun scope => ?_
    exact (confined_startShellSession (hP.permits _) hinsert _).bind fun _ => trivial
  | openDesktopFromShell sessionId token =>
    change Confined P (openDesktopFromShell config headers sessionId token) _
    rw [openDesktopFromShell]
    exact confined_openWith (confined_checkedSession hP ..) fun _ _ _ =>
      confined_startRemoteDesktopSession (hP.permits _) hinsert _ _ _ _ _ _
  | openFileTransferFromShell sessionId token | openRegistryFromShell sessionId token
  | openFileTransferFromSession sessionId token | openRegistryFromSession sessionId token =>
    exact confined_openWith (confined_checkedSession hP ..) fun _ _ _ => htunnel (by decide) _ _ _ _
  | openChatFromSession sessionId token =>
    change Confined P (openChatFromSession config headers sessionId token) _
    rw [openChatFromSession]
    exact confined_openWith (confined_checkedSession hP ..) fun _ _ _ => htunnel (by decide) _ _ _ _
  | _ => exact confined_quiet hP rfl

end Requests

end Talos.Server
