import Talos.Rust.UrlPath
import Talos.Server.AgentSocket
import Talos.Transition.Run

/-!
# For whom a socket acts

The jobs that a socket claims, the reports it makes and the credentials it stores are for
an agent id, and only `enroll_agent` asks the API whether the registration token of the
socket may speak for that id. A snapshot or telemetry for any agent id sets the agent id of
the socket without asking, and a credential is stored without asking. Most requests name the
agent in their path, and the ids of agents and jobs go into the path as they are, so a job
id can lead to another agent.

The socket acts for enrolled agents only, if it sends snapshots, telemetry and credentials
for enrolled agents only, and no id that goes into a path is more than a plain segment.
-/

namespace Talos.Server

open Interactive Program Rust Transition

/-! ## The run of a socket -/

structure SocketState where
  history : History
  agentId : Option String
  isOpen : Bool

def SocketState.start : SocketState := ⟨[], none, true⟩

/-- A frame on the socket. Pings and binary frames that are no text are ignored. -/
inductive Frame where
  | text (message : AgentMessage)
  | ignored
  | close

/-- The handling of a message, whose error ends the loop and keeps the agent id. -/
def SocketState.handled (s : SocketState)
    (result : History × Except AppError (Option String)) : SocketState :=
  match result.2 with
  | .ok agentId => ⟨result.1, agentId, true⟩
  | .error _ => ⟨result.1, s.agentId, false⟩

/-- One turn of the loop of `handle_socket`, where `env` answers for the API and for
the other handlers. -/
def receive (env : Environment Op.Answer) (socket : Socket) (s : SocketState) (frame : Frame) :
    SocketState :=
  if s.isOpen then
    match frame with
    | .text message => s.handled (exec env s.history (handleAgentMessage socket s.agentId message))
    | .ignored => s
    | .close => { s with isOpen := false }
  else s

variable (env : Environment Op.Answer)

/-! ## Acting for an agent -/

/-- The paths of the API below which the next segment is an agent. -/
inductive AgentBase where
  | remediation | devices

def AgentBase.segments : AgentBase → List (List Char)
  | .remediation => ["rmm".toList, "telemetry".toList, "remediation".toList, "agents".toList]
  | .devices => ["rmm".toList, "devices".toList]

def AgentBase.path (base : AgentBase) (agentId : String) (rest : List String) : List Char :=
  slashed (base.segments ++ agentId.toList :: rest.map String.toList)

/-- The path of a claim, a report or a credential that names its agent there. -/
def ApiCall.path : ApiCall → Option (List Char)
  | .claimPatchJobs agentId _ => some (AgentBase.remediation.path agentId ["patch-jobs", "claim"])
  | .claimRemediationJobs agentId _ => some (AgentBase.remediation.path agentId ["jobs", "claim"])
  | .patchJobStatus agentId update =>
    some (AgentBase.remediation.path agentId ["patch-jobs", update.id, "status"])
  | .remediationStatus agentId update =>
    some (AgentBase.remediation.path agentId ["jobs", update.id, "status"])
  | .macosAccountStatus agentId _ =>
    some (AgentBase.devices.path agentId ["macos-update-account-status"])
  | .connectionStatus agentId .. => some (AgentBase.devices.path agentId ["connection-status"])
  | .storeCredential credential =>
    some (AgentBase.devices.path credential.agentId ["linux-shell-credential"])
  | _ => none

/-- The agent in the body of one that names it there. -/
def ApiCall.bodyAgent : ApiCall → Option String
  | .claimUpgradeJobs _ agentId _ | .patchCheckin agentId .. | .patchActionResult agentId _ =>
    some agentId
  | .patchProgress progress | .upgradeProgress _ progress => some progress.agentId
  | _ => none

/-- What the API reads in a segment, after the client has escaped it. -/
structure SegmentReader where
  read : List Char → List Char
  plain : ∀ segment, Plain segment → read segment = segment

variable (reader : SegmentReader)

def SegmentReader.agentBelow (segments : List (List Char)) (base : AgentBase) : Option String :=
  if base.segments.isPrefixOf segments then
    segments[base.segments.length]?.map fun segment => String.ofList (reader.read segment)
  else none

/-- The agent that a path names. -/
def SegmentReader.agent (reader : SegmentReader) (path : List Char) : Option String :=
  [.remediation, .devices].findSome? (reader.agentBelow (pathSegments path))

/-- The agent for whom an operation claims jobs, reports or stores a credential. -/
def Op.onBehalfOf : Op → Option String
  | .api asked => asked.bodyAgent.or (asked.path.bind reader.agent)
  | _ => none

variable (registrationToken : String)

/-- The agent that an event enrolls: the API accepted the token, with an
organization. -/
def enrolledBy : Event Op.Answer → Option String
  | ⟨.api (.enroll token agentId _ _ _ _), answer⟩ =>
    match answer with
    | .ok (response : EnrollmentResponse) =>
      if token = registrationToken ∧ response.enrolled ∧ trim response.organizationId ≠ "" then
        some agentId
      else none
    | .error _ => none
  | _ => none

def Enrolled (h : History) (agentId : String) : Prop :=
  ∃ event ∈ h, enrolledBy registrationToken event = some agentId

variable {h : History} {agentId : String}

theorem Enrolled.mono {token : String} {h' : History}
    (henrolled : Enrolled token h agentId) (hpre : h <+: h') : Enrolled token h' agentId := by
  obtain ⟨event, hmem, hevent⟩ := henrolled
  exact ⟨event, hpre.subset hmem, hevent⟩

/-- The operation is on behalf of an enrolled agent, or of none. -/
def ForEnrolled (h : History) (op : Op) : Prop :=
  ∀ agentId, op.onBehalfOf reader = some agentId → Enrolled registrationToken h agentId

abbrev PlainId (id : String) : Prop := Plain id.toList

/-- The socket may speak for the agent, and paths can name it. -/
def Known (h : History) (agentId : String) : Prop :=
  Enrolled registrationToken h agentId ∧ PlainId agentId

/-- What sets the agent id of the socket or stores a credential is for a known agent, or
enrolls one with a plain id, and the ids of jobs are plain. -/
def Admitted (h : History) : AgentMessage → Prop
  | .agentHello payload => PlainId payload.agentId
  | .inventoryUpdate payload => PlainId payload.agentId
  | .fullSnapshot payload => Known registrationToken h payload.agentId
  | .telemetryEvents sender _ => Known registrationToken h sender
  | .linuxShellCredential credential => Known registrationToken h credential.agentId
  | .patchJobUpdate update | .remediationJobUpdate update => PlainId update.id
  | _ => True

theorem agent_path (base : AgentBase) {rest : List String} (hid : PlainId agentId)
    (hrest : ∀ id ∈ rest, PlainId id) : reader.agent (base.path agentId rest) = some agentId := by
  have hplain : ∀ t ∈ base.segments ++ agentId.toList :: rest.map String.toList, Plain t := by
    have hbase : ∀ t ∈ base.segments, Plain t := by cases base <;> decide
    simpa [or_imp, forall_and] using ⟨hbase, hid, hrest⟩
  have hread : String.ofList (reader.read agentId.toList) = agentId := by
    rw [reader.plain _ hid, String.ofList_toList]
  unfold SegmentReader.agent AgentBase.path
  rw [pathSegments_slashed hplain (by simp)]
  cases base <;> exact congrArg some hread

/-! ## Every operation of a message -/

section Messages

variable {reader : SegmentReader} {socket : Socket} {token : String} {h : History}
  {agentId : String} {current : Option String} {α : Type}

abbrev ActsForEnrolled (reader : SegmentReader) (token : String) (h : History)
    (p : Handler α) : Prop :=
  Safe (ForEnrolled reader token) h p fun _ _ => True

/-- The socket knows the agent whose id it has afterwards. -/
abbrev LeavesKnown (token : String) (h : History)
    (outcome : Except AppError (Option String)) : Prop :=
  ∀ a, outcome = .ok (some a) → Known token h a

abbrev Quiet (reader : SegmentReader) (p : Handler α) : Prop :=
  Within (fun op : Op => op.onBehalfOf reader = none) p

theorem forEnrolled_of_quiet {op : Op} (hquiet : op.onBehalfOf reader = none) :
    ForEnrolled reader token h op := by
  intro a hacts
  rw [hquiet] at hacts
  cases hacts

variable {asked : ApiCall}

theorem forEnrolled_of_body (hbody : asked.bodyAgent = some agentId)
    (hknown : Known token h agentId) : ForEnrolled reader token h (.api asked) := by
  intro a ha
  rw [Op.onBehalfOf, hbody] at ha
  cases ha
  exact hknown.1

theorem forEnrolled_of_path {base : AgentBase} {rest : List String} (hbody : asked.bodyAgent = none)
    (hpath : asked.path = some (base.path agentId rest)) (hrest : ∀ id ∈ rest, PlainId id)
    (hknown : Known token h agentId) : ForEnrolled reader token h (.api asked) := by
  intro a ha
  rw [Op.onBehalfOf, hbody, hpath, Option.none_or, Option.bind_some,
    agent_path reader base hknown.2 hrest] at ha
  cases ha
  exact hknown.1

theorem Quiet.actsForEnrolled {p : Handler α} (hp : Quiet reader p) :
    ActsForEnrolled reader token h p :=
  hp.safe (fun _ _ _ hquiet => forEnrolled_of_quiet hquiet) fun _ _ _ _ => trivial

theorem ActsForEnrolled.leaves {p : Handler α} {next : Option String}
    (hp : ActsForEnrolled reader token h p) (hnext : ∀ a, next = some a → Known token h a) :
    Safe (ForEnrolled reader token) h (p >>= fun _ => pure next) (LeavesKnown token) := by
  refine Safe.bind hp (fun h' _ hpre _ a ha => ?_) fun _ _ _ _ a ha => by cases ha
  exact (hnext a (Except.ok.inj ha)).imp_left fun henrolled => henrolled.mono hpre

theorem quiet_sendAnswer (message : Message) : Quiet reader (sendAnswer message) := by
  simp [sendAnswer, Op.onBehalfOf]

theorem quiet_answerPoll (message : List Value → Message)
    (claimed : Except AppError (List Value)) : Quiet reader (answerPoll message claimed) := by
  cases claimed <;> exact quiet_sendAnswer _

theorem quiet_answerCheckin (requestId : Option String) (plan : Except AppError Value) :
    Quiet reader (answerCheckin agentId requestId plan) := by
  cases plan <;> exact quiet_sendAnswer _

theorem quiet_upsertTelemetryEvents (agentId : String) (events : List Value) :
    Quiet reader (upsertTelemetryEvents agentId events) := by
  simp [upsertTelemetryEvents, fetchDeviceScope, Op.onBehalfOf, ApiCall.bodyAgent, ApiCall.path]

theorem quiet_upsertFullSnapshot (payload : FullSnapshotUpdate) :
    Quiet reader (upsertFullSnapshot socket payload) := by
  simp [upsertFullSnapshot, fetchDeviceScope, Op.onBehalfOf, ApiCall.bodyAgent, ApiCall.path]

theorem safe_enrollAgent (hostname os ip : String) (version : Option String) :
    Safe (ForEnrolled reader token) h (enrollAgent token agentId hostname os ip version)
      fun h outcome => ∀ response, outcome = .ok response → Enrolled token h agentId := by
  have hquiet : ForEnrolled reader token h
      (.api (.enroll token agentId hostname os ip version)) := forEnrolled_of_quiet rfl
  simp only [enrollAgent, safe_bind_iff, safe_request, safe_ensure, safe_pure, hquiet, true_and]
  refine ⟨fun response => ⟨fun henrolled => ⟨fun horganization _ _ => ?_, ?_⟩, ?_⟩, ?_⟩
  · refine ⟨_, List.mem_append_right _ (List.mem_singleton_self _), ?_⟩
    exact if_pos ⟨rfl, henrolled, of_decide_eq_true horganization⟩
  · exact fun _ _ hok => by cases hok
  · exact fun _ _ hok => by cases hok
  · exact fun _ _ hok => by cases hok

theorem acts_connected (hquiet : (Op.api asked).onBehalfOf reader = none)
    (hknown : Known token h agentId) (organizationId : Option String) (status : String)
    (version : Option String) (registration : AgentRegistration) :
    ActsForEnrolled reader token h (request asked >>= fun _ =>
      ask (.api (.connectionStatus agentId organizationId status version)) >>= fun _ =>
        ask (.registerAgent agentId registration)) := by
  simp only [ActsForEnrolled, safe_bind_iff, safe_request, safe_ask]
  refine ⟨forEnrolled_of_quiet hquiet, fun response => ⟨?_, fun _ => ⟨?_, fun _ => trivial⟩⟩,
    fun _ => trivial⟩
  · exact @forEnrolled_of_path _ _ _ _ _ .devices ["connection-status"] rfl rfl (by decide)
      (hknown.imp_left fun henrolled => henrolled.mono (List.prefix_append _ _))
  · exact forEnrolled_of_quiet rfl

/-- An agent introduces itself: it is known once it is enrolled. -/
theorem safe_introduction {f : EnrollmentResponse → Handler Unit} (hostname os ip : String)
    (version : Option String) (hid : PlainId agentId)
    (hf : ∀ h' response, Known token h' agentId → ActsForEnrolled reader token h' (f response)) :
    Safe (ForEnrolled reader token) h
      ((enrollAgent token agentId hostname os ip version >>= f) >>= fun _ => pure (some agentId))
      (LeavesKnown token) := by
  refine Safe.bind (R := fun h' outcome => ∀ u, outcome = .ok u → Known token h' agentId) ?_
    (fun h' u _ hknown a ha => ?_) fun _ _ _ _ a ha => by cases ha
  · refine (safe_enrollAgent hostname os ip version).bind (fun h' response _ henrolled => ?_)
      fun _ _ _ _ u hu => by cases hu
    have hknown : Known token h' agentId := ⟨henrolled response rfl, hid⟩
    refine (hf h' response hknown).mono fun h'' _ hpre _ _ _ => ?_
    exact hknown.imp_left fun henrolled => henrolled.mono hpre
  · cases ha
    exact hknown u rfl

theorem acts_withAgent {act : String → Handler Unit}
    (hcurrent : ∀ a, current = some a → Known token h a)
    (hact : ∀ a, Known token h a → ActsForEnrolled reader token h (act a)) :
    Safe (ForEnrolled reader token) h (withAgent current act >>= fun _ => pure current)
      (LeavesKnown token) := by
  refine ActsForEnrolled.leaves ?_ hcurrent
  cases current with
  | none => trivial
  | some a => exact hact a (hcurrent a rfl)

theorem acts_report (hasked : ForEnrolled reader token h (.api asked)) :
    ActsForEnrolled reader token h (report asked) := ⟨hasked, fun _ => trivial⟩

/-- A rejected report does nothing, and the others are for the agent of the socket. -/
theorem acts_reportProgress {connected : String}
    (hasked : agentId = connected → ForEnrolled reader token h (.api asked)) :
    ActsForEnrolled reader token h (reportProgress connected agentId asked) := by
  by_cases hsame : agentId = connected
  · rw [reportProgress, if_neg (not_not_intro hsame)]
    exact acts_report (hasked hsame)
  · rw [reportProgress, if_pos hsame]
    trivial

theorem acts_handleAgentMessage {message : AgentMessage}
    (hcurrent : ∀ a, current = some a → Known socket.registrationToken h a)
    (hadmitted : Admitted socket.registrationToken h message) :
    Safe (ForEnrolled reader socket.registrationToken) h (handleAgentMessage socket current message)
      (LeavesKnown socket.registrationToken) := by
  cases message with
  | unparsable => exact fun a ha => by cases ha
  | unknown => exact fun a ha => hcurrent a (Except.ok.inj ha)
  | response =>
    exact ActsForEnrolled.leaves ⟨forEnrolled_of_quiet rfl, fun _ => trivial⟩ hcurrent
  | agentHello payload | inventoryUpdate payload =>
    exact safe_introduction _ _ _ _ hadmitted fun h' response hknown =>
      acts_connected rfl hknown _ _ _ _
  | fullSnapshot payload =>
    refine (quiet_upsertFullSnapshot payload).actsForEnrolled.leaves fun a ha => ?_
    cases ha
    exact hadmitted
  | telemetryEvents sender events =>
    refine (quiet_upsertTelemetryEvents sender events).actsForEnrolled.leaves fun a ha => ?_
    cases ha
    exact hadmitted
  | patchJobsPoll | remediationJobsPoll =>
    refine acts_withAgent hcurrent fun a hknown => ⟨?_, fun claimed =>
      (quiet_answerPoll _ claimed).actsForEnrolled⟩
    exact forEnrolled_of_path rfl rfl (by decide) hknown
  | featureUpgradeJobsPoll =>
    exact acts_withAgent hcurrent fun a hknown => ⟨forEnrolled_of_body rfl hknown, fun claimed =>
      (quiet_answerPoll _ claimed).actsForEnrolled⟩
  | patchStateCheckin =>
    exact acts_withAgent hcurrent fun a hknown => ⟨forEnrolled_of_body rfl hknown, fun plan =>
      (quiet_answerCheckin _ plan).actsForEnrolled⟩
  | patchActionResult =>
    exact acts_withAgent hcurrent fun a hknown => acts_report (forEnrolled_of_body rfl hknown)
  | patchJobUpdate update | remediationJobUpdate update =>
    refine acts_withAgent hcurrent fun a hknown =>
      acts_report (forEnrolled_of_path rfl rfl ?_ hknown)
    simpa using ⟨by decide, hadmitted, by decide⟩
  | patchJobProgress | featureUpgradeProgress =>
    refine acts_withAgent hcurrent fun a hknown => acts_reportProgress fun hsame => ?_
    exact forEnrolled_of_body rfl (hsame ▸ hknown)
  | macosUpdateAccountStatus =>
    refine acts_withAgent hcurrent fun a hknown => acts_reportProgress fun _ => ?_
    exact forEnrolled_of_path rfl rfl (by decide) hknown
  | linuxShellCredential credential =>
    refine ActsForEnrolled.leaves ?_ fun a ha => by cases ha; exact hadmitted
    simp only [storeLinuxShellCredential, ActsForEnrolled, safe_bind_iff, safe_request, safe_ensure]
    refine ⟨forEnrolled_of_path rfl rfl (by decide) hadmitted, fun stored => ⟨fun _ => ?_,
      fun _ => trivial⟩, fun _ => trivial⟩
    exact (quiet_sendAnswer _).actsForEnrolled

end Messages

/-! ## Every run of a socket -/

def FrameAdmitted (socket : Socket) (s : SocketState) : Frame → Prop
  | .text message => s.isOpen = true → Admitted socket.registrationToken s.history message
  | _ => True

/-- The socket has acted for enrolled agents, and has the id of a known one. -/
structure Speaks (reader : SegmentReader) (socket : Socket) (s : SocketState) : Prop where
  acted : Obeys (ForEnrolled reader socket.registrationToken) s.history
  known : ∀ a, s.agentId = some a → Known socket.registrationToken s.history a

theorem Speaks.receive {reader : SegmentReader} {socket : Socket} {s : SocketState} {frame : Frame}
    (hs : Speaks reader socket s) (hframe : FrameAdmitted socket s frame) :
    Speaks reader socket (receive env socket s frame) := by
  by_cases hopen : s.isOpen = true
  · cases frame with
    | ignored | close =>
      rw [Server.receive, if_pos hopen]
      exact ⟨hs.acted, hs.known⟩
    | text message =>
      obtain ⟨hacted, hleaves⟩ :=
        (acts_handleAgentMessage hs.known (hframe hopen)).exec hs.acted env
      have hpre := prefix_exec env s.history (handleAgentMessage socket s.agentId message)
      rw [Server.receive, if_pos hopen]
      rcases hresult : exec env s.history (handleAgentMessage socket s.agentId message) with
        ⟨h', e | next⟩
      · rw [hresult] at hacted hpre
        exact ⟨hacted, fun a ha => (hs.known a ha).imp_left fun henrolled => henrolled.mono hpre⟩
      · rw [hresult] at hacted hleaves
        exact ⟨hacted, fun a ha => hleaves a (congrArg _ ha)⟩
  · rw [Server.receive.eq_def, if_neg hopen]
    exact hs

/-- However the API behaves, a socket whose frames are all admitted acts for agents only that
it has enrolled before. -/
theorem socket_acts_for_enrolled (reader : SegmentReader) (env : Environment Op.Answer)
    (socket : Socket) (frames : List Frame)
    (hframes : along (receive env socket) (FrameAdmitted socket) .start frames) :
    Obeys (ForEnrolled reader socket.registrationToken)
      (run (receive env socket) .start frames).history :=
  (run_invariant_along (P := Speaks reader socket) (fun _ _ hs hframe => hs.receive env hframe)
    ⟨throughout_nil, fun _ ha => by cases ha⟩ hframes).acted

/-! ## Sockets that act for others -/

instance (token : String) (h : History) (agentId : String) :
    Decidable (Enrolled token h agentId) :=
  inferInstanceAs (Decidable (∃ event ∈ h, _))

def SegmentReader.exact : SegmentReader := ⟨id, fun _ _ => rfl⟩

def actedFor (h : History) : List String :=
  h.filterMap fun event => event.op.onBehalfOf .exact

theorem not_obeys_of_not_enrolled {token : String} {a : String} (hacted : a ∈ actedFor h)
    (hnot : ¬Enrolled token h a) : ¬Obeys (ForEnrolled .exact token) h := by
  intro hobeys
  obtain ⟨event, hmem, hacts⟩ := List.mem_filterMap.mp hacted
  obtain ⟨before, after, rfl⟩ := List.append_of_mem hmem
  exact hnot ((hobeys before event after rfl a hacts).mono (List.prefix_append _ _))

/-- An API that enrolls nobody, knows the devices and accepts telemetry and
credentials. -/
def enrollsNobody : Environment Op.Answer := fun _ op =>
  match op with
  | .api (.deviceScope _) => .ok ⟨"organization", none, none⟩
  | .api (.ingestEvents ..) => .ok true
  | .api (.storeCredential credential) => .ok ⟨true, credential.credentialId, "now"⟩
  | .api (.claimRemediationJobs ..) => .ok []
  | .api _ => .error (.forbidden "agent enrollment was rejected")
  | .uuid => ""
  | .now => (0 : ℕ)
  | .getAgent _ => none
  | .connectedAgents => []
  | .registerAgent .. => ()
  | .disconnectUnlessReplaced .. => true
  | .getSession .. => none
  | .listSessions _ => []
  | .insertSession .. | .touchSession .. | .removeSessions .. | .deliver => ()
  | .removeSession .. => false
  | .removeSessionOf .. => none
  | .claimSnapshotSlot _ => true
  | .send .. | .answer _ => true
  | .awaitDetails _ => none
  | .awaitShellOutput _ => none
  | .awaitRdpSessions _ => none
  | .awaitCapabilities _ => none
  | .awaitQuicReflex _ => none
  | .awaitShellOffer _ => .timedOut

def enrollsAll : Environment Op.Answer := fun h op =>
  match op with
  | .api (.enroll ..) => .ok ⟨true, "organization"⟩
  | .api (.upsertDevice ..) => .ok ()
  | op => enrollsNobody h op

def strangerSocket : Socket := ⟨"token", 0, false⟩

def victimCredential : LinuxShellCredential := ⟨"victim", "talos", "secret", "credential", 1, "now"⟩

def hello (agentId : String) : AgentMessage :=
  .agentHello ⟨agentId, "host", "Windows", "ip", none, none, true, .windows, .windows⟩

theorem socket_acts_for_enrolled_own :
    "own" ∈ actedFor (run (receive enrollsAll strangerSocket) .start [.text (hello "own"),
        .text (.telemetryEvents "own" []),
        .text (.patchJobUpdate ⟨"42", "done", none, none⟩)]).history ∧
      Obeys (ForEnrolled .exact "token") (run (receive enrollsAll strangerSocket) .start
        [.text (hello "own"), .text (.telemetryEvents "own" []),
          .text (.patchJobUpdate ⟨"42", "done", none, none⟩)]).history := by
  refine ⟨by decide +kernel, socket_acts_for_enrolled .exact enrollsAll strangerSocket _ ?_⟩
  exact ⟨fun _ => (by decide : PlainId "own"), fun _ => ⟨by decide +kernel, by decide⟩,
    fun _ => (by decide : PlainId "42"), trivial⟩

/-- Telemetry for another agent makes the next poll claim the jobs of that agent, a
credential is stored for any agent, and an enrolled agent reports for another one by the id
of a job. -/
theorem unenrolled_socket_acts_for_victim :
    ¬Obeys (ForEnrolled .exact "token") (run (receive enrollsNobody strangerSocket) .start
      [.text (.telemetryEvents "victim" []), .text (.remediationJobsPoll "request" none)]).history ∧
    ¬Obeys (ForEnrolled .exact "token") (run (receive enrollsNobody strangerSocket) .start
      [.text (.linuxShellCredential victimCredential)]).history ∧
    ¬Obeys (ForEnrolled .exact "token") (run (receive enrollsAll strangerSocket) .start
      [.text (hello "own"), .text (.patchJobUpdate
        ⟨"../../victim/patch-jobs/42", "done", none, none⟩)]).history :=
  ⟨not_obeys_of_not_enrolled (a := "victim") (by decide +kernel) (by decide +kernel),
    not_obeys_of_not_enrolled (a := "victim") (by decide +kernel) (by decide +kernel),
    not_obeys_of_not_enrolled (a := "victim") (by decide +kernel) (by decide +kernel)⟩

end Talos.Server
