import Talos.Server.SocketFootprint

/-!
# Where the ids of sessions come from

A handler inserts at most one record, and its id is a UUID that the handler has
generated. The one exception is the shell session of a user who names an id and a token
in the query. A shell record is for the agent of the path, with the token of the query or
the UUID that was generated last.
-/

namespace Talos.Server

open Interactive Program Rust

-- no text is compared here, and unfolding the comparisons is slow
attribute [local irreducible] trim

/-- The id and the token that a user names in the query. -/
def Work.reuse : Work → Option (String × String)
  | .request ⟨headers, .connectShell _ query⟩ =>
    match query.session, query.token with
    | some sessionId, some token =>
      if (extractBearer headers).isSome then some (sessionId, token) else none
    | _, _ => none
  | _ => none

variable (work : Work)

def Work.named : Option String := work.reuse.map Prod.fst

/-- The agent in the path of a request for a shell. -/
def Work.shellAgent : Work → Option String
  | .request ⟨_, .connectShell agentId _⟩ => some agentId
  | .request ⟨_, .aiRunnerConnectShell agentId _⟩ => some agentId
  | _ => none

def generatedUuid : Event Op.Answer → Option String
  | ⟨.uuid, id⟩ => some id
  | _ => none

/-- The agent of the path, with the token of the query or the last UUID. -/
def shellOwner (h : History) : Option (String × String) :=
  work.shellAgent.bind fun agentId =>
    ((work.reuse.map Prod.snd).or (h.filterMap generatedUuid).getLast?).map (agentId, ·)

def NoInsertion (h : History) : Prop := ∀ event ∈ h, event.op.inserts = false

/-- The handler has generated the id and inserted nothing yet, or it is the id that the
request names for a shell. -/
def Supplied (kind : SessionKind) (id : String) (h : History) : Prop :=
  (NoInsertion h ∧ ⟨.uuid, id⟩ ∈ h) ∨ (kind = .shell ∧ work.named = some id)

def InsertsFresh (h : History) (op : Op) : Prop :=
  ∀ kind id session, op = .insertSession kind id session →
    Supplied work kind id h ∧ (kind = .shell → shellOwner work h = some session.owner)

abbrev InsertsNothing {α : Type} (p : Handler α) : Prop :=
  Within (fun op : Op => op.inserts = false) p

abbrev FreshIds {α : Type} (h : History) (p : Handler α) : Prop :=
  Safe (InsertsFresh work) h p fun _ _ => True

theorem insertless : Ordinary fun op : Op => op.inserts = false := ⟨fun _ hop _ => hop⟩

/-! ## Rules -/

section Rules

variable {α β : Type} {work : Work} {kind : SessionKind} {id : String}
  {h : History}

theorem noInsertion_nil : NoInsertion [] := List.forall_mem_nil _

theorem NoInsertion.concat (hh : NoInsertion h) {op : Op} (hop : op.inserts = false)
    (answer : op.Answer) : NoInsertion (h ++ [⟨op, answer⟩]) := by
  intro event hmem
  rcases List.mem_append.mp hmem with hold | hnew
  · exact hh event hold
  · cases List.mem_singleton.mp hnew
    exact hop

theorem Supplied.concat (hid : Supplied work kind id h) {op : Op} (hop : op.inserts = false)
    (answer : op.Answer) : Supplied work kind id (h ++ [⟨op, answer⟩]) := by
  rcases hid with ⟨hnone, hmem⟩ | hnamed
  · exact .inl ⟨hnone.concat hop answer, List.mem_append_left _ hmem⟩
  · exact .inr hnamed

theorem insertsFresh_of_not_inserts {op : Op} (hop : op.inserts = false) :
    InsertsFresh work h op := by
  rintro kind id session rfl
  exact nomatch hop

theorem insertsNothing_ask {op : Op} (hop : op.inserts = false) : InsertsNothing (ask op) :=
  ⟨hop, fun _ => trivial⟩

variable {p : Handler α}

theorem InsertsNothing.freshIds (hp : InsertsNothing p) : FreshIds work h p :=
  hp.safe (fun _ _ _ hop => insertsFresh_of_not_inserts hop) fun _ _ _ _ => trivial

variable {f : α → Handler β}

/-- A part that inserts nothing keeps what is known about the history. -/
theorem freshIds_bind {J : History → Prop} {P : Op → Prop} (hp : Within P p)
    (hP : ∀ op, P op → op.inserts = false)
    (hkeep : ∀ h op answer, J h → P op → J (h ++ [⟨op, answer⟩])) (hh : J h)
    (hf : ∀ h' a, J h' → FreshIds work h' (f a)) : FreshIds work h (p >>= f) := by
  refine Safe.bind (R := fun h' _ => J h') ?_ (fun h' a _ hmid => hf h' a hmid)
    fun _ _ _ _ => trivial
  exact hp.safe_of_invariant hkeep (fun _ op _ hop => insertsFresh_of_not_inserts (hP op hop))
    (fun _ _ hmid _ => hmid) hh

theorem NoInsertion.bind (hh : NoInsertion h) (hp : InsertsNothing p)
    (hf : ∀ h' a, NoInsertion h' → FreshIds work h' (f a)) : FreshIds work h (p >>= f) :=
  freshIds_bind hp (fun _ hop => hop) (fun _ _ answer hh hop => hh.concat hop answer) hh hf

theorem Supplied.bind (hid : Supplied work kind id h) (hp : InsertsNothing p)
    (hf : ∀ h' a, Supplied work kind id h' → FreshIds work h' (f a)) : FreshIds work h (p >>= f) :=
  freshIds_bind hp (fun _ hop => hop) (fun _ _ answer hid hop => hid.concat hop answer) hid hf

theorem freshIds_uuid (kind : SessionKind) {f : String → Handler β} (hh : NoInsertion h)
    (hf : ∀ h' id, Supplied work kind id h' → FreshIds work h' (f id)) :
    FreshIds work h (ask .uuid >>= f) :=
  ⟨insertsFresh_of_not_inserts rfl, fun id => hf _ id (.inl ⟨hh.concat rfl id, by simp⟩)⟩

theorem Supplied.insert {session : Session} {f : Unit → Handler β} (hid : Supplied work kind id h)
    (howner : kind = .shell → shellOwner work h = some session.owner)
    (hf : InsertsNothing (f ())) :
    FreshIds work h (ask (.insertSession kind id session) >>= f) := by
  refine ⟨?_, fun _ => hf.freshIds⟩
  rintro _ _ _ ⟨⟩
  exact ⟨hid, howner⟩

theorem freshIds_discard (hp : FreshIds work h p) (hf : ∀ a, InsertsNothing (f a)) :
    FreshIds work h (p >>= f) :=
  Safe.bind hp (fun _ a _ _ => (hf a).freshIds) fun _ _ _ _ => trivial

end Rules

/-! ## Starts -/

section Start

variable {work : Work} {config : Config} {agentId : String} {h : History}

theorem freshIds_startTunnelSession {tunnel : TunnelKind} (hkind : tunnel.kind ≠ .shell)
    (hh : NoInsertion h) (apiBase : Option String) (viewerIdentity : Option ViewerIdentity)
    (parent : Option String) :
    FreshIds work h (startTunnelSession tunnel config agentId apiBase viewerIdentity parent) := by
  have hquiet := insertless.permits agentId
  refine hh.bind (confined_getConnectedAgent hquiet) fun h agent hh => ?_
  refine freshIds_uuid tunnel.kind hh fun h sessionId hid => ?_
  refine hid.bind (insertsNothing_ask rfl) fun h token hid => ?_
  refine hid.bind (confined_requestCapabilities hquiet agent)
    fun h capabilities hid => ?_
  refine hid.bind (by simp) fun h _ hid => ?_
  refine hid.bind (confined_sendTo hquiet agent _) fun h _ hid => ?_
  refine hid.bind (insertsNothing_ask rfl) fun h result hid => ?_
  refine hid.bind (insertsNothing_ask rfl) fun h now hid => ?_
  refine hid.insert (fun hshell => absurd hshell hkind) ?_
  exact (confined_auditSession hquiet _ _ _ _).bind fun _ => trivial

theorem freshIds_startRemoteDesktopSession (hh : NoInsertion h) (apiBase : Option String)
    (deepLinkMode : String) (mode : SessionTransportMode) (viewerIdentity : Option ViewerIdentity)
    (displayProfilePreference : Option (List String)) (hideCursor : Bool) :
    FreshIds work h
      (startRemoteDesktopSession config agentId apiBase deepLinkMode mode viewerIdentity
        displayProfilePreference hideCursor) := by
  have hquiet := insertless.permits agentId
  refine hh.bind (confined_getConnectedAgent hquiet) fun h agent hh => ?_
  refine freshIds_uuid .desktop hh fun h sessionId hid => ?_
  refine hid.bind (insertsNothing_ask rfl) fun h token hid => ?_
  refine hid.bind (confined_requestCapabilities hquiet agent)
    fun h capabilities hid => ?_
  refine hid.bind (by simp) fun h profile hid => ?_
  refine hid.bind (by simp) fun h _ hid => ?_
  refine safe_ite.mpr ⟨fun _ => ?_, fun _ => ?_⟩
  all_goals
    refine hid.bind ?_ fun h prepared hid => ?_
  · exact confined_prepareHeadless hquiet agent _ _ _ _
  rotate_left
  · exact confined_prepareDesktopWithFallback hquiet agent _ _ _ _ _
  all_goals
    refine hid.bind (insertsNothing_ask rfl) fun h now hid => ?_
    refine hid.insert (fun hshell => by cases hshell) ?_
    exact (confined_auditSession hquiet _ _ _ _).bind fun _ => trivial

/-- The id is supplied, and the record is for the agent with the token. -/
structure ShellKnown (work : Work) (agentId : String) (key : String × String)
    (h : History) : Prop where
  supplied : Supplied work .shell key.1 h
  owner : shellOwner work h = some (agentId, key.2)

theorem freshIds_shellSessionKey {β : Type} {f : String × String → Handler β} (hh : NoInsertion h)
    (hagent : work.shellAgent = some agentId)
    (hf : ∀ h' key, ShellKnown work agentId key h' → FreshIds work h' (f key)) :
    FreshIds work h (shellSessionKey work.reuse >>= f) := by
  cases hreuse : work.reuse with
  | some key =>
    refine hf h key ⟨.inr ⟨rfl, by rw [Work.named, hreuse]; rfl⟩, ?_⟩
    simp [shellOwner, hagent, hreuse]
  | none =>
    refine freshIds_uuid .shell hh fun h sessionId hid => ?_
    refine ⟨insertsFresh_of_not_inserts rfl, fun token => ?_⟩
    refine hf _ (sessionId, token) ⟨hid.concat rfl token, ?_⟩
    simp [shellOwner, hagent, hreuse, generatedUuid]

/-- Operations after the key is known. -/
def Silent (op : Op) : Prop := op.inserts = false ∧ ∀ answer, generatedUuid ⟨op, answer⟩ = none

theorem ShellKnown.bind {α β : Type} {p : Handler α} {f : α → Handler β} {key : String × String}
    (hkey : ShellKnown work agentId key h) (hp : Within Silent p)
    (hf : ∀ h' a, ShellKnown work agentId key h' → FreshIds work h' (f a)) :
    FreshIds work h (p >>= f) := by
  refine freshIds_bind hp (fun _ hop => hop.1) (fun h op answer hkey hop => ?_) hkey hf
  refine ⟨hkey.supplied.concat hop.1 answer, ?_⟩
  rw [← hkey.owner, shellOwner, List.filterMap_append, List.filterMap_cons_none (hop.2 answer),
    List.filterMap_nil, List.append_nil]
  rfl

theorem freshIds_startShellSession (hh : NoInsertion h) (options : ShellSessionStartOptions)
    (hagent : work.shellAgent = some agentId) (hreuse : options.reuseSession = work.reuse) :
    FreshIds work h (startShellSession config agentId options) := by
  refine hh.bind (confined_getConnectedAgent (insertless.permits agentId)) fun h agent hh => ?_
  refine hh.bind (by simp) fun h _ hh => ?_
  rw [hreuse]
  refine freshIds_shellSessionKey hh hagent fun h key hkey => ?_
  refine hkey.bind (by simp [sendTo, Silent, Op.inserts, generatedUuid]) fun h _ hkey => ?_
  refine hkey.bind ⟨⟨rfl, fun _ => rfl⟩, ?_⟩ fun h offer hkey => ?_
  · rintro (offer | message | _ | _) <;> trivial
  · refine hkey.bind ⟨⟨rfl, fun _ => rfl⟩, fun _ => trivial⟩ fun h now hkey => ?_
    exact hkey.supplied.insert (fun _ => hkey.owner) (by simp [logAuditEvent, Op.inserts])

end Start

/-! ## Requests that start a session -/

section Starting

variable {config : Config} {headers : HeaderMap} {work : Work}

theorem freshIds_connectWith {agentId : String}
    {start : Option String → Option ViewerIdentity → Handler ConnectResponse}
    (hstart : ∀ h apiBase viewerIdentity, NoInsertion h →
      FreshIds work h (start apiBase viewerIdentity)) :
    FreshIds work [] (connectWith headers agentId start) := by
  refine noInsertion_nil.bind (confined_requireUserContext insertless headers) fun h user hh => ?_
  refine hh.bind (confined_requireDeviceScope insertless agentId user) fun h _ hh => ?_
  exact freshIds_discard (hstart h _ _ hh) fun _ => trivial

theorem freshIds_openWith {parent : Handler Session} (hparent : InsertsNothing parent)
    {start : String → Option String → Option ViewerIdentity → Handler ConnectResponse}
    (hstart : ∀ h agentId apiBase viewerIdentity, NoInsertion h →
      FreshIds work h (start agentId apiBase viewerIdentity)) :
    FreshIds work [] (openWith parent headers start) := by
  refine noInsertion_nil.bind hparent fun h session hh => ?_
  exact freshIds_discard (hstart h _ _ _ hh) fun _ => trivial

variable (agentId : String) (body : InternalAiRunnerConnectRequest)

theorem freshIds_connectAiRunnerDesktop :
    FreshIds work [] (connectAiRunnerDesktopSessionInternal config headers agentId body) := by
  refine noInsertion_nil.bind (confined_requireAiRunner insertless agentId body)
    fun h scope hh => ?_
  exact freshIds_discard (freshIds_startRemoteDesktopSession hh _ _ _ _ _ _)
    fun response => confined_aiRunnerAudit insertless scope agentId _ response

theorem freshIds_connectAiRunnerChat :
    FreshIds work [] (connectAiRunnerChatApprovalInternal config headers agentId body) := by
  refine noInsertion_nil.bind (confined_requireAiRunner insertless agentId body)
    fun h scope hh => ?_
  exact freshIds_discard (freshIds_startTunnelSession (by decide) hh _ _ _)
    fun response => confined_aiRunnerAudit insertless scope agentId _ response

theorem freshIds_connectAiRunnerShell :
    FreshIds (.request ⟨headers, .aiRunnerConnectShell agentId body⟩) []
      (connectAiRunnerShellSessionInternal config headers agentId body) := by
  refine noInsertion_nil.bind (confined_requireAiRunner insertless agentId body)
    fun h scope hh => ?_
  exact freshIds_discard (freshIds_startShellSession hh _ rfl rfl) fun _ => trivial

/-- The session that an authorization reuses is the one that the request names. -/
def ReusesNamed (headers : HeaderMap) (agentId : String) (query : ShellConnectQuery)
    (outcome : Except AppError ShellConnectAuth) : Prop :=
  ∀ auth, outcome = .ok auth →
    auth.reuseSession query = Work.reuse (.request ⟨headers, .connectShell agentId query⟩)

/-- Only a user with a bearer token names a session. -/
theorem confined_shellConnectAuth (query : ShellConnectQuery) :
    Confined (fun op : Op => op.inserts = false) (shellConnectAuth headers agentId query)
      (ReusesNamed headers agentId query) := by
  have herror (e : AppError) : ReusesNamed headers agentId query (.error e) :=
    fun _ hok => nomatch hok
  refine confined_ite.mpr ⟨fun hbearer => ?_, fun hbearer => ?_⟩
  · refine (confined_requireUserContext insertless headers).then herror fun user => ?_
    refine (confined_requireDeviceScope insertless agentId user).then herror fun scope => ?_
    rintro _ ⟨⟩
    rcases query with ⟨_, _, _ | sessionId, _ | token⟩ <;>
      simp [Work.reuse, ShellConnectAuth.reuseSession, hbearer]
  · have htoken (viewer : Option ViewerIdentity) :
        ReusesNamed headers agentId query (.ok (.sessionToken viewer)) := by
      rintro _ ⟨⟩
      rcases query with ⟨_, _, _ | sessionId, _ | token⟩ <;>
        simp [Work.reuse, ShellConnectAuth.reuseSession, hbearer]
    split
    · refine (confined_checkedSession insertless ..).then herror fun session => ?_
      exact Within.then (by simp) herror fun _ => htoken _
    · exact herror _

theorem freshIds_connectShell (query : ShellConnectQuery) :
    FreshIds (.request ⟨headers, .connectShell agentId query⟩) []
      (connectShell config headers agentId query) := by
  refine Safe.bind (R := fun h outcome => NoInsertion h ∧ ReusesNamed headers agentId query outcome)
    ?_ (fun h auth _ hauth => ?_) fun _ _ _ _ => trivial
  · exact (confined_shellConnectAuth agentId query).safe_of_invariant
      (fun _ _ answer hh hop => hh.concat hop answer)
      (fun _ _ _ hop => insertsFresh_of_not_inserts hop) (fun _ _ hh hout => ⟨hh, hout⟩)
      noInsertion_nil
  · have hscope : InsertsNothing (auth.auditScope agentId) := by
      cases auth with
      | bearer user scope => trivial
      | sessionToken viewerIdentity =>
        exact confined_fetchDeviceScope (insertless.permits agentId) _
    refine hauth.1.bind hscope fun h auditScope hh => ?_
    exact freshIds_discard (freshIds_startShellSession hh _ rfl (hauth.2 auth rfl)) fun _ => trivial

end Starting

/-! ## Every program -/

section Programs

variable {config : Config}

theorem freshIds_handle (headers : HeaderMap) (route : Route) :
    FreshIds (.request ⟨headers, route⟩) [] (handle config ⟨headers, route⟩) := by
  cases route with
  | connect =>
    simp only [handle, connectDevice]
    exact freshIds_connectWith fun _ _ _ hh => freshIds_startRemoteDesktopSession hh _ _ _ _ _ _
  | connectFileTransfer | connectRegistry =>
    simp only [handle, connectFileTransfer, connectRegistry]
    exact freshIds_connectWith fun _ _ _ hh => freshIds_startTunnelSession (by decide) hh _ _ _
  | connectShell agentId query => exact freshIds_connectShell agentId query
  | aiRunnerConnect agentId body => exact freshIds_connectAiRunnerDesktop agentId body
  | aiRunnerChatApproval agentId body => exact freshIds_connectAiRunnerChat agentId body
  | aiRunnerConnectShell agentId body => exact freshIds_connectAiRunnerShell agentId body
  | openDesktopFromShell =>
    simp only [handle, openDesktopFromShell]
    exact freshIds_openWith (confined_checkedSession insertless ..)
      fun _ _ _ _ hh => freshIds_startRemoteDesktopSession hh _ _ _ _ _ _
  | openFileTransferFromShell | openRegistryFromShell | openFileTransferFromSession
  | openRegistryFromSession | openChatFromSession =>
    simp only [handle, openFileTransferFromShell, openRegistryFromShell,
      openFileTransferFromSession, openRegistryFromSession, openChatFromSession]
    exact freshIds_openWith (confined_checkedSession insertless ..)
      fun _ _ _ _ hh => freshIds_startTunnelSession (by decide) hh _ _ _
  | _ => exact InsertsNothing.freshIds (confined_quiet insertless rfl)

theorem freshIds_program (work : Work) : FreshIds work [] (work.program config) := by
  cases work with
  | request incoming => exact freshIds_discard (freshIds_handle _ _) fun _ => trivial
  | socket opened frames =>
    exact InsertsNothing.freshIds
      (confined_handleSocket insertless none frames (fun _ _ _ => rfl) fun _ => rfl)

end Programs

end Talos.Server
