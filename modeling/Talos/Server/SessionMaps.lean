import Talos.Interactive.Pool
import Talos.Server.AgentIdentity
import Talos.Server.Router

/-!
# The maps of the server

The handlers of the requests and of the sockets run side by side over the directory of
agents, the five maps of sessions and the times of the snapshot requests. Each access to
a map is made under its lock. The API, the agents, the clock and the generator of UUIDs
are outside, and the reaper removes what is stale.
-/

namespace Talos.Server

open Interactive Program Rust

abbrev SessionMap := AList fun _ : String => Session

structure Maps where
  agents : AgentDirectory
  sessions : SessionKind → SessionMap
  lastSnapshotRequest : AList fun _ : String => Instant

def Maps.empty : Maps := ⟨∅, fun _ => ∅, ∅⟩

def Maps.update (maps : Maps) (kind : SessionKind) (change : SessionMap → SessionMap) : Maps :=
  { maps with sessions := Function.update maps.sessions kind (change (maps.sessions kind)) }

def SessionMap.touch (now : Instant) (touch : Touch) (sessionId : String) (sessions : SessionMap) :
    SessionMap :=
  match sessions.lookup sessionId with
  | some session => sessions.insert sessionId (touch.apply now session)
  | none => sessions

def SessionMap.eraseAll (sessions : SessionMap) : List String → SessionMap
  | [] => sessions
  | sessionId :: rest => SessionMap.eraseAll (sessions.erase sessionId) rest

/-- `SNAPSHOT_COOLDOWN_SECS`; the time since the last request counts in whole seconds. -/
def snapshotCooldownSecs : ℕ := 30

/-- What an operation answers and what it does to the maps; the answers that the maps do
not give are those from outside. -/
def Maps.perform (outside : (op : Op) → op.Answer) (maps : Maps) : (op : Op) → op.Answer × Maps
  | .getAgent agentId => (maps.agents.lookup agentId, maps)
  | .connectedAgents => (maps.agents.keys, maps)
  | .registerAgent agentId registration =>
    ((), { maps with agents := maps.agents.register agentId registration })
  | .disconnectUnlessReplaced agentId sender =>
    let result := maps.agents.disconnectUnlessReplaced agentId sender
    (result.1, { maps with agents := result.2 })
  | .getSession kind sessionId => ((maps.sessions kind).lookup sessionId, maps)
  | .listSessions kind =>
    ((maps.sessions kind).entries.map fun entry => (entry.1, entry.2), maps)
  | .insertSession kind sessionId session =>
    ((), maps.update kind (·.insert sessionId session))
  | .touchSession kind sessionId touch =>
    ((), maps.update kind (SessionMap.touch (outside .now) touch sessionId))
  | .removeSession kind sessionId =>
    (((maps.sessions kind).lookup sessionId).isSome, maps.update kind (·.erase sessionId))
  | .removeSessions kind sessionIds =>
    ((), maps.update kind (SessionMap.eraseAll · sessionIds))
  | .removeSessionOf kind sessionId agentId =>
    match (maps.sessions kind).lookup sessionId with
    | none => (some false, maps)
    | some session =>
      if session.agentId = agentId then (some true, maps.update kind (·.erase sessionId))
      else (none, maps)
  | .claimSnapshotSlot agentId =>
    let now := outside .now
    let recent := (maps.lastSnapshotRequest.lookup agentId).any fun last =>
      (now - last) / 10 ^ 9 < snapshotCooldownSecs
    if recent then (false, maps)
    else
      (true, { maps with lastSnapshotRequest := maps.lastSnapshotRequest.insert agentId now })
  | op => (outside op, maps)

/-! ## The reaper -/

/-- `UNATTACHED_SESSION_TTL`, in nanoseconds. -/
def unattachedSessionTtl : ℕ := 15 * 60 * 10 ^ 9

def isUnattachedSessionStale (createdAt : Instant) (attachedAt : Option Instant) (now : Instant) :
    Bool :=
  attachedAt.isNone && unattachedSessionTtl < now - createdAt

/-- A chat also ends when its viewer has been silent for too long, at the time when that is
looked at. -/
def isStale (kind : SessionKind) (now looked : Instant) (session : Session) : Bool :=
  isUnattachedSessionStale session.createdAt session.attachedAt now ||
    (kind = .chat && session.attachedAt.isSome &&
      session.viewerLastHeartbeatAt.any fun last => viewerHeartbeatTtl < looked - last)

/-- What the reaper does to one map, in a pass that started at `now`; it also tells the agents
of the chats. -/
structure Reap where
  kind : SessionKind
  now : Instant
  looked : String → Instant

def Reap.apply (reap : Reap) (maps : Maps) : Maps :=
  maps.update reap.kind fun sessions =>
    SessionMap.eraseAll sessions
      ((sessions.entries.filter fun entry =>
        isStale reap.kind reap.now (reap.looked entry.1) entry.2).map Sigma.fst)

/-! ## The programs -/

/-- `handle_socket` on the frames that arrive. -/
def handleSocket (socket : Socket) (agentId : Option String) : List Frame → Handler Unit
  | [] | .close :: _ => closeSocket socket.sender agentId
  | .ignored :: frames => handleSocket socket agentId frames
  | .text message :: frames => do
      let outcome ← (handleAgentMessage socket agentId message).attempt
      match outcome with
      | .ok agentId => handleSocket socket agentId frames
      | .error _ => closeSocket socket.sender agentId

inductive Work where
  | request (incoming : Request)
  | socket (opened : Socket) (frames : List Frame)

def Work.program (config : Config) : Work → Handler Unit
  | .request incoming => do
      let _ ← handle config incoming
      pure ()
  | .socket opened frames => handleSocket opened none frames

def server (config : Config) :
    System Maps Work ((op : Op) → op.Answer) Reap Op.Answer AppError Unit where
  program := Work.program config
  perform := Maps.perform
  internal := Reap.apply

abbrev ServerTask := Task Work Op.Answer AppError Unit

abbrev ServerPool := Pool Maps Work Op.Answer AppError Unit

def ServerPool.start : ServerPool := ⟨.empty, []⟩

abbrev ServerAction := Action Work ((op : Op) → op.Answer) Reap

/-! ## Who a session belongs to -/

/-- The agent and the token of a session. -/
def Session.owner (session : Session) : String × String := (session.agentId, session.token)

def Maps.owner (kind : SessionKind) (sessionId : String) (maps : Maps) : Option (String × String) :=
  ((maps.sessions kind).lookup sessionId).map Session.owner

@[simp] theorem Touch.owner_apply (now : Instant) (touch : Touch) (session : Session) :
    (touch.apply now session).owner = session.owner := by
  cases touch <;> rfl

@[simp] theorem Maps.owner_update_self (maps : Maps) (kind : SessionKind)
    (change : SessionMap → SessionMap) (sessionId : String) :
    (maps.update kind change).owner kind sessionId =
      ((change (maps.sessions kind)).lookup sessionId).map Session.owner := by
  simp [owner, update]

theorem SessionMap.owner_touch (now : Instant) (touch : Touch) (sessionId other : String)
    (sessions : SessionMap) :
    ((SessionMap.touch now touch sessionId sessions).lookup other).map Session.owner =
      (sessions.lookup other).map Session.owner := by
  rw [SessionMap.touch]
  split
  · rename_i session hsession
    by_cases hother : other = sessionId
    · subst hother
      simp [hsession]
    · rw [AList.lookup_insert_ne hother]
  · rfl

theorem SessionMap.lookup_eraseAll (sessions : SessionMap) (sessionIds : List String)
    (sessionId : String) : (sessions.eraseAll sessionIds).lookup sessionId =
      if sessionId ∈ sessionIds then none else sessions.lookup sessionId := by
  induction sessionIds generalizing sessions with
  | nil => rfl
  | cons first rest ih =>
    rw [eraseAll, ih]
    by_cases hsame : sessionId = first
    · subst hsame
      simp
    · simp [hsame, AList.lookup_erase_ne]

variable {sessionId : String} {session : Session}

theorem SessionMap.lookup_of_lookup_eraseAll {sessions : SessionMap} {sessionIds : List String}
    (hlookup : (sessions.eraseAll sessionIds).lookup sessionId = some session) :
    sessions.lookup sessionId = some session := by
  rw [lookup_eraseAll] at hlookup
  split at hlookup
  · exact nomatch hlookup
  · exact hlookup

variable {maps : Maps} {kind : SessionKind}

theorem Maps.lookup_of_lookup_update {other : SessionKind} {change : SessionMap → SessionMap}
    (hchange : other = kind → (change (maps.sessions kind)).lookup sessionId = some session →
      (maps.sessions kind).lookup sessionId = some session)
    (hlookup : ((maps.update kind change).sessions other).lookup sessionId = some session) :
    (maps.sessions other).lookup sessionId = some session := by
  by_cases hother : other = kind
  · subst hother
    simp only [update, Function.update_self] at hlookup
    exact hchange rfl hlookup
  · simpa only [update, Function.update_of_ne hother] using hlookup

theorem Reap.lookup_of_lookup_apply {reap : Reap}
    (hlookup : ((reap.apply maps).sessions kind).lookup sessionId = some session) :
    (maps.sessions kind).lookup sessionId = some session :=
  Maps.lookup_of_lookup_update (fun _ => SessionMap.lookup_of_lookup_eraseAll) hlookup

/-- The key of the record that an operation writes. -/
def Op.writes : Op → Option (SessionKind × String)
  | .insertSession kind sessionId _ | .touchSession kind sessionId _ => some (kind, sessionId)
  | _ => none

variable {outside : (op : Op) → op.Answer}

/-- A record that an operation does not write stays as it is or goes. -/
theorem Maps.lookup_of_lookup_perform {op : Op} (hwrites : op.writes ≠ some (kind, sessionId))
    (hlookup : ((maps.perform outside op).2.sessions kind).lookup sessionId = some session) :
    (maps.sessions kind).lookup sessionId = some session := by
  cases op with
  | insertSession written writtenId inserted =>
    refine lookup_of_lookup_update (fun hkind hlater => ?_) hlookup
    rwa [AList.lookup_insert_ne fun hid => hwrites (by rw [hkind, hid]; rfl)] at hlater
  | touchSession written writtenId touch =>
    refine lookup_of_lookup_update (fun hkind hlater => ?_) hlookup
    rw [SessionMap.touch] at hlater
    split at hlater
    · rwa [AList.lookup_insert_ne fun hid => hwrites (by rw [hkind, hid]; rfl)] at hlater
    · exact hlater
  | removeSession removed removedId =>
    exact lookup_of_lookup_update
      (fun _ => @SessionMap.lookup_of_lookup_eraseAll _ _ _ [removedId]) hlookup
  | removeSessions removed removedIds =>
    have hupdated : ((maps.update removed (SessionMap.eraseAll · removedIds)).sessions kind).lookup
        sessionId = some session := hlookup
    exact lookup_of_lookup_update (fun _ => SessionMap.lookup_of_lookup_eraseAll) hupdated
  | removeSessionOf removed removedId agentId =>
    rw [perform] at hlookup
    split at hlookup
    · exact hlookup
    · split at hlookup
      · exact lookup_of_lookup_update
          (fun _ => @SessionMap.lookup_of_lookup_eraseAll _ _ _ [removedId]) hlookup
      · exact hlookup
  | claimSnapshotSlot agentId =>
    rw [perform] at hlookup
    split at hlookup <;> exact hlookup
  | _ => exact hlookup

/-- Only an insertion can bring a record. -/
theorem Maps.owner_perform {op : Op} {owner : String × String}
    (howner : (maps.perform outside op).2.owner kind sessionId = some owner) :
    maps.owner kind sessionId = some owner ∨
      ∃ session, op = .insertSession kind sessionId session ∧ owner = session.owner := by
  by_cases hwrites : op.writes = some (kind, sessionId)
  · cases op with
    | insertSession written writtenId session =>
      cases hwrites
      rw [perform, owner_update_self, AList.lookup_insert] at howner
      exact .inr ⟨session, rfl, (Option.some.inj howner).symm⟩
    | touchSession written writtenId touch =>
      cases hwrites
      rw [perform, owner_update_self, SessionMap.owner_touch] at howner
      exact .inl howner
    | _ => exact nomatch hwrites
  · obtain ⟨session, hlookup, hsession⟩ := Option.map_eq_some_iff.mp howner
    rw [Maps.owner, lookup_of_lookup_perform hwrites hlookup, Option.map_some, hsession]
    exact .inl rfl

theorem Maps.owner_insertSession (outside : (op : Op) → op.Answer) (maps : Maps)
    (kind : SessionKind) (sessionId : String) (session : Session) :
    (maps.perform outside (.insertSession kind sessionId session)).2.owner kind sessionId =
      some session.owner := by
  rw [perform, owner_update_self, AList.lookup_insert, Option.map_some]

end Talos.Server
