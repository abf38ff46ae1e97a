import Talos.Server.StaleDisconnect

/-!
# Sessions that nobody attaches to

The reaper removes a session that is older than 15 minutes and has no mark of a viewer.
Every request of a viewer marks the record, a relay before it is known whether the agent
can be told. The start of a shell marks the record itself, so a shell that no viewer ever
asks for stays.

Whether a record is marked is read off the log: it is a shell, or some request has touched
it since it was last inserted.
-/

namespace Talos.Server

open Interactive Program Transition System

/-! ## Requests of viewers -/

/-- The session that a request of a viewer is about, with the token of the request. -/
def Route.viewerOf : Route → Option (SessionKind × String × String)
  | .viewerReflex kind sessionId token _ | .viewerConnected kind sessionId token
  | .viewerHeartbeat kind sessionId token | .requestRelay kind sessionId token =>
    some (kind, sessionId, token)
  | _ => none

def Work.viewerOf : Work → Option (SessionKind × String × String)
  | .request incoming => incoming.route.viewerOf
  | .socket .. => none

def accepted (task : ServerTask) : Bool :=
  match task.rest with
  | .done (.ok _) => true
  | _ => false

def NoneAccepted (p : ServerPool) (kind : SessionKind) (sessionId token : String) : Prop :=
  ∀ task ∈ p.tasks, task.work.viewerOf = some (kind, sessionId, token) → accepted task = false

instance (p : ServerPool) (kind : SessionKind) (sessionId token : String) :
    Decidable (NoneAccepted p kind sessionId token) :=
  inferInstanceAs (Decidable (∀ task ∈ p.tasks, _))

/-- A session is gone when its map has been reaped for the time `now`, if it is too old by
then and no request of a viewer with its token was accepted. -/
def Expires (p : ServerPool) (kind : SessionKind) (sessionId : String) (now : Instant)
    (looked : String → Instant) : Prop :=
  ∀ session ∈ (p.memory.sessions kind).lookup sessionId,
    unattachedSessionTtl < now - session.createdAt →
    NoneAccepted p kind sessionId session.token →
    ((Reap.apply ⟨kind, now, looked⟩ p.memory).sessions kind).lookup sessionId = none

instance (p : ServerPool) (kind : SessionKind) (sessionId : String) (now : Instant)
    (looked : String → Instant) : Decidable (Expires p kind sessionId now looked) :=
  inferInstanceAs (Decidable (∀ session ∈ (p.memory.sessions kind).lookup sessionId, _))

/-! ## Marks -/

def Op.touches : Op → Option (SessionKind × String)
  | .touchSession kind sessionId _ => some (kind, sessionId)
  | _ => none

/-- No request has touched the session since it was last inserted. -/
def Unmarked (log : ServerLog) (kind : SessionKind) (sessionId : String) : Prop :=
  ∀ entry ∈ log.takeWhile fun entry => !insertsAt kind sessionId entry,
    entry.2.op.touches ≠ some (kind, sessionId)

section Unmarked

variable {log : ServerLog} {i : ℕ} {op : Op} {answer : op.Answer} {kind : SessionKind}
  {sessionId : String}

theorem unmarked_insert {session : Session} {answer : Unit} :
    Unmarked ((i, ⟨.insertSession kind sessionId session, answer⟩) :: log) kind sessionId := by
  simp [Unmarked, insertsAt]

theorem not_unmarked_touch {touch : Touch} {answer : Unit} :
    ¬Unmarked ((i, ⟨.touchSession kind sessionId touch, answer⟩) :: log) kind sessionId := by
  simp [Unmarked, insertsAt, Op.touches]

theorem unmarked_cons_iff (hwrites : op.writes ≠ some (kind, sessionId)) :
    Unmarked ((i, ⟨op, answer⟩) :: log) kind sessionId ↔ Unmarked log kind sessionId := by
  have hother : insertsAt kind sessionId (i, ⟨op, answer⟩) = false ∧
      op.touches ≠ some (kind, sessionId) := by
    cases op with
    | insertSession | touchSession => simpa [insertsAt, Op.touches, Op.writes] using hwrites
    | _ => exact ⟨rfl, nofun⟩
  simp [Unmarked, hother]

end Unmarked

/-- Whatever is inserted is a record as the starts write it. -/
def Launches : Op → Prop
  | .insertSession kind _ session => Launched kind session
  | _ => True

theorem ordinary_launches : Ordinary Launches where
  holds op hinserts _ := by
    cases op with
    | insertSession => exact nomatch hinserts
    | _ => trivial

theorem launches_program (config : Config) (work : Work) :
    Within Launches (work.program config) := by
  cases work with
  | request incoming =>
    exact (confined_handle ordinary_launches (fun _ _ _ hlaunched => hlaunched) incoming).bind
      fun _ => trivial
  | socket opened frames =>
    exact confined_handleSocket ordinary_launches none frames (fun _ _ _ => trivial)
      fun _ => trivial

variable {session : Session} {sessionId : String}

theorem SessionMap.attachedAt_of_touch {now : Instant} {touch : Touch} {sessions : SessionMap}
    (hlookup : (SessionMap.touch now touch sessionId sessions).lookup sessionId = some session) :
    session.attachedAt = some now := by
  rw [SessionMap.touch] at hlookup
  split at hlookup
  · rw [AList.lookup_insert] at hlookup
    cases hlookup
    cases touch <;> rfl
  · rename_i hnone
    cases hnone.symm.trans hlookup

/-- A record is unattached as long as it is unmarked and no shell. -/
structure MarksShown (s : ObservedServer) : Prop where
  launches : ∀ task ∈ s.pool.tasks, task.Sound fun _ _ op => Launches op
  records : ∀ kind sessionId session,
    (s.pool.memory.sessions kind).lookup sessionId = some session →
      (session.attachedAt = none ↔ kind ≠ .shell ∧ Unmarked s.log kind sessionId)

section MarksShown

variable {config : Config} {s : ObservedServer}

theorem marksShown_start : MarksShown ObservedServer.start where
  launches _ hmem := nomatch hmem
  records _ _ _ hlookup := nomatch hlookup

theorem MarksShown.records_perform (hs : MarksShown s) {i : ℕ} {op : Op}
    {outside : (op : Op) → op.Answer} (hlaunches : Launches op) {kind : SessionKind}
    {sessionId : String}
    (hlookup :
      ((s.pool.memory.perform outside op).2.sessions kind).lookup sessionId = some session) :
    session.attachedAt = none ↔ kind ≠ .shell ∧
      Unmarked ((i, ⟨op, (s.pool.memory.perform outside op).1⟩) :: s.log) kind sessionId := by
  by_cases hwrites : op.writes = some (kind, sessionId)
  · cases op with
    | insertSession written writtenId inserted =>
      cases hwrites
      simp only [Maps.perform, Maps.update, Function.update_self, AList.lookup_insert,
        Option.some.injEq] at hlookup
      rw [and_iff_left unmarked_insert, ← hlookup]
      exact hlaunches
    | touchSession written writtenId touch =>
      cases hwrites
      simp only [Maps.perform, Maps.update, Function.update_self] at hlookup
      rw [SessionMap.attachedAt_of_touch hlookup]
      exact iff_of_false (fun h => by cases h) fun hunmarked => not_unmarked_touch hunmarked.2
    | _ => cases hwrites
  · rw [unmarked_cons_iff hwrites]
    exact hs.records kind sessionId session (Maps.lookup_of_lookup_perform hwrites hlookup)

theorem MarksShown.observe (hs : MarksShown s) (a : ServerAction) :
    MarksShown ((server config).observe s a) where
  launches := sound_step (fun work => (launches_program config work).safe (fun _ _ _ hop => hop)
    fun _ _ _ _ => trivial) hs.launches a
  records kind sessionId session hlookup := by
    rcases observe_cases (server config) s a with ⟨hlog, hmemory, -⟩ |
      ⟨i, outside, task, op, next, -, htask, hrest, heq⟩
    · rw [hlog]
      refine hs.records kind sessionId session ?_
      rcases hmemory with hsame | ⟨reap, hreap⟩
      · rwa [hsame] at hlookup
      · rw [hreap] at hlookup
        exact Reap.lookup_of_lookup_apply hlookup
    · rw [heq] at hlookup ⊢
      exact hs.records_perform ((hs.launches task (List.mem_of_getElem? htask)).next hrest) hlookup

end MarksShown

/-! ## The reaper -/

variable {kind : SessionKind}

theorem Reap.lookup_apply_eq_none {maps : Maps}
    (hlookup : (maps.sessions kind).lookup sessionId = some session) (now : Instant)
    (looked : String → Instant) :
    ((Reap.apply ⟨kind, now, looked⟩ maps).sessions kind).lookup sessionId = none ↔
      isStale kind now (looked sessionId) session = true := by
  have hmem : sessionId ∈ (((maps.sessions kind).entries.filter fun entry =>
      isStale kind now (looked entry.1) entry.2).map Sigma.fst) ↔
        isStale kind now (looked sessionId) session = true := by
    simp only [List.mem_map, List.mem_filter]
    constructor
    · rintro ⟨⟨_, other⟩, ⟨hentry, hstale⟩, rfl⟩
      cases hlookup.symm.trans (AList.mem_lookup_iff.mpr hentry)
      exact hstale
    · intro hstale
      exact ⟨⟨sessionId, session⟩, ⟨AList.mem_lookup_iff.mp hlookup, hstale⟩, rfl⟩
  simp [apply, Maps.update, SessionMap.lookup_eraseAll, hmem, hlookup]

theorem isStale_iff {now looked : Instant} (hold : unattachedSessionTtl < now - session.createdAt) :
    isStale kind now looked session = true ↔ session.attachedAt = none ∨
      (kind = .chat ∧
        ∃ last ∈ session.viewerLastHeartbeatAt, viewerHeartbeatTtl < looked - last) := by
  cases hattached : session.attachedAt <;> cases hlast : session.viewerLastHeartbeatAt <;>
    simp [isStale, isUnattachedSessionStale, hattached, hlast, hold]

/-- A session that no accepted request has claimed expires exactly when it is no shell and
no request has left its mark on it, or when it is a chat that a viewer has left. -/
theorem sessions_expire_iff (config : Config) (actions : List ServerAction) (kind : SessionKind)
    (sessionId : String) (now : Instant) (looked : String → Instant) :
    Expires (run (server config).observe ObservedServer.start actions).pool kind sessionId now
        looked ↔
      ∀ session ∈ ((run (server config).observe ObservedServer.start actions).pool.memory.sessions
          kind).lookup sessionId,
        unattachedSessionTtl < now - session.createdAt →
        NoneAccepted (run (server config).observe ObservedServer.start actions).pool kind sessionId
          session.token →
        (kind ≠ .shell ∧
            Unmarked (run (server config).observe ObservedServer.start actions).log kind
              sessionId) ∨
          (kind = .chat ∧
            ∃ last ∈ session.viewerLastHeartbeatAt,
              viewerHeartbeatTtl < looked sessionId - last) := by
  have hshown : MarksShown (run (server config).observe ObservedServer.start actions) :=
    run_invariant (fun _ a hs => hs.observe a) marksShown_start actions
  refine forall₂_congr fun session hsession => imp_congr_right fun hold =>
    imp_congr_right fun _ => ?_
  rw [Reap.lookup_apply_eq_none hsession, isStale_iff hold,
    hshown.records kind sessionId session hsession]

/-! ## A shell that nobody uses -/

/-- The agent `one` says hello and the user `one` opens a shell, all at the time 0. -/
def unusedShell : List ServerAction :=
  .start (.socket ⟨"registration", 1, false⟩ [.text (hello "one")]) :: advances 0 4
    ++ .start (shellRequest "one" none none) :: advances 1 4
    ++ [.advance 1 (twoOrganizations "session"), .advance 1 (twoOrganizations "secret")]
    ++ advances 1 4

theorem unused_shell_stays :
    ¬Expires (run (server ⟨none, none⟩).observe ObservedServer.start unusedShell).pool .shell
      "session" (unattachedSessionTtl + 1) (fun _ => unattachedSessionTtl + 1) := by
  decide +kernel

end Talos.Server
