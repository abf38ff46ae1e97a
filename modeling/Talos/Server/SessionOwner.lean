import Talos.Server.SessionIds

/-!
# Whom a live session belongs to

As long as a session is in its map, the record keeps its agent and its token, whatever
requests and agents do, unless a user names the id of a live shell session in the query
of `connect-shell`: `start_shell_session` writes the new record over the one that is
there. The sessions keep their owners exactly in the runs in which no record with an id
that users name meets a session of another agent or with another token.
-/

namespace Talos.Server

open Interactive Program Transition System

/-- Some user names the id for a shell session. -/
def Named (p : ServerPool) (sessionId : String) : Prop :=
  ∃ task ∈ p.tasks, task.work.named = some sessionId

/-- When a shell record is written under an id that users name, no session under that id
has another agent than the path of the request, or another token than its query (or than
was generated for a request that names none). -/
def SparesOthers (p : ServerPool) : ServerAction → Prop
  | .advance i _ => ∀ task sessionId session, p.tasks[i]? = some task →
      task.rest.head? = some (.insertSession .shell sessionId session) → Named p sessionId →
      ∀ owner ∈ p.memory.owner .shell sessionId, shellOwner task.work task.history = some owner
  | _ => True

/-- Every record was inserted by a task, under an id that was generated for it or named
by its request. -/
structure Traced (p : ServerPool) : Prop where
  sound : ∀ task ∈ p.tasks, task.Sound InsertsFresh
  distinct : Distinct generatedUuid p
  inserted : ∀ kind sessionId owner, p.memory.owner kind sessionId = some owner →
    ∃ (i : ℕ) (task : ServerTask) (session : Session), p.tasks[i]? = some task ∧
      ⟨.insertSession kind sessionId session, ()⟩ ∈ task.history

section Traced

variable {config : Config} {p : ServerPool}

theorem traced_start : Traced .start where
  sound _ hmem := nomatch hmem
  distinct _ _ _ _ _ htask := nomatch htask
  inserted _ _ _ howner := nomatch howner

variable {a : ServerAction} {kind : SessionKind} {sessionId : String}

theorem owner_step {owner : String × String}
    (howner : ((server config).step p a).memory.owner kind sessionId = some owner) :
    p.memory.owner kind sessionId = some owner ∨
      ∃ i outside task session next, a = .advance i outside ∧ p.tasks[i]? = some task ∧
        task.rest = .call (.insertSession kind sessionId session) next ∧ owner = session.owner := by
  cases a with
  | start work => exact .inl howner
  | internal reap =>
    obtain ⟨session, hlookup, hsession⟩ := Option.map_eq_some_iff.mp howner
    rw [Maps.owner, Reap.lookup_of_lookup_apply hlookup, Option.map_some, hsession]
    exact .inl rfl
  | advance i outside =>
    rcases step_advance_cases (server config) p i outside with
      hsame | ⟨task, op, next, htask, hrest⟩
    · rw [hsame] at howner
      exact .inl howner
    · rw [step_advance htask hrest] at howner
      rcases Maps.owner_perform howner with hbefore | ⟨session, rfl, hsession⟩
      · exact .inl hbefore
      · exact .inr ⟨i, outside, task, session, next, rfl, htask, hrest, hsession⟩

theorem Traced.step (htraced : Traced p) (hfresh : (server config).Fresh generatedUuid p a) :
    Traced ((server config).step p a) where
  sound := sound_step freshIds_program htraced.sound a
  distinct := distinct_step htraced.distinct hfresh
  inserted kind sessionId owner howner := by
    rcases owner_step howner with hbefore | ⟨i, outside, task, session, next, rfl, htask, hrest, -⟩
    · obtain ⟨i, old, session, hold, hmem⟩ := htraced.inserted kind sessionId owner hbefore
      obtain ⟨task, htask, -, hpre⟩ := persists (server config) a hold
      exact ⟨i, task, session, htask, hpre.subset hmem⟩
    · have hlt := (List.getElem?_eq_some_iff.mp htask).1
      rw [step_advance htask hrest]
      exact ⟨i, _, session, List.getElem?_set_self hlt,
        List.mem_append_right _ (List.mem_singleton_self _)⟩

variable {task : ServerTask} {session : Session}

/-- An id that was generated for a record is not in use when the record is inserted. -/
theorem Traced.owner_eq_none (htraced : Traced p) {i : ℕ} {next : Unit → Handler Unit}
    (htask : p.tasks[i]? = some task)
    (hrest : task.rest = .call (.insertSession kind sessionId session) next)
    (hnamed : ¬(kind = .shell ∧ Named p sessionId)) : p.memory.owner kind sessionId = none := by
  have hmem := List.mem_of_getElem? htask
  have hnone : ∀ {other : ServerTask}, other ∈ p.tasks → ∀ {h},
      Supplied other.work kind sessionId h → NoInsertion h ∧ ⟨.uuid, sessionId⟩ ∈ h := by
    rintro other hother h (hgenerated | ⟨hshell, hnames⟩)
    · exact hgenerated
    · exact absurd ⟨hshell, other, hother, hnames⟩ hnamed
  obtain ⟨hfirst, huuid⟩ :=
    hnone hmem ((htraced.sound task hmem).next hrest kind sessionId session rfl).1
  refine Option.eq_none_iff_forall_not_mem.mpr fun owner howner => ?_
  obtain ⟨j, other, inserted, hother, hevent⟩ := htraced.inserted kind sessionId owner howner
  have hmem' := List.mem_of_getElem? hother
  -- the task that has inserted the record has generated the same id, so it is this one
  obtain ⟨before, after, hsplit⟩ := List.append_of_mem hevent
  have hsupplied :=
    ((htraced.sound other hmem').past before _ after hsplit kind sessionId inserted rfl).1
  have huuid' : ⟨.uuid, sessionId⟩ ∈ other.history := by
    rw [hsplit]
    exact List.mem_append_left _ (hnone hmem' hsupplied).2
  have hsame : i = j := htraced.distinct i j task other sessionId htask hother
    (List.mem_filterMap.mpr ⟨_, huuid, rfl⟩) (List.mem_filterMap.mpr ⟨_, huuid', rfl⟩)
  subst hsame
  cases htask.symm.trans hother
  exact nomatch hfirst _ hevent

/-- A shell record has the owner that the request and the generated token determine. -/
theorem Traced.shellOwner_eq (htraced : Traced p) {i : ℕ} {next : Unit → Handler Unit}
    (htask : p.tasks[i]? = some task)
    (hrest : task.rest = .call (.insertSession .shell sessionId session) next) :
    shellOwner task.work task.history = some session.owner :=
  ((htraced.sound task (List.mem_of_getElem? htask)).next hrest _ _ _ rfl).2 rfl

end Traced

/-! ## Sessions keep their owners -/

/-- No record that stays in its map changes hands in the step. -/
def KeepsOwners (config : Config) (p : ServerPool) (a : ServerAction) : Prop :=
  ∀ key : SessionKind × String, (p.memory.owner key.1 key.2).isSome →
    (((server config).step p a).memory.owner key.1 key.2).isSome →
    ((server config).step p a).memory.owner key.1 key.2 = p.memory.owner key.1 key.2

theorem keepsOwners_iff {config : Config} {p : ServerPool} (htraced : Traced p) (a : ServerAction) :
    KeepsOwners config p a ↔ SparesOthers p a := by
  constructor
  · intro hkeeps
    cases a with
    | start work => trivial
    | internal reap => trivial
    | advance i outside =>
      intro task sessionId session htask hhead hnamed owner howner
      obtain ⟨next, hrest⟩ := head?_eq_some hhead
      have hafter : ((server config).step p (.advance i outside)).memory.owner .shell sessionId =
          some session.owner := by
        rw [step_advance htask hrest]
        exact Maps.owner_insertSession outside p.memory .shell sessionId session
      have hkept := hkeeps (.shell, sessionId) (Option.isSome_of_mem howner) (by simp [hafter])
      rw [htraced.shellOwner_eq htask hrest, ← hafter, hkept]
      exact howner
  · rintro hspares ⟨kind, sessionId⟩ hbefore hafter
    obtain ⟨owner, howner⟩ := Option.isSome_iff_exists.mp hafter
    rcases owner_step howner with hsame | ⟨i, outside, task, session, next, rfl, htask, hrest, rfl⟩
    · exact howner.trans hsame.symm
    · by_cases hnamed : kind = .shell ∧ Named p sessionId
      · obtain ⟨rfl, hnamed⟩ := hnamed
        obtain ⟨live, hlive⟩ := Option.isSome_iff_exists.mp hbefore
        rw [howner, hlive, ← htraced.shellOwner_eq htask hrest]
        exact hspares task sessionId session htask (by rw [hrest]; rfl) hnamed live hlive
      · rw [htraced.owner_eq_none htask hrest hnamed] at hbefore
        exact nomatch hbefore

theorem sessions_keep_owner_iff (config : Config) (actions : List ServerAction)
    (hfresh :
      along (server config).step ((server config).Fresh generatedUuid) ServerPool.start actions) :
    (∀ key : SessionKind × String, UnchangedWhilePresent (server config).step
        (fun p => p.memory.owner key.1 key.2) ServerPool.start actions) ↔
      along (server config).step SparesOthers ServerPool.start actions := by
  simp only [unchangedWhilePresent_iff_along]
  rw [← along_forall]
  exact along_congr_of_invariant (P := Traced) (fun _ _ htraced hfresh => htraced.step hfresh)
    (fun _ a htraced _ => keepsOwners_iff htraced a) traced_start hfresh

/-! ## A session that is taken over -/

/-- Two organizations with a user and an agent each, all three of one name. Both agents
offer shells. -/
def twoOrganizations (uuid : String) (op : Op) : op.Answer :=
  match op with
  | .uuid => uuid
  | .api (.enroll _ agentId ..) => .ok ⟨true, agentId⟩
  | .api (.upsertDevice ..) => .ok ()
  | .api (.userContext token) => .ok ⟨token, token, "admin", none⟩
  | .api (.ensureDeviceInOrganization ..) => .ok ()
  | .api (.deviceScope agentId) => .ok ⟨agentId, none, none⟩
  | .awaitShellOffer sessionId => .offered ⟨sessionId, 1, "host", [], none⟩
  | op => enrollsNobody [] op

def shellRequest (name : String) (session token : Option String) : Work :=
  .request ⟨[("authorization", some ("Bearer " ++ name))],
    .connectShell name ⟨none, none, session, token⟩⟩

def advances (task count : ℕ) : List ServerAction :=
  List.replicate count (.advance task (twoOrganizations ""))

/-- Both agents say hello and the user `one` opens a shell; the user `two` then asks for a
shell of the agent `two` under the id of that session, with a token of their own. -/
def takeover : List ServerAction :=
  .start (.socket ⟨"registration", 1, false⟩ [.text (hello "one")]) :: advances 0 4
    ++ .start (.socket ⟨"registration", 2, false⟩ [.text (hello "two")]) :: advances 1 4
    ++ .start (shellRequest "one" none none) :: advances 2 4
    ++ [.advance 2 (twoOrganizations "session"), .advance 2 (twoOrganizations "secret")]
    ++ advances 2 4
    ++ .start (shellRequest "two" (some "session") (some "chosen")) :: advances 3 8

theorem shell_session_taken_over :
    along (server ⟨none, none⟩).step ((server ⟨none, none⟩).Fresh generatedUuid) ServerPool.start
        takeover ∧
      ¬UnchangedWhilePresent (server ⟨none, none⟩).step (fun p => p.memory.owner .shell "session")
        ServerPool.start takeover := by
  rw [unchangedWhilePresent_iff_along]
  decide +kernel

theorem sessions_keep_owner_iff_takeover :
    (∀ key : SessionKind × String, UnchangedWhilePresent (server ⟨none, none⟩).step
        (fun p => p.memory.owner key.1 key.2) ServerPool.start takeover) ↔
      along (server ⟨none, none⟩).step SparesOthers ServerPool.start takeover :=
  sessions_keep_owner_iff ⟨none, none⟩ takeover (by decide +kernel)

end Talos.Server
