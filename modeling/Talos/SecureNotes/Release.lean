import Talos.SecureNotes.Ledger

/-!
# Who gets the content of a secure note

The recipient of a note gets its content at most once. A call that reads the note after that,
or after the note has expired, does not return the content. A note that is bound to a job
stays bound to it, and the job is one of the same organisation and user. A runner gets the
content only for the job that the note is bound to, with the lease that the job had when the
call read it.
-/

namespace Talos.SecureNotes

open Interactive Program Relational Transition

/-- The user who calls gets the content of the note. -/
def Reveals (note : Note) (userId : String) (task : NoteTask) : Prop :=
  task.work = .reveal note.code userId ∧ ∃ content destroyedAt,
    (⟨.reply (.revealed (.revealed content destroyedAt)), ()⟩ : Event Op.Answer) ∈ task.history

/-- The runner who calls gets the content of the note. -/
def Resolves (note : Note) (input : ResolveInput) (task : NoteTask) : Prop :=
  task.work = .resolve input ∧ input.secretHandle = note.secretHandle ∧ ∃ secret,
    (⟨.reply (.resolved secret), ()⟩ : Event Op.Answer) ∈ task.history

/-- The call reads the note. -/
def readsOf (note : Note) : Op → Bool
  | .query (.selectForUpdate (.code code)) => code = note.code
  | .query (.findNoteOfJob handle _) => handle = note.secretHandle
  | _ => false

/-- Nobody works on the notes yet. -/
def World.start (notes : NoteTable) (jobs : Keyed JobRow.id) (clock : Timestamp) : World :=
  ⟨⟨notes, jobs, [], clock⟩, []⟩

structure ReleasePolicy (config : Config) (start : World) (as : List WorldAction) (note : Note) :
    Prop where
  once : ∀ (i j : ℕ) (task other : NoteTask) (userId userId' : String),
    (run (notes config).step start as).tasks[i]? = some task →
    (run (notes config).step start as).tasks[j]? = some other →
    Reveals note userId task → Reveals note userId' other → i = j
  recipient : ∀ task ∈ (run (notes config).step start as).tasks, ∀ userId,
    Reveals note userId task → userId = note.recipientUserId
  /-- A call that reads the note after it was revealed, or after it has expired. -/
  late : ∀ i outside q event, (notes config).PerformedBy start as i outside q event →
    readsOf note event.op = true →
    (∃ task ∈ q.tasks, Destroys note.id task.history) ∨
      note.expiresAt ≤ ((notes config).step q (.advance i outside)).memory.clock →
    ∀ task, (run (notes config).step start as).tasks[i]? = some task →
      (∀ userId, ¬ Reveals note userId task) ∧ ∀ input, ¬ Resolves note input task
  /-- The binding stays as it is once it is set. -/
  bound : ∀ earlier later rest, as = earlier ++ later ++ rest → ∀ row row' jobId,
    (run (notes config).step start earlier).memory.notes.get? note.id = some row →
    (run (notes config).step start (earlier ++ later)).memory.notes.get? note.id = some row' →
    row.jobId = some jobId → row'.jobId = some jobId
  binding : ∀ earlier a later, as = earlier ++ a :: later → ∀ row row' jobId,
    (run (notes config).step start earlier).memory.notes.get? note.id = some row →
    (run (notes config).step start (earlier ++ [a])).memory.notes.get? note.id = some row' →
    row.jobId ≠ some jobId → row'.jobId = some jobId →
    ∃ job ∈ (run (notes config).step start earlier).memory.jobs.rows, job.id = jobId ∧
      job.organizationId = note.organizationId ∧ job.userId = note.recipientUserId
  runner : ∀ i task input, (run (notes config).step start as).tasks[i]? = some task →
    Resolves note input task →
    (∃ outside q job t, (notes config).PerformedBy start as i outside q
        ⟨.query (.findJob input.jobId), .ok (some job, t)⟩ ∧
      q.memory.jobs.get? input.jobId = some job ∧ job.leaseId.isSome ∧
      job.leaseId = input.leaseId) ∧
    ∃ outside q row t, (notes config).PerformedBy start as i outside q
        ⟨.query (.findNoteOfJob input.secretHandle input.jobId), .ok (some row, t)⟩ ∧
      q.memory.notes.get? note.id = some row ∧ row.jobId = some input.jobId

/-! ## What a call has done that returns the content -/

section Final

variable {config : Config} {t₀ : NoteTable} {p : World} {note : Note}
  {task : NoteTask}

theorem Timed.le_of_consecutive {clock t t' : Timestamp} {before after : History}
    {event event' : Event Op.Answer} (htimed : Timed clock (before ++ event :: event' :: after))
    (ht : time? event = some t) (ht' : time? event' = some t') : t ≤ t' := by
  have hsorted := htimed.1
  rw [List.filterMap_append, List.filterMap_cons_some ht, List.filterMap_cons_some ht'] at hsorted
  exact (List.pairwise_cons.mp (List.pairwise_append.mp hsorted).2.1).1 t' List.mem_cons_self

/-- A call reads a note once. -/
theorem Ledger.read_unique (hledger : Ledger config t₀ p) (hmem : task ∈ p.tasks)
    {event other : Event Op.Answer} (hevent : event ∈ task.history) (hother : other ∈ task.history)
    (hreads : readsNote event = true) (hreads' : readsNote other = true) : event = other := by
  have hall : Throughout (fun before event => readsNote event = true →
      ∀ earlier ∈ before, readsNote earlier = false) task.history := ?_
  · exact hall.unique hevent hother hreads hreads'
  intro before event after hsplit hreads
  have hrule := (hledger.sound task hmem).past before event after hsplit
  unfold readsNote at hreads
  split at hreads
  · exact hrule.2
  · exact hrule
  · cases hreads

theorem eq_of_follows {old row : Note} (hnote : note ∈ t₀.rows) (hold : old ∈ t₀.rows)
    (hfollows : old.Follows row)
    (hkey : row.code = note.code ∨ row.secretHandle = note.secretHandle) : old = note := by
  rcases hkey with hcode | hhandle
  · exact t₀.eq_of_code_eq hold hnote (hfollows.code.symm.trans hcode)
  · exact t₀.eq_of_secretHandle_eq hold hnote (hfollows.secretHandle.symm.trans hhandle)

theorem Ledger.reveals (hledger : Ledger config t₀ p) (hmem : task ∈ p.tasks)
    (hnote : note ∈ t₀.rows) {userId : String} (hreveals : Reveals note userId task) :
    ∃ rows row t, (⟨.query (.selectForUpdate (.code note.code)), .ok (rows, t)⟩ : Event Op.Answer) ∈
        task.history ∧
      row ∈ rows ∧ note.Follows row ∧ row.available = true ∧ row.recipientUserId = userId ∧
      t < note.expiresAt ∧ Destroys note.id task.history := by
  obtain ⟨hwork, content, destroyedAt, hreply⟩ := hreveals
  obtain ⟨before, after, hsplit⟩ := List.append_of_mem hreply
  obtain ⟨code, userId', hcall, hrevealed⟩ := (hledger.sound task hmem).past before _ after hsplit
  cases hwork.symm.trans hcall
  obtain ⟨rows, row, t, now, destroyedAt, returned, t', hhead, havailable, hrecipient, _, hnow,
    rfl⟩ := hrevealed
  have hrow := List.mem_of_mem_head? hhead
  have hselect : (⟨.query (.selectForUpdate (.code note.code)), .ok (rows, t)⟩ :
      Event Op.Answer) ∈ task.history := hsplit ▸ List.mem_append_left _ List.mem_cons_self
  obtain ⟨hmatches, old, hold, hfollows⟩ := hledger.faithful _ ⟨task, hmem, hselect⟩ row hrow
  have hcode : row.code = note.code := by simpa [NoteFilter.matches] using hmatches
  cases eq_of_follows hnote hold hfollows (.inl hcode)
  have hle : t ≤ now := by
    have htimed := hledger.times task hmem
    rw [hsplit] at htimed
    exact @Timed.le_of_consecutive _ _ _ [] _ _ _ htimed rfl rfl
  refine ⟨rows, row, t, hselect, hrow, hfollows, havailable, hrecipient,
    hle.trans_lt (hfollows.expiresAt ▸ hnow), destroyedAt, rows.map Note.id, returned, t', ?_⟩
  rw [hsplit, hfollows.id]
  simp

theorem Ledger.resolves (hledger : Ledger config t₀ p) (hmem : task ∈ p.tasks)
    (hnote : note ∈ t₀.rows) {input : ResolveInput} (hresolves : Resolves note input task) :
    (∃ job t, (⟨.query (.findJob input.jobId), .ok (some job, t)⟩ : Event Op.Answer) ∈
        task.history ∧ truthy job.leaseId = true ∧ job.leaseId = input.leaseId) ∧
    ∃ row t, (⟨.query (.findNoteOfJob input.secretHandle input.jobId), .ok (some row, t)⟩ :
        Event Op.Answer) ∈ task.history ∧
      note.Follows row ∧ row.available = true ∧ row.jobId = some input.jobId ∧
      t < note.expiresAt := by
  obtain ⟨hwork, hhandle, secret, hreply⟩ := hresolves
  obtain ⟨before, after, hsplit⟩ := List.append_of_mem hreply
  obtain ⟨input', hcall, hresolved⟩ := (hledger.sound task hmem).past before _ after hsplit
  cases hwork.symm.trans hcall
  obtain ⟨job, t₁, earlier, row, t, now, hjob, hlease, hlease', havailable, _, hnow, rfl⟩ :=
    hresolved
  have hfind : (⟨.query (.findNoteOfJob input.secretHandle input.jobId), .ok (some row, t)⟩ :
      Event Op.Answer) ∈ task.history := by
    rw [hsplit]
    simp
  obtain ⟨hrowHandle, hjobId, old, hold, hfollows⟩ := hledger.faithful _ ⟨task, hmem, hfind⟩
  cases eq_of_follows hnote hold hfollows (.inr (hrowHandle.trans hhandle))
  have hle : t ≤ now := by
    have htimed := hledger.times task hmem
    rw [hsplit, List.append_assoc] at htimed
    exact htimed.le_of_consecutive rfl rfl
  refine ⟨⟨job, t₁, ?_, hlease, hlease'⟩, row, t, hfind, hfollows, havailable, hjobId,
    hle.trans_lt (hfollows.expiresAt ▸ hnow)⟩
  rw [hsplit]
  exact List.mem_append_left _ (List.mem_append_left _ hjob)

end Final

theorem readsNote_of_readsOf {note : Note} {event : Event Op.Answer}
    (h : readsOf note event.op = true) : readsNote event = true := by
  obtain ⟨op, answer⟩ := event
  unfold readsOf at h
  split at h
  next hop =>
    obtain rfl : op = _ := hop
    rfl
  next hop =>
    obtain rfl : op = _ := hop
    rfl
  · cases h

/-! ## Runs -/

theorem ledger_start (config : Config) (t₀ : NoteTable) (jobs : Keyed JobRow.id)
    (clock : Timestamp) : Ledger config t₀ (World.start t₀ jobs clock) where
  sound _ hmem := nomatch hmem
  follows note hnote := ⟨note, hnote, note.follows_refl⟩
  faithful _ hevent := nomatch hevent
  holds _ hmem := nomatch hmem
  apart _ _ _ _ htask := nomatch htask
  jobs _ _ _ hfound := nomatch hfound
  destroyed _ _ hmem := nomatch hmem
  once _ _ _ _ _ htask := nomatch htask
  times _ hmem := nomatch hmem

section Runs

variable {config : Config} {t₀ : NoteTable} {p : World} {as : List WorldAction} {note : Note}

/-- Once the binding is set it stays. -/
theorem bound_run (hledger : Ledger config t₀ p)
    (hserial : along (notes config).step (Serialised config) p as) {id : String} {row row' : Note}
    {jobId : String} (hrow : p.memory.notes.get? id = some row)
    (hrow' : (run (notes config).step p as).memory.notes.get? id = some row')
    (hset : row.jobId = some jobId) : row'.jobId = some jobId := by
  -- a row that is there was there before, so the step lemma applies at every step
  have hkept := run_relation_along (P := Ledger config t₀)
    (R := fun q q' : World => ∀ row', q'.memory.notes.get? id = some row' →
      ∃ row, q.memory.notes.get? id = some row ∧
        ∀ jobId, row.jobId = some jobId → row'.jobId = some jobId)
    (fun _ row' hrow' => ⟨row', hrow', fun _ h => h⟩)
    (fun _ _ _ hfirst hsecond row' hrow' => by
      obtain ⟨middle, hmiddle, hset'⟩ := hsecond row' hrow'
      obtain ⟨row, hrow, hset⟩ := hfirst middle hmiddle
      exact ⟨row, hrow, fun jobId h => hset' jobId (hset jobId h)⟩)
    (fun q a hq hstep => ⟨hq.step hstep, fun row' hrow' => by
      obtain ⟨row, hrow, _⟩ := row_step hrow'
      refine ⟨row, hrow, fun jobId hset => ?_⟩
      rcases hq.jobId_step hrow hrow' with hsame | ⟨hnone, _⟩
      · exact hsame.trans hset
      · exact nomatch hnone.symm.trans hset⟩)
    hledger hserial row' hrow'
  obtain ⟨first, hfirst, hstays⟩ := hkept
  cases hrow.symm.trans hfirst
  exact hstays jobId hset

end Runs

theorem release_policy (config : Config) (t₀ : NoteTable) (jobs : Keyed JobRow.id)
    (clock : Timestamp) (as : List WorldAction)
    (hserial : along (notes config).step (Serialised config) (World.start t₀ jobs clock) as)
    {note : Note} (hnote : note ∈ t₀.rows) :
    ReleasePolicy config (World.start t₀ jobs clock) as note := by
  have hledger : ∀ before later, as = before ++ later →
      Ledger config t₀ (run (notes config).step (World.start t₀ jobs clock) before) := by
    rintro before later rfl
    exact run_invariant_along (fun _ _ hq hstep => hq.step hstep)
      (ledger_start config t₀ jobs clock) ((along_append _ _ _ _).mp hserial).1
  have hfinal := hledger as [] (List.append_nil as).symm
  have hperformed := fun {i : ℕ} {task : NoteTask} {event : Event Op.Answer}
    (htask : (run (notes config).step (World.start t₀ jobs clock) as).tasks[i]? = some task)
    (hevent : event ∈ task.history) =>
      System.performedBy_of_mem htask hevent fun _ hold => nomatch hold
  constructor
  case once =>
    intro i j task other userId userId' htask hother hreveals hreveals'
    obtain ⟨_, _, _, _, _, _, _, _, _, hdestroys⟩ :=
      hfinal.reveals (List.mem_of_getElem? htask) hnote hreveals
    obtain ⟨_, _, _, _, _, _, _, _, _, hdestroys'⟩ :=
      hfinal.reveals (List.mem_of_getElem? hother) hnote hreveals'
    exact hfinal.once i j task other note.id htask hother hdestroys hdestroys'
  case recipient =>
    intro task hmem userId hreveals
    obtain ⟨_, row, _, _, _, hfollows, _, hrecipient, _⟩ := hfinal.reveals hmem hnote hreveals
    exact hrecipient.symm.trans hfollows.recipientUserId
  case late =>
    intro i outside q event hby hreads hlate task htask
    obtain ⟨task', htask', hevent⟩ := hby.mem_history
    cases htask.symm.trans htask'
    have hmem := List.mem_of_getElem? htask
    obtain ⟨before, later, has, rfl, hread⟩ := hby
    have hq := hledger before _ has
    -- the read that the reply rests on is this one, and it found the note available
    have hnot : ∀ {row : Note} {t : Timestamp}, note.Follows row → row.available = true →
        t < note.expiresAt → time? event = some t →
        (run (notes config).step (World.start t₀ jobs clock) before).memory.notes.get? row.id =
          some row → False := by
      intro row t hfollows havailable ht htime hget
      rcases hlate with ⟨earlier, hearlier, hdestroys⟩ | hexpired
      · exact hq.not_destroyed_of_available hget havailable earlier hearlier
          (hfollows.id.symm ▸ hdestroys)
      · rw [← time_performed hread htime] at hexpired
        exact absurd ht (not_lt.mpr hexpired)
    constructor
    · intro userId hreveals
      obtain ⟨rows, row, t, hselect, hrow, hfollows, havailable, _, ht, _⟩ :=
        hfinal.reveals hmem hnote hreveals
      cases hfinal.read_unique hmem hevent hselect (readsNote_of_readsOf hreads) rfl
      exact hnot hfollows havailable ht rfl (get?_of_selected hread hrow)
    · intro input hresolves
      obtain ⟨_, row, t, hfind, hfollows, havailable, _, ht⟩ := hfinal.resolves hmem hnote hresolves
      cases hfinal.read_unique hmem hevent hfind (readsNote_of_readsOf hreads) rfl
      exact hnot hfollows havailable ht rfl (get?_of_found hread)
  case bound =>
    rintro earlier later rest rfl row row' jobId hrow hrow' hset
    rw [run_append] at hrow'
    refine bound_run (hledger earlier (later ++ rest) (List.append_assoc _ _ _)) ?_ hrow hrow' hset
    rw [along_append, along_append] at hserial
    exact hserial.1.2
  case binding =>
    rintro earlier a later rfl row row' jobId hrow hrow' hunset hset
    rw [run_append] at hrow'
    have hq := hledger earlier _ rfl
    obtain ⟨old, hold, hfollows⟩ := hq.follows row (Keyed.mem_of_get? hrow)
    have hid : old.id = note.id := hfollows.id.symm.trans (Keyed.key_of_get? hrow)
    cases Keyed.eq_of_key_eq hold hnote hid
    rcases hq.jobId_step hrow hrow' with hsame | ⟨_, job, hjob, hid, horganization, huser⟩
    · exact absurd (hsame.symm.trans hset) hunset
    · exact ⟨job, hjob, Option.some.inj (hid.symm.trans hset),
        horganization.trans hfollows.organizationId, huser.trans hfollows.recipientUserId⟩
  case runner =>
    intro i task input htask hresolves
    obtain ⟨⟨job, t, hjob, hlease, hlease'⟩, row, t', hfind, hfollows, _, hjobId, _⟩ :=
      hfinal.resolves (List.mem_of_getElem? htask) hnote hresolves
    obtain ⟨outside, q, hby⟩ := hperformed htask hjob
    obtain ⟨outside', q', hby'⟩ := hperformed htask hfind
    have hget := hby.choose_spec.choose_spec.2.2
    have hget' := hby'.choose_spec.choose_spec.2.2
    refine ⟨⟨outside, q, job, t, hby, (executed_of_performed hget).1.symm, ?_, hlease'⟩,
      outside', q', row, t', hby', ?_, hjobId⟩
    · cases hleaseId : job.leaseId with
      | none => rw [hleaseId] at hlease; cases hlease
      | some leaseId => rfl
    · rw [← hfollows.id]
      exact get?_of_found hget'

/-! ## A run -/

section Witness

def sealedNote : Note where
  id := "note"
  code := "code"
  secretHandle := "sec_0123456789abcdef"
  organizationId := "organisation"
  recipientUserId := "user"
  recipientEmail := none
  contentEnc := some "secret"
  shellReference := none
  desktopReference := none
  purpose := none
  jobId := none
  agentId := none
  expiresAt := 100
  viewedAt := none
  destroyedAt := none

def sealedNotes : NoteTable where
  rows := [sealedNote]
  nodup := List.nodup_singleton _
  codes := List.nodup_singleton _
  handles := List.nodup_singleton _
  bound := by decide

def leasedJob : Keyed JobRow.id where
  rows := [⟨"job", by decide, "organisation", "user", "agent", some "runner", some "lease", none⟩]
  nodup := List.nodup_singleton _

def clearConfig : Config := ⟨some, none⟩

def plainSteps (i n : ℕ) (now : Timestamp) : List WorldAction :=
  List.replicate n (.advance i ⟨now, none⟩)

/-- The note is bound to the job and resolved by its runner; then it is revealed while a second
call waits for its row, and a runner comes too late. -/
def resolvedAndRevealed : List WorldAction :=
  [.start (.attach ⟨"organisation", "user", "job", none, ["sec_0123456789abcdef"]⟩)] ++
    plainSteps 0 5 10 ++
    [.start (.resolve ⟨"job", some "runner", some "lease", "sec_0123456789abcdef"⟩)] ++
    plainSteps 1 4 20 ++
    [.start (.reveal "code" "user"), .start (.reveal "code" "user")] ++
    plainSteps 2 5 30 ++ plainSteps 3 4 40 ++
    [.start (.resolve ⟨"job", some "runner", some "lease", "sec_0123456789abcdef"⟩)] ++
    plainSteps 4 4 50

def returnsContent : Event Op.Answer → Bool
  | ⟨.reply (.revealed (.revealed ..)), _⟩ | ⟨.reply (.resolved _), _⟩ => true
  | _ => false

theorem release_policy_resolved_and_revealed :
    (run (notes clearConfig).step (World.start sealedNotes leasedJob 0)
      resolvedAndRevealed).tasks.map (fun task => task.history.any returnsContent) =
        [false, true, true, false, false] ∧
      ReleasePolicy clearConfig (World.start sealedNotes leasedJob 0) resolvedAndRevealed
        sealedNote :=
  ⟨by decide +kernel, release_policy _ _ _ _ _ (by decide +kernel) List.mem_cons_self⟩

end Witness

end Talos.SecureNotes
