import Talos.SecureNotes.Rules

/-!
# What holds in every run of the calls about secure notes

That transactions lock their rows is an assumption on the runs: none locks a row that another
one has locked, and no statement deletes such a row. So a row that a transaction has read stays
as it is until the transaction ends, and no two transactions hold one row; a note is revealed
by one call at most, and its content is gone from then on.
-/

namespace Talos.SecureNotes

open Interactive Program Relational Transition

/-- The rows that a step locks, or deletes without a transaction, are not locked. -/
def Serialised (config : Config) (p : World) (a : WorldAction) : Prop :=
  match (notes config).performed p a with
  | some ⟨.query (.selectForUpdate _), .ok (rows, _)⟩ => ∀ note ∈ rows, note.id ∉ p.memory.locked
  | some ⟨.query (.deleteExpired code), .ok (_, t)⟩ =>
    ∀ note ∈ p.memory.notes.rows, note.code = code → note.expiresAt ≤ t →
      note.id ∉ p.memory.locked
  | _ => True

instance (config : Config) (p : World) (a : WorldAction) : Decidable (Serialised config p a) := by
  unfold Serialised
  split <;> infer_instance

/-! ## Writes -/

/-- The columns that no statement changes. -/
structure Note.Follows (old note : Note) : Prop where
  id : note.id = old.id
  code : note.code = old.code
  secretHandle : note.secretHandle = old.secretHandle
  organizationId : note.organizationId = old.organizationId
  recipientUserId : note.recipientUserId = old.recipientUserId
  expiresAt : note.expiresAt = old.expiresAt

theorem Note.follows_refl (note : Note) : note.Follows note := ⟨rfl, rfl, rfl, rfl, rfl, rfl⟩

theorem Note.Follows.trans {first second third : Note} (h : first.Follows second)
    (h' : second.Follows third) : first.Follows third where
  id := h'.id.trans h.id
  code := h'.code.trans h.code
  secretHandle := h'.secretHandle.trans h.secretHandle
  organizationId := h'.organizationId.trans h.organizationId
  recipientUserId := h'.recipientUserId.trans h.recipientUserId
  expiresAt := h'.expiresAt.trans h.expiresAt

/-- What a write makes of a row, if it leaves one. -/
def NoteWrite.onNote : NoteWrite → Note → Option Note
  | .delete id, note => if note.id = id then none else some note
  | .destroy id destroyedAt, note =>
    some (if note.id = id then (Note.destroy destroyedAt).apply note else note)
  | .bind handles job, note =>
    some (if handles.contains note.secretHandle then (Note.bind job).apply note else note)

theorem get?_apply (t : NoteTable) (write : NoteWrite) (id : String) :
    (write.apply t).get? id = (t.get? id).bind write.onNote := by
  cases write with
  | delete deleted =>
    rw [NoteWrite.apply, NoteTable.delete, Keyed.get?_remove]
    cases t.get? id with
    | none => rfl
    | some note =>
      by_cases hid : note.id = deleted <;> simp [NoteWrite.onNote, hid]
  | destroy destroyed destroyedAt =>
    rw [NoteWrite.apply, NoteTable.write, Keyed.get?_update]
    cases t.get? id <;> simp [NoteWrite.onNote]
  | bind handles job =>
    rw [NoteWrite.apply, NoteTable.write, Keyed.get?_update]
    cases t.get? id <;> simp [NoteWrite.onNote]

variable {t : NoteTable}

/-- Two rows of one handle are the same. -/
theorem NoteTable.eq_of_secretHandle_eq {note note' : Note} (h : note ∈ t.rows)
    (h' : note' ∈ t.rows) (heq : note.secretHandle = note'.secretHandle) : note = note' :=
  List.inj_on_of_nodup_map t.handles h h' heq

theorem NoteTable.eq_of_code_eq {note note' : Note} (h : note ∈ t.rows) (h' : note' ∈ t.rows)
    (heq : note.code = note'.code) : note = note' :=
  List.inj_on_of_nodup_map t.codes h h' heq

variable {note : Note}

/-- A write only changes rows that the transaction holds. -/
theorem onNote_of_not_held {h : History} {write : NoteWrite}
    (hheld : ∀ note ∈ held h, t.get? note.id = some note) (hchecked : Checked h write)
    (hnote : note ∈ t.rows) (hnot : note.id ∉ (held h).map Note.id) :
    write.onNote note = some note := by
  have hother : ∀ {id : String}, (∃ row ∈ held h, row.id = id) → note.id ≠ id := by
    rintro _ ⟨row, hrow, rfl⟩ heq
    exact hnot (heq ▸ List.mem_map_of_mem hrow)
  cases write with
  | delete id => simp [NoteWrite.onNote, hother hchecked]
  | destroy id destroyedAt =>
    obtain ⟨row, hrow, hid, _⟩ := hchecked
    simp [NoteWrite.onNote, hother ⟨row, hrow, hid⟩]
  | bind handles job =>
    have hhandle : handles.contains note.secretHandle = false := by
      by_contra hcontains
      obtain ⟨_, _, _, hrows⟩ := hchecked
      obtain ⟨row, hrow, hsame, _⟩ := hrows note.secretHandle (by simpa using hcontains)
      have heq := t.eq_of_secretHandle_eq (Keyed.mem_of_get? (hheld row hrow)) hnote hsame
      exact hother ⟨row, hrow, rfl⟩ (congrArg Note.id heq.symm)
    simp only [NoteWrite.onNote, hhandle, Bool.false_eq_true, if_false]

/-! ## Steps -/

/-- What a statement makes of a row, if it leaves one. -/
def Statement.onNote (now : Timestamp) : Statement → Note → Option Note
  | .deleteExpired code, note =>
    if note.code = code ∧ note.expiresAt ≤ now then none else some note
  | .commit (some write) _, note => write.onNote note
  | _, note => some note

/-- The rows that are released at the end of a transaction. -/
def Statement.released : Statement → List String
  | .commit _ locked | .rollback locked => locked
  | _ => []

theorem get?_execute (vault : Vault) (now : Timestamp) (s : Statement) (id : String) :
    (vault.execute now s).2.notes.get? id = (vault.notes.get? id).bind (s.onNote now) := by
  cases s with
  | deleteExpired code =>
    rw [Vault.execute, NoteTable.delete, Keyed.get?_remove]
    cases vault.notes.get? id with
    | none => rfl
    | some note =>
      by_cases hexpired : note.code = code ∧ note.expiresAt ≤ now
      · simp [Statement.onNote, hexpired]
      · rw [Option.bind_some, Statement.onNote, if_neg hexpired, Option.filter_some, if_pos]
        simpa [not_and, imp_iff_not_or] using hexpired
  | commit write locked =>
    cases write with
    | none => exact (Option.bind_fun_some _).symm
    | some write => exact get?_apply vault.notes write id
  | findJob | findNoteByCode | findNoteOfJob | selectForUpdate | rollback =>
    exact (Option.bind_fun_some _).symm

variable {s : Statement}

variable {now : Timestamp}

/-- A statement leaves a row as it is, destroys its content, or binds it to a job. -/
theorem onNote_cases {note after : Note} (hafter : s.onNote now note = some after) :
    after = note ∨ (∃ destroyedAt, after = (Note.destroy destroyedAt).apply note) ∨
      ∃ handles job locked, s = .commit (some (.bind handles job)) locked ∧
        handles.contains note.secretHandle = true ∧ after = (Note.bind job).apply note := by
  unfold Statement.onNote at hafter
  split at hafter
  · split at hafter <;> cases hafter
    exact .inl rfl
  next write locked =>
    cases write with
    | delete id =>
      simp only [NoteWrite.onNote] at hafter
      split at hafter <;> cases hafter
      exact .inl rfl
    | destroy id destroyedAt =>
      cases hafter
      split
      · exact .inr (.inl ⟨destroyedAt, rfl⟩)
      · exact .inl rfl
    | bind handles job =>
      cases hafter
      split
      next hcontains => exact .inr (.inr ⟨handles, job, locked, rfl, hcontains, rfl⟩)
      · exact .inl rfl
  · cases hafter
    exact .inl rfl

theorem follows_statement {note after : Note} (hafter : s.onNote now note = some after) :
    note.Follows after := by
  rcases onNote_cases hafter with rfl | ⟨_, rfl⟩ | ⟨_, _, _, _, _, rfl⟩
  all_goals exact ⟨rfl, rfl, rfl, rfl, rfl, rfl⟩

/-- The content that is gone does not come back. -/
theorem contentEnc_onNote {note after : Note} (hafter : s.onNote now note = some after)
    (hgone : note.contentEnc = none) : after.contentEnc = none := by
  rcases onNote_cases hafter with rfl | ⟨_, rfl⟩ | ⟨_, _, _, _, _, rfl⟩
  · exact hgone
  · rfl
  · exact hgone

/-- The jobs that are there stay there, with their organisation and user. -/
def JobsStay (jobs jobs' : Keyed JobRow.id) : Prop :=
  ∀ job ∈ jobs.rows, ∃ job' ∈ jobs'.rows,
    job'.id = job.id ∧ job'.organizationId = job.organizationId ∧ job'.userId = job.userId

theorem jobsStay_apply (jobs : Keyed JobRow.id) (change : JobChange) :
    JobsStay jobs (change.apply jobs) := by
  intro job hjob
  cases change with
  | create new =>
    refine ⟨job, ?_, rfl, rfl, rfl⟩
    rw [JobChange.apply]
    cases hinsert : jobs.insertAll [new] with
    | none => exact hjob
    | some jobs' =>
      rw [Keyed.insertAll] at hinsert
      split at hinsert <;> cases hinsert
      exact List.mem_append_left _ hjob
  | lease jobId leaseOwnerRunnerId leaseId leaseExpiresAt =>
    refine ⟨_, mem_update_of_mem hjob _ _, ?_⟩
    split <;> exact ⟨rfl, rfl, rfl⟩

/-- The time that an answer carries. -/
def time? : Event Op.Answer → Option Timestamp
  | ⟨.query _, .ok (_, t)⟩ => some t
  | ⟨.clock, t⟩ => some t
  | _ => none

/-- What a step does: nothing to the notes, or one statement. -/
inductive StepCases (config : Config) (p : World) (a : WorldAction) : Prop
  | idle (hperformed : (notes config).performed p a = none)
      (hnotes : ((notes config).step p a).memory.notes = p.memory.notes)
      (hlocked : ((notes config).step p a).memory.locked = p.memory.locked)
      (hclock : ((notes config).step p a).memory.clock = p.memory.clock)
      (hjobs : JobsStay p.memory.jobs ((notes config).step p a).memory.jobs)
  | failed (i : ℕ) (outside : Outside) (task : NoteTask) (op : Op)
      (next : op.Answer → Handler Unit) (answer : op.Answer)
      (ha : a = .advance i outside) (htask : p.tasks[i]? = some task)
      (hrest : task.rest = .call op next)
      (hperformed : (notes config).performed p a = some ⟨op, answer⟩)
      (hnot : ∀ s value, (⟨op, answer⟩ : Event Op.Answer) ≠ ⟨.query s, .ok value⟩)
      (hnotes : ((notes config).step p a).memory.notes = p.memory.notes)
      (hlocked : ∀ id ∈ p.memory.locked, (∀ s, op = .query s → id ∉ s.released) →
        id ∈ ((notes config).step p a).memory.locked)
      (hclock : p.memory.clock ≤ ((notes config).step p a).memory.clock)
      (htime : ∀ t, time? ⟨op, answer⟩ = some t → t = ((notes config).step p a).memory.clock)
      (hjobs : ((notes config).step p a).memory.jobs = p.memory.jobs)
  | executed (i : ℕ) (outside : Outside) (task : NoteTask) (s : Statement)
      (next : (Op.query s).Answer → Handler Unit) (t : Timestamp)
      (ha : a = .advance i outside) (htask : p.tasks[i]? = some task)
      (hrest : task.rest = .call (.query s) next)
      (hperformed : (notes config).performed p a =
        some ⟨.query s, .ok ((p.memory.execute t s).1, t)⟩)
      (hmemory : ((notes config).step p a).memory =
        { (p.memory.execute t s).2 with clock := t })
      (hclock : p.memory.clock ≤ t)

variable {id : String} {vault : Vault}

theorem mem_unlock {ids : List String} (hid : id ∈ vault.locked) (hnot : id ∉ ids) :
    id ∈ (vault.unlock ids).locked := by
  simp [Vault.unlock, hid, hnot]

theorem mem_locked_failed (hid : id ∈ vault.locked) (hnot : id ∉ s.released) :
    id ∈ (vault.failed s).locked := by
  cases s with
  | commit write locked => exact mem_unlock hid hnot
  | rollback locked => exact mem_unlock hid hnot
  | _ => exact hid

theorem mem_locked_execute (hid : id ∈ vault.locked) (hnot : id ∉ s.released) :
    id ∈ (vault.execute now s).2.locked := by
  cases s with
  | commit write locked =>
    cases write with
    | none => exact mem_unlock hid hnot
    | some write =>
      exact mem_unlock (show id ∈ Vault.locked { vault with notes := _ } from hid) hnot
  | rollback locked => exact mem_unlock hid hnot
  | selectForUpdate filter => exact List.mem_append_left _ hid
  | _ => exact hid

theorem stepCases (config : Config) (p : World) (a : WorldAction) : StepCases config p a := by
  rcases System.step_memory_cases (notes config) p a with ⟨hnone, hmemory⟩ |
    ⟨i, outside, task, op, next, ha, htask, hrest, hperformed, hmemory⟩ |
    ⟨change, hnone, hmemory⟩
  · refine .idle hnone ?_ ?_ ?_ ?_ <;> rw [hmemory]
    exact fun job hjob => ⟨job, hjob, rfl, rfl, rfl⟩
  · have hclock := le_max_left p.memory.clock outside.now
    cases op with
    | clock =>
      refine .failed i outside task _ next _ ha htask hrest hperformed (fun _ _ h => nomatch h)
        ?_ ?_ ?_ ?_ ?_ <;> rw [hmemory]
      · rfl
      · exact fun id hid _ => hid
      · exact hclock
      · intro t ht
        cases ht
        rfl
      · rfl
    | reply r =>
      refine .failed i outside task _ next _ ha htask hrest hperformed (fun _ _ h => nomatch h)
        ?_ ?_ ?_ ?_ ?_ <;> rw [hmemory]
      · rfl
      · exact fun id hid _ => hid
      · exact hclock
      · exact fun t ht => nomatch ht
      · rfl
    | query s =>
      cases hfault : outside.fault with
      | some e =>
        have hperform : (notes config).perform outside p.memory (.query s) =
            (.error e, { p.memory.failed s with clock := max p.memory.clock outside.now }) := by
          simp only [notes, Vault.perform, hfault]
        rw [hperform] at hperformed hmemory
        refine .failed i outside task _ next _ ha htask hrest hperformed (fun _ _ h => nomatch h)
          ?_ ?_ ?_ ?_ ?_ <;> rw [hmemory]
        · cases s <;> rfl
        · exact fun id hid hnot => mem_locked_failed hid (hnot s rfl)
        · exact hclock
        · exact fun t ht => nomatch ht
        · cases s <;> rfl
      | none =>
        have hperform : (notes config).perform outside p.memory (.query s) =
            (.ok ((p.memory.execute (max p.memory.clock outside.now) s).1,
                max p.memory.clock outside.now),
              { (p.memory.execute (max p.memory.clock outside.now) s).2 with
                clock := max p.memory.clock outside.now }) := by
          simp only [notes, Vault.perform, hfault]
        rw [hperform] at hperformed hmemory
        exact .executed i outside task s next _ ha htask hrest hperformed hmemory hclock
  · refine .idle hnone ?_ ?_ ?_ ?_ <;> rw [hmemory]
    · rfl
    · rfl
    · rfl
    · exact jobsStay_apply p.memory.jobs change

variable {t : Timestamp} {config : Config} {p : World} {a : WorldAction}

theorem executed_of_performed {value : s.Result}
    (h : (notes config).performed p a = some ⟨.query s, .ok (value, t)⟩) :
    value = (p.memory.execute t s).1 ∧
      ((notes config).step p a).memory = { (p.memory.execute t s).2 with clock := t } := by
  cases stepCases config p a with
  | idle hperformed => exact nomatch hperformed.symm.trans h
  | failed i outside task op next answer ha htask hrest hperformed hnot =>
    exact absurd (Option.some.inj (hperformed.symm.trans h)) (hnot _ _)
  | executed i outside task s' next t' ha htask hrest hperformed hmemory =>
    cases hperformed.symm.trans h
    exact ⟨rfl, hmemory⟩

theorem get?_of_selected {filter : NoteFilter} {rows : List Note}
    (h : (notes config).performed p a = some ⟨.query (.selectForUpdate filter), .ok (rows, t)⟩)
    {row : Note} (hrow : row ∈ rows) : p.memory.notes.get? row.id = some row := by
  rw [(executed_of_performed h).1] at hrow
  exact Keyed.get?_of_mem (List.mem_of_mem_filter hrow)

theorem get?_of_found {handle jobId : String} {row : Note} (h : (notes config).performed p a =
      some ⟨.query (.findNoteOfJob handle jobId), .ok (some row, t)⟩) :
    p.memory.notes.get? row.id = some row :=
  Keyed.get?_of_mem (List.mem_of_find?_eq_some (executed_of_performed h).1.symm)

/-! ## What holds in every run -/

/-- What the answers of the tables say. -/
def Faithful (t₀ : NoteTable) : Event Op.Answer → Prop
  | ⟨.query (.selectForUpdate filter), .ok (rows, _)⟩ =>
    ∀ note ∈ rows, filter.matches note = true ∧ ∃ old ∈ t₀.rows, old.Follows note
  | ⟨.query (.findNoteOfJob handle jobId), .ok (some note, _)⟩ =>
    note.secretHandle = handle ∧ note.jobId = some jobId ∧ ∃ old ∈ t₀.rows, old.Follows note
  | ⟨.query (.findJob jobId), .ok (some job, _)⟩ => job.id = jobId
  | _ => True

/-- The note was revealed. -/
def Destroys (id : String) (h : History) : Prop :=
  ∃ destroyedAt locked returned t,
    (⟨.query (.commit (some (.destroy id destroyedAt)) locked), .ok (returned, t)⟩ :
      Event Op.Answer) ∈ h

def Timed (clock : Timestamp) (h : History) : Prop :=
  (h.filterMap time?).Pairwise (· ≤ ·) ∧ ∀ t ∈ h.filterMap time?, t ≤ clock

structure Ledger (config : Config) (t₀ : NoteTable) (p : World) : Prop where
  sound : ∀ task ∈ p.tasks, task.Sound (noteRule config)
  follows : ∀ note ∈ p.memory.notes.rows, ∃ old ∈ t₀.rows, old.Follows note
  faithful : ∀ event, System.Happened p event → Faithful t₀ event
  holds : ∀ task ∈ p.tasks, ∀ note ∈ held task.history,
    note.id ∈ p.memory.locked ∧ p.memory.notes.get? note.id = some note
  apart : ∀ (i j : ℕ) (task other : NoteTask), p.tasks[i]? = some task →
    p.tasks[j]? = some other → i ≠ j → ∀ note ∈ held task.history, ∀ note' ∈ held other.history,
    note.id ≠ note'.id
  jobs : ∀ jobId job t, System.Happened p ⟨.query (.findJob jobId), .ok (some job, t)⟩ →
    ∃ job' ∈ p.memory.jobs.rows,
      job'.id = job.id ∧ job'.organizationId = job.organizationId ∧ job'.userId = job.userId
  destroyed : ∀ id, ∀ task ∈ p.tasks, Destroys id task.history →
    ∀ note, p.memory.notes.get? id = some note → note.contentEnc = none
  once : ∀ (i j : ℕ) (task other : NoteTask) (id : String),
    p.tasks[i]? = some task → p.tasks[j]? = some other → Destroys id task.history →
    Destroys id other.history → i = j
  times : ∀ task ∈ p.tasks, Timed p.memory.clock task.history

section Step

variable {config : Config} {t₀ : NoteTable} {p : World} {a : WorldAction} {task other : NoteTask}
  {i j : ℕ} {event : Event Op.Answer}

/-- Where the row after a step comes from. -/
theorem row_step {after : Note}
    (hafter : ((notes config).step p a).memory.notes.get? id = some after) :
    ∃ note, p.memory.notes.get? id = some note ∧ note.Follows after ∧
      (note.contentEnc = none → after.contentEnc = none) := by
  cases stepCases config p a with
  | idle hperformed hnotes => exact ⟨after, hnotes ▸ hafter, after.follows_refl, fun h => h⟩
  | failed i outside task op next answer ha htask hrest hperformed hnot hnotes =>
    exact ⟨after, hnotes ▸ hafter, after.follows_refl, fun h => h⟩
  | executed i outside task s next t ha htask hrest hperformed hmemory =>
    rw [hmemory] at hafter
    obtain ⟨note, hnote, honNote⟩ := Option.bind_eq_some_iff.mp
      ((get?_execute p.memory t s id).symm.trans hafter)
    exact ⟨note, hnote, follows_statement honNote, contentEnc_onNote honNote⟩

/-- The statement ends a transaction. -/
def Statement.ends : Statement → Bool
  | .commit .. | .rollback _ => true
  | _ => false

/-- The rows that a task holds after its step: those it held, or rows that were free and are
now as it has read them. -/
theorem held_performed (hserial : Serialised config p a) {outside : Outside}
    (ha : a = .advance i outside) (htask : p.tasks[i]? = some task)
    (hperformed : (notes config).performed p a = some event)
    (hnote : note ∈ held (task.history ++ [event])) :
    (note ∈ held task.history ∧ ∀ s next, task.rest = .call (.query s) next → s.ends = false) ∨
      (note.id ∉ p.memory.locked ∧ note.id ∈ ((notes config).step p a).memory.locked ∧
        ((notes config).step p a).memory.notes.get? note.id = some note) := by
  rw [held_concat] at hnote
  cases stepCases config p a with
  | idle hnone => exact nomatch hnone.symm.trans hperformed
  | failed i' outside' task' op next answer ha' htask' hrest hperformed' hnot =>
    cases ha.symm.trans ha'
    cases htask.symm.trans htask'
    cases hperformed'.symm.trans hperformed
    unfold heldStep at hnote
    split at hnote
    next heq => exact absurd heq (hnot _ _)
    next => cases hnote
    next => cases hnote
    next hselect hcommit hrollback =>
      refine .inl ⟨hnote, fun s next' hrest' => ?_⟩
      cases hrest.symm.trans hrest'
      cases s with
      | commit write locked => exact absurd rfl (hcommit _ _ _)
      | rollback locked => exact absurd rfl (hrollback _ _)
      | _ => rfl
  | executed i' outside' task' s next t ha' htask' hrest hperformed' hmemory =>
    cases ha.symm.trans ha'
    cases htask.symm.trans htask'
    cases hperformed'.symm.trans hperformed
    have hstays : ∀ {s'}, s = s' → s'.ends = false →
        ∀ s'' next', task.rest = .call (.query s'') next' → s''.ends = false := by
      rintro s' rfl hfalse s'' next' hrest'
      cases hrest.symm.trans hrest'
      exact hfalse
    cases s with
    | selectForUpdate filter =>
      rw [Serialised, hperformed'] at hserial
      obtain ⟨hmem, _⟩ := List.mem_filter.mp hnote
      refine .inr ⟨hserial note hnote, ?_⟩
      rw [hmemory]
      exact ⟨List.mem_append_right _ (List.mem_map_of_mem hnote), Keyed.get?_of_mem hmem⟩
    | commit write locked => cases hnote
    | rollback locked => cases hnote
    | findJob | findNoteByCode | findNoteOfJob | deleteExpired =>
      exact .inl ⟨hnote, hstays rfl rfl⟩

/-- What a task holds it held before, or it was free. -/
theorem held_step (hserial : Serialised config p a)
    (htask : ((notes config).step p a).tasks[j]? = some task) (hnote : note ∈ held task.history) :
    ∃ old, p.tasks[j]? = some old ∧ (note ∈ held old.history ∨
      note.id ∉ p.memory.locked ∧ ∃ outside, a = .advance j outside) := by
  cases System.origin htask with
  | begun work => cases hnote
  | kept hold => exact ⟨task, hold, .inl hnote⟩
  | answered hold hrest =>
    rename_i outside old op next
    refine ⟨old, hold, ?_⟩
    rcases held_performed hserial rfl hold (System.performed_advance hold hrest) hnote with
      ⟨hnote, _⟩ | ⟨hfree, _⟩
    · exact .inl hnote
    · exact .inr ⟨hfree, outside, rfl⟩

/-- A task that has revealed a note did so before the step, or does so with it. -/
theorem destroys_step (htask : ((notes config).step p a).tasks[j]? = some task)
    (hdestroys : Destroys id task.history) :
    (∃ old, p.tasks[j]? = some old ∧ Destroys id old.history) ∨
      ∃ outside old destroyedAt locked next returned t, a = .advance j outside ∧
        p.tasks[j]? = some old ∧
        old.rest = .call (.query (.commit (some (.destroy id destroyedAt)) locked)) next ∧
        (notes config).performed p a =
          some ⟨.query (.commit (some (.destroy id destroyedAt)) locked), .ok (returned, t)⟩ := by
  obtain ⟨destroyedAt, locked, returned, t, hmem⟩ := hdestroys
  cases System.origin htask with
  | begun work => cases hmem
  | kept hold => exact .inl ⟨task, hold, destroyedAt, locked, returned, t, hmem⟩
  | answered hold hrest =>
    rename_i outside old op next
    rcases List.mem_append.mp hmem with hmem | hmem
    · exact .inl ⟨old, hold, destroyedAt, locked, returned, t, hmem⟩
    · have hevent := List.mem_singleton.mp hmem
      have hperformed := (System.performed_advance hold hrest).trans (congrArg some hevent.symm)
      cases congrArg Event.op hevent
      exact .inr ⟨outside, old, destroyedAt, locked, next, returned, t, rfl, hold, hrest,
        hperformed⟩

theorem clock_step (config : Config) (p : World) (a : WorldAction) :
    p.memory.clock ≤ ((notes config).step p a).memory.clock := by
  cases stepCases config p a with
  | idle hperformed hnotes hlocked hclock => exact hclock.ge
  | failed i outside task op next answer ha htask hrest hperformed hnot hnotes hlocked hclock =>
    exact hclock
  | executed i outside task s next t ha htask hrest hperformed hmemory hclock =>
    rw [hmemory]
    exact hclock

/-- The time that an operation gives is that of the clock after it. -/
theorem time_performed (hperformed : (notes config).performed p a = some event)
    (ht : time? event = some t) : t = ((notes config).step p a).memory.clock := by
  cases stepCases config p a with
  | idle hnone => exact nomatch hnone.symm.trans hperformed
  | failed i outside task op next answer ha htask hrest hperformed' hnot hnotes hlocked hclock
      htime =>
      cases hperformed'.symm.trans hperformed
      exact htime t ht
  | executed i outside task s next t' ha htask hrest hperformed' hmemory =>
    cases hperformed'.symm.trans hperformed
    rw [hmemory]
    exact (Option.some.inj ht).symm

theorem Timed.concat {clock clock' : Timestamp} {h : History} (htimed : Timed clock h)
    (hclock : clock ≤ clock') (hevent : ∀ t, time? event = some t → t = clock') :
    Timed clock' (h ++ [event]) := by
  have hlater := fun t ht => (htimed.2 t ht).trans hclock
  rw [Timed, List.filterMap_append]
  cases htime : time? event with
  | none =>
    rw [List.filterMap_cons_none htime, List.filterMap_nil, List.append_nil]
    exact ⟨htimed.1, hlater⟩
  | some t =>
    rw [List.filterMap_cons_some htime, List.filterMap_nil, hevent t htime]
    refine ⟨List.pairwise_append.mpr ⟨htimed.1, List.pairwise_singleton _ _, fun t ht t' ht' => ?_⟩,
      fun t ht => ?_⟩
    · rw [List.mem_singleton.mp ht']
      exact hlater t ht
    · rcases List.mem_append.mp ht with ht | ht
      · exact hlater t ht
      · exact (List.mem_singleton.mp ht).le

variable (hledger : Ledger config t₀ p)
include hledger

theorem Ledger.rule {op : Op} {next : op.Answer → Handler Unit}
    (htask : p.tasks[i]? = some task) (hrest : task.rest = .call op next) :
    noteRule config task.work task.history op :=
  (hledger.sound task (List.mem_of_getElem? htask)).next hrest

theorem Ledger.follows_step (hnote : note ∈ ((notes config).step p a).memory.notes.rows) :
    ∃ old ∈ t₀.rows, old.Follows note := by
  obtain ⟨before, hbefore, hfollows, _⟩ := row_step (Keyed.get?_of_mem hnote)
  obtain ⟨old, hold, hfollows'⟩ := hledger.follows before (Keyed.mem_of_get? hbefore)
  exact ⟨old, hold, hfollows'.trans hfollows⟩

theorem Ledger.faithful_performed
    (hevent : (notes config).performed p a = some event) : Faithful t₀ event := by
  cases stepCases config p a with
  | idle hperformed => exact nomatch hperformed.symm.trans hevent
  | failed i outside task op next answer ha htask hrest hperformed hnot =>
    cases hperformed.symm.trans hevent
    unfold Faithful
    split
    next heq => exact absurd heq (hnot _ _)
    next heq => exact absurd heq (hnot _ _)
    next heq => exact absurd heq (hnot _ _)
    next => trivial
  | executed i outside task s next t ha htask hrest hperformed =>
    cases hperformed.symm.trans hevent
    cases s with
    | selectForUpdate filter =>
      intro note hnote
      obtain ⟨hmem, hmatches⟩ := List.mem_filter.mp hnote
      exact ⟨hmatches, hledger.follows note hmem⟩
    | findNoteOfJob handle jobId =>
      cases hfind : p.memory.notes.rows.find? fun note =>
          note.secretHandle = handle && note.jobId = some jobId with
      | none =>
        simp only [Vault.execute, hfind]
        trivial
      | some note =>
        simp only [Vault.execute, hfind]
        have hmatches := List.find?_some hfind
        simp only [Bool.and_eq_true, decide_eq_true_eq] at hmatches
        exact ⟨hmatches.1, hmatches.2, hledger.follows note (List.mem_of_find?_eq_some hfind)⟩
    | findJob jobId =>
      cases hfind : p.memory.jobs.get? jobId with
      | none =>
        simp only [Vault.execute, hfind]
        trivial
      | some job =>
        simp only [Vault.execute, hfind]
        exact Keyed.key_of_get? hfind
    | _ => trivial

/-! ## Locks -/

/-- A row that is locked stays as it is, unless its own transaction ends. -/
theorem Ledger.locked_stays (hserial : Serialised config p a)
    (hlocked : note.id ∈ p.memory.locked) (hnote : p.memory.notes.get? note.id = some note)
    (hends : ∀ (i : ℕ) outside task s next, a = .advance i outside → p.tasks[i]? = some task →
      task.rest = .call (.query s) next → s.ends = true →
      note.id ∉ (held task.history).map Note.id) :
    note.id ∈ ((notes config).step p a).memory.locked ∧
      ((notes config).step p a).memory.notes.get? note.id = some note := by
  have hreleased : ∀ {i : ℕ} {outside : Outside} {task : NoteTask}
      {s : Statement} {next : (Op.query s).Answer → Handler Unit}, a = .advance i outside →
      p.tasks[i]? = some task → task.rest = .call (.query s) next → note.id ∉ s.released := by
    intro i outside task s next ha htask hrest
    have hrule := hledger.rule htask hrest
    cases s with
    | commit write locked =>
      rw [Statement.released, hrule.1]
      exact hends _ _ _ _ _ ha htask hrest rfl
    | rollback locked =>
      rw [Statement.released, show locked = _ from hrule]
      exact hends _ _ _ _ _ ha htask hrest rfl
    | _ => exact List.not_mem_nil
  cases stepCases config p a with
  | idle hperformed hnotes hsame => exact ⟨hsame ▸ hlocked, hnotes ▸ hnote⟩
  | failed i outside task op next answer ha htask hrest hperformed hnot hnotes hkept =>
    refine ⟨hkept note.id hlocked fun s hs => ?_, hnotes ▸ hnote⟩
    subst hs
    exact hreleased ha htask hrest
  | executed i outside task s next t ha htask hrest hperformed hmemory =>
    rw [hmemory]
    refine ⟨mem_locked_execute hlocked (hreleased ha htask hrest), ?_⟩
    refine (get?_execute p.memory t s note.id).trans ?_
    rw [hnote, Option.bind_some]
    have hrule := hledger.rule htask hrest
    cases s with
    | deleteExpired code =>
      rw [Serialised, hperformed] at hserial
      refine if_neg fun hexpired => ?_
      exact hserial note (Keyed.mem_of_get? hnote) hexpired.1 hexpired.2 hlocked
    | commit write locked =>
      cases write with
      | none => rfl
      | some write =>
        have hheld := fun row hrow =>
          (hledger.holds task (List.mem_of_getElem? htask) row hrow).2
        exact onNote_of_not_held hheld (hrule.2 write rfl) (Keyed.mem_of_get? hnote)
          (hends _ _ _ _ _ ha htask hrest rfl)
    | _ => rfl

theorem Ledger.holds_step (hserial : Serialised config p a)
    (htask : ((notes config).step p a).tasks[j]? = some task) (hnote : note ∈ held task.history) :
    note.id ∈ ((notes config).step p a).memory.locked ∧
      ((notes config).step p a).memory.notes.get? note.id = some note := by
  cases System.origin htask with
  | begun work => cases hnote
  | kept hold =>
    obtain ⟨hlocked, hget⟩ := hledger.holds task (List.mem_of_getElem? hold) note hnote
    refine hledger.locked_stays hserial hlocked hget
      fun i outside task' s next ha htask' hrest hends => ?_
    rcases eq_or_ne i j with rfl | hne
    · subst ha
      cases hold.symm.trans htask'
      exact absurd htask (System.ne_of_step_advance hold hrest)
    · intro hmem
      obtain ⟨note', hnote', hid⟩ := List.mem_map.mp hmem
      exact hledger.apart i j task' task htask' hold hne note' hnote' note hnote hid
  | answered hold hrest =>
    rename_i outside old op next
    rcases held_performed hserial rfl hold (System.performed_advance hold hrest) hnote with
      ⟨hnote, hends⟩ | ⟨_, hstep⟩
    · obtain ⟨hlocked, hget⟩ := hledger.holds old (List.mem_of_getElem? hold) note hnote
      refine hledger.locked_stays hserial hlocked hget
        fun i _ task' s next' ha htask' hrest' hend => ?_
      cases ha
      cases hold.symm.trans htask'
      exact nomatch (hends s next' hrest').symm.trans hend
    · exact hstep

theorem Ledger.apart_step (hserial : Serialised config p a)
    (htask : ((notes config).step p a).tasks[i]? = some task)
    (hother : ((notes config).step p a).tasks[j]? = some other) (hne : i ≠ j) {note note' : Note}
    (hnote : note ∈ held task.history) (hnote' : note' ∈ held other.history) :
    note.id ≠ note'.id := by
  obtain ⟨old, hgot, hcase⟩ := held_step hserial htask hnote
  obtain ⟨old', hgot', hcase'⟩ := held_step hserial hother hnote'
  rcases hcase with hheld | ⟨hfree, outside, rfl⟩
  · rcases hcase' with hheld' | ⟨hfree', _⟩
    · exact hledger.apart i j old old' hgot hgot' hne note hheld note' hheld'
    · have hlocked := (hledger.holds old (List.mem_of_getElem? hgot) note hheld).1
      exact fun heq => hfree' (heq ▸ hlocked)
  · rcases hcase' with hheld' | ⟨_, outside', hsame⟩
    · have hlocked := (hledger.holds old' (List.mem_of_getElem? hgot') note' hheld').1
      exact fun heq => hfree (heq ▸ hlocked)
    · cases hsame
      exact absurd rfl hne

/-! ## Reveals -/

theorem Ledger.jobs_step {jobId : String} {job : JobRow}
    (hfound : System.Happened ((notes config).step p a)
      ⟨.query (.findJob jobId), .ok (some job, t)⟩) :
    ∃ job' ∈ ((notes config).step p a).memory.jobs.rows,
      job'.id = job.id ∧ job'.organizationId = job.organizationId ∧ job'.userId = job.userId := by
  rcases System.happened_step hfound with hold | hnew
  · obtain ⟨job', hjob', hid, horganization, huser⟩ := hledger.jobs jobId job t hold
    cases stepCases config p a with
    | idle hperformed hnotes hlocked hclock hjobs =>
      obtain ⟨later, hlater, hid', horganization', huser'⟩ := hjobs job' hjob'
      exact ⟨later, hlater, hid'.trans hid, horganization'.trans horganization, huser'.trans huser⟩
    | failed i outside task op next answer ha htask hrest hperformed hnot hnotes hlocked hclock
        htime hjobs => exact ⟨job', hjobs ▸ hjob', hid, horganization, huser⟩
    | executed i outside task s next t' ha htask hrest hperformed hmemory =>
      refine ⟨job', ?_, hid, horganization, huser⟩
      rw [hmemory]
      cases s with
      | commit write locked => cases write <;> exact hjob'
      | _ => exact hjob'
  · obtain ⟨hvalue, hmemory⟩ := executed_of_performed hnew
    refine ⟨job, ?_, rfl, rfl, rfl⟩
    rw [hmemory]
    exact Keyed.mem_of_get? hvalue.symm

theorem Ledger.not_destroyed_of_available
    (hget : p.memory.notes.get? note.id = some note) (havailable : note.available = true) :
    ∀ task ∈ p.tasks, ¬ Destroys note.id task.history := by
  intro task hmem hdestroys
  have hgone := hledger.destroyed note.id task hmem hdestroys note hget
  simp [Note.available, hgone, truthy] at havailable

/-- A note that is being revealed was not revealed before. -/
theorem Ledger.not_destroyed {destroyedAt : Timestamp}
    {locked : List String}
    {next : (Op.query (.commit (some (.destroy id destroyedAt)) locked)).Answer → Handler Unit}
    (htask : p.tasks[i]? = some task) (hrest : task.rest = .call _ next) :
    ∀ other ∈ p.tasks, ¬ Destroys id other.history := by
  obtain ⟨_, hchecked⟩ := hledger.rule htask hrest
  obtain ⟨note, hnote, rfl, havailable⟩ := hchecked _ rfl
  obtain ⟨_, hget⟩ := hledger.holds task (List.mem_of_getElem? htask) note hnote
  exact hledger.not_destroyed_of_available hget havailable

theorem Ledger.once_step (htask : ((notes config).step p a).tasks[i]? = some task)
    (hother : ((notes config).step p a).tasks[j]? = some other)
    (hdestroys : Destroys id task.history) (hdestroys' : Destroys id other.history) : i = j := by
  rcases destroys_step htask hdestroys with ⟨old, hold, hbefore⟩ |
    ⟨outside, old, _, _, _, _, _, ha, hold, hrest, _⟩
  · rcases destroys_step hother hdestroys' with ⟨old', hold', hbefore'⟩ |
      ⟨outside', old', _, _, _, _, _, ha', hold', hrest', _⟩
    · exact hledger.once i j old old' id hold hold' hbefore hbefore'
    · exact absurd hbefore (hledger.not_destroyed hold' hrest' old (List.mem_of_getElem? hold))
  · rcases destroys_step hother hdestroys' with ⟨old', hold', hbefore'⟩ |
      ⟨outside', old', _, _, _, _, _, ha', hold', hrest', _⟩
    · exact absurd hbefore' (hledger.not_destroyed hold hrest old' (List.mem_of_getElem? hold'))
    · cases ha.symm.trans ha'
      rfl

theorem Ledger.destroyed_step (htask : ((notes config).step p a).tasks[j]? = some task)
    (hdestroys : Destroys id task.history)
    (hnote : ((notes config).step p a).memory.notes.get? id = some note) :
    note.contentEnc = none := by
  rcases destroys_step htask hdestroys with ⟨old, hold, hbefore⟩ |
    ⟨outside, old, destroyedAt, locked, next, returned, t, ha, hold, hrest, hperformed⟩
  · obtain ⟨before, hget, _, hgone⟩ := row_step hnote
    exact hgone (hledger.destroyed id old (List.mem_of_getElem? hold) hbefore before hget)
  · rw [(executed_of_performed hperformed).2] at hnote
    obtain ⟨before, hbefore, honNote⟩ := Option.bind_eq_some_iff.mp
      ((get?_execute p.memory t _ id).symm.trans hnote)
    have hid : before.id = id := Keyed.key_of_get? hbefore
    simp only [Statement.onNote, NoteWrite.onNote, hid, if_true, Option.some.injEq] at honNote
    rw [← honNote]
    rfl

theorem Ledger.timed_step (htask : ((notes config).step p a).tasks[j]? = some task) :
    Timed ((notes config).step p a).memory.clock task.history := by
  have hclock := clock_step config p a
  cases System.origin htask with
  | begun work => exact ⟨List.Pairwise.nil, fun _ ht => nomatch ht⟩
  | kept hold =>
    have hpast := hledger.times task (List.mem_of_getElem? hold)
    exact ⟨hpast.1, fun t ht => (hpast.2 t ht).trans hclock⟩
  | answered hold hrest =>
    have hpast := hledger.times _ (List.mem_of_getElem? hold)
    exact hpast.concat hclock fun t ht => time_performed (System.performed_advance hold hrest) ht

theorem Ledger.step (hserial : Serialised config p a) :
    Ledger config t₀ ((notes config).step p a) where
  sound := System.sound_step (safe_program config) hledger.sound a
  follows _ hnote := hledger.follows_step hnote
  faithful event hevent := by
    rcases System.happened_step hevent with hold | hnew
    · exact hledger.faithful event hold
    · exact hledger.faithful_performed hnew
  holds task hmem note hnote := by
    obtain ⟨j, htask⟩ := List.mem_iff_getElem?.mp hmem
    exact hledger.holds_step hserial htask hnote
  apart _ _ _ _ htask hother hne _ hnote _ hnote' :=
    hledger.apart_step hserial htask hother hne hnote hnote'
  jobs _ _ _ hfound := hledger.jobs_step hfound
  destroyed id task hmem hdestroys note hnote := by
    obtain ⟨j, htask⟩ := List.mem_iff_getElem?.mp hmem
    exact hledger.destroyed_step htask hdestroys hnote
  once _ _ _ _ _ htask hother hdestroys hdestroys' :=
    hledger.once_step htask hother hdestroys hdestroys'
  times task hmem := by
    obtain ⟨j, htask⟩ := List.mem_iff_getElem?.mp hmem
    exact hledger.timed_step htask

/-! ## Bindings -/

/-- A binding is set once, to a job of the organisation and the recipient of the note. -/
theorem Ledger.jobId_step {row row' : Note}
    (hrow : p.memory.notes.get? id = some row)
    (hrow' : ((notes config).step p a).memory.notes.get? id = some row') :
    row'.jobId = row.jobId ∨ row.jobId = none ∧ ∃ job ∈ p.memory.jobs.rows,
      row'.jobId = some job.id ∧ job.organizationId = row.organizationId ∧
        job.userId = row.recipientUserId := by
  cases stepCases config p a with
  | idle hperformed hnotes =>
    cases hrow.symm.trans (hnotes ▸ hrow')
    exact .inl rfl
  | failed i outside task op next answer ha htask hrest hperformed hnot hnotes =>
    cases hrow.symm.trans (hnotes ▸ hrow')
    exact .inl rfl
  | executed i outside task s next t ha htask hrest hperformed hmemory =>
    rw [hmemory] at hrow'
    have hafter := (get?_execute p.memory t s id).symm.trans hrow'
    rw [hrow, Option.bind_some] at hafter
    rcases onNote_cases hafter with rfl | ⟨_, rfl⟩ | ⟨handles, job, locked, rfl, hcontains, rfl⟩
    · exact .inl rfl
    · exact .inl rfl
    obtain ⟨_, hchecked⟩ := hledger.rule htask hrest
    obtain ⟨jobId, t', hfound, hrows⟩ := hchecked _ rfl
    have hmem := List.mem_of_getElem? htask
    obtain ⟨own, hown, hhandle, hbound, horganization, huser⟩ :=
      hrows row.secretHandle (by simpa using hcontains)
    cases p.memory.notes.eq_of_secretHandle_eq
      (Keyed.mem_of_get? (hledger.holds task hmem own hown).2) (Keyed.mem_of_get? hrow) hhandle
    cases hjobId : row.jobId with
    | some bound =>
      have hne : bound ≠ "" := fun h =>
        p.memory.notes.bound row (Keyed.mem_of_get? hrow) (hjobId.trans (congrArg some h))
      have hsame := hbound (by simp [truthy, hjobId, hne])
      have hid : job.id = jobId := hledger.faithful _ ⟨task, hmem, hfound⟩
      refine .inl ?_
      rw [← hjobId, hsame, ← hid]
      rfl
    | none =>
      obtain ⟨job', hjob', hid, horganization', huser'⟩ :=
        hledger.jobs jobId job t' ⟨task, hmem, hfound⟩
      exact .inr ⟨rfl, job', hjob', congrArg some hid.symm,
        horganization'.trans horganization.symm, huser'.trans huser.symm⟩

end Step

end Talos.SecureNotes
