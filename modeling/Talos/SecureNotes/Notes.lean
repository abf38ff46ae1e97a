import Talos.Interactive.Pool
import Talos.JavaScript.Number
import Talos.Relational.Keyed

/-!
# Secure notes

A generated secret is kept, encrypted, in a secure note. Its recipient may look at it once,
and the AI runner that works on the job which the note is bound to may have it until then.

Binding and revealing are transactions that lock their rows by `SELECT … FOR UPDATE`; the
rows are written and released when the transaction commits. Checking a note and resolving it
for a runner are statements of their own, which see what is committed.
-/

namespace Talos.SecureNotes

open Interactive Program Relational

abbrev Timestamp := ℤ

/-! ## Tables -/

structure Note where
  id : String
  code : String
  secretHandle : String
  organizationId : String
  recipientUserId : String
  recipientEmail : Option String
  contentEnc : Option String
  shellReference : Option String
  desktopReference : Option String
  purpose : Option String
  jobId : Option String
  agentId : Option String
  expiresAt : Timestamp
  viewedAt : Option Timestamp
  destroyedAt : Option Timestamp
deriving DecidableEq

structure JobRow where
  id : String
  named : id ≠ ""
  organizationId : String
  userId : String
  agentId : String
  leaseOwnerRunnerId : Option String
  leaseId : Option String
  leaseExpiresAt : Option Timestamp

/-- The table with its unique indices. A binding always names a job. -/
structure NoteTable extends Keyed Note.id where
  codes : (rows.map Note.code).Nodup
  handles : (rows.map Note.secretHandle).Nodup
  bound : ∀ note ∈ rows, note.jobId ≠ some ""

/-- A string that JavaScript takes as true. -/
def truthy (text : Option String) : Bool := text.any (· ≠ "")

/-- `contentEnc` is there and the note was neither viewed nor destroyed. -/
def Note.available (note : Note) : Bool :=
  truthy note.contentEnc && note.destroyedAt.isNone && note.viewedAt.isNone

/-- An assignment that keeps the indexed columns. -/
structure NoteAssignment extends Assignment Note.id where
  code_eq : ∀ note, (apply note).code = note.code
  secretHandle_eq : ∀ note, (apply note).secretHandle = note.secretHandle
  bound : ∀ note, note.jobId ≠ some "" → (apply note).jobId ≠ some ""

def Note.destroy (destroyedAt : Timestamp) : NoteAssignment where
  apply note :=
    { note with contentEnc := none, viewedAt := some destroyedAt, destroyedAt := some destroyedAt }
  key_eq _ := rfl
  code_eq _ := rfl
  secretHandle_eq _ := rfl
  bound _ h := h

def Note.bind (job : JobRow) : NoteAssignment where
  apply note := { note with jobId := some job.id, agentId := note.agentId.or (some job.agentId) }
  key_eq _ := rfl
  code_eq _ := rfl
  secretHandle_eq _ := rfl
  bound _ _ h := job.named (Option.some.inj h)

def NoteTable.write (t : NoteTable) (p : Note → Bool) (set : NoteAssignment) : NoteTable where
  toKeyed := t.toKeyed.update p set.toAssignment
  codes := by
    rw [Keyed.update, map_update t.rows p set.apply Note.code fun row _ => set.code_eq row]
    exact t.codes
  handles := by
    rw [Keyed.update,
      map_update t.rows p set.apply Note.secretHandle fun row _ => set.secretHandle_eq row]
    exact t.handles
  bound := by
    intro note hmem
    obtain ⟨old, hold, rfl⟩ := mem_update.mp hmem
    split
    · exact set.bound old (t.bound old hold)
    · exact t.bound old hold

def NoteTable.delete (t : NoteTable) (p : Note → Bool) : NoteTable where
  toKeyed := t.toKeyed.remove p
  codes := t.codes.sublist (List.filter_sublist.map _)
  handles := t.handles.sublist (List.filter_sublist.map _)
  bound _ hmem := t.bound _ (List.mem_of_mem_filter hmem)

/-! ## Statements -/

inductive NoteFilter where
  | code (code : String)
  | handles (handles : List String)

def NoteFilter.matches : NoteFilter → Note → Bool
  | .code wanted, note => note.code = wanted
  | .handles wanted, note => wanted.contains note.secretHandle

inductive NoteWrite where
  | delete (id : String)
  | destroy (id : String) (destroyedAt : Timestamp)
  | bind (handles : List String) (job : JobRow)

inductive Statement where
  | findJob (jobId : String)
  | findNoteByCode (code : String)
  | findNoteOfJob (secretHandle jobId : String)
  | deleteExpired (code : String)
  | selectForUpdate (filter : NoteFilter)
  /-- The write of a transaction, with the rows that `RETURNING` gives, and its commit. -/
  | commit (write : Option NoteWrite) (locked : List String)
  | rollback (locked : List String)

@[reducible] def Statement.Result : Statement → Type
  | .findJob _ => Option JobRow
  | .findNoteByCode _ | .findNoteOfJob .. => Option Note
  | .deleteExpired _ => ℕ
  | .selectForUpdate _ | .commit .. => List Note
  | .rollback _ => Unit

structure Summary where
  secretHandle : String
  shellReference : Option String
  desktopReference : Option String
  secureNoteUrl : String
  expiresAt : Timestamp
  purpose : Option String

inductive Check where
  | available (expiresAt : Timestamp) (recipientEmail : Option String)
  | notFound
  | expired
  | viewed
  | unauthorized

inductive Reveal where
  | revealed (content : String) (destroyedAt : Timestamp)
  | notFound
  | expired
  | viewed
  | unauthorized

structure RunnerSecret where
  secret : String
  shellReference : Option String
  desktopReference : Option String
  secureNoteUrl : String

inductive Reply where
  | attached (summaries : List Summary)
  | checked (check : Check)
  | revealed (reveal : Reveal)
  | resolved (secret : RunnerSecret)

inductive Op where
  | query (statement : Statement)
  | clock
  /-- The call is over. -/
  | reply (reply : Reply)

@[reducible] def Op.Answer : Op → Type
  | .query s => Except String (s.Result × Timestamp)
  | .clock => Timestamp
  | .reply _ => Unit

abbrev Handler (α : Type) := Program Op.Answer String α

def ask (op : Op) : Handler op.Answer := perform op

def query (s : Statement) : Handler s.Result := do
  let outcome ← ask (.query s)
  match outcome with
  | .ok (value, _) => pure value
  | .error e => fail e

/-- `Date.now()`. -/
def dateNow : Handler Timestamp := ask .clock

/-! ## Calls -/

/-- What the calls are configured with: the decryption, which may fail, and the address
of the pages. -/
structure Config where
  decryptSecret : String → Option String
  publicBaseUrl : Option String

variable (config : Config)

def Config.noteUrl (code : String) : String :=
  match config.publicBaseUrl with
  | some baseUrl => baseUrl ++ "/SN/" ++ code
  | none => "/SN/" ++ code

def Config.content (note : Note) : Option String :=
  (note.contentEnc.bind config.decryptSecret).filter (· ≠ "")

def isSecretHandle (value : String) : Bool :=
  match value.toList with
  | 's' :: 'e' :: 'c' :: '_' :: rest =>
    rest.length = 16 && rest.all fun c => ('a' ≤ c && c ≤ 'z') || ('0' ≤ c && c ≤ '9')
  | _ => false

def rowToSummary (note : Note) : Summary where
  secretHandle := note.secretHandle
  shellReference := note.shellReference
  desktopReference := note.desktopReference
  secureNoteUrl := config.noteUrl note.code
  expiresAt := note.expiresAt
  purpose := note.purpose

structure AttachInput where
  organizationId : String
  userId : String
  jobId : String
  agentId : Option String
  secretHandles : List String

variable (input : AttachInput)

def AttachInput.handles : List String :=
  ((input.secretHandles.map JavaScript.trim).filter (· ≠ "")).eraseDups

/-- The checks of one handle, on the rows that are locked. -/
def attachableNote (job : JobRow) (rows : List Note) (handle : String) : Handler Unit :=
  match rows.find? (·.secretHandle = handle) with
  | none => fail ("Generated secret not found: " ++ handle)
  | some note =>
    if note.organizationId ≠ input.organizationId ∨ note.recipientUserId ≠ input.userId then
      fail ("Generated secret is not available to this operator: " ++ handle)
    else do
      let now ← dateNow
      -- the row is deleted here, and the deletion is rolled back with the rest
      if note.expiresAt ≤ now then fail ("Generated secret has expired: " ++ handle)
      else if !note.available then
        fail ("Generated secret is no longer available: " ++ handle)
      else if truthy note.jobId && decide (note.jobId ≠ some input.jobId) then
        fail ("Generated secret is already bound to another runner job: " ++ handle)
      else if truthy note.agentId && decide (note.agentId ≠ some job.agentId) then
        fail ("Generated secret is bound to a different agent: " ++ handle)
      else pure ()

def attachableNotes (input : AttachInput) (job : JobRow) (rows : List Note) :
    List String → Handler Unit
  | [] => pure ()
  | handle :: handles => do
      attachableNote input job rows handle
      attachableNotes input job rows handles

def bindNotes (job : JobRow) (rows : List Note) : Handler (List Summary) := do
  let outcome ← (attachableNotes input job rows input.handles).attempt
  match outcome with
  | .error e => do
      let _ ← (query (.rollback (rows.map Note.id))).attempt
      fail e
  | .ok _ => do
      let updated ← query (.commit (some (.bind input.handles job)) (rows.map Note.id))
      pure (input.handles.filterMap fun handle =>
        (updated.find? (·.secretHandle = handle)).map (rowToSummary config))

def attachGeneratedSecretsToRunnerJob : Handler (List Summary) :=
  if input.handles = [] then pure []
  else
    match input.handles.find? (!isSecretHandle ·) with
    | some handle => fail ("Invalid generated secret handle: " ++ handle)
    | none => do
        let job ← query (.findJob input.jobId)
        match job with
        | none => fail "AI runner job not found"
        | some job =>
          if job.organizationId ≠ input.organizationId ∨ job.userId ≠ input.userId then
            fail "Generated secret job ownership mismatch"
          else if truthy input.agentId && decide (input.agentId ≠ some job.agentId) then
            fail "Generated secret job agent mismatch"
          else do
            let rows ← query (.selectForUpdate (.handles input.handles))
            bindNotes config input job rows

def checkSecureNoteForUser (code userId : String) : Handler Check := do
  let note ← query (.findNoteByCode code)
  match note with
  | none => pure .notFound
  | some note => do
      let now ← dateNow
      if note.expiresAt ≤ now then do
        let _ ← query (.deleteExpired code)
        pure .expired
      else if note.recipientUserId ≠ userId then pure .unauthorized
      else if !note.available then pure .viewed
      else pure (.available note.expiresAt note.recipientEmail)

/-- The transaction commits and the call returns. -/
def commitAnd {α : Type} (write : Option NoteWrite) (rows : List Note) (value : α) : Handler α := do
  let _ ← query (.commit write (rows.map Note.id))
  pure value

def revealNote (userId : String) (rows : List Note) : Handler Reveal :=
  match rows.head? with
  | none => commitAnd none rows .notFound
  | some note => do
      let now ← dateNow
      if note.expiresAt ≤ now then commitAnd (some (.delete note.id)) rows .expired
      else if note.recipientUserId ≠ userId then commitAnd none rows .unauthorized
      else if !note.available then commitAnd none rows .viewed
      else
        match config.content note with
        | none => do
            let _ ← (query (.rollback (rows.map Note.id))).attempt
            fail "Secure note content could not be decrypted"
        | some content => do
            let destroyedAt ← dateNow
            commitAnd (some (.destroy note.id destroyedAt)) rows (.revealed content destroyedAt)

def revealSecureNoteForUser (code userId : String) : Handler Reveal := do
  let rows ← query (.selectForUpdate (.code code))
  revealNote config userId rows

structure ResolveInput where
  jobId : String
  runnerId : Option String
  leaseId : Option String
  secretHandle : String

/-- The checks of the lease of the job. -/
def ensureLease (input : ResolveInput) (job : JobRow) : Handler Unit :=
  if !truthy job.leaseId || decide (job.leaseId ≠ input.leaseId) then
    fail "AI runner callback lease mismatch"
  else if truthy input.runnerId && truthy job.leaseOwnerRunnerId &&
      decide (job.leaseOwnerRunnerId ≠ input.runnerId) then
    fail "AI runner callback runner mismatch"
  else
    match job.leaseExpiresAt with
    | none => pure ()
    | some expiresAt => do
        let now ← dateNow
        if expiresAt ≤ now then fail "AI runner callback lease expired" else pure ()

def resolveNote (input : ResolveInput) (job : JobRow) : Handler RunnerSecret := do
  let note ← query (.findNoteOfJob input.secretHandle input.jobId)
  match note with
  | none => fail "Generated secret not found for runner job"
  | some note =>
    if note.organizationId ≠ job.organizationId then
      fail "Generated secret organization mismatch"
    else do
      let now ← dateNow
      if note.expiresAt ≤ now then do
        let _ ← query (.deleteExpired note.code)
        fail "Generated secret has expired"
      else if !note.available then fail "Generated secret is no longer available"
      else
        match config.content note with
        | none => fail "Generated secret could not be decrypted"
        | some secret =>
          pure ⟨secret, note.shellReference, note.desktopReference, config.noteUrl note.code⟩

def resolveGeneratedSecretForRunner (input : ResolveInput) : Handler RunnerSecret := do
  let job ← query (.findJob input.jobId)
  match job with
  | none => fail "AI runner job not found"
  | some job => do
      ensureLease input job
      resolveNote config input job

/-! ## Calls that are served at the same time -/

inductive Call where
  | attach (input : AttachInput)
  | check (code userId : String)
  | reveal (code userId : String)
  | resolve (input : ResolveInput)

def replyWith {α : Type} (handler : Handler α) (reply : α → Reply) : Handler Unit := do
  let value ← handler
  ask (.reply (reply value))

def Call.program : Call → Handler Unit
  | .attach input => replyWith (attachGeneratedSecretsToRunnerJob config input) .attached
  | .check code userId => replyWith (checkSecureNoteForUser code userId) .checked
  | .reveal code userId => replyWith (revealSecureNoteForUser config code userId) .revealed
  | .resolve input => replyWith (resolveGeneratedSecretForRunner config input) .resolved

structure Vault where
  notes : NoteTable
  jobs : Keyed JobRow.id
  /-- The ids of the notes that transactions have locked. -/
  locked : List String
  clock : Timestamp

structure Outside where
  now : Timestamp
  fault : Option String

def NoteWrite.apply (t : NoteTable) : NoteWrite → NoteTable
  | .delete id => t.delete (·.id = id)
  | .destroy id destroyedAt => t.write (·.id = id) (Note.destroy destroyedAt)
  | .bind handles job => t.write (handles.contains ·.secretHandle) (Note.bind job)

def NoteWrite.returned (t : NoteTable) : NoteWrite → List Note
  | .bind handles job => (t.rows.filter (handles.contains ·.secretHandle)).map (Note.bind job).apply
  | _ => []

def Vault.unlock (vault : Vault) (ids : List String) : Vault :=
  { vault with locked := vault.locked.filter (!ids.contains ·) }

def Vault.execute (vault : Vault) (now : Timestamp) : (s : Statement) → s.Result × Vault
  | .findJob jobId => (vault.jobs.get? jobId, vault)
  | .findNoteByCode code => (vault.notes.rows.find? (·.code = code), vault)
  | .findNoteOfJob handle jobId =>
    (vault.notes.rows.find? fun note => note.secretHandle = handle && note.jobId = some jobId,
      vault)
  | .deleteExpired code =>
    let p := fun note : Note => note.code = code && note.expiresAt ≤ now
    (vault.notes.rows.countP p, { vault with notes := vault.notes.delete p })
  | .selectForUpdate filter =>
    let rows := vault.notes.rows.filter filter.matches
    (rows, { vault with locked := vault.locked ++ rows.map Note.id })
  | .commit none locked => ([], vault.unlock locked)
  | .commit (some write) locked =>
    (write.returned vault.notes, { vault with notes := write.apply vault.notes }.unlock locked)
  | .rollback locked => ((), vault.unlock locked)

/-- A statement that fails: its transaction is rolled back. -/
def Vault.failed (vault : Vault) : Statement → Vault
  | .commit _ locked | .rollback locked => vault.unlock locked
  | _ => vault

def Vault.perform (outside : Outside) (vault : Vault) (op : Op) : op.Answer × Vault :=
  let now := max vault.clock outside.now
  match op with
  | .clock => (now, { vault with clock := now })
  | .reply _ => ((), { vault with clock := now })
  | .query s =>
    match outside.fault with
    | some e => (.error e, { vault.failed s with clock := now })
    | none =>
      let result := vault.execute now s
      (.ok (result.1, now), { result.2 with clock := now })

/-- What other code does to the jobs: it creates them, and changes their leases. -/
inductive JobChange where
  | create (job : JobRow)
  | lease (jobId : String) (leaseOwnerRunnerId leaseId : Option String)
      (leaseExpiresAt : Option Timestamp)

def JobChange.apply (jobs : Keyed JobRow.id) : JobChange → Keyed JobRow.id
  | .create job => (jobs.insertAll [job]).getD jobs
  | .lease jobId leaseOwnerRunnerId leaseId leaseExpiresAt =>
    jobs.update (·.id = jobId)
      ⟨fun job => { job with leaseOwnerRunnerId, leaseId, leaseExpiresAt }, fun _ => rfl⟩

def notes : System Vault Call Outside JobChange Op.Answer String Unit where
  program := Call.program config
  perform := Vault.perform
  internal change vault := { vault with jobs := change.apply vault.jobs }

abbrev World := Pool Vault Call Op.Answer String Unit

abbrev NoteTask := Task Call Op.Answer String Unit

abbrev WorldAction := Action Call Outside JobChange

end Talos.SecureNotes
