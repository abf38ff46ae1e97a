import Talos.JavaScript.Json
import Talos.Relational.Keyed

/-!
# Preflight and upgrade operations

The tables `feature_upgrade_preflight_device` and `feature_upgrade_device` and the
statements that write the status of a row: the two claim routes, the two progress
routes, the reconciliation of finished preflights and the failing of stale ones.
Each statement is one step, and so is the handling of each item of a post, since
other requests run between them. The claim of upgrades goes on after its
statement: it fails the rows without a supported command or a download link, and
hands out the others. A statement with the character zero in a text or a `jsonb` value
is refused and writes nothing.

Summaries, evidence and the counts of a run are not modelled; nothing here reads
them. What comes from a table has no character zero.
-/

namespace Talos.FeatureUpgrade

open JavaScript Relational

abbrev Timestamp := Int

/-! ## Rows -/

inductive PreflightStatus where
  | queued | running | passed | warning | failed | cancelled
deriving DecidableEq

inductive PreflightPhase where
  | queued | checking | completed | failed | cancelled
deriving DecidableEq

inductive UpgradeStatus where
  | scheduled | queued | running | awaitingReboot | verifying | succeeded | failed | cancelled
deriving DecidableEq

inductive UpgradePhase where
  | scheduled | queued | finalChecks | resolvingIso | downloadingIso | verifyingIso | mountingIso
  | launchingSetup | setupRunning | awaitingReboot | postRebootVerifying | completed | failed
  | cancelled
deriving DecidableEq

structure PreflightRow where
  operationId : String
  runId : String
  organizationId : String
  agentId : String
  status : PreflightStatus
  phase : PreflightPhase
  claimedAt : Option Timestamp
  startedAt : Option Timestamp
  finishedAt : Option Timestamp
  createdAt : Timestamp
  updatedAt : Timestamp

structure UpgradeRow where
  operationId : String
  runId : String
  organizationId : String
  agentId : String
  isoMediaId : String
  setupCommandMatrixId : String
  status : UpgradeStatus
  phase : UpgradePhase
  errorMessage : Option String
  scheduledFor : Option Timestamp
  claimedAt : Option Timestamp
  startedAt : Option Timestamp
  finishedAt : Option Timestamp
  createdAt : Timestamp
  updatedAt : Timestamp

structure SetupCommand where
  id : String
  supported : Bool
  notes : Option String

structure OpenClaim where
  row : UpgradeRow
  command : SetupCommand

/-- The tables, the claims under way and the operations that were handed out. -/
structure Server where
  preflights : Keyed PreflightRow.operationId
  upgrades : Keyed UpgradeRow.operationId
  media : List String
  commands : List SetupCommand
  openClaims : List OpenClaim
  preflightsReturned : List String
  upgradesReturned : List String

/-! ## Reading a request -/

variable (record : Record)

/-- `record[camel] ?? record[snake]` as a text. -/
def readId (camel snake : String) : Option String :=
  readString (coalesce (record.get? camel) (record.get? snake))

/-- `Math.max(1, Math.min(3, limit))` for an integer, and 1 for anything else. -/
def readLimit (body : Record) : ℕ :=
  match ((coalesce (body.get? "limit") (some (.num (.finite 1)))).getD .null).toNumber.toInt? with
  | some limit => (max 1 (min 3 limit)).toNat
  | none => 1

structure OperationIds where
  operationId : String
  runId : String
  organizationId : String
  agentId : String

def readOperationIds : Option OperationIds := do
  let operationId ← readId record "operationId" "operation_id"
  let runId ← readId record "runId" "run_id"
  let organizationId ← readId record "organizationId" "organization_id"
  let agentId ← readId record "agentId" "agent_id"
  pure ⟨operationId, runId, organizationId, agentId⟩

def OperationIds.storable (ids : OperationIds) : Bool :=
  [ids.operationId, ids.runId, ids.organizationId, ids.agentId].all Json.textStorable

/-- The agent of a claim that the database looks up. -/
def claimingAgent (body : Record) : Option String :=
  (readId body "agentId" "agent_id").filter Json.textStorable

/-- The identifiers of an item whose checks can be stored. -/
def readPreflightItem : Option OperationIds :=
  (readOperationIds record).filter fun ids =>
    ids.storable && Json.elementsStorable (asArray (record.get? "checks"))

def readErrorMessage : Option String :=
  readString (coalesce (coalesce (record.get? "error") (record.get? "errorMessage"))
    (record.get? "error_message"))

def readIsoMediaId : Option String :=
  readString (coalesce (coalesce (record.get? "isoMediaId") (record.get? "iso_media_id"))
    (((asRecord (record.get? "isoMedia")).getD []).get? "id"))

/-- The fields of an item that the stored progress does not take over. -/
def overwrittenFields : List String :=
  ["schemaVersion", "eventType", "operationId", "runId", "organizationId", "agentId",
    "isoMediaId", "status", "phase", "reportedAt", "error"]

/-- The identifiers of an item whose progress can be stored: the fields of the item with
those that the route sets. The evidence and the failures are among them. -/
def readUpgradeItem : Option OperationIds :=
  (readOperationIds record).filter fun ids =>
    ids.storable &&
      Json.propertiesStorable
        (record.filter fun property => !overwrittenFields.contains property.1) &&
      (readIsoMediaId record).all Json.textStorable &&
      (readString (coalesce (record.get? "reportedAt") (record.get? "reported_at"))).all
        Json.textStorable &&
      (readErrorMessage record).all Json.textStorable

def preflightStatus? : String → Option PreflightStatus
  | "running" => some .running
  | "passed" => some .passed
  | "warning" => some .warning
  | "failed" => some .failed
  | "cancelled" => some .cancelled
  | _ => none

def preflightPhase? : String → Option PreflightPhase
  | "queued" => some .queued
  | "checking" => some .checking
  | "completed" => some .completed
  | "failed" => some .failed
  | "cancelled" => some .cancelled
  | _ => none

def upgradeStatus? : String → Option UpgradeStatus
  | "scheduled" => some .scheduled
  | "queued" => some .queued
  | "running" => some .running
  | "awaiting_reboot" => some .awaitingReboot
  | "verifying" => some .verifying
  | "succeeded" => some .succeeded
  | "failed" => some .failed
  | "cancelled" => some .cancelled
  | _ => none

def upgradePhase? : String → Option UpgradePhase
  | "scheduled" => some .scheduled
  | "queued" => some .queued
  | "final_checks" => some .finalChecks
  | "resolving_iso" => some .resolvingIso
  | "downloading_iso" => some .downloadingIso
  | "verifying_iso" => some .verifyingIso
  | "mounting_iso" => some .mountingIso
  | "launching_setup" => some .launchingSetup
  | "setup_running" => some .setupRunning
  | "awaiting_reboot" => some .awaitingReboot
  | "post_reboot_verifying" => some .postRebootVerifying
  | "completed" => some .completed
  | "failed" => some .failed
  | "cancelled" => some .cancelled
  | _ => none

/-- The status that an item reports; a text that is not in the list is running. -/
def reportedPreflightStatus : PreflightStatus :=
  ((readString (record.get? "status")).bind preflightStatus?).getD .running

def reportedPreflightPhase : PreflightPhase :=
  ((readString (record.get? "phase")).bind preflightPhase?).getD <|
    match reportedPreflightStatus record with
    | .running => .checking
    | .failed => .failed
    | .cancelled => .cancelled
    | _ => .completed

def reportedUpgradeStatus : UpgradeStatus :=
  ((readString (record.get? "status")).bind upgradeStatus?).getD .running

def reportedUpgradePhase : UpgradePhase :=
  ((readString (record.get? "phase")).bind upgradePhase?).getD <|
    match reportedUpgradeStatus record with
    | .awaitingReboot => .awaitingReboot
    | .verifying => .postRebootVerifying
    | .succeeded => .completed
    | .failed => .failed
    | .cancelled => .cancelled
    | _ => .setupRunning

def PreflightStatus.isFinal : PreflightStatus → Bool
  | .passed | .warning | .failed | .cancelled => true
  | _ => false

def UpgradeStatus.isFinal : UpgradeStatus → Bool
  | .succeeded | .failed | .cancelled => true
  | _ => false

/-! ## Preflights -/

variable (now : Timestamp)

def claimPreflightWrite : Assignment PreflightRow.operationId where
  apply row :=
    { row with
      status := .running
      phase := .checking
      claimedAt := some now
      startedAt := row.startedAt.or (some now)
      updatedAt := now }
  key_eq _ := rfl

variable (s : Server)

def claimablePreflights (agentId : String) (limit : ℕ) : List PreflightRow :=
  s.preflights.choose (fun row => row.agentId = agentId && row.status = .queued)
    (fun a b => a.createdAt ≤ b.createdAt) limit

def claimPreflights (body : Record) (now : Timestamp) : Server :=
  match claimingAgent body with
  | none => s
  | some agentId =>
    let ids := (claimablePreflights s agentId (readLimit body)).map PreflightRow.operationId
    { s with
      preflights := s.preflights.update (fun row => ids.contains row.operationId)
        (claimPreflightWrite now)
      preflightsReturned := s.preflightsReturned ++ ids }

def preflightProgressWrite : Assignment PreflightRow.operationId where
  apply row :=
    { row with
      status := reportedPreflightStatus record
      phase := reportedPreflightPhase record
      startedAt := row.startedAt.or (some now)
      finishedAt := if (reportedPreflightStatus record).isFinal then some now else row.finishedAt
      updatedAt := now }
  key_eq _ := rfl

/-- The condition of the statement names the final states of upgrades:
`status NOT IN ('succeeded', 'failed', 'cancelled')`. -/
def preflightProgressSelects (ids : OperationIds) (row : PreflightRow) : Bool :=
  row.operationId = ids.operationId && row.runId = ids.runId &&
    row.organizationId = ids.organizationId && row.agentId = ids.agentId &&
    row.status ≠ .failed && row.status ≠ .cancelled

def preflightProgress (record : Record) (now : Timestamp) : Server :=
  match readPreflightItem record with
  | none => s
  | some ids =>
    { s with
      preflights := s.preflights.update (preflightProgressSelects ids)
        (preflightProgressWrite record now) }

def preflightStaleAfterMinutes : Int := 15

def failStaleWrite : Assignment PreflightRow.operationId where
  apply row :=
    { row with status := .failed, phase := .failed, finishedAt := some now, updatedAt := now }
  key_eq _ := rfl

def failStalePreflightRuns (organizationId : String) (agentIds : List String) (now : Timestamp) :
    Server :=
  if agentIds.all Json.textStorable then
    { s with
      preflights := s.preflights.update
        (fun row => row.organizationId = organizationId && agentIds.contains row.agentId &&
          (row.status = .queued || row.status = .running) &&
          row.updatedAt < now - preflightStaleAfterMinutes * 60000)
        (failStaleWrite now) }
  else s

inductive CheckStatus where
  | passed | warning | failed | pending
deriving DecidableEq

structure CheckResult where
  required : Bool
  status : CheckStatus

variable (checks : List CheckResult)

def aggregateFeatureUpgradePreflightStatus : PreflightStatus :=
  if checks.any fun check => check.required && check.status = .failed then .failed
  else if checks.any fun check => check.status = .warning then .warning
  else if checks.any fun check => check.status = .pending then .running
  else .passed

/-- A check that is still pending counts as failed. -/
def finalPreflightStatus : PreflightStatus :=
  match aggregateFeatureUpgradePreflightStatus checks with
  | .running => .failed
  | status => status

def reconcileWrite (now : Timestamp) : Assignment PreflightRow.operationId where
  apply row :=
    { row with
      status := finalPreflightStatus checks
      phase := if finalPreflightStatus checks = .failed then .failed else .completed
      finishedAt := some now
      updatedAt := now }
  key_eq _ := rfl

/-- One row of `reconcileCompletedPreflightSnapshots`, with the checks that were
evaluated for it. -/
def reconcilePreflight (operationId : String) (checks : List CheckResult) (now : Timestamp) :
    Server :=
  { s with
    preflights := s.preflights.update
      (fun row => row.operationId = operationId && row.status = .running)
      (reconcileWrite checks now) }

/-! ## Upgrades -/

def claimUpgradeWrite : Assignment UpgradeRow.operationId where
  apply row :=
    { row with
      status := .running
      phase := .finalChecks
      claimedAt := some now
      startedAt := row.startedAt.or (some now)
      updatedAt := now }
  key_eq _ := rfl

def claimableUpgrades (agentId : String) (limit : ℕ) (now : Timestamp) : List UpgradeRow :=
  s.upgrades.choose
    (fun row => row.agentId = agentId && (row.status = .queued || row.status = .scheduled) &&
      row.scheduledFor.all fun time => time ≤ now)
    (fun a b => decide ((a.scheduledFor.getD a.createdAt) < b.scheduledFor.getD b.createdAt) ||
      (a.scheduledFor.getD a.createdAt = b.scheduledFor.getD b.createdAt &&
        a.createdAt ≤ b.createdAt)) limit

def openClaim? (now : Timestamp) (row : UpgradeRow) : Option OpenClaim :=
  if s.media.contains row.isoMediaId then
    (s.commands.find? fun command => command.id = row.setupCommandMatrixId).map fun command =>
      ⟨(claimUpgradeWrite now).apply row, command⟩
  else none

def newClaims (agentId : String) (limit : ℕ) (now : Timestamp) : List OpenClaim :=
  (claimableUpgrades s agentId limit now).filterMap (openClaim? s now)

def claimUpgrades (body : Record) (now : Timestamp) : Server :=
  match claimingAgent body with
  | none => s
  | some agentId =>
    let claims := newClaims s agentId (readLimit body) now
    let ids := claims.map fun claim => claim.row.operationId
    { s with
      upgrades := s.upgrades.update (fun row => ids.contains row.operationId)
        (claimUpgradeWrite now)
      openClaims := s.openClaims ++ claims }

def failClaimWrite (message : String) (now : Timestamp) : Assignment UpgradeRow.operationId where
  apply row :=
    { row with
      status := .failed
      phase := .failed
      errorMessage := some message
      finishedAt := some now
      updatedAt := now }
  key_eq _ := rfl

inductive LinkResult where
  | ok
  | error (message : String)

/-- The statements for a row that cannot be handed out have no condition on its
status. -/
def failClaim (claim : OpenClaim) (message : String) (now : Timestamp) : Server :=
  if Json.textStorable message then
    { s with
      upgrades := s.upgrades.update (fun row => row.operationId = claim.row.operationId)
        (failClaimWrite message now) }
  else s

def SetupCommand.refusal (command : SetupCommand) : String :=
  command.notes.getD "Selected ISO is not supported by automated start upgrade"

def handOut (claim : OpenClaim) (link : LinkResult) (now : Timestamp) : Server :=
  if claim.command.supported then
    match link with
    | .ok => { s with upgradesReturned := s.upgradesReturned ++ [claim.row.operationId] }
    | .error message => failClaim s claim message now
  else failClaim s claim claim.command.refusal now

/-- The claim route goes on with one of its rows. -/
def settleClaim (index : ℕ) (link : LinkResult) (now : Timestamp) : Server :=
  match s.openClaims[index]? with
  | none => s
  | some claim => handOut { s with openClaims := s.openClaims.eraseIdx index } claim link now

def upgradeProgressWrite : Assignment UpgradeRow.operationId where
  apply row :=
    { row with
      status := reportedUpgradeStatus record
      phase := reportedUpgradePhase record
      errorMessage := readErrorMessage record
      startedAt := row.startedAt.or (some now)
      finishedAt := if (reportedUpgradeStatus record).isFinal then some now else row.finishedAt
      updatedAt := now }
  key_eq _ := rfl

def upgradeProgressSelects (ids : OperationIds) (row : UpgradeRow) : Bool :=
  row.operationId = ids.operationId && row.runId = ids.runId &&
    row.organizationId = ids.organizationId && row.agentId = ids.agentId && !row.status.isFinal

def upgradeProgress (record : Record) (now : Timestamp) : Server :=
  match readUpgradeItem record with
  | none => s
  | some ids =>
    { s with
      upgrades := s.upgrades.update (upgradeProgressSelects ids)
        (upgradeProgressWrite record now) }

end Talos.FeatureUpgrade
