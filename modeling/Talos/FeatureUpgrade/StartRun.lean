import Talos.FeatureUpgrade.Handout
import Talos.JavaScript.Runtime

/-!
# At most one open upgrade for each device

A request to start upgrades reads the latest upgrade row of each device and later,
after other statements, inserts the new rows in one transaction; between the two
any other request can run. The table has no index that refuses a second open row
of a device, so the index `openDevice` is what has to be shown: it survives every
event but the insertion, and that one exactly when no device of the request has an
open row by then. That is so when no other request inserts in between and the row of
a device that was written last is the open one, which is all that the check looks at.

The rows that the request reads from other tables are arbitrary.
-/

namespace Talos.FeatureUpgrade

open JavaScript Relational Transition

/-! ## The request -/

structure DeviceRow where
  agentId : String
  organizationId : String
  hostname : String
  /-- `os ILIKE '%Windows%'`. -/
  isWindows : Bool
  /-- `inferFeatureUpgradePreflightTarget(os)` finds a target. -/
  hasTarget : Bool

/-- What the request reads for one device beside its upgrades: the latest preflight,
the media that was selected, the media of a staged copy that has not expired and the
setup command of the selected media. -/
structure Readiness where
  preflight : Option PreflightRow
  isoMedia : Option String
  staged : Option String
  setupCommand : Option SetupCommand

def readFeatureUpgradeAgentIds (value : Option Json) : List String :=
  let texts := (asArray value).map fun
    | .str text => trim text
    | _ => ""
  (texts.filter fun text => text ≠ "").eraseDups

variable (js : Runtime)

def readIsoDate : Option Json → Option Date.Time
  | some (.str text) => if trim text = "" then none else js.dateParse text
  | _ => none

/-- A time in the past means at once. -/
def readScheduledFor (body : Record) (now : Timestamp) : Except String (Option Timestamp) :=
  let given := coalesce (body.get? "scheduledFor") (body.get? "scheduled_for")
  match readIsoDate js given with
  | none => if truthy given then .error "scheduledFor must be a valid ISO date/time" else .ok none
  | some time => .ok (if time.value ≤ now then none else some time.value)

def loadWindowsDevicesForPreflight (devices : Keyed DeviceRow.agentId) (organizationId : String)
    (agentIds : List String) : List DeviceRow :=
  devices.choose
    (fun device => device.organizationId = organizationId && agentIds.contains device.agentId &&
      device.isWindows)
    (fun a b => a.hostname ≤ b.hostname) devices.rows.length

/-- The upgrade row of the device that was written last. -/
def loadLatestFeatureUpgradeRow (s : Server) (organizationId agentId : String) :
    Option UpgradeRow :=
  (s.upgrades.choose (fun row => row.organizationId = organizationId && row.agentId = agentId)
    (fun a b => decide (b.updatedAt < a.updatedAt) ||
      (a.updatedAt = b.updatedAt && b.createdAt ≤ a.createdAt)) 1).head?

def UpgradeStatus.isActive : UpgradeStatus → Bool
  | .scheduled | .queued | .running | .awaitingReboot | .verifying => true
  | _ => false

def preflightReasons : Option PreflightRow → List String
  | none => ["Run feature upgrade preflight before starting the upgrade"]
  | some preflight =>
    match preflight.status with
    | .passed => []
    | .warning =>
      ["Latest preflight has warnings; strict start gate requires a passed preflight"]
    | .failed => ["Latest preflight failed"]
    | _ => ["Latest preflight has not completed"]

def setupReasons : Option SetupCommand → List String
  | none => ["No setup command matrix row is available for the selected ISO"]
  | some command =>
    if command.supported then []
    else [command.notes.getD "The selected ISO is not supported by automated start upgrade"]

def upgradeReasons (existingUpgrade : Option UpgradeRow) : List String :=
  match existingUpgrade.filter fun upgrade => upgrade.status.isActive with
  | none => []
  | some upgrade =>
    if upgrade.status = .scheduled then
      ["Upgrade is already scheduled for "
        ++ (upgrade.scheduledFor.map Date.isoText).getD "a recorded time"]
    else ["Feature upgrade is already queued or running"]

structure PreviewDevice where
  agentId : String
  preflightOperationId : Option String
  blockingReasons : List String
  isoMedia : Option String
  setupCommand : Option SetupCommand

def PreviewDevice.canStart (device : PreviewDevice) : Bool := device.blockingReasons.isEmpty

def buildFeatureUpgradeStartPreviewDevice (storageReadinessIssue : Option String)
    (device : DeviceRow) (readiness : Readiness) (existingUpgrade : Option UpgradeRow) :
    Option PreviewDevice :=
  if readiness.preflight.isNone && !device.hasTarget then none
  else
    let setupCommand := readiness.isoMedia.bind fun _ => readiness.setupCommand
    let willDownloadIso := readiness.isoMedia.isSome && readiness.staged ≠ readiness.isoMedia
    some
      { agentId := device.agentId
        preflightOperationId := readiness.preflight.map PreflightRow.operationId
        blockingReasons :=
          preflightReasons readiness.preflight ++
          (if readiness.isoMedia.isNone then
            ["No active ISO media matches this device target, edition, and language"] else []) ++
          setupReasons setupCommand ++
          upgradeReasons existingUpgrade ++
          (if willDownloadIso then storageReadinessIssue.toList else [])
        isoMedia := readiness.isoMedia
        setupCommand := setupCommand }

structure StartDevice where
  agentId : String
  isoMediaId : String
  setupCommandMatrixId : String

def PreviewDevice.toStart (device : PreviewDevice) : Option StartDevice :=
  match device.isoMedia, device.setupCommand, device.preflightOperationId with
  | some media, some command, some operationId =>
    if device.canStart && operationId ≠ "" then some ⟨device.agentId, media, command.id⟩
    else none
  | _, _, _ => none

variable {storageReadinessIssue : Option String} {device : DeviceRow} {readiness : Readiness}
  {existingUpgrade : Option UpgradeRow}

theorem agentId_of_preview {preview : PreviewDevice}
    (h : buildFeatureUpgradeStartPreviewDevice storageReadinessIssue device readiness
      existingUpgrade = some preview) : preview.agentId = device.agentId := by
  unfold buildFeatureUpgradeStartPreviewDevice at h
  split at h
  next => cases h
  next =>
    cases h
    rfl

theorem agentId_of_toStart {preview : PreviewDevice} {device : StartDevice}
    (h : preview.toStart = some device) : device.agentId = preview.agentId := by
  unfold PreviewDevice.toStart at h
  split at h
  next =>
    split at h
    next =>
      cases h
      rfl
    next => cases h
  next => cases h

structure StartInputs where
  organizationId : String
  devices : Keyed DeviceRow.agentId
  readiness : String → Readiness
  storageReadinessIssue : Option String

def startDevice? (s : Server) (inputs : StartInputs) (device : DeviceRow) : Option StartDevice :=
  (buildFeatureUpgradeStartPreviewDevice inputs.storageReadinessIssue device
    (inputs.readiness device.agentId)
    (loadLatestFeatureUpgradeRow s inputs.organizationId device.agentId)).bind
      PreviewDevice.toStart

def devicesToStart (s : Server) (inputs : StartInputs) (agentIds : List String) :
    Keyed StartDevice.agentId where
  rows := (loadWindowsDevicesForPreflight inputs.devices inputs.organizationId agentIds).filterMap
    (startDevice? s inputs)
  nodup := by
    refine Keyed.nodup_map_filterMap (Keyed.choose_keys_nodup inputs.devices _ _ _) _ ?_
    intro device start h
    obtain ⟨preview, hpreview, hstart⟩ := Option.bind_eq_some_iff.mp h
    rw [agentId_of_toStart hstart, agentId_of_preview hpreview]

/-- A request between its reads and its transaction. The agent identifier is the
primary key of `rmm_devices`, so no device occurs twice. -/
structure StartRequest where
  organizationId : String
  scheduledFor : Option Timestamp
  devices : Keyed StartDevice.agentId

def StartRequest.newRow (request : StartRequest) (runId operationId : String) (now : Timestamp)
    (device : StartDevice) : UpgradeRow where
  operationId := operationId
  runId := runId
  organizationId := request.organizationId
  agentId := device.agentId
  isoMediaId := device.isoMediaId
  setupCommandMatrixId := device.setupCommandMatrixId
  status := if request.scheduledFor.isSome then .scheduled else .queued
  phase := if request.scheduledFor.isSome then .scheduled else .queued
  errorMessage := none
  scheduledFor := request.scheduledFor
  claimedAt := none
  startedAt := none
  finishedAt := none
  createdAt := now
  updatedAt := now

def StartRequest.newRows (request : StartRequest) (runId : String) (operationId : ℕ → String)
    (now : Timestamp) : List UpgradeRow :=
  request.devices.rows.mapIdx fun index => request.newRow runId (operationId index) now

/-! ## The system -/

structure StartServer where
  server : Server
  requests : List StartRequest

/-- A statement of another route, the reads of a request and its transaction. -/
inductive StartEvent where
  | other (event : Event)
  | preview (isAdmin : Bool) (body : Json) (inputs : StartInputs) (now : Timestamp)
  | insert (index : ℕ) (runId : String) (operationId : ℕ → String) (now : Timestamp)

variable (s : StartServer)

def preview (isAdmin : Bool) (body : Record) (inputs : StartInputs) (now : Timestamp) :
    StartServer :=
  let agentIds := readFeatureUpgradeAgentIds (body.get? "agentIds")
  if !isAdmin || agentIds.isEmpty || !agentIds.all Json.textStorable then s
  else
    match readScheduledFor js body now with
    | .error _ => s
    | .ok scheduledFor =>
      let devices := devicesToStart s.server inputs agentIds
      if devices.rows.isEmpty then s
      else { s with requests := s.requests ++ [⟨inputs.organizationId, scheduledFor, devices⟩] }

def insert (index : ℕ) (runId : String) (operationId : ℕ → String) (now : Timestamp) :
    StartServer :=
  match s.requests[index]? with
  | none => s
  | some request =>
    let rest := s.requests.eraseIdx index
    match s.server.upgrades.insertAll (request.newRows runId operationId now) with
    | none => { s with requests := rest }
    | some upgrades => ⟨{ s.server with upgrades := upgrades }, rest⟩

def receiveStart : StartEvent → StartServer
  | .other event => { s with server := receive s.server event }
  | .preview isAdmin body inputs now => preview js s isAdmin (recordOf body) inputs now
  | .insert index runId operationId now => insert s index runId operationId now

/-! ## The index of open upgrades -/

/-- The device of a row that is scheduled, queued, running, awaiting a reboot or
verifying. -/
def openDevice (row : UpgradeRow) : Option (String × String) :=
  if row.status.isActive then some (row.organizationId, row.agentId) else none

theorem UpgradeStatus.isActive_eq (status : UpgradeStatus) : status.isActive = !status.isFinal := by
  cases status <;> rfl

/-- When the transaction of a request goes through, none of its devices has an open
row. -/
def NoneUnderWay : StartEvent → Prop
  | .insert index runId operationId now =>
    ∀ request, s.requests[index]? = some request →
      ((s.server.upgrades.rows ++ request.newRows runId operationId now).map
        UpgradeRow.operationId).Nodup →
      ∀ device ∈ request.devices.rows, ∀ row ∈ s.server.upgrades.rows,
        openDevice row ≠ some (request.organizationId, device.agentId)
  | _ => True

/-- No row becomes open. -/
abbrev OpensNone (s s' : Server) : Prop :=
  Subkeyed openDevice s.upgrades.rows s'.upgrades.rows

theorem subkeyed_openDevice {t : Keyed UpgradeRow.operationId} {p : UpgradeRow → Bool}
    {set : Assignment UpgradeRow.operationId}
    (hdevice : ∀ row, (set.apply row).organizationId = row.organizationId ∧
      (set.apply row).agentId = row.agentId)
    (hset : ∀ row ∈ t.rows, p row = true → (set.apply row).status.isActive = true →
      row.status.isActive = true) :
    Subkeyed openDevice t.rows (t.update p set).rows := by
  refine subkeyed_update p set.apply fun row hrow hp device hdev => ?_
  unfold openDevice at hdev ⊢
  split at hdev
  next hactive => rwa [if_pos (hset row hrow hp hactive), ← (hdevice row).1, ← (hdevice row).2]
  next => cases hdev

variable (s : Server)

theorem opensNone_claimUpgrades (body : Record) (now : Timestamp) :
    OpensNone s (claimUpgrades s body now) := by
  unfold claimUpgrades
  split
  next => exact .refl _ _
  next agentId _ =>
    refine subkeyed_openDevice (fun _ => ⟨rfl, rfl⟩) fun row hrow hclaimed _ => ?_
    have hwaits := waiting_of_claimed hrow (List.contains_iff_mem.mp hclaimed)
    rw [UpgradeStatus.isActive_eq, UpgradeStatus.isFinal_of_isWaiting hwaits]
    rfl

theorem opensNone_failClaim (claim : OpenClaim) (message : String) (now : Timestamp) :
    OpensNone s (failClaim s claim message now) := by
  unfold failClaim
  split
  next =>
    exact subkeyed_openDevice (fun _ => ⟨rfl, rfl⟩)
      fun _ _ _ hactive => absurd hactive Bool.false_ne_true
  next => exact .refl _ _

theorem opensNone_settleClaim (index : ℕ) (link : LinkResult) (now : Timestamp) :
    OpensNone s (settleClaim s index link now) := by
  unfold settleClaim
  split
  next => exact .refl _ _
  next claim _ =>
    unfold handOut
    split
    next =>
      cases link with
      | ok => exact .refl _ _
      | error message => exact opensNone_failClaim _ claim message now
    next => exact opensNone_failClaim _ claim _ now

theorem opensNone_upgradeProgress (record : Record) (now : Timestamp) :
    OpensNone s (upgradeProgress s record now) := by
  unfold upgradeProgress
  split
  next => exact .refl _ _
  next ids _ =>
    refine subkeyed_openDevice (fun _ => ⟨rfl, rfl⟩) fun row _ hselected _ => ?_
    rw [upgradeProgressSelects, Bool.and_eq_true] at hselected
    rw [UpgradeStatus.isActive_eq]
    exact hselected.2

theorem opensNone_onPreflights {event : Event} (h : event.onPreflights = true) :
    OpensNone s (receive s event) := by
  rw [OpensNone, (upgrades_receive s h).1]
  exact .refl _ _

theorem opensNone_receive (event : Event) : OpensNone s (receive s event) := by
  cases event with
  | claimPreflights | preflightProgress | failStalePreflightRuns | reconcilePreflight =>
    exact opensNone_onPreflights s rfl
  | claimUpgrades body now => exact opensNone_claimUpgrades s _ now
  | settleClaim index link now => exact opensNone_settleClaim s index link now
  | upgradeProgress item now => exact opensNone_upgradeProgress s _ now

theorem upgrades_preview (s : StartServer) (isAdmin : Bool) (body : Record) (inputs : StartInputs)
    (now : Timestamp) : (preview js s isAdmin body inputs now).server = s.server := by
  unfold preview
  dsimp only
  split
  next => rfl
  next =>
    split
    next => rfl
    next => split <;> rfl

/-! ## The insertion -/

variable (request : StartRequest)

theorem openDevice_newRow (runId operationId : String) (now : Timestamp) (device : StartDevice) :
    openDevice (request.newRow runId operationId now device)
      = some (request.organizationId, device.agentId) := by
  unfold openDevice StartRequest.newRow
  cases request.scheduledFor <;> rfl

theorem map_openDevice_newRows (runId : String) (operationId : ℕ → String) (now : Timestamp) :
    (request.newRows runId operationId now).map openDevice =
      request.devices.rows.map fun device => some (request.organizationId, device.agentId) := by
  apply List.ext_getElem?
  intro index
  rw [List.getElem?_map, List.getElem?_map, StartRequest.newRows, List.getElem?_mapIdx,
    Option.map_map]
  congr 1
  funext device
  exact openDevice_newRow request runId _ now device

theorem uniqueOn_newRows (runId : String) (operationId : ℕ → String) (now : Timestamp) :
    UniqueOn openDevice (request.newRows runId operationId now) := by
  have hdistinct := request.devices.nodup
  rw [List.Nodup, List.pairwise_map] at hdistinct
  rw [uniqueOn_iff_map, map_openDevice_newRows, UniqueOn, List.pairwise_map]
  refine hdistinct.imp fun {a b} hne device ha hb => hne ?_
  have heq : (request.organizationId, a.agentId) = (request.organizationId, b.agentId) :=
    Option.some.inj (ha.trans hb.symm)
  exact congrArg Prod.snd heq

theorem uniqueOn_append_newRows_iff {rows : List UpgradeRow} (h : UniqueOn openDevice rows)
    (request : StartRequest) (runId : String) (operationId : ℕ → String) (now : Timestamp) :
    UniqueOn openDevice (rows ++ request.newRows runId operationId now) ↔
      ∀ device ∈ request.devices.rows, ∀ row ∈ rows,
        openDevice row ≠ some (request.organizationId, device.agentId) := by
  rw [UniqueOn, List.pairwise_append]
  constructor
  · rintro ⟨_, _, hcross⟩ device hdevice row hrow hopen
    have hmem : some (request.organizationId, device.agentId) ∈
        (request.newRows runId operationId now).map openDevice := by
      rw [map_openDevice_newRows]
      exact List.mem_map_of_mem hdevice
    obtain ⟨new, hnew, hsame⟩ := List.mem_map.mp hmem
    exact hcross row hrow new hnew _ hopen hsame
  · intro hnone
    refine ⟨h, uniqueOn_newRows request runId operationId now, ?_⟩
    intro row hrow new hnew device hopen hsame
    have hmem : some device ∈ (request.newRows runId operationId now).map openDevice :=
      hsame ▸ List.mem_map_of_mem hnew
    rw [map_openDevice_newRows] at hmem
    obtain ⟨start, hstart, heq⟩ := List.mem_map.mp hmem
    exact hnone start hstart row hrow (hopen.trans heq.symm)

theorem uniqueOn_insert_iff {s : StartServer} (h : UniqueOn openDevice s.server.upgrades.rows)
    (index : ℕ) (runId : String) (operationId : ℕ → String) (now : Timestamp) :
    UniqueOn openDevice (insert s index runId operationId now).server.upgrades.rows ↔
      NoneUnderWay s (.insert index runId operationId now) := by
  unfold insert NoneUnderWay
  cases hrequest : s.requests[index]? with
  | none =>
    refine iff_of_true h fun request hsome => ?_
    rw [hrequest] at hsome
    cases hsome
  | some request =>
    simp only [hrequest, Option.some.injEq, forall_eq', Keyed.insertAll]
    split_ifs with hnew
    · simp only [hnew, forall_const]
      exact uniqueOn_append_newRows_iff h request runId operationId now
    · exact iff_of_true h fun htaken => absurd htaken hnew

/-- A step keeps the index exactly when it inserts no second open row. -/
theorem uniqueOn_receiveStart_iff (s : StartServer) (event : StartEvent)
    (h : UniqueOn openDevice s.server.upgrades.rows) :
    UniqueOn openDevice (receiveStart js s event).server.upgrades.rows ↔ NoneUnderWay s event := by
  cases event with
  | other event => exact iff_of_true (h.of_subkeyed (opensNone_receive _ event)) trivial
  | preview isAdmin body inputs now =>
    refine iff_of_true ?_ trivial
    dsimp only [receiveStart]
    rwa [upgrades_preview]
  | insert index runId operationId now => exact uniqueOn_insert_iff h index runId operationId now

/-- At every moment of a run from an empty table each device has at most one open
upgrade, exactly when no transaction of the run inserts a row for a device that has
an open one. -/
theorem one_open_upgrade_iff (js : Runtime) (s : StartServer)
    (hs : s.server.upgrades.rows = []) (events : List StartEvent) :
    (∀ earlier rest, events = earlier ++ rest →
        UniqueOn openDevice (run (receiveStart js) s earlier).server.upgrades.rows) ↔
      along (receiveStart js) NoneUnderWay s events := by
  have hempty : UniqueOn openDevice s.server.upgrades.rows := by
    rw [hs]
    exact List.Pairwise.nil
  exact always_iff_along (uniqueOn_receiveStart_iff js) hempty events

/-! ## The check -/

/-- The check sees that a device has an open row: the row that was written last is open. -/
def SeesOpen (s : Server) (organizationId : String) : Prop :=
  ∀ row ∈ s.upgrades.rows, row.organizationId = organizationId → row.status.isActive = true →
    ∃ latest ∈ loadLatestFeatureUpgradeRow s organizationId row.agentId,
      latest.status.isActive = true

theorem not_isActive_of_canStart {preview : PreviewDevice}
    (h : buildFeatureUpgradeStartPreviewDevice storageReadinessIssue device readiness
      existingUpgrade = some preview) (hstart : preview.canStart = true) :
    ∀ upgrade ∈ existingUpgrade, upgrade.status.isActive = false := by
  unfold buildFeatureUpgradeStartPreviewDevice at h
  split at h
  next => cases h
  next =>
    cases h
    rintro upgrade ⟨⟩
    by_contra hactive
    rw [Bool.not_eq_false] at hactive
    simp only [PreviewDevice.canStart, List.isEmpty_iff, List.append_eq_nil_iff, upgradeReasons,
      Option.filter_some, hactive, if_true] at hstart
    obtain ⟨⟨-, hreasons⟩, -⟩ := hstart
    split at hreasons <;> cases hreasons

theorem canStart_of_toStart {preview : PreviewDevice} {device : StartDevice}
    (h : preview.toStart = some device) : preview.canStart = true := by
  unfold PreviewDevice.toStart at h
  split at h
  next =>
    split at h
    next hstart => exact (Bool.and_eq_true_iff.mp hstart).1
    next => cases h
  next => cases h

theorem not_open_of_mem_devicesToStart {s : Server} {inputs : StartInputs}
    (hsees : SeesOpen s inputs.organizationId) {agentIds : List String} {device : StartDevice}
    (hdevice : device ∈ (devicesToStart s inputs agentIds).rows) :
    ∀ row ∈ s.upgrades.rows, openDevice row ≠ some (inputs.organizationId, device.agentId) := by
  intro row hrow hopen
  obtain ⟨found, -, hfound⟩ := List.mem_filterMap.mp hdevice
  obtain ⟨preview, hpreview, hstart⟩ := Option.bind_eq_some_iff.mp hfound
  unfold openDevice at hopen
  split at hopen
  next hactive =>
    obtain ⟨horganization, hagent⟩ := Prod.mk.inj (Option.some.inj hopen)
    obtain ⟨latest, hlatest, hlatestActive⟩ := hsees row hrow horganization hactive
    rw [hagent, agentId_of_toStart hstart, agentId_of_preview hpreview] at hlatest
    have hidle := not_isActive_of_canStart hpreview (canStart_of_toStart hstart) latest hlatest
    exact Bool.false_ne_true (hidle.symm.trans hlatestActive)
  next => cases hopen

theorem run_other (s : StartServer) (events : List Event) :
    (run (receiveStart js) s (events.map .other)).requests = s.requests ∧
      OpensNone s.server (run (receiveStart js) s (events.map .other)).server := by
  induction events generalizing s with
  | nil => exact ⟨rfl, .refl _ _⟩
  | cons event events ih =>
    obtain ⟨hrequests, hopens⟩ := ih (receiveStart js s (.other event))
    exact ⟨hrequests, (opensNone_receive s.server event).trans hopens⟩

/-- A request whose transaction no other request overtakes keeps the index, if the check sees
the open rows. -/
theorem lone_request_keeps_index (s : StartServer) (h : UniqueOn openDevice s.server.upgrades.rows)
    (isAdmin : Bool) (body : Json) (inputs : StartInputs)
    (hsees : SeesOpen s.server inputs.organizationId) (now : Timestamp) (between : List Event)
    (runId : String) (operationId : ℕ → String) (later : Timestamp) :
    UniqueOn openDevice (receiveStart js
      (run (receiveStart js) (receiveStart js s (.preview isAdmin body inputs now))
        (between.map .other))
      (.insert s.requests.length runId operationId later)).server.upgrades.rows := by
  have hserver : (receiveStart js s (.preview isAdmin body inputs now)).server = s.server :=
    upgrades_preview js s isAdmin _ inputs now
  obtain ⟨hrequests, hopens⟩ :=
    run_other js (receiveStart js s (.preview isAdmin body inputs now)) between
  rw [hserver] at hopens
  rw [uniqueOn_receiveStart_iff js _ _ (h.of_subkeyed hopens)]
  intro request hrequest _ device hdevice row hrow hopen
  obtain ⟨old, hold, hopen⟩ := hopens.exists_key hrow hopen
  rw [hrequests] at hrequest
  dsimp only [receiveStart, preview] at hrequest
  split at hrequest
  next => simp at hrequest
  next =>
    split at hrequest
    next => simp at hrequest
    next =>
      split at hrequest
      next => simp at hrequest
      next =>
        rw [List.getElem?_concat_length] at hrequest
        cases hrequest
        exact not_open_of_mem_devicesToStart hsees hdevice old hold hopen

/-! ## Two requests for one device -/

def passedPreflight : PreflightRow :=
  { queuedPreflight with status := .passed, phase := .completed, finishedAt := some 0 }

def readyInputs : StartInputs where
  organizationId := "o"
  devices := ⟨[⟨"a", "o", "host", true, true⟩], List.nodup_singleton _⟩
  readiness _ := ⟨some passedPreflight, some "m", some "m", some ⟨"c", true, none⟩⟩
  storageReadinessIssue := none

def emptyServer : StartServer where
  server := { queuedServer with upgrades := ⟨[], List.nodup_nil⟩ }
  requests := []

def previewReady (now : Timestamp) : StartEvent :=
  .preview true (.obj [("agentIds", .arr [.str "a"])]) readyInputs now

def insertFirst (operationId : String) (now : Timestamp) : StartEvent :=
  .insert 0 "r" (fun _ => operationId) now

theorem one_open_upgrade_single_request : emptyServer.server.upgrades.rows = [] ∧
      ∀ earlier rest, [previewReady 1, insertFirst "u" 2] = earlier ++ rest → UniqueOn openDevice
          (run (receiveStart .bare) emptyServer earlier).server.upgrades.rows := by
  refine ⟨rfl, (one_open_upgrade_iff .bare emptyServer rfl _).mpr ⟨trivial, ?_, trivial⟩⟩
  intro request _ _ device _ row hrow
  have hnone : (receiveStart .bare emptyServer (previewReady 1)).server.upgrades.rows = [] := by
    dsimp only [receiveStart, previewReady]
    rw [upgrades_preview]
    rfl
  rw [hnone] at hrow
  cases hrow

/-- Both requests read the table before either inserts. In the second run they do not
overlap: the claim of the first upgrade fails its row after the worker did, which
makes it the latest row of the device, and the open one behind it is not seen. -/
theorem device_gets_second_open_upgrade : emptyServer.server.upgrades.rows = [] ∧
      (run (receiveStart .bare) emptyServer
          [previewReady 1, previewReady 1, insertFirst "u" 2, insertFirst "v" 3]
        ).server.upgrades.rows.map (fun row => (row.operationId, openDevice row))
        = [("u", some ("o", "a")), ("v", some ("o", "a"))] ∧
      (run (receiveStart .bare) emptyServer
          [previewReady 1, insertFirst "u" 2, .other (.claimUpgrades claimBody 3),
            .other (.upgradeProgress (progressItem "u" "failed") 4),
            previewReady 5, insertFirst "v" 6,
            .other (.settleClaim 0 (.error "timed out") 7),
            previewReady 8, insertFirst "w" 9]
        ).server.upgrades.rows.map (fun row => (row.operationId, openDevice row))
        = [("u", none), ("v", some ("o", "a")), ("w", some ("o", "a"))] := by
  refine ⟨rfl, ?_, ?_⟩ <;> decide +kernel

end Talos.FeatureUpgrade
