import Talos.Fallible.Program
import Talos.Worker.UpgradeGate

/-!
# Starting an OS upgrade

`run_start_job_windows` as a program on the files of the machine: it reads the
final checks, takes the ISO from the staging directory or downloads it, mounts
it and starts Windows Setup. The outcome of every operation is given from
outside, and so is what the commands print and what the download delivers.

A file is found by its path up to case, and no file is longer than `u64` can say.
What the state remembers of a started setup is the content of the ISO that was
mounted.
-/

namespace Talos.Upgrade

open Rust Fallible

/-! ## Jobs, files and what comes from outside -/

structure FeatureUpgradeSetupCommand where
  setupExecutable : String
  arguments : List String
  imageIndexStrategy : Option String

structure FeatureUpgradeStartJob where
  operationId : String
  runId : String
  organizationId : String
  agentId : String
  targetProduct : String
  targetVersion : String
  diskFreeBytesRequired : ℕ
  isoMedia : FeatureUpgradeIsoMedia
  setupCommand : FeatureUpgradeSetupCommand

structure StagedIsoManifest where
  operationId : String
  runId : String
  organizationId : String
  agentId : String
  isoMediaId : String
  isoDisplayName : String
  isoFileName : String
  sizeBytes : Option ℕ
  sha256 : Option String
  stagedAt : String
  expiresAt : String

structure WindowsEditionInfo where
  editionId : Option String
  productName : Option String

/-- A piece of the download. `data` is absent when the stream fails there, and
`late` says that a progress report is due after it. -/
structure Chunk where
  data : Option (List UInt8)
  late : Bool

/-- What the job reads from outside. `entries` is the staging directory, absent
when it does not exist; the functions are those of other crates. -/
structure World where
  checkOutput : Value
  programData : String
  entries : Option (List String)
  parseManifest : List UInt8 → Option StagedIsoManifest
  encodeManifest : StagedIsoManifest → List UInt8
  encodeActiveState : FeatureUpgradeStartJob → String → List UInt8
  parseRfc3339 : String → Option Int
  now : Int
  stagedAt : String
  expiresAt : String
  sha256Hex : List UInt8 → String
  contentLength : Option ℕ
  chunks : List Chunk
  mountOutput : Value
  edition : Option WindowsEditionInfo
  imageIndex : Option String
  exitCode : Int

structure Progress where
  status : String
  phase : String
  overallPercent : ℕ
  error : Option String

structure Launch where
  setupPath : String
  arguments : List String
  iso : Option (List UInt8)

structure StartState where
  files : String → Option (List UInt8)
  mounted : Option (List UInt8)
  sent : List Progress
  launches : List Launch

namespace StartState

/-- Paths are compared without case. -/
def file (s : StartState) (path : String) : Option (List UInt8) := s.files (toAsciiLowercase path)

def write (s : StartState) (path : String) (content : Option (List UInt8)) : StartState :=
  { s with
    files := fun key => if key = toAsciiLowercase path then content else s.files key }

end StartState

inductive StartSite where
  | snapshot
  | check
  | progress (index : ℕ)
  | readRoot
  | entry (index : ℕ)
  | manifest (index : ℕ)
  | metadata (index : ℕ)
  | hash (index : ℕ)
  | createStageDir
  | request
  | createFile
  | chunk (index : ℕ)
  | flush
  | hashDownloaded
  | writeManifest
  | mount
  | createLogDir
  | createActiveRoot
  | writeActive
  | spawn
  | removeActive
  | wait

abbrev StartProgram := Program StartSite StartState

/-! ## Paths -/

def isSeparator (c : Char) : Bool := c = '\\' || c = '/'

/-- `dir.join(name)` on Windows. -/
def joinPath (dir name : String) : String :=
  match name.toList with
  | [] => dir ++ "\\"
  | c :: rest =>
    if rest.head? = some ':' then name
    else if isSeparator c then String.ofList (dir.toList.take 2) ++ name
    else if dir.toList.getLast?.any isSeparator then dir ++ name
    else dir ++ "\\" ++ name

def trimMatches (c : Char) (text : List Char) : List Char :=
  ((text.dropWhile (· = c)).reverse.dropWhile (· = c)).reverse

/-- `sanitize_path_component`, and `sanitize_file_component` with another text for
a name of which nothing is left. -/
def sanitizeComponent (empty value : String) : String :=
  let kept := value.toList.map fun ch =>
    if ch.isAlphanum || ch = '-' || ch = '_' || ch = '.' then ch else '_'
  let sanitized := trimMatches '_' (trimMatches '.' kept)
  if sanitized.isEmpty then empty else String.ofList sanitized

def isoFileName (media : FeatureUpgradeIsoMedia) : String :=
  let base := sanitizeComponent "iso" media.displayName
  if ".iso".toList.isSuffixOf (toAsciiLowercase base).toList then base else base ++ ".iso"

variable (w : World)

def featureUpgradesRoot : String :=
  joinPath (joinPath w.programData "Talos") "FeatureUpgrades"

def stageIsoRoot : String := joinPath (featureUpgradesRoot w) "StagedIso"

def stagingDirForOperation (root operationId : String) : String :=
  joinPath root (sanitizeComponent "iso" operationId)

def activeLogDir (operationId : String) : String :=
  joinPath (joinPath (featureUpgradesRoot w) "Logs") (sanitizeComponent "upgrade" operationId)

def activeStatePath (operationId : String) : String :=
  joinPath (joinPath (featureUpgradesRoot w) "Active")
    (sanitizeComponent "upgrade" operationId ++ ".json")

/-! ## The ISO -/

def sendStartProgress (index : ℕ) (status phase : String) (percent : ℕ) (error : Option String) :
    StartProgram Unit :=
  Program.perform (.progress index) "send feature_upgrade_start_progress" fun s =>
    { s with sent := s.sent ++ [⟨status, phase, percent, error⟩] }

variable (media : FeatureUpgradeIsoMedia)

def statedSha256 : Option String :=
  media.sha256.filter fun value => value ≠ ""

def manifestIsExpired (manifest : StagedIsoManifest) : Bool :=
  ((w.parseRfc3339 manifest.expiresAt).map fun expiresAt => decide (expiresAt ≤ w.now)).getD true

def sizeMatches (expected : Option ℕ) (content : List UInt8) : Bool :=
  expected.all fun expected => content.length = expected

/-- `sha256_hex_file`, compared with the stated digest; there is nothing to
compare when none is stated. -/
def hashMatches (site : StartSite) (description path : String) : StartProgram Bool :=
  match statedSha256 media with
  | none => pure true
  | some expected => do
      match ← Program.read site description fun s => s.file path with
      | none => Program.fail description
      | some content => pure (eqIgnoreAsciiCase (w.sha256Hex content) expected)

/-- One entry of the staging directory: the path of its ISO if it will do. -/
def checkStagedEntry (index : ℕ) (dir : String) : StartProgram (Option String) := do
  let bytes ← Program.attempt (Program.read (.manifest index) "read staged ISO manifest" fun s =>
    s.file (joinPath dir "manifest.json"))
  match bytes.join.bind w.parseManifest with
  | none => pure none
  | some manifest =>
    if manifest.isoMediaId ≠ media.id || manifestIsExpired w manifest then pure none
    else do
      let isoPath := joinPath dir manifest.isoFileName
      let metadata ← Program.attempt (Program.read (.metadata index) "read staged ISO metadata"
        fun s => s.file isoPath)
      match metadata.join with
      | none => pure none
      | some content =>
        if sizeMatches (media.sizeBytes.or manifest.sizeBytes) content then do
          if ← hashMatches w media (.hash index) "verify staged ISO sha256" isoPath then
            pure (some isoPath)
          else pure none
        else pure none

def findInEntries (w : World) (media : FeatureUpgradeIsoMedia) :
    ℕ → List String → StartProgram (Option String)
  | _, [] => pure none
  | index, dir :: rest => do
      Program.read (.entry index) "read staged ISO entry" fun _ => ()
      match ← checkStagedEntry w media index dir with
      | some path => pure (some path)
      | none => findInEntries w media (index + 1) rest

def findValidStagedIso : StartProgram (Option String) := do
  Program.read .readRoot "read staged ISO root" fun _ => ()
  match w.entries with
  | none => pure none
  | some entries => findInEntries w media 0 entries

def percentage (done : ℕ) (total : Option ℕ) (minPercent maxPercent : ℕ) : ℕ :=
  match total.filter (0 < ·) with
  | none => minPercent
  | some total =>
    let span := maxPercent - minPercent
    let scaled := min (done * span) u64Max / total
    minPercent + min scaled span

/-- A write fails when the file would be longer than its length can say. -/
def appendFile (index : ℕ) (path : String) (data : List UInt8) : StartProgram Unit := fun o s =>
  let content := (s.file path).getD []
  if content.length + data.length ≤ u64Max then
    Program.perform (.chunk index) "write ISO download chunk"
      (fun s => s.write path (some ((s.file path).getD [] ++ data))) o s
  else (.error (.error "write ISO download chunk"), s)

def writeChunks (w : World) (job : FeatureUpgradeStartJob) (path : String) :
    ℕ → ℕ → List Chunk → StartProgram ℕ
  | _, downloaded, [] => pure downloaded
  | index, downloaded, chunk :: rest =>
    match chunk.data with
    | none => Program.fail "read ISO download chunk"
    | some data => do
        appendFile index path data
        let downloaded := saturatingAdd downloaded data.length
        if chunk.late then
          sendStartProgress (10 + index) "running" "downloading_iso"
            (percentage downloaded (job.isoMedia.sizeBytes.or w.contentLength) 25 44) none
        writeChunks w job path (index + 1) downloaded rest

variable (job : FeatureUpgradeStartJob)

def downloadIsoWithProgress (path : String) : StartProgram ℕ := do
  Program.read .request "request ISO download" fun _ => ()
  Program.perform .createFile "create staged ISO file" fun s => s.write path (some [])
  let downloaded ← writeChunks w job path 0 0 w.chunks
  Program.read .flush "flush staged ISO file" fun _ => ()
  pure downloaded

def verifyIsoHash (path : String) : StartProgram Unit := do
  if ← hashMatches w job.isoMedia .hashDownloaded "verify ISO sha256" path then pure ()
  else Program.fail "Downloaded ISO SHA-256 did not match expected media metadata"

def stagedManifest (downloadedBytes : ℕ) : StagedIsoManifest where
  operationId := job.operationId
  runId := job.runId
  organizationId := job.organizationId
  agentId := job.agentId
  isoMediaId := job.isoMedia.id
  isoDisplayName := job.isoMedia.displayName
  isoFileName := isoFileName job.isoMedia
  sizeBytes := some downloadedBytes
  sha256 := job.isoMedia.sha256
  stagedAt := w.stagedAt
  expiresAt := w.expiresAt

def stageDir : String :=
  stagingDirForOperation (stageIsoRoot w) job.operationId

def downloadPath : String :=
  joinPath (stageDir w job) (isoFileName job.isoMedia)

def downloadIso : StartProgram String := do
  Program.read .createStageDir "create transient ISO staging directory" fun _ => ()
  sendStartProgress 2 "running" "downloading_iso" 25 none
  let downloadedBytes ← downloadIsoWithProgress w job (downloadPath w job)
  match job.isoMedia.sizeBytes.filter (· ≠ downloadedBytes) with
  | some expected => do
      let message := "Downloaded ISO size mismatch: expected " ++ toString expected
        ++ " bytes, got " ++ toString downloadedBytes ++ " bytes"
      sendStartProgress 3 "failed" "failed" 100 (some message)
      Program.fail message
  | none => do
      sendStartProgress 4 "running" "verifying_iso" 45 none
      verifyIsoHash w job (downloadPath w job)
      Program.perform .writeManifest "write transient staged ISO manifest" fun s =>
        s.write (joinPath (stageDir w job) "manifest.json")
          (some (w.encodeManifest (stagedManifest w job downloadedBytes)))
      pure (downloadPath w job)

def resolveOrDownloadIso : StartProgram String := do
  match ← findValidStagedIso w job.isoMedia with
  | some path => do
      sendStartProgress 1 "running" "resolving_iso" 25 none
      pure path
  | none => downloadIso w job

/-! ## Setup -/

def mountIsoAndGetDrive (path : String) : StartProgram String := do
  Program.perform .mount "mount Windows setup ISO" fun s => { s with mounted := s.file path }
  match nonBlank ((w.mountOutput.get "drive").bind Value.asStr) with
  | none => Program.fail "mounted ISO drive letter missing"
  | some drive => pure drive

def editionForCommand (info : WindowsEditionInfo) : Option String :=
  ((info.editionId.or info.productName).map trim).filter (· ≠ "")

def serverGvlkForTarget (targetVersion : String) (currentEdition : Option String) :
    Option String :=
  let edition := toAsciiLowercase (currentEdition.getD "")
  if !textContains (toAsciiLowercase targetVersion) "2025" then none
  else if textContains edition "azure" then some "XGN3F-F394H-FD2MY-PP6FD-8MCRC"
  else if textContains edition "datacenter" then some "D764K-2NDRG-47T6Q-P8T8W-YP6DF"
  else if textContains edition "standard" then some "TVRH6-WHNXV-R9WG3-9XRFY-MY832"
  else none

def expandTemplate (template mountDrive logDir targetVersion : String)
    (currentEdition : Option String) : Option String :=
  let expanded := replace (replace template "\x7bmount_drive\x7d" mountDrive)
    "\x7blog_dir\x7d" logDir
  if textContains expanded "\x7btarget_server_gvlk\x7d" then
    (serverGvlkForTarget targetVersion currentEdition).map fun key =>
      replace expanded "\x7btarget_server_gvlk\x7d" key
  else some expanded

def expandOrFail {α : Type} (expanded : Option α) : StartProgram α :=
  match expanded with
  | some value => pure value
  | none => Program.fail "unable to resolve target Server GVLK product key"

def shouldAppendImageIndex (command : FeatureUpgradeSetupCommand) : Bool :=
  command.imageIndexStrategy.any fun value =>
    eqIgnoreAsciiCase value "auto_match_current_edition"

def setupExitCodeHex (exitCode : Int) : String :=
  let digits := (hexDigits (exitCode % 2 ^ 32).toNat).map Char.toUpper
  "0x" ++ String.ofList (List.replicate (8 - digits.length) '0' ++ digits)

def setupExitMessage (exitCode : Int) : String :=
  "Windows Setup exited with code " ++ setupExitCodeHex exitCode ++ " (" ++ toString exitCode ++ ")"
    ++ if exitCode % 2 ^ 32 = 0xC1900204 then
        ": MOSETUP_E_COMPAT_MIGCHOICE_BLOCK: Windows Setup could not use the requested /Auto " ++
          "Upgrade migration path"
      else ""

def removeActiveState : StartProgram Unit := do
  let _ ← Program.attempt (Program.perform .removeActive "remove active feature upgrade state"
    fun s => s.write (activeStatePath w job.operationId) none)

/-- The process has been started; what follows is its end. -/
def awaitSetup : StartProgram Unit := do
  sendStartProgress 7 "running" "setup_running" 70 none
  Program.read .wait "wait for Windows Setup process" fun _ => ()
  if w.exitCode = 0 || w.exitCode = 1641 || w.exitCode = 3010 then
    sendStartProgress 8 "awaiting_reboot" "awaiting_reboot" 80 none
  else do
    sendStartProgress 9 "failed" "failed" 100 (some (setupExitMessage w.exitCode))
    removeActiveState w job
    Program.fail (setupExitMessage w.exitCode)

def launchSetup (setupPath : String) (arguments : List String) : StartProgram Unit := do
  Program.read .createActiveRoot "create active feature upgrade root" fun _ => ()
  Program.perform .writeActive "write active feature upgrade state" fun s =>
    s.write (activeStatePath w job.operationId)
      (some (w.encodeActiveState job (activeLogDir w job.operationId)))
  sendStartProgress 6 "running" "launching_setup" 65 none
  let started ← Program.attempt (Program.perform .spawn "launch Windows Setup" fun s =>
    { s with launches := ⟨setupPath, arguments, s.mounted⟩ :: s.launches })
  match started with
  | some () => awaitSetup w job
  | none => do
      removeActiveState w job
      Program.fail "launch Windows Setup"

def imageIndexArguments (command : FeatureUpgradeSetupCommand) : List String :=
  if shouldAppendImageIndex command then
    (w.imageIndex.map fun index => ["/imageindex", index]).getD []
  else []

/-- From the mounted ISO to the end of the setup process. -/
def runSetup (mountDrive : String) : StartProgram Unit := do
  Program.read .createLogDir "create feature upgrade log dir" fun _ => ()
  let expand := fun template => expandTemplate template mountDrive
    (activeLogDir w job.operationId) job.targetVersion (w.edition.bind editionForCommand)
  let setupPath ← expandOrFail (expand job.setupCommand.setupExecutable)
  let arguments ← expandOrFail (job.setupCommand.arguments.mapM expand)
  launchSetup w job setupPath (arguments ++ imageIndexArguments w job.setupCommand)

def runStartJobWindows : StartProgram Unit := do
  Program.read .snapshot "collect final feature upgrade snapshot" fun _ => ()
  Program.read .check "collect final disk and BitLocker checks" fun _ => ()
  let finalGate := collectFinalGateEvidence w.checkOutput job.diskFreeBytesRequired job.isoMedia
    job.targetProduct job.targetVersion
  if finalGate.passed then do
    sendStartProgress 0 "running" "resolving_iso" 15 none
    let isoPath ← resolveOrDownloadIso w job
    sendStartProgress 5 "running" "mounting_iso" 55 none
    let mountDrive ← mountIsoAndGetDrive w isoPath
    runSetup w job mountDrive
  else do
    let message := finalGate.failureReasons.head?.getD "Final feature upgrade checks failed"
    sendStartProgress 0 "failed" "failed" 100 (some message)
    Program.fail message

end Talos.Upgrade
