import Talos.Worker.UpgradeStart

/-!
# What holds when Windows Setup is started

Along the job one postcondition grows: the checks passed, then there is an ISO
with the stated size and digest at the resolved path, then such an ISO is
mounted. Nothing after a check changes what it was about; in particular the
manifest that is written beside a downloaded ISO does not replace it.
-/

namespace Talos.Upgrade

open Rust Fallible Program

/-- The size and the digest that the media states, where stated. -/
structure IsoMatches (w : World) (media : FeatureUpgradeIsoMedia) (iso : List UInt8) : Prop where
  size : ∀ bytes ∈ media.sizeBytes, iso.length = bytes
  digest : ∀ expected ∈ statedSha256 media, eqIgnoreAsciiCase (w.sha256Hex iso) expected = true

def HasIso (w : World) (media : FeatureUpgradeIsoMedia) (path : String) (s : StartState) : Prop :=
  ∃ iso, s.file path = some iso ∧ IsoMatches w media iso

def HasMounted (w : World) (media : FeatureUpgradeIsoMedia) (s : StartState) : Prop :=
  ∃ iso, s.mounted = some iso ∧ IsoMatches w media iso

def Launch.Checked (w : World) (job : FeatureUpgradeStartJob) (launch : Launch) : Prop :=
  (collectFinalGateEvidence w.checkOutput job.diskFreeBytesRequired job.isoMedia
    job.targetProduct job.targetVersion).passed = true ∧
  ∃ iso, launch.iso = some iso ∧ IsoMatches w job.isoMedia iso

def LaunchesChecked (w : World) (job : FeatureUpgradeStartJob) (s : StartState) : Prop :=
  ∀ launch ∈ s.launches, launch.Checked w job

/-! ## Frames -/

/-- Neither the files nor the mounted ISO nor the launches change. -/
def SameFiles (s s' : StartState) : Prop :=
  s'.files = s.files ∧ s'.mounted = s.mounted ∧ s'.launches = s.launches

/-- A property of the files and of the mounted ISO alone. -/
structure Framed (P : StartState → Prop) : Prop where
  of_sameFiles : ∀ s s', SameFiles s s' → P s → P s'

theorem framed_true : Framed fun _ => True := ⟨fun _ _ _ h => h⟩

section

variable {w : World} {job : FeatureUpgradeStartJob} {o : StartSite → Outcome} {α β : Type}
  {P P' : StartState → Prop} {Q : α → StartState → Prop} {R : β → StartState → Prop}
  {site : StartSite} {description : String}

variable (w job o) in
/-- The program leads from `P` to `Q`, and the launches are checked wherever it stops. -/
abbrev Prepares (P : StartState → Prop) (p : StartProgram α) (Q : α → StartState → Prop) : Prop :=
  Ensures o (fun s => LaunchesChecked w job s ∧ P s) p (fun a s => LaunchesChecked w job s ∧ Q a s)
    (LaunchesChecked w job)

theorem prepares_pure {a : α} (h : ∀ s, P s → Q a s) : Prepares w job o P (pure a) Q :=
  ensures_pure fun s hs => ⟨hs.1, h s hs.2⟩

theorem prepares_fail : Prepares w job o P (fail description) Q := ensures_fail fun _ hs => hs.1

theorem prepares_and {A : Prop} {p : StartProgram α} (h : A → Prepares w job o P p Q) :
    Prepares w job o (fun s => P s ∧ A) p Q :=
  ⟨fun s hs => (h hs.2.2).holds s ⟨hs.1, hs.2.1⟩⟩

theorem prepares_of {p : StartProgram α} (h : Prepares w job o P p Q) (hP : ∀ s, P' s → P s) :
    Prepares w job o P' p Q :=
  h.mono (fun s hs => ⟨hs.1, hP s hs.2⟩) fun _ _ hs => hs

theorem prepares_read {g : StartState → α} (h : ∀ s, P s → Q (g s) s) :
    Prepares w job o P (read site description g) Q :=
  ensures_read (fun _ hs => hs.1) fun s hs => ⟨hs.1, h s hs.2⟩

theorem prepares_read_bind {g : StartState → α} {f : α → StartProgram β}
    (hf : ∀ a, Prepares w job o P (f a) R) :
    Prepares w job o P (read site description g >>= f) R :=
  ensures_bind (prepares_read fun _ hs => hs) hf

theorem prepares_attempt_read {g : StartState → α} {Q : Option α → StartState → Prop}
    (hnone : ∀ s, P s → Q none s) (hsome : ∀ s, P s → Q (some (g s)) s) :
    Prepares w job o P (attempt (read site description g)) Q :=
  ensures_attempt (ensures_read (fun s hs => ⟨⟨hs.1, hnone s hs.2⟩, hs.1⟩)
    fun s hs => ⟨hs.1, hsome s hs.2⟩)

theorem launchesChecked_write {s : StartState} (hs : LaunchesChecked w job s) (path : String)
    (content : Option (List UInt8)) : LaunchesChecked w job (s.write path content) := hs

theorem prepares_write {path : String} {content : StartState → Option (List UInt8)}
    {Q : Unit → StartState → Prop} (h : ∀ s, P s → Q () (s.write path (content s))) :
    Prepares w job o P (perform site description fun s => s.write path (content s)) Q :=
  ensures_perform (fun _ hs => ⟨hs.1, launchesChecked_write hs.1 _ _⟩)
    fun s hs => ⟨launchesChecked_write hs.1 _ _, h s hs.2⟩

theorem prepares_send_bind (hP : Framed P) {index : ℕ} {status phase : String} {percent : ℕ}
    {error : Option String} {f : Unit → StartProgram β} (hf : Prepares w job o P (f ()) R) :
    Prepares w job o P (sendStartProgress index status phase percent error >>= f) R :=
  ensures_bind (Q := fun _ s => LaunchesChecked w job s ∧ P s) (ensures_perform
    (fun _ hs => ⟨hs.1, hs.1⟩) fun s hs => ⟨hs.1, hP.of_sameFiles s _ ⟨rfl, rfl, rfl⟩ hs.2⟩)
    fun _ => hf

/-! ## The staged ISO -/

variable (path : String)

theorem framed_hasIso : Framed (HasIso w job.isoMedia path) where
  of_sameFiles s s' hsame hs := by
    rw [HasIso, StartState.file, hsame.1]
    exact hs

theorem prepares_hashMatches (iso : List UInt8) (site : StartSite) (description : String) :
    Prepares w job o (fun s => s.file path = some iso)
      (hashMatches w job.isoMedia site description path)
      fun ok s => s.file path = some iso ∧ (ok = true →
        ∀ expected ∈ statedSha256 job.isoMedia,
          eqIgnoreAsciiCase (w.sha256Hex iso) expected = true) := by
  unfold hashMatches
  cases hstated : statedSha256 job.isoMedia with
  | none => exact prepares_pure fun s hs => ⟨hs, fun _ expected hmem => by cases hmem⟩
  | some expected =>
    refine ensures_bind (prepares_read (Q := fun content s =>
      s.file path = some iso ∧ content = some iso) fun s hs => ⟨hs, hs⟩) fun content =>
        prepares_and fun hcontent => ?_
    rw [hcontent]
    refine prepares_pure fun s hs => ⟨hs, fun hok expected' hmem => ?_⟩
    cases hmem
    exact hok

/-- The path that was found, if there is one, is that of an ISO. -/
def FoundIso (w : World) (media : FeatureUpgradeIsoMedia) (found : Option String)
    (s : StartState) : Prop :=
  ∀ path, found = some path → HasIso w media path s

theorem prepares_none :
    Prepares w job o P (pure none : StartProgram (Option String)) (FoundIso w job.isoMedia) :=
  prepares_pure fun _ _ _ hpath => by cases hpath

variable (index : ℕ)

theorem prepares_checkStagedEntry (dir : String) :
    Prepares w job o (fun _ => True) (checkStagedEntry w job.isoMedia index dir)
      (FoundIso w job.isoMedia) := by
  refine ensures_bind (prepares_attempt_read (Q := fun _ _ => True) (fun _ hs => hs) fun _ hs => hs)
    fun bytes => ?_
  cases bytes.join.bind w.parseManifest with
  | none => exact prepares_none
  | some manifest =>
    dsimp only
    split
    · exact prepares_none
    · refine ensures_bind (prepares_attempt_read (Q := fun r s =>
          ∀ iso, r.join = some iso → s.file (joinPath dir manifest.isoFileName) = some iso)
        (fun _ _ iso hiso => by cases hiso) fun _ _ iso hiso => hiso) fun metadata => ?_
      cases hmetadata : metadata.join with
      | none => exact prepares_none
      | some iso =>
        dsimp only
        split
        next hsize =>
          refine ensures_bind (prepares_of (prepares_hashMatches _ iso _ _) fun s hs =>
            hs iso hmetadata) fun ok => prepares_and fun hok => ?_
          cases ok with
          | false => exact prepares_none
          | true =>
            refine prepares_pure fun s hs path hpath => ?_
            cases hpath
            refine ⟨iso, hs, fun bytes hbytes => ?_, hok rfl⟩
            rw [Option.mem_def.mp hbytes] at hsize
            simpa [sizeMatches] using hsize
        next => exact prepares_none

theorem prepares_findInEntries (entries : List String) :
    Prepares w job o (fun _ => True) (findInEntries w job.isoMedia index entries)
      (FoundIso w job.isoMedia) := by
  induction entries generalizing index with
  | nil => exact prepares_none
  | cons dir rest ih =>
    refine prepares_read_bind fun _ =>
      ensures_bind (prepares_checkStagedEntry index dir) fun found => ?_
    cases found with
    | some path => exact prepares_pure fun s hs => hs
    | none => exact prepares_of (ih (index + 1)) fun _ _ => trivial

theorem prepares_findValidStagedIso :
    Prepares w job o (fun _ => True) (findValidStagedIso w job.isoMedia)
      (FoundIso w job.isoMedia) := by
  refine prepares_read_bind fun _ => ?_
  cases w.entries with
  | none => exact prepares_none
  | some entries => exact prepares_findInEntries 0 entries

/-! ## The downloaded ISO -/

@[simp] theorem file_write_self (s : StartState) (path : String) (content : Option (List UInt8)) :
    (s.write path content).file path = content := if_pos rfl

theorem file_write_of_ne {path other : String}
    (h : toAsciiLowercase other ≠ toAsciiLowercase path) (s : StartState)
    (content : Option (List UInt8)) : (s.write path content).file other = s.file other :=
  if_neg h

/-- The file at the path has as many bytes as were counted. -/
def Holds (path : String) (downloaded : ℕ) (s : StartState) : Prop :=
  ∃ content, s.file path = some content ∧ content.length = downloaded

theorem framed_holds (downloaded : ℕ) : Framed (Holds path downloaded) where
  of_sameFiles s s' hsame hs := by
    rw [Holds, StartState.file, hsame.1]
    exact hs

theorem prepares_appendFile (downloaded : ℕ) (data : List UInt8) :
    Prepares w job o (Holds path downloaded) (appendFile index path data)
      fun _ => Holds path (saturatingAdd downloaded data.length) := by
  refine ⟨?_⟩
  rintro s ⟨hs, content, hcontent, rfl⟩
  by_cases hfits : ((s.file path).getD []).length + data.length ≤ u64Max
  · have happend : appendFile index path data o s
        = perform (.chunk index) "write ISO download chunk"
          (fun s => s.write path (some ((s.file path).getD [] ++ data))) o s := if_pos hfits
    rw [happend]
    rw [hcontent, Option.getD_some] at hfits
    refine (prepares_write (P := fun s => s.file path = some content) fun s hs =>
      ⟨content ++ data, ?_, ?_⟩).holds s ⟨hs, hcontent⟩
    · rw [file_write_self, hs, Option.getD_some]
    · rw [List.length_append, saturatingAdd, Nat.min_eq_left hfits]
  · have happend : appendFile index path data o s
        = (.error (.error "write ISO download chunk"), s) := if_neg hfits
    rw [happend]
    exact hs

theorem prepares_writeChunks (index downloaded : ℕ) (chunks : List Chunk) :
    Prepares w job o (Holds path downloaded) (writeChunks w job path index downloaded chunks)
      (Holds path) := by
  induction chunks generalizing index downloaded with
  | nil => exact prepares_pure fun s hs => hs
  | cons chunk rest ih =>
    rw [writeChunks]
    cases chunk.data with
    | none => exact prepares_fail
    | some data =>
      refine ensures_bind (prepares_appendFile path index downloaded data) fun _ => ?_
      dsimp only
      split
      · exact prepares_send_bind (framed_holds path _) (ih (index + 1) _)
      · exact ih (index + 1) _

theorem prepares_downloadIsoWithProgress :
    Prepares w job o (fun _ => True) (downloadIsoWithProgress w job path) (Holds path) :=
  prepares_read_bind fun _ =>
    ensures_bind (prepares_write (Q := fun _ => Holds path 0) fun s _ =>
      ⟨[], file_write_self s path _, rfl⟩) fun _ =>
      ensures_bind (prepares_writeChunks path 0 0 w.chunks) fun _ =>
        prepares_read_bind fun _ => prepares_pure fun _ hs => hs

theorem getLast?_joinPath (dir : String) {name : String} (hname : name ≠ "") :
    (toAsciiLowercase (joinPath dir name)).toList.getLast?
      = (toAsciiLowercase name).toList.getLast? := by
  have hlist : name.toList ≠ [] := fun h => hname (String.toList_eq_nil_iff.mp h)
  have hprefix : ∃ start : List Char, (joinPath dir name).toList = start ++ name.toList := by
    unfold joinPath
    split
    next hnil => exact absurd hnil hlist
    next =>
      split
      · exact ⟨[], rfl⟩
      · split
        · exact ⟨_, by rw [String.toList_append, String.toList_ofList]⟩
        · split
          · exact ⟨_, String.toList_append⟩
          · exact ⟨_, String.toList_append⟩
  obtain ⟨start, hstart⟩ := hprefix
  rw [toAsciiLowercase, toAsciiLowercase, String.toList_ofList, String.toList_ofList, hstart,
    List.map_append, List.getLast?_append_of_ne_nil _ (by simpa using hlist)]

theorem getLast?_isoFileName (media : FeatureUpgradeIsoMedia) :
    (toAsciiLowercase (isoFileName media)).toList.getLast? = some 'o' := by
  unfold isoFileName
  dsimp only
  split
  next hsuffix =>
    obtain ⟨start, hstart⟩ := List.isSuffixOf_iff_suffix.mp hsuffix
    rw [← hstart]
    simp
  next => simp [toAsciiLowercase]

/-- The manifest is not written over the ISO. -/
theorem downloadPath_ne_manifestPath (w : World) (job : FeatureUpgradeStartJob) :
    toAsciiLowercase (downloadPath w job)
      ≠ toAsciiLowercase (joinPath (stageDir w job) "manifest.json") := by
  intro h
  have hiso := getLast?_isoFileName job.isoMedia
  have hne : isoFileName job.isoMedia ≠ "" := by
    intro hempty
    rw [hempty] at hiso
    cases hiso
  have hlast := congrArg (fun text => text.toList.getLast?) h
  rw [downloadPath, getLast?_joinPath _ hne, getLast?_joinPath _ (by decide), hiso] at hlast
  revert hlast
  decide

theorem prepares_verifyIsoHash {path : String} {downloaded : ℕ}
    (hsize : ∀ bytes ∈ job.isoMedia.sizeBytes, downloaded = bytes) :
    Prepares w job o (Holds path downloaded) (verifyIsoHash w job path)
      fun _ => HasIso w job.isoMedia path := by
  refine ⟨?_⟩
  rintro s ⟨hs, iso, hiso, hlength⟩
  refine (ensures_bind (prepares_hashMatches _ iso _ _) fun ok => ?_).holds s ⟨hs, hiso⟩
  refine prepares_and fun hok => ?_
  cases ok with
  | false => exact prepares_fail
  | true =>
    exact prepares_pure fun s hs => ⟨iso, hs,
      fun bytes hbytes => hlength.trans (hsize bytes hbytes), hok rfl⟩

theorem prepares_downloadIso :
    Prepares w job o (fun _ => True) (downloadIso w job) (HasIso w job.isoMedia) := by
  refine prepares_read_bind fun _ => prepares_send_bind framed_true <|
    ensures_bind (prepares_downloadIsoWithProgress (downloadPath w job)) fun downloaded => ?_
  cases hsize : job.isoMedia.sizeBytes.filter (· ≠ downloaded) with
  | some expected => exact prepares_send_bind (framed_holds _ _) prepares_fail
  | none =>
    have hstated : ∀ bytes ∈ job.isoMedia.sizeBytes, downloaded = bytes := by
      intro bytes hbytes
      by_contra hne
      rw [Option.mem_def.mp hbytes, Option.filter_some,
        if_pos (by simpa using Ne.symm hne)] at hsize
      cases hsize
    refine prepares_send_bind (framed_holds _ _) <|
      ensures_bind (prepares_verifyIsoHash hstated) fun _ => ?_
    refine ensures_bind (prepares_write (Q := fun _ => HasIso w job.isoMedia (downloadPath w job))
      fun s hs => ?_) fun _ => prepares_pure fun s hs => hs
    obtain ⟨iso, hiso, hmatches⟩ := hs
    refine ⟨iso, ?_, hmatches⟩
    rw [file_write_of_ne (downloadPath_ne_manifestPath w job), hiso]

theorem prepares_resolveOrDownloadIso :
    Prepares w job o (fun _ => True) (resolveOrDownloadIso w job) (HasIso w job.isoMedia) := by
  refine ensures_bind prepares_findValidStagedIso fun found => ?_
  cases found with
  | none => exact prepares_of prepares_downloadIso fun _ _ => trivial
  | some path =>
    exact prepares_of (prepares_send_bind (framed_hasIso path) (prepares_pure fun s hs => hs))
      fun s hs => hs path rfl

/-! ## The launch -/

theorem prepares_mountIsoAndGetDrive :
    Prepares w job o (HasIso w job.isoMedia path) (mountIsoAndGetDrive w path)
      fun _ => HasMounted w job.isoMedia := by
  refine ensures_bind (Q := fun _ s => LaunchesChecked w job s ∧ HasMounted w job.isoMedia s)
    (ensures_perform (fun s hs => ⟨hs.1, hs.1⟩) fun s hs => hs) fun _ => ?_
  split
  · exact prepares_fail
  · exact prepares_pure fun s hs => hs

variable (w job) in
theorem framed_hasMounted : Framed (HasMounted w job.isoMedia) where
  of_sameFiles s s' hsame hs := by
    rw [HasMounted, hsame.2.1]
    exact hs

theorem hasMounted_write {s : StartState} (hs : HasMounted w job.isoMedia s) (path : String)
    (content : Option (List UInt8)) : HasMounted w job.isoMedia (s.write path content) := hs

theorem prepares_expandOrFail (expanded : Option α) :
    Prepares w job o P (expandOrFail expanded) fun _ => P := by
  cases expanded with
  | some value => exact prepares_pure fun s hs => hs
  | none => exact prepares_fail

theorem prepares_removeActiveState :
    Prepares w job o (fun _ => True) (removeActiveState w job) fun _ _ => True :=
  ensures_bind (Q := fun _ s => LaunchesChecked w job s ∧ True) (ensures_attempt (ensures_perform
    (fun _ hs => ⟨⟨hs, hs.1⟩, ⟨launchesChecked_write hs.1 _ _, trivial⟩,
      launchesChecked_write hs.1 _ _⟩) fun _ hs => ⟨launchesChecked_write hs.1 _ _, trivial⟩))
    fun _ => prepares_pure fun _ hs => hs

theorem prepares_awaitSetup :
    Prepares w job o (fun _ => True) (awaitSetup w job) fun _ _ => True := by
  refine prepares_send_bind framed_true <| prepares_read_bind fun _ => ?_
  split
  · exact ensures_perform (fun _ hs => ⟨hs.1, hs.1⟩) fun _ hs => hs
  · exact prepares_send_bind framed_true <|
      ensures_bind prepares_removeActiveState fun _ => prepares_fail

def gatePassed (w : World) (job : FeatureUpgradeStartJob) : Bool :=
  (collectFinalGateEvidence w.checkOutput job.diskFreeBytesRequired job.isoMedia
    job.targetProduct job.targetVersion).passed

theorem launchesChecked_launch {s : StartState} {setupPath : String} {arguments : List String}
    (hpassed : gatePassed w job = true) (hs : LaunchesChecked w job s)
    (hmounted : HasMounted w job.isoMedia s) :
    LaunchesChecked w job
      { s with launches := ⟨setupPath, arguments, s.mounted⟩ :: s.launches } := by
  intro launch hmem
  rcases List.mem_cons.mp hmem with rfl | hmem
  · exact ⟨hpassed, hmounted⟩
  · exact hs launch hmem

theorem prepares_launchSetup (setupPath : String) (arguments : List String)
    (hpassed : gatePassed w job = true) :
    Prepares w job o (HasMounted w job.isoMedia) (launchSetup w job setupPath arguments)
      fun _ _ => True := by
  have hlaunch : ∀ s, LaunchesChecked w job s ∧ HasMounted w job.isoMedia s → LaunchesChecked w job
        { s with launches := ⟨setupPath, arguments, s.mounted⟩ :: s.launches } :=
    fun s hs => launchesChecked_launch hpassed hs.1 hs.2
  refine prepares_read_bind fun _ =>
    ensures_bind (prepares_write (Q := fun _ => HasMounted w job.isoMedia) fun _ hs =>
      hasMounted_write hs _ _) fun _ => prepares_send_bind (framed_hasMounted w job) ?_
  refine ensures_bind (Q := fun _ s => LaunchesChecked w job s ∧ True) (ensures_attempt
    (ensures_perform (fun s hs => ⟨⟨⟨hs.1, trivial⟩, hs.1⟩, ⟨hlaunch s hs, trivial⟩, hlaunch s hs⟩)
      fun s hs => ⟨hlaunch s hs, trivial⟩)) fun started => ?_
  cases started with
  | none => exact ensures_bind prepares_removeActiveState fun _ => prepares_fail
  | some _ => exact prepares_awaitSetup

theorem prepares_runSetup (mountDrive : String) (hpassed : gatePassed w job = true) :
    Prepares w job o (HasMounted w job.isoMedia) (runSetup w job mountDrive) fun _ _ => True := by
  unfold runSetup
  refine prepares_read_bind fun _ => ?_
  dsimp only
  apply ensures_bind (prepares_expandOrFail _)
  intro setupPath
  apply ensures_bind (prepares_expandOrFail _)
  intro arguments
  exact prepares_launchSetup setupPath _ hpassed

theorem prepares_runStartJobWindows :
    Prepares w job o (fun _ => True) (runStartJobWindows w job) fun _ _ => True := by
  refine prepares_read_bind fun _ => prepares_read_bind fun _ => ?_
  dsimp only
  split
  next hpassed =>
    refine prepares_send_bind framed_true <|
      ensures_bind prepares_resolveOrDownloadIso fun path =>
        prepares_send_bind (framed_hasIso path) <|
          ensures_bind (prepares_mountIsoAndGetDrive path) fun drive =>
            prepares_runSetup drive hpassed
  next => exact prepares_send_bind framed_true prepares_fail

end

def GatesHold (w : World) (job : FeatureUpgradeStartJob) (launch : Launch) : Prop :=
  CheckPasses w.checkOutput job.diskFreeBytesRequired job.isoMedia job.targetProduct
    job.targetVersion ∧
  ∃ iso, launch.iso = some iso ∧ IsoMatches w job.isoMedia iso

/-- Whatever the outcomes of the operations, the gates hold for a started setup
exactly when the output of the final check is complete. -/
theorem gates_hold_iff (w : World) (job : FeatureUpgradeStartJob) (o : StartSite → Outcome)
    (s : StartState) (hs : s.launches = []) (launch : Launch)
    (hlaunch : launch ∈ (runStartJobWindows w job o s).2.launches) :
    GatesHold w job launch ↔ CheckIsComplete w.checkOutput job.diskFreeBytesRequired := by
  have hstart : LaunchesChecked w job s := by
    intro launch hmem
    rw [hs] at hmem
    cases hmem
  have hchecked := ((prepares_runStartJobWindows (o := o)).mono (fun s hs => ⟨hs, trivial⟩)
    fun _ _ hs => hs.1).final hstart
  obtain ⟨hpassed, hiso⟩ := hchecked launch hlaunch
  rw [GatesHold, checkPasses_iff hpassed, and_iff_left hiso]

def bareWorld (checkOutput : Value) : World where
  checkOutput := checkOutput
  programData := "C:\\ProgramData"
  entries := none
  parseManifest := fun _ => none
  encodeManifest := fun _ => []
  encodeActiveState := fun _ _ => []
  parseRfc3339 := fun _ => none
  now := 0
  stagedAt := "t"
  expiresAt := "t"
  sha256Hex := fun _ => "00"
  contentLength := none
  chunks := [⟨some [1, 2, 3], false⟩]
  mountOutput := .object [("drive", .string "D:")]
  edition := none
  imageIndex := none
  exitCode := 0

def bareJob : FeatureUpgradeStartJob where
  operationId := "op"
  runId := "run"
  organizationId := "org"
  agentId := "agent"
  targetProduct := "Windows 11"
  targetVersion := "25H2"
  diskFreeBytesRequired := 64
  isoMedia := ⟨"media", "Windows 11", some "en_gb", none, some 3⟩
  setupCommand := ⟨"\x7bmount_drive\x7d\\setup.exe", [], none⟩

def checkOutput (volumes : List Value) (bitlockerError : Value) : Value :=
  .object [("systemDrive", .string "C:"), ("freeBytes", .number (.posInt 64)),
    ("systemDefaultUiLanguage", .string "en-GB"), ("bitlocker", .array volumes),
    ("bitlockerError", bitlockerError)]

def emptyState : StartState := ⟨fun _ => none, none, [], []⟩

def unprotectedOutput : Value :=
  checkOutput [.object [("ProtectionStatus", .number (.posInt 0))]] .null

theorem unprotectedOutput_complete : CheckIsComplete unprotectedOutput 64 where
  free h := absurd h (by decide)
  queried error herror := (Option.some.inj herror).symm
  stated volume hvolume := by
    obtain rfl := List.mem_singleton.mp hvolume
    exact ⟨_, rfl, fun text htext => by cases htext⟩

theorem gates_hold_iff_bareJob :
    ∃ launch ∈ (runStartJobWindows (bareWorld unprotectedOutput) bareJob
      (fun _ => ⟨true, .ok⟩) emptyState).2.launches,
      GatesHold (bareWorld unprotectedOutput) bareJob launch := by
  have hlength : (runStartJobWindows (bareWorld unprotectedOutput) bareJob
      (fun _ => ⟨true, .ok⟩) emptyState).2.launches.length = 1 := by decide +kernel
  obtain ⟨launch, hlaunch⟩ := List.exists_mem_of_length_pos (hlength ▸ Nat.one_pos)
  exact ⟨launch, hlaunch, (gates_hold_iff _ bareJob _ emptyState rfl launch hlaunch).mpr
    unprotectedOutput_complete⟩

/-- Setup is started although the BitLocker query failed. -/
theorem setup_started_after_bitlocker_error :
    ((runStartJobWindows (bareWorld (checkOutput [] (.string "Access denied"))) bareJob
      (fun _ => ⟨true, .ok⟩) emptyState).2.launches.length = 1) ∧
    ¬ NoBitlockerError (checkOutput [] (.string "Access denied")) := by
  refine ⟨by decide +kernel, fun h => ?_⟩
  cases h _ rfl

end Talos.Upgrade
