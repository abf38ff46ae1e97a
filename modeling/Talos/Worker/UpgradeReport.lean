import Talos.Worker.UpgradeLaunch

/-!
# The last message of an upgrade job

While it runs, a start job sends messages with the status `running`. The refusal by the
final checks, an ISO of the wrong size and the end of Windows Setup are reported with
another status. Every other step that fails ends the job without a further message, so the
operation is left `running`.
-/

namespace Talos.Upgrade

open Rust Fallible Program

/-! ## The whole job -/

variable (s : StartState)

def StartState.told (status phase : String) (percent : ℕ) (error : Option String) : StartState :=
  { s with sent := s.sent ++ [⟨status, phase, percent, error⟩] }

variable (o : StartSite → Outcome)

def setupStarted (before after : StartState) : Bool :=
  (o .spawn).report = .ok && before.launches.length < after.launches.length

/-- While Setup runs, another task sends a message at intervals. It looks at the flag that
stops it before it sends, so one such message can come after the last one of the job, and
`late` says that it does. -/
def withHeartbeat (late : Bool) (before after : StartState) : StartState :=
  if late && setupStarted o before after then after.told "running" "setup_running" 72 none
  else after

def runWithHeartbeat (w : World) (job : FeatureUpgradeStartJob) (late : Bool) :
    StartProgram Unit := fun o s =>
  let result := runStartJobWindows w job o s
  (result.1, withHeartbeat o late s result.2)

def sendOpening (opening : Outcome) : StartProgram Unit := fun _ =>
  sendStartProgress 0 "running" "final_checks" 5 none fun _ => opening

/-- `run_start_job` on Windows, where `opening` is the outcome of the first message. -/
def runStartJob (w : World) (job : FeatureUpgradeStartJob) (opening : Outcome) (late : Bool) :
    StartProgram Unit := do
  sendOpening opening
  runWithHeartbeat w job late

def exitedWell (w : World) : Bool := w.exitCode = 0 || w.exitCode = 1641 || w.exitCode = 3010

/-- The last message says how the job has ended. -/
def FinalReport (w : World) (o : StartSite → Outcome) (before after : StartState) : Prop :=
  after.sent.getLast?.map Progress.status =
    some (if setupStarted o before after ∧ (o .wait).report = .ok ∧ exitedWell w = true then
      "awaiting_reboot" else "failed")

instance (w : World) (o : StartSite → Outcome) (before after : StartState) :
    Decidable (FinalReport w o before after) := inferInstanceAs (Decidable (_ = _))

/-! ## Jobs that report their end -/

section Condition

variable (w : World) (job : FeatureUpgradeStartJob) (o : StartSite → Outcome) (late : Bool)

def mountedDrive : Option String := nonBlank ((w.mountOutput.get "drive").bind Value.asStr)

def expansion (mountDrive template : String) : Option String :=
  expandTemplate template mountDrive (activeLogDir w job.operationId) job.targetVersion
    (w.edition.bind editionForCommand)

/-- Every step from the mounted ISO to the end of Setup succeeds. -/
structure SetupEnds : Prop where
  mount : (o .mount).report = .ok
  drive : ∃ drive ∈ mountedDrive w,
    (expansion w job drive job.setupCommand.setupExecutable).isSome ∧
      (job.setupCommand.arguments.mapM (expansion w job drive)).isSome
  createLogDir : (o .createLogDir).report = .ok
  createActiveRoot : (o .createActiveRoot).report = .ok
  writeActive : (o .writeActive).report = .ok
  spawn : (o .spawn).report = .ok
  wait : (o .wait).report = .ok
  punctual : late = false

/-- The download succeeds, and its size is wrong or everything after it succeeds. -/
def DownloadEnds (s : StartState) : Prop :=
  (o .createStageDir).report = .ok ∧
    (downloadIsoWithProgress w job (downloadPath w job)).Returns o
      (s.told "running" "downloading_iso" 25 none) fun bytes s =>
        (∃ expected ∈ job.isoMedia.sizeBytes, expected ≠ bytes) ∨
          (verifyIsoHash w job (downloadPath w job)).Returns o
            (s.told "running" "verifying_iso" 45 none) fun _ _ =>
              (o .writeManifest).report = .ok ∧ SetupEnds w job o late

/-- The steps up to the final checks succeed, and if these pass, so do the steps after
them, or the downloaded ISO has the wrong size. -/
structure JobEnds (s : StartState) : Prop where
  snapshot : (o .snapshot).report = .ok
  check : (o .check).report = .ok
  passed : gatePassed w job = true →
    (findValidStagedIso w job.isoMedia).Returns o (s.told "running" "resolving_iso" 15 none)
      fun found s =>
        match found with
        | some _ => SetupEnds w job o late
        | none => DownloadEnds w job o late s

end Condition

/-! ## Steps that report nothing -/

/-- What is sent has the status `running`, and Setup is not started. -/
def Quiet (s' : StartState) : Prop :=
  (∃ more : List Progress, s'.sent = s.sent ++ more ∧
    ∀ message ∈ more, message.status = "running") ∧ s'.launches = s.launches

instance : Std.Refl Quiet := ⟨fun s => ⟨⟨[], by simp, nofun⟩, rfl⟩⟩

instance : IsTrans StartState Quiet := ⟨by
  rintro s s' s'' ⟨⟨more, hsent, hrunning⟩, hlaunches⟩ ⟨⟨more', hsent', hrunning'⟩, hlaunches'⟩
  refine ⟨⟨more ++ more', by rw [hsent', hsent, List.append_assoc], fun message hmem => ?_⟩,
    hlaunches'.trans hlaunches⟩
  exact (List.mem_append.mp hmem).elim (hrunning message) (hrunning' message)⟩

def SameReports (s' : StartState) : Prop := s'.sent = s.sent ∧ s'.launches = s.launches

instance : Std.Refl SameReports := ⟨fun _ => ⟨rfl, rfl⟩⟩

instance : IsTrans StartState SameReports :=
  ⟨fun _ _ _ h h' => ⟨h'.1.trans h.1, h'.2.trans h.2⟩⟩

theorem sameReports_write (path : String) (content : Option (List UInt8)) :
    SameReports s (s.write path content) := ⟨rfl, rfl⟩

/-- The last message has the status `running`. -/
def Running : Prop := s.sent.getLast?.map Progress.status = some "running"

@[simp] theorem getLast?_told (status phase : String) (percent : ℕ) (error : Option String) :
    (s.told status phase percent error).sent.getLast? = some ⟨status, phase, percent, error⟩ :=
  List.getLast?_concat

@[simp] theorem setupStarted_told (before s : StartState) (status phase : String) (percent : ℕ)
    (error : Option String) :
    setupStarted o before (s.told status phase percent error) = setupStarted o before s := rfl

theorem running_told (phase : String) (percent : ℕ) (error : Option String) :
    Running (s.told "running" phase percent error) := by simp [Running]

theorem Running.of_quiet {s s' : StartState} (hs : Running s) (hquiet : Quiet s s') :
    Running s' := by
  obtain ⟨⟨more, hsent, hrunning⟩, -⟩ := hquiet
  rcases List.eq_nil_or_concat more with rfl | ⟨init, last, rfl⟩
  · rw [Running, hsent, List.append_nil]
    exact hs
  · rw [Running, hsent, List.concat_eq_append, ← List.append_assoc, List.getLast?_concat,
      Option.map_some, hrunning last (by simp)]

section Keeps

variable {w : World} {job : FeatureUpgradeStartJob}

variable (index : ℕ)

theorem keeps_sendRunning (phase : String) (percent : ℕ) (error : Option String) :
    Keeps Quiet (sendStartProgress index "running" phase percent error) :=
  keeps_perform fun _ => ⟨⟨_, rfl, by simp⟩, rfl⟩

theorem keeps_write (site : StartSite) (description path : String)
    (content : StartState → Option (List UInt8)) :
    Keeps Quiet (perform site description fun s => s.write path (content s)) :=
  keeps_perform fun _ => ⟨⟨[], by simp [StartState.write], nofun⟩, rfl⟩

variable (media : FeatureUpgradeIsoMedia)

theorem keeps_hashMatches (site : StartSite) (description path : String) :
    Keeps Quiet (hashMatches w media site description path) := by
  unfold hashMatches
  split
  · exact keeps_pure _
  · refine keeps_bind (keeps_read _ _ _) fun content => ?_
    cases content
    · exact keeps_fail _
    · exact keeps_pure _

theorem keeps_checkStagedEntry (dir : String) :
    Keeps Quiet (checkStagedEntry w media index dir) := by
  refine keeps_bind (keeps_attempt (keeps_read _ _ _)) fun bytes => ?_
  cases bytes.join.bind w.parseManifest with
  | none => exact keeps_pure _
  | some manifest =>
    dsimp only
    split
    · exact keeps_pure _
    · refine keeps_bind (keeps_attempt (keeps_read _ _ _)) fun metadata => ?_
      cases metadata.join with
      | none => exact keeps_pure _
      | some content =>
        dsimp only
        split
        · refine keeps_bind (keeps_hashMatches _ _ _ _) fun ok => ?_
          cases ok <;> exact keeps_pure _
        · exact keeps_pure _

theorem keeps_findInEntries (entries : List String) :
    Keeps Quiet (findInEntries w media index entries) := by
  induction entries generalizing index with
  | nil => exact keeps_pure _
  | cons dir rest ih =>
    refine keeps_bind (keeps_read _ _ _) fun _ =>
      keeps_bind (keeps_checkStagedEntry _ _ _) fun found => ?_
    cases found with
    | some path => exact keeps_pure _
    | none => exact ih _

theorem keeps_findValidStagedIso : Keeps Quiet (findValidStagedIso w media) := by
  refine keeps_bind (keeps_read _ _ _) fun _ => ?_
  cases w.entries with
  | none => exact keeps_pure _
  | some entries => exact keeps_findInEntries _ _ _

theorem keeps_appendFile (path : String) (data : List UInt8) :
    Keeps Quiet (appendFile index path data) := by
  intro o s
  unfold appendFile
  dsimp only
  split
  · exact keeps_write _ _ _ _ o s
  · exact refl s

variable (path : String)

theorem keeps_writeChunks (index downloaded : ℕ) (chunks : List Chunk) :
    Keeps Quiet (writeChunks w job path index downloaded chunks) := by
  induction chunks generalizing index downloaded with
  | nil => exact keeps_pure _
  | cons chunk rest ih =>
    rw [writeChunks]
    cases chunk.data with
    | none => exact keeps_fail _
    | some data =>
      refine keeps_bind (keeps_appendFile _ _ _) fun _ => ?_
      dsimp only
      split
      · exact keeps_bind (keeps_sendRunning _ _ _ _) fun _ => ih _ _
      · exact ih _ _

theorem keeps_downloadIsoWithProgress : Keeps Quiet (downloadIsoWithProgress w job path) :=
  keeps_bind (keeps_read _ _ _) fun _ => keeps_bind (keeps_write _ _ _ _) fun _ =>
    keeps_bind (keeps_writeChunks _ _ _ _) fun _ =>
      keeps_bind (keeps_read _ _ _) fun _ => keeps_pure _

theorem keeps_verifyIsoHash : Keeps Quiet (verifyIsoHash w job path) := by
  refine keeps_bind (keeps_hashMatches _ _ _ _) fun ok => ?_
  cases ok
  · exact keeps_fail _
  · exact keeps_pure _

variable (w job) in
theorem keeps_removeActiveState : Keeps SameReports (removeActiveState w job) := by
  unfold removeActiveState
  exact keeps_bind (keeps_attempt (keeps_perform fun s => sameReports_write s _ _)) fun _ =>
    keeps_pure _

end Keeps

/-! ## Where a job can stop -/

/-- The last message has the status `running`, and Setup was started as listed. -/
structure UnderWay (launches : List Launch) (s : StartState) : Prop where
  running : Running s
  launched : s.launches = launches

/-- The last message of a job that ends in `after`. -/
def Reported (w : World) (o : StartSite → Outcome) (late : Bool) (before after : StartState) :
    Prop :=
  FinalReport w o before (withHeartbeat o late before after)

section Reported

variable {w : World} {job : FeatureUpgradeStartJob} {o : StartSite → Outcome} {late : Bool}
  {before s : StartState} {launches : List Launch} {α : Type}

theorem Running.not_finalReport (hs : Running s) : ¬FinalReport w o before s := by
  rw [FinalReport, hs]
  split <;> decide

theorem Running.not_reported (hs : Running s) : ¬Reported w o late before s := by
  unfold Reported withHeartbeat
  split
  · exact (running_told s _ _ _).not_finalReport
  · exact hs.not_finalReport

theorem reported_iff (hs : FinalReport w o before s) :
    Reported w o late before s ↔ (late && setupStarted o before s) = false := by
  unfold Reported withHeartbeat
  split
  · next hlate =>
      rw [hlate]
      exact iff_of_false (running_told s _ _ _).not_finalReport nofun
  · next hlate => exact iff_of_true hs (by simpa using hlate)

theorem SameReports.reported_iff {s' : StartState} (hsame : SameReports s s') :
    Reported w o late before s' ↔ Reported w o late before s := by
  have hstarted : setupStarted o before s' = setupStarted o before s := by
    rw [setupStarted, hsame.2, setupStarted]
  unfold Reported withHeartbeat
  rw [hstarted]
  split
  · exact iff_of_false (running_told s' _ _ _).not_finalReport
      (running_told s _ _ _).not_finalReport
  · rw [FinalReport, FinalReport, hstarted, hsame.1]

/-- A step that reports nothing has to succeed. -/
theorem reported_bind {p : StartProgram α} {f : α → StartProgram Unit}
    {Q : α → StartState → Prop} (hp : Keeps Quiet p) (hs : UnderWay launches s)
    (hf : ∀ a s', UnderWay launches s' → (Reported w o late before (f a o s').2 ↔ Q a s')) :
    Reported w o late before ((p >>= f) o s).2 ↔ p.Returns o s Q := by
  have hquiet := hp o s
  change Reported w o late before (Program.bind p f o s).2 ↔ _
  unfold Program.bind Returns
  split
  · next a s' heq =>
      rw [heq] at hquiet
      exact hf a s' ⟨hs.running.of_quiet hquiet, hquiet.2.trans hs.launched⟩
  · next stop s' heq =>
      rw [heq] at hquiet
      exact iff_of_false (hs.running.of_quiet hquiet).not_reported id

/-- A failure that is reported before Setup is started. -/
theorem UnderWay.reported_failed (hs : UnderWay before.launches s) (phase : String) (percent : ℕ)
    (error : Option String) : Reported w o late before (s.told "failed" phase percent error) := by
  have hnot : setupStarted o before s = false := by simp [setupStarted, hs.launched]
  rw [reported_iff (by simp [FinalReport, hnot]), setupStarted_told, hnot, Bool.and_false]

variable (hopen : ∀ i, (o (.progress i)).report = .ok)

include hopen

theorem send_of_open (index : ℕ) (status phase : String) (percent : ℕ) (error : Option String) :
    sendStartProgress index status phase percent error o s =
      (.ok (), s.told status phase percent error) := by
  unfold sendStartProgress perform
  rw [hopen index]
  rfl

theorem send_bind (index : ℕ) (status phase : String) (percent : ℕ) (error : Option String)
    (f : Unit → StartProgram α) :
    (sendStartProgress index status phase percent error >>= f) o s =
      f () o (s.told status phase percent error) :=
  bind_of_ok (send_of_open hopen index status phase percent error)

omit hopen in
theorem underWay_told (hs : s.launches = launches) (phase : String) (percent : ℕ)
    (error : Option String) : UnderWay launches (s.told "running" phase percent error) :=
  ⟨running_told s phase percent error, hs⟩

theorem reported_awaitSetup (hstarted : setupStarted o before s = true) :
    Reported w o late before (awaitSetup w job o s).2 ↔ (o .wait).report = .ok ∧ late = false := by
  rw [awaitSetup, send_bind hopen, reported_bind (keeps_read _ _ _) (underWay_told rfl _ _ _)
    fun _ _ _ => Iff.rfl, returns_read]
  refine and_congr_right fun hwait => ?_
  split
  · next hexit =>
      have hended : FinalReport w o before ((s.told "running" "setup_running" 70 none).told
          "awaiting_reboot" "awaiting_reboot" 80 none) := by
        simp [FinalReport, hstarted, hwait, exitedWell, hexit]
      rw [send_of_open hopen, reported_iff hended]
      simp [hstarted]
  · next hexit =>
      have hended : FinalReport w o before ((s.told "running" "setup_running" 70 none).told
          "failed" "failed" 100 (some (setupExitMessage w.exitCode))) := by
        simp [FinalReport, exitedWell, hexit]
      have hsame : Keeps SameReports (removeActiveState w job >>= fun _ =>
          (fail (setupExitMessage w.exitCode) : StartProgram Unit)) :=
        keeps_bind (keeps_removeActiveState w job) fun _ => keeps_fail _
      rw [send_bind hopen, (hsame o _).reported_iff, reported_iff hended]
      simp [hstarted]

theorem reported_launchSetup (hs : UnderWay before.launches s) (setupPath : String)
    (arguments : List String) :
    Reported w o late before (launchSetup w job setupPath arguments o s).2 ↔
      (o .createActiveRoot).report = .ok ∧ (o .writeActive).report = .ok ∧
        (o .spawn).report = .ok ∧ (o .wait).report = .ok ∧ late = false := by
  rw [launchSetup, reported_bind (keeps_read _ _ _) hs fun _ _ _ => Iff.rfl, returns_read]
  refine and_congr_right fun _ => ?_
  rw [reported_bind (keeps_write _ _ _ _) hs (Q := fun _ _ => (o .spawn).report = .ok ∧
    (o .wait).report = .ok ∧ late = false), returns_perform]
  intro _ s' hs'
  rw [send_bind hopen]
  have hrunning : UnderWay before.launches (s'.told "running" "launching_setup" 65 none) :=
    underWay_told hs'.launched _ _ _
  generalize s'.told "running" "launching_setup" 65 none = s' at hrunning ⊢
  have hattempt := attempt_perform StartSite.spawn "launch Windows Setup" (fun s =>
    { s with launches := ⟨setupPath, arguments, s.mounted⟩ :: s.launches }) o s'
  have hstopped : Running (if (o .spawn).effect then
      { s' with launches := ⟨setupPath, arguments, s'.mounted⟩ :: s'.launches } else s') := by
    split <;> exact hrunning.running
  cases hspawn : (o .spawn).report with
  | ok =>
    rw [hspawn] at hattempt
    rw [bind_of_ok hattempt, reported_awaitSetup hopen]
    · simp
    · simp [setupStarted, hspawn, hrunning.launched]
  | error =>
    have hremove : Keeps SameReports (removeActiveState w job >>= fun _ =>
        (fail "launch Windows Setup" : StartProgram Unit)) :=
      keeps_bind (keeps_removeActiveState w job) fun _ => keeps_fail _
    rw [hspawn] at hattempt
    rw [bind_of_ok hattempt, (hremove o _).reported_iff]
    exact iff_of_false hstopped.not_reported nofun
  | crash =>
    rw [hspawn] at hattempt
    rw [bind_of_error hattempt]
    exact iff_of_false hstopped.not_reported nofun

omit hopen in
theorem keeps_expandOrFail {β : Type} (expanded : Option β) :
    Keeps Quiet (expandOrFail expanded) := by
  cases expanded
  · exact keeps_fail _
  · exact keeps_pure _

omit hopen in
theorem returns_expandOrFail {β : Type} {expanded : Option β} {Q : β → StartState → Prop} :
    (expandOrFail expanded).Returns o s Q ↔ ∃ value ∈ expanded, Q value s := by
  cases expanded
  · exact iff_of_false id (by simp)
  · exact ⟨fun h => ⟨_, rfl, h⟩, fun ⟨_, hmem, h⟩ => by cases hmem; exact h⟩

theorem reported_runSetup (hs : UnderWay before.launches s) (mountDrive : String) :
    Reported w o late before (runSetup w job mountDrive o s).2 ↔ (o .createLogDir).report = .ok ∧
        (∃ _ ∈ expansion w job mountDrive job.setupCommand.setupExecutable,
          ∃ _ ∈ job.setupCommand.arguments.mapM (expansion w job mountDrive),
            (o .createActiveRoot).report = .ok ∧ (o .writeActive).report = .ok ∧
              (o .spawn).report = .ok ∧ (o .wait).report = .ok ∧ late = false) := by
  rw [runSetup, reported_bind (keeps_read _ _ _) hs fun _ _ _ => Iff.rfl, returns_read]
  refine and_congr_right fun _ => ?_
  rw [reported_bind (keeps_expandOrFail _) hs fun _ _ _ => Iff.rfl, returns_expandOrFail]
  refine exists_congr fun setupPath => and_congr_right fun _ => ?_
  rw [reported_bind (keeps_expandOrFail _) hs fun _ _ _ => Iff.rfl, returns_expandOrFail]
  exact exists_congr fun arguments => and_congr_right fun _ => reported_launchSetup hopen hs _ _

omit hopen in
theorem keeps_mountIsoAndGetDrive (path : String) : Keeps Quiet (mountIsoAndGetDrive w path) := by
  refine keeps_bind (keeps_perform fun s => ⟨⟨[], by simp, nofun⟩, rfl⟩) fun _ => ?_
  split
  · exact keeps_fail _
  · exact keeps_pure _

omit hopen in
theorem returns_mountIsoAndGetDrive {path : String} {Q : String → Prop} :
    (mountIsoAndGetDrive w path).Returns o s (fun drive _ => Q drive) ↔
      (o .mount).report = .ok ∧ ∃ drive ∈ mountedDrive w, Q drive := by
  rw [mountIsoAndGetDrive, returns_bind, returns_perform]
  refine and_congr_right fun _ => ?_
  unfold mountedDrive
  cases nonBlank ((w.mountOutput.get "drive").bind Value.asStr) with
  | none => exact iff_of_false id (by simp)
  | some drive => exact ⟨fun h => ⟨_, rfl, h⟩, fun ⟨_, hmem, h⟩ => by cases hmem; exact h⟩

theorem reported_setup (hs : UnderWay before.launches s) (path : String) :
    Reported w o late before ((sendStartProgress 5 "running" "mounting_iso" 55 none >>= fun _ =>
        mountIsoAndGetDrive w path >>= runSetup w job) o s).2 ↔ SetupEnds w job o late := by
  rw [send_bind hopen, reported_bind (keeps_mountIsoAndGetDrive path)
    (underWay_told hs.launched _ _ _) fun drive s' hs' => reported_runSetup hopen hs' drive,
    returns_mountIsoAndGetDrive]
  constructor
  · rintro ⟨hmount, drive, hdrive, hlog, setupPath, hpath, arguments, harguments, hroot, hactive,
      hspawn, hwait, hlate⟩
    exact ⟨hmount, ⟨drive, hdrive, Option.isSome_of_mem hpath, Option.isSome_of_mem harguments⟩,
      hlog, hroot, hactive, hspawn, hwait, hlate⟩
  · rintro ⟨hmount, ⟨drive, hdrive, hpath, harguments⟩, hlog, hroot, hactive, hspawn, hwait, hlate⟩
    obtain ⟨setupPath, hpath⟩ := Option.isSome_iff_exists.mp hpath
    obtain ⟨arguments, harguments⟩ := Option.isSome_iff_exists.mp harguments
    exact ⟨hmount, drive, hdrive, hlog, setupPath, hpath, arguments, harguments, hroot, hactive,
      hspawn, hwait, hlate⟩

theorem reported_downloadIso (hs : UnderWay before.launches s) {f : String → StartProgram Unit}
    (hf : ∀ path s', UnderWay before.launches s' →
      (Reported w o late before (f path o s').2 ↔ SetupEnds w job o late)) :
    Reported w o late before ((downloadIso w job >>= f) o s).2 ↔ DownloadEnds w job o late s := by
  rw [downloadIso, bind_bind, reported_bind (keeps_read _ _ _) hs fun _ _ _ => Iff.rfl,
    returns_read]
  refine and_congr_right fun _ => ?_
  rw [bind_bind, send_bind hopen, bind_bind]
  refine reported_bind (keeps_downloadIsoWithProgress _) (underWay_told hs.launched _ _ _)
    fun bytes s' hs' => ?_
  cases hsize : job.isoMedia.sizeBytes.filter (· ≠ bytes) with
  | some expected =>
    obtain ⟨hstated, hne⟩ := Option.filter_eq_some_iff.mp hsize
    rw [bind_bind, send_bind hopen]
    exact iff_of_true (hs'.reported_failed _ _ _) (.inl ⟨expected, hstated, by simpa using hne⟩)
  | none =>
    rw [or_iff_right, bind_bind, send_bind hopen, bind_bind]
    · refine reported_bind (keeps_verifyIsoHash _) (underWay_told hs'.launched _ _ _)
        fun _ s'' hs'' => ?_
      rw [bind_bind]
      refine (reported_bind (keeps_write _ _ _ _) hs''
        (Q := fun _ _ => SetupEnds w job o late) fun _ s hs => ?_).trans returns_perform
      exact hf _ s hs
    · rintro ⟨expected, hstated, hne⟩
      rw [Option.mem_def.mp hstated, Option.filter_some, if_pos (by simpa using hne)] at hsize
      exact nomatch hsize

theorem reported_runStartJobWindows (hs : UnderWay before.launches s) :
    Reported w o late before (runStartJobWindows w job o s).2 ↔ JobEnds w job o late s := by
  have hjob : Reported w o late before (runStartJobWindows w job o s).2 ↔
      (o .snapshot).report = .ok ∧ (o .check).report = .ok ∧ (gatePassed w job = true →
        (findValidStagedIso w job.isoMedia).Returns o (s.told "running" "resolving_iso" 15 none)
          fun found s =>
            match found with
            | some _ => SetupEnds w job o late
            | none => DownloadEnds w job o late s) := by
    rw [runStartJobWindows, reported_bind (keeps_read _ _ _) hs fun _ _ _ => Iff.rfl, returns_read,
      reported_bind (keeps_read _ _ _) hs fun _ _ _ => Iff.rfl, returns_read]
    refine and_congr_right fun _ => and_congr_right fun _ => ?_
    dsimp only
    split
    · next hpassed =>
        have hgate : gatePassed w job = true := hpassed
        rw [imp_iff_right hgate, send_bind hopen, resolveOrDownloadIso, bind_bind]
        refine reported_bind (keeps_findValidStagedIso _) (underWay_told hs.launched _ _ _)
          fun found s' hs' => ?_
        cases found with
        | some path =>
          rw [bind_bind, send_bind hopen]
          exact reported_setup hopen (underWay_told hs'.launched _ _ _) path
        | none => exact reported_downloadIso hopen hs' fun path s hs => reported_setup hopen hs path
    · next hpassed =>
        rw [send_bind hopen]
        exact iff_of_true (hs.reported_failed _ _ _) fun h => absurd h hpassed
  rw [hjob]
  exact ⟨fun ⟨hsnapshot, hcheck, hpassed⟩ => ⟨hsnapshot, hcheck, hpassed⟩,
    fun ⟨hsnapshot, hcheck, hpassed⟩ => ⟨hsnapshot, hcheck, hpassed⟩⟩

end Reported

/-- On a channel that stays open, the last message of a job says how it has ended exactly
when no step fails whose failure is not reported. -/
theorem final_report_iff (w : World) (job : FeatureUpgradeStartJob) (opening : Outcome)
    (late : Bool) (o : StartSite → Outcome) (s : StartState) (hopening : opening.report = .ok)
    (hopen : ∀ i, (o (.progress i)).report = .ok) :
    FinalReport w o s (runStartJob w job opening late o s).2 ↔
      JobEnds w job o late (s.told "running" "final_checks" 5 none) := by
  have hfirst : sendOpening opening o s = (.ok (), s.told "running" "final_checks" 5 none) :=
    send_of_open (fun _ => hopening) 0 "running" "final_checks" 5 none
  have hended : Reported w o late s
      (runStartJobWindows w job o (s.told "running" "final_checks" 5 none)).2 ↔
        JobEnds w job o late (s.told "running" "final_checks" 5 none) :=
    reported_runStartJobWindows hopen (underWay_told rfl _ _ _)
  rw [runStartJob, bind_of_ok hfirst]
  exact hended

theorem final_report_iff_bareJob :
    JobEnds (bareWorld unprotectedOutput) bareJob (fun _ => ⟨true, .ok⟩) false
      (emptyState.told "running" "final_checks" 5 none) :=
  (final_report_iff _ bareJob ⟨true, .ok⟩ false (fun _ => ⟨true, .ok⟩) emptyState rfl
    fun _ => rfl).mp (by decide +kernel)

def mountFails : StartSite → Outcome
  | .mount => ⟨false, .error⟩
  | _ => ⟨true, .ok⟩

/-- A job that ends because the ISO cannot be mounted says nothing of it. -/
theorem failed_mount_left_running : (∀ i, (mountFails (.progress i)).report = .ok) ∧
      (runStartJob (bareWorld unprotectedOutput) bareJob ⟨true, .ok⟩ false mountFails
        emptyState).1 = .error (.error "mount Windows setup ISO") ∧
      ¬FinalReport (bareWorld unprotectedOutput) mountFails emptyState
        (runStartJob (bareWorld unprotectedOutput) bareJob ⟨true, .ok⟩ false mountFails
          emptyState).2 :=
  ⟨fun _ => rfl, by decide +kernel, by decide +kernel⟩

end Talos.Upgrade
