import Talos.Patch.Convergence
import Talos.Remediation.Transition

/-!
# Terminal patch actions

Four services write the status of an action row: progress batches, action-result
posts, reports about patch jobs and the step that fails stale patch jobs. The
last three run outside the progress transaction; the two statements of the stale
step commit on their own, so they are separate steps here, and the second one is
taken with any list of jobs.

Progress, job reports and the stale step leave a terminal row alone. An
action-result post writes its status whatever the row says, so a terminal row is
kept as long as every post to it repeats its status.
-/

namespace Talos.Patch

open JavaScript Relational Transition
open Remediation (Timestamp SqlError Device StatusReport)

/-! ## Reports about patch jobs -/

def jobStatusWrite (report : StatusReport) : ActionAssignment where
  apply action := { action with status := report.status.text }
  key_eq _ := rfl

/-- The `WHERE` clause of the action update that follows an accepted report. -/
def jobStatusSelects (report : StatusReport) (jobId : ℕ) (organizationId agentId : String)
    (action : PatchAction) : Bool :=
  action.remediationJobId = some jobId && action.organizationId = organizationId &&
    action.agentId = agentId &&
    (!isTerminalStatus action.status || action.status = report.status.text)

variable (db : PatchDatabase)

/-- `PATCH …/patch-jobs/:id/status` after parsing, in one transaction. -/
def patchJobStatus (now : Timestamp) (jobId : ℕ) (agentId : String) (report : StatusReport) :
    PatchDatabase :=
  match Remediation.transitionRemediationStatus db.remediation now
      ⟨.jobId jobId, agentId, none, .patch⟩ report with
  | .ok (remediation, .updated _ _ updatedId _ organizationId updatedAgent) =>
    { db with remediation := remediation }.updateActions
      (jobStatusSelects report updatedId organizationId updatedAgent) (jobStatusWrite report)
  | _ => db

/-! ## Stale patch jobs -/

def isStale (now : Timestamp) (agentId : String) (staleMinutes : ℕ) (job : Remediation.Job) :
    Bool :=
  job.agentId = agentId && job.intentId = Remediation.patchInstallIntentId &&
    job.status = "running" && job.startedAt.getD job.requestedAt < now - staleMinutes * 60000

def staleJobWrite (now : Timestamp) : Remediation.Database.JobAssignment where
  apply job := { job with status := "failed", finishedAt := some now }
  id_eq _ := rfl
  commandId_eq _ := rfl
  dedupeKey_eq _ := rfl

/-- The first statement of `failStalePatchJobsForAgent`, with the rows it
returns. -/
def failStaleJobs (now : Timestamp) (agentId : String) (staleMinutes : ℕ) :
    PatchDatabase × List (ℕ × Option String) :=
  ({ db with
      remediation := db.remediation.updateJobs (isStale now agentId staleMinutes)
        (staleJobWrite now) },
    (db.remediation.jobs.filter (isStale now agentId staleMinutes)).map fun job =>
      (job.id, job.commandId))

def staleError (staleMinutes : ℕ) : String :=
  "Patch job marked failed after being stale for " ++ toString staleMinutes ++ " minutes."

def staleActionWrite (now : Timestamp) (staleMinutes : ℕ) : ActionAssignment where
  apply action :=
    { action with
      status := "failed"
      phase := some "stale"
      errorMessage := some (staleError staleMinutes)
      finishedAt := action.finishedAt.orElse fun _ => some now }
  key_eq _ := rfl

def staleActionSelects (jobs : List (ℕ × Option String)) (action : PatchAction) : Bool :=
  let commandIds := jobs.filterMap fun job => job.2.filter fun commandId => commandId ≠ ""
  let operationIds := jobs.map (fun job => toString job.1) ++ commandIds
  !isTerminalStatus action.status &&
    (jobs.any (fun job => action.remediationJobId = some job.1) ||
      action.remediationCommandId.any commandIds.contains ||
      operationIds.contains action.operationId)

/-- The second statement, for the jobs that the first one returned. -/
def failStaleActions (now : Timestamp) (staleMinutes : ℕ) (jobs : List (ℕ × Option String)) :
    PatchDatabase :=
  if jobs.isEmpty then db
  else db.updateActions (staleActionSelects jobs) (staleActionWrite now staleMinutes)

/-! ## The four writers together -/

/-- The two statements of `failStalePatchJobsForAgent` are separate steps, so that
others can write between them. -/
inductive PatchStep where
  | progress (batch : Batch)
  | actionResult (clock : Clock) (options : PatchActionResultOptions) (freshId : String)
  | jobStatus (now : Timestamp) (jobId : ℕ) (agentId : String) (report : StatusReport)
  | failStaleJobs (now : Timestamp) (agentId : String) (staleMinutes : ℕ)
  | failStaleActions (now : Timestamp) (staleMinutes : ℕ) (jobs : List (ℕ × Option String))

def patchStep (js : Runtime) (db : PatchDatabase) : PatchStep → PatchDatabase
  | .progress batch => (ProgressState.step js ⟨db, []⟩ batch).db
  | .actionResult clock options freshId =>
    (recordPatchActionResult js db clock options freshId).1
  | .jobStatus now jobId agentId report => patchJobStatus db now jobId agentId report
  | .failStaleJobs now agentId staleMinutes => (failStaleJobs db now agentId staleMinutes).1
  | .failStaleActions now staleMinutes jobs => failStaleActions db now staleMinutes jobs

/-- The terminal rows are still there, with the same status. -/
def TerminalKept (db' : PatchDatabase) : Prop :=
  ∀ key row, db.action? key = some row → isTerminalStatus row.status = true →
    ∃ row', db'.action? key = some row' ∧ row'.status = row.status

/-- A post to a terminal row repeats the row's status; the other steps are free. -/
def RepeatsTerminal : PatchStep → Prop
  | .actionResult _ options _ => ∀ device operationId row,
      loadDevice db options.agentId options.organizationId = some device →
      options.operationId = some operationId →
      db.action? (device.organizationId, device.agentId, operationId) = some row →
      isTerminalStatus row.status = true → options.status = row.status
  | _ => True

variable (db : PatchDatabase)

theorem TerminalKept.refl : TerminalKept db db := fun _ row hrow _ => ⟨row, hrow, rfl⟩

theorem TerminalKept.trans {a b c : PatchDatabase} (hab : TerminalKept a b)
    (hbc : TerminalKept b c) : TerminalKept a c := by
  intro key row hrow hterminal
  obtain ⟨middle, hmiddle, hstatus⟩ := hab key row hrow hterminal
  obtain ⟨last, hlast, hlastStatus⟩ := hbc key middle hmiddle (by rw [hstatus, hterminal])
  exact ⟨last, hlast, hlastStatus.trans hstatus⟩

theorem Advances.terminalKept {db db' : PatchDatabase} (h : Advances db db') :
    TerminalKept db db' := by
  intro key row hrow hterminal
  obtain ⟨row', hrow', hadvances⟩ := h key row hrow
  exact ⟨row', hrow', hadvances.status hterminal⟩

theorem terminalKept_of_actions_eq {db db' : PatchDatabase} (h : db'.actions = db.actions) :
    TerminalKept db db' := by
  intro key row hrow _
  refine ⟨row, ?_, rfl⟩
  rwa [PatchDatabase.action?, h]

/-- An update keeps the terminal rows when it keeps the status of those it
selects. -/
theorem updateActions_terminalKept {p : PatchAction → Bool} {set : ActionAssignment}
    (h : ∀ row ∈ db.actions, p row = true → isTerminalStatus row.status = true →
      (set.apply row).status = row.status) : TerminalKept db (db.updateActions p set) := by
  intro key row hrow hterminal
  rw [PatchDatabase.action?_updateActions, hrow, Option.map_some]
  refine ⟨_, rfl, ?_⟩
  split_ifs with hselected
  · exact h row (PatchDatabase.key_of_action? hrow).1 hselected hterminal
  · rfl

theorem patchJobStatus_terminalKept (now : Timestamp) (jobId : ℕ) (agentId : String)
    (report : StatusReport) : TerminalKept db (patchJobStatus db now jobId agentId report) := by
  unfold patchJobStatus
  split
  · rename_i remediation _ _ updatedId _ organizationId updatedAgent _
    have hsame : TerminalKept db { db with remediation := remediation } :=
      terminalKept_of_actions_eq rfl
    refine hsame.trans (updateActions_terminalKept _ ?_)
    intro row _ hselected hterminal
    simp only [jobStatusSelects, hterminal, Bool.not_true, Bool.false_or, Bool.and_eq_true,
      decide_eq_true_eq] at hselected
    exact hselected.2.symm
  · exact TerminalKept.refl db

theorem failStaleActions_terminalKept (now : Timestamp) (staleMinutes : ℕ)
    (jobs : List (ℕ × Option String)) :
    TerminalKept db (failStaleActions db now staleMinutes jobs) := by
  unfold failStaleActions
  split_ifs
  · exact TerminalKept.refl db
  · refine updateActions_terminalKept db ?_
    intro row _ hselected hterminal
    simp [staleActionSelects, hterminal] at hselected

/-! ## Action-result posts -/

/-- The row that a post addresses, when terminal, has the status of the post. -/
def AgreesAt (db : PatchDatabase) (key : String × String × String) (status : String) : Prop :=
  ∀ row, db.action? key = some row → isTerminalStatus row.status = true → status = row.status

/-- From rows that agree with the status, the terminal ones are kept and the rows
agree again. -/
def KeepsAgreement (key : String × String × String) (status : String)
    (db db' : PatchDatabase) : Prop :=
  AgreesAt db key status → TerminalKept db db' ∧ AgreesAt db' key status

variable {key : String × String × String} {status : String}

theorem KeepsAgreement.refl : KeepsAgreement key status db db := fun h => ⟨TerminalKept.refl db, h⟩

theorem KeepsAgreement.trans {a b c : PatchDatabase} (hab : KeepsAgreement key status a b)
    (hbc : KeepsAgreement key status b c) : KeepsAgreement key status a c := by
  intro ha
  obtain ⟨hkept, hb⟩ := hab ha
  obtain ⟨hkept', hc⟩ := hbc hb
  exact ⟨hkept.trans hkept', hc⟩

theorem KeepsActions.agreesAt {statement : Statement} (h : KeepsActions statement)
    {db db' : PatchDatabase} (hok : statement db = .ok db') (hagrees : AgreesAt db key status) :
    TerminalKept db db' ∧ AgreesAt db' key status := by
  obtain ⟨hactions, -⟩ := h db db' hok
  refine ⟨terminalKept_of_actions_eq hactions, ?_⟩
  rwa [AgreesAt, PatchDatabase.action?, hactions]

theorem actionStatement_agreesAt {device : Device} {now : Timestamp}
    {options : PatchActionResultOptions} {operationId : String} {db db' : PatchDatabase}
    (h : actionStatement device now options .full operationId db = .ok db')
    (hagrees : AgreesAt db (device.organizationId, device.agentId, operationId) options.status) :
    TerminalKept db db' ∧
      AgreesAt db' (device.organizationId, device.agentId, operationId) options.status := by
  rw [actionStatement_ok h]
  refine ⟨updateActions_terminalKept db ?_, ?_⟩
  · intro row hrow hselected hterminal
    have hkey : row.key = some (device.organizationId, device.agentId, operationId) :=
      of_decide_eq_true hselected
    exact hagrees row (db.actions_key.find?_eq_some hrow hkey) hterminal
  · intro row hrow _
    rw [PatchDatabase.action?_updateActions] at hrow
    obtain ⟨old, hold, rfl⟩ := Option.map_eq_some_iff.mp hrow
    have hselected : addressed device operationId old = true :=
      decide_eq_true (PatchDatabase.key_of_action? hold).2
    rw [if_pos hselected]
    rfl

/-- A post that repeats the status of the terminal row it addresses keeps every
terminal row. -/
theorem actionResult_terminalKept (js : Runtime) (db : PatchDatabase) (clock : Clock)
    (options : PatchActionResultOptions) (freshId : String)
    (h : RepeatsTerminal db (.actionResult clock options freshId)) :
    TerminalKept db (recordPatchActionResult js db clock options freshId).1 := by
  unfold recordPatchActionResult
  split_ifs
  · exact TerminalKept.refl db
  cases hdevice : loadDevice db options.agentId options.organizationId with
  | none => exact TerminalKept.refl db
  | some device =>
    dsimp only
    cases hoperation : options.operationId with
    | none =>
      refine execute_relation TerminalKept.refl (fun _ _ _ => TerminalKept.trans) ?_ db
      intro statement hmem before after hok
      rcases resultStatements_cases hmem with hkeeps | ⟨operationId, hsome, -⟩
      · exact terminalKept_of_actions_eq (hkeeps before after hok).1
      · rw [hoperation] at hsome
        cases hsome
    | some operationId =>
      have hagrees : AgreesAt db (device.organizationId, device.agentId, operationId)
          options.status := fun row => h device operationId row hdevice hoperation
      -- the rows agree before each statement, so the one that writes the status repeats it
      refine (execute_relation (R := KeepsAgreement
        (device.organizationId, device.agentId, operationId) options.status)
        (fun before => KeepsAgreement.refl before) (fun _ _ _ => KeepsAgreement.trans)
        ?_ db hagrees).1
      intro statement hmem before after hok hbefore
      rcases resultStatements_cases hmem with hkeeps | ⟨other, hsome, rfl⟩
      · exact hkeeps.agreesAt hok hbefore
      · rw [hoperation] at hsome
        cases hsome
        exact actionStatement_agreesAt hok hbefore

theorem patchStep_terminalKept (js : Runtime) (db : PatchDatabase) (step : PatchStep)
    (h : RepeatsTerminal db step) : TerminalKept db (patchStep js db step) := by
  cases step with
  | progress batch => exact (step_advances js ⟨db, []⟩ batch).terminalKept
  | actionResult clock options freshId =>
    exact actionResult_terminalKept js db clock options freshId h
  | jobStatus now jobId agentId report =>
    exact patchJobStatus_terminalKept db now jobId agentId report
  | failStaleJobs now agentId staleMinutes => exact terminalKept_of_actions_eq rfl
  | failStaleActions now staleMinutes jobs =>
    exact failStaleActions_terminalKept db now staleMinutes jobs

/-- In every run in which each action-result post to a terminal row repeats its
status, no terminal row changes its status between two states of the run. -/
theorem terminal_actions_kept (js : Runtime) (db : PatchDatabase) (steps : List PatchStep)
    (h : along (patchStep js) RepeatsTerminal db steps) :
    ∀ earlier later, earlier ++ later <+: steps →
      TerminalKept (run (patchStep js) db earlier) (run (patchStep js) db (earlier ++ later)) := by
  rintro earlier later ⟨rest, rfl⟩
  obtain ⟨hboth, -⟩ := (along_append _ _ _ _).mp h
  obtain ⟨-, hlater⟩ := (along_append _ _ _ _).mp hboth
  rw [run_append]
  exact run_relation_along (P := fun _ => True) TerminalKept.refl (fun _ _ _ => TerminalKept.trans)
    (fun state step _ hstep => ⟨trivial, patchStep_terminalKept js state step hstep⟩) trivial hlater

def postedResult (status : String) : PatchStep :=
  .actionResult ⟨20, 20⟩
    { organizationId := some "org"
      agentId := "agent"
      operationId := some "op"
      action := "install"
      status := status
      updateKeys := []
      evidence := .null
      logDecision := none } "log"

def completedProgress : PatchStep := .progress ⟨⟨11, 11⟩, [completedEvent]⟩

theorem terminal_actions_kept_completed :
    TerminalKept (run (patchStep Runtime.bare) (queuedDatabase none) [completedProgress])
      (run (patchStep Runtime.bare) (queuedDatabase none)
        [completedProgress, postedResult "completed"]) := by
  refine terminal_actions_kept Runtime.bare (queuedDatabase none)
    [completedProgress, postedResult "completed"] ⟨trivial, ?_, trivial⟩
    [completedProgress] [postedResult "completed"] List.prefix_rfl
  intro device operationId row hdevice hoperation hrow _
  have hloaded : loadDevice (patchStep Runtime.bare (queuedDatabase none) completedProgress) "agent"
      (some "org") = some ⟨"agent", "org", 0⟩ := by decide
  rw [hloaded] at hdevice
  cases hdevice
  cases hoperation
  have hstatus : ((patchStep Runtime.bare (queuedDatabase none) completedProgress).action?
      ("org", "agent", "op")).map PatchAction.status = some "completed" := by decide
  rw [hrow] at hstatus
  exact (Option.some.inj hstatus).symm

/-- A post with the status failed rewrites a completed row. -/
theorem completed_action_becomes_failed :
    ((run (patchStep Runtime.bare) (queuedDatabase none) [completedProgress]).action?
      ("org", "agent", "op")).map PatchAction.status = some "completed" ∧
    ((run (patchStep Runtime.bare) (queuedDatabase none)
      [completedProgress, postedResult "failed"]).action?
        ("org", "agent", "op")).map PatchAction.status = some "failed" := by
  decide

end Talos.Patch
