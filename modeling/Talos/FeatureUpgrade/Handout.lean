import Talos.FeatureUpgrade.Rows
import Talos.Transition.Run

/-!
# Operations are handed out once and their results are final

Every statement that writes a status is an event, in any order and with any
record. The results stay exactly as long as two things do not happen. A progress
post must not find a preflight that passed, with a warning or without, and state
something else: its guard names the final states of upgrades, and `passed` and
`warning` are not among them. A claim that cannot hand out a row must not find
that the row got another result meanwhile: it fails the row whatever its status.

A preflight is handed out at most once. An upgrade is as well, unless a progress
post states `queued` or `scheduled` for one that was handed out.
-/

namespace Talos.FeatureUpgrade

open JavaScript Relational Transition

/-- One statement of one request. The body of a claim, the items of a post, the
checks of a snapshot and the outcome of the link service are arbitrary. -/
inductive Event where
  | claimPreflights (body : Json) (now : Timestamp)
  | preflightProgress (item : Json) (now : Timestamp)
  | failStalePreflightRuns (organizationId : String) (agentIds : List String) (now : Timestamp)
  | reconcilePreflight (operationId : String) (checks : List CheckResult) (now : Timestamp)
  | claimUpgrades (body : Json) (now : Timestamp)
  | settleClaim (index : ℕ) (link : LinkResult) (now : Timestamp)
  | upgradeProgress (item : Json) (now : Timestamp)

def recordOf (value : Json) : Record := (asRecord (some value)).getD []

variable (s : Server)

def receive : Event → Server
  | .claimPreflights body now => claimPreflights s (recordOf body) now
  | .preflightProgress item now => preflightProgress s (recordOf item) now
  | .failStalePreflightRuns organizationId agentIds now =>
    failStalePreflightRuns s organizationId agentIds now
  | .reconcilePreflight operationId checks now => reconcilePreflight s operationId checks now
  | .claimUpgrades body now => claimUpgrades s (recordOf body) now
  | .settleClaim index link now => settleClaim s index link now
  | .upgradeProgress item now => upgradeProgress s (recordOf item) now

/-! ## Final results -/

structure ResultsKept (s s' : Server) : Prop where
  preflights :
    Keyed.KeepsFinal PreflightRow.status PreflightStatus.isFinal s.preflights s'.preflights
  upgrades : Keyed.KeepsFinal UpgradeRow.status UpgradeStatus.isFinal s.upgrades s'.upgrades

theorem ResultsKept.refl : ResultsKept s s :=
  ⟨Keyed.keepsFinal_refl _ _ _, Keyed.keepsFinal_refl _ _ _⟩

theorem ResultsKept.trans (t u : Server) (h : ResultsKept s t) (h' : ResultsKept t u) :
    ResultsKept s u :=
  ⟨h.preflights.trans h'.preflights, h.upgrades.trans h'.upgrades⟩

/-- The claimed row is failed: its command is not supported or it has no link. -/
def OpenClaim.refused (claim : OpenClaim) (link : LinkResult) : Bool :=
  if claim.command.supported then
    match link with
    | .ok => false
    | .error message => Json.textStorable message
  else Json.textStorable claim.command.refusal

/-- A progress post states for a preflight that has a result the same result, and a
claim that fails its row finds no other result there. -/
def AgreesWithResults : Event → Prop
  | .preflightProgress item _ =>
    ∀ ids, readPreflightItem (recordOf item) = some ids →
      ∀ row ∈ s.preflights.rows, preflightProgressSelects ids row = true →
        row.status.isFinal = true → reportedPreflightStatus (recordOf item) = row.status
  | .settleClaim index link _ =>
    ∀ claim, s.openClaims[index]? = some claim → claim.refused link = true →
      ∀ row ∈ s.upgrades.rows, row.operationId = claim.row.operationId →
        row.status.isFinal = true → row.status = .failed
  | _ => True

theorem resultsKept_preflights_iff (p : PreflightRow → Bool)
    (set : Assignment PreflightRow.operationId) (returned : List String) : ResultsKept s
        { s with preflights := s.preflights.update p set, preflightsReturned := returned } ↔
      ∀ row ∈ s.preflights.rows, p row = true → row.status.isFinal = true →
        (set.apply row).status = row.status := by
  rw [← Keyed.keepsFinal_update_iff]
  exact ⟨fun h => h.preflights, fun h => ⟨h, Keyed.keepsFinal_refl _ _ _⟩⟩

theorem resultsKept_upgrades_iff (p : UpgradeRow → Bool) (set : Assignment UpgradeRow.operationId)
    (claims : List OpenClaim) :
    ResultsKept s { s with upgrades := s.upgrades.update p set, openClaims := claims } ↔
      ∀ row ∈ s.upgrades.rows, p row = true → row.status.isFinal = true →
        (set.apply row).status = row.status := by
  rw [← Keyed.keepsFinal_update_iff]
  exact ⟨fun h => h.upgrades, fun h => ⟨Keyed.keepsFinal_refl _ _ _, h⟩⟩

variable {s : Server} {agentId : String} {limit : ℕ}

theorem of_mem_claimablePreflights {row : PreflightRow}
    (h : row ∈ claimablePreflights s agentId limit) :
    row ∈ s.preflights.rows ∧ row.status = .queued := by
  obtain ⟨hmem, hq⟩ := Keyed.of_mem_choose h
  simp only [Bool.and_eq_true, decide_eq_true_eq] at hq
  exact ⟨hmem, hq.2⟩

def UpgradeStatus.isWaiting : UpgradeStatus → Bool
  | .queued | .scheduled => true
  | _ => false

theorem UpgradeStatus.isFinal_of_isWaiting {status : UpgradeStatus}
    (h : status.isWaiting = true) : status.isFinal = false := by
  cases status <;> first | rfl | cases h

variable {row : UpgradeRow}

theorem of_mem_claimableUpgrades {now : Timestamp}
    (h : row ∈ claimableUpgrades s agentId limit now) :
    row ∈ s.upgrades.rows ∧ row.status.isWaiting = true := by
  obtain ⟨hmem, hq⟩ := Keyed.of_mem_choose h
  simp only [Bool.and_eq_true, Bool.or_eq_true, decide_eq_true_eq] at hq
  refine ⟨hmem, ?_⟩
  rcases hq.1.2 with hqueued | hscheduled
  · rw [hqueued]; rfl
  · rw [hscheduled]; rfl

variable {claim : OpenClaim}

theorem operationId_of_openClaim? {now : Timestamp} (h : openClaim? s now row = some claim) :
    claim.row.operationId = row.operationId := by
  unfold openClaim? at h
  split at h
  next =>
    obtain ⟨command, _, rfl⟩ := Option.map_eq_some_iff.mp h
    rfl
  next => cases h

theorem waiting_of_mem_newClaims {now : Timestamp} (h : claim ∈ newClaims s agentId limit now) :
    ∃ row ∈ s.upgrades.rows, row.operationId = claim.row.operationId ∧
      row.status.isWaiting = true := by
  obtain ⟨row, hrow, hopen⟩ := List.mem_filterMap.mp h
  obtain ⟨hmem, hwaits⟩ := of_mem_claimableUpgrades hrow
  exact ⟨row, hmem, (operationId_of_openClaim? hopen).symm, hwaits⟩

theorem queued_of_claimed {row : PreflightRow} (hrow : row ∈ s.preflights.rows)
    (h : row.operationId ∈ (claimablePreflights s agentId limit).map PreflightRow.operationId) :
    row.status = .queued := by
  obtain ⟨claimed, hclaimed, heq⟩ := List.mem_map.mp h
  obtain ⟨hmem, hqueued⟩ := of_mem_claimablePreflights hclaimed
  rwa [← Keyed.eq_of_key_eq hmem hrow heq]

theorem waiting_of_claimed {now : Timestamp} (hrow : row ∈ s.upgrades.rows)
    (h : row.operationId ∈ (newClaims s agentId limit now).map fun claim => claim.row.operationId) :
    row.status.isWaiting = true := by
  obtain ⟨claim, hclaim, heq⟩ := List.mem_map.mp h
  obtain ⟨claimed, hmem, hid, hwaits⟩ := waiting_of_mem_newClaims hclaim
  rwa [← Keyed.eq_of_key_eq hmem hrow (hid.trans heq)]

theorem resultsKept_claimPreflights (s : Server) (body : Record) (now : Timestamp) :
    ResultsKept s (claimPreflights s body now) := by
  unfold claimPreflights
  split
  next => exact ResultsKept.refl s
  next agentId _ =>
    rw [resultsKept_preflights_iff]
    intro row hrow hclaimed hfinal
    have hqueued := queued_of_claimed hrow (List.contains_iff_mem.mp hclaimed)
    rw [hqueued] at hfinal
    cases hfinal

theorem resultsKept_claimUpgrades (s : Server) (body : Record) (now : Timestamp) :
    ResultsKept s (claimUpgrades s body now) := by
  unfold claimUpgrades
  split
  next => exact ResultsKept.refl s
  next agentId _ =>
    rw [resultsKept_upgrades_iff]
    intro row hrow hclaimed hfinal
    have hwaits := waiting_of_claimed hrow (List.contains_iff_mem.mp hclaimed)
    rw [UpgradeStatus.isFinal_of_isWaiting hwaits] at hfinal
    cases hfinal

theorem resultsKept_failStalePreflightRuns (s : Server) (organizationId : String)
    (agentIds : List String) (now : Timestamp) :
    ResultsKept s (failStalePreflightRuns s organizationId agentIds now) := by
  unfold failStalePreflightRuns
  split
  next =>
    rw [resultsKept_preflights_iff]
    intro row _ hstale hfinal
    simp only [Bool.and_eq_true, Bool.or_eq_true, decide_eq_true_eq] at hstale
    rcases hstale.1.2 with hstatus | hstatus <;> rw [hstatus] at hfinal <;> cases hfinal
  next => exact ResultsKept.refl s

theorem resultsKept_reconcilePreflight (s : Server) (operationId : String)
    (checks : List CheckResult) (now : Timestamp) :
    ResultsKept s (reconcilePreflight s operationId checks now) := by
  unfold reconcilePreflight
  rw [resultsKept_preflights_iff]
  intro row _ hrunning hfinal
  simp only [Bool.and_eq_true, decide_eq_true_eq] at hrunning
  rw [hrunning.2] at hfinal
  cases hfinal

theorem resultsKept_upgradeProgress (s : Server) (record : Record) (now : Timestamp) :
    ResultsKept s (upgradeProgress s record now) := by
  unfold upgradeProgress
  split
  next => exact ResultsKept.refl s
  next ids _ =>
    rw [resultsKept_upgrades_iff]
    intro row _ hselected hfinal
    simp [upgradeProgressSelects, hfinal] at hselected

theorem resultsKept_preflightProgress_iff (s : Server) (item : Json) (now : Timestamp) :
    ResultsKept s (preflightProgress s (recordOf item) now) ↔
      AgreesWithResults s (.preflightProgress item now) := by
  unfold preflightProgress
  dsimp only [AgreesWithResults]
  split
  next hids =>
    exact iff_of_true (ResultsKept.refl s) fun ids h => absurd h (by simp [hids])
  next ids hids =>
    rw [resultsKept_preflights_iff]
    constructor
    · intro h ids' hids'
      rw [hids] at hids'
      cases hids'
      exact h
    · intro h
      exact h ids hids

theorem resultsKept_failClaim_iff (s : Server) (claims : List OpenClaim) (claim : OpenClaim)
    (message : String) (now : Timestamp) :
    ResultsKept s (failClaim { s with openClaims := claims } claim message now) ↔
      (Json.textStorable message = true →
        ∀ row ∈ s.upgrades.rows, row.operationId = claim.row.operationId →
          row.status.isFinal = true → row.status = .failed) := by
  unfold failClaim
  split
  next htext =>
    rw [resultsKept_upgrades_iff]
    constructor
    · intro h _ row hrow hid hfinal
      exact (h row hrow (decide_eq_true hid) hfinal).symm
    · intro h row hrow hid hfinal
      exact (h htext row hrow (of_decide_eq_true hid) hfinal).symm
  next htext =>
    exact iff_of_true ⟨Keyed.keepsFinal_refl _ _ _, Keyed.keepsFinal_refl _ _ _⟩
      fun h => absurd h htext

theorem resultsKept_settleClaim_iff (s : Server) (index : ℕ) (link : LinkResult) (now : Timestamp) :
    ResultsKept s (settleClaim s index link now) ↔
      AgreesWithResults s (.settleClaim index link now) := by
  unfold settleClaim
  dsimp only [AgreesWithResults]
  split
  next hclaim =>
    exact iff_of_true (ResultsKept.refl s) fun claim h => absurd h (by simp [hclaim])
  next claim hclaim =>
    simp only [hclaim, Option.some.injEq, forall_eq']
    unfold handOut OpenClaim.refused
    split
    next =>
      cases link with
      | ok =>
        exact iff_of_true ⟨Keyed.keepsFinal_refl _ _ _, Keyed.keepsFinal_refl _ _ _⟩
          fun h => absurd h Bool.false_ne_true
      | error message => exact resultsKept_failClaim_iff s _ claim message now
    next => exact resultsKept_failClaim_iff s _ claim _ now

/-- An event keeps the results exactly when it agrees with them. -/
theorem resultsKept_receive_iff (s : Server) (event : Event) :
    ResultsKept s (receive s event) ↔ AgreesWithResults s event := by
  cases event with
  | claimPreflights body now => exact iff_of_true (resultsKept_claimPreflights s _ now) trivial
  | preflightProgress item now => exact resultsKept_preflightProgress_iff s item now
  | failStalePreflightRuns organizationId agentIds now =>
    exact iff_of_true (resultsKept_failStalePreflightRuns s organizationId agentIds now) trivial
  | reconcilePreflight operationId checks now =>
    exact iff_of_true (resultsKept_reconcilePreflight s operationId checks now) trivial
  | claimUpgrades body now => exact iff_of_true (resultsKept_claimUpgrades s _ now) trivial
  | settleClaim index link now => exact resultsKept_settleClaim_iff s index link now
  | upgradeProgress item now => exact iff_of_true (resultsKept_upgradeProgress s _ now) trivial

/-! ## Handing out -/

def takenUpgrades (s : Server) : List String :=
  s.upgradesReturned ++ s.openClaims.map fun claim => claim.row.operationId

/-- A progress post does not state `queued` or `scheduled` for an upgrade that was
taken and is under way. -/
def RequeuesNone (s : Server) : Event → Prop
  | .upgradeProgress item _ =>
    ∀ ids, readUpgradeItem (recordOf item) = some ids →
      ∀ row ∈ s.upgrades.rows, row.operationId ∈ takenUpgrades s →
        upgradeProgressSelects ids row = true → row.status.isWaiting = false →
          (reportedUpgradeStatus (recordOf item)).isWaiting = false
  | _ => True

def PreflightRow.isFree (row : PreflightRow) : Bool := row.status = .queued

def UpgradeRow.isFree (row : UpgradeRow) : Bool := row.status.isWaiting

/-- The preflights that were handed out are distinct and no longer free. -/
def PreflightsTaken (s : Server) : Prop :=
  Keyed.Taken PreflightRow.isFree s.preflights s.preflightsReturned

/-- So are the upgrades that were taken, handed out or not yet. -/
def UpgradesTaken (s : Server) : Prop :=
  Keyed.Taken UpgradeRow.isFree s.upgrades (takenUpgrades s)

structure Fresh (s : Server) : Prop where
  preflightsReturned : s.preflightsReturned = []
  upgradesReturned : s.upgradesReturned = []
  openClaims : s.openClaims = []

theorem Fresh.preflightsTaken (h : Fresh s) : PreflightsTaken s := by
  rw [PreflightsTaken, h.preflightsReturned]
  exact Keyed.taken_nil _ _

theorem Fresh.upgradesTaken (h : Fresh s) : UpgradesTaken s := by
  rw [UpgradesTaken, takenUpgrades, h.upgradesReturned, h.openClaims]
  exact Keyed.taken_nil _ _

theorem reportedPreflightStatus_ne_queued (record : Record) :
    reportedPreflightStatus record ≠ .queued := by
  unfold reportedPreflightStatus
  cases hread : (readString (record.get? "status")).bind preflightStatus? with
  | none => exact PreflightStatus.noConfusion
  | some status =>
    obtain ⟨text, _, htext⟩ := Option.bind_eq_some_iff.mp hread
    rintro rfl
    unfold preflightStatus? at htext
    split at htext <;> cases htext

theorem finalPreflightStatus_isFinal (checks : List CheckResult) :
    (finalPreflightStatus checks).isFinal = true := by
  unfold finalPreflightStatus aggregateFeatureUpgradePreflightStatus
  split_ifs <;> rfl

section Preflights

variable (h : PreflightsTaken s)
include h

theorem PreflightsTaken.update (p : PreflightRow → Bool)
    {set : Assignment PreflightRow.operationId} (hset : ∀ row, (set.apply row).status ≠ .queued) :
    PreflightsTaken { s with preflights := s.preflights.update p set } :=
  Keyed.Taken.update h fun row _ _ _ _ => decide_eq_false (hset row)

theorem preflightsTaken_claimPreflights (body : Record) (now : Timestamp) :
    PreflightsTaken (claimPreflights s body now) := by
  unfold claimPreflights
  split
  next => exact h
  next agentId _ =>
    refine Keyed.Taken.take h (Keyed.choose_keys_nodup _ _ _ _) ?_ (fun _ => rfl)
    intro operationId hid
    obtain ⟨row, hrow, rfl⟩ := List.mem_map.mp hid
    obtain ⟨hmem, hqueued⟩ := of_mem_claimablePreflights hrow
    exact ⟨row, Keyed.get?_of_mem hmem, decide_eq_true hqueued⟩

theorem preflightsTaken_preflightProgress (record : Record)
    (now : Timestamp) : PreflightsTaken (preflightProgress s record now) := by
  unfold preflightProgress
  split
  next => exact h
  next ids _ => exact h.update _ fun _ => reportedPreflightStatus_ne_queued record

theorem preflightsTaken_reconcilePreflight (operationId : String)
    (checks : List CheckResult) (now : Timestamp) :
    PreflightsTaken (reconcilePreflight s operationId checks now) := by
  refine h.update _ fun row hqueued => ?_
  have hfinal := finalPreflightStatus_isFinal checks
  rw [show finalPreflightStatus checks = .queued from hqueued] at hfinal
  cases hfinal

theorem preflightsTaken_settleClaim (index : ℕ) (link : LinkResult)
    (now : Timestamp) : PreflightsTaken (settleClaim s index link now) := by
  unfold settleClaim
  split
  next => exact h
  next claim _ =>
    have hfailed : ∀ message, PreflightsTaken
        (failClaim { s with openClaims := s.openClaims.eraseIdx index } claim message now) := by
      intro message
      unfold failClaim
      split <;> exact h
    unfold handOut
    split
    next =>
      cases link with
      | ok => exact h
      | error message => exact hfailed message
    next => exact hfailed _

end Preflights

theorem preflightsTaken_receive (s : Server) (event : Event) (h : PreflightsTaken s) :
    PreflightsTaken (receive s event) := by
  cases event with
  | claimPreflights body now => exact preflightsTaken_claimPreflights h _ now
  | preflightProgress item now => exact preflightsTaken_preflightProgress h _ now
  | failStalePreflightRuns organizationId agentIds now =>
    dsimp only [receive]
    unfold failStalePreflightRuns
    split
    next => exact h.update _ fun _ => PreflightStatus.noConfusion
    next => exact h
  | reconcilePreflight operationId checks now =>
    exact preflightsTaken_reconcilePreflight h operationId checks now
  | claimUpgrades body now =>
    dsimp only [receive]
    unfold claimUpgrades
    split <;> exact h
  | settleClaim index link now => exact preflightsTaken_settleClaim h index link now
  | upgradeProgress item now =>
    dsimp only [receive]
    unfold upgradeProgress
    split <;> exact h

theorem newClaims_nodup (s : Server) (agentId : String) (limit : ℕ) (now : Timestamp) :
    ((newClaims s agentId limit now).map fun claim => claim.row.operationId).Nodup := by
  have hrows : ((claimableUpgrades s agentId limit now).map UpgradeRow.operationId).Nodup :=
    Keyed.choose_keys_nodup _ _ _ _
  exact Keyed.nodup_map_filterMap hrows _ fun _ _ => operationId_of_openClaim?

theorem upgradesTaken_claimUpgrades (h : UpgradesTaken s) (body : Record) (now : Timestamp) :
    UpgradesTaken (claimUpgrades s body now) := by
  unfold claimUpgrades
  split
  next => exact h
  next agentId _ =>
    dsimp only [UpgradesTaken, takenUpgrades]
    rw [List.map_append, ← List.append_assoc]
    refine Keyed.Taken.take h (newClaims_nodup s agentId _ now) ?_ (fun _ => rfl)
    intro operationId hid
    obtain ⟨claim, hclaim, rfl⟩ := List.mem_map.mp hid
    obtain ⟨row, hmem, hrow, hwaits⟩ := waiting_of_mem_newClaims hclaim
    exact ⟨row, hrow ▸ Keyed.get?_of_mem hmem, hwaits⟩

/-- A claim that is settled moves from the open claims to what is handed out. -/
theorem UpgradesTaken.eraseIdx (h : UpgradesTaken s) {index : ℕ}
    (hclaim : s.openClaims[index]? = some claim) : Keyed.Taken UpgradeRow.isFree s.upgrades
      (s.upgradesReturned ++ [claim.row.operationId] ++
        (s.openClaims.eraseIdx index).map fun claim => claim.row.operationId) := by
  obtain ⟨hlt, hget⟩ := List.getElem?_eq_some_iff.mp hclaim
  have hperm : s.openClaims.Perm (claim :: s.openClaims.eraseIdx index) := by
    rw [← hget]
    exact (List.getElem_cons_eraseIdx_perm hlt).symm
  refine Keyed.Taken.perm h ?_
  rw [List.append_assoc]
  exact (hperm.map _).append_left _

theorem upgradesTaken_settleClaim (h : UpgradesTaken s) (index : ℕ) (link : LinkResult)
    (now : Timestamp) : UpgradesTaken (settleClaim s index link now) := by
  unfold settleClaim
  split
  next => exact h
  next claim hclaim =>
    have htaken := h.eraseIdx hclaim
    have hfailed : ∀ message, UpgradesTaken
        (failClaim { s with openClaims := s.openClaims.eraseIdx index } claim message now) := by
      intro message
      have hrest :=
        htaken.sublist ((List.sublist_append_left _ _).append (List.Sublist.refl _))
      unfold failClaim
      split
      next => exact Keyed.Taken.update hrest fun _ _ _ _ _ => rfl
      next => exact hrest
    unfold handOut
    split
    next =>
      cases link with
      | ok => exact htaken
      | error message => exact hfailed message
    next => exact hfailed _

theorem upgradesTaken_upgradeProgress (h : UpgradesTaken s) (item : Json) (now : Timestamp)
    (hnone : RequeuesNone s (.upgradeProgress item now)) :
    UpgradesTaken (upgradeProgress s (recordOf item) now) := by
  unfold upgradeProgress
  split
  next => exact h
  next ids hids => exact Keyed.Taken.update h (hnone ids hids)

def Event.onPreflights : Event → Bool
  | .claimPreflights .. | .preflightProgress .. | .failStalePreflightRuns ..
  | .reconcilePreflight .. => true
  | _ => false

theorem upgrades_receive (s : Server) {event : Event} (h : event.onPreflights = true) :
    (receive s event).upgrades = s.upgrades ∧
      takenUpgrades (receive s event) = takenUpgrades s := by
  cases event with
  | claimPreflights body now =>
    dsimp only [receive]
    unfold claimPreflights
    split <;> exact ⟨rfl, rfl⟩
  | preflightProgress item now =>
    dsimp only [receive]
    unfold preflightProgress
    split <;> exact ⟨rfl, rfl⟩
  | failStalePreflightRuns organizationId agentIds now =>
    dsimp only [receive]
    unfold failStalePreflightRuns
    split <;> exact ⟨rfl, rfl⟩
  | reconcilePreflight operationId checks now => exact ⟨rfl, rfl⟩
  | _ => cases h

theorem UpgradesTaken.onPreflights (h : UpgradesTaken s) {event : Event}
    (hevent : event.onPreflights = true) : UpgradesTaken (receive s event) := by
  obtain ⟨hupgrades, htaken⟩ := upgrades_receive s hevent
  rwa [UpgradesTaken, hupgrades, htaken]

theorem upgradesTaken_receive (s : Server) (event : Event) (h : UpgradesTaken s)
    (hnone : RequeuesNone s event) : UpgradesTaken (receive s event) := by
  cases event with
  | claimPreflights | preflightProgress | failStalePreflightRuns | reconcilePreflight =>
    exact h.onPreflights rfl
  | claimUpgrades body now => exact upgradesTaken_claimUpgrades h _ now
  | settleClaim index link now => exact upgradesTaken_settleClaim h index link now
  | upgradeProgress item now => exact upgradesTaken_upgradeProgress h item now hnone

/-! ## Whole runs -/

/-- The results are final exactly in the runs whose events agree with them. Each
preflight is handed out at most once, and each upgrade is in the runs that put none
back into the queue. -/
theorem results_final_and_handed_out_once (s : Server) (hs : Fresh s) (events : List Event) :
    ((∀ earlier later rest, events = earlier ++ later ++ rest →
        ResultsKept (run receive s earlier) (run receive s (earlier ++ later))) ↔
      along receive AgreesWithResults s events) ∧
    (run receive s events).preflightsReturned.Nodup ∧
    (along receive RequeuesNone s events → (run receive s events).upgradesReturned.Nodup) := by
  refine ⟨?_, ?_, fun hnone => ?_⟩
  · rw [relation_iff_along ResultsKept.refl ResultsKept.trans]
    exact along_congr resultsKept_receive_iff s events
  · exact (run_invariant preflightsTaken_receive hs.preflightsTaken events).nodup
  · have htaken := run_invariant_along upgradesTaken_receive hs.upgradesTaken hnone
    exact htaken.nodup.sublist (List.sublist_append_left _ _)

def queuedPreflight : PreflightRow where
  operationId := "p"
  runId := "r"
  organizationId := "o"
  agentId := "a"
  status := .queued
  phase := .queued
  claimedAt := none
  startedAt := none
  finishedAt := none
  createdAt := 0
  updatedAt := 0

def queuedUpgrade : UpgradeRow where
  operationId := "u"
  runId := "r"
  organizationId := "o"
  agentId := "a"
  isoMediaId := "m"
  setupCommandMatrixId := "c"
  status := .queued
  phase := .queued
  errorMessage := none
  scheduledFor := none
  claimedAt := none
  startedAt := none
  finishedAt := none
  createdAt := 0
  updatedAt := 0

def queuedServer : Server where
  preflights := ⟨[queuedPreflight], List.nodup_singleton _⟩
  upgrades := ⟨[queuedUpgrade], List.nodup_singleton _⟩
  media := ["m"]
  commands := [⟨"c", true, none⟩]
  openClaims := []
  preflightsReturned := []
  upgradesReturned := []

def claimBody : Json := .obj [("agentId", .str "a")]

def progressItem (operationId status : String) : Json :=
  .obj [("operationId", .str operationId), ("runId", .str "r"), ("organizationId", .str "o"),
    ("agentId", .str "a"), ("status", .str status)]

def preflightStatusOf (s : Server) (operationId : String) : Option PreflightStatus :=
  (s.preflights.get? operationId).map PreflightRow.status

def upgradeStatusOf (s : Server) (operationId : String) : Option UpgradeStatus :=
  (s.upgrades.get? operationId).map UpgradeRow.status

def upgradeEvents : List Event :=
  [.claimPreflights claimBody 1, .reconcilePreflight "p" [] 2, .claimUpgrades claimBody 3,
    .settleClaim 0 .ok 4, .upgradeProgress (progressItem "u" "succeeded") 5,
    .upgradeProgress (progressItem "u" "running") 6]

theorem upgradeEvents_handed_out_once : Fresh queuedServer ∧
      (run receive queuedServer upgradeEvents).preflightsReturned.Nodup ∧
      (run receive queuedServer upgradeEvents).upgradesReturned.Nodup := by
  have hfresh : Fresh queuedServer := ⟨rfl, rfl, rfl⟩
  obtain ⟨_, hpreflights, hupgrades⟩ :=
    results_final_and_handed_out_once queuedServer hfresh upgradeEvents
  refine ⟨hfresh, hpreflights, hupgrades ⟨trivial, trivial, trivial, trivial, ?_, ?_, trivial⟩⟩
  · intro _ _ _ _ _ _ _
    decide +kernel
  · intro _ _ _ _ _ _ _
    decide +kernel

/-- The heartbeat of the worker takes back a preflight that passed; the link service
fails after the worker reported success; and a post that states `queued` makes the
claim route hand the upgrade out again. -/
theorem results_taken_back_and_handed_out_twice : Fresh queuedServer ∧
      (preflightStatusOf (run receive queuedServer
          [.claimPreflights claimBody 1, .reconcilePreflight "p" [] 2]) "p" = some .passed ∧
        preflightStatusOf (run receive queuedServer
          [.claimPreflights claimBody 1, .reconcilePreflight "p" [] 2,
            .preflightProgress (progressItem "p" "running") 3]) "p" = some .running) ∧
      (upgradeStatusOf (run receive queuedServer
          [.claimUpgrades claimBody 1, .upgradeProgress (progressItem "u" "succeeded") 2]) "u"
          = some .succeeded ∧
        upgradeStatusOf (run receive queuedServer
          [.claimUpgrades claimBody 1, .upgradeProgress (progressItem "u" "succeeded") 2,
            .settleClaim 0 (.error "timed out") 3]) "u" = some .failed) ∧
      (run receive queuedServer [.claimUpgrades claimBody 1, .settleClaim 0 .ok 2,
          .upgradeProgress (progressItem "u" "queued") 3, .claimUpgrades claimBody 4,
          .settleClaim 0 .ok 5]).upgradesReturned = ["u", "u"] := by
  refine ⟨⟨rfl, rfl, rfl⟩, ⟨?_, ?_⟩, ⟨?_, ?_⟩, ?_⟩ <;> decide +kernel

end Talos.FeatureUpgrade
