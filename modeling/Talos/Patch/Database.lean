import Talos.JavaScript.Runtime
import Talos.Relational.Statements
import Talos.Remediation.Database

/-!
# The patch tables

`rmm_patch_action`, `rmm_patch_override`, `rmm_patch_device_update_state` and
`rmm_patch_decision_log` with the columns that the patch services read or
write, next to the remediation tables. An action is addressed by its
organization, agent and operation, which the unique index makes a key. Random
identifiers and the bookkeeping columns `created_at` and `updated_at` are not
read by any of the services and are left out.
-/

namespace Talos.Patch

open JavaScript Relational
open Remediation (Timestamp SqlError)

structure PatchAction where
  organizationId : String
  agentId : String
  operationId : String
  actionType : String
  status : String
  phase : Option String
  updateKeys : Json
  progress : Json
  evidence : Json
  errorMessage : Option String
  remediationJobId : Option ℕ
  remediationCommandId : Option String
  requestedBy : String
  reportedAt : Option Timestamp
  startedAt : Option Timestamp
  finishedAt : Option Timestamp

structure PatchOverrideRow where
  id : String
  organizationId : String
  scopeType : String
  scopeKey : String
  action : String
  operationId : Option String
  enabled : Bool

structure UpdateState where
  organizationId : String
  agentId : String
  updateKey : String
  lifecycleState : String
  downloadedAt : Option Timestamp
  installedAt : Option Timestamp
  failedAt : Option Timestamp
  requiresReboot : Bool
  failureMessage : Option String
  metadata : Json

structure DecisionLogRow where
  organizationId : String
  agentId : String
  operationId : String
  action : String
  updateKeys : Json
  decision : String
  reason : String
  actorType : String
  details : Json
  decidedAt : Timestamp

def PatchAction.key (action : PatchAction) : Option (String × String × String) :=
  some (action.organizationId, action.agentId, action.operationId)

structure PatchDatabase where
  remediation : Remediation.Database
  actions : List PatchAction
  overrides : List PatchOverrideRow
  updateStates : List UpdateState
  decisionLog : List DecisionLogRow
  actions_key : UniqueOn PatchAction.key actions

abbrev Statement := PatchDatabase → Except SqlError PatchDatabase

/-- An assignment to action rows that keeps the key columns. -/
structure ActionAssignment where
  apply : PatchAction → PatchAction
  key_eq : ∀ action, (apply action).key = action.key

namespace PatchDatabase

def updateActions (db : PatchDatabase) (p : PatchAction → Bool) (set : ActionAssignment) :
    PatchDatabase :=
  { db with
    actions := update db.actions p set.apply
    actions_key := db.actions_key.update p set.apply fun action _ => set.key_eq action }

def insertAction (db : PatchDatabase) (row : PatchAction) : Except SqlError PatchDatabase :=
  if h : taken PatchAction.key db.actions row = false then
    .ok { db with
      actions := db.actions ++ [row]
      actions_key := db.actions_key.append_singleton h }
  else .error .uniqueViolation

/-- The row that `(organization_id, agent_id, operation_id)` addresses. -/
def action? (db : PatchDatabase) (key : String × String × String) : Option PatchAction :=
  db.actions.find? fun action => action.key = some key

variable (db : PatchDatabase) (p : PatchAction → Bool) (set : ActionAssignment)

@[simp] theorem updateActions_actions :
    (db.updateActions p set).actions = update db.actions p set.apply := rfl

@[simp] theorem updateActions_remediation :
    (db.updateActions p set).remediation = db.remediation := rfl

theorem key_of_action? {db : PatchDatabase} {key : String × String × String} {row : PatchAction}
    (h : db.action? key = some row) : row ∈ db.actions ∧ row.key = some key :=
  ⟨List.mem_of_find?_eq_some h, by simpa using List.find?_some h⟩

theorem action?_updateActions (key : String × String × String) :
    (db.updateActions p set).action? key =
      (db.action? key).map fun row => if p row then set.apply row else row := by
  refine find?_update db.actions _ p set.apply ?_
  intro row
  rw [set.key_eq]

theorem insertAction_ok {db db' : PatchDatabase} {row : PatchAction}
    (h : db.insertAction row = .ok db') :
    db'.actions = db.actions ++ [row] ∧ db'.remediation = db.remediation := by
  unfold insertAction at h
  split_ifs at h
  cases h
  exact ⟨rfl, rfl⟩

end PatchDatabase

/-- `left || right` on `jsonb`: two objects are merged, anything else is
concatenated as arrays. -/
def jsonbConcat : Json → Json → Json
  | .obj left, .obj right =>
    .obj (right.foldl (fun record property => Record.set record property.1 property.2) left)
  | .arr left, .arr right => .arr (left ++ right)
  | .arr left, right => .arr (left ++ [right])
  | left, .arr right => .arr (left :: right)
  | left, right => .arr [left, right]

/-- `status IN ('completed', 'failed', 'cancelled')`. -/
def isTerminalStatus (status : String) : Bool :=
  ["completed", "failed", "cancelled"].contains status

end Talos.Patch
