import Talos.JavaScript.Json

/-!
# The patch policy configuration

`coercePatchPolicyConfig` reads the configuration of a policy from a JSON value
of unknown shape: each field of the right type replaces the default, anything
else leaves it. The categories are a function of the category here, since the
source lists the same call for each of them.
-/

namespace Talos.Decision

open JavaScript

inductive PatchCategory where
  | security
  | critical
  | cumulative
  | feature
  | driver
  | firmware
  | microsoftProduct
  | uwpApp
  | definition
  | optional
  | preview
  | other
deriving DecidableEq

namespace PatchCategory

def text : PatchCategory → String
  | security => "security"
  | critical => "critical"
  | cumulative => "cumulative"
  | feature => "feature"
  | driver => "driver"
  | firmware => "firmware"
  | microsoftProduct => "microsoft_product"
  | uwpApp => "uwp_app"
  | definition => "definition"
  | optional => "optional"
  | preview => "preview"
  | other => "other"

def all : List PatchCategory :=
  [security, critical, cumulative, feature, driver, firmware, microsoftProduct, uwpApp, definition,
    optional, preview, other]

def ofText? (text : String) : Option PatchCategory := all.find? fun category => category.text = text

end PatchCategory

inductive Approval where
  | auto
  | manual
  | blocked
deriving DecidableEq

inductive Phase where
  | scan
  | download
  | install
  | reboot
deriving DecidableEq

def Phase.text : Phase → String
  | scan => "scan"
  | download => "download"
  | install => "install"
  | reboot => "reboot"

structure PatchPhaseWindow where
  enabled : Bool
  start : Option String
  stop : Option String
  timezone : String
deriving DecidableEq

structure PatchCategoryRule where
  approval : Approval
  installAfterDays : Number
  forceInstallByDays : Option Number
  forceRebootByDays : Option Number
deriving DecidableEq

inductive ServerBehavior where
  | windowOnly
  | deadlineWindow
  | manualOnly
deriving DecidableEq

inductive WorkstationBehavior where
  | windowOrDeadline
  | allowAnytimeAfterDeadline
deriving DecidableEq

structure RebootConfig where
  allowAutomaticReboot : Bool
  forceRebootAfterDeadline : Bool
  warningMinutes : Number
  maxUserDeferrals : Number
  activeHoursProtection : Bool
  serverBehavior : ServerBehavior
  workstationBehavior : WorkstationBehavior

structure PatchPolicyConfig where
  managedMode : Bool
  nativeWindowsUpdateControl : Bool
  checkInIntervalMinutes : Number
  windows : Phase → PatchPhaseWindow
  categories : PatchCategory → PatchCategoryRule
  reboot : RebootConfig

structure Policy where
  id : String
  deferralDays : Number
  managedMode : Option Bool
  nativeWindowsUpdateControl : Option Bool
  policyConfig : Option Json

def baseWindow (enabled : Bool) : PatchPhaseWindow :=
  { enabled, start := none, stop := none, timezone := "UTC" }

def categoryRule (approval : Approval) (installAfterDays : Number)
    (forceInstallByDays forceRebootByDays : Option ℕ) : PatchCategoryRule where
  approval := approval
  installAfterDays := installAfterDays
  forceInstallByDays := forceInstallByDays.map fun days => .ofInt days
  forceRebootByDays := forceRebootByDays.map fun days => .ofInt days

def defaultPatchPolicyConfig (deferralDays : Number) : PatchPolicyConfig where
  managedMode := true
  nativeWindowsUpdateControl := true
  checkInIntervalMinutes := .ofInt 60
  windows _ := baseWindow true
  categories
    | .security => categoryRule .auto deferralDays (some 21) (some 24)
    | .critical => categoryRule .auto deferralDays (some 14) (some 17)
    | .cumulative => categoryRule .auto deferralDays (some 21) (some 24)
    | .definition => categoryRule .auto (.ofInt 0) (some 2) (some 3)
    | .microsoftProduct => categoryRule .auto deferralDays (some 21) (some 24)
    | .uwpApp => categoryRule .manual deferralDays none none
    | .feature => categoryRule .manual (.ofInt 30) (some 90) (some 97)
    | .driver => categoryRule .manual (.ofInt 14) none none
    | .firmware => categoryRule .manual (.ofInt 30) none none
    | .optional => categoryRule .manual (.ofInt 14) none none
    | .preview => categoryRule .blocked (.ofInt 365) none none
    | .other => categoryRule .manual deferralDays none none
  reboot :=
    { allowAutomaticReboot := true
      forceRebootAfterDeadline := true
      warningMinutes := .ofInt 60
      maxUserDeferrals := .ofInt 3
      activeHoursProtection := true
      serverBehavior := .windowOnly
      workstationBehavior := .windowOrDeadline }

/-! ## Reading a configuration -/

variable (value : Option Json)

/-- A value that is not an object reads as an object without properties. -/
def asRecord : Record := (JavaScript.asRecord value).getD []

def asBoolean (fallback : Bool) : Bool :=
  match value with
  | some (.bool value) => value
  | _ => fallback

def asNumber (fallback : Number) : Number :=
  match value with
  | some (.num value) => if value.isFinite then value else fallback
  | _ => fallback

def asNullableNumber (fallback : Option Number) : Option Number :=
  match value with
  | some .null => none
  | some (.num value) => if value.isFinite then some value else fallback
  | _ => fallback

def asString (fallback : String) : String :=
  (readString value).getD fallback

/-- A string with at least one character. -/
def nonEmptyString (fallback : Option String) : Option String :=
  match value with
  | some (.str text) => if text = "" then fallback else some text
  | _ => fallback

def mergeWindow (base : PatchPhaseWindow) (raw : Option Json) : PatchPhaseWindow :=
  let value := asRecord raw
  { enabled := asBoolean (value.get? "enabled") base.enabled
    start := nonEmptyString (value.get? "start") base.start
    stop := nonEmptyString (value.get? "end") base.stop
    timezone := asString (value.get? "timezone") base.timezone }

def truthy (text : Option String) : Bool := text.any (· ≠ "")

def constrainDownloadWindow (download install : PatchPhaseWindow) : PatchPhaseWindow :=
  if !download.enabled || truthy download.start || truthy download.stop
      || (!truthy install.start && !truthy install.stop) then download
  else
    { download with start := install.start, stop := install.stop, timezone := install.timezone }

def approvalOf (fallback : Approval) : Approval :=
  match value with
  | some (.str text) =>
    if text = "auto" then .auto
    else if text = "manual" then .manual
    else if text = "blocked" then .blocked
    else fallback
  | _ => fallback

def mergeRule (base : PatchCategoryRule) (raw : Option Json) : PatchCategoryRule :=
  let value := asRecord raw
  { approval := approvalOf (value.get? "approval") base.approval
    installAfterDays := asNumber (value.get? "installAfterDays") base.installAfterDays
    forceInstallByDays := asNullableNumber (value.get? "forceInstallByDays") base.forceInstallByDays
    forceRebootByDays := asNullableNumber (value.get? "forceRebootByDays") base.forceRebootByDays }

def serverBehaviorOf (fallback : ServerBehavior) : ServerBehavior :=
  match value with
  | some (.str text) =>
    if text = "window_only" then .windowOnly
    else if text = "deadline_window" then .deadlineWindow
    else if text = "manual_only" then .manualOnly
    else fallback
  | _ => fallback

def workstationBehaviorOf (fallback : WorkstationBehavior) : WorkstationBehavior :=
  match value with
  | some (.str text) =>
    if text = "window_or_deadline" then .windowOrDeadline
    else if text = "allow_anytime_after_deadline" then .allowAnytimeAfterDeadline
    else fallback
  | _ => fallback

def coercePatchPolicyConfig (policy : Option Policy) : PatchPolicyConfig :=
  let base := defaultPatchPolicyConfig ((policy.map (·.deferralDays)).getD (.ofInt 0))
  let raw := asRecord (policy.bind (·.policyConfig))
  let windows := asRecord (raw.get? "windows")
  let categories := asRecord (raw.get? "categories")
  let reboot := asRecord (raw.get? "reboot")
  let installWindow := mergeWindow (base.windows .install) (windows.get? "install")
  { managedMode :=
      asBoolean (raw.get? "managedMode") ((policy.bind (·.managedMode)).getD base.managedMode)
    nativeWindowsUpdateControl :=
      asBoolean (raw.get? "nativeWindowsUpdateControl")
        ((policy.bind (·.nativeWindowsUpdateControl)).getD base.nativeWindowsUpdateControl)
    checkInIntervalMinutes :=
      asNumber (raw.get? "checkInIntervalMinutes") base.checkInIntervalMinutes
    windows
      | .scan => mergeWindow (base.windows .scan) (windows.get? "scan")
      | .download =>
        constrainDownloadWindow (mergeWindow (base.windows .download) (windows.get? "download"))
          installWindow
      | .install => installWindow
      | .reboot => mergeWindow (base.windows .reboot) (windows.get? "reboot")
    categories := fun category =>
      mergeRule (base.categories category) (categories.get? category.text)
    reboot :=
      { allowAutomaticReboot :=
          asBoolean (reboot.get? "allowAutomaticReboot") base.reboot.allowAutomaticReboot
        forceRebootAfterDeadline :=
          asBoolean (reboot.get? "forceRebootAfterDeadline") base.reboot.forceRebootAfterDeadline
        warningMinutes := asNumber (reboot.get? "warningMinutes") base.reboot.warningMinutes
        maxUserDeferrals := asNumber (reboot.get? "maxUserDeferrals") base.reboot.maxUserDeferrals
        activeHoursProtection :=
          asBoolean (reboot.get? "activeHoursProtection") base.reboot.activeHoursProtection
        serverBehavior := serverBehaviorOf (reboot.get? "serverBehavior") base.reboot.serverBehavior
        workstationBehavior :=
          workstationBehaviorOf (reboot.get? "workstationBehavior")
            base.reboot.workstationBehavior } }

end Talos.Decision
