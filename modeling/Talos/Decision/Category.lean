import Talos.Decision.Policy
import Talos.JavaScript.Pattern
import Talos.JavaScript.Runtime

/-!
# Update categories

`classifyPatchCategory` keeps a category that the update names and otherwise
tests the normalized title and article against a list of regular expressions,
in the order of the source. The regular expressions on macOS titles, which the
selection of one OS version uses too, come first.
-/

namespace Talos.Decision

open JavaScript Pattern

structure PatchDecisionUpdate where
  updateKey : String
  title : String
  kbArticle : Option String
  category : Option String
  lifecycleState : Option String
  releaseDate : Option Date.Input
  firstDetectedAt : Option Date.Input
  downloadedAt : Option Date.Input
  superseded : Option Bool

variable (js : Runtime)

def normalizePatchText (value : String) : String :=
  String.ofList (collapseSpaces (js.toLowerCase (trim value)).toList)

inductive PatchSeverity where
  | critical
  | security
  | other
deriving DecidableEq

def classifyPatchSeverity (title description kbArticle : Option String)
    (isMandatory : Option Bool) : PatchSeverity :=
  let parts := [title, description, kbArticle].filterMap fun part => part.filter (· ≠ "")
  let text := normalizePatchText js (" ".intercalate parts)
  if (word "critical").test text then .critical
  else if (word "security").test text || (word "defender").test text
      || (word "malicious software removal").test text then .security
  else if isMandatory = some true then .security
  else .other

/-! ## macOS titles -/

/-- `\d+(?:\.\d+)*`. -/
def dottedNumber : Pattern := .seq digit.plus (.star (.seq (char '.') digit.plus))

/-- `^mac\s?os\b`. -/
def macosTitle : Pattern :=
  .seq .start
    (.seq (literal "mac") (.seq (optional (.set isSpace)) (.seq (literal "os") .boundary)))

def isMacosOsVersionUpdateTitle (title : String) : Bool :=
  (Pattern.seq macosTitle
    (.seq (.star dot) (.seq .boundary (.seq dottedNumber .boundary)))).test
      (normalizePatchText js title)

def isMacosDeviceOs (os : String) : Bool :=
  (Pattern.seq .boundary
    (.seq (anyOf (["macos", "mac os", "mac os x", "os x", "darwin"].map literal)) .boundary)).test
      (normalizePatchText js os)

/-- The parts of the first version number of a macOS title. A part with too
many digits to be finite is dropped. -/
def macosOsVersionFromTitle (title : String) : Option (List Number) :=
  let text := normalizePatchText js title
  if !macosTitle.test text then none
  else
    (exec (.seq .boundary (.seq dottedNumber .boundary)) text).map fun version =>
      ((version.splitOn '.').map fun part => Number.ofText (String.ofList part)).filter
        Number.isFinite

/-- The first difference between two versions, positive when the second one is
the later; a missing part counts as zero. -/
def compareVersionPartsDesc (a b : Option (List Number)) : Number :=
  let left := a.getD []
  let right := b.getD []
  let difference (index : ℕ) : Number :=
    (right.getD index (.ofInt 0)).sub (left.getD index (.ofInt 0))
  (((List.range (max left.length right.length)).map difference).find? fun difference =>
    !difference.same (.ofInt 0)).getD (.ofInt 0)

/-! ## Categories -/

/-- `\buwp\b|\bappx\b|…|\bmicrosoftwindows\.[a-z0-9_.-]+`. -/
def uwpText : Pattern :=
  anyOf
    [word "uwp", word "appx", word "msix",
      .seq .boundary (.seq (literal "windowsapp") (.seq (optional (literal "runtime")) .boundary)),
      word "windows app runtime", word "devhome", word "windows.devhome", word "vclibs",
      word "crossdevice",
      .seq .boundary
        (.seq (literal "microsoftwindows.")
          (plus (.set fun c =>
            ('a' ≤ c && c ≤ 'z') || ('0' ≤ c && c ≤ '9') || c = '_' || c = '.' || c = '-')))]

/-- `^[a-z0-9]{12}-microsoft\.`. -/
def storePackageText : Pattern :=
  .seq .start
    (.seq (times 12 (.set fun c => ('a' ≤ c && c ≤ 'z') || ('0' ≤ c && c ≤ '9')))
      (literal "-microsoft."))

/-- `text\b`. -/
def wordEnd (text : String) : Pattern := .seq (literal text) .boundary

def inferPatchCategory (title : String) (kbArticle : Option String) : PatchCategory :=
  let text := normalizePatchText js (title ++ " " ++ kbArticle.getD "")
  if (word "preview").test text then .preview
  else if (word "driver").test text then .driver
  else if (anyOf [word "firmware", wordEnd "bios"]).test text then .firmware
  else if (anyOf [word "feature update", wordEnd "enablement package"]).test text then .feature
  else if (anyOf [word "definition", wordEnd "defender", wordEnd "security intelligence"]).test text
    then .definition
  else if uwpText.test text || storePackageText.test text then .uwpApp
  else if (word "cumulative").test text then .cumulative
  else
    match classifyPatchSeverity js (some title) none kbArticle none with
    | .critical => .critical
    | .security => .security
    | .other => if isMacosOsVersionUpdateTitle js title then .feature else .other

def classifyPatchCategory (update : PatchDecisionUpdate) : PatchCategory :=
  match update.category.bind
      fun category => PatchCategory.ofText? (js.toLowerCase (trim category)) with
  | some category => category
  | none => inferPatchCategory js update.title update.kbArticle

end Talos.Decision
