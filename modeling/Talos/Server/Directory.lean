import Mathlib.Data.List.AList
import Talos.Rust.Text

/-!
# The agents of the server

The directory of connected agents, with what an agent reported about itself when it
registered. Whoever registers last for an agent id owns the entry; a socket that was
replaced leaves it alone when it closes.
-/

namespace Talos.Server

structure AppError where
  status : ℕ
  message : String

namespace AppError

variable (message : String)

def notFound : AppError := ⟨404, message⟩

def unauthorized : AppError := ⟨401, message⟩

def badRequest : AppError := ⟨400, message⟩

def forbidden : AppError := ⟨403, message⟩

def timeout : AppError := ⟨504, message⟩

def serviceUnavailable : AppError := ⟨503, message⟩

def gone : AppError := ⟨410, message⟩

def internal : AppError := ⟨500, message⟩

end AppError

inductive AgentPlatform where
  | windows | linux | macos | unknown
deriving DecidableEq

/-- The name of the variant, as `{:?}` prints it. -/
def AgentPlatform.debug : AgentPlatform → String
  | .windows => "Windows"
  | .linux => "Linux"
  | .macos => "Macos"
  | .unknown => "Unknown"

structure AgentFeatureCapabilities where
  remoteDesktop : Bool
  systemShell : Bool
  fileTransfer : Bool
  remoteRegistry : Bool
  chat : Bool
  systemInfo : Bool
deriving DecidableEq

namespace AgentFeatureCapabilities

def windows : AgentFeatureCapabilities := ⟨true, true, true, true, true, true⟩

def linux : AgentFeatureCapabilities := ⟨false, true, true, false, false, true⟩

def macos : AgentFeatureCapabilities := ⟨true, true, true, false, true, true⟩

def unsupported : AgentFeatureCapabilities := ⟨false, false, false, false, false, true⟩

def forPlatform : AgentPlatform → AgentFeatureCapabilities
  | .windows => windows
  | .linux => linux
  | .macos => macos
  | .unknown => unsupported

end AgentFeatureCapabilities

/-- `AgentFeatureCapabilities::default()`, for agents that do not report any. -/
def defaultFeatures : AgentFeatureCapabilities := .windows

def linuxNames : List String :=
  ["linux", "ubuntu", "debian", "fedora", "rhel", "centos", "rocky", "alma", "suse", "arch"]

def platformFromOs (os : Option String) : AgentPlatform :=
  let normalized := (Rust.toAsciiLowercase (os.getD "")).toList
  let mentions := fun (name : String) => Rust.contains normalized name.toList
  if mentions "windows" then .windows
  else if linuxNames.any mentions then .linux
  else if ["macos", "mac os", "darwin"].any mentions then .macos
  else .unknown

def normalizeAgentPlatform (platform : AgentPlatform) (os : Option String) : AgentPlatform :=
  if platform ≠ .unknown then platform else platformFromOs os

def normalizeHost (host : String) : Option String :=
  let trimmed := Rust.trim host
  if trimmed = "" || trimmed = "unknown" then none else some trimmed

def normalizeTextValue (value : Option String) : Option String :=
  value.bind fun raw =>
    let trimmed := Rust.trim raw
    if trimmed = "" || Rust.eqIgnoreAsciiCase trimmed "unknown" then none else some trimmed

structure LocalAddr where
  ip : String
  prefixLength : ℕ

structure AgentConnection where
  sender : ℕ
  host : Option String
  localAddrs : List LocalAddr
  isAdmin : Bool
  hostname : Option String
  os : Option String
  version : Option String
  platform : AgentPlatform
  features : AgentFeatureCapabilities

structure AgentRegistration where
  sender : ℕ
  host : Option String
  localAddrs : Option (List LocalAddr)
  isAdmin : Option Bool
  hostname : Option String
  os : Option String
  version : Option String
  platform : AgentPlatform
  features : AgentFeatureCapabilities

abbrev AgentDirectory := AList fun _ : String => AgentConnection

/-- The entry of an agent that was not registered yet. -/
def AgentConnection.fresh (sender : ℕ) : AgentConnection where
  sender := sender
  host := none
  localAddrs := []
  isAdmin := false
  hostname := none
  os := none
  version := none
  platform := .unknown
  features := defaultFeatures

/-- What is not reported is kept. -/
def AgentConnection.update (entry : AgentConnection) (registration : AgentRegistration) :
    AgentConnection where
  sender := registration.sender
  host := registration.host.or entry.host
  localAddrs :=
    match registration.localAddrs with
    | some (addr :: rest) => addr :: rest
    | _ => entry.localAddrs
  isAdmin := registration.isAdmin.getD entry.isAdmin
  hostname := registration.hostname.or entry.hostname
  os := registration.os.or entry.os
  version := registration.version.or entry.version
  platform := registration.platform
  features := registration.features

def AgentDirectory.register (agents : AgentDirectory) (agentId : String)
    (registration : AgentRegistration) : AgentDirectory :=
  let entry := (agents.lookup agentId).getD (.fresh registration.sender)
  agents.insert agentId (entry.update registration)

/-- Removes the agent unless another socket has replaced the sender. An agent that is
not there counts as removed. -/
def AgentDirectory.disconnectUnlessReplaced (agents : AgentDirectory) (agentId : String)
    (sender : ℕ) : Bool × AgentDirectory :=
  match agents.lookup agentId with
  | none => (true, agents)
  | some connection =>
    if connection.sender = sender then (true, agents.erase agentId) else (false, agents)

/-- The features that an agent has; a shell on macOS needs a root worker. -/
def featuresForAgent (agent : AgentConnection) : AgentFeatureCapabilities :=
  let features :=
    if agent.features = defaultFeatures && agent.platform ≠ .windows then
      .forPlatform agent.platform
    else agent.features
  if agent.platform = .macos && !agent.isAdmin then { features with systemShell := false }
  else features

def appErrorForUnsupported (feature : String) (platform : AgentPlatform) : AppError :=
  .badRequest (feature ++ " unsupported_platform (" ++ platform.debug ++ ")")

def systemShellRequiresElevationMessage : AgentPlatform → String
  | .macos =>
    "macOS system shell unavailable; install and run the Talos worker as a root LaunchDaemon"
  | _ => "system shell unavailable (agent not elevated)"

def userShellUnsupportedMessage : AgentPlatform → String
  | .macos => "user shell unavailable on macOS; macOS shell sessions run as system/root"
  | .linux =>
    "user shell unavailable on Linux; Linux shell sessions use the configured shell user"
  | _ => "user shell unavailable on this platform"

end Talos.Server
