import Mathlib.Algebra.Group.Int.Defs
import Talos.Fallible.Program
import Talos.Transition.Run

/-!
# The macOS update account

`ensure_account_state_locked` keeps a local account for software updates, with a
state file and a password in the System Keychain. Each operation of a call may
fail or be cut, and other people may create and delete an account of the same
name between the calls.

Nothing on disk says who created an account. The state of the model remembers it,
and it remembers every account that was there when the delete command ran. `dscl`
tells whether the account exists whenever it runs, and `sysadminctl -addUser`
leaves an existing account alone.
-/

namespace Talos.UpdateAccount

open Fallible Transition

/-! ## The machine -/

inductive Creator where
  | talos
  | others
deriving DecidableEq

structure Account where
  creator : Creator
  generatedUid : Option String
deriving DecidableEq

structure AccountState where
  username : String
  credentialVersion : ℤ
  generatedUid : Option String
  createdAt : String
  updatedAt : String
  lastFailureCode : Option String
  lastFailureMessage : Option String

/-- `managed` and `legacy` are the passwords in the System Keychain and in the
default one; `deleted` holds the accounts that the delete command was run on. -/
structure Machine where
  appleSilicon : Bool
  account : Option Account
  stateFile : Option AccountState
  managed : Option ByteArray
  legacy : Option ByteArray
  deleted : List Account

/-- The two places that store a password, and the two that delete the account. -/
inductive Place where
  | create
  | migrate
  | recreate
  | rollback

inductive AccountSite where
  | readState
  | writeState
  | findUser
  | readUid
  | openToRead
  | findPassword
  | readLegacy
  | openToStore (place : Place)
  | storePassword (place : Place)
  | openToRecreate
  | random
  | addUser
  | findAdded
  | harden
  | findBefore (place : Place)
  | spawnDelete (place : Place)
  | deleteUser (place : Place)
  | findAfter (place : Place)

/-- What a call takes from outside: the clock, the random password and the
identifier that macOS gives to a new account. -/
structure AccountCall where
  createdAt : String
  updatedAt : String
  password : String
  newUid : Option String

/-! ## The operations -/

def defaultUsername : String := "talos"

def validateUsername (username : String) : Bool :=
  !(username.isEmpty || 64 < username.utf8ByteSize || username.toList.head? = some '-' ||
    username.toList.contains '/' ||
    !username.toList.all fun ch => ch.isAlphanum || ch = '_' || ch = '-' || ch = '.')

abbrev AccountProgram := Program AccountSite Machine

def requireUsername : AccountProgram Unit :=
  if validateUsername defaultUsername then pure () else Program.fail "invalid macOS username"

def readState : AccountProgram (Option AccountState) :=
  Program.read .readState "read the state file" Machine.stateFile

def writeState (state : AccountState) : AccountProgram Unit :=
  Program.change .writeState "replace the state file" fun m => { m with stateFile := some state }

def userExists (site : AccountSite) : AccountProgram Bool := do
  requireUsername
  Program.read site ("read macOS user " ++ defaultUsername) fun m => m.account.isSome

/-- `generated_uid(..).ok().flatten()`. -/
def generatedUid : AccountProgram (Option String) := do
  let uid ← Program.attempt do
    requireUsername
    Program.read .readUid "run /usr/bin/dscl" fun m => m.account.bind Account.generatedUid
  pure uid.join

def systemKeychain (site : AccountSite) : AccountProgram Unit :=
  Program.read site "open System Keychain at /Library/Keychains/System.keychain" fun _ => ()

def storeManagedPassword (place : Place) (password : String) : AccountProgram Unit := do
  systemKeychain (.openToStore place)
  Program.change (.storePassword place) "store Talos macOS update password in System Keychain"
    fun m => { m with managed := some password.toUTF8 }

def getManagedPassword : AccountProgram String := do
  systemKeychain .openToRead
  let item ← Program.read .findPassword "read Talos macOS update password from System Keychain"
    Machine.managed
  match item with
  | none => Program.fail "read Talos macOS update password from System Keychain"
  | some bytes =>
    match String.fromUTF8? bytes with
    | none => Program.fail "decode Talos macOS update password"
    | some password => pure password

def migrateDefaultKeychainPasswordToSystemKeychain : AccountProgram (Option String) := do
  let item ← Program.attempt
    (Program.read .readLegacy "read the default keychain" Machine.legacy)
  match item.join with
  | none => pure none
  | some bytes =>
    match String.fromUTF8? bytes with
    | none => Program.fail "decode legacy Talos macOS update password"
    | some password => do
        storeManagedPassword .migrate password
        pure (some password)

/-- The failures of the commands that hide the account and take its admin rights
are ignored, and what they set is not modelled. -/
def hardenStandardUser : AccountProgram Unit := do
  requireUsername
  let _ ← Program.attempt (Program.change .harden "harden the account" id)

variable (call : AccountCall)

def createStandardUser : AccountProgram Unit := do
  requireUsername
  Program.change .addUser "create Talos macOS update account" fun m =>
    { m with account := m.account.or (some ⟨.talos, call.newUid⟩) }
  if ← userExists .findAdded then hardenStandardUser
  else Program.fail "Talos macOS update account was not created"

def noteDeletion (m : Machine) : Machine := { m with deleted := m.account.toList ++ m.deleted }

def deleteStandardUser (place : Place) : AccountProgram Unit := do
  requireUsername
  if ← userExists (.findBefore place) then
    Program.read (.spawnDelete place) "spawn delete Talos macOS update account" fun _ => ()
    Program.note noteDeletion
    Program.change (.deleteUser place) "delete Talos macOS update account" fun m =>
      { m with account := none }
    if ← userExists (.findAfter place) then
      Program.fail "Talos macOS update account was not deleted"

/-! ## A call -/

variable (previousState : Option AccountState)

def nextCredentialVersion : ℤ :=
  (previousState.map fun state => min (state.credentialVersion + 1) (2 ^ 31 - 1)).getD 1

variable (failureMessage : String)

def writeManagedAccountState : AccountProgram Unit := do
  let uid ← generatedUid
  writeState
    { username := defaultUsername
      credentialVersion := nextCredentialVersion previousState
      generatedUid := uid
      createdAt := (previousState.map AccountState.createdAt).getD call.updatedAt
      updatedAt := call.updatedAt
      lastFailureCode := some "macos_update_account_needs_enrollment"
      lastFailureMessage := some failureMessage }

/-- The random bytes of the password can fail to be read. -/
def generatePassword : AccountProgram String :=
  Program.read .random "open /dev/urandom" fun _ => call.password

def createManagedAccountLocked : AccountProgram Unit := do
  let password ← generatePassword call
  createStandardUser call
  match ← Program.attempt (storeManagedPassword .create password) with
  | some () => writeManagedAccountState call previousState failureMessage
  | none => do
      let _ ← Program.attempt (deleteStandardUser .rollback)
      Program.fail "store Talos macOS update password in System Keychain"

def recreateManagedAccountLocked : AccountProgram Unit := do
  systemKeychain .openToRecreate
  deleteStandardUser .recreate
  createManagedAccountLocked call previousState failureMessage

def unmanagedState (uid : Option String) : AccountState :=
  { username := defaultUsername
    credentialVersion := 1
    generatedUid := uid
    createdAt := call.createdAt
    updatedAt := call.updatedAt
    lastFailureCode := some "macos_update_account_unmanaged_existing_user"
    lastFailureMessage := some ("A talos macOS account already exists but Talos has no local " ++
      "credential for it. Delete the account or recreate Software Updates enrollment.") }

/-- The last two branches: there is a state file and an account. -/
def ensureCredential (state : Option AccountState) : AccountProgram Unit := do
  match ← Program.attempt getManagedPassword with
  | some _ => hardenStandardUser
  | none =>
    match ← migrateDefaultKeychainPasswordToSystemKeychain with
    | some _ => hardenStandardUser
    | none =>
      recreateManagedAccountLocked call state
        ("Talos recreated the local update account because its local credential was missing. " ++
          "Complete Software Updates enrollment again.")

/-- The call on an Apple silicon machine, after the state file and the account
were looked up. -/
def ensureFound (state : Option AccountState) (found : Bool) : AccountProgram Unit :=
  if state.isNone && found then do
    let uid ← generatedUid
    writeState (unmanagedState call uid)
  else if !found then
    createManagedAccountLocked call state
      ("Talos created the local update account. Open Talos Permissions Helper and complete " ++
        "Software Updates enrollment.")
  else ensureCredential call state

def ensureAccountStateLocked (appleSilicon : Bool) (call : AccountCall) : AccountProgram Unit :=
  if appleSilicon then do
    let state ← readState
    let found ← userExists .findUser
    ensureFound call state found
  else pure ()

end Talos.UpdateAccount
