/-
# HiddenLoads.Settings -- settings from the environment

Three variables of the environment decide which files are analysed: their suffixes, the
directories to leave out, and the largest file.  A file can set variables too; those that the
environment has already, even to nothing, stay, and those that the file sets remain set.

Settings are checked once, when they are first asked for (`Session.prepare`); what they say is
read from the environment each time.
-/
import HiddenLoads.Bindings
import HiddenLoads.Failure
import HiddenLoads.Number.Decimal
import HiddenLoads.Text.Case
import HiddenLoads.Text.Native

namespace HiddenLoads

set_option autoImplicit false

abbrev Environment := Bindings Text

namespace Settings

def extensionsVariable : Text := "JSUNMASK_EXTENSIONS"

def excludeVariable : Text := "JSUNMASK_EXCLUDE_DIRS"

def sizeVariable : Text := "JSUNMASK_MAX_FILE_SIZE"

/-- The items between commas, blanks around them dropped and empty ones left out. -/
def items (t : Text) : List Text := ((t.splitOn ',').map Text.strip).filter (· ≠ [])

/-- A suffix in small letters, with its dot. -/
def suffix (t : Text) : Text := if t.beginsIn '.' then t.lower else CodePoint.ofChar '.' :: t.lower

def extensions (env : Environment) : List Text :=
  (items ((env.get? extensionsVariable).getD ".js,.cjs,.mjs,.jsx,.ts,.cts,.mts,.tsx")).map suffix

def excludeDirs (env : Environment) : List Text :=
  items ((env.get? excludeVariable).getD "node_modules,.git")

/-- The size of the largest file, in octets. -/
def maxFileSize (env : Environment) : Except Failure Int :=
  match env.get? sizeVariable with
  | none => .ok (5 * 1024 * 1024)
  | some raw =>
      match Numeral.integer? raw with
      | some n => .ok n
      | none => .error (.sizeNotInteger raw)

def check (env : Environment) : Except Failure Unit := do
  if (← maxFileSize env) ≤ 0 then .error .sizeNotPositive else .ok ()

/-- The environment with a variable set, which the system has to take. -/
def put (env : Environment) (name value : Text) : Except Failure Environment := do
  let _ ← Native.encode name
  let _ ← Native.encode value
  .ok (env.bind name value)

/-- The environment with the variables of a file that it does not have yet. -/
def load (env : Environment) (file : Bindings Text) : Except Failure Environment :=
  file.entries.foldlM
    (fun env entry => if env.binds entry.1 then .ok env else put env entry.1 entry.2) env

end Settings

/-- The environment, and which settings are in use: each settings object that passed the check
has a number of its own. -/
structure Session where
  env : Environment
  current : Option Nat
  passed : Nat
deriving Repr

namespace Session

def start (env : Environment) : Session := ⟨env, none, 0⟩

def set (s : Session) (name value : Text) : Except Failure Session := do
  .ok { s with env := ← Settings.put s.env name value }

def unset (s : Session) (name : Text) : Session := { s with env := s.env.forget name }

/-- The session in which the settings are checked again. -/
def reset (s : Session) : Session := { s with current := none }

/-- The session with the settings checked, once.  Variables of the file remain set even if the
check fails. -/
def prepare (s : Session) (file : Bindings Text) : Session × Except Failure Unit :=
  if s.current.isSome then (s, .ok ())
  else
    match Settings.load s.env file with
    | .error f => (s, .error f)
    | .ok env =>
        match Settings.check env with
        | .ok _ => (⟨env, some s.passed, s.passed + 1⟩, .ok ())
        | .error f => ({ s with env }, .error f)

end Session

end HiddenLoads
