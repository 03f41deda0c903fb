/-
# HiddenLoads.Command -- the command line

`Command.run` carries a command out on some files and tells what is printed and with which code
it ends: 0 when all went well, 1 when something failed or, if asked for, when there are warnings.
Which command some arguments make is left to a reader of arguments; where they make none, the
code is 2 (`Command.runArgs`).
-/
import HiddenLoads.Package
import HiddenLoads.Report

namespace HiddenLoads

set_option autoImplicit false

inductive Command where
  | scan (path : Text) (json failOnWarning showDependencies : Bool)
  | inspect (path : Text)
  | version
  | help
deriving DecidableEq, Repr

namespace Command

/-- What running a command does: the text on standard output, what is printed for people, the
exit code, and the failure that ended it. -/
structure Outcome where
  exit : Nat
  stdout : Text
  printed : List Printed
  failure : Option Failure

def failed (printed : List Printed) (f : Failure) : Outcome := ⟨1, [], printed, some f⟩

def refused (host : Host) (label : String) (about : Text) : Outcome :=
  ⟨1, [], [.line (Text.ofString label ++ host.escape about)], none⟩

/-- The analyses of some files and the number of files without one. -/
def analyzeAll (host : Host) (fs : Files) (grammar : Grammar) :
    List FsPath → Session → Except Failure (List Analysis × Nat)
  | [], _ => .ok ([], 0)
  | p :: rest, s => do
      let (s, result) := Package.analyzeFile host fs grammar p s
      match ← result with
      | some a => do
          let (analyses, skipped) ← analyzeAll host fs grammar rest s
          .ok (a :: analyses, skipped)
      | none => do
          let (analyses, skipped) ← analyzeAll host fs grammar rest s
          .ok (analyses, skipped + 1)

def report (host : Host) (fs : Files) (grammar : Grammar) (root : FsPath) (files : List FsPath)
    (s : Session) : Except Failure Report := do
  let (analyses, skipped) ← analyzeAll host fs grammar files s
  let undeclared := match ← Package.manifest? host fs root with
    | some manifest => manifest.undeclared (analyses.flatMap (·.dependencyNames))
    | none => []
  .ok ⟨root, analyses, undeclared, skipped⟩

/-- The absolute path that an argument means and what it leads to.  The system has to take every
name on the way. -/
def locate (fs : Files) (path : Text) : Except Failure (FsPath × Found) := do
  let p := FsPath.ofText path
  let _ ← p.parts.mapM Native.encode
  let target := FsPath.resolve fs.base p
  .ok (target, ← fs.look target)

def scanFound (host : Host) (fs : Files) (grammar : Grammar) (s : Session) (target : FsPath)
    (found : Found) (json failOnWarning showDependencies : Bool) : Outcome :=
  if found = .absent then
    refused host "[bold red]Error:[/bold red] Path does not exist: " target.toText
  else
    let (s, checked) := Package.prepare host fs s
    match checked with
    | .error f =>
        match f.message? with
        | some message => refused host "[bold red]Configuration error:[/bold red] " message
        | none => failed [] f
    | .ok _ =>
        let root := if found = .directory then target else target.parent
        let (s, files) := Package.sourceFiles host fs target none none s
        let banner : List Printed :=
          if json then []
          else [.line (Text.ofString "[bold blue]🔍 Scanning:[/bold blue] " ++
            host.escape target.toText ++ [0x0A])]
        match files.bind fun files => report host fs grammar root files s with
        | .error f => failed banner f
        | .ok r =>
            { exit := if failOnWarning && r.warningCount != 0 then 1 else 0
              stdout := if json then r.toJson.toText ++ [0x0A] else []
              printed := if json then [] else banner ++ r.print host showDependencies
              failure := none }

def runScan (host : Host) (fs : Files) (grammar : Grammar) (s : Session) (path : Text)
    (json failOnWarning showDependencies : Bool) : Outcome :=
  match locate fs path with
  | .error f => failed [] f
  | .ok (target, found) =>
      scanFound host fs grammar s target found json failOnWarning showDependencies

def inspectFound (host : Host) (fs : Files) (grammar : Grammar) (s : Session) (target : FsPath)
    (found : Found) : Outcome :=
  if !found.isFile then refused host "[bold red]Error:[/bold red] Not a file: " target.toText
  else match (Package.analyzeFile host fs grammar target s).2 with
    | .error f => failed [] f
    | .ok none =>
        refused host "[bold red]Error:[/bold red] Unsupported or unreadable file: " target.toText
    | .ok (some a) => ⟨0, [], Report.print host ⟨target.parent, [a], [], 0⟩ true, none⟩

def runInspect (host : Host) (fs : Files) (grammar : Grammar) (s : Session) (path : Text) :
    Outcome :=
  match locate fs path with
  | .error f => failed [] f
  | .ok (target, found) => inspectFound host fs grammar s target found

def versionText : Text := "1.0.0\n"

/-- A printed thing as the terminal can show it; empty lines and tables are left to the
terminal. -/
def shown (terminal : Terminal) : Printed → Except Failure Printed
  | .line [] => .ok (.line [])
  | .line text => do .ok (.line (← terminal.sanitize text))
  | table => .ok table

/-- Some printed things as the terminal can show them, up to the first that it cannot. -/
def showAll (terminal : Terminal) : List Printed → List Printed × Option Failure
  | [] => ([], none)
  | item :: rest =>
      match shown terminal item with
      | .error f => ([], some f)
      | .ok item =>
          let (items, failure) := showAll terminal rest
          (item :: items, failure)

def run (host : Host) (fs : Files) (grammar : Grammar) (s : Session) (terminal : Terminal)
    (c : Command) : Outcome :=
  let outcome := match c with
    | .scan path json failOnWarning showDependencies =>
        runScan host fs grammar s path json failOnWarning showDependencies
    | .inspect path => runInspect host fs grammar s path
    | .version => ⟨0, versionText, [], none⟩
    | .help => ⟨0, [], [], none⟩
  match showAll terminal outcome.printed with
  | (printed, none) => { outcome with printed }
  | (printed, some f) => failed printed f

/-- Carrying out what some arguments ask for; code 2 if they make no sense. -/
def runArgs (host : Host) (ofArgs : List Text → Option Command) (fs : Files) (grammar : Grammar)
    (s : Session) (terminal : Terminal) (args : List Text) : Outcome :=
  match ofArgs args with
  | some c => run host fs grammar s terminal c
  | none => ⟨2, [], [], none⟩

end Command

end HiddenLoads
