/-
# HiddenLoads.Package -- the files of a package and their analysis

A package is a directory, or a single file.  `Package.sourceFiles` lists its source files in the
order of their paths, `Package.analyzeFile` analyses one of them, and `Package.manifest?` reads
what the package declares.
-/
import HiddenLoads.Files
import HiddenLoads.Host
import HiddenLoads.Json.Reader
import HiddenLoads.Manifest
import HiddenLoads.Pass
import HiddenLoads.Settings

namespace HiddenLoads

set_option autoImplicit false

namespace Package

def envFileName : Text := ".env"

/-- The path of the file that sets variables: the one that is asked for, if any, and else the
one in the working directory. -/
def envFile (asked : Option Text) : FsPath :=
  match asked with
  | some (c :: rest) => FsPath.ofText (c :: rest)
  | _ => FsPath.ofText envFileName

def readText (bytes : List UInt8) : Except Failure Text :=
  (Utf8.decode bytes).mapError .malformedUtf8

def fileVariables (host : Host) (fs : Files) (p : FsPath) : Except Failure (Bindings Text) :=
  match fs.find p with
  | .ok (.file bytes) => do .ok (host.bindings (← readText bytes))
  | _ => .ok .empty

def prepareFrom (host : Host) (fs : Files) (p : FsPath) (s : Session) :
    Session × Except Failure Unit :=
  if s.current.isSome then (s, .ok ())
  else match fileVariables host fs p with
    | .ok file => s.prepare file
    | .error f => (s, .error f)

def prepare (host : Host) (fs : Files) (s : Session) : Session × Except Failure Unit :=
  prepareFrom host fs (envFile none) s

/-- The files below a directory that have one of the suffixes and lie in, and are called, none
of the excluded names; in the order of their paths. -/
def select (fs : Files) (root : FsPath) (extensions excluded : List Text) : List FsPath :=
  let inside := (fs.allBelow root).filter fun parts =>
    extensions.contains (FsPath.suffixOf (parts.getLast?.getD [])).lower &&
      !parts.any excluded.contains
  (inside.mergeSort FsPath.partsLe).map fun parts => ⟨root.root, root.parts ++ parts⟩

/-- The source files of a package.  A file is its own package; otherwise the suffixes and the
names to leave out come from the settings unless they are given. -/
def sourceFiles (host : Host) (fs : Files) (root : FsPath)
    (extensions excluded : Option (List Text)) (s : Session) :
    Session × Except Failure (List FsPath) :=
  match fs.look root with
  | .error f => (s, .error f)
  | .ok found =>
      if found.isFile then (s, .ok [root])
      else
        let (s, checked) := prepare host fs s
        (s, do
          checked
          .ok (select fs root ((extensions.getD (Settings.extensions s.env)).map Text.lower)
            (excluded.getD (Settings.excludeDirs s.env))))

/-- The analysis of a file; none if it is in no known language, is no file, or is too large. -/
def analyzeFile (host : Host) (fs : Files) (grammar : Grammar) (p : FsPath) (s : Session) :
    Session × Except Failure (Option Analysis) :=
  match Language.ofPath? p, fs.find p with
  | none, _ => (s, .ok none)
  | some _, .ok .absent => (s, .ok none)
  | some _, .error .nameTooLong => (s, .ok none)
  | some _, .error f => (s, .error f)
  | some language, .ok found =>
      let (s, checked) := prepare host fs s
      (s, do
        checked
        let limit ← Settings.maxFileSize s.env
        match found with
        | .file bytes =>
            if limit < bytes.length then .ok none
            else do
              .ok (some (← grammar.analyze Pass.defaultProbes language p.toText bytes))
        | _ => .ok none)

/-- The manifest of a package; none if there is no readable one. -/
def manifest? (host : Host) (fs : Files) (root : FsPath) : Except Failure (Option Manifest) :=
  match fs.look (root.child "package.json") with
  | .error f => .error f
  | .ok (.file bytes) => do
      match Json.read host.nesting (← readText bytes) with
      | .ok data => .ok (Manifest.ofJson? data)
      | .error .malformed => .ok none
      | .error .tooManyDigits => .error .tooManyDigits
      | .error .tooDeep => .error .nestedTooDeep
  | .ok _ => .ok none

end Package

end HiddenLoads
