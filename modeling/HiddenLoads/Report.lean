/-
# HiddenLoads.Report -- what a scan tells its user

A scan prints lines with markup and tables (`Report.print`), or one JSON document
(`Report.toJson`).  All text that comes from the analysed package is escaped before it is put
between markup.
-/
import HiddenLoads.Analysis
import HiddenLoads.Host
import HiddenLoads.Json.Writer
import HiddenLoads.Path.FsPath
import HiddenLoads.Terminal

namespace HiddenLoads

set_option autoImplicit false

inductive Printed where
  | line (text : Text)
  | table (title : Text) (columns : List Text) (rows : List (List Text))
deriving DecidableEq, Repr

structure Report where
  root : FsPath
  analyses : List Analysis
  undeclared : List Text
  skipped : Nat

namespace Report

def dependencyCount (r : Report) : Nat :=
  (r.analyses.map fun a => a.dependencies.length).foldl (· + ·) 0

def warningCount (r : Report) : Nat :=
  (r.analyses.map fun a => a.warnings.length).foldl (· + ·) 0

/-- The number of files that the grammar could not read in full. -/
def brokenCount (r : Report) : Nat := r.analyses.countP (·.hasErrors)

def lineText : Option Span → Text
  | some span => Text.ofNat span.startLine
  | none => "-"

def kindText (d : Dependency) : Text :=
  if d.viaEval then "eval" else if d.dynamic then "dynamic" else "static"

def fileText (host : Host) (r : Report) (a : Analysis) : Text :=
  host.escape (FsPath.display a.file r.root)

def dependencyTable (host : Host) (r : Report) : Printed :=
  .table "Dependencies" ["File", "Line", "Specifier", "Kind"] <|
    r.analyses.flatMap fun a => a.dependencies.map fun d =>
      [r.fileText host a, lineText d.location, host.escape d.specifier, kindText d]

def warningTable (host : Host) (r : Report) : Printed :=
  .table "Warnings" ["File", "Line", "Kind", "Severity"] <|
    r.analyses.flatMap fun a => a.warnings.map fun w =>
      [r.fileText host a, lineText w.location, w.kind,
        severityIcon w.severity.name ++ 0x20 :: w.severity.name]

def countLine (label : String) (n : Nat) : Printed := .line (Text.ofString label ++ Text.ofNat n)

def print (host : Host) (r : Report) (showDependencies : Bool) : List Printed :=
  (if showDependencies && r.dependencyCount != 0 then [r.dependencyTable host, .line []] else []) ++
  (if r.warningCount != 0 then [r.warningTable host, .line []]
    else [.line "[bold green]✓ No unsafe imports found[/bold green]\n"]) ++
  (if r.undeclared.isEmpty then []
    else
      .line "[bold yellow]⚠ Undeclared in package.json:[/bold yellow]" ::
        (r.undeclared.map fun s => .line (Text.ofString "  • " ++ host.escape s)) ++
        [.line []]) ++
  [.line "[bold yellow]Summary:[/bold yellow]",
    countLine "  Files analyzed: " r.analyses.length,
    countLine "  Files skipped: " r.skipped,
    countLine "  Files with syntax errors: " r.brokenCount,
    countLine "  Dependencies: " r.dependencyCount,
    countLine "  Unsafe imports: " r.warningCount]

/-! ## JSON -/

def pointJson (line column : Nat) : Json :=
  .object [("line", .ofNat line), ("column", .ofNat column)]

def spanJson : Option Span → Json
  | some s =>
      .object [("start", pointJson s.startLine s.startColumn),
        ("end", pointJson s.endLine s.endColumn)]
  | none => .null

def dependencyJson (d : Dependency) : Json :=
  .object [("specifier", .string d.specifier), ("location", spanJson d.location),
    ("dynamic", .bool d.dynamic), ("auto_warning", .bool d.viaEval)]

def warningJson (w : Warning) : Json :=
  .object [("kind", .string w.kind), ("location", spanJson w.location),
    ("value", (w.value.map Json.string).getD .null), ("severity", .string w.severity.name)]

def analysisJson (r : Report) (a : Analysis) : Json :=
  .object [("file", .string (FsPath.display a.file r.root)),
    ("dependencies", .array (a.dependencies.map dependencyJson)),
    ("warnings", .array (a.warnings.map warningJson)),
    ("has_syntax_errors", .bool a.hasErrors), ("suspicious", .bool a.suspicious)]

def toJson (r : Report) : Json :=
  .object [("root", .string r.root.toText), ("files", .array (r.analyses.map r.analysisJson)),
    ("undeclared", .array (r.undeclared.map .string)), ("skipped", .ofNat r.skipped)]

end Report

end HiddenLoads
