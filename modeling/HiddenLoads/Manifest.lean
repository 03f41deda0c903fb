/-
# HiddenLoads.Manifest -- what a package says it depends on

The manifest of a package is the JSON object in its `package.json`.  `Manifest.undeclared`
lists the specifiers of packages that it does not declare, each once, in the order in which
they first occur; files, platform modules and the package itself never count.
-/
import HiddenLoads.Json
import HiddenLoads.Specifier

namespace HiddenLoads

set_option autoImplicit false

/-- The name of a package, which may be any JSON value, and the packages that it declares. -/
structure Manifest where
  name : Json
  declared : List Text
deriving Repr

namespace Manifest

def sections : List Text :=
  ["dependencies", "devDependencies", "peerDependencies", "optionalDependencies"]

/-- The manifest that a JSON value describes; only objects describe one. -/
def ofJson? (data : Json) : Option Manifest :=
  match data with
  | .object _ =>
      some ⟨(data.get? "name").getD .null,
        sections.flatMap fun key => ((data.get? key).map Json.keys).getD []⟩
  | _ => none

/-- The specifier needs no declaration, or has one. -/
def covers (m : Manifest) (s : Text) : Bool :=
  Specifier.isLocal s || Specifier.isBuiltin s ||
    m.declared.contains (Specifier.package s) || m.name.isString (Specifier.package s)

def undeclaredFrom (m : Manifest) (found : List Text) (specifiers : List Text) : List Text :=
  specifiers.foldl
    (fun found s => if m.covers s || found.contains s then found else found ++ [s]) found

/-- The specifiers that are not covered, each once, in the order of their first occurrence. -/
def undeclared (m : Manifest) (specifiers : List Text) : List Text :=
  undeclaredFrom m [] specifiers

def declaredSorted (m : Manifest) : List Text :=
  (m.declared.mergeSort Text.le).eraseDups

end Manifest

end HiddenLoads
