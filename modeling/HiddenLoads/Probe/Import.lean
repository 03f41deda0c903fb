/-
# HiddenLoads.Probe.Import -- loads through `import`

The probe matches `import` and `export` declarations with a source, and calls of `import`.  A
source that is a string is a dependency, and a call of `import` with anything else is unsafe.
-/
import HiddenLoads.Probe.Require

namespace HiddenLoads

set_option autoImplicit false

namespace Probe.Import

def isDeclaration : Validator (Option Text) := fun e _ =>
  match e with
  | .importFrom .. => .ok ⟨true, none⟩
  | _ => .ok ⟨false, none⟩

/-- The expression is a call of `import`. -/
def isDynamic : Validator (Option Text) := fun e _ =>
  match e with
  | .call _ (.other _ .importToken _) _ => .ok ⟨true, some "import"⟩
  | _ => .ok ⟨false, none⟩

def resolve : Resolver (Option Text) := fun e a _ =>
  match e with
  | .importFrom location (.string _ value) =>
      .ok (a.addDependency value (some location) false, none)
  | .call location _ (.string _ value :: _) =>
      .ok (a.addDependency value (some location) false, none)
  | .call location _ (_ :: _) => .ok (a.addUnsafe location, none)
  | _ => .ok (a, none)

end Probe.Import

def Probe.importing : Probe (Option Text) where
  name := "import"
  validators := [Probe.Import.isDeclaration, Probe.Import.isDynamic]
  resolve := Probe.Import.resolve
  teardown := none
  breaksOnMatch := true
  group := some Probe.loadGroup

end HiddenLoads
