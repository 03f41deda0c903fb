/-
# HiddenLoads.Language -- the languages that can be analysed

Each language has a grammar name, and a file's suffix decides its language.
-/
import HiddenLoads.Failure
import HiddenLoads.Path.FsPath
import HiddenLoads.Text.Case

namespace HiddenLoads

set_option autoImplicit false

/-- The languages with a grammar. -/
inductive Language where
  | javascript
  | typescript
  | tsx
deriving DecidableEq, Repr

namespace Language

def name : Language → Text
  | .javascript => "javascript"
  | .typescript => "typescript"
  | .tsx => "tsx"

def all : List Language := [.javascript, .typescript, .tsx]

def ofName (t : Text) : Except Failure Language :=
  match all.find? fun language => language.name = t with
  | some language => .ok language
  | none => .error (.unsupportedLanguage t)

def suffixes : List (Text × Language) := [
    (".js", .javascript), (".cjs", .javascript), (".mjs", .javascript), (".jsx", .javascript),
    (".ts", .typescript), (".cts", .typescript), (".mts", .typescript), (".tsx", .tsx)]

/-- The language of a file, by its suffix in small letters. -/
def ofPath? (p : FsPath) : Option Language :=
  suffixes.lookup p.suffix.lower

end Language

end HiddenLoads
