/-
# HiddenLoads.Recovery -- specifiers behind calls

When the argument of a load is itself a call, the specifier is often encoded.  The walk goes
through that call and everything inside it, in source order, and applies to every call with
arguments the first rule that fits:

* a string of hexadecimal digits is decoded, and the call is not entered;
* `atob` decodes its first text;
* `Buffer.from` joins the pieces of an array;
* `require.resolve` gives its string;
* `path.join` of nothing but strings gives the joined path.

Only a `path.join` clears the suspicion that the code hides something.
-/
import HiddenLoads.Expr.Value
import HiddenLoads.Literal.Base64
import HiddenLoads.Literal.Hex
import HiddenLoads.Path.Join
import HiddenLoads.Text.Blank
import HiddenLoads.Tracer

namespace HiddenLoads

set_option autoImplicit false

/-- The specifiers recovered so far, and whether the load stays suspicious. -/
structure Recovery where
  specifiers : List Text
  suspicious : Bool
deriving DecidableEq, Repr

namespace Recovery

def start : Recovery := ⟨[], true⟩

/-- One more specifier, unless it is empty or known. -/
def add (r : Recovery) (specifier : Text) : Recovery :=
  if specifier = [] ∨ specifier ∈ r.specifiers then r
  else { r with specifiers := r.specifiers ++ [specifier] }

/-- The text of a string of hexadecimal digits. -/
def encodedText? : Expr → Option Text
  | .string _ value => if Hex.looksEncoded value then some value else none
  | _ => none

/-- What a callee means: the full name that it is traced to, or the name as it stands. -/
def calleeMeaning? (t : Tracer) (callee : Expr) : Except Failure (Option Text) := do
  match ← Expr.name? t.literals callee with
  | some name =>
      match ← t.lookup name with
      | some target => .ok (some target.resolved)
      | none => .ok (some name)
  | none => .ok none

def strings? (arguments : List Expr) : Option (List Text) :=
  arguments.mapM fun
    | .string _ value => some value
    | _ => none

def decodeCall (t : Tracer) (meaning : Text) (first : Expr) (arguments : List Expr)
    (r : Recovery) : Recovery :=
  if meaning = ("atob" : String) then
    match Expr.literals t.literals arguments with
    | payload :: _ =>
        match Base64.decode? payload with
        | some text => r.add text
        | none => r
    | [] => r
  else if meaning = ("Buffer.from" : String) then
    match first with
    | .array span elements => r.add (Text.strip (Expr.pieces .empty (.array span elements)).flatten)
    | _ => r
  else if meaning = ("require.resolve" : String) then
    match first with
    | .string _ value => r.add value
    | _ => r
  else if meaning = ("path.join" : String) then
    match strings? arguments with
    | some parts => { r.add (Join.path parts) with suspicious := false }
    | none => r
  else r

/-- The rules on one call; the answer tells whether to enter it. -/
def applyRules (t : Tracer) (callee first : Expr) (arguments : List Expr) (r : Recovery) :
    Except Failure (Recovery × Bool) :=
  match encodedText? first with
  | some digits => do .ok (r.add (← Hex.decode digits), false)
  | none => do
      match ← calleeMeaning? t callee with
      | some meaning => .ok (decodeCall t meaning first arguments r, true)
      | none => .ok (r, true)

def visit (t : Tracer) (e : Expr) (r : Recovery) : Except Failure (Recovery × Bool) :=
  match e with
  | .call _ callee (first :: more) => applyRules t callee first (first :: more) r
  | .missing => .error .missingNode
  | _ => .ok (r, true)

/-- The walk over the expressions of a stack, at most `fuel` of them. -/
def walkFrom (t : Tracer) : (fuel : Nat) → List Expr → Recovery → Except Failure Recovery
  | 0, _, r => .ok r
  | _ + 1, [], r => .ok r
  | fuel + 1, e :: stack, r => do
      let (r, enter) ← visit t e r
      walkFrom t fuel (if enter then e.children ++ stack else stack) r

def walk (t : Tracer) (e : Expr) : Except Failure Recovery := walkFrom t e.size [e] start

end Recovery

end HiddenLoads
