/-
# HiddenLoads.Host.Arguments -- a reader of arguments

`Command.ofArgs` takes `scan` with an optional path and its flags, `inspect` with a path, or
`version`.  Flags may stand anywhere behind the command, and everything behind `--` is a path.
-/
import HiddenLoads.Command

namespace HiddenLoads

set_option autoImplicit false

namespace Command

/-- The arguments behind a command, apart into flags and others. -/
structure Arguments where
  flags : List Text
  others : List Text
deriving DecidableEq, Repr

def isFlag (t : Text) : Bool := t.beginsIn '-' && t.length > 1

def endOfFlags : Text := "--"

/-- The arguments apart; behind `--` there are no flags. -/
def divide : List Text → Arguments
  | [] => ⟨[], []⟩
  | t :: rest =>
      if t = endOfFlags then ⟨[], rest⟩
      else
        let later := divide rest
        if isFlag t then { later with flags := t :: later.flags }
        else { later with others := t :: later.others }

def helpFlag : Text := "--help"

def scanFlags : List Text :=
  ["--json", "--fail-on-warning", "--show-dependencies", "--hide-dependencies"]

/-- The last of two opposite flags decides. -/
def lastOf (positive negative : Text) (fallback : Bool) (flags : List Text) : Bool :=
  flags.foldl (fun value flag =>
    if flag = positive then true else if flag = negative then false else value) fallback

/-- The command that arguments behind a command's name make, if the flags are known. -/
def checked (known : List Text) (arguments : Arguments) (command : Option Command) :
    Option Command :=
  if arguments.flags.all fun flag => known.contains flag || flag = helpFlag then
    if arguments.flags.contains helpFlag then some .help else command
  else none

def scanOf (path : Text) (flags : List Text) : Command :=
  .scan path (flags.contains "--json") (flags.contains "--fail-on-warning")
    (lastOf "--show-dependencies" "--hide-dependencies" true flags)

def named (name : Text) (rest : List Text) : Option Command :=
  let arguments := divide rest
  if name = ("scan" : String) then
    checked scanFlags arguments <|
      match arguments.others with
      | [] => some (scanOf "." arguments.flags)
      | [path] => some (scanOf path arguments.flags)
      | _ => none
  else if name = ("inspect" : String) then
    checked [] arguments <|
      match arguments.others with
      | [path] => some (.inspect path)
      | _ => none
  else if name = ("version" : String) then
    checked [] arguments (if arguments.others.isEmpty then some .version else none)
  else none

/-- The command that some arguments make.  The only flag before a command's name asks for
help. -/
def ofArgs (args : List Text) : Option Command :=
  let flags := args.takeWhile fun t => isFlag t && t ≠ endOfFlags
  if flags.any (· ≠ helpFlag) then none
  else if flags ≠ [] then some .help
  else match (if args.head? = some endOfFlags then args.tail else args) with
    | [] => none
    | name :: rest => named name rest

end Command

end HiddenLoads
