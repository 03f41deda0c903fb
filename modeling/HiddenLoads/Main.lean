/-
# HiddenLoads.Main -- the program

The arguments name the command; a snapshot of the package is read from standard input.
-/
import HiddenLoads.Snapshot

namespace HiddenLoads

set_option autoImplicit false

/-- A text for output, with U+FFFD for surrogates. -/
def Text.toOutput (t : Text) : String :=
  String.ofList (t.map fun c => if c.isSurrogate then Char.ofNat 0xFFFD else Char.ofNat c.val)

partial def readOctets (input : IO.FS.Stream) (done : ByteArray) : IO ByteArray := do
  let chunk ← input.read 65536
  if chunk.isEmpty then return done
  readOctets input (done ++ chunk)

/-- The snapshot on standard input; an unreadable one is empty. -/
def readSnapshot : IO Snapshot := do
  let bytes ← readOctets (← IO.getStdin) .empty
  let base := (FsPath.ofText (Text.ofString (← IO.currentDir).toString)).parts
  match (Utf8.decode bytes.toList).toOption.map (Json.read Host.standard.nesting) with
  | some (.ok j) => return .ofJson base j
  | _ => return .ofJson base .null

def runProgram (args : List String) : IO UInt32 := do
  let snapshot ← readSnapshot
  let outcome := snapshot.run (.ofEncoding "utf-8") (args.map Text.ofString)
  IO.print outcome.stdout.toOutput
  for item in outcome.printed do
    IO.println item.toText.toOutput
  match outcome.failure with
  | some failure => IO.eprintln ((failure.message?.getD "the analysis failed").toOutput)
  | none => pure ()
  return outcome.exit.toUInt32

end HiddenLoads

def main (args : List String) : IO UInt32 := HiddenLoads.runProgram args
