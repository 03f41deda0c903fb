/-
# HiddenLoads.Failure -- why an analysis stops

Most of what cannot be understood becomes a warning in the report.  The causes below end an
analysis instead.  `Failure.message?` is the wording of those that the user may be told about.
-/
import HiddenLoads.Text.Quoted
import HiddenLoads.Text.Utf8

namespace HiddenLoads

set_option autoImplicit false

/-- The causes that end an analysis. -/
inductive Failure where
  /-- The language is none of those with a grammar. -/
  | unsupportedLanguage (name : Text)
  /-- An integer has more decimal digits than are ever written or read. -/
  | tooManyDigits
  /-- Text taken for hexadecimal is not made of digit pairs. -/
  | badHex
  /-- The pass reached a place where the tree lacks a node. -/
  | missingNode
  /-- A call's arguments are not among the nodes that were converted. -/
  | unconvertedChild
  /-- Text with a surrogate cannot be written as UTF-8. -/
  | unwritableText
  /-- Octets that have to be UTF-8 are not. -/
  | malformedUtf8 (fault : Utf8.Fault)
  /-- Text with a NUL cannot be given to the system. -/
  | embeddedNul
  /-- A path, or a name in it, is longer than the system takes. -/
  | nameTooLong
  /-- A document nests deeper than it may. -/
  | nestedTooDeep
  /-- Following the aliases of a name never comes to an end. -/
  | endlessAlias
  /-- The setting for the largest file is not an integer. -/
  | sizeNotInteger (raw : Text)
  /-- The setting for the largest file is zero or less. -/
  | sizeNotPositive
deriving DecidableEq, Repr

def Utf8.Reason.message : Utf8.Reason → Text
  | .start => "invalid start byte"
  | .continuation => "invalid continuation byte"
  | .ending => "unexpected end of data"

/-- The octets of a fault and where they stand: a single octet by its value, several by the
positions of the first and the last. -/
def Utf8.Fault.place (fault : Utf8.Fault) : Text :=
  match fault.octets with
  | [octet] =>
      Text.ofString "byte 0x" ++ Text.hexDigits 2 octet.toNat ++ Text.ofString " in position " ++
        Text.ofNat fault.position
  | octets =>
      Text.ofString "bytes in position " ++ Text.ofNat fault.position ++ Text.ofString "-" ++
        Text.ofNat (fault.position + octets.length - 1)

def Utf8.Fault.message (fault : Utf8.Fault) : Text :=
  Text.ofString "'utf-8' codec can't decode " ++ fault.place ++ Text.ofString ": " ++
    fault.reason.message

def Failure.message? : Failure → Option Text
  | .unsupportedLanguage name => some (Text.ofString "Unsupported language: " ++ name)
  | .sizeNotInteger raw =>
      some (Text.ofString "JSUNMASK_MAX_FILE_SIZE is not an integer: " ++ raw.quoted)
  | .sizeNotPositive => some "JSUNMASK_MAX_FILE_SIZE must be a positive number of bytes."
  | .malformedUtf8 fault => some fault.message
  | .embeddedNul => some "embedded null byte"
  | _ => none

end HiddenLoads
