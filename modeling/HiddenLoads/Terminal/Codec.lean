/-
# HiddenLoads.Terminal.Codec -- character sets of terminals

A terminal names its character set.  `Codec.named?` finds it by its own name or by any of its
other names; letter case does not count, nor does what stands between letters and digits, except
that a dot is a dot in a set's own name.  `Codec.render` shows a text in the set: what the set
lacks becomes a question mark.
-/
import HiddenLoads.Text

namespace HiddenLoads

set_option autoImplicit false

inductive Codec where
  | ascii
  | latin1
  | cp1252
  /-- All code points but surrogates, whether in units of 8, 16 or 32 bits. -/
  | unicode
deriving DecidableEq, Repr

namespace Codec

/-- Letters, digits and dots of ASCII. -/
def isNamePoint (c : CodePoint) : Bool :=
  c.isAsciiDigit || (0x61 ≤ c.asciiLower.val && c.asciiLower.val ≤ 0x7A) || c = '.'

/-- A name with every run of other characters as one underscore, none at the ends; `gap` tells
that such a run has been met behind a name character. -/
def plainFrom : (started gap : Bool) → Text → Text
  | _, _, [] => []
  | started, gap, c :: rest =>
      if isNamePoint c then
        if started && gap then CodePoint.ofChar '_' :: c :: plainFrom true false rest
        else c :: plainFrom true false rest
      else plainFrom started true rest

def plainName (name : Text) : Text := plainFrom false false (name.map CodePoint.asciiLower)

def all : List Codec := [.ascii, .latin1, .cp1252, .unicode]

/-- The names that are a set's own; the forms of Unicode have one each. -/
def ownNames : Codec → List String
  | .ascii => ["ascii"]
  | .latin1 => ["latin_1"]
  | .cp1252 => ["cp1252"]
  | .unicode => [
      "utf_8", "utf_8_sig", "utf_16", "utf_16_le", "utf_16_be", "utf_32", "utf_32_le",
      "utf_32_be"]

def otherNames : Codec → List String
  | .ascii => [
      "646", "ansi_x3.4_1968", "ansi_x3_4_1968", "ansi_x3.4_1986", "cp367", "csascii", "ibm367",
      "iso646_us", "iso_646.irv_1991", "iso_ir_6", "us", "us_ascii"]
  | .latin1 => [
      "8859", "cp819", "csisolatin1", "ibm819", "iso8859", "iso8859_1", "iso_8859_1",
      "iso_8859_1_1987", "iso_ir_100", "l1", "latin", "latin1"]
  | .cp1252 => ["1252", "windows_1252"]
  | .unicode => [
      "u8", "utf", "utf8", "utf8_ucs2", "utf8_ucs4", "cp65001", "u16", "utf16", "utf_16le",
      "unicodelittleunmarked", "utf_16be", "unicodebigunmarked", "u32", "utf32", "utf_32le",
      "utf_32be"]

/-- The set goes by a name in plain form; in its other names a dot may stand for an
underscore. -/
def isNamed (codec : Codec) (plain : Text) : Bool :=
  let undotted := plain.replace '.' ("_" : String)
  codec.ownNames.any (fun name => Text.ofString name = plain) ||
    codec.otherNames.any fun name =>
      Text.ofString name = plain || Text.ofString name = undotted

def named? (name : Text) : Option Codec := all.find? fun codec => codec.isNamed (plainName name)

/-- The code points of code page 1252 between ASCII and U+00A0. -/
def cp1252Extras : List Nat := [
    0x20AC, 0x201A, 0x0192, 0x201E, 0x2026, 0x2020, 0x2021, 0x02C6, 0x2030, 0x0160, 0x2039,
    0x0152, 0x017D, 0x2018, 0x2019, 0x201C, 0x201D, 0x2022, 0x2013, 0x2014, 0x02DC, 0x2122,
    0x0161, 0x203A, 0x0153, 0x017E, 0x0178]

def has (codec : Codec) (c : CodePoint) : Bool :=
  match codec with
  | .ascii => c.val < 0x80
  | .latin1 => c.val < 0x100
  | .cp1252 => c.val < 0x80 || (0xA0 ≤ c.val && c.val < 0x100) || cp1252Extras.contains c.val
  | .unicode => !c.isSurrogate

/-- The text with a question mark for what the set lacks. -/
def render (codec : Codec) (t : Text) : Text :=
  t.map fun c => if codec.has c then c else CodePoint.ofChar '?'

end Codec

end HiddenLoads
