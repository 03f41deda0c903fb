/-
# HiddenLoads.Host -- what is left to the system that the program runs on

How a file sets variables, what counts as markup and how far calls may nest are no rules of this
program.  They are given by its host, as the syntax of the sources is by a `Grammar`, and whatever
depends on them takes a host.
-/
import HiddenLoads.Bindings

namespace HiddenLoads

set_option autoImplicit false

structure Host where
  /-- The variables that the text of a file sets. -/
  bindings : Text → Bindings Text
  /-- The text, written so that none of it is taken for markup. -/
  escape : Text → Text
  /-- How many arrays and objects of a JSON document may stand inside one another.  Each takes a
  call of the reader, and calls nest only so deep. -/
  nesting : Nat

end HiddenLoads
