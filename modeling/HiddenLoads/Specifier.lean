/-
# HiddenLoads.Specifier -- what a module specifier points at

A specifier names a file of the package itself (`./x`, `/x`, `file:x`), a module that the
platform brings along (`fs`, `node:fs/promises`), or a package, perhaps with a path inside it
(`lodash/fp`, `@babel/core/lib`).
-/
import HiddenLoads.Text

namespace HiddenLoads

set_option autoImplicit false

namespace Specifier

def scheme : Text := "node:"

/-- The specifier without the scheme of platform modules. -/
def bare (s : Text) : Text := if scheme.isPrefixOf s then s.drop scheme.length else s

/-- The package that a specifier points into; a scoped name has two segments. -/
def package (s : Text) : Text :=
  match (bare s).splitOn '/' with
  | [] => []
  | [only] => only
  | first :: second :: _ =>
      if first.beginsIn '@' then first ++ CodePoint.ofChar '/' :: second else first

def isLocal (s : Text) : Bool :=
  s.beginsIn '.' || s.beginsIn '/' || (Text.ofString "file:").isPrefixOf s

def builtins : List Text := ([
    "assert", "async_hooks", "buffer", "child_process", "cluster", "console", "constants",
    "crypto", "dgram", "diagnostics_channel", "dns", "domain", "events", "fs", "http", "http2",
    "https", "inspector", "module", "net", "os", "path", "perf_hooks", "process", "punycode",
    "querystring", "readline", "repl", "stream", "string_decoder", "sys", "timers", "tls",
    "trace_events", "tty", "url", "util", "v8", "vm", "wasi", "worker_threads", "zlib", "test",
    "sqlite", "sea"] : List String).map Text.ofString

def isBuiltin (s : Text) : Bool := scheme.isPrefixOf s || builtins.contains (package s)

end Specifier

end HiddenLoads
