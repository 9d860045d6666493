import Wit.Go.Strings

/-!
# Load — running `wasm-tools`

`src/wit/load.go` reads a `Resolve` either from a JSON file (`LoadJSON`) or from WIT source,
which it has `wasm-tools component wit -j --all-features` turn into JSON (`loadWIT`, behind
`LoadWIT` for a path and `DecodeWIT` for a reader).  The system is a `Host`: `exec.LookPath`,
`cmd.Run` and `os.Open`, with `DecodeJSON`, which is of this repository but not under `src/`.
A run returns the system calls it made, in order, beside its result.

The functions are straight-line code over the host's answers, and are transcribed here as the
model of that code.
-/

namespace Wit.Load
open Wit.Go

/-- A command as `exec.Command` builds it, with the standard input `loadWIT` gives it. -/
structure Cmd (Reader : Type) where
  path : GoString
  args : List GoString
  stdin : Option Reader

/-- The system `loadWIT` and `LoadJSON` run against. -/
structure Host (Reader Err Resolve : Type) where
  /-- `exec.LookPath(file)`. -/
  lookPath : GoString → Except Err GoString
  /-- `cmd.Run()`: what the command wrote to its standard output and error, and its error. -/
  run : Cmd Reader → GoString × GoString × Option Err
  /-- `os.Open(path)`, as the bytes `DecodeJSON` then reads from the file. -/
  «open» : GoString → Except Err GoString
  /-- `DecodeJSON`, on the bytes it reads. -/
  decodeJSON : GoString → Except Err Resolve

/-- A system call, as `loadWIT` makes it. -/
inductive Call (Reader : Type)
  | lookPath (file : GoString)
  | run (cmd : Cmd Reader)
  /-- `fmt.Fprint(os.Stderr, text)`. -/
  | printStderr (text : GoString)

/-- An error of the loaders: `loadWIT`'s own, or one from the system or `DecodeJSON`, returned
as it is. -/
inductive LoadError (Err : Type)
  /-- `errors.New("cannot set both path and reader; provide only one")`. -/
  | bothPathAndReader
  | err (e : Err)

section
variable {Reader Err Resolve : Type}

/-- `"wasm-tools"`, looked up in `$PATH`. -/
def wasmTools : GoString := .ofString "wasm-tools"

/-- `cmdArgs`: `component wit -j --all-features`, then the path when there is one. -/
def cmdArgs (path : GoString) : List GoString :=
  [.ofString "component", .ofString "wit", .ofString "-j", .ofString "--all-features"] ++
    if path ≠ [] then [path] else []

/-- `loadWIT(path, reader)`, with the system calls it makes. -/
def loadWIT (host : Host Reader Err Resolve) (path : GoString) (reader : Option Reader) :
    List (Call Reader) × Except (LoadError Err) Resolve :=
  if path ≠ [] ∧ reader.isSome then ([], .error .bothPathAndReader)
  else
    match host.lookPath wasmTools with
    | .error e => ([.lookPath wasmTools], .error (.err e))
    | .ok tool =>
      let cmd : Cmd Reader := ⟨tool, cmdArgs path, reader⟩
      match host.run cmd with
      | (_, stderr, some e) =>
        ([.lookPath wasmTools, .run cmd, .printStderr stderr], .error (.err e))
      | (stdout, _, none) =>
        ([.lookPath wasmTools, .run cmd], (host.decodeJSON stdout).mapError .err)

/-- `LoadWIT(path)`: `loadWIT(path, nil)`. -/
def LoadWIT (host : Host Reader Err Resolve) (path : GoString) :
    List (Call Reader) × Except (LoadError Err) Resolve :=
  loadWIT host path none

/-- `DecodeWIT(r)`: `loadWIT("", r)`. -/
def DecodeWIT (host : Host Reader Err Resolve) (r : Reader) :
    List (Call Reader) × Except (LoadError Err) Resolve :=
  loadWIT host [] (some r)

/-- `LoadJSON(path)`: `DecodeJSON` of the file at `path`. -/
def loadJSON (host : Host Reader Err Resolve) (path : GoString) : Except (LoadError Err) Resolve :=
  match host.«open» path with
  | .error e => .error (.err e)
  | .ok f    => (host.decodeJSON f).mapError .err

end

end Wit.Load
