import TableStore.CommandLine

/-!
# The program

Reads the arguments and the environment, runs the statements on the document on disk, and prints the
report.
-/

namespace TableStore

def causeOf (e : IO.Error) : String := toString e

/-- the code that the system gives when a folder is read as a file -/
def folderCode : UInt32 := 21

instance : Files IO where
  find path := do
    try
      let bytes ← IO.FS.readBinFile path
      match String.fromUTF8? bytes with
      | some s => return .text s
      | none => return .unreadable "stream did not contain valid UTF-8"
    catch
      | .noFileOrDirectory .. => return .absent
      | .invalidArgument .. => return .absent
      | .inappropriateType _ code details =>
        -- a folder is there but cannot be read; any other code means a file on the way to the path
        if code = folderCode then return .unreadable details else return .absent
      | e => return .unreadable (causeOf e)
  put path text := do
    try
      let parent := "/".intercalate (foldersAbove path)
      unless parent = "" do
        IO.FS.createDirAll parent
      IO.FS.writeFile path text
      return none
    catch e => return some (causeOf e)

end TableStore

open TableStore in
/-- runs the program; the exit code is 2 when the arguments are not well formed -/
def main (args : List String) : IO UInt32 := do
  let env : CommandLine.Environment :=
    { path := ← IO.getEnv "QUILLDB_PATH", name := ← IO.getEnv "QUILLDB_NAME" }
  match CommandLine.parse? env args with
  | none =>
    IO.eprintln "usage: [--path PATH] [--name NAME] [--no-create] [--no-save] STATEMENT..."
    return 2
  | some options =>
    let report ← (CommandLine.run options : IO CommandLine.Report)
    IO.print report.output
    IO.eprint report.errors
    return report.code.toUInt32
