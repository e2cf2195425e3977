import Cookbook.CommandLine.Run
import Cookbook.Files.Changes
import Std.Time.DateTime.Timestamp

/-!
# The program

The program reads the directories that a request is about from disk, runs the request on them,
writes what it changed back to disk and prints what it printed. Links to directories inside these
directories are not followed.
-/

namespace Cookbook

namespace Disk

/-- The entry of a directory on disk with what is in it. -/
partial def readEntry (entry : IO.FS.DirEntry) : IO (Option (String × FileTree)) := do
  try
    match (← entry.path.symlinkMetadata).type with
    | .dir =>
      let entries ← (← entry.path.readDir).toList.filterMapM readEntry
      return some (entry.fileName, .dir (entries.mergeSort fun a b => a.1 ≤ b.1))
    | _ =>
      let bytes ← IO.FS.readBinFile entry.path
      let content : FileContent := match String.fromUTF8? bytes with
        | some s => .text s
        | none => .bytes bytes
      return some (entry.fileName, .file content)
  catch _ => return none

/-- Read the directory that some names lead to into the files, if there is one. -/
def readDirectory (fs : Files) (names : List String) : IO Files := do
  let entry : IO.FS.DirEntry := { root := (Files.absolute names).text, fileName := "." }
  try
    let entries ← (← entry.path.readDir).toList.filterMapM readEntry
    let tree : FileTree := .dir (entries.mergeSort fun a b => a.1 ≤ b.1)
    return { fs with tree := fs.tree.put names tree }
  catch _ => return fs

/-- Carry out a change on disk. -/
def carryOut : FileChange → IO Unit
  | .makeDirectory names => IO.FS.createDirAll (Files.absolute names).text
  | .write names (.text s) => IO.FS.writeFile (Files.absolute names).text s
  | .write names (.bytes b) => IO.FS.writeBinFile (Files.absolute names).text b
  | .remove names => IO.FS.removeFile (Files.absolute names).text

end Disk

namespace CommandLine

/-- The directories that a request is about: the root of the application, the site, and the
directory of a recipe with those beside it. -/
def places (working : List String) : Request → List (List String)
  | .run o c =>
    let root := Files.namesOf working o.root
    let recipe (dir : Path) : List (List String) :=
      [(Files.namesOf working dir).dropLast, (Files.namesOf root dir).dropLast]
    let recipes := match c with
      | .recipe dir | .validate dir | .tree dir _ _ => recipe dir
      | _ => []
    recipes ++ [root, Files.namesOf root ⟨o.site⟩]
  | _ => []

/-- The variables of the environment that count. -/
def variableNames : List String :=
  programOptions.filterMap (·.environment) ++ ["NO_COLOR", "CLICOLOR", "CLICOLOR_FORCE", "TERM"]

/-- The machine that a request runs on. -/
def readMachine (environment : NameMap String) (request : Request) : IO Machine := do
  let working := Files.namesOf [] ⟨(← IO.currentDir).toString⟩
  let start : Files := { tree := FileTree.put (.dir []) working (.dir []), working }
  let files ← (places working request).foldlM Disk.readDirectory start
  let random := (← IO.getRandomBytes 15).toList.foldl (fun n b => 256 * n + b.toNat) 0
  return {
    files, environment
    terminal := ← (← IO.getStdout).isTty
    now := (← Std.Time.Timestamp.now).toSecondsSinceUnixEpoch.val.toNat
    nextUuid := random }

end CommandLine

end Cookbook

open Cookbook in
/-- Run the arguments of the program. -/
def main (arguments : List String) : IO UInt32 := do
  let found ← CommandLine.variableNames.filterMapM fun name => do
    return (← IO.getEnv name).map fun value => (name, value)
  let environment := NameMap.ofList found
  let machine ← CommandLine.readMachine environment
    (CommandLine.Request.ofArguments environment arguments)
  let (output, files) := CommandLine.run machine arguments
  (machine.files.changesTo files).forM Disk.carryOut
  IO.print output.out
  IO.eprint output.err
  return output.code.toUInt32
