import Residency.Command
import Residency.Settings.Standard
import Residency.Xfs

/-!
# The program

Control requests cannot be issued from here, so a check ends where the mount is
resolved.
-/

namespace Residency

/-- The parts of a file, each of which ends with a zero byte. -/
def readParts (path : String) : IO (List RawText) := do
  let bytes ← IO.FS.readBinFile path
  pure (bytes.data.toList.splitOn 0).dropLast

def variableOf (raw : RawText) : RawText × RawText :=
  (raw.takeWhile (· ≠ Command.equals), (raw.dropWhile (· ≠ Command.equals)).drop 1)

def readNode (path : RawText) : IO (Option (RawText × Node)) := do
  match path.text? with
  | none => pure none
  | some name =>
    try
      let bytes ← IO.FS.readBinFile name
      pure (some (path, .file bytes.data.toList))
    catch error =>
      match error with
      | .inappropriateType .. => pure (some (path, .directory))
      | _ => pure none

/-- The paths that a run may look at. -/
def pathsOf (environment : Environment) (arguments : List RawText) : List RawText :=
  match Command.ofArguments environment arguments with
  | .error _ => []
  | .ok (config, command) =>
    let settings := config.getD Settings.defaultName
    let rest :=
      match command with
      | .decode options => options.file.toList
      | .check mount paths => mount :: paths
    settings :: Settings.formats.map (fun format => settings ++ FileTree.dot :: format.extension) ++ rest

/-- Runs the program on what the arguments and the environment lead to. -/
def program : IO UInt32 := do
  let arguments := (← readParts "/proc/self/cmdline").drop 1
  let environment := (← readParts "/proc/self/environ").map variableOf
  let nodes ← (pathsOf environment arguments).mapM readNode
  let tree := FileTree.ofNodes (nodes.filterMap id)
  let host : Host Xfs.Script := ⟨Xfs.Script.kernel, tree.files⟩
  let (outcome, _) := Command.run (.standard tree) host environment arguments .empty
  IO.print outcome.stdout
  if let .failure failure := outcome.ending then IO.eprint failure.text
  pure outcome.status.toUInt32

end Residency

def main : IO UInt32 := Residency.program
