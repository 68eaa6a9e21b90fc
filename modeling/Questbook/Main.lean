/-
Questbook.Main — the command line program.

This is the only module that touches the world. It answers the questions of
`Disk` from the real file system, and prints what a run comes to.
-/
import Questbook.Cli.Report

namespace Questbook

/-- The text of the file at a path. -/
def readText (path : String) : IO Lookup := do
  try
    let content ← IO.FS.readBinFile path
    match String.fromUTF8? content with
    | some text => return .found text
    | none => return .unreadable
  catch
    | .noFileOrDirectory .. => return .missing
    | _ => return .unreadable

/-- The names in the folder at a path. -/
def readNames? (path : String) : IO (Option (List String)) := do
  try
    let entries ← ((← IO.currentDir) / path).readDir
    return some (entries.toList.map (·.fileName))
  catch _ => return none

/-- What the system says when it is asked once more for what could not be had. -/
def explain : Trouble → IO String
  | .reading path => do
    try
      let _ ← IO.FS.readBinFile path
      return "stream did not contain valid UTF-8"
    catch e => return e.toString
  | .listing path => do
    try
      let _ ← ((← IO.currentDir) / path).readDir
      return "the folder has changed"
    catch e => return e.toString
  | .malformed _ => return "not a configuration"

/-- The file system of the machine. -/
def machineDisk : Disk IO where
  read := readText
  isFolder path := do ((← IO.currentDir) / path).isDir
  names? := readNames?
  explain := explain

/-- What the program finds when it starts. -/
def surroundings : IO Surroundings := do
  let assetRoot? ← IO.getEnv "QUEST_ASSET_ROOT"
  let program ← IO.appPath
  return { assetRoot?, program? := some program.toString }

end Questbook

open Questbook in
/-- Runs the program and gives its exit status. -/
def main (arguments : List String) : IO UInt32 := do
  let report ← Cli.run machineDisk (← surroundings) arguments
  for line in report.lines do
    match line with
    | .out text => IO.println text
    | .err text => IO.eprintln text
  return report.status.toUInt32
