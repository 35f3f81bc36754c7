import Inlay.CommandLine.Run

set_option autoImplicit false

/-! # The program

The outer layer of the program. It copies what a request reads from the disk of the system into a
`Disk`, runs the request on that copy and hands the results to the system. A request tells more of
the paths that it reads the more of them are copied: first the settings, then the document, then
the files that the document includes.
-/

namespace Inlay.Main

open Inlay.CommandLine

/-- The places that a path leads through, from a place on. -/
def placesFrom (start : List String) (parts : List (List Char)) : List (List String) :=
  (parts.foldl (fun (reached, places) part =>
    let next :=
      if Path.isVoid part then reached
      else if part == ['.', '.'] then reached.dropLast
      else reached ++ [String.ofList part]
    (next, places ++ [next])) (start, [start])).2

/-- The places that a path leads through. -/
def placesOn (disk : Disk) (path : Path) : List (List String) :=
  placesFrom (if path.isAbsolute then [] else disk.workingDirectory) (Path.parts path.text.toList)

/-- Copy what stands at a place of the system's disk. -/
def copyPlace (disk : Disk) (place : List String) : IO Disk := do
  if (disk.find? place).isSome then return disk
  let path := (← IO.currentDir) / (Disk.pathOf place).text
  if ← path.isDir then return disk.put place (.directory 0)
  else if ← path.pathExists then
    return disk.put place (.file (← IO.FS.readBinFile path) 0)
  else return disk

/-- Copy all that a request reads, as far as the copy tells it. -/
def copyPaths (r : Request) (env : Environment) (disk : Disk) : IO Disk :=
  (r.paths disk env).foldlM (fun disk path => (placesOn disk path).foldlM copyPlace disk) disk

/-- The rounds of copying: the settings, the document, and the files it includes. -/
def rounds : Nat := 3

/-- The variables of the environment, as the system keeps them. -/
def readEnvironment : IO Environment := do
  let bytes ← IO.FS.readBinFile "/proc/self/environ"
  let text := (String.fromUTF8? bytes).getD ""
  return (text.splitOn "\x00").filterMap fun entry =>
    let chars := entry.toList
    match chars.dropWhile (· != '=') with
    | _ :: value => some (String.ofList (chars.takeWhile (· != '=')), String.ofList value)
    | [] => none

/-- Copy the disk for a command line; nothing is read for one that renders nothing. -/
def copyDisk (env : Environment) (args : List String) (disk : Disk) : IO Disk :=
  match readArguments env args with
  | .ok (.render r) => (List.range rounds).foldlM (fun disk _ => copyPaths r env disk) disk
  | _ => return disk

/-- Hand over the file that a request wrote. -/
def handOver (env : Environment) (args : List String) (report : Report) : IO Unit := do
  match readArguments env args with
  | .ok (.render r) =>
    if report.exitCode == 0 && !r.destination.same standardOutput then
      match report.outlet.disk.read r.destination with
      | .ok bytes => IO.FS.writeBinFile r.destination.text bytes
      | .error _ => return
  | _ => return

end Inlay.Main

open Inlay in
/-- Run the program on the command line's arguments. -/
def main (args : List String) : IO UInt32 := do
  let env ← Main.readEnvironment
  let names := (Path.parts (← IO.currentDir).toString.toList).filter fun part => !Path.isVoid part
  let start : Disk := { workingDirectory := names.map String.ofList }
  let report := CommandLine.run (← Main.copyDisk env args start) env args
  (← IO.getStdout).write report.outlet.printed
  Main.handOver env args report
  IO.eprint report.messages
  return UInt32.ofNat report.exitCode
