import StepShell.Table
import StepShell.Text.Blank

/-! The files that a console loads scripts from and keeps its settings in. -/

namespace StepShell

class HostFiles (m : Type → Type) where
  isFile : String → m Bool
  /-- `none` if there is no such file or it cannot be read. -/
  read : String → m (Option String)
  /-- `false` if the file cannot be written. -/
  write : String → String → m Bool

/-- Files in a directory of their own, by their paths in it. A directory is there if a file is in it
or if it is the home directory. -/
structure Disk where
  files : Table String
  home : String
  deriving DecidableEq, Inhabited

namespace Disk

private def pathOf (place : List String) : String :=
  "/".intercalate place

private def components (path : String) : List String :=
  (Text.cutAt (· == '/') path.toList).map String.ofList

/-- How many bytes a path has at most. -/
def maxPathBytes : Nat := 4095

/-- How many bytes a component of a path has at most. -/
def maxNameBytes : Nat := 255

/-- Whether a file can have this path. -/
def isPath (path : String) : Bool :=
  path.utf8ByteSize ≤ maxPathBytes && !path.toList.contains '\x00' &&
    (components path).all (·.utf8ByteSize ≤ maxNameBytes)

/-- Whether there is a directory at a place. -/
def isDirectory (disk : Disk) (place : List String) : Bool :=
  place.isEmpty || pathOf place == disk.home ||
    disk.files.entries.any fun entry => (pathOf place ++ "/").toList.isPrefixOf entry.1.toList

/-- Follow the components of a path from a place; all but the last must lead to directories. -/
def follow (disk : Disk) (place : List String) : List String → Option (List String)
  | [] => some place
  | component :: rest =>
    if !disk.isDirectory place then none
    else if component.isEmpty || component = "." then follow disk place rest
    else if component = ".." then
      if place.isEmpty then none else follow disk place.dropLast rest
    else follow disk (place ++ [component]) rest

/-- The place that a path leads to, whether or not a file is there. -/
def locate? (disk : Disk) (path : String) : Option String :=
  if isPath path then (disk.follow [] (components path)).map pathOf else none

def read? (disk : Disk) (path : String) : Option String :=
  (disk.locate? path).bind disk.files.get?

/-- Write a file where there is no directory. -/
def write? (disk : Disk) (path text : String) : Option Disk := do
  let place ← disk.locate? path
  if disk.isDirectory (components place) || place.isEmpty then none
  else some { disk with files := disk.files.insert place text }

end Disk

instance : HostFiles (StateM Disk) where
  isFile path := return ((← get).read? path).isSome
  read path := return (← get).read? path
  write path text := do
    match (← get).write? path text with
    | some disk =>
      set disk
      return true
    | none => return false

end StepShell
