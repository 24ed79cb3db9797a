import StepShell.Command

/-! Commands on files: printing, removing, copying, moving, creating them and changing their
permissions. -/

namespace StepShell.Command

/-- The text without one newline at its end, which printing adds again. -/
def withoutNewline (text : String) : String :=
  if text.toList.getLast? = some '\n' then String.ofList text.toList.dropLast else text

/-- The outputs and errors of reading each file; a hyphen reads what the last command wrote. -/
def catFiles : List String → Sandbox → (String × String) × Sandbox
  | [], sandbox => (("", ""), sandbox)
  | file :: files, sandbox =>
    let (output, errors, sandbox) :=
      if file = "-" then
        let (text, io) := sandbox.io.read
        (text, "", { sandbox with io })
      else
        match sandbox.files.get? (sandbox.resolve file) with
        | some found => (found.text, "", sandbox)
        | none => ("", "cat: " ++ file ++ ": No such file or directory", sandbox)
    let ((outputs, laterErrors), sandbox) := catFiles files sandbox
    ((output ++ outputs, errors ++ laterErrors), sandbox)

/-- Print the files, or without any what the last command wrote. -/
def cat (args : List String) (sandbox : Sandbox) : Printed × Sandbox :=
  let files := match operands args with
    | [] => ["-"]
    | files => files
  let ((output, errors), sandbox) := catFiles files sandbox
  let output := withoutNewline output
  (if errors.isEmpty then .ok output else ⟨output, errors, 1⟩, sandbox)

/-- Remove each file; the root stands for all of them. Gives the errors. -/
def removeFiles : List String → Sandbox → List String × Sandbox
  | [], sandbox => ([], sandbox)
  | file :: files, sandbox =>
    if file = "/" then removeFiles files { sandbox with files := FileTable.empty }
    else
      let path := sandbox.resolve file
      if sandbox.files.contains path then
        removeFiles files { sandbox with files := sandbox.files.erase path }
      else
        let (errors, sandbox) := removeFiles files sandbox
        (("rm: cannot remove '" ++ file ++ "': No such file or directory") :: errors, sandbox)

def remove (args : List String) (sandbox : Sandbox) : Printed × Sandbox :=
  match operands args with
  | [] => (.error "rm: missing operand" 1, sandbox)
  | files =>
    let (errors, sandbox) := removeFiles files sandbox
    (if errors.isEmpty then .nothing else .error ("\n".intercalate errors) 1, sandbox)

/-- A missing file counts as an empty one. -/
def copy (args : List String) (sandbox : Sandbox) : Printed × Sandbox :=
  match operands args with
  | [path, target] =>
    (.nothing, { sandbox with
      files := sandbox.files.copy (sandbox.resolve path) (sandbox.resolve target) })
  | _ => (.error "cp: missing file operand" 1, sandbox)

/-- A missing file counts as an empty one. -/
def move (args : List String) (sandbox : Sandbox) : Printed × Sandbox :=
  match operands args with
  | [path, target] =>
    (.nothing, { sandbox with
      files := sandbox.files.rename (sandbox.resolve path) (sandbox.resolve target) })
  | _ => (.error "mv: missing file operand" 1, sandbox)

def touchFile (sandbox : Sandbox) (file : String) : Sandbox :=
  let path := sandbox.resolve file
  if sandbox.files.contains path then sandbox
  else { sandbox with files := sandbox.files.write path "" }

/-- Create the files that do not exist. -/
def touch (args : List String) (sandbox : Sandbox) : Printed × Sandbox :=
  match operands args with
  | [] => (.error "touch: missing file operand" 1, sandbox)
  | files => (.nothing, files.foldl touchFile sandbox)

/-- The file in a mode, which is `+x` or three octal digits. -/
def inMode? (mode : String) (file : File) : Option File :=
  if mode = "+x" then some file.makeExecutable
  else (File.octalPermissions? mode).map fun permissions => { file with permissions }

/-- Give each file the mode, one after another; a missing file is created without contents. Stops,
with `false`, after the first file that the mode cannot be given to. -/
def changeModes (mode : String) : List String → Sandbox → Bool × Sandbox
  | [], sandbox => (true, sandbox)
  | file :: files, sandbox =>
    let path := sandbox.resolve file
    let found := (sandbox.files.get? path).getD (File.placeholder path)
    match inMode? mode found with
    | some changed =>
      changeModes mode files { sandbox with files := sandbox.files.insert path changed }
    | none => (false, { sandbox with files := sandbox.files.insert path found })

def changeMode (args : List String) (sandbox : Sandbox) : Printed × Sandbox :=
  match args with
  | [] => (.error "chmod: missing operand" 1, sandbox)
  | [mode] => (.error ("chmod: missing operand after '" ++ mode ++ "'") 1, sandbox)
  | mode :: files =>
    match changeModes mode files sandbox with
    | (true, sandbox) => (.nothing, sandbox)
    | (false, sandbox) => (.error ("chmod: invalid mode: '" ++ mode ++ "'") 1, sandbox)

end StepShell.Command
