import StepShell.Command
import StepShell.Operator
import StepShell.Url.Parser

/-! Commands that download. Nothing leaves the sandbox: the operator supplies the contents. -/

namespace StepShell.Command

variable {ω : Type}

/-- Options that are followed by a value. -/
def takesValue (option : String) : Bool :=
  ["-o", "-O", "-X", "-d", "--data", "-H", "--header", "-P"].contains option

/-- The first argument that is neither an option nor the value of one. -/
def address? : List String → Option String
  | [] => none
  | [arg] => if arg.startsWith "-" then none else some arg
  | arg :: value :: rest =>
    if takesValue arg then address? rest
    else if arg.startsWith "-" then address? (value :: rest)
    else some arg

/-- Print the contents at an address. -/
def curl [Operator ω] : Command ω := fun args sandbox operator =>
  match address? args with
  | none => (.ok (.error "curl: no URL specified" 2), sandbox, operator)
  | some address =>
    match Url.parse? address with
    | none => (.ok (.error ("Invalid URL to curl: " ++ address) 3), sandbox, operator)
    | some url =>
      match Operator.fetch url.text operator with
      | (some contents, operator) => (.ok (.ok contents), sandbox, operator)
      | (none, operator) =>
        (.ok (.error ("curl: could not fetch " ++ url.text) 6), sandbox, operator)

/-- Save the contents at an address in a file named after the last segment of its path. -/
def wget [Operator ω] : Command ω := fun args sandbox operator =>
  match address? args with
  | none => (.ok (.error "wget: missing URL" 1), sandbox, operator)
  | some address =>
    match Url.parse? address with
    | none => (.ok (.error ("Invalid URL to wget: " ++ address) 1), sandbox, operator)
    | some url =>
      match Operator.fetch url.text operator with
      | (some contents, operator) =>
        let name := url.fileName?.getD "index.html"
        (.ok .nothing, sandbox.createFile name contents standardPermissions, operator)
      | (none, operator) =>
        (.ok (.error ("wget: unable to fetch " ++ url.text) 4), sandbox, operator)

end StepShell.Command
