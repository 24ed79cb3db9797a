/-! Addresses of things to download, taken apart, and their text. -/

namespace StepShell

/-- Who and where: the part of an address between the two slashes and the path. -/
structure Url.Authority where
  username : List Char
  password : List Char
  host : List Char
  /-- Nothing for the standard port of the scheme. -/
  port : Option Nat
  deriving DecidableEq, Repr

inductive Url.Path where
  /-- A path that is not made of segments. -/
  | opaquePath (text : List Char)
  | segments (names : List (List Char))
  deriving DecidableEq, Repr

/-- An address with all its parts in their encoded form. -/
structure Url where
  scheme : List Char
  authority : Option Url.Authority
  path : Url.Path
  query : Option (List Char)
  fragment : Option (List Char)
  deriving DecidableEq, Repr

namespace Url

/-- The standard port of the schemes that have a host. -/
def standardPort? (scheme : List Char) : Option Nat :=
  if scheme = "http".toList ∨ scheme = "ws".toList then some 80
  else if scheme = "https".toList ∨ scheme = "wss".toList then some 443
  else if scheme = "ftp".toList then some 21
  else none

def isFile (scheme : List Char) : Bool :=
  scheme == "file".toList

/-- Schemes whose addresses always have a host or, for files, may have one. -/
def isSpecial (scheme : List Char) : Bool :=
  (standardPort? scheme).isSome || isFile scheme

def Authority.chars (authority : Authority) : List Char :=
  authority.username ++ (if authority.password.isEmpty then [] else ':' :: authority.password) ++
    (if authority.username.isEmpty && authority.password.isEmpty then [] else ['@']) ++
    authority.host ++
    match authority.port with
    | some port => ':' :: Nat.toDigits 10 port
    | none => []

def Path.chars : Path → List Char
  | .opaquePath text => text
  | .segments names => names.flatMap ('/' :: ·)

/-- Without an authority, two slashes at the start of the path would be read as one. -/
def guard (url : Url) : List Char :=
  match url.authority, url.path with
  | none, .segments ([] :: _ :: _) => ['/', '.']
  | _, _ => []

private def marked (mark : Char) : Option (List Char) → List Char
  | some text => mark :: text
  | none => []

def chars (url : Url) : List Char :=
  url.scheme ++ ':' ::
    ((match url.authority with
      | some authority => '/' :: '/' :: authority.chars
      | none => []) ++
    url.guard ++ url.path.chars ++ marked '?' url.query ++ marked '#' url.fragment)

def text (url : Url) : String :=
  String.ofList url.chars

/-- The last segment of the path, if that is not empty. -/
def fileName? (url : Url) : Option String :=
  match url.path with
  | .segments names =>
    (names.getLast?.filter fun segment => !segment.isEmpty).map String.ofList
  | .opaquePath _ => none

end Url

end StepShell
