import StepShell.Url
import StepShell.Url.Host

/-! Reading an address that is complete in itself: the scheme and the name of the host in lower
case, the standard port left out, dot segments folded, and the rest percent-encoded. -/

namespace StepShell.Url

/-- Whether a character ends the authority or a segment of the path. -/
private def isSeparator (special : Bool) (c : Char) : Bool :=
  c == '/' || (special && c == '\\')

private def endsAuthority (special : Bool) (c : Char) : Bool :=
  isSeparator special c || c == '?' || c == '#'

private def isDot (segment : List Char) : Bool :=
  let lower := segment.map Char.toLower
  lower == ['.'] || lower == "%2e".toList

private def isDoubleDot (segment : List Char) : Bool :=
  let lower := segment.map Char.toLower
  lower == "..".toList || lower == ".%2e".toList || lower == "%2e.".toList ||
    lower == "%2e%2e".toList

/-- Tabs and line ends are left out wherever they stand. -/
private def isBreak (c : Char) : Bool :=
  c == '\t' || c == '\n' || c == '\r'

private def unbroken (text : List Char) : List Char :=
  text.filter fun c => !isBreak c

/-- A letter and a colon, or a bar in its place. -/
private def isDrive : List Char → Bool
  | [letter, mark] => letter.isAlpha && (mark == ':' || mark == '|')
  | _ => false

/-- Whether a segment is a drive, or goes on with a backslash after one. -/
private def startsWithDrive (segment : List Char) : Bool :=
  isDrive (segment.take 2) && (segment[2]?).all (· == '\\')

/-- Whether a break parts a drive with a colon from more of the same segment. -/
private def breaksAfterDrive (segment : List Char) : Bool :=
  match segment.dropWhile isBreak with
  | [] => false
  | letter :: rest =>
    match rest.dropWhile isBreak with
    | ':' :: next :: rest => letter.isAlpha && isBreak next && !rest.all isBreak
    | _ => false

/-- The segments of a path, as far as it has been read. -/
private structure Route where
  /-- The last segment first. -/
  names : List (List Char)
  /-- Whether the first of them is the drive of a file. -/
  onDrive : Bool

/-- Take back the last segment, if it is no drive. -/
private def shorten (names : List (List Char)) : List (List Char) :=
  if names.head?.any startsWithDrive then names else names.tail

/-- Add a segment to those before it, or fold it with them if it is dots. The drive that the path of
a file begins with has a colon, and a break ends it as a slash does. -/
private def Route.add (file last : Bool) (route : Route) (segment : List Char) : Route :=
  let name := unbroken segment
  let closing : List (List Char) := if last then [[]] else []
  let first := file && route.names.isEmpty
  if isDoubleDot name then { route with names := closing ++ shorten route.names }
  else if isDot name then { route with names := closing ++ route.names }
  else if first && isDrive name then ⟨[name.take 1 ++ [':']], true⟩
  else if first && breaksAfterDrive segment then
    { route with names := [percentEncode encodedInPath (name.drop 2), name.take 2] }
  else { route with names := percentEncode encodedInPath name :: route.names }

private def Route.addAll (file : Bool) (route : Route) : List (List Char) → Route
  | [] => route
  | segment :: rest => (route.add file rest.isEmpty segment).addAll file rest

/-- The route that the text of a path describes. -/
private def Route.ofText (file special : Bool) (text : List Char) : Route :=
  (⟨[], false⟩ : Route).addAll file (Text.cutAt (isSeparator special) text)

/-- The text of a path without its first slash. -/
private def unrooted (special : Bool) : List Char → List Char
  | [] => []
  | c :: rest => if isSeparator special c then rest else c :: rest

/-- The segments that the text of a path is made of. -/
private def segments (special : Bool) (text : List Char) : List (List Char) :=
  (Route.ofText false special text).names.reverse

/-- The part of a text that stands before a query or a fragment. -/
private def beforeQuery (text : List Char) : List Char :=
  text.takeWhile fun c => c != '?' && c != '#'

/-- The address whose query and fragment stand in the text that follows the scheme and the
authority. -/
private def finish (scheme : List Char) (authority : Option Authority) (path : Path)
    (text : List Char) : Url :=
  let beforeFragment := text.takeWhile (· != '#')
  let afterQuery := beforeFragment.dropWhile (· != '?')
  { scheme
    authority
    path
    query := if afterQuery.isEmpty then none
      else some (percentEncode (encodedInQuery (isSpecial scheme)) (unbroken (afterQuery.drop 1)))
    fragment := if beforeFragment.length = text.length then none
      else some (percentEncode encodedInFragment
        (unbroken (text.drop (beforeFragment.length + 1)))) }

/-- The path after an authority: it has a segment at least where the scheme has hosts. -/
private def pathAfterAuthority (scheme text : List Char) : Path :=
  let special := isSpecial scheme
  let path := beforeQuery text
  .segments (if path.isEmpty && !special then [] else segments special (unrooted special path))

/-- What stands before the last at sign, and after it. -/
private def splitUserinfo (text : List Char) : Option (List Char) × List Char :=
  if text.contains '@' then
    let after := (text.reverse.takeWhile (· != '@')).reverse
    (some (text.take (text.length - after.length - 1)), after)
  else (none, text)

/-- The host and what follows it; a colon between brackets belongs to it. -/
private def splitHost (inside : Bool) : List Char → List Char × List Char
  | [] => ([], [])
  | c :: rest =>
    if c = ':' && !inside then ([], c :: rest)
    else
      let (host, after) := splitHost (c == '[' || (inside && c != ']')) rest
      (c :: host, after)

/-- A port of at most sixteen bits; the standard one counts as none. -/
private def port? (scheme text : List Char) : Option (Option Nat) :=
  match text with
  | [] => some none
  | _ :: digits =>
    if digits.all Char.isDigit then
      let value := digits.foldl (fun value c => value * 10 + (c.toNat - '0'.toNat)) 0
      if 65535 < value then none
      else if digits.isEmpty || standardPort? scheme = some value then some none
      else some (some value)
    else none

/-- The authority, and what follows a port up to a backslash. `ends` says whether the address ends
with it: then nothing need stand after an at sign. -/
private def authority? (scheme : List Char) (ends : Bool) (text : List Char) :
    Option (Authority × List Char) := do
  let special := isSpecial scheme
  let (userinfo, place) := splitUserinfo text
  let given := userinfo.getD []
  let username := given.takeWhile (· != ':')
  let password := given.drop (username.length + 1)
  let (hostText, afterHost) := splitHost false place
  let host ← if special then name? hostText else opaqueHost? hostText
  let portText := afterHost.takeWhile (· != '\\')
  let port ← port? scheme portText
  let bare := username.isEmpty && password.isEmpty && portText.isEmpty &&
    (ends || userinfo != some [])
  if host.isEmpty && !bare then none
  else
    some (⟨percentEncode encodedInUserinfo username, percentEncode encodedInUserinfo password,
      host, port⟩, afterHost.drop portText.length)

private def withAuthority? (scheme text : List Char) : Option Url := do
  let isEnd := endsAuthority (isSpecial scheme)
  let after := text.dropWhile fun c => !isEnd c
  let (authority, rest) ← authority? scheme after.isEmpty (text.takeWhile fun c => !isEnd c)
  let text := rest ++ after
  some (finish scheme (some authority) (pathAfterAuthority scheme text) text)

/-- A file on a host; the host is not named if the path begins with a drive, and the path does not
begin with empty segments. -/
private def fileOn (host path text : List Char) : Url :=
  let route := Route.ofText true true path
  let names := match route.names.reverse.dropWhile List.isEmpty with
    | [] => [[]]
    | kept => kept
  finish "file".toList (some ⟨[], [], if route.onDrive then [] else host, none⟩) (.segments names)
    text

/-- A file on a host, if one is named that is not this one. After two slashes and no name the path
begins with the slash before it: a drive behind that is not the first segment. -/
private def file? (text : List Char) : Option Url :=
  let direct (text : List Char) := fileOn [] (beforeQuery text) text
  match text.dropWhile isBreak with
  | [] => some (direct [])
  | first :: after =>
    if isSeparator true first then
      match after.dropWhile isBreak with
      | [] => some (direct [])
      | second :: rest =>
        if isSeparator true second then
          let place := rest.takeWhile fun c => !endsAuthority true c
          let text := rest.drop place.length
          let host := unbroken place
          if host.isEmpty then some (direct text)
          else if isDrive host then some (direct rest)
          else do
            let name ← name? host
            if name = "localhost".toList then some (direct text)
            else some (fileOn name (unrooted true (beforeQuery text)) text)
        else some (direct after)
    else some (direct (first :: after))

/-- A scheme in lower case, and what follows its colon. -/
private def scheme? (text : List Char) : Option (List Char × List Char) :=
  let before := text.takeWhile fun c =>
    c.isAlphanum || c == '+' || c == '-' || c == '.' || isBreak c
  let scheme := unbroken before
  match scheme, text.drop before.length with
  | first :: _, ':' :: rest =>
    if first.isAlpha then some (scheme.map Char.toLower, rest) else none
  | _, _ => none

/-- The text without controls and spaces at its ends. -/
private def trimmed (text : List Char) : List Char :=
  let outer (c : Char) := c.toNat ≤ 0x20
  Text.dropEndWhile outer (text.dropWhile outer)

/-- The address that a text stands for; `none` if it is none, or has no scheme. -/
def parse? (text : String) : Option Url := do
  let (scheme, rest) ← scheme? (trimmed text.toList)
  if isFile scheme then file? rest
  else
    let rest := unbroken rest
    if isSpecial scheme then withAuthority? scheme (rest.dropWhile (isSeparator true))
    else
      match rest with
      | '/' :: '/' :: rest => withAuthority? scheme rest
      | '/' :: _ => some (finish scheme none (pathAfterAuthority scheme rest) rest)
      | _ => some (finish scheme none (.opaquePath (percentEncode isControl (beforeQuery rest))) rest)

end StepShell.Url
