import StepShell.Command
import StepShell.Text.Hexadecimal

/-! The command that prints its arguments. -/

namespace StepShell.Command

namespace Echo

/-- The character of a number in octal, of which the lowest eight bits count. -/
def octal (digits : List Char) : Char :=
  Char.ofNat (digits.foldl (fun value c => (value * 8 + (c.toNat - '0'.toNat)) % 256) 0)

def isOctal (c : Char) : Bool :=
  '0' ≤ c && c ≤ '7'

def hexadecimal (digits : List Char) : Char :=
  Char.ofNat (digits.foldl (fun value c => value * 16 + (Text.hexValue? c).getD 0) 0)

/-- What a backslash and this character stand for. -/
def simpleEscape? (c : Char) : Option Char :=
  if c = 'n' then some '\n'
  else if c = 't' then some '\t'
  else if c = 'r' then some '\r'
  else if c = '\\' then some '\\'
  else if c = 'a' then some '\x07'
  else if c = 'b' then some '\x08'
  else if c = 'f' then some '\x0c'
  else if c = 'v' then some '\x0b'
  else none

/-- A text with its escapes interpreted; up to three octal digits follow `\0`, up to two hexadecimal
ones `\x`, and `\c` ends the text. -/
def interpret : List Char → List Char
  | [] => []
  | c :: rest =>
    if c = '\\' then
      match rest with
      | [] => ['\\']
      | escape :: rest =>
        if escape = '0' then
          let digits := (rest.take 3).takeWhile isOctal
          octal digits :: interpret (rest.drop digits.length)
        else if escape = 'x' then
          let digits := (rest.take 2).takeWhile fun c => (Text.hexValue? c).isSome
          hexadecimal digits :: interpret (rest.drop digits.length)
        else if escape = 'c' then []
        else
          match simpleEscape? escape with
          | some plain => plain :: interpret rest
          | none => '\\' :: escape :: interpret rest
    else c :: interpret rest
termination_by text => text.length
decreasing_by all_goals (simp only [List.length_cons, List.length_drop]; omega)

/-- The options at the front: whether escapes are interpreted, and the arguments left. -/
def options (escapes : Bool) : List String → Bool × List String
  | [] => (escapes, [])
  | arg :: rest =>
    if arg = "-n" then options escapes rest
    else if arg = "-e" then options true rest
    else if arg = "-E" then options false rest
    else (escapes, arg :: rest)

end Echo

/-- The arguments with spaces between them. The line is ended where it is printed. -/
def echo (args : List String) : Printed :=
  let (escapes, texts) := Echo.options false args
  let shown := if escapes
    then texts.map fun text => String.ofList (Echo.interpret text.toList) else texts
  .ok (" ".intercalate shown)

end StepShell.Command
