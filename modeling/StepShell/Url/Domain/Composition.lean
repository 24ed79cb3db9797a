import StepShell.Url.Domain.Characters

/-! The composed form of a text: its characters are taken apart, marks are brought into the order of
their combining classes, and what can be composed again is composed. -/

namespace StepShell.Url.Domain

/-- Zero for a character that starts a group; marks of the same class keep their order. -/
def combiningClass (c : Char) : Nat :=
  if c.toNat < 0x300 then 0
  else ((combiningClasses.find? fun entry => entry.2.contains c).map Prod.fst).getD 0

/-! Korean syllables are composed of a leading consonant, a vowel and perhaps a trailing one. -/

def leadingBase : Nat := 0x1100

def vowelBase : Nat := 0x1161

def trailingBase : Nat := 0x11A7

def syllableBase : Nat := 0xAC00

def syllableCount : Nat := 19 * 21 * 28

/-- The parts of a syllable. -/
def syllableParts (c : Char) : List Char :=
  let place := c.toNat - syllableBase
  let start := [Char.ofNat (leadingBase + place / (21 * 28)),
    Char.ofNat (vowelBase + place / 28 % 21)]
  if place % 28 = 0 then start else start ++ [Char.ofNat (trailingBase + place % 28)]

/-- The syllable of two parts, of which the first may be a syllable without a trailing consonant. -/
def syllable? (first second : Char) : Option Char :=
  let leading := first.toNat - leadingBase
  let vowel := second.toNat - vowelBase
  let place := first.toNat - syllableBase
  let trailing := second.toNat - trailingBase
  if leadingBase ≤ first.toNat ∧ leading < 19 ∧ vowelBase ≤ second.toNat ∧ vowel < 21 then
    some (Char.ofNat (syllableBase + (leading * 21 + vowel) * 28))
  else if syllableBase ≤ first.toNat ∧ place < syllableCount ∧ place % 28 = 0 ∧
      trailingBase < second.toNat ∧ trailing < 28 then
    some (Char.ofNat (first.toNat + trailing))
  else none

/-- A character taken apart, and its parts in turn so many times. -/
def takeApart : Nat → Char → List Char
  | 0, c => [c]
  | depth + 1, c =>
    if c.toNat < 0xC0 then [c]
    else if syllableBase ≤ c.toNat ∧ c.toNat < syllableBase + syllableCount then syllableParts c
    else
      match compositions.values? c with
      | some parts => parts.flatMap (takeApart depth)
      | none => [c]

/-- How often a character and its parts can be taken apart. -/
def maxDepth : Nat := 4

/-- Put a character before a text whose marks are in order: it goes behind the marks of the classes
below its own. -/
def insertMark (c : Char) : List Char → List Char
  | [] => [c]
  | next :: rest =>
    if 0 < combiningClass next ∧ combiningClass next < combiningClass c then
      next :: insertMark c rest
    else c :: next :: rest

/-- Bring the marks of each group into the order of their classes. -/
def orderMarks (text : List Char) : List Char :=
  text.foldr insertMark []

/-- Compose a starting character with what follows; `passed` are the marks since then that do not
compose with it, the last one first. Of two marks of one class the later one is kept apart, and no
character below U+0300 composes with the one before it. -/
def composeFrom (start : Char) (passed : List Char) : List Char → List Char
  | [] => start :: passed.reverse
  | c :: rest =>
    let reached := 0x300 ≤ c.toNat &&
      passed.head?.all fun last => combiningClass last < combiningClass c
    match if reached then (syllable? start c).or (compositions.pair? start c) else none with
    | some composed => composeFrom composed passed rest
    | none =>
      if combiningClass c = 0 then start :: passed.reverse ++ composeFrom c [] rest
      else composeFrom start (c :: passed) rest

/-- The composed form of a text. -/
def compose (text : List Char) : List Char :=
  let ordered := orderMarks (text.flatMap (takeApart maxDepth))
  let isMark (c : Char) := combiningClass c != 0
  match ordered.dropWhile isMark with
  | [] => ordered
  | start :: rest => ordered.takeWhile isMark ++ composeFrom start [] rest

end StepShell.Url.Domain
