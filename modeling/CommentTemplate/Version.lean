import CommentTemplate.Text.Basic

/-!
# Semantic versions

A version is `major.minor.patch`, then optionally a hyphen with pre-release identifiers and a plus
sign with build identifiers.  Numbers have no leading zeros and fit 64 bits.  Identifiers are
separated by dots and made of ASCII letters, digits and hyphens; numeric identifiers of a
pre-release have no leading zeros either.

## Main definitions

* `Version.parse?` — the version that a text denotes
* `Version.compatible` — whether two versions agree in their first two numbers
-/

namespace CommentTemplate

/-- The numbers of a semantic version. -/
structure Version where
  (major minor patch : Nat)
deriving DecidableEq, Repr

namespace Version

/-- A text cut at every dot. -/
def splitDots : Text → List Text
  | [] => [[]]
  | c :: t =>
    if c = '.' then [] :: splitDots t
    else
      match splitDots t with
      | [] => [[c]]
      | p :: ps => (c :: p) :: ps

/-- A text of digits without a leading zero. -/
def isNumeral (t : Text) : Bool :=
  t ≠ [] && t.all Char.isDigit && (t.head? ≠ some '0' || t.length = 1)

/-- The number written by a numeral, if it fits 64 bits. -/
def number? (t : Text) : Option Nat :=
  if isNumeral t then
    let n := t.foldl (fun n d => 10 * n + (d.toNat - '0'.toNat)) 0
    if n < Nat.pow 2 64 then some n else none
  else none

/-- Whether a text is an identifier. -/
def isIdentifier (t : Text) : Bool := t ≠ [] && t.all fun c => c.isAlphanum || c = '-'

/-- Whether a text is an identifier of a pre-release. -/
def isPreRelease (t : Text) : Bool := isIdentifier t && (!t.all Char.isDigit || isNumeral t)

/-- The version that a text denotes. -/
def parse? (t : Text) : Option Version :=
  let (front, build) := (t.takeWhile (· ≠ '+'), (t.dropWhile (· ≠ '+')).drop 1)
  let (core, pre) := (front.takeWhile (· ≠ '-'), (front.dropWhile (· ≠ '-')).drop 1)
  let hasBuild := t.contains '+'
  let hasPre := front.contains '-'
  match splitDots core with
  | [major, minor, patch] => do
    let version := Version.mk (← number? major) (← number? minor) (← number? patch)
    if (hasPre → (splitDots pre).all isPreRelease) ∧
        (hasBuild → (splitDots build).all isIdentifier) then
      some version
    else none
  | _ => none

/-- Whether two versions agree in major and minor. -/
def compatible (v w : Version) : Bool := v.major = w.major && v.minor = w.minor

end Version

end CommentTemplate
