import CommentTemplate.Json.Fault

/-!
# Reading words, strings and numbers

The parts of a document that hold no other values.

## Design decisions

**A reader answers a value and the rest.**  `Reader α` is a function from the text in front of it
to a value and what is left, or to a fault.

**Numbers keep sixty-four bits of digits.**  A number without fraction and exponent that fits 64
bits is an integer.  Otherwise the leading digits that fit an unsigned 64-bit integer form the
significand; further digits of the integer part count towards the exponent and further digits of
the fraction are dropped.  The significand is then multiplied or divided once by a power of ten in
binary64 arithmetic, so a number of many digits may differ from its nearest binary64 neighbour.
-/

namespace CommentTemplate.Json

/-- A reader of values of a type from the front of a text. -/
abbrev Reader (α : Type) := Text → Except Fault (α × Text)

/-- A blank between tokens. -/
def isSpace (c : Char) : Bool := c = ' ' || c = '\n' || c = '\t' || c = '\r'

/-- The text from its next token on. -/
def skipSpace (s : Text) : Text := s.dropWhile isSpace

/-! ## Words -/

/-- The rest of a word, exactly. -/
def word : Text → Text → Except Fault Text
  | [], s => .ok s
  | _ :: _, [] => .error (.before .endInValue [])
  | w :: ws, c :: s => if c = w then word ws s else .error (.after .badWord (c :: s))

/-! ## Strings -/

/-- The value of a hexadecimal digit. -/
def hexValue? (c : Char) : Option Nat :=
  if '0' ≤ c ∧ c ≤ '9' then some (c.toNat - '0'.toNat)
  else if 'a' ≤ c ∧ c ≤ 'f' then some (c.toNat - 'a'.toNat + 10)
  else if 'A' ≤ c ∧ c ≤ 'F' then some (c.toNat - 'A'.toNat + 10)
  else none

/-- The number written by hexadecimal digits. -/
def hexNumber? (digits : Text) : Option Nat :=
  digits.foldl (fun n? c => do return 16 * (← n?) + (← hexValue? c)) (some 0)

/-- Four hexadecimal digits. -/
def hexEscape (s : Text) : Except Fault (Nat × Text) :=
  if Text.utf8Size (s.take 4) < 4 then .error ⟨.endInString, 0⟩
  else
    match hexNumber? (s.take 4) with
    | some n => .ok (n, s.drop 4)
    | none => .error ⟨.badEscape, Text.utf8Size s - 4⟩

/-- Whether a number is a leading surrogate. -/
def isLeadingSurrogate (n : Nat) : Bool := 0xD800 ≤ n && n ≤ 0xDBFF

/-- Whether a number is a trailing surrogate. -/
def isTrailingSurrogate (n : Nat) : Bool := 0xDC00 ≤ n && n ≤ 0xDFFF

/-- The second half of a pair of escaped surrogates, after the first half `lead`. -/
def trailingSurrogate (lead : Nat) : Text → Except Fault (Char × Text)
  | [] => .error ⟨.endInString, 0⟩
  | c :: s =>
    if c ≠ '\\' then .error (.after .brokenSurrogate (c :: s))
    else
      match s with
      | [] => .error ⟨.endInString, 0⟩
      | d :: s =>
        if d ≠ 'u' then .error (.after .brokenSurrogate (d :: s))
        else do
          let (trail, s) ← hexEscape s
          if isTrailingSurrogate trail then
            return (Char.ofNat (0x10000 + (lead - 0xD800) * 0x400 + (trail - 0xDC00)), s)
          else throw (.before .loneSurrogate s)

/-- A character escaped by its code units. -/
def unicodeEscape (s : Text) : Except Fault (Char × Text) := do
  let (n, s) ← hexEscape s
  if isTrailingSurrogate n then throw (.before .loneSurrogate s)
  else if isLeadingSurrogate n then trailingSurrogate n s
  else return (Char.ofNat n, s)

/-- The character that a one-letter escape stands for. -/
def letterEscape? (c : Char) : Option Char :=
  if c = '"' || c = '\\' || c = '/' then some c
  else if c = 'b' then some '\x08'
  else if c = 'f' then some '\x0c'
  else if c = 'n' then some '\n'
  else if c = 'r' then some '\r'
  else if c = 't' then some '\t'
  else none

/-- An escape, after its backslash. -/
def escapedChar : Text → Except Fault (Char × Text)
  | [] => .error ⟨.endInString, 0⟩
  | c :: s =>
    match letterEscape? c with
    | some d => .ok (d, s)
    | none => if c = 'u' then unicodeEscape s else .error (.after .badEscape (c :: s))

theorem hexEscape_le {s rest : Text} {n : Nat} (h : hexEscape s = .ok (n, rest)) :
    rest.length ≤ s.length := by
  unfold hexEscape at h
  split at h
  · simp at h
  · split at h
    · simp only [Except.ok.injEq, Prod.mk.injEq] at h
      obtain ⟨-, rfl⟩ := h
      simp
    · simp at h

theorem trailingSurrogate_le {lead : Nat} {s rest : Text} {c : Char}
    (h : trailingSurrogate lead s = .ok (c, rest)) : rest.length ≤ s.length := by
  unfold trailingSurrogate at h
  split at h
  · simp at h
  · split at h
    · simp at h
    · split at h
      · simp at h
      · split at h
        · simp at h
        · next s _ =>
          cases hx : hexEscape s with
          | error f => simp [hx, bind, Except.bind] at h
          | ok r =>
            obtain ⟨n, s'⟩ := r
            have := hexEscape_le hx
            simp only [hx, bind, Except.bind, pure, Except.pure, throw, throwThe,
              MonadExceptOf.throw] at h
            split at h
            · simp only [Except.ok.injEq, Prod.mk.injEq] at h
              obtain ⟨-, rfl⟩ := h
              simp only [List.length_cons]
              omega
            · simp at h

theorem unicodeEscape_le {s rest : Text} {c : Char} (h : unicodeEscape s = .ok (c, rest)) :
    rest.length ≤ s.length := by
  unfold unicodeEscape at h
  cases hx : hexEscape s with
  | error f => simp [hx, bind, Except.bind] at h
  | ok r =>
    obtain ⟨n, s'⟩ := r
    have := hexEscape_le hx
    simp only [hx, bind, Except.bind, pure, Except.pure, throw, throwThe,
      MonadExceptOf.throw] at h
    split at h
    · simp at h
    · split at h
      · exact Nat.le_trans (trailingSurrogate_le h) this
      · simp only [Except.ok.injEq, Prod.mk.injEq] at h
        obtain ⟨-, rfl⟩ := h
        exact this

/-- Reading an escape leaves no more than was there. -/
theorem escapedChar_le {s rest : Text} {c : Char} (h : escapedChar s = .ok (c, rest)) :
    rest.length ≤ s.length := by
  unfold escapedChar at h
  split at h
  · simp at h
  · split at h
    · simp only [Except.ok.injEq, Prod.mk.injEq] at h
      obtain ⟨-, rfl⟩ := h
      simp
    · split at h
      · exact Nat.le_trans (unicodeEscape_le h) (by simp)
      · simp at h

/-- A string, after its opening quote. -/
def stringBody (s : Text) : Except Fault (Text × Text) :=
  match s with
  | [] => .error ⟨.endInString, 0⟩
  | c :: s =>
    if c = '"' then .ok ([], s)
    else if c = '\\' then
      match h : escapedChar s with
      | .error f => .error f
      | .ok (d, rest) =>
        have : rest.length ≤ s.length := escapedChar_le h
        (stringBody rest).map fun r => (d :: r.1, r.2)
    else if c.toNat < 0x20 then .error (.before .controlCharacter s)
    else (stringBody s).map fun r => (c :: r.1, r.2)
termination_by s.length

/-! ## Numbers -/

/-- The largest unsigned 64-bit integer. -/
def maxWord : Nat := Nat.pow 2 64 - 1

/-- Digits appended to a number as long as it stays within a bound: the number, and how many
digits were left over. -/
def absorb (bound : Nat) : Nat → Text → Nat × Nat
  | n, [] => (n, 0)
  | n, d :: ds =>
    let m := 10 * n + (d.toNat - '0'.toNat)
    if m ≤ bound then absorb bound m ds else (n, (d :: ds).length)

/-- The power of ten with exponent `n`, rounded to binary64. -/
def powerOfTen (n : Nat) : Float := Float.ofScientific 1 false n

/-- The binary64 number near `x · 10^e`, computed with one rounding per power of ten of at most
308 digits; none if it is too large. -/
def scaleFloat (x : Float) (e : Int) : Option Float :=
  if e.natAbs ≤ 308 then
    if 0 ≤ e then
      let y := x * powerOfTen e.natAbs
      if y.isInf then none else some y
    else some (x / powerOfTen e.natAbs)
  else if x == 0.0 then some x
  else if 0 ≤ e then none
  else scaleFloat (x / powerOfTen 308) (e + 308)
termination_by e.natAbs

/-- The floating-point number with a sign, significand and exponent. -/
def floatNumber (negative : Bool) (significand : Nat) (e : Int) (rest : Text) :
    Except Fault (Number × Text) :=
  match scaleFloat significand.toUInt64.toFloat e with
  | none => .error (.before .hugeNumber rest)
  | some x => .ok (.float (if negative then -x else x).toBits, rest)

/-- The exponent of a number, after its `e`, given the significand and the exponent so far. -/
def exponentPart (negative : Bool) (significand : Nat) (e : Int) (s : Text) :
    Except Fault (Number × Text) :=
  let (down, s) := match s with
    | '+' :: t => (false, t)
    | '-' :: t => (true, t)
    | t => (false, t)
  let digits := s.takeWhile Char.isDigit
  let rest := s.dropWhile Char.isDigit
  match s with
  | [] => .error (.before .endInValue [])
  | _ =>
    if digits = [] then .error (.after .badNumber s)
    else
      let (n, left) := absorb (Nat.pow 2 31 - 1) 0 digits
      if left = 0 then floatNumber negative significand (if down then e - n else e + n) rest
      else if significand ≠ 0 ∧ !down then .error ⟨.hugeNumber, Text.utf8Size rest + left - 1⟩
      else .ok (.float (if negative then -0.0 else 0.0 : Float).toBits, rest)

/-- The fraction of a number, after its point, given the significand and exponent of the integer
part. -/
def fractionPart (negative : Bool) (significand : Nat) (e : Int) (s : Text) :
    Except Fault (Number × Text) :=
  let digits := s.takeWhile Char.isDigit
  let rest := s.dropWhile Char.isDigit
  if digits = [] then
    match s with
    | [] => .error (.before .endInValue [])
    | _ => .error (.after .badNumber s)
  else
    let (n, left) := absorb maxWord significand digits
    let e := e - (digits.length - left : Nat)
    match rest with
    | 'e' :: t | 'E' :: t => exponentPart negative n e t
    | _ => floatNumber negative n e rest

/-- What follows the integer part of a number: of its digits, `left` did not fit the
significand. -/
def afterInteger (negative : Bool) (significand left : Nat) (s : Text) :
    Except Fault (Number × Text) :=
  match s with
  | '.' :: t => fractionPart negative significand left t
  | 'e' :: t | 'E' :: t => exponentPart negative significand left t
  | _ =>
    if left ≠ 0 then floatNumber negative significand left s
    else if !negative then .ok (.integer significand, s)
    else if significand = 0 ∨ Nat.pow 2 63 < significand then
      .ok (.float (-significand.toUInt64.toFloat).toBits, s)
    else .ok (.integer (-significand), s)

/-- A number, after its sign. -/
def number (negative : Bool) (s : Text) : Except Fault (Number × Text) :=
  match s with
  | [] => .error (.before .endInValue [])
  | '0' :: t =>
    match t with
    | d :: _ => if d.isDigit then .error (.after .badNumber t) else afterInteger negative 0 0 t
    | [] => afterInteger negative 0 0 t
  | c :: _ =>
    if c.isDigit then
      let (n, left) := absorb maxWord 0 (s.takeWhile Char.isDigit)
      afterInteger negative n left (s.dropWhile Char.isDigit)
    else .error (.after .badNumber s)

/-! ## Scalars -/

/-- The scalar at the front of a text; an opening bracket is seen and left where it is. -/
def scalar : Reader Seen
  | [] => .error (.before .endInValue [])
  | 'n' :: s => (word "ull".toList s).map fun s => (.null, s)
  | 't' :: s => (word "rue".toList s).map fun s => (.bool true, s)
  | 'f' :: s => (word "alse".toList s).map fun s => (.bool false, s)
  | '"' :: s => (stringBody s).map fun r => (.string r.1, r.2)
  | '-' :: s => (number true s).map fun r => (.number r.1, r.2)
  | '[' :: s => .ok (.array, '[' :: s)
  | '{' :: s => .ok (.object, '{' :: s)
  | c :: s =>
    if c.isDigit then (number false (c :: s)).map fun r => (.number r.1, r.2)
    else .error (.after .noValue (c :: s))

/-- A scalar of an expected type. -/
def expecting {α : Type} (expected : Text) (f : Seen → Option α) : Reader α := fun s => do
  let (seen, s) ← scalar (skipSpace s)
  match f seen with
  | some a => return (a, s)
  | none => throw (.before (.wrongType seen expected) s)

/-- A truth value. -/
def bool : Reader Bool :=
  expecting "a boolean".toList fun
    | .bool b => some b
    | _ => none

/-- A string. -/
def string : Reader Text :=
  expecting "a string".toList fun
    | .string s => some s
    | _ => none

/-- An unsigned 64-bit integer. -/
def natural : Reader Nat := fun s => do
  let (n, s) ← expecting "usize".toList (fun
    | .number (.integer n) => some n
    | _ => none) s
  if n < 0 then throw (.before (.wrongValue (.number (.integer n)) "usize".toList) s)
  else return (n.toNat, s)

end CommentTemplate.Json
