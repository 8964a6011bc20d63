import CommentTemplate.Text.Basic

/-!
# The shortest decimal of a floating-point number

A finite binary64 number is `m · 2^e` for integers `m` and `e`.  The real numbers that round to it
form an interval around it, whose ends belong to it exactly when `m` is even.  The shortest
decimal of the number is the point of the interval on the coarsest grid `10^k · ℤ` that meets the
interval: the point nearest to the number, and of two equally near ones the one with an even last
digit.

## Main definitions

* `Binary64.ofBits` — the number that a bit pattern stands for
* `Binary64.shortest` — the shortest decimal of a positive number
* `Binary64.text` — the decimal notation of a bit pattern
-/

namespace CommentTemplate.Decimal

/-- A decimal number `digits · 10^exponent`. -/
structure Scaled where
  /-- The significant digits as an integer. -/
  digits : Nat
  /-- The power of ten that they are multiplied by. -/
  exponent : Int
deriving DecidableEq, Repr

/-- A finite binary64 number `± mantissa · 2^exponent`. -/
structure Binary64 where
  /-- Whether the sign bit is set. -/
  negative : Bool
  /-- The integer significand. -/
  mantissa : Nat
  /-- The power of two that it is multiplied by. -/
  exponent : Int
  /-- Whether the next number below is only half as far away as the next one above. -/
  closeBelow : Bool
deriving DecidableEq, Repr

namespace Binary64

/-- The number with a given bit pattern, taken as finite. -/
def ofBits (bits : UInt64) : Binary64 :=
  let n : Nat := bits.toNat
  let fraction : Nat := n % Nat.pow 2 52
  let biased : Nat := n / Nat.pow 2 52 % Nat.pow 2 11
  { negative := n / Nat.pow 2 63 = 1
    mantissa := if biased = 0 then fraction else Nat.pow 2 52 + fraction
    exponent := if biased = 0 then -1074 else (biased : Int) - 1075
    closeBelow := fraction = 0 && biased > 1 }

/-- The interval of numbers that round to `x`, as numerators over a common denominator: lower
end, number, upper end, denominator. -/
def interval (x : Binary64) : Nat × Nat × Nat × Nat :=
  let low := 4 * x.mantissa - (if x.closeBelow then 1 else 2)
  let mid := 4 * x.mantissa
  let high := 4 * x.mantissa + 2
  let e := x.exponent - 2
  let up := Nat.pow 2 e.toNat
  (low * up, mid * up, high * up, Nat.pow 2 (-e).toNat)

/-- The nearest point of the grid `10^k · ℤ` that rounds to `x`, if there is one. -/
def onGrid (x : Binary64) (k : Int) : Option Nat :=
  let (low, mid, high, den) := x.interval
  let up := Nat.pow 10 (-k).toNat
  let step := Nat.pow 10 k.toNat * den
  let (low, mid, high) := (low * up, mid * up, high * up)
  let inside (p : Nat) : Bool :=
    (low < p * step || (low = p * step && x.mantissa % 2 = 0)) &&
      (p * step < high || (p * step = high && x.mantissa % 2 = 0))
  let below := mid / step
  let above := below + 1
  match inside below, inside above with
  | true, true =>
    let (left, right) := (mid - below * step, above * step - mid)
    some (if left < right || (left = right && below % 2 = 0) then below else above)
  | true, false => some below
  | false, true => some above
  | false, false => none

/-- The first of the grids `10^k`, `10^(k-1)`, … with a point that rounds to `x`. -/
def search (x : Binary64) : Nat → Int → Scaled
  | 0, k => ⟨0, k⟩
  | fuel + 1, k =>
    match x.onGrid k with
    | some d => ⟨d, k⟩
    | none => search x fuel (k - 1)

/-- The shortest decimal of a positive number.  The search starts on a grid that is too coarse,
and seventeen significant digits always suffice. -/
def shortest (x : Binary64) : Scaled :=
  let (_, mid, _, den) := x.interval
  let length (n : Nat) : Int := (Text.ofNat n).length
  search x 24 (length mid - length den + 2)

end Binary64

/-! ## Notation -/

/-- The positional notation of `d · 10^k`, with at least one digit on either side of the point. -/
def Scaled.positional (s : Scaled) : Text :=
  let digits := Text.ofNat s.digits
  let point := (digits.length : Int) + s.exponent
  if 0 ≤ s.exponent then digits ++ List.replicate s.exponent.toNat '0' ++ ['.', '0']
  else if 0 < point then digits.take point.toNat ++ '.' :: digits.drop point.toNat
  else ['0', '.'] ++ List.replicate (-point).toNat '0' ++ digits

/-- The scientific notation of `d · 10^k`: one digit before the point, no point after a lone
digit, and a signed exponent. -/
def Scaled.scientific (s : Scaled) : Text :=
  let digits := Text.ofNat s.digits
  let power := (digits.length : Int) + s.exponent - 1
  let mantissa := match digits with
    | [d] => [d]
    | d :: ds => d :: '.' :: ds
    | [] => []
  mantissa ++ 'e' :: (if power < 0 then '-' else '+') :: Text.ofNat power.natAbs

/-- The decimal notation of a number: positional from `1e-5` on and below `1e16`, otherwise
scientific. -/
def Binary64.text (bits : UInt64) : Text :=
  let x := ofBits bits
  let sign := if x.negative then ['-'] else []
  if x.mantissa = 0 then sign ++ ['0', '.', '0']
  else
    let s := x.shortest
    let point := ((Text.ofNat s.digits).length : Int) + s.exponent
    sign ++ if -5 < point ∧ point ≤ 16 then s.positional else s.scientific

end CommentTemplate.Decimal
