/-!
# The fewest digits that read back

A finite positive double stands for the interval of the reals that round to it. Among the decimals
in that interval, `Decimal.ofBinary` selects one with the fewest digits, and of those the one
nearest to the double. All arithmetic is on exact fractions of natural numbers.
-/

namespace Rulebook

/-- The positive number `mantissa * 2 ^ exponent`. The flag `narrowBelow` says that the next
smaller double is only half as far away as the next larger one. -/
structure Binary where
  mantissa : Nat
  exponent : Int
  narrowBelow : Bool
  deriving Repr, DecidableEq

/-- The number `digits * 10 ^ exponent`. -/
structure Decimal where
  digits : Nat
  exponent : Int
  deriving Repr, DecidableEq

/-- Which of two equally near decimals is taken: the one with the even last digit or the larger. -/
inductive Tie where
  | toEven
  | up
  deriving Repr, DecidableEq

namespace Binary

/-- The value of the fraction and exponent fields of a finite double, its sign left out. -/
def ofBits (bits : UInt64) : Binary :=
  let fraction := (bits &&& 0xfffffffffffff).toNat
  let field := ((bits >>> 52) &&& 0x7ff).toNat
  if field = 0 then ⟨fraction, -1074, false⟩
  else ⟨fraction + 0x10000000000000, (field : Int) - 1075, fraction == 0 && decide (1 < field)⟩

/-- The numerator of the value as a fraction over `den`. -/
def num (b : Binary) : Nat := b.mantissa <<< b.exponent.toNat

/-- The denominator of the value. -/
def den (b : Binary) : Nat := 1 <<< (-b.exponent).toNat

/-- The lower end of the interval, as a numerator over `4 * den`. -/
def lowNum (b : Binary) : Nat :=
  (4 * b.mantissa - (if b.narrowBelow then 1 else 2)) <<< b.exponent.toNat

/-- The upper end of the interval, as a numerator over `4 * den`. -/
def highNum (b : Binary) : Nat := (4 * b.mantissa + 2) <<< b.exponent.toNat

/-- Whether the decimal rounds to the double. The ends of the interval belong to it when the
mantissa is even. -/
def readsBack (b : Binary) (d : Decimal) : Bool :=
  let scaled := d.digits * Nat.pow 10 d.exponent.toNat * (4 * b.den)
  let shift := Nat.pow 10 (-d.exponent).toNat
  let low := b.lowNum * shift
  let high := b.highNum * shift
  if b.mantissa % 2 = 0 then decide (low ≤ scaled ∧ scaled ≤ high)
  else decide (low < scaled ∧ scaled < high)

/-- The integral part of the value counted in units of `10 ^ e`. -/
def floorAt (b : Binary) (e : Int) : Nat :=
  b.num * Nat.pow 10 (-e).toNat / (b.den * Nat.pow 10 e.toNat)

/-- The exponent of the leading decimal digit of a value that is not zero. -/
def leading (b : Binary) : Int :=
  ((Nat.toDigits 10 (b.floorAt (-340))).length : Int) - 341

/-- How the value lies between `n` and `n + 1` units of `10 ^ e`: nearer to the lower one, nearer to
the upper one, or in the middle. -/
def middle (b : Binary) (n : Nat) (e : Int) : Ordering :=
  compare (2 * b.num * Nat.pow 10 (-e).toNat) ((2 * n + 1) * (b.den * Nat.pow 10 e.toNat))

end Binary

namespace Decimal

/-- The decimal without trailing zeros in its digits; `fuel` bounds the number of zeros dropped. -/
def strip (d : Decimal) : Nat → Decimal
  | 0 => d
  | fuel + 1 =>
    if d.digits ≠ 0 ∧ d.digits % 10 = 0 then strip ⟨d.digits / 10, d.exponent + 1⟩ fuel else d

/-- The neighbour of the value on the grid of multiples of `10 ^ e` that is nearer, among the two
given ones that read back. -/
def choose (b : Binary) (tie : Tie) (e : Int) : Option Decimal :=
  let n := b.floorAt e
  let below : Decimal := ⟨n, e⟩
  let above : Decimal := ⟨n + 1, e⟩
  match b.readsBack below, b.readsBack above with
  | false, false => none
  | true, false => some below
  | false, true => some above
  | true, true =>
    match b.middle n e, tie with
    | .lt, _ => some below
    | .gt, _ => some above
    | .eq, .up => some above
    | .eq, .toEven => if n % 2 = 0 then some below else some above

/-- The decimal with the fewest digits that reads back as the double. Seventeen digits always
suffice, so the exact value in the last case is never reached for a double. -/
def ofBinary (b : Binary) (tie : Tie) : Decimal :=
  let top := b.leading
  match (List.range 17).findSome? fun (k : Nat) => choose b tie (top - k) with
  | some d => d.strip 400
  | none => ⟨b.floorAt (top - 16), top - 16⟩

/-- The exponent of the leading digit. -/
def leading (d : Decimal) : Int :=
  d.exponent + ((Nat.toDigits 10 d.digits).length : Int) - 1

end Decimal
end Rulebook
