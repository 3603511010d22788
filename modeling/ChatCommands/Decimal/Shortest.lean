import ChatCommands.Text.Digits

/-!
# Decimal text of a binary fraction

A double is a number m · 2^q, and every real number in an interval around it rounds to it; the ends
of the interval belong to it exactly when m is even. The decimal shown for it is the one with the
fewest digits in that interval, and among those the nearest to the double. All arithmetic is exact.
-/

namespace ChatCommands

namespace Decimal

/-! ## Fractions -/

/-- A positive fraction of natural numbers. -/
structure Ratio where
  num : Nat
  den : Nat

/-- The fraction m · 2^q. -/
def Ratio.ofBinary (m : Nat) (q : Int) : Ratio :=
  if 0 ≤ q then ⟨m * Nat.pow 2 q.toNat, 1⟩ else ⟨m, Nat.pow 2 (-q).toNat⟩

/-- The fraction m · 10^e. -/
def Ratio.ofDecimal (m : Nat) (e : Int) : Ratio :=
  if 0 ≤ e then ⟨m * Nat.pow 10 e.toNat, 1⟩ else ⟨m, Nat.pow 10 (-e).toNat⟩

def Ratio.below (a b : Ratio) : Bool := a.num * b.den < b.num * a.den

def Ratio.distance (a b : Ratio) : Ratio :=
  let x := a.num * b.den
  let y := b.num * a.den
  ⟨(x - y) + (y - x), a.den * b.den⟩

/-! ## Rounding intervals -/

/-- A positive double as m · 2^q, with the flag that marks the first double of a power of two, below
which doubles lie twice as dense. -/
structure Double where
  mantissa : Nat
  exponent : Int
  isEdge : Bool

/-- The double of a bit pattern, its sign aside; none for zero, infinities and NaNs. -/
def Double.ofBits? (bits : Nat) : Option Double :=
  let fraction : Nat := bits % Nat.pow 2 52
  let biased : Nat := bits / Nat.pow 2 52 % Nat.pow 2 11
  if biased = 2047 then none
  else if biased = 0 then if fraction = 0 then none else some ⟨fraction, -1074, false⟩
  else some ⟨fraction + Nat.pow 2 52, (biased : Int) - 1075, fraction == 0 && biased != 1⟩

/-- Whether a decimal lies in the interval of reals that round to the double. -/
def Double.rounds (x : Double) (r : Ratio) : Bool :=
  let low := Ratio.ofBinary (4 * x.mantissa - (if x.isEdge then 1 else 2)) (x.exponent - 2)
  let high := Ratio.ofBinary (4 * x.mantissa + 2) (x.exponent - 2)
  if x.mantissa % 2 = 0 then !r.below low && !high.below r else low.below r && r.below high

/-! ## The search -/

/-- The decimal m · 10^e nearest to the double among the two neighbours of it on the grid of
exponent e, if one of them rounds to it. -/
def Double.onGrid? (x : Double) (e : Int) : Option Nat :=
  let value := Ratio.ofBinary x.mantissa x.exponent
  let scaled : Nat × Nat :=
    if 0 ≤ e then (value.num, value.den * Nat.pow 10 e.toNat)
    else (value.num * Nat.pow 10 (-e).toNat, value.den)
  let floor := scaled.1 / scaled.2
  let lower := Ratio.ofDecimal floor e
  let upper := Ratio.ofDecimal (floor + 1) e
  match x.rounds lower, x.rounds upper with
  | false, false => none
  | true, false => some floor
  | false, true => some (floor + 1)
  | true, true =>
    let below := value.distance lower
    let above := upper.distance value
    if below.below above then some floor
    else if above.below below then some (floor + 1)
    else some (if floor % 2 = 0 then floor else floor + 1)

/-- The first decimal found on the grids of exponents `e`, `e - 1`, and so on, `fuel` of them. -/
def Double.search (x : Double) : (fuel : Nat) → (e : Int) → Nat × Int
  | 0, e => (0, e)
  | fuel + 1, e =>
    match x.onGrid? e with
    | some 0 => x.search fuel (e - 1)
    | some m => (m, e)
    | none => x.search fuel (e - 1)

/-- The decimal m · 10^e that is shown for the double, m without zeros at its end. -/
def Double.shortest (x : Double) : Nat × Int :=
  x.search 660 309

/-! ## Text -/

/-- The digits of a decimal placed with a point: positional from 10^-4 up to 10^16, and otherwise
with an exponent of two digits at least. -/
def place (digits : List Char) (exponent : Int) : List Char :=
  let count := digits.length
  let point : Int := count + exponent
  if -4 < point ∧ point ≤ 16 then
    if point ≤ 0 then '0' :: '.' :: List.replicate (-point).toNat '0' ++ digits
    else if exponent < 0 then digits.take point.toNat ++ '.' :: digits.drop point.toNat
    else digits ++ List.replicate exponent.toNat '0' ++ ['.', '0']
  else
    let power := point - 1
    let written := (Nat.repr power.natAbs).toList
    digits.take 1 ++ (if count ≤ 1 then [] else '.' :: digits.drop 1) ++
      ['e', if power < 0 then '-' else '+'] ++
      (if written.length < 2 then '0' :: written else written)

/-- The text of a double: the decimal with the fewest digits that rounds to it. -/
def showFloat (x : Float) : String :=
  let bits := x.toBits.toNat
  let sign := if Nat.pow 2 63 ≤ bits then "-" else ""
  match Double.ofBits? bits with
  | some d =>
    let (m, e) := d.shortest
    sign ++ String.ofList (place (Nat.repr m).toList e)
  | none =>
    if bits % Nat.pow 2 63 = 0 then sign ++ "0.0"
    else if bits % Nat.pow 2 52 = 0 then sign ++ "inf"
    else "nan"

/-- The double nearest to m · 10^e. -/
def toFloat (m : Nat) (e : Int) : Float :=
  let size : Int := (Nat.repr m).length
  if m = 0 then 0.0
  else if 400 < size + e then Float.ofBits 0x7FF0000000000000
  else if size + e < -400 then 0.0
  else Float.ofScientific m (e < 0) e.natAbs

end Decimal

end ChatCommands
