/-!
# Quality scores

The score of a scan falls with the number of issues per file, in five pieces. The formula is given
for any rounding of intermediate values: without rounding it is the exact score, and with rounding
to 53 binary digits, the even neighbour for a tie, it is the score that scans report.
-/

namespace CodeAudit.Score

/-! ## Rounding -/

/-- The power of two of an exponent. -/
def powerOfTwo : Int → Rat
  | .ofNat n => (Nat.pow 2 n : Rat)
  | .negSucc n => 1 / (Nat.pow 2 (n + 1) : Rat)

/-- The nearest whole number, the even one for a tie. -/
def nearestEven (x : Rat) : Int :=
  let below := x.floor
  let rest := x - below
  if rest < 1 / 2 then below
  else if 1 / 2 < rest then below + 1
  else below + below % 2

/-- The exponent of the greatest power of two that is not above a positive number. -/
def exponent (x : Rat) : Int :=
  let guess : Int := (x.num.natAbs.log2 : Int) - (x.den.log2 : Int)
  if powerOfTwo guess ≤ x then guess else guess - 1

/-- The nearest number of 53 binary digits to a positive number, the even one for a tie. -/
def roundPositive (x : Rat) : Rat :=
  let unit := powerOfTwo (exponent x - 52)
  nearestEven (x / unit) * unit

/-- The nearest number of 53 binary digits, the even one for a tie. -/
def binary53 (x : Rat) : Rat :=
  if x = 0 then 0
  else if x < 0 then -roundPositive (-x)
  else roundPositive x

/-! ## The formula -/

/-- The number, or a bound that it is below. -/
def atLeast (bound x : Rat) : Rat :=
  if x < bound then bound else x

/-- The score for a number of issues per file, before it is made whole. -/
def ofRatio (round : Rat → Rat) (ratio : Rat) : Rat :=
  if ratio ≤ 1 / 2 then atLeast 90 (round (100 - round (ratio * 20)))
  else if ratio ≤ 1 then atLeast 80 (round (90 - round (round (ratio - 1 / 2) * 20)))
  else if ratio ≤ 2 then atLeast 60 (round (80 - round (round (ratio - 1) * 20)))
  else if ratio ≤ 5 then atLeast 30 (round (60 - round (round (ratio - 2) * 10)))
  else atLeast 10 (round (30 - round (round (ratio - 5) * 5)))

/-- The nearest whole number to a positive number, the greater one for a tie. -/
def nearest (x : Rat) : Nat :=
  (x + 1 / 2).floor.toNat

/-- The score of a number of issues in a number of files. -/
def compute (round : Rat → Rat) (issues files : Nat) : Nat :=
  if files = 0 ∨ issues = 0 then 100
  else min (nearest (ofRatio round (round (round issues / round files)))) 100

/-- The score by the formula as it stands. -/
def exact (issues files : Nat) : Nat :=
  compute id issues files

/-- The score that scans report (`quality_score`). -/
def quality (issues files : Nat) : Nat :=
  compute binary53 issues files

end CodeAudit.Score
