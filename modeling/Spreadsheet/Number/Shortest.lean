import Spreadsheet.Number.Decimal

/-!
# The fewest digits that read back

The shortest decimal of a finite double is the one with the fewest digits whose nearest double is that double again, and of
those the nearest to it. It is found by cutting digits off the exact decimal of the double: after a cut either the decimal below
or the one above may read back. Whatever the cut, the result reads back, for the exact decimal itself does.
-/

namespace Spreadsheet.Number

/-- Which of two equally near decimals is taken. -/
inductive Tie where
  | up
  | even
deriving DecidableEq, Repr

namespace Decimal

/-- A decimal cut to units `10 ^ n` times its own: the one below, or the next one up. -/
def cut (d : Decimal) (n : Nat) (next : Bool) : Decimal :=
  ⟨d.digits / tens n + next.toNat, d.exponent + n⟩

/-- Whether the next cut up is to be taken when both neighbours are to be had. -/
def takesNext (tie : Tie) (d : Decimal) (n : Nat) : Bool :=
  match compare (2 * (d.digits % tens n)) (tens n) with
  | .lt => false
  | .gt => true
  | .eq => tie == .up || d.digits / tens n % 2 == 1

/-- The neighbour at `n` digits cut that the test accepts: the nearer one if it accepts both. -/
def cut? (tie : Tie) (accepts : Decimal → Bool) (d : Decimal) (n : Nat) : Option Decimal :=
  let next := takesNext tie d n
  if accepts (d.cut n next) then some (d.cut n next)
  else if accepts (d.cut n !next) then some (d.cut n !next)
  else none

/-- Cuts as many of the last `n` digits as the test allows. -/
def shorten (tie : Tie) (accepts : Decimal → Bool) (d : Decimal) : Nat → Decimal
  | 0 => d
  | n + 1 => (cut? tie accepts d (n + 1)).getD (shorten tie accepts d n)

/-- What the test accepts at a cut passes the test. -/
theorem accepts_of_cut? {tie : Tie} {accepts : Decimal → Bool} {d d' : Decimal} {n : Nat}
    (h : cut? tie accepts d n = some d') : accepts d' = true := by
  simp only [cut?] at h
  split at h
  · cases h; assumption
  · split at h
    · cases h; assumption
    · exact absurd h (by simp)

/-- Shortening keeps to decimals that pass the test. -/
theorem accepts_shorten {tie : Tie} {accepts : Decimal → Bool} {d : Decimal} (h : accepts d = true) (n : Nat) :
    accepts (shorten tie accepts d n) = true := by
  induction n with
  | zero => exact h
  | succ n ih =>
    unfold shorten
    cases hc : cut? tie accepts d (n + 1) with
    | none => exact ih
    | some d' => exact accepts_of_cut? hc

end Decimal

/-- The shortest decimal that reads back as a finite magnitude. -/
def shortest (tie : Tie) (bits : Nat) : Decimal :=
  let exact := (Binary.ofBits bits).exact
  (exact.shorten tie (fun d => d.toBits == bits) ((Nat.toDigits 10 exact.digits).length - 1)).withoutTrailingZeros

end Spreadsheet.Number
