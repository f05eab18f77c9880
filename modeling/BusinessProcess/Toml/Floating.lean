/-!
# Floating-point numerals

A floating-point numeral is read exactly, as a whole number times a power of ten. It can be used
only if the nearest number in double precision is finite.
-/

namespace BusinessProcess.Toml

/-- The value of a floating-point numeral. -/
inductive Floating where
  /-- A multiple of a power of ten; the sign does not matter for its size. -/
  | finite (negative : Bool) (significand : Nat) (exponent : Int)
  | infinite (negative : Bool)
  | notANumber
deriving DecidableEq, Repr

namespace Floating

/-- The least number that double precision rounds to infinity. -/
def doubleBound : Nat :=
  Nat.pow 2 1024 - Nat.pow 2 970

/-- Whether `significand * 10 ^ exponent` stays below the bound. Powers far beyond the bound, or
far below one, are not computed. -/
def isBounded (significand : Nat) (exponent : Int) : Bool :=
  if significand = 0 then true
  else if 0 ≤ exponent then
    exponent ≤ 310 && significand * Nat.pow 10 exponent.toNat < doubleBound
  else
    let places := exponent.natAbs
    significand.log2 < places || significand < doubleBound * Nat.pow 10 places

/-- Whether the numeral stands for a number in double precision. -/
def isDouble : Floating → Bool
  | .finite _ significand exponent => isBounded significand exponent
  | .infinite _ => true
  | .notANumber => true

end Floating

end BusinessProcess.Toml
