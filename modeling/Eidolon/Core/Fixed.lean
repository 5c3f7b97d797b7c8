import Mathlib.Algebra.Group.Int.Defs
import Mathlib.Algebra.GroupWithZero.Nat

/-!
# Fixed-point numbers

Signed 32.32 fixed-point numbers with saturating arithmetic, and vectors of three of
them.  The shifts of the source by 32 bits are exact or round down.
-/

namespace Eidolon.Core

/-- A 32.32 fixed-point number by its raw 64 bits. -/
structure Fixed64 where
  raw : Int64
  deriving DecidableEq

namespace Fixed64

def scale : Int := 2 ^ 32

def zero : Fixed64 where
  raw := 0

def fromRaw (raw : Int64) : Fixed64 where
  raw := raw

def fromI32 (val : Int32) : Fixed64 where
  raw := Int64.ofInt (val.toInt * scale)

variable (self : Fixed64)

def toI32 : Int32 :=
  Int32.ofInt (self.raw.toInt / scale)

def ceil : Fixed64 :=
  if self.raw.toInt % scale = 0 then
    self
  else
    { raw := Int64.ofInt ((self.raw.toInt / scale + 1) * scale) }

variable (rhs : Fixed64)

def saturatingAdd : Fixed64 where
  raw := Int64.ofIntClamp (self.raw.toInt + rhs.raw.toInt)

def saturatingSub : Fixed64 where
  raw := Int64.ofIntClamp (self.raw.toInt - rhs.raw.toInt)

def saturatingMul : Fixed64 where
  raw := Int64.ofIntClamp (self.raw.toInt * rhs.raw.toInt / scale)

def saturatingDiv : Fixed64 :=
  if rhs.raw = 0 then
    if 0 ≤ self.raw then { raw := Int64.maxValue } else { raw := Int64.minValue }
  else
    { raw := Int64.ofIntClamp ((self.raw.toInt * scale).tdiv rhs.raw.toInt) }

/-- The binary digits of a root, from the highest down: what is left of the number, and
twice the root so far times the place of the next digit. -/
def sqrtLoop : Nat → Nat → Nat → Nat
  | 0, _, root => root
  | digits + 1, remainder, root =>
    let bit := 4 ^ digits
    if root + bit ≤ remainder then
      sqrtLoop digits (remainder - (root + bit)) (root / 2 + bit)
    else
      sqrtLoop digits remainder (root / 2)

/-- The integer square root of the scaled number; zero for what is not positive. -/
def sqrt : Fixed64 :=
  if self.raw ≤ 0 then
    zero
  else
    let val := (self.raw.toInt * scale).toNat
    { raw := Int64.ofIntClamp (sqrtLoop (Nat.log2 val / 2 + 1) val 0) }

instance : LE Fixed64 where
  le left right := left.raw ≤ right.raw

instance : LT Fixed64 where
  lt left right := left.raw < right.raw

instance (left right : Fixed64) : Decidable (left ≤ right) :=
  inferInstanceAs (Decidable (left.raw ≤ right.raw))

instance (left right : Fixed64) : Decidable (left < right) :=
  inferInstanceAs (Decidable (left.raw < right.raw))

end Fixed64

/-- A vector of fixed-point numbers. -/
structure Vec3Fix where
  x : Fixed64
  y : Fixed64
  z : Fixed64
  deriving DecidableEq

namespace Vec3Fix

def fromI32 (x y z : Int32) : Vec3Fix where
  x := Fixed64.fromI32 x
  y := Fixed64.fromI32 y
  z := Fixed64.fromI32 z

variable (self : Vec3Fix) (rhs : Vec3Fix)

def sub : Vec3Fix where
  x := self.x.saturatingSub rhs.x
  y := self.y.saturatingSub rhs.y
  z := self.z.saturatingSub rhs.z

def add : Vec3Fix where
  x := self.x.saturatingAdd rhs.x
  y := self.y.saturatingAdd rhs.y
  z := self.z.saturatingAdd rhs.z

def scale (factor : Fixed64) : Vec3Fix where
  x := self.x.saturatingMul factor
  y := self.y.saturatingMul factor
  z := self.z.saturatingMul factor

def dot : Fixed64 :=
  ((self.x.saturatingMul rhs.x).saturatingAdd (self.y.saturatingMul rhs.y)).saturatingAdd
    (self.z.saturatingMul rhs.z)

def magnitudeSquared : Fixed64 :=
  self.dot self

def distanceSquared (other : Vec3Fix) : Fixed64 :=
  (self.sub other).magnitudeSquared

end Vec3Fix

end Eidolon.Core
