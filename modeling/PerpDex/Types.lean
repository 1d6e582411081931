import Mathlib

/-! Shared types of the orchestrator: the FP8 fixed-point format and order sides.
Arithmetic is that of the release build, where `i64` operations wrap around.
-/

namespace PerpDex

/-- The values an `i64` can hold. -/
def I64Range (value : Int) : Prop := -2 ^ 63 ≤ value ∧ value < 2 ^ 63

instance (value : Int) : Decidable (I64Range value) :=
  inferInstanceAs (Decidable (_ ∧ _))

/-- Wrap-around into `i64`, as release-mode arithmetic and `as i64` casts do. -/
def wrapI64 (value : Int) : Int := value.bmod (2 ^ 64)

theorem wrapI64_range (value : Int) : I64Range (wrapI64 value) := by
  have lower := Int.le_bmod (x := value) (m := 2 ^ 64) (by norm_num)
  have upper := Int.bmod_lt (x := value) (m := 2 ^ 64) (by norm_num)
  constructor <;> simp only [wrapI64] <;> omega

/-- A value that fits is not changed by wrapping. -/
theorem wrapI64_eq {value : Int} (fits : I64Range value) : wrapI64 value = value := by
  obtain ⟨lower, upper⟩ := fits
  exact Int.bmod_eq_of_le (by omega) (by omega)

/-- Wrapping before a negation makes no difference to the wrapped result. -/
theorem wrapI64_neg (value : Int) : wrapI64 (-wrapI64 value) = wrapI64 (-value) :=
  Int.bmod_neg_bmod

/-- Wrapping a summand makes no difference to the wrapped sum. -/
theorem wrapI64_add (left right : Int) : wrapI64 (wrapI64 left + right) = wrapI64 (left + right) :=
  Int.bmod_add_bmod

/-- `FP8_SCALE`, ten to the eighth. -/
def fp8Scale : Int := 100_000_000

/-- A fixed-point number with 8 decimal places, stored as an `i64`. -/
structure FP8 where
  raw : Int
  inRange : I64Range raw
deriving DecidableEq

namespace FP8

@[ext]
theorem ext {left right : FP8} (same : left.raw = right.raw) : left = right := by
  cases left
  cases right
  cases same
  rfl

/-- Store an integer, wrapping it into range. -/
def ofRaw (value : Int) : FP8 := ⟨wrapI64 value, wrapI64_range value⟩

def zero : FP8 := ofRaw 0

/-- `FP8::from_f64(1.0)`. -/
def one : FP8 := ofRaw fp8Scale

def add (left right : FP8) : FP8 := ofRaw (left.raw + right.raw)

def sub (left right : FP8) : FP8 := ofRaw (left.raw - right.raw)

/-- The product is formed in `i128`, divided with truncation, and cast back to `i64`. -/
def mul (left right : FP8) : FP8 := ofRaw ((left.raw * right.raw).tdiv fp8Scale)

theorem raw_wrap (value : Int) : (ofRaw value).raw = wrapI64 value := rfl

@[simp]
theorem raw_ofRaw {value : Int} (fits : I64Range value) : (ofRaw value).raw = value :=
  wrapI64_eq fits

@[simp]
theorem raw_zero : zero.raw = 0 := rfl

@[simp]
theorem ofRaw_raw (value : FP8) : ofRaw value.raw = value :=
  FP8.ext (wrapI64_eq value.inRange)

theorem raw_add {left right : FP8} (fits : I64Range (left.raw + right.raw))
    : (left.add right).raw = left.raw + right.raw :=
  raw_ofRaw fits

theorem raw_sub {left right : FP8} (fits : I64Range (left.raw - right.raw))
    : (left.sub right).raw = left.raw - right.raw :=
  raw_ofRaw fits

end FP8

inductive Side where
  | long
  | short
deriving DecidableEq, Repr

namespace Side

def opposite : Side → Side
  | long => short
  | short => long

theorem eq_or_opposite (side other : Side) : side = other ∨ side = other.opposite := by
  cases side <;> cases other <;> simp [opposite]

/-- The `Display` text of a side. -/
def toString : Side → String
  | long => "long"
  | short => "short"

/-- The two display texts differ. -/
theorem toString_injective : Function.Injective toString := by
  intro left right same
  cases left <;> cases right <;> first | rfl | exact absurd same (by decide)

end Side

end PerpDex
