import Rulebook.Double.Exact
import Rulebook.Double.Nearest
import Rulebook.Fault

/-!
# Numbers

Arithmetic on whole numbers of any size and on doubles.  Truth values count as zero and one.  As
soon as a double takes part the whole number is rounded to one, which fails when it is too large.
-/

namespace Rulebook

/-- A number of either kind. -/
inductive Number where
  | whole (n : Int)
  | double (x : Float)

namespace Number

def ofScalar? : Scalar → Option Number
  | .bool b => some (.whole b.toInt)
  | .int n => some (.whole n)
  | .float x => some (.double x)
  | _ => none

def ofTerm? : Term → Option Number
  | .scalar s => ofScalar? s
  | _ => none

def toTerm : Number → Term
  | .whole n => .int n
  | .double x => .float x

/-- The exact value; a NaN has none. -/
def magnitude? : Number → Option Double.Magnitude
  | .whole n => some (.ofInt n)
  | .double x => Double.magnitude? x

def toDouble : Number → Except Fault Float
  | .whole n => match Double.ofInt? n with
    | some x => .ok x
    | none => .error .tooLarge
  | .double x => .ok x

/-- Combines two numbers exactly when both are whole, and as doubles otherwise. -/
def combine (exact : Int → Int → Int) (rounded : Float → Float → Float) :
    Number → Number → Except Fault Number
  | .whole a, .whole b => .ok (.whole (exact a b))
  | a, b => do
    let x ← a.toDouble
    let y ← b.toDouble
    .ok (.double (rounded x y))

/-- The quotient is always a double, rounded once. -/
def divide : Number → Number → Except Fault Number
  | .whole a, .whole b =>
    if b = 0 then .error .divisionByZero
    else match Double.ofRatio? a b with
      | some x => .ok (.double x)
      | none => .error .tooLarge
  | a, b => do
    let x ← a.toDouble
    let y ← b.toDouble
    if y == 0 then .error .divisionByZero else .ok (.double (x / y))

def negate : Number → Number
  | .whole n => .whole (-n)
  | .double x => .double (-x)

end Number

end Rulebook
