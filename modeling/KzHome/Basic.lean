import Mathlib.Data.Rat.Defs
import Mathlib.Algebra.Order.Ring.Rat

/-!
# KzHome.Basic

The vocabulary shared by every part of the model: instants, the errors the
services raise, and JSON values.

An aware UTC `datetime` has microsecond resolution, so instants are integers and
`timedelta` arithmetic is exact.
-/

namespace KzHome

/-- An aware UTC `datetime`, in microseconds since the epoch. -/
abbrev Instant := Int

/-- Microseconds in a second. -/
def second : Int := 1000000

/-- `datetime.min` and `datetime.max`, which no sum may leave. -/
def datetimeMin : Int := -62135596800000000

def datetimeMax : Int := 253402300799999999

/-- The errors of `app.core.errors`, and any other exception. -/
inductive Error
  /-- `EntityNotFoundError` -/
  | notFound (message : String)
  /-- `ConflictError` -/
  | conflict (message : String)
  /-- `InvalidReferenceError` -/
  | invalidReference (message : String)
  /-- `UnavailableError` -/
  | unavailable (message : String)
  /-- An exception the services do not define. -/
  | other (message : String)
  deriving DecidableEq, Repr

/-- A decoded JSON value. -/
inductive Json
  | null
  | bool (b : Bool)
  | int (n : Int)
  | float (q : Rat)
  | str (s : String)
  | arr (items : List Json)
  | obj (members : List (String × Json))

/-- `d.get(key)` on the members of a JSON object. -/
def Json.member (members : List (String × Json)) (key : String) : Option Json :=
  (members.find? (fun m => m.1 = key)).map Prod.snd

/-- `type(value) is bool`, with the value. -/
def Json.asBool : Option Json → Option Bool
  | some (.bool b) => some b
  | _ => none

end KzHome
