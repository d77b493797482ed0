import ForecastJob.Codec
import ForecastJob.Text.Blank

/-!
# Values that the service may choose

* `AutoOr` : `auto`, or a number;
* `TargetLags` : `auto`, or a list of lags.

A document may write a single lag for a list of one.
-/

namespace ForecastJob

/-- The service chooses, or a number is fixed. -/
inductive AutoOr where
  | auto
  | value (n : UInt32)
  deriving Repr, DecidableEq

/-- The service chooses, or the lags are fixed. -/
inductive TargetLags where
  | auto
  | values (lags : List Int32)
  deriving Repr, DecidableEq

/-- A text that must say `auto`, in any case and between blanks. -/
def readAuto {α : Type} (s : String) (auto : α) : Except Fault α :=
  if Text.sameIgnoringCase (Text.trim s) "auto" then .ok auto else .error (.notAuto s)

namespace AutoOr

def toText : AutoOr → String
  | auto => "auto"
  | value n => toString n.toNat

def codec : Codec AutoOr where
  read
    | .text s => readAuto s auto
    | t => (Codec.uint32.read t).map value
  write
    | auto => .text "auto"
    | value n => Codec.uint32.write n

end AutoOr

namespace TargetLags

def codec : Codec TargetLags where
  read
    | .text s => readAuto s auto
    | .list items => ((Codec.listOf Codec.int32).read (.list items)).map values
    | t => (Codec.int32.read t).map fun lag => values [lag]
  write
    | auto => .text "auto"
    | values lags => (Codec.listOf Codec.int32).write lags

end TargetLags

end ForecastJob
