import Missive.Schema.Arena

/-!
# Storage layouts

A message keeps its fields in itself or in a storage that copies share until one of them is changed.
-/

namespace Missive.Schema

/-- Where a message keeps its fields. -/
inductive Layout where
  | inline
  | indirected
  deriving DecidableEq, Repr

namespace Layout

def name : Layout → String
  | inline => "inline"
  | indirected => "indirected"

/-- The largest number of fields that messages keep in themselves, unless told otherwise. -/
def defaultThreshold : Int := 16

def choose (fields : List Field) (isAny : Bool) (threshold : Int) : Layout :=
  if isAny || threshold < fields.length || fields.any (fun f => f.isMessage && !f.isRepeated) then
    indirected
  else inline

def choose? (fields : List Field) (isAny : Bool) : Option Int → Except Defect Layout
  | some threshold => .ok (choose fields isAny threshold)
  | none => if isAny then .ok indirected else .error .noThreshold

end Layout

end Missive.Schema
