import JavaMetrics.Number.Binary64

/-!
# Records

The figures of one type. A record is valid when its figures fit together;
`Record.fault?` names the first rule that it breaks.
-/

namespace JavaMetrics.Metrics

open Number (Binary64)

/-- The figures of one type. -/
structure Record where
  /-- The qualified name of the type. -/
  name : String
  /-- The sum of the complexities of its methods. -/
  wmc : Int := 0
  /-- The number of its public methods. -/
  npm : Int := 0
  /-- The number of its lines of code. -/
  loc : Int := 0
  /-- The number of methods that `wmc` is the sum of. -/
  methodCount : Int := 0
  /-- The largest complexity of a method, zero without methods. -/
  maxCc : Int := 0
  /-- The mean complexity of a method, zero without methods. -/
  amc : Binary64 := Binary64.zero
  /-- The same as `amc`. -/
  avgCc : Binary64 := Binary64.zero
deriving DecidableEq, Repr

/-- The counts of a record that must not be negative. -/
inductive Figure where
  | wmc
  | npm
  | loc
  | methodCount
  | maxCc
deriving DecidableEq, Repr

namespace Figure

/-- The figures in the order in which they are looked at. -/
def all : List Figure := [.wmc, .npm, .loc, .methodCount, .maxCc]

/-- The name of a figure. -/
def name : Figure → String
  | .wmc => "wmc"
  | .npm => "npm"
  | .loc => "loc"
  | .methodCount => "method_count"
  | .maxCc => "max_cc"

end Figure

/-- A figure of a record. -/
def Record.figure (record : Record) : Figure → Int
  | .wmc => record.wmc
  | .npm => record.npm
  | .loc => record.loc
  | .methodCount => record.methodCount
  | .maxCc => record.maxCc

/-- Why figures do not make a record. -/
inductive RecordFault where
  | emptyName
  | negative (figure : Figure)
  | sumBelowMaximum
  | unequalMeans
  | complexityWithoutMethods
  /-- The mean complexity is beyond the largest number. -/
  | meanTooLarge
deriving DecidableEq, Repr

/-- What is wrong with a record. -/
def RecordFault.message : RecordFault → String
  | .emptyName => "name must not be empty"
  | .negative figure => figure.name ++ " must be non-negative"
  | .sumBelowMaximum => "wmc must be at least max_cc"
  | .unequalMeans => "amc and avg_cc must be equal"
  | .complexityWithoutMethods => "a type without methods has zero complexity"
  | .meanTooLarge => "integer division result too large for a float"

namespace Record

/-- Is there some complexity in the record? -/
def hasComplexity (record : Record) : Bool :=
  record.wmc != 0 || record.maxCc != 0 || !record.amc.isZero

/-- The first rule that the record breaks. -/
def fault? (record : Record) : Option RecordFault :=
  if record.name.isEmpty then some .emptyName
  else
    match Figure.all.find? fun figure => decide (record.figure figure < 0) with
    | some figure => some (.negative figure)
    | none =>
      if record.wmc < record.maxCc then some .sumBelowMaximum
      else if !record.amc.same record.avgCc then some .unequalMeans
      else if record.methodCount = 0 && record.hasComplexity then some .complexityWithoutMethods
      else none

/-- The record, if it is valid. -/
def validate (record : Record) : Except RecordFault Record :=
  match record.fault? with
  | some fault => .error fault
  | none => .ok record

/-- The sum of some integers. -/
def total : List Int → Int
  | [] => 0
  | first :: rest => first + total rest

/-- The largest of some integers, zero if there are none. -/
def maximum : List Int → Int
  | [] => 0
  | first :: rest => rest.foldl max first

/-- The mean of some integers, correctly rounded, zero if there are none. -/
def mean (values : List Int) : Except RecordFault Binary64 :=
  if values.isEmpty then .ok Binary64.zero
  else
    let sum := total values
    match Binary64.ofRatio? (decide (sum < 0)) sum.natAbs values.length with
    | some mean => .ok mean
    | none => .error .meanTooLarge

/-- The record of a type from the complexities of its methods. -/
def ofComplexities (name : String) (complexities : List Int) (npm loc : Int) :
    Except RecordFault Record := do
  let mean ← mean complexities
  validate {
    name, npm, loc
    wmc := total complexities
    methodCount := complexities.length
    maxCc := maximum complexities
    amc := mean
    avgCc := mean }

end Record

end JavaMetrics.Metrics
