import Mathlib.Algebra.Order.Field.Rat
import CardanoGraphql.Json

namespace CardanoGraphql.QueryComplexity

def booleanOperatorsCostMapping : List (String × Nat) :=
  [("_eq", 1), ("_gt", 1), ("_gte", 1), ("_in", 1), ("_lt", 1), ("_lte", 1), ("_neq", 1), ("_nin", 1),
    ("_is_null", 1), ("_ilike", 2), ("_like", 2), ("_nilike", 2), ("_nlike", 2), ("_nsimilar", 2),
    ("_similar", 2)]

def isOperator (operator : String) : Bool :=
  booleanOperatorsCostMapping.any fun entry => decide (entry.1 = operator)

def isListOperator (operator : String) : Bool := decide (operator = "_in") || decide (operator = "_nin")

def operationCost (operator : String) (value : Json) : Nat :=
  match booleanOperatorsCostMapping.lookup operator with
  | none => 0
  | some cost =>
      if isListOperator operator then
        match value with
        | .arr elements => cost * elements.length
        | _ => 0
      else cost

/-- The cost of a field that is not a logical operator; `nested` is what the field costs
as a filter of its own. Only an object has operators among its keys. -/
def filterCost (value : Json) (nested : Except String Nat) : Except String Nat :=
  match value with
  | .null => .error "Cannot convert undefined or null to object"
  | .obj operators =>
      if operators.any fun f => isOperator f.1 then
        .ok ((operators.map fun f => operationCost f.1 f.2).sum)
      else nested.map fun cost => 1 + cost
  | _ => nested.map fun cost => 1 + cost

def plus (cost costs : Except String Nat) : Except String Nat := do
  let m ← cost
  let n ← costs
  return m + n

mutual

/-- A text is walked character by character, each a text again, without end. -/
def calculateWhereComplexity : Json → Except String Nat
  | .null | .bool _ | .num _ => .ok 0
  | .str s => if s = "" then .ok 0 else .error "Maximum call stack size exceeded"
  | .arr elements => elementCosts elements
  | .obj fields => fieldCosts fields

def elementCosts : List Json → Except String Nat
  | [] => .ok 0
  | value :: rest => plus (filterCost value (calculateWhereComplexity value)) (elementCosts rest)

def fieldCosts : List (String × Json) → Except String Nat
  | [] => .ok 0
  | (key, value) :: rest =>
      plus
        (if key = "_not" then calculateWhereComplexity value
          else if key = "_or" || key = "_and" then conditionsCost value
          else filterCost value (calculateWhereComplexity value))
        (fieldCosts rest)

def conditionsCost : Json → Except String Nat
  | .null => .error "Cannot convert undefined or null to object"
  | .bool _ | .num _ => .ok 0
  | .str s => if s = "" then .ok 0 else .error "Maximum call stack size exceeded"
  | .arr elements => conditionCosts elements
  | .obj fields => valueCosts fields

def conditionCosts : List Json → Except String Nat
  | [] => .ok 0
  | condition :: rest => plus (calculateWhereComplexity condition) (conditionCosts rest)

def valueCosts : List (String × Json) → Except String Nat
  | [] => .ok 0
  | (_, condition) :: rest => plus (calculateWhereComplexity condition) (valueCosts rest)

end

/-- `Math.ceil(Number(offset) / 100)`, and 0 without an offset. -/
def calculateOffsetComplexity (offset : Option Int) : Int :=
  match offset with
  | none => 0
  | some n => if n = 0 then 0 else -(-n / 100)

mutual

def calculateOrderByFieldComplexity : Json → Except String Nat
  | .null => .error "Cannot convert undefined or null to object"
  | .bool _ | .num _ => .ok 0
  | .str s => .ok (s.toList.map fun c => if c.toNat < 0x10000 then 1 else 2).sum
  | .arr elements => orderByElements elements
  | .obj fields => orderByFields fields

/-- One more for each entry, and for one that is no text what is under it. -/
def orderByEntry : Json → Except String Nat
  | .str _ => .ok 1
  | .null => .error "Cannot convert undefined or null to object"
  | .bool _ | .num _ => .ok 1
  | .arr elements => (orderByElements elements).map fun cost => 1 + cost
  | .obj fields => (orderByFields fields).map fun cost => 1 + cost

def orderByElements : List Json → Except String Nat
  | [] => .ok 0
  | value :: rest => plus (orderByEntry value) (orderByElements rest)

def orderByFields : List (String × Json) → Except String Nat
  | [] => .ok 0
  | (_, value) :: rest => plus (orderByEntry value) (orderByFields rest)

end

def calculateOrderByComplexity (orderBy : Option (List Json)) : Except String Nat :=
  match orderBy with
  | none => .ok 0
  | some fields => (fields.mapM calculateOrderByFieldComplexity).map List.sum

structure Args where
  whereArg : Json
  offset : Option Int
  orderBy : Option (List Json)

def getDefaultQueryComplexity (baseQueryCost : ℚ) (args : Args) (childComplexity : ℚ) : Except String ℚ := do
  let whereComplexity ← calculateWhereComplexity args.whereArg
  let offsetComplexity := calculateOffsetComplexity args.offset + 1
  let orderByComplexity ← calculateOrderByComplexity args.orderBy
  let base := if baseQueryCost < 1 then 1 else baseQueryCost
  return base * ((childComplexity + whereComplexity) * offsetComplexity * (orderByComplexity + 1))

structure QueryTooComplex where
  actual : ℚ
  maxAllowed : ℚ

/-- The library adds the costs of the fields of an operation. -/
def operationComplexity (fieldCosts : List ℚ) : ℚ := fieldCosts.sum

def didResolveOperation (maximumComplexity : ℚ) (fieldCosts : List ℚ) : Except QueryTooComplex Unit :=
  if operationComplexity fieldCosts > maximumComplexity then
    .error ⟨operationComplexity fieldCosts, maximumComplexity⟩
  else .ok ()

end CardanoGraphql.QueryComplexity
