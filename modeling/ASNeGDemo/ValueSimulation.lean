import ASNeGDemo.Stack.Variant

/-!
The pieces of the value simulation. `TestFolderLib` and `TestStatusCode` have the same
`mySign` and `myPercent`, and the cases of their updates are built from the same few forms;
which type takes which form with which bounds is said in each class.
-/
namespace ASNeGDemo

variable {P : Platform}

def mySign : Sim ℤ := do
  if (← rand) % 2 = 1 then return -1
  return 1

def myPercent (P : Platform) : Sim P.Double := do
  return P.div (P.ofInt ((← rand) % 5 : ℕ)) (P.ofDecimal 100)

/-- `span * myPercent() * mySign()`. -/
def signedStep (P : Platform) (span : ℤ) : Sim P.Double :=
  if P.signFirst then do
    let sign ← mySign
    let percent ← myPercent P
    return P.mul (P.mul (P.ofInt span) percent) (P.ofInt sign)
  else do
    let percent ← myPercent P
    let sign ← mySign
    return P.mul (P.mul (P.ofInt span) percent) (P.ofInt sign)

/-- `value++`. The narrow types are promoted and wrap, the unsigned ones wrap. -/
def increment (P : Platform) (t : IntType) (value : t.Val) : t.Val :=
  if t.signed ∧ 32 ≤ t.width ∧ value.val = t.max then P.overflowed t else t.wrap (value + 1)

/-- `value += span * myPercent() * mySign(); if (value < low) value = lowValue;
if (value > high) value = high;` for an integer type. -/
def walk (P : Platform) (t : IntType) (span low lowValue high : ℤ) (value : t.Val) :
    Sim t.Val := do
  let value := P.truncated t (P.add (P.ofInt value) (← signedStep P span))
  let value := if value.val < low then t.wrap lowValue else value
  let value := if high < value.val then t.wrap high else value
  return value

/-- The same walk between `0` and `high` for a double. -/
def walkDouble (P : Platform) (span high : ℤ) (value : P.Double) : Sim P.Double := do
  let value := P.add value (← signedStep P span)
  let value := if P.lt value (P.ofInt 0) then P.ofInt 0 else value
  let value := if P.lt (P.ofInt high) value then P.ofInt high else value
  return value

/-- The same walk for a float: the sum is a double and rounded when it is stored. -/
def walkSingle (P : Platform) (span high : ℤ) (value : P.Single) : Sim P.Single := do
  let value := P.rounded (P.add (P.widened value) (← signedStep P span))
  let value := if P.lt (P.widened value) (P.ofInt 0) then P.rounded (P.ofInt 0) else value
  let value := if P.lt (P.ofInt high) (P.widened value) then P.rounded (P.ofInt high) else value
  return value

/-- `ss << "String" << rand()`. -/
def randomText : Sim String := do
  return "String" ++ toString (← rand)

/-- The types with a case of their own. -/
def handledType : BuildInType → Bool
  | .unknown | .raw _ => false
  | _ => true

end ASNeGDemo
