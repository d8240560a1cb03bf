import ASNeGDemo.Stack.Variant

/-! Reading the history of the `DoubleValue` node, `HistoricalAccess::readHValue`. -/
namespace ASNeGDemo.HistoricalAccess

def numberEntries : UInt32 := 10

/-- The value of a decimal numeral, if it is a `uint32_t`. -/
def numeral (cs : List Char) : Option UInt32 :=
  if cs ≠ [] ∧ cs.all Char.isDigit ∧ Nat.ofDigitChars 10 cs 0 < 2 ^ 32 then
    some (UInt32.ofNat (Nat.ofDigitChars 10 cs 0))
  else none

/-- `boost::lexical_cast<uint32_t>`: a numeral, or a minus sign and a numeral, which wraps. -/
def lexicalCastUInt32 (s : String) : Option UInt32 :=
  match s.toList with
  | '-' :: cs => (numeral cs).map fun n => 0 - n
  | cs => numeral cs

/-- An `OpcUaDataValueArray`: the size asked of `resize` and the values pushed since. -/
structure DataValueArray (P : Platform) where
  capacity : UInt32
  values : List (DataValue (Value P))

structure ApplicationHReadContext (P : Platform) where
  nodeId : NodeId
  numValuesPerNode : UInt32
  continousPoint : String
  releaseContinuationPoints : Bool
  dataValueArray : Option (DataValueArray P)
  statusCode : StatusCode

variable {P : Platform} (lexicalCast : String → Option UInt32)

/-- The start index; `none` of `lexicalCast` is a thrown `bad_lexical_cast`. -/
def startIndex (continousPoint : String) : UInt32 :=
  if continousPoint = "" then 0 else (lexicalCast continousPoint).getD 0

/-- The end index. The sum is a `uint32_t` and wraps. -/
def endIndex (startIdx numValuesPerNode : UInt32) : UInt32 :=
  if numValuesPerNode ≠ 0 ∧ startIdx + numValuesPerNode < numberEntries then
    startIdx + numValuesPerNode
  else numberEntries

/-- The entry of the history with index `idx`. -/
def entry (P : Platform) (time : DateTime) (idx : ℕ) : DataValue (Value P) :=
  { variant := .scalar .double (P.ofInt idx)
    statusCode := .success
    sourceTimestamp := time - seconds (10 + idx)
    serverTimestamp := time - seconds (10 + idx) }

/-- The indices of the loop from `startIdx` up to, but not including, `endIdx`. -/
def indices (startIdx endIdx : UInt32) : List ℕ :=
  List.range' startIdx.toNat (endIdx.toNat - startIdx.toNat)

def readHValue (time : DateTime) (ctx : ApplicationHReadContext P) :
    ApplicationHReadContext P :=
  let startIdx := startIndex lexicalCast ctx.continousPoint
  let endIdx := endIndex startIdx ctx.numValuesPerNode
  if ctx.continousPoint = "" ∧ ctx.releaseContinuationPoints then
    { ctx with statusCode := .success }
  else
    { ctx with
      continousPoint :=
        if endIdx ≠ numberEntries ∧ ¬ ctx.releaseContinuationPoints then toString endIdx else ""
      dataValueArray := some
        { capacity := endIdx - startIdx
          values := (indices startIdx endIdx).map (entry P time) }
      statusCode := .success }

/-- The values a call hands to the client. -/
def ApplicationHReadContext.page (ctx : ApplicationHReadContext P) :
    List (DataValue (Value P)) :=
  (ctx.dataValueArray.map DataValueArray.values).getD []

end ASNeGDemo.HistoricalAccess
