import Mathlib.Data.List.Lex
import Mathlib.Data.Rat.Lemmas
import Mathlib.Data.Stream.Defs
import Mathlib.Tactic
import ASNeGDemo.General.OrderedMap

/-!
The build-in types of the OPC UA stack, as far as the demo library looks into
them. Values are modelled by value; a module that shares element objects through
pointers stores `Slot`s in the same `Variant` instead.
-/
namespace ASNeGDemo

inductive StatusCode where
  | success | badInternalError | badInvalidArgument | badNotSupported | badNotConnected
  | badUserAccessDenied | badIdentityTokenInvalid
  | other (code : ℕ)
  deriving DecidableEq, Repr

/-- Points in time, in ticks of 100 ns. -/
abbrev DateTime := ℤ

def seconds (n : ℤ) : ℤ := 10000000 * n

/-- A `std::string`: bytes without an encoding. -/
abbrev Bytes := List UInt8

/-- The bytes of a string literal of the source; these are all ASCII. -/
def bytes (s : String) : Bytes := s.toList.map fun c => UInt8.ofNat c.toNat

structure Guid where
  data1 : UInt32
  data2 : UInt16
  data3 : UInt16
  data4 : Bytes
  deriving DecidableEq, Repr

inductive Identifier where
  | numeric (value : ℕ)
  | string (value : String)
  | guid (value : Guid)
  | byteString (value : Bytes)
  deriving DecidableEq, Repr

structure NodeId where
  namespaceIndex : ℕ
  identifier : Identifier
  deriving Repr

/-- `OpcUaNodeId(id, ns)` with a number. -/
def nodeId (id ns : ℕ) : NodeId := ⟨ns, .numeric id⟩

/-- `OpcUaNodeId(id, ns)` with a string. -/
def nodeIdString (id : String) (ns : ℕ) : NodeId := ⟨ns, .string id⟩

def Identifier.encode : Identifier → List ℕ
  | .numeric n => [0, n]
  | .string s => 1 :: s.toList.map Char.toNat
  | .guid g => [2, g.data1.toNat, g.data2.toNat, g.data3.toNat] ++ g.data4.map UInt8.toNat
  | .byteString b => 3 :: b.map UInt8.toNat

theorem char_toNat_injective : Function.Injective Char.toNat := by
  intro a b h
  exact Char.ext (UInt32.toNat_inj.mp h)

theorem uint8_toNat_injective : Function.Injective UInt8.toNat :=
  fun _ _ h => UInt8.toNat_inj.mp h

/-- Bytes compare as unsigned numbers, and `std::string`s byte by byte. -/
instance byteLinearOrder : LinearOrder UInt8 := LinearOrder.lift' UInt8.toNat uint8_toNat_injective

theorem Identifier.encode_injective : Function.Injective Identifier.encode := by
  intro a b h
  cases a <;> cases b <;> simp [encode] at h
  case numeric => rw [h]
  case string => rw [String.toList_inj.mp (char_toNat_injective.list_map h)]
  case guid g g' =>
    obtain ⟨h1, h2, h3, h4⟩ := h
    have h4 := uint8_toNat_injective.list_map h4
    cases g
    cases g'
    simp_all [UInt32.toNat_inj, UInt16.toNat_inj]
  case byteString => rw [uint8_toNat_injective.list_map h]

def NodeId.encode (n : NodeId) : List ℕ := n.namespaceIndex :: n.identifier.encode

theorem NodeId.encode_injective : Function.Injective NodeId.encode := by
  intro a b h
  obtain ⟨hns, hid⟩ := List.cons.inj h
  cases a
  cases b
  exact congrArg₂ NodeId.mk hns (Identifier.encode_injective hid)

/-- The order in which a `std::map` keyed by node ids is walked. -/
instance : LinearOrder NodeId := LinearOrder.lift' NodeId.encode NodeId.encode_injective

theorem nodeId_inj {i j ns : ℕ} : nodeId i ns = nodeId j ns ↔ i = j := by
  simp [nodeId]

theorem nodeIdString_inj {s s' : String} {ns : ℕ} :
    nodeIdString s ns = nodeIdString s' ns ↔ s = s' := by
  simp [nodeIdString]

structure QualifiedName where
  name : String
  namespaceIndex : ℕ
  deriving DecidableEq, Repr

structure LocalizedText where
  locale : String
  text : String
  deriving DecidableEq, Repr

end ASNeGDemo
