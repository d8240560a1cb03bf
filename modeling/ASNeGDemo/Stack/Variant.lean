import ASNeGDemo.Stack.BuildInTypes

/-!
Variants and data values, and the platform they are computed on. Everything the
C++ standard or the stack leaves open (double arithmetic, the result of a
conversion or an increment that does not fit, the order in which two factors are
evaluated) is a field of `Platform`, so results hold for every choice.
-/
namespace ASNeGDemo

inductive IntType where
  | sByte | byte | int16 | uint16 | int32 | uint32 | int64 | uint64
  deriving DecidableEq, Repr

namespace IntType

def width : IntType → ℕ
  | .sByte | .byte => 8
  | .int16 | .uint16 => 16
  | .int32 | .uint32 => 32
  | .int64 | .uint64 => 64

def signed : IntType → Bool
  | .sByte | .int16 | .int32 | .int64 => true
  | .byte | .uint16 | .uint32 | .uint64 => false

def min (t : IntType) : ℤ := if t.signed then -2 ^ (t.width - 1) else 0

def max (t : IntType) : ℤ := if t.signed then 2 ^ (t.width - 1) - 1 else 2 ^ t.width - 1

/-- A value of an integer type lies between the bounds of the type. -/
abbrev Val (t : IntType) := { v : ℤ // t.min ≤ v ∧ v ≤ t.max }

/-- Conversion of an integer to the type, modulo two to the width. -/
def wrap (t : IntType) (z : ℤ) : t.Val :=
  ⟨if t.signed then z.bmod (2 ^ t.width) else z % 2 ^ t.width, by
    have hl := Int.le_bmod (x := z) (m := 2 ^ t.width) (by positivity)
    have hu := Int.bmod_lt (x := z) (m := 2 ^ t.width) (by positivity)
    cases t <;> simp [min, max, signed, width] at * <;> omega⟩

/-- The number lies in the type. -/
def Fits (t : IntType) (z : ℤ) : Prop := t.min ≤ z ∧ z ≤ t.max

instance decidableFits (t : IntType) (z : ℤ) : Decidable (t.Fits z) :=
  inferInstanceAs (Decidable (_ ∧ _))

theorem val_wrap (t : IntType) (z : ℤ) :
    (t.wrap z).val = if t.signed then z.bmod (2 ^ t.width) else z % 2 ^ t.width := rfl

theorem two_pow_width (t : IntType) : (2 : ℤ) ^ t.width = 2 * 2 ^ (t.width - 1) := by
  cases t <;> rfl

theorem wrap_val {t : IntType} {z : ℤ} (h : t.Fits z) : (t.wrap z).val = z := by
  obtain ⟨hmin, hmax⟩ := h
  unfold min at hmin
  unfold max at hmax
  rw [val_wrap]
  split_ifs at hmin hmax ⊢
  · have hpow := t.two_pow_width
    apply Int.bmod_eq_of_le_mul_two
    · push_cast
      omega
    · push_cast
      omega
  · apply Int.emod_eq_of_lt hmin
    omega

@[simp] theorem wrap_self (t : IntType) (v : t.Val) : t.wrap v.val = v := Subtype.ext (wrap_val v.2)

theorem wrap_wrap_add (t : IntType) (z n : ℤ) : t.wrap ((t.wrap z).val + n) = t.wrap (z + n) := by
  apply Subtype.ext
  rw [val_wrap, val_wrap, val_wrap]
  split_ifs
  · exact Int.bmod_add_bmod
  · exact Int.emod_add_emod ..

end IntType

structure Platform where
  Double : Type
  Single : Type
  ofInt : ℤ → Double
  ofDecimal : ℚ → Double
  add : Double → Double → Double
  mul : Double → Double → Double
  div : Double → Double → Double
  lt : Double → Double → Bool
  rounded : Double → Single
  widened : Single → Double
  /-- Conversion of a double to an integer type. Truncation when the result fits; what is
  left behind otherwise is up to the platform. -/
  truncated : (t : IntType) → Double → t.Val
  /-- What an increment of the greatest 32 or 64 bit signed value leaves behind. -/
  overflowed : (t : IntType) → t.Val
  /-- Whether `mySign()` is called before `myPercent()` in a product of the two. -/
  signFirst : Bool
  /-- Whether the stack still knows the element type of an array without elements. -/
  emptyArrayTyped : Bool
  /-- What the stack hands out for an array where one `OpcUaUInt32` is asked for; `none` where it
  throws. -/
  uint32OfArray : List (IntType.Val .uint32) → Option (IntType.Val .uint32)

/-- Truncation toward zero. -/
def truncate (q : ℚ) : ℤ := if 0 ≤ q then ⌊q⌋ else ⌈q⌉

/-- Doubles taken as rationals, with what a wrapping two's complement machine leaves behind. -/
def exactPlatform : Platform where
  Double := ℚ
  Single := ℚ
  ofInt z := z
  ofDecimal q := q
  add := (· + ·)
  mul := (· * ·)
  div := (· / ·)
  lt p q := decide (p < q)
  rounded := id
  widened := id
  truncated t q := t.wrap (truncate q)
  overflowed t := t.wrap (t.max + 1)
  signFirst := false
  emptyArrayTyped := true
  uint32OfArray := List.head?

/-- The types of a variant. `raw` stands for the ones the library never looks into. -/
inductive BuildInType where
  | unknown
  | boolean
  | int (t : IntType)
  | float | double
  | string | dateTime | guid | byteString | nodeId | qualifiedName | localizedText
  | raw (tag : ℕ)
  deriving DecidableEq, Repr

/-- A value of each type. Strings and byte strings can be null. -/
def Value (P : Platform) : BuildInType → Type
  | .unknown => Unit
  | .boolean => Bool
  | .int t => t.Val
  | .float => P.Single
  | .double => P.Double
  | .string => Option String
  | .dateTime => DateTime
  | .guid => Guid
  | .byteString => Option Bytes
  | .nodeId => NodeId
  | .qualifiedName => QualifiedName
  | .localizedText => LocalizedText
  | .raw _ => Bytes

/-- A variant over a family of elements: one value, an array of them, or nothing. -/
inductive Variant (ε : BuildInType → Type) where
  | null
  | scalar (t : BuildInType) (v : ε t)
  | array (t : BuildInType) (vs : List (ε t))

namespace Variant
variable {ε δ : BuildInType → Type}

def isArray : Variant ε → Bool
  | .array _ _ => true
  | _ => false

def variantType (P : Platform) : Variant ε → BuildInType
  | .null => .unknown
  | .scalar t _ => t
  | .array t vs => if vs.isEmpty && !P.emptyArrayTyped then .unknown else t

def map (f : (t : BuildInType) → ε t → δ t) : Variant ε → Variant δ
  | .null => .null
  | .scalar t v => .scalar t (f t v)
  | .array t vs => .array t (vs.map (f t))

@[simp] theorem map_variantType (P : Platform) (f : (t : BuildInType) → ε t → δ t)
    (v : Variant ε) : (v.map f).variantType P = v.variantType P := by
  cases v <;> simp [map, variantType]

end Variant

structure DataValue (ε : BuildInType → Type) where
  variant : Variant ε
  statusCode : StatusCode
  sourceTimestamp : DateTime
  serverTimestamp : DateTime

namespace DataValue
variable {ε δ : BuildInType → Type}

def map (f : (t : BuildInType) → ε t → δ t) (d : DataValue ε) : DataValue δ :=
  { variant := d.variant.map f
    statusCode := d.statusCode
    sourceTimestamp := d.sourceTimestamp
    serverTimestamp := d.serverTimestamp }

/-- Both timestamps and the status code are set, the variant stays. -/
def stamped (d : DataValue ε) (time : DateTime) (status : StatusCode) : DataValue ε :=
  { d with statusCode := status, sourceTimestamp := time, serverTimestamp := time }

@[simp] theorem map_variant (f : (t : BuildInType) → ε t → δ t) (d : DataValue ε) :
    (d.map f).variant = d.variant.map f := rfl

@[simp] theorem stamped_variant (d : DataValue ε) (time : DateTime) (status : StatusCode) :
    (d.stamped time status).variant = d.variant := rfl

end DataValue

/-- What the code draws from its surroundings: results of `rand()` and clock readings. -/
structure Env where
  rands : Stream' ℕ
  clock : Stream' DateTime

abbrev Sim := StateM Env

/-- `rand()`. -/
def rand : Sim ℕ := fun e => (e.rands.head, { e with rands := e.rands.tail })

/-- `boost::posix_time::microsec_clock::universal_time()`. -/
def universalTime : Sim DateTime := fun e => (e.clock.head, { e with clock := e.clock.tail })

namespace Sim
variable {α β : Type}

@[simp] theorem bind_apply (x : Sim α) (f : α → Sim β) (e : Env) :
    (x >>= f) e = f (x e).1 (x e).2 := rfl

@[simp] theorem pure_apply (a : α) (e : Env) : (pure a : Sim α) e = (a, e) := rfl

@[simp] theorem map_apply (f : α → β) (x : Sim α) (e : Env) :
    (f <$> x) e = (f (x e).1, (x e).2) := rfl

/-- What the first part establishes, the second may rely on. -/
theorem bind_spec {x : Sim α} {f : α → Sim β} {e : Env} (Q : α → Prop) {R : β → Prop}
    (hx : Q (x e).1) (hf : ∀ a e, Q a → R (f a e).1) : R ((x >>= f) e).1 :=
  hf _ _ hx

/-- What every step of a loop keeps of the result and of the draws left, the loop keeps. -/
theorem foldlM_spec {σ ε : Type} {f : σ → ε → Sim σ} (J : σ → Env → Prop) {entries : List ε}
    (hf : ∀ x ∈ entries, ∀ s e, J s e → J (f s x e).1 (f s x e).2) {s : σ} {e : Env}
    (h : J s e) : J (entries.foldlM f s e).1 (entries.foldlM f s e).2 := by
  induction entries generalizing s e with
  | nil => exact h
  | cons x entries ih =>
    rw [List.foldlM_cons, bind_apply]
    have hfirst := hf x List.mem_cons_self s e h
    exact ih (fun y hy => hf y (List.mem_cons_of_mem x hy)) hfirst

end Sim

end ASNeGDemo
