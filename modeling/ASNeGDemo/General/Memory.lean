import Mathlib.Data.List.Basic
import Mathlib.Logic.Function.Basic

/-! Cells behind addresses, with fresh addresses handed out in order. -/

structure Memory (α : Type*) where
  read : ℕ → α
  next : ℕ

namespace Memory
variable {α : Type*}

def write (m : Memory α) (a : ℕ) (v : α) : Memory α :=
  { m with read := Function.update m.read a v }

def alloc (m : Memory α) (v : α) : Memory α :=
  { read := Function.update m.read m.next v, next := m.next + 1 }

@[simp] theorem write_read_self (m : Memory α) (a : ℕ) (v : α) : (m.write a v).read a = v :=
  Function.update_self ..

theorem write_read_of_ne (m : Memory α) {a b : ℕ} (h : b ≠ a) (v : α) :
    (m.write a v).read b = m.read b :=
  Function.update_of_ne h ..

@[simp] theorem write_next (m : Memory α) (a : ℕ) (v : α) : (m.write a v).next = m.next := rfl

@[simp] theorem alloc_read_next (m : Memory α) (v : α) : (m.alloc v).read m.next = v :=
  Function.update_self ..

theorem alloc_read_of_lt (m : Memory α) {b : ℕ} (h : b < m.next) (v : α) :
    (m.alloc v).read b = m.read b :=
  Function.update_of_ne (Nat.ne_of_lt h) ..

@[simp] theorem alloc_next (m : Memory α) (v : α) : (m.alloc v).next = m.next + 1 := rfl

end Memory

/-- A memory for each of several types. -/
abbrev TypedMemory {τ : Type*} (V : τ → Type*) := ∀ t, Memory (V t)

namespace TypedMemory
variable {τ : Type*} {V : τ → Type*}

/-- What was allocated stays allocated and keeps its content. -/
structure Extends (m m' : TypedMemory V) : Prop where
  next_le : ∀ t, (m t).next ≤ (m' t).next
  read_eq : ∀ {t a}, a < (m t).next → (m' t).read a = (m t).read a

theorem Extends.refl (m : TypedMemory V) : Extends m m := ⟨fun _ => Nat.le_refl _, fun _ => rfl⟩

theorem Extends.trans {m m' m'' : TypedMemory V} (h : Extends m m') (h' : Extends m' m'') :
    Extends m m'' :=
  ⟨fun t => Nat.le_trans (h.next_le t) (h'.next_le t),
    fun ha => (h'.read_eq (Nat.lt_of_lt_of_le ha (h.next_le _))).trans (h.read_eq ha)⟩

/-- Only the contents at the listed addresses may differ. -/
structure Touches (refs : List (τ × ℕ)) (m m' : TypedMemory V) : Prop where
  next_eq : ∀ t, (m' t).next = (m t).next
  read_eq : ∀ {t a}, (t, a) ∉ refs → (m' t).read a = (m t).read a

theorem Touches.refl (refs : List (τ × ℕ)) (m : TypedMemory V) : Touches refs m m :=
  ⟨fun _ => rfl, fun _ => rfl⟩

theorem Touches.trans {refs refs' : List (τ × ℕ)} {m m' m'' : TypedMemory V}
    (h : Touches refs m m') (h' : Touches refs' m' m'') : Touches (refs ++ refs') m m'' := by
  refine ⟨fun t => (h'.next_eq t).trans (h.next_eq t), fun ha => ?_⟩
  obtain ⟨hr, hr'⟩ := not_or.mp (mt List.mem_append.mpr ha)
  exact (h'.read_eq hr').trans (h.read_eq hr)

variable [DecidableEq τ]

def write (m : TypedMemory V) (t : τ) (a : ℕ) (v : V t) : TypedMemory V :=
  Function.update m t ((m t).write a v)

def alloc (m : TypedMemory V) (t : τ) (v : V t) : TypedMemory V :=
  Function.update m t ((m t).alloc v)

@[simp] theorem write_read_self (m : TypedMemory V) (t : τ) (a : ℕ) (v : V t) :
    ((m.write t a v) t).read a = v := by
  simp [write]

theorem write_read_of_ne (m : TypedMemory V) {t t' : τ} {a b : ℕ} (h : (t', b) ≠ (t, a))
    (v : V t) : ((m.write t a v) t').read b = (m t').read b := by
  by_cases ht : t' = t
  · subst ht
    have hb : b ≠ a := fun hb => h (by rw [hb])
    simp [write, Memory.write_read_of_ne _ hb]
  · simp [write, ht]

@[simp] theorem write_next (m : TypedMemory V) (t t' : τ) (a : ℕ) (v : V t) :
    ((m.write t a v) t').next = (m t').next := by
  by_cases ht : t' = t
  · subst ht
    simp [write]
  · simp [write, ht]

@[simp] theorem alloc_read_next (m : TypedMemory V) (t : τ) (v : V t) :
    ((m.alloc t v) t).read (m t).next = v := by
  simp [alloc]

@[simp] theorem alloc_next_self (m : TypedMemory V) (t : τ) (v : V t) :
    ((m.alloc t v) t).next = (m t).next + 1 := by
  simp [alloc]

theorem extends_alloc (m : TypedMemory V) (t : τ) (v : V t) : Extends m (m.alloc t v) := by
  constructor
  · intro t'
    by_cases ht : t' = t
    · subst ht
      simp [alloc]
    · simp [alloc, ht]
  · intro t' a ha
    by_cases ht : t' = t
    · subst ht
      simp [alloc, Memory.alloc_read_of_lt _ ha]
    · simp [alloc, ht]

theorem touches_write (m : TypedMemory V) (t : τ) (a : ℕ) (v : V t) :
    Touches [(t, a)] m (m.write t a v) :=
  ⟨fun t' => m.write_next t t' a v, fun ha => m.write_read_of_ne (by simpa using ha) v⟩

end TypedMemory
