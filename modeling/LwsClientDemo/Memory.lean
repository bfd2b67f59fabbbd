import Mathlib.Algebra.Ring.Int.Defs
import Mathlib.Algebra.Ring.Nat
import Mathlib.Data.List.Basic

namespace lws_client

/-- The largest C object. `malloc` and `realloc` return NULL above it. -/
def PTRDIFF_MAX : Nat := 2 ^ 63 - 1

/-- The largest `int`. -/
def INT_MAX : Int := 2 ^ 31 - 1

/-- `a + b` and `a - b` in `size_t`, modulo `2 ^ 64`. -/
def size_add (a b : Nat) : Nat := (a + b) % 2 ^ 64

def size_sub (a b : Nat) : Nat := (a + (2 ^ 64 - b % 2 ^ 64)) % 2 ^ 64

/-- `2 * x` in a 32-bit `int` (wrapping; C leaves the overflow undefined). -/
def int_double (x : Int) : Int := (x * 2).bmod (2 ^ 32)

/-- `(int)n` for a `size_t`. -/
def int_of_size (n : Nat) : Int := (n : Int).bmod (2 ^ 32)

/-- `(size_t)n` for an `int`. -/
def size_of_int (n : Int) : Nat := (n % 2 ^ 64).toNat

/-- A C object: its bytes, and whether they may be written. -/
structure Object where
  bytes : List UInt8
  writable : Bool
  deriving DecidableEq

structure Ptr where
  object : Object
  offset : Nat
  deriving DecidableEq

/-- `malloc(size)`. `ok` is the allocator's answer. Fresh bytes are
    indeterminate in C and never read before they are written here. -/
def malloc (ok : Bool) (size : Nat) : Option Object :=
  if ok && decide (size ≤ PTRDIFF_MAX) then some ⟨List.replicate size 0, true⟩ else none

/-- `memcpy(object + offset, data, len)`. -/
def Object.memcpy (o : Object) (offset : Nat) (data : List UInt8) : Object :=
  { o with bytes := o.bytes.take offset ++ data ++ o.bytes.drop (offset + data.length) }

/-- The `len` bytes at the pointer. -/
def Ptr.read (p : Ptr) (len : Nat) : List UInt8 := (p.object.bytes.drop p.offset).take len

/-- A caller's buffer `(data, len)`: a C object, so no longer than `PTRDIFF_MAX`. -/
structure Data where
  bytes : List UInt8
  length_le : bytes.length ≤ PTRDIFF_MAX

theorem one_byte : 1 ≤ PTRDIFF_MAX := by decide

theorem two_bytes : 2 ≤ PTRDIFF_MAX := by decide

theorem malloc_eq_some {ok : Bool} {size : Nat} {o : Object} (h : malloc ok size = some o) :
    size ≤ PTRDIFF_MAX ∧ o.bytes.length = size ∧ o.writable = true := by
  simp only [malloc, Option.ite_none_right_eq_some, Bool.and_eq_true, decide_eq_true_eq,
    Option.some.injEq] at h
  obtain ⟨⟨_, hsize⟩, rfl⟩ := h
  exact ⟨hsize, by simp, rfl⟩

/-- Copying inside the object keeps its size. -/
theorem Object.memcpy_length {o : Object} {offset : Nat} {data : List UInt8}
    (hroom : offset + data.length ≤ o.bytes.length) :
    (o.memcpy offset data).bytes.length = o.bytes.length := by
  simp only [Object.memcpy, List.length_append, List.length_take, List.length_drop]
  omega

/-- Reading back what was copied inside the object. -/
theorem Object.memcpy_read {o : Object} {offset : Nat} {data : List UInt8}
    (hroom : offset ≤ o.bytes.length) :
    (Ptr.mk (o.memcpy offset data) offset).read data.length = data := by
  have htake : (o.bytes.take offset).length = offset := List.length_take_of_le hroom
  simp only [Ptr.read, Object.memcpy, List.append_assoc]
  rw [List.drop_left' htake, List.take_left' rfl]

theorem size_add_of_lt {a b : Nat} (h : a + b < 2 ^ 64) : size_add a b = a + b :=
  Nat.mod_eq_of_lt h

theorem int_double_of_le {x : Int} (h : 0 ≤ x) (hmax : 2 * x ≤ INT_MAX) : int_double x = 2 * x := by
  simp only [INT_MAX] at hmax
  rw [int_double, Int.bmod_eq_of_le (by omega) (by omega)]
  omega

theorem size_add_mod (a b : Nat) : size_add (a % 2 ^ 64) b = (a + b) % 2 ^ 64 := by
  simp [size_add]

theorem size_sub_add_mod (a b : Nat) : size_sub ((a + b) % 2 ^ 64) b = a % 2 ^ 64 := by
  simp only [size_sub]
  omega

end lws_client
