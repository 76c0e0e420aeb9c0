import Mathlib.Data.List.Basic
import Mathlib.Tactic.Ring

/-!
# Bytes, layouts and reads

Fixed-width numbers as little-endian bytes, the layout of a `repr(C)` structure, and
reads of a buffer at an offset.  A field read back from a structure is found by walking
the concatenation: `subarray_append_left` at its place, `subarray_append_right` before it.
-/

namespace Veto.Foundation

abbrev Bytes := List UInt8

/-! ## Little-endian numbers -/

/-- The `k` low bytes of a number, least significant first. -/
def toLE : Nat → Nat → Bytes
  | 0, _ => []
  | k + 1, n => UInt8.ofNat n :: toLE k (n / 256)

def ofLE : Bytes → Nat
  | [] => 0
  | b :: bs => b.toNat + 256 * ofLE bs

@[simp] theorem length_toLE (k n : Nat) : (toLE k n).length = k := by
  induction k generalizing n with
  | zero => rfl
  | succ k ih => simp [toLE, ih]

theorem ofLE_toLE {k n : Nat} (h : n < 256 ^ k) : ofLE (toLE k n) = n := by
  induction k generalizing n with
  | zero => simp [toLE, ofLE]; omega
  | succ k ih =>
      have hquot : n / 256 < 256 ^ k := by
        apply Nat.div_lt_of_lt_mul
        simpa [pow_succ, Nat.mul_comm] using h
      have hbyte : (UInt8.ofNat n).toNat = n % 256 := by simp
      rw [toLE, ofLE, ih hquot, hbyte]
      omega

theorem ofLE_lt (bytes : Bytes) : ofLE bytes < 256 ^ bytes.length := by
  induction bytes with
  | nil => simp [ofLE]
  | cons b bytes ih =>
      have hb := b.toNat_lt
      rw [ofLE, List.length_cons, pow_succ]
      omega

theorem toLE_ofLE (bytes : Bytes) : toLE bytes.length (ofLE bytes) = bytes := by
  induction bytes with
  | nil => rfl
  | cons b bytes ih =>
      have hb := b.toNat_lt
      have hquot : (b.toNat + 256 * ofLE bytes) / 256 = ofLE bytes := by omega
      have hlow : UInt8.ofNat (b.toNat + 256 * ofLE bytes) = b := by
        apply UInt8.toNat_inj.mp
        rw [UInt8.toNat_ofNat']
        omega
      rw [List.length_cons, toLE, ofLE, hquot, hlow, ih]

/-- The bytes one by one. -/
theorem toLE_eq_map (k n : Nat) :
    toLE k n = (List.range k).map fun i => UInt8.ofNat (n >>> (8 * i)) := by
  induction k generalizing n with
  | zero => rfl
  | succ k ih =>
      have hshift : ∀ i, (n / 256) >>> (8 * i) = n >>> (8 * (i + 1)) := by
        intro i
        rw [Nat.mul_add, Nat.mul_one, Nat.add_comm, Nat.shiftRight_add,
          Nat.shiftRight_eq_div_pow n 8]
      simp only [toLE, ih, List.range_succ_eq_map, List.map_cons, List.map_map, Nat.mul_zero,
        Nat.shiftRight_zero, hshift, Function.comp_def, Nat.succ_eq_add_one]

/-! ## Structures in memory -/

/-- The fields of a `repr(C)` structure from offset `off` on, each at the next multiple
of its alignment. -/
def fieldsFrom (off : Nat) : List (Nat × Bytes) → Bytes
  | [] => []
  | (align, bytes) :: fields =>
      let pad := (align - off % align) % align
      List.replicate pad 0 ++ (bytes ++ fieldsFrom (off + pad + bytes.length) fields)

/-- A `repr(C)` structure, filled up to a multiple of its largest alignment. -/
def reprC (fields : List (Nat × Bytes)) : Bytes :=
  let body := fieldsFrom 0 fields
  let align := fields.foldr (fun field most => max field.1 most) 1
  body ++ List.replicate ((align - body.length % align) % align) 0

/-! ## Reads -/

/-- The bytes from `start` to before `stop`, cut at the end of the buffer. -/
def subarray (data : Bytes) (start stop : Nat) : Bytes := (data.take stop).drop start

section Subarray

variable {a b data : Bytes} {i j n : Nat}

@[simp] theorem length_subarray :
    (subarray data i j).length = min j data.length - i := by
  simp [subarray]

@[simp] theorem subarray_append_left (h : a.length = n) : subarray (a ++ b) 0 n = a := by
  simp [subarray, ← h]

theorem subarray_whole (h : a.length = n) : subarray a 0 n = a := by
  simpa using subarray_append_left (b := []) h

@[simp] theorem subarray_append_right (h : a.length ≤ i) :
    subarray (a ++ b) i j = subarray b (i - a.length) (j - a.length) := by
  have hcount : j - i = j - a.length - (i - a.length) := by omega
  rw [subarray, subarray, List.drop_take, List.drop_take, List.drop_append,
    List.drop_eq_nil_of_le h, List.nil_append, hcount]

@[simp] theorem subarray_cons_zero (x : UInt8) : subarray (x :: data) 0 1 = [x] := rfl

@[simp] theorem subarray_cons_succ (x : UInt8) :
    subarray (x :: data) (i + 1) (j + 1) = subarray data i j := rfl

theorem subarray_subarray (h : i + n ≤ j) {start stop : Nat} (hstop : stop ≤ n) :
    subarray (subarray data i j) start stop = subarray data (i + start) (i + stop) := by
  have hcut : ((data.take j).drop i).take stop = (data.take (i + stop)).drop i := by
    rw [List.take_drop, List.take_take, Nat.min_eq_left (by omega)]
  rw [subarray, subarray, hcut, List.drop_drop, subarray]

theorem subarray_drop (k : Nat) :
    subarray (data.drop k) i j = subarray data (k + i) (k + j) := by
  have hcount : k + j - (k + i) = j - i := by omega
  rw [subarray, subarray, List.drop_take, List.drop_take, List.drop_drop, hcount]

/-- A buffer is read on where the last read stopped. -/
theorem subarray_append_drop (h : i ≤ j) : subarray data i j ++ data.drop j = data.drop i := by
  have hwhole := List.take_append_drop j data
  have hrest : (data.drop j).drop (i - (data.take j).length) = data.drop j := by
    rw [List.length_take]
    rcases Nat.le_total j data.length with hlong | hshort
    · rw [Nat.min_eq_left hlong, Nat.sub_eq_zero_of_le h, List.drop_zero]
    · rw [List.drop_eq_nil_of_le hshort, List.drop_nil]
  calc subarray data i j ++ data.drop j
      = (data.take j ++ data.drop j).drop i := by rw [List.drop_append, hrest, subarray]
    _ = data.drop i := by rw [hwhole]

/-- An array of records of one size, read at an index. -/
theorem subarray_flatMap {α : Type} {f : α → Bytes} {size : Nat}
    (hsize : ∀ x, (f x).length = size) {xs : List α} {k : Nat} (hk : k < xs.length) :
    subarray (xs.flatMap f) (k * size) (k * size + size) = f xs[k] := by
  induction xs generalizing k with
  | nil => exact absurd hk (Nat.not_lt_zero k)
  | cons x xs ih =>
      cases k with
      | zero =>
          rw [Nat.zero_mul, Nat.zero_add, List.flatMap_cons]
          exact subarray_append_left (hsize x)
      | succ k =>
          have hk' : k < xs.length := Nat.lt_of_succ_lt_succ hk
          have hoff : (k + 1) * size = size + k * size := by ring
          rw [List.flatMap_cons, hoff, subarray_append_right (by rw [hsize]; omega), hsize]
          have hstop : size + k * size + size - size = k * size + size := by omega
          rw [hstop, Nat.add_sub_cancel_left]
          exact ih hk'

theorem length_flatMap_of_size {α : Type} {f : α → Bytes} {size : Nat}
    (hsize : ∀ x, (f x).length = size) (xs : List α) :
    (xs.flatMap f).length = xs.length * size := by
  induction xs with
  | nil => simp
  | cons x xs ih =>
      rw [List.flatMap_cons, List.length_append, ih, hsize, List.length_cons]
      ring

end Subarray

/-- What a reader throws. -/
inductive Thrown where
  | error (message : String)
  | outOfRange
  deriving DecidableEq, Repr

/-- Read `k` bytes at `off` as a number, which throws past the end of the buffer. -/
def readUIntLE (k : Nat) (data : Bytes) (off : Nat) : Except Thrown Nat :=
  if off + k ≤ data.length then .ok (ofLE (subarray data off (off + k))) else .error .outOfRange

theorem readUIntLE_toLE {k n off : Nat} {data : Bytes} (hk : 0 < k) (hn : n < 256 ^ k)
    (h : subarray data off (off + k) = toLE k n) : readUIntLE k data off = .ok n := by
  have hlength : min (off + k) data.length - off = k := by
    rw [← length_subarray, h, length_toLE]
  rw [readUIntLE, if_pos (by omega), h, ofLE_toLE hn]

def readUInt8 (data : Bytes) (off : Nat) : Except Thrown UInt8 :=
  (readUIntLE 1 data off).map UInt8.ofNat

def readUInt16LE (data : Bytes) (off : Nat) : Except Thrown UInt16 :=
  (readUIntLE 2 data off).map UInt16.ofNat

def readUInt32LE (data : Bytes) (off : Nat) : Except Thrown UInt32 :=
  (readUIntLE 4 data off).map UInt32.ofNat

def readBigUInt64LE (data : Bytes) (off : Nat) : Except Thrown UInt64 :=
  (readUIntLE 8 data off).map UInt64.ofNat

def readBigInt64LE (data : Bytes) (off : Nat) : Except Thrown Int64 :=
  (readUIntLE 8 data off).map fun n => (UInt64.ofNat n).toInt64

section Reads

variable {data : Bytes} {off : Nat}

theorem readUInt8_eq {v : UInt8} (h : subarray data off (off + 1) = [v]) :
    readUInt8 data off = .ok v := by
  have hbytes : [v] = toLE 1 v.toNat := by simp [toLE]
  rw [readUInt8, readUIntLE_toLE (by omega) v.toNat_lt (h.trans hbytes)]
  simp [Except.map]

theorem readUInt16LE_eq {v : UInt16} (h : subarray data off (off + 2) = toLE 2 v.toNat) :
    readUInt16LE data off = .ok v := by
  rw [readUInt16LE, readUIntLE_toLE (by omega) v.toNat_lt h]
  simp [Except.map]

theorem readUInt32LE_eq {v : UInt32} (h : subarray data off (off + 4) = toLE 4 v.toNat) :
    readUInt32LE data off = .ok v := by
  rw [readUInt32LE, readUIntLE_toLE (by omega) v.toNat_lt h]
  simp [Except.map]

theorem readBigUInt64LE_eq {v : UInt64} (h : subarray data off (off + 8) = toLE 8 v.toNat) :
    readBigUInt64LE data off = .ok v := by
  rw [readBigUInt64LE, readUIntLE_toLE (by omega) v.toNat_lt h]
  simp [Except.map]

theorem readBigUInt64LE_eq_ok_iff {v : UInt64} (h : off + 8 ≤ data.length) :
    readBigUInt64LE data off = .ok v ↔ subarray data off (off + 8) = toLE 8 v.toNat := by
  constructor
  · intro hread
    have hlength : (subarray data off (off + 8)).length = 8 := by
      rw [length_subarray]
      omega
    have hlt := ofLE_lt (subarray data off (off + 8))
    rw [hlength] at hlt
    rw [readBigUInt64LE, readUIntLE, if_pos h, Except.map, Except.ok.injEq] at hread
    rw [← hread, UInt64.toNat_ofNat_of_lt' hlt]
    conv => lhs; rw [← toLE_ofLE (subarray data off (off + 8)), hlength]
  · exact readBigUInt64LE_eq

theorem readBigInt64LE_eq {v : Int64}
    (h : subarray data off (off + 8) = toLE 8 v.toUInt64.toNat) :
    readBigInt64LE data off = .ok v := by
  rw [readBigInt64LE, readUIntLE_toLE (by omega) v.toUInt64.toNat_lt h]
  simp [Except.map]

end Reads

end Veto.Foundation
