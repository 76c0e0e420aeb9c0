import Veto.Foundation.Bytes
import Veto.Foundation.Result

/-!
# Readers that move through a buffer

A `Cursor` reads a value at an offset and says where it stopped.  `Reads r bytes a` is the
contract of one: wherever `bytes` stand in a buffer, `r` takes them and returns `a`.  Readers
run one after the other read what was written one after the other (`Reads.bind`), so a decoder
is checked field by field in the order of the layout.
-/

namespace Veto.Foundation

/-- A reader of a buffer from an offset on, with the offset it leaves behind. -/
def Cursor (ε α : Type) : Type := Bytes → Nat → Except ε (α × Nat)

namespace Cursor

variable {ε α β : Type}

instance : Monad (Cursor ε) where
  pure a := fun _ off => .ok (a, off)
  bind r next := fun data off => do
    let (a, off) ← r data off
    next a data off

/-- A read at the offset that is known to take `n` bytes. -/
def fixed (n : Nat) (read : Bytes → Nat → Except ε α) : Cursor ε α := fun data off => do
  return (← read data off, off + n)

/-- `r`, `n` times. -/
def times (r : Cursor ε α) : Nat → Cursor ε (List α)
  | 0 => pure []
  | n + 1 => do
      let a ← r
      let rest ← times r n
      return a :: rest

/-- What `r` reads at `off`. -/
def readAt (r : Cursor ε α) (data : Bytes) (off : Nat) : Except ε α :=
  (r data off).map Prod.fst

end Cursor

open Cursor

section Contract

variable {ε α β : Type}

/-- Wherever `bytes` stand, `r` takes them and returns `a`. -/
def Reads (r : Cursor ε α) (bytes : Bytes) (a : α) : Prop :=
  ∀ ⦃data : Bytes⦄ ⦃off : Nat⦄ ⦃rest : Bytes⦄, off ≤ data.length →
    data.drop off = bytes ++ rest → r data off = .ok (a, off + bytes.length)

/-- A part of a buffer ends inside it. -/
theorem end_le_of_drop {data part rest : Bytes} {off : Nat} (hoff : off ≤ data.length)
    (h : data.drop off = part ++ rest) : off + part.length ≤ data.length := by
  have hlength := congrArg List.length h
  rw [List.length_drop, List.length_append] at hlength
  omega

theorem subarray_of_drop {data part rest : Bytes} {off : Nat} (h : data.drop off = part ++ rest) :
    subarray data off (off + part.length) = part := by
  rw [subarray, List.drop_take, h, Nat.add_sub_cancel_left, List.take_left]

theorem Reads.pure (a : α) : Reads (Pure.pure a : Cursor ε α) [] a :=
  fun _ _ _ _ _ => rfl

/-- Readers in sequence read the bytes in sequence. -/
theorem Reads.bind {r : Cursor ε α} {next : α → Cursor ε β} {front back : Bytes} {a : α} {b : β}
    (hr : Reads r front a) (hnext : Reads (next a) back b) :
    Reads (r >>= next) (front ++ back) b := by
  intro data off rest hoff h
  rw [List.append_assoc] at h
  have hfirst := hr hoff h
  have hback : data.drop (off + front.length) = back ++ rest := by
    rw [← List.drop_drop, h, List.drop_left]
  have hsecond := hnext (end_le_of_drop hoff h) hback
  rw [Nat.add_assoc, ← List.length_append] at hsecond
  calc (r >>= next) data off
      = next a data (off + front.length) := by
        change (r data off >>= fun p => next p.1 data p.2) = _
        rw [hfirst, ok_bind]
    _ = .ok (b, off + (front ++ back).length) := hsecond

/-- The last read of a decoder, and the record made of it. -/
theorem Reads.last {r : Cursor ε α} {record : α → β} {bytes : Bytes} {a : α}
    (hr : Reads r bytes a) : Reads (r >>= fun a => Pure.pure (record a)) bytes (record a) := by
  have hrecord : Reads (Pure.pure (record a) : Cursor ε β) [] (record a) := Reads.pure (record a)
  have hall : Reads (r >>= fun a => Pure.pure (record a)) (bytes ++ []) (record a) :=
    hr.bind hrecord
  rwa [List.append_nil] at hall

theorem Reads.fixed {read : Bytes → Nat → Except ε α} {n : Nat} {bytes : Bytes} {a : α}
    (hlength : bytes.length = n)
    (h : ∀ data off, subarray data off (off + n) = bytes → off + n ≤ data.length →
      read data off = .ok a) : Reads (Cursor.fixed n read) bytes a := by
  intro data off rest hoff hdrop
  subst hlength
  have hread := h data off (subarray_of_drop hdrop) (end_le_of_drop hoff hdrop)
  rw [Cursor.fixed, hread, ok_bind]
  rfl

/-- A loop reads an array of records. -/
theorem Reads.times {γ : Type} {r : Cursor ε β} {bytesOf : γ → Bytes} {view : γ → β}
    (hr : ∀ c, Reads r (bytesOf c) (view c)) (cs : List γ) :
    Reads (r.times cs.length) (cs.flatMap bytesOf) (cs.map view) := by
  induction cs with
  | nil => exact Reads.pure []
  | cons c cs ih =>
      rw [List.flatMap_cons]
      exact (hr c).bind ih.last

/-- What a reader makes of a buffer that holds its bytes. -/
theorem Reads.readAt {r : Cursor ε α} {front bytes rest : Bytes} {a : α} (hr : Reads r bytes a) :
    r.readAt (front ++ (bytes ++ rest)) front.length = .ok a := by
  have hoff : front.length ≤ (front ++ (bytes ++ rest)).length := by
    rw [List.length_append]
    exact Nat.le_add_right _ _
  rw [Cursor.readAt, hr hoff List.drop_left]
  rfl

end Contract

end Veto.Foundation
