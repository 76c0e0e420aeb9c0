import Veto.Indexer.Events

/-!
# The data lines of the runtime

`sol_log_data` writes a buffer as `Program data: ` and its base 64.  The reader of a data line
gives the buffer back.
-/

namespace Veto.Indexer

open Foundation

def base64Alphabet : List Char :=
  "ABCDEFGHIJKLMNOPQRSTUVWXYZabcdefghijklmnopqrstuvwxyz0123456789+/".toList

def base64Char (n : Nat) : Char := base64Alphabet.getD n 'A'

/-- The six bits of every character. -/
def sextets : Bytes → List Nat
  | a :: b :: c :: rest =>
      a.toNat / 4 :: (a.toNat % 4 * 16 + b.toNat / 16) :: (b.toNat % 16 * 4 + c.toNat / 64) ::
        c.toNat % 64 :: sextets rest
  | [a, b] => [a.toNat / 4, a.toNat % 4 * 16 + b.toNat / 16, b.toNat % 16 * 4]
  | [a] => [a.toNat / 4, a.toNat % 4 * 16]
  | [] => []

def toBase64 (data : Bytes) : Text :=
  (sextets data).map base64Char ++ List.replicate ((3 - data.length % 3) % 3) '='

/-- What follows `Program data:` on the line of a buffer. -/
def dataText (data : Bytes) : Text := ' ' :: toBase64 data

theorem sextet_base64Char {n : Nat} (h : n < 64) :
    sextet (base64Char n) = n ∧ base64Char n ≠ '=' ∧ isBase64 (base64Char n) = true := by
  have hall : ∀ n : Fin 64, sextet (base64Char n) = n ∧ base64Char n ≠ '=' ∧
      isBase64 (base64Char n) = true := by decide +kernel
  exact hall ⟨n, h⟩

theorem sextets_lt (data : Bytes) : ∀ n ∈ sextets data, n < 64 := by
  induction data using sextets.induct with
  | case1 a b c rest ih =>
      have ha := a.toNat_lt
      have hb := b.toNat_lt
      have hc := c.toNat_lt
      intro n hn
      simp only [sextets, List.mem_cons] at hn
      rcases hn with rfl | rfl | rfl | rfl | hn
      · omega
      · omega
      · omega
      · omega
      · exact ih n hn
  | case2 a b =>
      have ha := a.toNat_lt
      have hb := b.toNat_lt
      intro n hn
      simp only [sextets, List.mem_cons, List.not_mem_nil, or_false] at hn
      omega
  | case3 a =>
      have ha := a.toNat_lt
      intro n hn
      simp only [sextets, List.mem_cons, List.not_mem_nil, or_false] at hn
      omega
  | case4 => exact fun n hn => nomatch hn

theorem uint8_eq {n : Nat} {a : UInt8} (h : n % 256 = a.toNat) : UInt8.ofNat n = a := by
  apply UInt8.toNat.inj
  rw [UInt8.toNat_ofNat']
  exact h

theorem joinSextets_sextets (data : Bytes) : joinSextets (sextets data) = data := by
  induction data using sextets.induct with
  | case1 a b c rest ih =>
      have ha := a.toNat_lt
      have hb := b.toNat_lt
      have hc := c.toNat_lt
      rw [sextets, joinSextets, ih, uint8_eq (a := a) (by omega), uint8_eq (a := b) (by omega),
        uint8_eq (a := c) (by omega)]
  | case2 a b =>
      have ha := a.toNat_lt
      have hb := b.toNat_lt
      rw [sextets, joinSextets, uint8_eq (a := a) (by omega), uint8_eq (a := b) (by omega)]
  | case3 a =>
      have ha := a.toNat_lt
      rw [sextets, joinSextets, uint8_eq (a := a) (by omega)]
  | case4 => rfl

/-- A buffer is read back from its base 64. -/
theorem fromBase64_toBase64 (data : Bytes) : fromBase64 (toBase64 data) = data := by
  have hchars : ∀ c ∈ (sextets data).map base64Char, (decide (c ≠ '=')) = true := by
    intro c hc
    obtain ⟨n, hn, rfl⟩ := List.mem_map.mp hc
    exact decide_eq_true (sextet_base64Char (sextets_lt data n hn)).2.1
  have hpad : (List.replicate ((3 - data.length % 3) % 3) '=').head?.all
      (fun c => !decide (c ≠ '=')) = true := by
    cases (3 - data.length % 3) % 3 <;> rfl
  have hmap : ((sextets data).map base64Char).map sextet = sextets data := by
    rw [List.map_map]
    conv_rhs => rw [← List.map_id (sextets data)]
    exact List.map_congr_left fun n hn => (sextet_base64Char (sextets_lt data n hn)).1
  unfold fromBase64 toBase64
  rw [takeWhile_append_of_stops hchars hpad, hmap, joinSextets_sextets]

theorem toBase64_ne_nil {data : Bytes} (h : data ≠ []) : toBase64 data ≠ [] := by
  unfold toBase64
  match data, h with
  | [_], _ => simp [sextets]
  | [_, _], _ => simp [sextets]
  | _ :: _ :: _ :: _, _ => simp [sextets]

/-- A data line of the runtime gives its buffer. -/
theorem programData_line {data : Bytes} (h : data ≠ []) :
    (programData (lit "Program data:" ++ dataText data)).map fromBase64 = some data := by
  have hsplit : lit "Program data:" ++ dataText data = lit "Program data: " ++ toBase64 data := by
    simp [lit, dataText]
  have hword : (lit "Program data: " ++ toBase64 data).dropPrefix? (lit "Program data: ") =
      some (toBase64 data) := dropPrefix?_eq_some.mpr rfl
  have hclass : takeClass isBase64 (toBase64 data) = some (toBase64 data, []) := by
    apply takeClass_eq_some.mpr
    refine ⟨toBase64_ne_nil h, ?_, rfl, (List.append_nil _).symm⟩
    intro c hc
    rcases List.mem_append.mp hc with hc | hc
    · obtain ⟨n, hn, rfl⟩ := List.mem_map.mp hc
      exact (sextet_base64Char (sextets_lt data n hn)).2.2
    · rw [List.eq_of_mem_replicate hc]
      rfl
  unfold programData
  rw [hsplit, hword]
  simp only [Option.bind_eq_bind, Option.bind_some, hclass, if_true, Option.map_some]
  rw [fromBase64_toBase64]

end Veto.Indexer
