import Veto.Foundation.Utf16
import Veto.Foundation.Utf8

/-!
# Text that was cut off

A prefix of the bytes of a text is the bytes of a prefix of the text, and of the next character the
first bytes, all of them above ASCII.  What such bytes decode to stays above ASCII, and what follows
them is decoded as if it stood alone, when it starts with ASCII.
-/

namespace Veto.Foundation

def textBytes (text : Text) : Bytes := text.flatMap String.utf8EncodeChar

theorem textBytes_append (text more : Text) :
    textBytes (text ++ more) = textBytes text ++ textBytes more := List.flatMap_append

theorem textBytes_cons (c : Char) (text : Text) :
    textBytes (c :: text) = String.utf8EncodeChar c ++ textBytes text := List.flatMap_cons

theorem decodeUtf8_textBytes (text : Text) (rest : Bytes) :
    decodeUtf8 0 (textBytes text ++ rest) = text ++ decodeUtf8 0 rest := by
  induction text with
  | nil => rfl
  | cons c text ih =>
      rw [textBytes_cons, List.append_assoc, decodeUtf8_encode, ih, List.cons_append]

/-! ## The bytes of a character -/

/-- A byte of a character beyond ASCII. -/
def isHigh (b : UInt8) : Bool := 0x80 ≤ b

/-- A character is one byte below 0x80, or bytes above. -/
theorem utf8EncodeChar_cases (c : Char) :
    (c.toNat < 0x80 ∧ String.utf8EncodeChar c = [UInt8.ofNat c.toNat]) ∨
      (0x80 ≤ c.toNat ∧ ∀ b ∈ String.utf8EncodeChar c, isHigh b = true) := by
  have hbyte : ∀ n, n < 256 → (UInt8.ofNat n).toNat = n := fun n hn => UInt8.toNat_ofNat_of_lt' hn
  have hhigh : ∀ n, 0x80 ≤ n → n < 256 → isHigh (UInt8.ofNat n) = true := by
    intro n hmin hmax
    rw [isHigh, decide_eq_true_eq, UInt8.le_iff_toNat_le, hbyte n hmax]
    exact hmin
  have hrange := char_toNat_range c
  change c.val.toNat < _ ∨ _ < c.val.toNat ∧ c.val.toNat < _ at hrange
  change (c.val.toNat < _ ∧ _) ∨ _ ≤ c.val.toNat ∧ _
  unfold String.utf8EncodeChar
  dsimp only
  split
  · next h => exact .inl ⟨by omega, rfl⟩
  split
  · next h _ =>
    refine .inr ⟨by omega, fun b hb => ?_⟩
    simp only [List.mem_cons, List.not_mem_nil, or_false] at hb
    rcases hb with rfl | rfl <;> exact hhigh _ (by omega) (by omega)
  split
  · next h _ _ =>
    refine .inr ⟨by omega, fun b hb => ?_⟩
    simp only [List.mem_cons, List.not_mem_nil, or_false] at hb
    rcases hb with rfl | rfl | rfl <;> exact hhigh _ (by omega) (by omega)
  · next h _ _ =>
    refine .inr ⟨by omega, fun b hb => ?_⟩
    simp only [List.mem_cons, List.not_mem_nil, or_false] at hb
    rcases hb with rfl | rfl | rfl | rfl <;> exact hhigh _ (by omega) (by omega)

/-- A character at the head of a buffer is encoded there. -/
theorem encode_of_charAt {data : Bytes} {c : Char} (h : charAt data = some c) :
    String.utf8EncodeChar c <+: data := by
  obtain ⟨rest, hrest⟩ := ByteArray.exists_of_utf8DecodeChar?_eq_some h
  have hlist := congrArg (fun bytes => bytes.data.toList) hrest
  simp only [List.data_toByteArray, ByteArray.data_append, Array.toList_append] at hlist
  exact (List.prefix_append ..).trans (hlist ▸ List.take_prefix 4 data)

/-! ## Decoding high bytes -/

theorem decodeUtf8_skips {skip : Nat} {bytes rest : Bytes} (h : skip ≤ bytes.length) :
    decodeUtf8 skip (bytes ++ rest) = decodeUtf8 0 (bytes.drop skip ++ rest) := by
  induction skip generalizing bytes with
  | zero => rfl
  | succ skip ih =>
      cases bytes with
      | nil => exact absurd h (by simp)
      | cons b bytes => exact ih (Nat.le_of_succ_le_succ h)

/-- The rest is empty or starts with ASCII. -/
def StartsPlain (rest : Bytes) : Prop := ∀ b ∈ rest.head?, isHigh b = false

theorem not_allowsSecond {first second : UInt8} (h : isHigh second = false) :
    allowsSecond first second = false ∧ isContinuation second = false := by
  have hcontinuation : isContinuation second = false := by
    unfold isContinuation
    rw [isHigh] at h
    rw [h, Bool.false_and]
  exact ⟨by simp [allowsSecond, hcontinuation], hcontinuation⟩

theorem brokenTail_le {first : UInt8} {bytes rest : Bytes} (hrest : StartsPlain rest) :
    brokenTail first (bytes ++ rest) ≤ bytes.length := by
  have hnone : ∀ b more, rest = b :: more →
      allowsSecond first b = false ∧ isContinuation b = false := by
    rintro b more rfl
    exact not_allowsSecond (hrest b rfl)
  match bytes with
  | [] =>
      rw [List.nil_append]
      unfold brokenTail
      cases rest with
      | nil => split_ifs <;> simp
      | cons b more =>
          have hb := (hnone b more rfl).1
          cases more <;> split_ifs <;> simp_all
  | [x] =>
      rw [List.singleton_append]
      unfold brokenTail
      cases rest with
      | nil => split_ifs <;> simp_all <;> split <;> simp
      | cons b more =>
          have hb := (hnone b more rfl).2
          split_ifs <;> simp_all <;> split <;> simp
  | x :: y :: bytes =>
      rw [List.cons_append, List.cons_append, List.length_cons, List.length_cons]
      unfold brokenTail
      split_ifs <;> simp <;> split_ifs <;> omega

/-- **Bytes beyond ASCII decode to characters beyond ASCII, and leave the rest alone.** -/
theorem decodeUtf8_high {high rest : Bytes} (hhigh : ∀ b ∈ high, isHigh b = true)
    (hrest : StartsPlain rest) :
    ∃ tail, decodeUtf8 0 (high ++ rest) = tail ++ decodeUtf8 0 rest ∧
      (∀ c ∈ tail, 0x80 ≤ c.toNat) ∧ (tail = [] ↔ high = []) := by
  induction hlength : high.length using Nat.strongRecOn generalizing high with
  | ind n ih =>
    cases high with
    | nil => exact ⟨[], rfl, nofun, fun _ => rfl, fun _ => rfl⟩
    | cons b high =>
      have hskip : ∀ {skip}, skip ≤ high.length → ∀ c : Char, 0x80 ≤ c.toNat →
          ∃ tail, c :: decodeUtf8 skip (high ++ rest) = tail ++ decodeUtf8 0 rest ∧
            (∀ c ∈ tail, 0x80 ≤ c.toNat) ∧ (tail = [] ↔ b :: high = []) := by
        intro skip hle c hc
        obtain ⟨tail, htail, hplain, -⟩ := ih (high.drop skip).length
          (by rw [List.length_drop, ← hlength, List.length_cons]; omega)
          (fun b hb => hhigh b (List.mem_cons_of_mem _ (List.mem_of_mem_drop hb))) rfl
        refine ⟨c :: tail, by rw [decodeUtf8_skips hle, htail]; rfl, ?_, by simp⟩
        exact List.forall_mem_cons.mpr ⟨hc, hplain⟩
      rw [List.cons_append, decodeUtf8]
      cases hchar : charAt (b :: (high ++ rest)) with
      | none => exact hskip (brokenTail_le hrest) _ (by decide)
      | some c =>
          obtain ⟨more, hmore⟩ := encode_of_charAt hchar
          have hsize := String.length_utf8EncodeChar c
          rcases utf8EncodeChar_cases c with ⟨hascii, hbyte⟩ | ⟨hplain, hbytes⟩
          · rw [hbyte] at hmore
            obtain rfl : UInt8.ofNat c.toNat = b := (List.cons.inj hmore).1
            have hb := hhigh _ List.mem_cons_self
            rw [isHigh, decide_eq_true_eq, UInt8.le_iff_toNat_le,
              UInt8.toNat_ofNat_of_lt' (by change _ < 256; omega)] at hb
            exact absurd hascii (Nat.not_lt.mpr hb)
          · have hfits : c.utf8Size ≤ high.length + 1 := by
              rcases List.append_eq_append_iff.mp (show _ ++ more = (b :: high) ++ rest from hmore) with
                ⟨after, hafter, -⟩ | ⟨after, hafter, hrest'⟩
              · rw [← hsize, ← List.length_cons, hafter, List.length_append]
                exact Nat.le_add_right _ _
              · cases after with
                | nil =>
                    rw [List.append_nil] at hafter
                    exact Nat.le_of_eq (hsize.symm.trans (congrArg List.length hafter))
                | cons x after =>
                    have hlow := hrest x (by rw [hrest']; rfl)
                    rw [hbytes x (by rw [hafter]; simp)] at hlow
                    cases hlow
            exact hskip (by omega) c hplain

/-! ## Cutting a text off -/

/-- The first bytes of a text: some characters, and of the next one the first bytes. -/
theorem textBytes_take (text : Text) (kept : Nat) :
    ∃ front high, (textBytes text).take kept = textBytes front ++ high ∧ front <+: text ∧
      (∀ b ∈ high, isHigh b = true) ∧
      (high ≠ [] → ∃ c, front ++ [c] <+: text ∧ 0x80 ≤ c.toNat) ∧
      (front = text ↔ (textBytes text).length ≤ kept) := by
  induction text generalizing kept with
  | nil =>
      refine ⟨[], [], List.take_nil, List.prefix_refl _, nofun, fun h => absurd rfl h, ?_⟩
      exact ⟨fun _ => Nat.zero_le kept, fun _ => rfl⟩
  | cons c text ih =>
      have hsize := c.utf8Size_pos
      have hlength := String.length_utf8EncodeChar c
      rw [textBytes_cons, List.length_append]
      by_cases hle : (String.utf8EncodeChar c).length ≤ kept
      · obtain ⟨front, high, htake, hfront, hhigh, hnext, hwhole⟩ :=
          ih (kept - (String.utf8EncodeChar c).length)
        refine ⟨c :: front, high, ?_, List.prefix_cons_inj c |>.mpr hfront, hhigh, ?_, ?_⟩
        · rw [List.take_append, List.take_of_length_le hle, htake, textBytes_cons, List.append_assoc]
        · intro hne
          obtain ⟨d, hd, hplain⟩ := hnext hne
          exact ⟨d, List.prefix_cons_inj c |>.mpr hd, hplain⟩
        · rw [List.cons.injEq, and_iff_right rfl, hwhole]
          omega
      · have htake : (String.utf8EncodeChar c ++ textBytes text).take kept =
            (String.utf8EncodeChar c).take kept := by
          rw [List.take_append, Nat.sub_eq_zero_of_le (Nat.le_of_not_le hle), List.take_zero,
            List.append_nil]
        have hhigh : (String.utf8EncodeChar c).take kept ≠ [] →
            0x80 ≤ c.toNat ∧ ∀ b ∈ String.utf8EncodeChar c, isHigh b = true := by
          intro hne
          rcases utf8EncodeChar_cases c with ⟨-, hbyte⟩ | hhigh
          · rw [hbyte, List.length_singleton] at hle
            obtain rfl : kept = 0 := by omega
            exact absurd List.take_zero hne
          · exact hhigh
        refine ⟨[], (String.utf8EncodeChar c).take kept, htake, List.nil_prefix, ?_, ?_, ?_⟩
        · intro b hb
          exact (hhigh (List.ne_nil_of_mem hb)).2 b (List.mem_of_mem_take hb)
        · intro hne
          exact ⟨c, List.prefix_append [c] text, (hhigh hne).1⟩
        · simp only [reduceCtorEq, false_iff]
          omega

end Veto.Foundation
