import Veto.Foundation.Decimal
import Veto.Foundation.Result
import Veto.Watcher.Money

/-!
# Meter money is never rounded up

What `sekPerKwhToScaled` makes of every text it accepts, against the rational number the text
denotes, and what the two conversions to base units make of that.
-/

namespace Veto.Watcher

open Foundation

/-! ## Characters -/

theorem isSpace_of_digit {c : Char} (h : c.isDigit = true) : isSpace c = false := by
  rw [← Bool.not_eq_true]
  intro hspace
  rw [isSpace, Bool.or_eq_true] at hspace
  rcases hspace with hmem | hrange
  · have hall : ∀ d ∈ ['\t', '\n', '\x0b', '\x0c', '\r', ' ', '\u00a0', '\u1680', '\u2028',
        '\u2029', '\u202f', '\u205f', '\u3000', '\ufeff'], Char.isDigit d = false := by
      simp [Char.isDigit]
    rw [hall c (of_decide_eq_true hmem)] at h
    cases h
  · have hbounds := Char.isDigit_iff_toNat.mp h
    have hle : '\u2000' ≤ c := by
      rw [Bool.and_eq_true] at hrange
      exact of_decide_eq_true hrange.1
    have hle' : '\u2000'.toNat ≤ c.toNat := hle
    rw [show '\u2000'.toNat = 8192 from rfl] at hle'
    rw [show '9'.toNat = 57 from rfl] at hbounds
    omega

theorem digit_ne {c : Char} (h : c.isDigit = true) :
    c ≠ '+' ∧ c ≠ '-' ∧ c ≠ '.' ∧ c ≠ 'e' ∧ c ≠ 'E' := by
  refine ⟨?_, ?_, ?_, ?_, ?_⟩ <;> (rintro rfl; revert h; decide)

theorem trim_of_not_space {text : Text} (h : ∀ c ∈ text, isSpace c = false) :
    trim text = text := by
  have hdrop : ∀ s : Text, (∀ c ∈ s, isSpace c = false) → s.dropWhile isSpace = s := by
    intro s hs
    cases s with
    | nil => rfl
    | cons c s => rw [List.dropWhile_cons, hs c List.mem_cons_self]; rfl
  rw [trim, hdrop text h, hdrop _ fun c hc => h c (List.mem_reverse.mp hc), List.reverse_reverse]

theorem trim_trim (text : Text) : trim (trim text) = trim text := by
  have hprefix : trim text <+: text.dropWhile isSpace :=
    List.rdropWhile_prefix isSpace (text.dropWhile isSpace)
  have hfront : (trim text).dropWhile isSpace = trim text := by
    cases htrim : trim text with
    | nil => rfl
    | cons c rest =>
        obtain ⟨behind, hbehind⟩ := hprefix
        rw [htrim] at hbehind
        have hc := List.head?_dropWhile_not isSpace text
        rw [← hbehind] at hc
        have hc' : isSpace c = false := by simpa using hc
        rw [List.dropWhile_cons, hc']
        rfl
  rw [trim, hfront]
  exact List.rdropWhile_idempotent isSpace (text.dropWhile isSpace)

/-! ## The sign -/

theorem takeSign_eq {text rest : Text} {sign : Option Char} (h : takeSign text = (sign, rest)) :
    (∀ c ∈ sign, c = '+' ∨ c = '-') ∧ text = sign.toList ++ rest := by
  unfold takeSign at h
  split at h <;> cases h
  · exact ⟨fun c hc => .inl (Option.some.inj hc).symm, rfl⟩
  · exact ⟨fun c hc => .inr (Option.some.inj hc).symm, rfl⟩
  · exact ⟨fun c hc => (nomatch hc), rfl⟩

theorem takeSign_append {sign : Option Char} {rest : Text}
    (hsigned : ∀ c ∈ sign, c = '+' ∨ c = '-') (hplus : rest.head? ≠ some '+')
    (hminus : rest.head? ≠ some '-') : takeSign (sign.toList ++ rest) = (sign, rest) := by
  cases sign with
  | some c =>
      rcases hsigned c rfl with rfl | rfl
      · rfl
      · rfl
  | none =>
      rw [Option.toList_none, List.nil_append, takeSign]
      · rintro rest rfl
        exact hplus rfl
      · rintro rest rfl
        exact hminus rfl

/-- A run of digits begins with no sign. -/
theorem head_run {run : Text} (rest : Text) (hrun : IsRun run) (hne : run ≠ []) :
    ∃ c, (run ++ rest).head? = some c ∧ c.isDigit = true := by
  cases run with
  | nil => exact absurd rfl hne
  | cons c run => exact ⟨c, rfl, hrun c List.mem_cons_self⟩

theorem takeSign_run {sign : Option Char} {run : Text} (rest : Text)
    (hsigned : ∀ c ∈ sign, c = '+' ∨ c = '-') (hrun : IsRun run) (hne : run ≠ []) :
    takeSign (sign.toList ++ (run ++ rest)) = (sign, run ++ rest) := by
  obtain ⟨c, hhead, hc⟩ := head_run rest hrun hne
  apply takeSign_append hsigned <;> rw [hhead] <;> intro h
  · exact (digit_ne hc).1 (Option.some.inj h)
  · exact (digit_ne hc).2.1 (Option.some.inj h)

/-! ## The fraction -/

theorem splitDots_ne_nil (text : Text) : splitDots text ≠ [] := by
  cases text with
  | nil => exact List.cons_ne_nil _ _
  | cons c text =>
      rw [splitDots]
      split
      · split <;> exact List.cons_ne_nil _ _
      · exact List.cons_ne_nil _ _

theorem splitDots_cons {c : Char} {text part : Text} {parts : List Text}
    (h : splitDots text = part :: parts) :
    splitDots (c :: text) = if c = '.' then [] :: part :: parts else (c :: part) :: parts := by
  rw [splitDots, h]

/-- A point behind text without one. -/
theorem splitDots_append {word rest part : Text} {parts : List Text} (hword : '.' ∉ word)
    (h : splitDots rest = part :: parts) : splitDots (word ++ rest) = (word ++ part) :: parts := by
  induction word with
  | nil => exact h
  | cons c word ih =>
      have hc : c ≠ '.' := fun heq => hword (heq ▸ List.mem_cons_self)
      rw [List.cons_append, splitDots_cons (ih fun hmem => hword (List.mem_cons_of_mem c hmem)),
        if_neg hc]
      rfl

theorem splitDots_tail {word : Text} {point : Option Text} (hword : '.' ∉ word)
    (hpoint : ∀ frac ∈ point, '.' ∉ frac) :
    splitDots (word ++ Decimal.tail point) = word :: point.toList := by
  have hnil : splitDots [] = [] :: [] := rfl
  cases point with
  | none =>
      rw [Decimal.tail, splitDots_append hword hnil, List.append_nil]
      rfl
  | some frac =>
      have hfrac : splitDots frac = [frac] := by
        have h := splitDots_append (hpoint frac rfl) hnil
        rwa [List.append_nil] at h
      have htail : splitDots ('.' :: frac) = [] :: [frac] := by
        rw [splitDots_cons hfrac, if_pos rfl]
      rw [Decimal.tail, splitDots_append hword htail, List.append_nil]
      rfl

/-- The pieces between the points are the text. -/
theorem splitDots_join (text : Text) : List.intercalate ['.'] (splitDots text) = text := by
  induction text with
  | nil => rfl
  | cons c text ih =>
      cases hsplit : splitDots text with
      | nil => exact absurd hsplit (splitDots_ne_nil text)
      | cons part parts =>
          rw [splitDots_cons hsplit]
          rw [hsplit] at ih
          split
          · rename_i hc
            rw [hc, ← ih]
            rfl
          · rw [← ih]
            cases parts <;> rfl

/-! ## Plain numerals -/

theorem dot_notMem_run {run : Text} (h : IsRun run) : '.' ∉ run :=
  fun hmem => (digit_ne (h _ hmem)).2.2.1 rfl

/-- What a numeral without an exponent is written with. -/
theorem decimal_chars (d : Decimal) : ∀ c ∈ d.text,
    c.isDigit = true ∨ c = '+' ∨ c = '-' ∨ c = '.' := by
  intro c hc
  rw [Decimal.text, List.mem_append, List.mem_append, Option.mem_toList] at hc
  rcases hc with hsign | hwhole | htail
  · rcases d.signed c hsign with h | h
    · exact .inr (.inl h)
    · exact .inr (.inr (.inl h))
  · exact .inl (d.whole_run c hwhole)
  · cases hpoint : d.point with
    | none => rw [hpoint] at htail; cases htail
    | some frac =>
        rw [hpoint] at htail
        rcases List.mem_cons.mp htail with rfl | hfrac
        · exact .inr (.inr (.inr rfl))
        · exact .inl (d.point_run frac hpoint c hfrac)

theorem decimal_not_space (d : Decimal) : ∀ c ∈ d.text, isSpace c = false := by
  intro c hc
  rcases decimal_chars d c hc with h | rfl | rfl | rfl
  · exact isSpace_of_digit h
  · decide
  · decide
  · decide

theorem decimal_no_exponent (d : Decimal) : 'e' ∉ d.text ∧ 'E' ∉ d.text := by
  constructor
  · intro h
    have := decimal_chars d _ h
    revert this
    decide
  · intro h
    have := decimal_chars d _ h
    revert this
    decide

theorem takeSign_decimal (d : Decimal) :
    takeSign d.text = (d.sign, d.whole ++ Decimal.tail d.point) := by
  by_cases hwhole : d.whole = []
  · have hpoint : d.point.getD [] ≠ [] := d.written.resolve_left (not_not_intro hwhole)
    cases hp : d.point with
    | none => rw [hp] at hpoint; exact absurd rfl hpoint
    | some frac =>
        rw [Decimal.text, hwhole, hp]
        apply takeSign_append d.signed <;> rintro ⟨⟩
  · exact takeSign_run _ d.signed d.whole_run hwhole

/-- The checks of the parser, in its order, and what it returns. -/
theorem parseDecimalToScaled_eq_ok {raw body : Text} {scale : Nat} {sign : Option Char} {v : Int}
    (hsign : takeSign (trim raw) = (sign, body)) :
    parseDecimalToScaled raw scale = .ok v ↔
      trim raw ≠ [] ∧ ('e' ∉ trim raw ∧ 'E' ∉ trim raw) ∧ (splitDots body).length ≤ 2 ∧
        (IsRun ((splitDots body)[0]?.getD []) ∧ IsRun ((splitDots body)[1]?.getD [])) ∧
        ¬ ((splitDots body)[0]?.getD [] = [] ∧ (splitDots body)[1]?.getD [] = []) ∧
        signedBy sign (Foundation.digits ((splitDots body)[0]?.getD []) * 10 ^ scale +
          Foundation.digits (Decimal.kept scale ((splitDots body)[1]?.getD []))) = v := by
  unfold parseDecimalToScaled
  simp only [throw_guard_iff, hsign]
  have hexp : ¬ (trim raw).any (fun c => c = 'e' || c = 'E') = true ↔
      'e' ∉ trim raw ∧ 'E' ∉ trim raw := by
    simp only [List.any_eq_true, Bool.or_eq_true, decide_eq_true_eq]
    constructor
    · exact fun h => ⟨fun he => h ⟨_, he, .inl rfl⟩, fun he => h ⟨_, he, .inr rfl⟩⟩
    · rintro ⟨he, hE⟩ ⟨c, hc, rfl | rfl⟩
      · exact he hc
      · exact hE hc
  have hruns : ∀ s t : Text, ¬ (!s.all Char.isDigit || !t.all Char.isDigit) = true ↔
      IsRun s ∧ IsRun t := by
    intro s t
    simp [IsRun]
  have hvalue : ∀ whole kept : Text,
      (if sign = some '-' then
          -((Nat.ofDigitChars 10 whole 0 : ℤ) * 10 ^ scale + (Nat.ofDigitChars 10 kept 0 : ℤ))
        else (Nat.ofDigitChars 10 whole 0 : ℤ) * 10 ^ scale + (Nat.ofDigitChars 10 kept 0 : ℤ)) =
      signedBy sign (Foundation.digits whole * 10 ^ scale + Foundation.digits kept) := by
    intro whole kept
    rw [signedBy]
    push_cast
    rfl
  rw [hexp, hruns, hvalue, List.length_eq_zero_iff, List.length_eq_zero_iff,
    List.length_eq_zero_iff, not_lt, Decimal.kept, pure_eq_ok_iff]

/-- **A plain numeral** is read as its scaled value, truncated. -/
theorem parse_decimal (d : Decimal) (scale : Nat) :
    parseDecimalToScaled d.text scale = .ok (truncate (d.value * 10 ^ scale)) := by
  have htrim : trim d.text = d.text := trim_of_not_space (decimal_not_space d)
  have hparts : splitDots (d.whole ++ Decimal.tail d.point) = d.whole :: d.point.toList :=
    splitDots_tail (dot_notMem_run d.whole_run) fun frac h => dot_notMem_run (d.point_run frac h)
  have hfrac : (d.whole :: d.point.toList)[1]?.getD [] = d.frac := by
    rw [Decimal.frac]
    cases d.point <;> rfl
  have hsign : takeSign (trim d.text) = (d.sign, d.whole ++ Decimal.tail d.point) := by
    rw [htrim, takeSign_decimal]
  rw [parseDecimalToScaled_eq_ok hsign, hparts, hfrac, htrim, Decimal.truncate_value]
  refine ⟨?_, decimal_no_exponent d, ?_, ⟨d.whole_run, d.frac_run⟩, ?_, rfl⟩
  · intro hnil
    have htake := takeSign_decimal d
    rw [hnil] at htake
    obtain ⟨-, hrest⟩ := Prod.mk.inj htake
    obtain ⟨hwhole, htail⟩ := List.append_eq_nil_iff.mp hrest.symm
    rcases d.written with h | h
    · exact h hwhole
    · cases hp : d.point with
      | none => rw [hp] at h; exact h rfl
      | some frac => rw [hp] at htail; cases htail
  · cases d.point <;> simp
  · exact fun h => d.written.elim (· h.1) (· h.2)

/-- What the parser accepts is a plain numeral. -/
theorem decimal_of_parse {raw : Text} {scale : Nat} {v : Int}
    (h : parseDecimalToScaled raw scale = .ok v) : ∃ d : Decimal, d.text = trim raw := by
  cases htake : takeSign (trim raw) with
  | mk sign body =>
      obtain ⟨hsigned, htext⟩ := takeSign_eq htake
      obtain ⟨-, -, hcount, ⟨hwhole, hfrac⟩, hne, -⟩ := (parseDecimalToScaled_eq_ok htake).mp h
      have hjoin := splitDots_join body
      cases hparts : splitDots body with
      | nil => exact absurd hparts (splitDots_ne_nil body)
      | cons whole parts =>
          rw [hparts] at hcount hwhole hfrac hne hjoin
          cases parts with
          | nil =>
              refine ⟨⟨sign, whole, none, hsigned, hwhole, fun _ h => absurd h (Option.not_mem_none _),
                .inl fun h => hne ⟨h, rfl⟩⟩, ?_⟩
              rw [htext, ← hjoin, Decimal.text, Decimal.tail]
              simp
          | cons frac parts =>
              have hnil : parts = [] := List.eq_nil_of_length_eq_zero (by
                simp only [List.length_cons] at hcount
                omega)
              rw [hnil] at hjoin
              refine ⟨⟨sign, whole, some frac, hsigned, hwhole,
                fun _ h => Option.some.inj h ▸ hfrac, not_and_or.mp hne⟩, ?_⟩
              rw [htext, ← hjoin, Decimal.text, Decimal.tail]
              simp

/-! ## Numerals with an exponent -/

theorem takeFraction_eq {text frac rest : Text} (h : takeFraction text = (frac, rest)) :
    ∃ point, point ≠ some [] ∧ (∀ run ∈ point, IsRun run) ∧ frac = point.getD [] ∧
      text = Decimal.tail point ++ rest := by
  unfold takeFraction at h
  split at h
  · rename_i behind
    cases hclass : takeClass Char.isDigit behind with
    | none =>
        rw [hclass] at h
        cases h
        exact ⟨none, by simp, fun _ h => (nomatch h), rfl, rfl⟩
    | some found =>
        rw [hclass, Option.getD_some] at h
        rw [h] at hclass
        obtain ⟨hne, hrun, -, hbehind⟩ := takeClass_eq_some.mp hclass
        refine ⟨some frac, by simpa using hne, fun _ h => Option.some.inj h ▸ hrun, rfl, ?_⟩
        rw [hbehind]
        rfl
  · cases h
    exact ⟨none, by simp, fun _ h => (nomatch h), rfl, rfl⟩

theorem takeFraction_append {point : Option Text} {rest : Text} (hpoint : point ≠ some [])
    (hruns : ∀ run ∈ point, IsRun run) (hdot : rest.head? ≠ some '.')
    (hstop : rest.head?.all (fun c => !c.isDigit) = true) :
    takeFraction (Decimal.tail point ++ rest) = (point.getD [], rest) := by
  cases point with
  | none =>
      rw [Decimal.tail, List.nil_append, takeFraction]
      · rfl
      · rintro rest rfl
        exact hdot rfl
  | some frac =>
      have hclass : takeClass Char.isDigit (frac ++ rest) = some (frac, rest) :=
        takeClass_eq_some.mpr
          ⟨fun h => hpoint (congrArg some h), hruns frac rfl, hstop, rfl⟩
      rw [Decimal.tail, List.cons_append, takeFraction, hclass]
      rfl

/-- What the pattern matches is a plain numeral and an exponent. -/
theorem scientific_eq {text whole frac : Text} {sign : Option Char} {exp : Int}
    (h : scientific text = some (sign, whole, frac, exp)) :
    ∃ (d : Decimal) (e : Exponent), d.whole ≠ [] ∧ d.point ≠ some [] ∧
      text = d.text ++ e.text := by
  unfold scientific at h
  cases hsign : takeSign text with
  | mk sign' text₁ =>
  simp only [hsign] at h
  obtain ⟨⟨whole', text₂⟩, hwhole, hbehind⟩ := Option.bind_eq_some_iff.mp h
  cases hfrac : takeFraction text₂ with
  | mk frac' text₃ =>
  simp only [hfrac] at hbehind
  cases text₃ with
  | nil => cases hbehind
  | cons mark text₄ =>
  dsimp only at hbehind
  by_cases hmark : mark ≠ 'e' ∧ mark ≠ 'E'
  · rw [if_pos hmark] at hbehind
    cases hbehind
  rw [if_neg hmark] at hbehind
  obtain ⟨⟨run, text₆⟩, hclass, hend⟩ := Option.bind_eq_some_iff.mp hbehind
  dsimp only at hend
  by_cases hnil : text₆ = []
  · cases hexp : takeSign text₄ with
    | mk expSign text₅ =>
    rw [hexp] at hclass
    obtain ⟨hsigned, rfl⟩ := takeSign_eq hsign
    obtain ⟨hne, hrun, -, rfl⟩ := takeClass_eq_some.mp hwhole
    obtain ⟨point, hpoint, hruns, -, rfl⟩ := takeFraction_eq hfrac
    obtain ⟨hexpSigned, rfl⟩ := takeSign_eq hexp
    obtain ⟨hexpNe, hexpRun, -, rfl⟩ := takeClass_eq_some.mp hclass
    refine ⟨⟨sign', whole', point, hsigned, hrun, hruns, .inl hne⟩,
      ⟨mark, expSign, run, ?_, hexpSigned, hexpRun, hexpNe⟩, hne, hpoint, ?_⟩
    · rw [not_and_or, not_not, not_not] at hmark
      exact hmark
    · rw [hnil, List.append_nil, Decimal.text, Exponent.text, List.append_assoc, List.append_assoc]
  · rw [if_pos hnil] at hend
    cases hend

theorem scientific_append (d : Decimal) (e : Exponent) (hwhole : d.whole ≠ [])
    (hpoint : d.point ≠ some []) :
    scientific (d.text ++ e.text) = some (d.sign, d.whole, d.frac, e.value) := by
  have hmark : e.mark.isDigit = false ∧ e.mark ≠ '.' := by
    rcases e.marked with h | h <;> rw [h] <;> decide
  have hsign : takeSign (d.text ++ e.text) =
      (d.sign, d.whole ++ (Decimal.tail d.point ++ e.text)) := by
    rw [Decimal.text, List.append_assoc, List.append_assoc]
    exact takeSign_run _ d.signed d.whole_run hwhole
  have hdigits : takeClass Char.isDigit (d.whole ++ (Decimal.tail d.point ++ e.text)) =
      some (d.whole, Decimal.tail d.point ++ e.text) := by
    refine takeClass_eq_some.mpr ⟨hwhole, d.whole_run, ?_, rfl⟩
    cases d.point with
    | none => simp [Decimal.tail, Exponent.text, hmark.1]
    | some frac => rfl
  have hfrac : takeFraction (Decimal.tail d.point ++ e.text) = (d.frac, e.text) :=
    takeFraction_append hpoint d.point_run (by simpa [Exponent.text] using hmark.2)
      (by simp [Exponent.text, hmark.1])
  have hexpSign : takeSign (e.sign.toList ++ e.run) = (e.sign, e.run) := by
    have h := takeSign_run [] e.signed e.run_run e.written
    rwa [List.append_nil] at h
  have hexp : takeClass Char.isDigit e.run = some (e.run, []) :=
    takeClass_eq_some.mpr ⟨e.written, e.run_run, rfl, (List.append_nil _).symm⟩
  have hletter : ¬ (e.mark ≠ 'e' ∧ e.mark ≠ 'E') := by
    rw [not_and_or, not_not, not_not]
    exact e.marked
  unfold scientific
  simp only [hsign, hdigits, Option.bind_eq_bind, Option.bind_some, hfrac]
  rw [Exponent.text]
  simp only [if_neg hletter, hexpSign, hexp, Option.bind_some]
  rfl

theorem scientific_decimal (d : Decimal) : scientific d.text = none := by
  rw [Option.eq_none_iff_forall_ne_some]
  rintro ⟨sign, whole, frac, exp⟩ h
  obtain ⟨d', e, -, -, htext⟩ := scientific_eq h
  have hmark : e.mark ∈ d.text := by
    rw [htext]
    exact List.mem_append_right _ List.mem_cons_self
  rcases e.marked with h | h <;> rw [h] at hmark
  · exact (decimal_no_exponent d).1 hmark
  · exact (decimal_no_exponent d).2 hmark

theorem plainDecimal_decimal {raw : Text} {d : Decimal} (h : trim raw = d.text) :
    plainDecimal raw = .ok d.text := by
  rw [plainDecimal, h, scientific_decimal]
  rfl

theorem eq_of_repeatZero {count around : Nat} {zeros : Text}
    (h : repeatZero count around = .ok zeros) : zeros = List.replicate count '0' := by
  unfold repeatZero at h
  split at h
  · exact (Except.ok.inj h).symm
  · cases h

/-- Expanding the exponent moves the point. -/
theorem plainDecimal_scientific {raw out : Text} {d : Decimal} {e : Exponent}
    (hwhole : d.whole ≠ []) (hpoint : d.point ≠ some []) (h : trim raw = d.text ++ e.text)
    (hout : plainDecimal raw = .ok out) : out = (d.shift e.value hwhole).text := by
  have hsign : ∀ sign : Option Char,
      (if sign = some '-' then ['-'] else []) = (Decimal.minus sign).toList := by
    intro sign
    rw [Decimal.minus]
    split <;> rfl
  rw [plainDecimal, h, scientific_append d e hwhole hpoint] at hout
  dsimp only at hout
  rw [hsign, ← Decimal.run] at hout
  by_cases hleft : d.whole.length + e.value ≤ 0
  · rw [if_pos hleft] at hout
    obtain ⟨zeros, hzeros, hout⟩ := bind_ok_iff.mp hout
    obtain ⟨hs, hw, hp⟩ := Decimal.shift_left hwhole hleft
    rw [Decimal.text, hs, hw, hp, ← eq_of_repeatZero hzeros]
    exact (Except.ok.inj hout).symm
  · rw [if_neg hleft] at hout
    by_cases hright : d.run.length ≤ d.whole.length + e.value
    · rw [if_pos hright] at hout
      obtain ⟨zeros, hzeros, hout⟩ := bind_ok_iff.mp hout
      obtain ⟨hs, hw, hp⟩ := Decimal.shift_right hwhole hleft hright
      rw [Decimal.text, hs, hw, hp, ← eq_of_repeatZero hzeros, Decimal.tail, List.append_nil]
      exact (Except.ok.inj hout).symm
    · rw [if_neg hright] at hout
      obtain ⟨hs, hw, hp⟩ := Decimal.shift_inside hwhole hleft hright
      rw [Decimal.text, hs, hw, hp]
      exact (Except.ok.inj hout).symm

/-! ## Every accepted text -/

theorem numeral_of_price {text : Text} {price : Int} (h : sekPerKwhToScaled text = .ok price) :
    ∃ x, Denotes (trim text) x := by
  obtain ⟨out, hplain, hparse⟩ := bind_ok_iff.mp h
  cases hsci : scientific (trim text) with
  | none =>
      rw [plainDecimal, hsci] at hplain
      cases hplain
      obtain ⟨d, hd⟩ := decimal_of_parse hparse
      exact ⟨_, .plain d, hd.trans (trim_trim text), rfl⟩
  | some found =>
      obtain ⟨sign, whole, frac, exp⟩ := found
      obtain ⟨d, e, hwhole, hpoint, htext⟩ := scientific_eq hsci
      exact ⟨_, .scientific d e hwhole hpoint, htext.symm, rfl⟩

/-- **The price is truncated**, never rounded: whatever numeral the text is, the scaled price is
its value times `10 ^ 8` without what is behind the point. -/
theorem price_of_numeral {text : Text} {price : Int} (h : sekPerKwhToScaled text = .ok price)
    {x : ℚ} (hx : Denotes (trim text) x) : price = truncate (x * 10 ^ PRICE_SCALE) := by
  obtain ⟨out, hplain, hparse⟩ := bind_ok_iff.mp h
  obtain ⟨n, htext, rfl⟩ := hx
  cases n with
  | plain d =>
      rw [plainDecimal_decimal htext.symm] at hplain
      cases hplain
      rw [parse_decimal] at hparse
      exact (Except.ok.inj hparse).symm
  | scientific d e hwhole hpoint =>
      obtain rfl := plainDecimal_scientific hwhole hpoint htext.symm hplain
      rw [parse_decimal, Decimal.value_shift] at hparse
      exact (Except.ok.inj hparse).symm

/-! ## Base units -/

/-- Eight decimals of `x`. -/
def trunc8 (x : ℚ) : ℚ := truncate (x * 10 ^ PRICE_SCALE) / 10 ^ PRICE_SCALE

theorem trunc8_nonneg {x : ℚ} (h : 0 ≤ x) : 0 ≤ trunc8 x := by
  have htrunc : (0 : ℚ) ≤ truncate (x * 10 ^ PRICE_SCALE) := by
    exact_mod_cast truncate_nonneg (mul_nonneg h (by positivity))
  unfold trunc8
  positivity

theorem trunc8_le {x : ℚ} (h : 0 ≤ x) : trunc8 x ≤ x := by
  rw [trunc8, div_le_iff₀ (by positivity)]
  exact truncate_le (mul_nonneg h (by positivity))

theorem trunc8_mono {x y : ℚ} (hx : 0 ≤ x) (h : x ≤ y) : trunc8 x ≤ trunc8 y := by
  have hmono : truncate (x * 10 ^ PRICE_SCALE) ≤ truncate (y * 10 ^ PRICE_SCALE) :=
    truncate_mono (mul_nonneg hx (by positivity)) (by gcongr)
  unfold trunc8
  gcongr

/-- A quotient of the program, for a dividend that is not negative, is the floor of the exact
one. -/
theorem tdiv_eq_floor {n d : ℤ} (hn : 0 ≤ n) (hd : 0 ≤ d) : n.tdiv d = ⌊(n : ℚ) / d⌋ := by
  obtain ⟨k, rfl⟩ := Int.eq_ofNat_of_zero_le hd
  rw [Int.tdiv_eq_ediv_of_nonneg hn, Int.cast_natCast, Rat.floor_intCast_div_natCast]

/-- The exact quotient in SEK, at the truncated price. -/
def sekQuotient (kwhMilli : ℤ) (x : ℚ) (mintDecimals : Nat) : ℚ :=
  kwhMilli * trunc8 x * 10 ^ mintDecimals / 1000

/-- The same in USD. -/
def usdQuotient (kwhMilli : ℤ) (x : ℚ) (usdRate sekRate : ℤ) (mintDecimals : Nat) : ℚ :=
  kwhMilli * trunc8 x * usdRate * 10 ^ mintDecimals / (1000 * sekRate)

section Amounts

variable {x : ℚ} {kwhMilli usdRate sekRate : ℤ} {mintDecimals : Nat}

theorem amountBaseUnits_eq (hx : 0 ≤ x) (hkwh : 0 < kwhMilli) :
    amountBaseUnits kwhMilli (truncate (x * 10 ^ PRICE_SCALE)) mintDecimals =
      .ok ⌊sekQuotient kwhMilli x mintDecimals⌋ := by
  have hprice : 0 ≤ truncate (x * 10 ^ PRICE_SCALE) :=
    truncate_nonneg (mul_nonneg hx (by positivity))
  rw [sekQuotient, trunc8]
  generalize truncate (x * 10 ^ PRICE_SCALE) = price at hprice ⊢
  have hquotient : (kwhMilli * (price / 10 ^ PRICE_SCALE) * 10 ^ mintDecimals / 1000 : ℚ) =
      ((kwhMilli * price * 10 ^ mintDecimals : ℤ) : ℚ) /
        ((10 ^ KWH_MILLI_SCALE * 10 ^ PRICE_SCALE : ℤ) : ℚ) := by
    simp only [KWH_MILLI_SCALE]
    push_cast
    field_simp
  rw [hquotient, ← tdiv_eq_floor (by positivity) (by positivity)]
  unfold amountBaseUnits
  simp only [throw_guard_iff]
  refine ⟨not_le.mpr hkwh, not_lt.mpr hprice, ?_⟩
  split
  · rename_i hzero
    rw [hzero, mul_zero, zero_mul, Int.zero_tdiv]
    rfl
  · rfl

theorem amountBaseUnitsUsd_eq (hx : 0 ≤ x) (hkwh : 0 < kwhMilli) (husd : 0 ≤ usdRate)
    (hsek : 0 < sekRate) :
    amountBaseUnitsUsd kwhMilli (truncate (x * 10 ^ PRICE_SCALE)) usdRate sekRate mintDecimals =
      .ok ⌊usdQuotient kwhMilli x usdRate sekRate mintDecimals⌋ := by
  have hprice : 0 ≤ truncate (x * 10 ^ PRICE_SCALE) :=
    truncate_nonneg (mul_nonneg hx (by positivity))
  rw [usdQuotient, trunc8]
  generalize truncate (x * 10 ^ PRICE_SCALE) = price at hprice ⊢
  have hquotient :
      (kwhMilli * (price / 10 ^ PRICE_SCALE) * usdRate * 10 ^ mintDecimals /
        (1000 * sekRate) : ℚ) =
      ((kwhMilli * price * usdRate * 10 ^ mintDecimals : ℤ) : ℚ) /
        ((10 ^ KWH_MILLI_SCALE * 10 ^ PRICE_SCALE * sekRate : ℤ) : ℚ) := by
    have hne : (sekRate : ℚ) ≠ 0 := by exact_mod_cast hsek.ne'
    simp only [KWH_MILLI_SCALE]
    push_cast
    field_simp
  rw [hquotient, ← tdiv_eq_floor (by positivity) (by positivity)]
  unfold amountBaseUnitsUsd
  simp only [throw_guard_iff]
  refine ⟨not_le.mpr hkwh, not_lt.mpr hprice, not_lt.mpr husd, not_le.mpr hsek, ?_⟩
  split
  · rename_i hzero
    have hnum : kwhMilli * price * usdRate * 10 ^ mintDecimals = 0 := by
      rcases hzero with h | h <;> rw [h] <;> ring
    rw [hnum, Int.zero_tdiv]
    rfl
  · rfl

theorem sekQuotient_le (hx : 0 ≤ x) (hkwh : 0 < kwhMilli) :
    sekQuotient kwhMilli x mintDecimals ≤ kwhMilli * x * 10 ^ mintDecimals / 1000 := by
  have hle := trunc8_le hx
  have hkwh' : (0 : ℚ) ≤ kwhMilli := by exact_mod_cast hkwh.le
  unfold sekQuotient
  gcongr

theorem sekQuotient_mono {y : ℚ} {kwhMilli' : ℤ} (hx : 0 ≤ x) (h : x ≤ y) (hkwh : 0 < kwhMilli)
    (hmore : kwhMilli ≤ kwhMilli') :
    sekQuotient kwhMilli x mintDecimals ≤ sekQuotient kwhMilli' y mintDecimals := by
  have hmono := trunc8_mono hx h
  have hnonneg := trunc8_nonneg hx
  have hkwh' : (0 : ℚ) ≤ kwhMilli' := by exact_mod_cast (hkwh.trans_le hmore).le
  have hmore' : (kwhMilli : ℚ) ≤ kwhMilli' := by exact_mod_cast hmore
  unfold sekQuotient
  gcongr

/-- More volume, a higher price and a dearer dollar make it more, a dearer krona less. -/
theorem usdQuotient_mono {y : ℚ} {kwhMilli' usdRate' sekRate' : ℤ} (hx : 0 ≤ x) (h : x ≤ y)
    (hkwh : 0 < kwhMilli) (hmore : kwhMilli ≤ kwhMilli') (husd : 0 ≤ usdRate)
    (hdearer : usdRate ≤ usdRate') (hsek : 0 < sekRate') (hcheaper : sekRate' ≤ sekRate) :
    usdQuotient kwhMilli x usdRate sekRate mintDecimals ≤
      usdQuotient kwhMilli' y usdRate' sekRate' mintDecimals := by
  have hmono := trunc8_mono hx h
  have hnonneg := trunc8_nonneg hx
  have hnonneg' : 0 ≤ trunc8 y := hnonneg.trans hmono
  have hkwh' : (0 : ℚ) ≤ kwhMilli' := by exact_mod_cast (hkwh.trans_le hmore).le
  have hmore' : (kwhMilli : ℚ) ≤ kwhMilli' := by exact_mod_cast hmore
  have husd' : (0 : ℚ) ≤ usdRate := by exact_mod_cast husd
  have husd'' : (0 : ℚ) ≤ usdRate' := by exact_mod_cast husd.trans hdearer
  have hdearer' : (usdRate : ℚ) ≤ usdRate' := by exact_mod_cast hdearer
  have hsek' : (0 : ℚ) < sekRate' := by exact_mod_cast hsek
  have hcheaper' : (sekRate' : ℚ) ≤ sekRate := by exact_mod_cast hcheaper
  unfold usdQuotient
  gcongr

end Amounts

/-- An accepted price text, a number it denotes and the scaled price. -/
def Priced (text : Text) (x : ℚ) (price : ℤ) : Prop :=
  sekPerKwhToScaled text = .ok price ∧ Denotes (trim text) x

/-- **Meter money is never rounded up.**  Every accepted text is a numeral, the scaled price is its
value truncated to eight decimals, and for a value that is not negative both conversions are the
floor of the exact quotient at that price: never above the exact product, more for more volume, a
higher price and a dearer dollar, less for a dearer krona. -/
theorem meter_money_rounds_down {text : Text} {price : ℤ}
    (h : sekPerKwhToScaled text = .ok price) :
    (∃ x, Denotes (trim text) x) ∧ ∀ x, Denotes (trim text) x →
      price = truncate (x * 10 ^ PRICE_SCALE) ∧
      (0 ≤ x → ∀ kwhMilli : ℤ, 0 < kwhMilli → ∀ mintDecimals : Nat,
        (∃ amount : ℤ, amountBaseUnits kwhMilli price mintDecimals = .ok amount ∧
          amount = ⌊(kwhMilli * trunc8 x * 10 ^ mintDecimals / 1000 : ℚ)⌋ ∧
          (amount : ℚ) ≤ kwhMilli * x * 10 ^ mintDecimals / 1000 ∧
          ∀ text' x' price' (kwhMilli' : ℤ), Priced text' x' price' → x ≤ x' →
            kwhMilli ≤ kwhMilli' → ∃ amount' : ℤ,
              amountBaseUnits kwhMilli' price' mintDecimals = .ok amount' ∧ amount ≤ amount') ∧
        ∀ usdRate sekRate : ℤ, 0 ≤ usdRate → 0 < sekRate →
          ∃ amount : ℤ,
            amountBaseUnitsUsd kwhMilli price usdRate sekRate mintDecimals = .ok amount ∧
            amount = ⌊(kwhMilli * trunc8 x * usdRate * 10 ^ mintDecimals /
              (1000 * sekRate) : ℚ)⌋ ∧
            ∀ text' x' price' (kwhMilli' usdRate' sekRate' : ℤ), Priced text' x' price' →
              x ≤ x' → kwhMilli ≤ kwhMilli' → usdRate ≤ usdRate' → 0 < sekRate' →
              sekRate' ≤ sekRate → ∃ amount' : ℤ,
                amountBaseUnitsUsd kwhMilli' price' usdRate' sekRate' mintDecimals =
                  .ok amount' ∧ amount ≤ amount') := by
  refine ⟨numeral_of_price h, fun x hdenotes => ?_⟩
  have hprice := price_of_numeral h hdenotes
  refine ⟨hprice, fun hx kwhMilli hkwh mintDecimals => ⟨?_, ?_⟩⟩
  · refine ⟨_, hprice ▸ amountBaseUnits_eq hx hkwh, rfl,
      (Int.floor_le _).trans (sekQuotient_le hx hkwh), ?_⟩
    rintro text' x' price' kwhMilli' ⟨h', hdenotes'⟩ hle hmore
    rw [price_of_numeral h' hdenotes']
    exact ⟨_, amountBaseUnits_eq (hx.trans hle) (hkwh.trans_le hmore),
      Int.floor_le_floor (sekQuotient_mono hx hle hkwh hmore)⟩
  · intro usdRate sekRate husd hsek
    refine ⟨_, hprice ▸ amountBaseUnitsUsd_eq hx hkwh husd hsek, rfl, ?_⟩
    rintro text' x' price' kwhMilli' usdRate' sekRate' ⟨h', hdenotes'⟩ hle hmore hdearer hsek'
      hcheaper
    rw [price_of_numeral h' hdenotes']
    exact ⟨_, amountBaseUnitsUsd_eq (hx.trans hle) (hkwh.trans_le hmore) (husd.trans hdearer) hsek',
      Int.floor_le_floor (usdQuotient_mono hx hle hkwh hmore husd hdearer hsek' hcheaper)⟩

/-- The ninth decimal is dropped, not rounded. -/
theorem meter_money_rounds_down_sample : ∃ x : ℚ, Denotes (trim "1.2345678999e-1".toList) x ∧
    (12345678 : ℤ) = truncate (x * 10 ^ PRICE_SCALE) := by
  obtain ⟨⟨x, hx⟩, hall⟩ := meter_money_rounds_down
    (show sekPerKwhToScaled "1.2345678999e-1".toList = .ok 12345678 by decide)
  exact ⟨x, hx, (hall x hx).1⟩

end Veto.Watcher
