import Veto.Trade.Run
import Veto.Foundation.ConstantProduct

/-!
# The price floor holds

`floor_bound` is the owner's price for the requested input, rounded up to whole units of the
output, and `spot_below_floor` asks in cross-multiplied form whether the pool's quote reaches
it.  Neither loses a bit on the way, and what a trade records cleared the bound.
-/

namespace Veto

open Foundation

/-! ## The bound -/

/-- Products of words leave room below `2 ^ 128` for one more word. -/
theorem words_mul_add_lt (a b c : UInt64) : a.toNat * b.toNat + c.toNat < 2 ^ 128 := by
  have ha : a.toNat ≤ 2 ^ 64 - 1 := Nat.le_sub_one_of_lt a.toNat_lt
  have hb : b.toNat ≤ 2 ^ 64 - 1 := Nat.le_sub_one_of_lt b.toNat_lt
  have hc := c.toNat_lt
  calc a.toNat * b.toNat + c.toNat
      ≤ (2 ^ 64 - 1) * (2 ^ 64 - 1) + c.toNat := Nat.add_le_add_right (Nat.mul_le_mul ha hb) _
    _ < 2 ^ 128 := by omega

/-- The bound, where no 128-bit step overflows: only the last narrowing can fail. -/
theorem floorBound_eq (amountIn floorNum floorDen : UInt64) :
    floorBound amountIn floorNum floorDen = do
      let ceil := amountIn.toNat * floorNum.toNat ⌈/⌉ floorDen.toNat
      require (0 < floorDen.toNat) (.veto .floorDenominatorRequired)
      require (ceil < 2 ^ 64) (.veto .mathOverflow)
      return .ofNat ceil := by
  have hproduct := words_mul_add_lt amountIn floorNum floorDen
  have hmul : checkedMul128 amountIn.toNat floorNum.toNat =
      some (amountIn.toNat * floorNum.toNat) := if_pos (by omega)
  have hadd : checkedAdd128 (amountIn.toNat * floorNum.toNat) (floorDen.toNat - 1) =
      some (amountIn.toNat * floorNum.toNat + (floorDen.toNat - 1)) := if_pos (by omega)
  have hceil : (amountIn.toNat * floorNum.toNat + (floorDen.toNat - 1)) / floorDen.toNat =
      amountIn.toNat * floorNum.toNat ⌈/⌉ floorDen.toNat := by
    rw [Nat.ceilDiv_eq_add_pred_div]
    rcases Nat.eq_zero_or_pos floorDen.toNat with hzero | hden
    · rw [hzero, Nat.div_zero, Nat.div_zero]
    · rw [Nat.add_sub_assoc hden]
  unfold floorBound
  simp only [hmul, hadd, okOr, ok_bind, hceil]

/-- The bound is met exactly by the outputs that reach the owner's price. -/
theorem floorBound_le_iff {amountIn floorNum floorDen : UInt64} {amountOut : Nat}
    (hout : amountOut < 2 ^ 64) :
    (∃ bound, floorBound amountIn floorNum floorDen = .ok bound ∧ bound.toNat ≤ amountOut) ↔
      0 < floorDen.toNat ∧
        amountIn.toNat * floorNum.toNat ≤ floorDen.toNat * amountOut := by
  rw [floorBound_eq]
  constructor
  · rintro ⟨bound, h, hle⟩
    obtain ⟨hden, h⟩ := require_bind_ok_iff.mp h
    obtain ⟨hceil, h⟩ := require_bind_ok_iff.mp h
    cases h
    rw [UInt64.toNat_ofNat_of_lt' hceil, ceilDiv_le_iff_le_mul hden] at hle
    exact ⟨hden, hle⟩
  · rintro ⟨hden, hprice⟩
    rw [← ceilDiv_le_iff_le_mul hden] at hprice
    have hceil : amountIn.toNat * floorNum.toNat ⌈/⌉ floorDen.toNat < 2 ^ 64 := by omega
    refine ⟨.ofNat (amountIn.toNat * floorNum.toNat ⌈/⌉ floorDen.toNat), ?_, ?_⟩
    · rw [require_bind_ok_iff, require_bind_ok_iff]
      exact ⟨hden, hceil, rfl⟩
    · rw [UInt64.toNat_ofNat_of_lt' hceil]
      exact hprice

/-! ## The quote -/

theorem saturatingMul128_words {a b : Nat} (ha : a < 2 ^ 64) (hb : b < 2 ^ 64) :
    saturatingMul128 a b = a * b := by
  have hproduct := words_mul_add_lt (.ofNat a) (.ofNat b) 0
  rw [UInt64.toNat_ofNat_of_lt' ha, UInt64.toNat_ofNat_of_lt' hb] at hproduct
  unfold saturatingMul128
  omega

theorem saturatingAdd128_words {a b : Nat} (ha : a < 2 ^ 64) (hb : b < 2 ^ 64) :
    saturatingAdd128 a b = a + b := by
  unfold saturatingAdd128
  omega

theorem toNat_inputAfterFees (amountIn : UInt64) :
    (inputAfterFees amountIn).toNat = amountIn.toNat -
      (max (amountIn.toNat / 400) (min amountIn.toNat 1) +
        max (amountIn.toNat / 2000) (min amountIn.toNat 1)) := by
  have hlt := amountIn.toNat_lt
  have hminimum : (if 0 < amountIn then 1 else 0) = min amountIn.toNat 1 := by
    by_cases h : 0 < amountIn
    · have hpos : 0 < amountIn.toNat := UInt64.lt_iff_toNat_lt.mp h
      rw [if_pos h]
      omega
    · have hzero : ¬ 0 < amountIn.toNat := fun hpos => h (UInt64.lt_iff_toNat_lt.mpr hpos)
      rw [if_neg h]
      omega
  have htrade : amountIn.toNat * TRADE_FEE_NUM.toNat / FEE_DEN.toNat = amountIn.toNat / 400 := by
    show amountIn.toNat * 25 / 10000 = amountIn.toNat / 400
    omega
  have howner : amountIn.toNat * OWNER_TRADE_FEE_NUM.toNat / FEE_DEN.toNat =
      amountIn.toNat / 2000 := by
    show amountIn.toNat * 5 / 10000 = amountIn.toNat / 2000
    omega
  unfold inputAfterFees
  simp only [hminimum, htrade, howner]
  exact UInt64.toNat_ofNat_of_lt' ((Nat.sub_le _ _).trans_lt hlt)

theorem inputAfterFees_le (amountIn : UInt64) :
    (inputAfterFees amountIn).toNat ≤ amountIn.toNat := by
  rw [toNat_inputAfterFees]
  exact Nat.sub_le _ _

/-- Both fees step up where the input reaches a multiple of 2000 from 4000 on, and the last
unit before it is lost; from there on more input leaves no less. -/
theorem inputAfterFees_steps {amountIn larger : UInt64} (h : amountIn ≤ larger) :
    if larger.toNat = amountIn.toNat + 1 ∧ 2000 ∣ larger.toNat ∧ 4000 ≤ larger.toNat then
      (inputAfterFees larger).toNat + 1 = (inputAfterFees amountIn).toNat
    else (inputAfterFees amountIn).toNat ≤ (inputAfterFees larger).toNat := by
  rw [UInt64.le_iff_toNat_le] at h
  rw [toNat_inputAfterFees, toNat_inputAfterFees]
  split <;> omega

theorem net_mul_div_eq_swapOut (inReserve outReserve net : Nat) :
    net * outReserve / (inReserve + net) = swapOut inReserve outReserve net := rfl

/-- The cross-multiplied comparison asks whether the quote reaches the owner's price. -/
theorem spotBelowFloor_eq_false_iff {amountIn inReserve outReserve floorNum floorDen : UInt64}
    (hpool : 0 < inReserve.toNat + (inputAfterFees amountIn).toNat) :
    spotBelowFloor amountIn inReserve outReserve floorNum floorDen = false ↔
      0 < floorDen.toNat ∧ amountIn.toNat * floorNum.toNat ≤
        floorDen.toNat * swapOut inReserve.toNat outReserve.toNat
          (inputAfterFees amountIn).toNat := by
  have hnet := (inputAfterFees amountIn).toNat_lt
  have hquote : swapOut inReserve.toNat outReserve.toNat (inputAfterFees amountIn).toNat <
      2 ^ 64 := (swapOut_le _ _ _).trans_lt outReserve.toNat_lt
  unfold spotBelowFloor
  simp only [saturatingAdd128_words inReserve.toNat_lt hnet,
    saturatingMul128_words hnet outReserve.toNat_lt, net_mul_div_eq_swapOut,
    saturatingMul128_words hquote floorDen.toNat_lt,
    saturatingMul128_words amountIn.toNat_lt floorNum.toNat_lt]
  by_cases hden : floorDen = 0
  · simp [hden]
  · have hpos : 0 < floorDen.toNat := UInt64.lt_iff_toNat_lt.mp (UInt64.pos_iff_ne_zero.mpr hden)
    rw [if_neg (not_or.mpr ⟨hpool.ne', hden⟩), decide_eq_false_iff_not, Nat.not_lt,
      Nat.mul_comm floorDen.toNat]
    exact ⟨fun h => ⟨hpos, h⟩, fun h => h.2⟩

/-- **The quote is exact.**  Nothing saturates on the way to it, it falls below the floor
exactly where the bound fails or lies above it, and it is what a constant-product pool pays
that keeps its reserve rounded up.  The input net of fees never exceeds the input, it is the
difference for every input but a single unit, and it grows with the input except by the last
unit before both fees step up. -/
theorem spot_quote_exact (amountIn inReserve outReserve floorNum floorDen : UInt64)
    (hpool : 0 < inReserve.toNat + (inputAfterFees amountIn).toNat) :
    let net := (inputAfterFees amountIn).toNat
    let denom := inReserve.toNat + net
    let quote := net * outReserve.toNat / denom
    (saturatingAdd128 inReserve.toNat net = inReserve.toNat + net ∧
      saturatingMul128 net outReserve.toNat = net * outReserve.toNat ∧
      saturatingMul128 quote floorDen.toNat = quote * floorDen.toNat ∧
      saturatingMul128 amountIn.toNat floorNum.toNat = amountIn.toNat * floorNum.toNat) ∧
    (spotBelowFloor amountIn inReserve outReserve floorNum floorDen = false ↔
      ∃ bound, floorBound amountIn floorNum floorDen = .ok bound ∧ bound.toNat ≤ quote) ∧
    quote = outReserve.toNat - inReserve.toNat * outReserve.toNat ⌈/⌉ denom ∧
    net ≤ amountIn.toNat ∧
    (amountIn ≠ 1 → net + (max (amountIn.toNat * 25 / 10000) (min amountIn.toNat 1) +
      max (amountIn.toNat * 5 / 10000) (min amountIn.toNat 1)) = amountIn.toNat) ∧
    ∀ larger, amountIn ≤ larger →
      if larger.toNat = amountIn.toNat + 1 ∧ 2000 ∣ larger.toNat ∧ 4000 ≤ larger.toNat then
        (inputAfterFees larger).toNat + 1 = net
      else net ≤ (inputAfterFees larger).toNat := by
  intro net denom quote
  have hnet : net < 2 ^ 64 := (inputAfterFees amountIn).toNat_lt
  have hquote : quote < 2 ^ 64 := (swapOut_le _ _ _).trans_lt outReserve.toNat_lt
  refine ⟨⟨?_, ?_, ?_, ?_⟩, ?_, ?_, inputAfterFees_le amountIn, ?_, ?_⟩
  · exact saturatingAdd128_words inReserve.toNat_lt hnet
  · exact saturatingMul128_words hnet outReserve.toNat_lt
  · exact saturatingMul128_words hquote floorDen.toNat_lt
  · exact saturatingMul128_words amountIn.toNat_lt floorNum.toNat_lt
  · rw [spotBelowFloor_eq_false_iff hpool, floorBound_le_iff hquote]
    rfl
  · exact swapOut_eq_sub_ceilDiv hpool _
  · intro hone
    have hne : amountIn.toNat ≠ 1 := fun h => hone (UInt64.toNat_inj.mp h)
    show (inputAfterFees amountIn).toNat + _ = _
    rw [toNat_inputAfterFees]
    omega
  · intro larger hle
    exact inputAfterFees_steps hle

/-- Ten thousand units into an even pool clear a floor of nine tenths. -/
theorem spot_quote_exact_sample :
    spotBelowFloor 10000 1000000 1000000 9 10 = false ∧
      ∃ bound, floorBound 10000 9 10 = .ok bound ∧ bound.toNat ≤ 9970 * 1000000 / 1009970 := by
  have hclears : spotBelowFloor 10000 1000000 1000000 9 10 = false := by decide
  have hexact := spot_quote_exact 10000 1000000 1000000 9 10 (by decide)
  exact ⟨hclears, hexact.2.1.mp hclears⟩

/-- One unit more, at four thousand, leaves one unit less after the fees. -/
theorem net_input_drops :
    ¬ ∀ amountIn larger : UInt64, amountIn ≤ larger →
      inputAfterFees amountIn ≤ inputAfterFees larger := by
  intro h
  exact absurd (h 3999 4000 (by decide)) (by decide)

/-! ## Trades -/

/-- An output at least the bound clears the owner's price. -/
theorem price_of_floorBound {amountIn floorNum floorDen bound amountOut : UInt64}
    (h : floorBound amountIn floorNum floorDen = .ok bound) (hle : bound ≤ amountOut) :
    amountIn.toNat * floorNum.toNat ≤ amountOut.toNat * floorDen.toNat := by
  rw [Nat.mul_comm amountOut.toNat]
  exact ((floorBound_le_iff amountOut.toNat_lt).mp ⟨bound, h, UInt64.le_iff_toNat_le.mp hle⟩).2

/-- A trade is recorded at what the accounts lost and gained, and at the owner's price for
the whole request. -/
theorem TradeEffect.price {s s' : TradeState} {i : TradeInput} {o : TradeOutput}
    (h : TradeEffect s i o s') {e : TradeEntry} (he : e ∈ o.records) (hkind : e.kind = .traded) :
    ∃ accts requested minOut exchange, i.instr = .trade accts requested minOut e.nonce exchange ∧
      s.world.balance accts.source = s'.world.balance accts.source + e.amountIn.toNat ∧
      s'.world.balance accts.destination =
        s.world.balance accts.destination + e.amountOut.toNat ∧
      requested.toNat * s.rule.floorNum.toNat ≤ e.amountOut.toNat * s.rule.floorDen.toNat ∧
      minOut ≤ e.amountOut ∧ 0 < e.amountIn ∧ e.amountIn ≤ requested := by
  cases h with
  | @traded accts requested minOut _ bound _ _ _ exchange _ _ _ _ instr _ _ floor _ positive
      observed debited credited enough _ _ hrecords =>
      rw [hrecords, List.mem_singleton] at he
      subst he
      have hmin : minOut ≤ max minOut bound := le_max_iff_of_words.mpr (.inl UInt64.le_rfl)
      have hbound : bound ≤ max minOut bound := le_max_iff_of_words.mpr (.inr UInt64.le_rfl)
      have hprice := price_of_floorBound floor (UInt64.le_trans hbound enough)
      exact ⟨accts, requested, minOut, exchange, instr, debited, credited, hprice,
        UInt64.le_trans hmin enough, positive, observed⟩
  | refused _ _ _ _ hrecords =>
      rw [hrecords, List.mem_singleton] at he
      subst he
      cases hkind
  | granted _ _ _ _ _ _ _ hrecords =>
      rw [hrecords, List.mem_singleton] at he
      subst he
      cases hkind
  | revoked _ _ _ hrecords =>
      rw [hrecords, List.mem_singleton] at he
      subst he
      cases hkind
  | outside _ hrecords =>
      rw [hrecords] at he
      cases he

section Run

variable {rt : Runtime} {now : Int64} {signers : List Pubkey} {accts : OpenTradeRule}
  {args : OpenTradeRuleArgs} {w : World} {opening : TradeOutput} {s₀ s : TradeState}
  {h : TradeHistory}

/-- **No sale below the owner's price.**  Whatever the exchange does in any call of a run, a
trade it records paid at least the floor for the whole requested input, so for the input it
took, and at least what the agent asked for; and it took some of the request and no more. -/
theorem trade_price_floor (hopen : openTradeRule rt now signers accts args w = .ok (opening, s₀))
    (run : Run (TradeStep rt) s₀ h s) :
    ∀ T ∈ h, ∀ e ∈ T.output.records, e.kind = .traded →
      ∃ trade requested minOut exchange,
        T.input.instr = .trade trade requested minOut e.nonce exchange ∧
        T.pre.world.balance trade.source =
          T.post.world.balance trade.source + e.amountIn.toNat ∧
        T.post.world.balance trade.destination =
          T.pre.world.balance trade.destination + e.amountOut.toNat ∧
        requested.toNat * args.floorNum.toNat ≤ e.amountOut.toNat * args.floorDen.toNat ∧
        e.amountIn.toNat * args.floorNum.toNat ≤ e.amountOut.toNat * args.floorDen.toNat ∧
        minOut ≤ e.amountOut ∧ 0 < e.amountIn ∧ e.amountIn ≤ requested := by
  intro T hT e he hkind
  obtain ⟨⟨bump, hrule⟩, -⟩ := openTradeRule_ok hopen
  obtain ⟨_, _, _, before, hstep, _⟩ := run.of_mem hT
  have hterms : T.pre.rule.terms = accts.terms args := by
    rw [TradeRule.terms_of_run before, hrule]
    rfl
  have hnum : T.pre.rule.floorNum = args.floorNum := congrArg TradeTerms.floorNum hterms
  have hden : T.pre.rule.floorDen = args.floorDen := congrArg TradeTerms.floorDen hterms
  obtain ⟨trade, requested, minOut, exchange, instr, debited, credited, hprice, hmin, positive,
    observed⟩ := (TradeStep.effect hstep).price he hkind
  rw [hnum, hden] at hprice
  have hsold : e.amountIn.toNat * args.floorNum.toNat ≤ requested.toNat * args.floorNum.toNat :=
    Nat.mul_le_mul_right _ (UInt64.le_iff_toNat_le.mp observed)
  exact ⟨trade, requested, minOut, exchange, instr, debited, credited, hprice,
    hsold.trans hprice, hmin, positive, observed⟩

end Run

set_option maxRecDepth 20000 in
/-- In the sample run both trades clear a floor of one, the second for 49 of 50 requested. -/
theorem trade_price_floor_sample :
    let h := (okValue tradeRun tradeRun_ok).1
    (tradedRecords (written h)).map (fun e => (e.amountIn, e.amountOut)) = [(49, 95), (30, 55)] ∧
      ∀ T ∈ h, ∀ e ∈ T.output.records, e.kind = .traded → e.amountIn ≤ e.amountOut := by
  refine ⟨by decide, ?_⟩
  intro T hT e he hkind
  obtain ⟨_, _, _, _, _, _, _, _, hprice, _⟩ := trade_price_floor
    (eq_ok_okValue_pair tradeOpen tradeOpen_ok) tradeRun_run T hT e he hkind
  rw [UInt64.le_iff_toNat_le]
  exact Nat.le_of_mul_le_mul_right hprice (by decide)

end Veto
