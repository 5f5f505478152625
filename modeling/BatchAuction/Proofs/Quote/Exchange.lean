import BatchAuction.Proofs.Amount
import BatchAuction.Quote

/-!
# Exchange at a ratio

What a quote leaves open is the exchanged amount with its fraction of a unit dropped. An
amount that is exchanged and then exchanged back never grows, and what it loses is less than
a unit of either token takes. Selling at a ratio and buying at the inverse ratio are one
thing, so each fact is shown for one direction.
-/

set_option autoImplicit false

namespace BatchAuction

/-- The greatest number of whole units that a product covers. -/
def IsWholePart (product unit count : Nat) : Prop :=
  count * unit ≤ product ∧ product < (count + 1) * unit

theorem isWholePart_iff {product unit count : Nat} (positive : 0 < unit) :
    IsWholePart product unit count ↔ count = product / unit := by
  rw [eq_comm, Nat.div_eq_iff positive]
  simp only [IsWholePart, Nat.add_mul, Nat.one_mul]
  omega

namespace Ratio

/-- The ratio for the way back. -/
def inverse (ratio : Ratio) : Ratio :=
  ⟨ratio.denominator, ratio.numerator, ratio.denominator_ne_zero, ratio.numerator_ne_zero⟩

/-- The ratio at which the amount that a request names is exchanged. -/
def toward (ratio : Ratio) : Side → Ratio
  | .sell => ratio
  | .buy => ratio.inverse

theorem backward_eq_forward (ratio : Ratio) (amount : Nat) :
    ratio.backward amount = ratio.inverse.forward amount := rfl

theorem numerator_pos (ratio : Ratio) : 0 < ratio.numerator.toNat :=
  Nat.pos_of_ne_zero fun zero => ratio.numerator_ne_zero (UInt64.toNat_inj.mp zero)

theorem denominator_pos (ratio : Ratio) : 0 < ratio.denominator.toNat :=
  ratio.inverse.numerator_pos

theorem isWholePart_forward (ratio : Ratio) {amount count : Nat} :
    IsWholePart (amount * ratio.numerator.toNat) ratio.denominator.toNat count ↔
      count = ratio.forward amount :=
  isWholePart_iff ratio.denominator_pos

theorem forward_mono (ratio : Ratio) {smaller larger : Nat} (le : smaller ≤ larger) :
    ratio.forward smaller ≤ ratio.forward larger :=
  Nat.div_le_div_right (Nat.mul_le_mul_right _ le)

/-- A ratio of at most one gains nothing. -/
theorem forward_le (ratio : Ratio) (notAbove : ratio.numerator ≤ ratio.denominator)
    (amount : Nat) : ratio.forward amount ≤ amount := by
  apply Nat.div_le_of_le_mul
  rw [Nat.mul_comm]
  exact Nat.mul_le_mul_right _ (UInt64.le_iff_toNat_le.mp notAbove)

/-- Both divisions drop less than a unit, so what comes back falls short by less than the
units of both tokens take together. -/
theorem forward_backward (ratio : Ratio) (amount : Nat) :
    ratio.forward (ratio.backward amount) ≤ amount ∧
      (amount - ratio.forward (ratio.backward amount)) * ratio.denominator.toNat ≤
        ratio.numerator.toNat + ratio.denominator.toNat - 2 := by
  obtain ⟨costLower, costUpper⟩ := ratio.inverse.isWholePart_forward.mpr
    (ratio.backward_eq_forward amount)
  obtain ⟨backLower, backUpper⟩ := ratio.isWholePart_forward.mpr
    (rfl : ratio.forward (ratio.backward amount) = _)
  generalize ratio.forward (ratio.backward amount) = back at *
  generalize ratio.backward amount = cost at *
  simp only [inverse, Nat.add_mul, Nat.one_mul] at costLower costUpper
  rw [Nat.add_mul, Nat.one_mul] at backUpper
  have covered : back * ratio.denominator.toNat ≤ amount * ratio.denominator.toNat :=
    Nat.le_trans backLower costLower
  refine ⟨Nat.le_of_mul_le_mul_right covered ratio.denominator_pos, ?_⟩
  rw [Nat.sub_mul]
  omega

/-- At a ratio of at most one the way back loses at most one unit. -/
theorem le_forward_backward (ratio : Ratio) (notAbove : ratio.numerator ≤ ratio.denominator)
    (amount : Nat) : amount ≤ ratio.forward (ratio.backward amount) + 1 := by
  obtain ⟨-, loss⟩ := ratio.forward_backward amount
  have positive := ratio.denominator_pos
  have small : (amount - ratio.forward (ratio.backward amount)) * ratio.denominator.toNat <
      2 * ratio.denominator.toNat := by
    have units := UInt64.le_iff_toNat_le.mp notAbove
    omega
  have few := Nat.lt_of_mul_lt_mul_right small
  omega

end Ratio

/-- The amount that a request for a quote named. -/
def Quote.named (quote : Quote) : Nat :=
  match quote.side with
  | .sell => quote.sellAmount
  | .buy => quote.buyAmount

/-- The amount that a request for a quote left open. -/
def Quote.counter (quote : Quote) : Nat :=
  match quote.side with
  | .sell => quote.buyAmount
  | .buy => quote.sellAmount

namespace Ratio

theorem quote_of_same {ratio : Ratio} {request : QuoteRequest}
    (same : request.sellToken = request.buyToken) :
    ratio.quote request = .error .sameTokens := if_pos same

/-- Of different tokens there is a quote, and it holds the amount that was named and the
exchanged one. -/
theorem exists_quote {request : QuoteRequest} (ratio : Ratio)
    (different : request.sellToken ≠ request.buyToken) :
    ∃ quote, ratio.quote request = .ok quote ∧ quote.sellToken = request.sellToken ∧
      quote.buyToken = request.buyToken ∧ quote.side = request.side ∧
      quote.named = request.amount.value ∧
      quote.counter = (ratio.toward request.side).forward request.amount.value := by
  simp only [quote, if_neg different, Amount.widen_eq_value]
  cases request.side with
  | sell => exact ⟨_, rfl, rfl, rfl, rfl, rfl, rfl⟩
  | buy => exact ⟨_, rfl, rfl, rfl, rfl, rfl, rfl⟩

/-- On either side one amount of a quote was named, and the other one is the whole part of
what it is exchanged for. -/
theorem amounts_of_quote {ratio : Ratio} {request : QuoteRequest} {quote : Quote}
    (side : quote.side = request.side) (named : quote.named = request.amount.value)
    (counter : quote.counter = (ratio.toward request.side).forward request.amount.value) :
    (request.side = .sell →
      quote.sellAmount = request.amount.value ∧ quote.buyAmount = quote.counter ∧
        ∀ count, IsWholePart (request.amount.value * ratio.numerator.toNat)
          ratio.denominator.toNat count ↔ count = quote.counter) ∧
    (request.side = .buy →
      quote.buyAmount = request.amount.value ∧ quote.sellAmount = quote.counter ∧
        ∀ count, IsWholePart (request.amount.value * ratio.denominator.toNat)
          ratio.numerator.toNat count ↔ count = quote.counter) := by
  have whole (count : Nat) : IsWholePart
      (request.amount.value * (ratio.toward request.side).numerator.toNat)
      (ratio.toward request.side).denominator.toNat count ↔ count = quote.counter := by
    rw [counter]
    exact isWholePart_forward _
  constructor
  · intro sells
    simp only [Quote.named, side, sells] at named
    simp only [sells] at whole
    exact ⟨named, by simp only [Quote.counter, side, sells], whole⟩
  · intro buys
    simp only [Quote.named, side, buys] at named
    simp only [buys] at whole
    exact ⟨named, by simp only [Quote.counter, side, buys], whole⟩

theorem parts_of_accepted {numerator denominator : UInt64} {ratio : Ratio}
    (accepted : Ratio.of numerator denominator = .ok ratio) :
    ratio.numerator = numerator ∧ ratio.denominator = denominator := by
  unfold Ratio.of at accepted
  split at accepted
  · split at accepted
    · cases accepted
      exact ⟨rfl, rfl⟩
    · cases accepted
  · cases accepted

/-- The ratio of a way back is inverse to that of the way there. -/
theorem toward_opposite (ratio : Ratio) {side other : Side} (opposite : other ≠ side) :
    (ratio.toward other).inverse = ratio.toward side := by
  cases side with
  | sell =>
      cases other with
      | sell => exact absurd rfl opposite
      | buy => rfl
  | buy =>
      cases other with
      | sell => rfl
      | buy => exact absurd rfl opposite

theorem toward_parts (ratio : Ratio) (side : Side) :
    (ratio.toward side).numerator.toNat + (ratio.toward side).denominator.toNat =
      ratio.numerator.toNat + ratio.denominator.toNat := by
  cases side with
  | sell => rfl
  | buy => exact Nat.add_comm ..

/-- A request whose amount is what another one of the opposite side left open brings back no
more than the other one named, and almost as much. -/
theorem quote_there_and_back (ratio : Ratio) {there back : QuoteRequest}
    (different : there.sellToken ≠ there.buyToken) (differentBack : back.sellToken ≠ back.buyToken)
    (opposite : back.side ≠ there.side) :
    ∃ outbound homeward, ratio.quote there = .ok outbound ∧ outbound.side = there.side ∧
      ratio.quote back = .ok homeward ∧ homeward.side = back.side ∧
      (back.amount.value = outbound.counter →
        homeward.counter ≤ there.amount.value ∧
        (there.amount.value - homeward.counter) * (ratio.toward back.side).denominator.toNat ≤
          ratio.numerator.toNat + ratio.denominator.toNat - 2 ∧
        ((ratio.toward back.side).numerator ≤ (ratio.toward back.side).denominator →
          there.amount.value ≤ homeward.counter + 1)) := by
  obtain ⟨outbound, quoted, -, -, side, -, counter⟩ := ratio.exists_quote different
  obtain ⟨homeward, quotedBack, -, -, sideBack, -, counterBack⟩ :=
    ratio.exists_quote differentBack
  refine ⟨outbound, homeward, quoted, side, quotedBack, sideBack, fun same => ?_⟩
  have returned : homeward.counter = (ratio.toward back.side).forward
      ((ratio.toward back.side).backward there.amount.value) := by
    rw [counterBack, same, counter, backward_eq_forward, ratio.toward_opposite opposite]
  obtain ⟨gain, loss⟩ := (ratio.toward back.side).forward_backward there.amount.value
  rw [ratio.toward_parts back.side] at loss
  rw [returned]
  exact ⟨gain, loss, fun notAbove => le_forward_backward _ notAbove _⟩

/-- Quoting there and back never gains, and loses no more than what the rounding of the two
quotes drops. The amount that a quote leaves open grows with the amount that is named. -/
theorem quoting_back_and_forth {numerator denominator : UInt64} {ratio : Ratio}
    (accepted : Ratio.of numerator denominator = .ok ratio) :
    let n := numerator.toNat
    let d := denominator.toNat
    (∀ there back : QuoteRequest,
      there.sellToken ≠ there.buyToken → back.sellToken ≠ back.buyToken →
      there.side = .buy → back.side = .sell →
      ∃ outbound homeward, ratio.quote there = .ok outbound ∧ ratio.quote back = .ok homeward ∧
        (back.amount.value = outbound.sellAmount →
          homeward.buyAmount ≤ there.amount.value ∧
          (there.amount.value - homeward.buyAmount) * d ≤ n + d - 2 ∧
          (n ≤ d → there.amount.value ≤ homeward.buyAmount + 1))) ∧
    (∀ there back : QuoteRequest,
      there.sellToken ≠ there.buyToken → back.sellToken ≠ back.buyToken →
      there.side = .sell → back.side = .buy →
      ∃ outbound homeward, ratio.quote there = .ok outbound ∧ ratio.quote back = .ok homeward ∧
        (back.amount.value = outbound.buyAmount →
          homeward.sellAmount ≤ there.amount.value ∧
          (there.amount.value - homeward.sellAmount) * n ≤ n + d - 2)) ∧
    (∀ smaller larger : QuoteRequest,
      smaller.sellToken ≠ smaller.buyToken → larger.sellToken ≠ larger.buyToken →
      smaller.side = larger.side → smaller.amount.value ≤ larger.amount.value →
      ∃ less more, ratio.quote smaller = .ok less ∧ ratio.quote larger = .ok more ∧
        less.counter ≤ more.counter) := by
  obtain ⟨rfl, rfl⟩ := parts_of_accepted accepted
  refine ⟨?_, ?_, ?_⟩
  · intro there back different differentBack buys sells
    obtain ⟨outbound, homeward, quoted, side, quotedBack, sideBack, bounds⟩ :=
      ratio.quote_there_and_back different differentBack (by simp [buys, sells])
    refine ⟨outbound, homeward, quoted, quotedBack, ?_⟩
    simpa only [Quote.counter, side, sideBack, buys, sells, toward,
      UInt64.le_iff_toNat_le] using bounds
  · intro there back different differentBack sells buys
    obtain ⟨outbound, homeward, quoted, side, quotedBack, sideBack, bounds⟩ :=
      ratio.quote_there_and_back different differentBack (by simp [buys, sells])
    refine ⟨outbound, homeward, quoted, quotedBack, fun same => ?_⟩
    simp only [Quote.counter, side, sideBack, buys, sells, toward, inverse] at bounds
    obtain ⟨gain, loss, -⟩ := bounds same
    exact ⟨gain, loss⟩
  · intro smaller larger different differentLarger side le
    obtain ⟨less, quoted, -, -, -, -, counter⟩ := ratio.exists_quote different
    obtain ⟨more, quotedMore, -, -, -, -, counterMore⟩ := ratio.exists_quote differentLarger
    refine ⟨less, more, quoted, quotedMore, ?_⟩
    rw [counter, counterMore, side]
    exact forward_mono _ le

/-- Seven units cost seven at the standard ratio and are sold again for six. -/
theorem seven_units_there_and_back :
    let request (side : Side) : QuoteRequest := ⟨.ofNat 20 1, .ofNat 20 2, side, .ofNat 7, .first⟩
    ∃ outbound homeward, standard.quote (request .buy) = .ok outbound ∧
      outbound.sellAmount = 7 ∧ standard.quote (request .sell) = .ok homeward ∧
      homeward.buyAmount = 6 ∧ (7 - homeward.buyAmount) * 100 ≤ 95 + 100 - 2 ∧
      7 ≤ homeward.buyAmount + 1 := by
  intro request
  have accepted : Ratio.of 95 100 = .ok standard := rfl
  have different : (request .buy).sellToken ≠ (request .buy).buyToken := by decide
  obtain ⟨outbound, homeward, quoted, quotedBack, bounds⟩ :=
    (quoting_back_and_forth accepted).1 (request .buy) (request .sell) different different rfl rfl
  have cost : outbound.sellAmount = 7 := by
    rw [quote, if_neg different] at quoted
    cases quoted
    decide
  have returned : homeward.buyAmount = 6 := by
    rw [quote, if_neg different] at quotedBack
    cases quotedBack
    decide
  obtain ⟨-, loss, few⟩ := bounds cost.symm
  exact ⟨outbound, homeward, quoted, cost, quotedBack, returned, loss, few (by decide)⟩

end Ratio

end BatchAuction
