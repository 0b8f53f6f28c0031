import Mathlib.Algebra.Order.BigOperators.Group.List
import BackendManager.Rating

/-!
# The Bill of a Period in Closed Form

What `rate` and `total_cents` compute, for any rate cards and any usage: the lines in their
order, and the total as a sum over the meters of the card. A rate card that is a Python object
has a `dict` of meters, whose names are distinct (`RateCard.Keyed`).

The order of the lines is that of the sorted meter names behind the base line, and a meter
contributes a line exactly if its usage is over its quota. The total is additive in the lines,
so that it is a sum over the card, whatever the order; from the closed form it follows that
usage off the card costs nothing and that more usage never costs less.

## Main results

* `itemised_rate`: which lines there are, and in which order.
* `total_rate`: the total is the base price and, for every meter, the price of what is over its
  quota.
* `rate_closed_form`: both, with what follows for usage off the card and for more usage.
-/

namespace BackendManager.Metering

variable {cards : List (String × RateCard)} {plan : String} {usage usage' : Usage}
  {card : RateCard} {item : String × MeterRate} {line : RatedLine}
  {items : List (String × MeterRate)}

/-- `usage.get(meter, 0)`. -/
def Usage.used (usage : Usage) (meter : String) : ℤ := (usage meter).getD 0

/-- What is over the quota of the meter. -/
def overage (usage : Usage) (item : String × MeterRate) : ℤ :=
  max 0 (usage.used item.1 - item.2.included)

/-- The names of the meters are distinct. -/
def RateCard.Keyed (card : RateCard) : Prop := (card.meters.map Prod.fst).Nodup

instance (card : RateCard) : Decidable card.Keyed := inferInstanceAs (Decidable (List.Nodup _))

/-- **The bill**: the base price, and the price of what is over each quota. -/
def RateCard.bill (card : RateCard) (usage : Usage) : ℤ :=
  card.base_cents + (card.meters.map fun item => overage usage item * item.2.overage_cents).sum

/-- The line of a meter that is over its quota. -/
def overageEntry (usage : Usage) (item : String × MeterRate) : RatedLine where
  kind := "overage"
  meter := some item.1
  quantity := overage usage item
  unit_cents := item.2.overage_cents
  amount_cents := overage usage item * item.2.overage_cents
  description := item.1 ++ " overage: " ++ toString (overage usage item) ++ " x " ++
    toString item.2.overage_cents ++ "c"

/-- The line of the flat fee. -/
def baseEntry (plan : String) (card : RateCard) : RatedLine where
  kind := "base"
  meter := none
  quantity := 1
  unit_cents := card.base_cents
  amount_cents := card.base_cents
  description := plan ++ " plan"

/-- The lines are the base line, if there is a base price, and one line for every meter that is
over its quota and has a price, in the order of the meters. -/
structure Itemised (plan : String) (card : RateCard) (usage : Usage)
    (lines : List RatedLine) : Prop where
  base_first : ∃ entries, lines =
    (if card.base_cents = 0 then entries else baseEntry plan card :: entries) ∧
      (entries.Pairwise fun a b => ∃ m ∈ a.meter, ∃ m' ∈ b.meter, m < m') ∧
      ∀ line, line ∈ entries ↔ ∃ item ∈ card.meters, 0 < overage usage item ∧
        item.2.overage_cents ≠ 0 ∧ line = overageEntry usage item
  amount : ∀ line ∈ lines, line.amount_cents = line.quantity * line.unit_cents

/-! ### One line -/

/-- Usage below what is included is not paid back. -/
theorem overage_nonneg (usage : Usage) (item : String × MeterRate) : 0 ≤ overage usage item :=
  le_max_left _ _

/-- More usage costs no less. -/
theorem overage_mono (h : usage.used item.1 ≤ usage'.used item.1) :
    overage usage item ≤ overage usage' item :=
  max_le_max_left 0 (Int.sub_le_sub_right h _)

/-- A meter has a line if it is over its quota and has a price. -/
theorem overageLine_eq_some :
    overageLine usage item = some line ↔
      0 < overage usage item ∧ item.2.overage_cents ≠ 0 ∧ line = overageEntry usage item := by
  have hpos : 0 < overage usage item ↔ overage usage item ≠ 0 :=
    (overage_nonneg usage item).lt_iff_ne'
  have hline : overageLine usage item =
      if overage usage item ≠ 0 ∧ item.2.overage_cents ≠ 0 then some (overageEntry usage item)
      else none := rfl
  rw [hline, hpos]
  split
  · rename_i h
    rw [Option.some.injEq, eq_comm]
    simp [h]
  · rename_i h
    constructor
    · intro hnone
      cases hnone
    · rintro ⟨hover, hprice, -⟩
      exact absurd ⟨hover, hprice⟩ h

/-- A meter without a line costs nothing. -/
theorem amount_overageLine (usage : Usage) (item : String × MeterRate) :
    ((overageLine usage item).map RatedLine.amount_cents).getD 0 =
      overage usage item * item.2.overage_cents := by
  cases h : overageLine usage item with
  | some line =>
      obtain ⟨-, -, rfl⟩ := overageLine_eq_some.mp h
      rfl
  | none =>
      by_contra hne
      have hover : overage usage item ≠ 0 := fun h0 => hne (by simp [h0])
      have hprice : item.2.overage_cents ≠ 0 := fun h0 => hne (by simp [h0])
      have hpos := lt_of_le_of_ne (overage_nonneg usage item) hover.symm
      rw [overageLine_eq_some.mpr ⟨hpos, hprice, rfl⟩] at h
      cases h

/-! ### All lines -/

/-- The meters of the card in the order of their names. -/
def RateCard.sorted (card : RateCard) : List (String × MeterRate) :=
  card.meters.insertionSort fun a b => a.1 ≤ b.1

/-- Sorting the meters of a card loses none and doubles none. -/
theorem RateCard.sorted_perm (card : RateCard) : card.sorted.Perm card.meters :=
  List.perm_insertionSort _ _

/-- The names of different meters differ, so that the order is strict. -/
theorem RateCard.Keyed.sorted (h : card.Keyed) : card.sorted.Pairwise fun a b => a.1 < b.1 := by
  have hsorted : card.sorted.Pairwise fun a b => a.1 ≤ b.1 := List.pairwise_insertionSort _ _
  have hdistinct : card.sorted.Pairwise fun a b => a.1 ≠ b.1 := by
    have hnodup : (card.sorted.map Prod.fst).Nodup :=
      (card.sorted_perm.map Prod.fst).nodup_iff.mpr h
    exact List.pairwise_map.mp hnodup
  exact hsorted.imp₂ (fun _ _ hle hne => lt_of_le_of_ne hle hne) hdistinct

/-- The lines of a plan: its base price, and one line for each meter with an overage. -/
theorem rate_of_card (h : resolveCard cards plan = some card) :
    rate cards plan usage = baseLine plan card ++ card.sorted.filterMap (overageLine usage) := by
  rw [rate, h]
  rfl

/-- Without a card there are no lines. -/
theorem rate_of_none (h : resolveCard cards plan = none) : rate cards plan usage = [] := by
  rw [rate, h]

/-- **The lines of a bill.** -/
theorem itemised_rate (h : resolveCard cards plan = some card) (hkeyed : card.Keyed) :
    Itemised plan card usage (rate cards plan usage) where
  base_first := by
    refine ⟨card.sorted.filterMap (overageLine usage), ?_, ?_, fun line => ?_⟩
    · rw [rate_of_card h, baseLine]
      by_cases hbase : card.base_cents = 0
      · simp [hbase]
      · simp [hbase, baseEntry]
    · refine hkeyed.sorted.filterMap _ fun a b hlt line hline line' hline' => ?_
      obtain ⟨-, -, rfl⟩ := overageLine_eq_some.mp hline
      obtain ⟨-, -, rfl⟩ := overageLine_eq_some.mp hline'
      exact ⟨a.1, rfl, b.1, rfl, hlt⟩
    · simp only [List.mem_filterMap, overageLine_eq_some, card.sorted_perm.mem_iff]
  amount line hline := by
    rw [rate_of_card h] at hline
    rcases List.mem_append.mp hline with hbase | hover
    · rw [baseLine] at hbase
      split at hbase
      · obtain rfl := List.mem_singleton.mp hbase
        exact (one_mul _).symm
      · cases hbase
    · obtain ⟨item, -, hitem⟩ := List.mem_filterMap.mp hover
      obtain ⟨-, -, rfl⟩ := overageLine_eq_some.mp hitem
      rfl

/-! ### The total -/

/-- The total of two parts of an invoice. -/
theorem total_append (lines lines' : List RatedLine) :
    total_cents (lines ++ lines') = total_cents lines + total_cents lines' := by
  rw [total_cents, List.map_append, List.sum_append]
  rfl

/-- The base line is worth the base price; there is none for a price of zero. -/
theorem total_baseLine (plan : String) (card : RateCard) :
    total_cents (baseLine plan card) = card.base_cents := by
  rw [baseLine]
  split
  · simp [total_cents]
  · rename_i hbase
    simpa [total_cents] using (of_not_not hbase).symm

/-- The lines of some meters add up to what these meters cost. -/
theorem total_overageLines (usage : Usage) (items : List (String × MeterRate)) :
    total_cents (items.filterMap (overageLine usage)) =
      (items.map fun item => overage usage item * item.2.overage_cents).sum := by
  induction items with
  | nil => rfl
  | cons item items ih =>
      have hitem := amount_overageLine usage item
      cases hline : overageLine usage item with
      | none =>
          rw [hline] at hitem
          rw [List.filterMap_cons_none hline, ih, List.map_cons, List.sum_cons, ← hitem]
          exact (zero_add _).symm
      | some line =>
          rw [hline] at hitem
          rw [List.filterMap_cons_some hline, List.map_cons, List.sum_cons, ← hitem, ← ih]
          rfl

/-- **The total in closed form.** -/
theorem total_rate (h : resolveCard cards plan = some card) (usage : Usage) :
    total_cents (rate cards plan usage) = card.bill usage :=
  calc total_cents (rate cards plan usage)
      = total_cents (baseLine plan card) +
          total_cents (card.sorted.filterMap (overageLine usage)) := by
        rw [rate_of_card h, total_append]
    _ = card.base_cents +
          (card.sorted.map fun item => overage usage item * item.2.overage_cents).sum := by
        rw [total_baseLine, total_overageLines]
    _ = card.bill usage := by
        rw [RateCard.bill, (card.sorted_perm.map _).sum_eq]

/-- Usage of meters that are not on the card is not looked at. -/
theorem rate_congr (h : resolveCard cards plan = some card)
    (hused : ∀ item ∈ card.meters, usage.used item.1 = usage'.used item.1) :
    rate cards plan usage = rate cards plan usage' := by
  rw [rate_of_card h, rate_of_card h]
  congr 1
  refine List.filterMap_congr fun item hitem => ?_
  have hover : overage usage item = overage usage' item := by
    rw [overage, overage, hused item (card.sorted_perm.mem_iff.mp hitem)]
  refine Option.ext fun line => ?_
  rw [overageLine_eq_some, overageLine_eq_some, overageEntry, overageEntry, hover]

/-- More usage does not cost less, if no price is negative. -/
theorem bill_mono (hprice : ∀ item ∈ card.meters, 0 ≤ item.2.overage_cents)
    (hused : ∀ meter, usage.used meter ≤ usage'.used meter) :
    card.bill usage ≤ card.bill usage' := by
  refine (Int.add_le_add_iff_left _).mpr (List.sum_le_sum fun item hitem => ?_)
  exact Int.mul_le_mul_of_nonneg_right (overage_mono (hused item.1)) (hprice item hitem)

/-- The card of a plan is one of the cards. -/
theorem mem_of_resolve (h : resolveCard cards plan = some card) :
    ∃ name, (name, card) ∈ cards := by
  have hmem : ∀ name, cards.lookup name = some card → (name, card) ∈ cards := by
    intro name hname
    obtain ⟨before, after, rfl, -⟩ := List.lookup_eq_some_iff.mp hname
    simp
  rw [resolveCard] at h
  cases hplan : cards.lookup plan with
  | none => exact ⟨DEFAULT_PLAN, hmem DEFAULT_PLAN (by simpa [hplan] using h)⟩
  | some card' => exact ⟨plan, hmem plan (by simpa [hplan] using h)⟩

/-- Every card that a plan can be rated on has each meter once, if all cards have. -/
theorem keyed_of_resolve (hkeyed : ∀ item ∈ cards, item.2.Keyed)
    (h : resolveCard cards plan = some card) : card.Keyed := by
  obtain ⟨name, hname⟩ := mem_of_resolve h
  exact hkeyed (name, card) hname

/-- **The bill of any card, plan and usage.** Without a card there are no lines. With one, the
lines are itemised and their total is the bill of the card; usage of other meters changes no
line, and where no price is negative more usage never lowers the total. -/
theorem rate_closed_form (cards : List (String × RateCard)) (plan : String) (usage : Usage)
    (hkeyed : ∀ item ∈ cards, item.2.Keyed) :
    (resolveCard cards plan = none →
      rate cards plan usage = [] ∧ total_cents (rate cards plan usage) = 0) ∧
    ∀ card, resolveCard cards plan = some card →
      Itemised plan card usage (rate cards plan usage) ∧
      total_cents (rate cards plan usage) = card.bill usage ∧
      (∀ usage' : Usage, (∀ item ∈ card.meters, usage.used item.1 = usage'.used item.1) →
        rate cards plan usage = rate cards plan usage') ∧
      ((∀ item ∈ card.meters, 0 ≤ item.2.overage_cents) → ∀ usage' : Usage,
        (∀ meter, usage.used meter ≤ usage'.used meter) →
          total_cents (rate cards plan usage) ≤ total_cents (rate cards plan usage')) := by
  constructor
  · intro h
    rw [rate_of_none h]
    exact ⟨rfl, rfl⟩
  · intro card h
    refine ⟨itemised_rate h (keyed_of_resolve hkeyed h), total_rate h usage,
      fun usage' hused => rate_congr h hused, fun hprice usage' hused => ?_⟩
    rw [total_rate h, total_rate h]
    exact bill_mono hprice hused

/-- The default cards: a pro organisation that uses 150000 calls pays for 50000 of them. -/
theorem rate_closed_form_pro :
    total_cents (rate DEFAULT_RATE_CARDS "pro" fun meter =>
      if meter = "api_calls" then some 150000 else none) = 4900 + 50000 * 1 := by
  have hcards : ∀ item ∈ DEFAULT_RATE_CARDS, item.2.Keyed := by decide
  obtain ⟨-, hcard⟩ := rate_closed_form DEFAULT_RATE_CARDS "pro"
    (fun meter => if meter = "api_calls" then some 150000 else none) hcards
  obtain ⟨-, htotal, -⟩ := hcard _ rfl
  rw [htotal]
  decide

end BackendManager.Metering
