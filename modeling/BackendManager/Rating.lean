import Mathlib.Algebra.Ring.Int.Defs
import Mathlib.Data.List.Sort
import Mathlib.Data.String.Basic

/-!
# The Rating Engine

The model of `app/metering/rating.py` and `app/metering/rate_cards.py`: a plan and the
usage totals of a period are turned into invoice lines.

A Python `dict` that is only looked up is a function to `Option`; one that is iterated
over is the list of its items, whose keys are distinct.

`rate` sorts the meters of the card by name and emits one line for each of them that the usage
exceeds and that has a price, behind a line for the base price unless that is zero. A plan
without a card of its own is rated on the default one, and if there is none it costs nothing.
Amounts are integers, in cents, and so are quantities; a line is worth their product.

Nothing is proved here; the closed form is the subject of `BackendManager.RatedInvoice`.
-/

namespace BackendManager.Metering

/-- The currency of the default cards. -/
def DEFAULT_CURRENCY : String := "usd"

/-- The plan of an organisation without a subscription. -/
def DEFAULT_PLAN : String := "free"

/-- The price of one metered dimension on a plan. -/
structure MeterRate where
  included : ℤ
  overage_cents : ℤ
deriving DecidableEq

/-- A plan's flat base price and its per-meter rates. -/
structure RateCard where
  base_cents : ℤ
  currency : String
  meters : List (String × MeterRate)
deriving DecidableEq

/-- The default rate cards. -/
def DEFAULT_RATE_CARDS : List (String × RateCard) :=
  [("free", ⟨0, DEFAULT_CURRENCY, [("api_calls", ⟨1000, 0⟩)]⟩),
    ("pro", ⟨4900, DEFAULT_CURRENCY, [("api_calls", ⟨100000, 1⟩), ("tokens", ⟨1000000, 0⟩)]⟩),
    ("enterprise", ⟨49900, DEFAULT_CURRENCY,
      [("api_calls", ⟨1000000, 1⟩), ("tokens", ⟨10000000, 0⟩)]⟩)]

/-- One invoice line: a flat `base` charge or a metered `overage` charge. -/
structure RatedLine where
  kind : String
  meter : Option String
  quantity : ℤ
  unit_cents : ℤ
  amount_cents : ℤ
  description : String
deriving DecidableEq

/-- The usage totals of a period, by meter. -/
abbrev Usage := String → Option ℤ

/-- The line of the flat fee, unless it is zero. -/
def baseLine (plan : String) (card : RateCard) : List RatedLine :=
  if card.base_cents ≠ 0 then
    [⟨"base", none, 1, card.base_cents, card.base_cents, plan ++ " plan"⟩]
  else []

/-- The line of one meter, where usage exceeds the quota and has a price. -/
def overageLine (usage : Usage) (item : String × MeterRate) : Option RatedLine :=
  let used := (usage item.1).getD 0
  let over_ := max 0 (used - item.2.included)
  if over_ ≠ 0 ∧ item.2.overage_cents ≠ 0 then
    some ⟨"overage", some item.1, over_, item.2.overage_cents, over_ * item.2.overage_cents,
      item.1 ++ " overage: " ++ toString over_ ++ " x " ++ toString item.2.overage_cents ++ "c"⟩
  else none

/-- The card of a plan, else that of the default plan. -/
def resolveCard (cards : List (String × RateCard)) (plan : String) : Option RateCard :=
  cards.lookup plan <|> cards.lookup DEFAULT_PLAN

/-- `rate`: the base line, then the overage lines in the order of their meters. -/
def rate (cards : List (String × RateCard)) (plan : String) (usage : Usage) :
    List RatedLine :=
  match resolveCard cards plan with
  | none => []
  | some card =>
      baseLine plan card ++
        (card.meters.insertionSort fun a b => a.1 ≤ b.1).filterMap (overageLine usage)

/-- `total_cents`: the sum of the line amounts. -/
def total_cents (lines : List RatedLine) : ℤ := (lines.map RatedLine.amount_cents).sum

end BackendManager.Metering
