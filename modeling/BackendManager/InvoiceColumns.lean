import Mathlib.Algebra.Order.Ring.Int
import Mathlib.Algebra.BigOperators.Group.Finset.Piecewise
import Mathlib.Algebra.Order.BigOperators.Group.Finset
import BackendManager.RatedInvoice
import BackendManager.UsageConservation

/-!
# Invoices That Their Columns Cannot Hold

Quantities and totals are `BIGINT`s. A value outside of their range is refused by the driver,
with an error that is no `IntegrityError`: the request ends with it. `UsageRecord` has no upper
bound on a quantity, so that the column is the only one, and nothing bounds the sum of a period.
`api_calls` have a price on two of the default cards; when their sum over the window exceeds
what the column of the total holds, the invoice of the period cannot be inserted. The events
stay where they are, so that no later close of the period on that plan can be either.

## Main results

* `fits_total_iff`: which usage has a total that fits.
* `admitted_of_run`: the quantities of all events are those that `UsageRecord` and the column
  admit.
* `persists_iff`: in every reachable state, an invoice can be inserted if and only if its total
  fits, and with it every amount.
* `never_persists`: a period that cannot be closed never can be.
-/

namespace BackendManager.Usage

open ReadCommitted Interleaving Metering Windows

variable {T : Type} [DecidableEq T] {t u : T} {s s' : Store T} {p p' : Proc} {a : Act}
  {org : Uuid} {plan : String} {start stop : ℕ} {c d : Config T (Store T) Proc}

/-! ### The columns -/

/-- The range of a `BIGINT`. -/
def Fits (n : ℤ) : Prop := -2 ^ 63 ≤ n ∧ n < 2 ^ 63

instance (n : ℤ) : Decidable (Fits n) := inferInstanceAs (Decidable (_ ∧ _))

/-- What the next statement puts into a `BIGINT` column. -/
def Proc.bigint : Proc → Option ℤ
  | .insertUsage call _ => some call.quantity
  | .insertInvoice _ _ invoice => some invoice.total_cents
  | _ => none

/-- One action, with the range of the columns. -/
def bigintExec (t : T) : Act → Store T → Proc → Option (Store T × Proc)
  | .stmt env, s, p =>
      -- The error of the driver is not caught: the session rolls back.
      if p.bigint.all fun n => decide (Fits n) then exec t (.stmt env) s p
      else some (s.rollback t, .raised)
  | a, s, p => exec t a s p

/-- Metering with the range of the columns. -/
def bigintProgram : Program T (Store T) Proc Act := ⟨bigintExec⟩

/-- `UsageRecord` has validated the request. -/
def Validated (_ : Config T (Store T) Proc) (_ : T) (a : Act) : Prop :=
  match a with
  | .record call => 0 ≤ call.quantity
  | _ => True

instance (c : Config T (Store T) Proc) (t : T) (a : Act) : Decidable (Validated c t a) :=
  decidable_of_bool
    (match a with
      | .record call => 0 ≤ call.quantity
      | _ => true)
    (by unfold Validated; split <;> simp)

/-- A statement that a column refuses is a request that fails. -/
theorem exec_of_bigintExec (h : bigintExec t a s p = some (s', p')) :
    exec t a s p = some (s', p') ∨ exec t .fail s p = some (s', p') := by
  cases a with
  | stmt env =>
      rw [bigintExec] at h
      split at h
      · exact .inl h
      · rename_i hrefused
        refine .inr ?_
        cases p <;> first | exact absurd rfl hrefused | exact h
  | _ => exact .inl h

/-- Every run is one of metering without the range of the columns. -/
theorem run_of_bigintRun {ok : Config T (Store T) Proc → T → Act → Prop}
    (h : bigintProgram.Run ok c d) : program.Run Any c d := by
  induction h with
  | refl => exact .refl _
  | step _ _ hs ih =>
      obtain ⟨s', p', hexec, rfl⟩ := Program.step_eq_some_iff.mp hs
      rcases exec_of_bigintExec hexec with h | h
      · exact ih.step trivial (Program.step_eq_some_iff.mpr ⟨s', p', h, rfl⟩)
      · exact ih.step (a := .fail) trivial (Program.step_eq_some_iff.mpr ⟨s', p', h, rfl⟩)

/-! ### Which totals fit -/

/-- The usage of `api_calls` that the plan has room for. -/
def Payable (plan : String) (calls : ℤ) : Prop :=
  (plan = "pro" → calls ≤ 2 ^ 63 - 1 - 4900 + 100000) ∧
    (plan = "enterprise" → calls ≤ 2 ^ 63 - 1 - 49900 + 1000000)

/-- Other plans have the card of the free one. -/
theorem resolveCard_free (hpro : plan ≠ "pro") (henterprise : plan ≠ "enterprise") :
    resolveCard DEFAULT_RATE_CARDS plan =
      some ⟨0, DEFAULT_CURRENCY, [("api_calls", ⟨1000, 0⟩)]⟩ := by
  rw [resolveCard, DEFAULT_RATE_CARDS, List.lookup_cons, List.lookup_cons, List.lookup_cons,
    beq_false_of_ne hpro, beq_false_of_ne henterprise]
  cases plan == "free" <;> rfl

/-- **Which usage has a total that fits.** -/
theorem fits_total_iff (plan : String) (usage : Metering.Usage) :
    Fits (total_cents (rate DEFAULT_RATE_CARDS plan usage)) ↔
      Payable plan (usage.used "api_calls") := by
  rw [Payable, Fits]
  by_cases hpro : plan = "pro"
  · subst hpro
    have hcard : resolveCard DEFAULT_RATE_CARDS "pro" =
        some ⟨4900, DEFAULT_CURRENCY,
          [("api_calls", ⟨100000, 1⟩), ("tokens", ⟨1000000, 0⟩)]⟩ := rfl
    rw [total_rate hcard]
    simp [RateCard.bill, overage]
    omega
  · by_cases henterprise : plan = "enterprise"
    · subst henterprise
      have hcard : resolveCard DEFAULT_RATE_CARDS "enterprise" =
          some ⟨49900, DEFAULT_CURRENCY,
            [("api_calls", ⟨1000000, 1⟩), ("tokens", ⟨10000000, 0⟩)]⟩ := rfl
      rw [total_rate hcard]
      simp [RateCard.bill, overage]
      omega
    · rw [total_rate (resolveCard_free hpro henterprise)]
      simp [RateCard.bill, hpro, henterprise]

/-- No line of the default cards is negative. -/
theorem amount_nonneg {usage : Metering.Usage} {line : RatedLine}
    (h : line ∈ rate DEFAULT_RATE_CARDS plan usage) : 0 ≤ line.amount_cents := by
  have hcards : ∀ item ∈ DEFAULT_RATE_CARDS, 0 ≤ item.2.base_cents ∧
      ∀ meter ∈ item.2.meters, 0 ≤ meter.2.overage_cents := by decide
  cases hresolve : resolveCard DEFAULT_RATE_CARDS plan with
  | none =>
      rw [rate_of_none hresolve] at h
      cases h
  | some card =>
      obtain ⟨name, hname⟩ := mem_of_resolve hresolve
      obtain ⟨hbase, hprice⟩ := hcards (name, card) hname
      rw [rate_of_card hresolve] at h
      rcases List.mem_append.mp h with hline | hline
      · rw [baseLine] at hline
        split at hline
        · obtain rfl := List.mem_singleton.mp hline
          exact hbase
        · cases hline
      · obtain ⟨item, hitem, hsome⟩ := List.mem_filterMap.mp hline
        obtain ⟨-, -, rfl⟩ := overageLine_eq_some.mp hsome
        exact Int.mul_nonneg (overage_nonneg _ _)
          (hprice item (card.sorted_perm.mem_iff.mp hitem))

/-- An invoice whose total fits has lines that fit. -/
theorem fits_amount {usage : Metering.Usage} {line : RatedLine}
    (hfits : Fits (total_cents (rate DEFAULT_RATE_CARDS plan usage)))
    (h : line ∈ rate DEFAULT_RATE_CARDS plan usage) : Fits line.amount_cents := by
  have hnonneg := amount_nonneg h
  have hle : line.amount_cents ≤ total_cents (rate DEFAULT_RATE_CARDS plan usage) :=
    List.single_le_sum (fun x hx => by
      obtain ⟨line', hline', rfl⟩ := List.mem_map.mp hx
      exact amount_nonneg hline') _ (List.mem_map_of_mem h)
  rw [Fits] at hfits ⊢
  omega

/-! ### The usage of a window -/

/-- What a row adds to the usage of a meter. -/
def quantityOf (meter : String) : Option UsageEvent → ℤ
  | some e => if e.meter = meter then e.quantity else 0
  | none => 0

/-- The sum of the `api_calls` of the events in a window. -/
def callsOf (s : Store T) (t : T) (org : Uuid) (start stop : ℕ) : ℤ :=
  ∑ k ∈ s.eventsOf t org start stop, quantityOf "api_calls" (s.usage.view t k)

theorem used_totals (rows : Uuid × String → Option UsageEvent)
    (events : Finset (Uuid × String)) (meter : String) :
    (totals rows events).used meter = ∑ k ∈ events, quantityOf meter (rows k) := by
  have hsum : ∑ k ∈ events.filter fun k => (rows k).any fun e => e.meter = meter,
      ((rows k).map UsageEvent.quantity).getD 0 = ∑ k ∈ events, quantityOf meter (rows k) := by
    rw [Finset.sum_filter]
    refine Finset.sum_congr rfl fun k _ => ?_
    cases rows k with
    | none => rfl
    | some e => simp [quantityOf]
  rw [← hsum, Usage.used, totals]
  split
  · rename_i hempty
    rw [hempty]
    rfl
  · rfl

/-- The total of a rated window fits if and only if the plan has room for its calls. -/
theorem fits_rated_iff : Fits (rated s t org plan start stop).total_cents ↔
    Payable plan (callsOf s t org start stop) := by
  have hused : (usage_for_period s t org start stop).used "api_calls" =
      callsOf s t org start stop := used_totals _ _ _
  rw [← hused]
  exact fits_total_iff plan _

/-! ### What is admitted -/

/-- The quantities that `UsageRecord` and the column admit. -/
def Admitted (e : UsageEvent) : Prop := 0 ≤ e.quantity ∧ e.quantity ≤ 2 ^ 63 - 1

/-- The quantity of a call is not negative. -/
def Proc.Counted : Proc → Prop
  | .insertUsage call _ => 0 ≤ call.quantity
  | _ => True

/-- A statement inserts admitted events. -/
theorem admitted_of_bigintExec (hok : Validated c t a)
    (hI : c.shared.usage.Every fun _ e => Admitted e) (hL : (c.proc t).Counted)
    (h : bigintExec t a c.shared (c.proc t) = some (s', p')) :
    (s'.usage.Every fun _ e => Admitted e) ∧ p'.Counted := by
  generalize c.proc t = p at hL h
  have hfits : ∀ env call x, a = .stmt env → p = .insertUsage call x →
      exec t a c.shared p = some (s', p') → p' ≠ .raised → call.quantity < 2 ^ 63 := by
    rintro env call x rfl rfl - hrunning
    by_contra hbig
    have hrefused : decide (Fits call.quantity) = false :=
      decide_eq_false fun hfits => hbig hfits.2
    rw [bigintExec, Proc.bigint, Option.all_some, hrefused] at h
    exact hrunning (Prod.mk.inj (Option.some.inj h)).2.symm
  rcases exec_of_bigintExec h with hexec | hexec
  · cases step_of_exec hexec with
    | tick => exact ⟨hI, hL⟩
    | record => exact ⟨hI, hok⟩
    | close | periodStart | readClock | readUsage => exact ⟨hI, trivial⟩
    | fail | usageViolation | invoiceViolation => exact ⟨hI.rollback t, trivial⟩
    | duplicate hnext => exact ⟨hI.rollback t, by rcases hnext with rfl | rfl <;> trivial⟩
    | existing hnext => exact ⟨hI.rollback t, by rcases hnext with rfl | rfl <;> trivial⟩
    | usageCommit | invoiceCommit => exact ⟨hI.commit t, trivial⟩
    | insertInvoice => exact ⟨hI, trivial⟩
    | insertUsage _ hput =>
        have hlt := hfits _ _ _ rfl rfl hexec (by simp)
        refine ⟨hI.put hput fun e he => ?_, trivial⟩
        obtain rfl := Option.some.inj he
        exact ⟨hL, Int.le_sub_one_of_lt hlt⟩
  · cases step_of_exec hexec with
    | fail => exact ⟨hI.rollback t, trivial⟩

/-- **Every event is admitted**, in every run of validated requests. -/
theorem admitted_of_run (h : bigintProgram.Run Validated c d)
    (hI : c.shared.usage.Every fun _ e => Admitted e) (hL : ∀ u, (c.proc u).Counted) :
    (d.shared.usage.Every fun _ e => Admitted e) ∧ ∀ u, (d.proc u).Counted := by
  have O : bigintProgram.Outline (Validated (T := T))
      (fun s => s.usage.Every fun _ e => Admitted e) (fun _ _ p => p.Counted) :=
    { step := fun hok hI hL h => admitted_of_bigintExec hok hI (hL _) h
      frame := fun _ _ _ hL _ => hL _ }
  exact O.run h hI hL

/-- In every reachable state the quantities of all events are admitted. -/
theorem admitted_of_init (h : bigintProgram.Run Validated init c) :
    c.shared.usage.Every fun _ e => Admitted e :=
  (admitted_of_run h Table.every_empty fun _ => trivial).1

/-- A close that is about to read has written nothing. -/
theorem clean_of_init (h : bigintProgram.Run Validated init c)
    (hproc : c.proc t = .readUsage org plan start stop) : Clean t c.shared := by
  have hF := footprint_of_run footprint_init (run_of_bigintRun h) t
  rw [hproc] at hF
  exact hF

/-! ### Closing a period -/

/-- Only `t` acts, and its rows violate no constraint but the unique keys. -/
def Alone (t : T) (_ : Config T (Store T) Proc) (u : T) (a : Act) : Prop :=
  u = t ∧ ∃ now, a = .stmt ⟨now, false⟩

/-- `invoice_period` inserts its invoice, when it is left alone. -/
def Persists (t : T) (c : Config T (Store T) Proc) (org : Uuid) (plan : String)
    (start stop : ℕ) : Prop :=
  ∃ d, bigintProgram.Run (Alone t) c d ∧ d.proc t = .closed org start ∧
    d.shared.invoices.committed (org, start) = some (rated c.shared t org plan start stop)

/-- One more statement of a request that is left alone. -/
theorem exists_alone {e : Config T (Store T) Proc} (now : ℕ)
    (hrun : bigintProgram.Run (Alone t) e c) (hproc : c.proc t = p)
    (h : bigintExec t (.stmt ⟨now, false⟩) c.shared p = some (s', p')) :
    ∃ d, bigintProgram.Run (Alone t) e d ∧ d.shared = s' ∧ d.proc t = p' := by
  subst hproc
  exact ⟨_, hrun.step ⟨rfl, now, rfl⟩ (Program.step_eq_some_iff.mpr ⟨s', p', h, rfl⟩), rfl,
    Function.update_self _ _ _⟩

/-- A total that fits is inserted. -/
theorem persists_of_fits (hproc : c.proc t = .readUsage org plan start stop)
    (hview : c.shared.invoices.view t (org, start) = none)
    (hfree : c.shared.invoices.free t (org, start) = true)
    (hfits : Fits (rated c.shared t org plan start stop).total_cents) :
    Persists t c org plan start stop := by
  obtain ⟨invoices, hput⟩ : ∃ invoices, c.shared.invoices.put t (org, start)
      (some (rated c.shared t org plan start stop)) = some invoices := by
    refine Option.ne_none_iff_exists'.mp fun hlocked => ?_
    rw [Table.put_eq_none_iff, hfree] at hlocked
    cases hlocked
  have hinsert : c.shared.invoices.insert t (org, start) (rated c.shared t org plan start stop) =
      some (.ok invoices) := Table.insert_eq_ok_iff.mpr ⟨hview, hput⟩
  -- `SELECT`, `INSERT` and `COMMIT`, one after the other
  obtain ⟨d₁, hrun₁, hshared₁, hproc₁⟩ := exists_alone stop (.refl c) hproc rfl
  have hinserted : bigintExec t (.stmt ⟨stop, false⟩) d₁.shared
      (.insertInvoice org start (rated c.shared t org plan start stop)) =
        some ({ c.shared with invoices },
          .invoiceCommit org start (rated c.shared t org plan start stop)) := by
    rw [hshared₁, bigintExec, Proc.bigint, Option.all_some, decide_eq_true hfits, if_pos rfl,
      exec, stmt, insertInvoice, hinsert]
    rfl
  obtain ⟨d₂, hrun₂, hshared₂, hproc₂⟩ := exists_alone stop hrun₁ hproc₁ hinserted
  obtain ⟨d₃, hrun₃, hshared₃, hproc₃⟩ := exists_alone stop hrun₂ hproc₂ rfl
  refine ⟨d₃, hrun₃, hproc₃, ?_⟩
  rw [hshared₃, hshared₂]
  exact (Table.committed_commit _ _ _).trans
    (Table.view_of_written (Table.written_put_self hput))

/-- The request has not inserted its invoice: it is before the INSERT, or it has raised. -/
def NotInserted (t : T) (c : Config T (Store T) Proc) (org : Uuid) (plan : String)
    (start stop : ℕ) (d : Config T (Store T) Proc) : Prop :=
  (d.shared = c.shared ∧ (d.proc t = .readUsage org plan start stop ∨
    d.proc t = .insertInvoice org start (rated c.shared t org plan start stop))) ∨
    d.proc t = .raised

/-- The INSERT of a total that does not fit raises. -/
theorem notInserted_step {e : Config T (Store T) Proc}
    (hfits : ¬ Fits (rated c.shared t org plan start stop).total_cents)
    (hd : NotInserted t c org plan start stop d) (hok : Alone t d u a)
    (hs : bigintProgram.step d u a = some e) : NotInserted t c org plan start stop e := by
  obtain ⟨rfl, now, rfl⟩ := hok
  obtain ⟨s', p', hexec, rfl⟩ := Program.step_eq_some_iff.mp hs
  simp only [NotInserted, Function.update_self]
  rcases hd with ⟨hshared, hread | hinsert⟩ | hraised
  · rw [hread] at hexec
    obtain ⟨rfl, rfl⟩ := Prod.mk.inj (Option.some.inj hexec)
    exact .inl ⟨hshared, .inr (by rw [hshared])⟩
  · have hrefused : bigintExec u (.stmt ⟨now, false⟩) d.shared (d.proc u) =
        some (d.shared.rollback u, .raised) := by
      rw [hinsert, bigintExec, Proc.bigint, Option.all_some, decide_eq_false hfits]
      rfl
    exact .inr (Prod.mk.inj (Option.some.inj (hexec.symm.trans hrefused))).2
  · rw [hraised] at hexec
    cases hexec

/-- A total that does not fit is not: the request raises. -/
theorem not_persists_of_not_fits (hproc : c.proc t = .readUsage org plan start stop)
    (hfits : ¬ Fits (rated c.shared t org plan start stop).total_cents) :
    ¬ Persists t c org plan start stop := by
  rintro ⟨d, hrun, hclosed, -⟩
  have hstand : NotInserted t c org plan start stop d :=
    hrun.invariant (fun _ _ _ _ => notInserted_step hfits) (.inl ⟨rfl, .inl hproc⟩)
  rcases hstand with ⟨-, h | h⟩ | h <;> · rw [hclosed] at h; cases h

/-- **When an invoice can be persisted.** In every state that is reached with admitted usage,
and for every plan, the invoice of a window that has none yet is inserted, with amounts that
fit, if and only if the plan has room for the sum of the `api_calls` in the window. -/
theorem persists_iff (h : bigintProgram.Run Validated init c)
    (hproc : c.proc t = .readUsage org plan start stop)
    (hnew : c.shared.invoices.committed (org, start) = none)
    (hfree : c.shared.invoices.free t (org, start) = true) :
    (Persists t c org plan start stop ∧
      ∀ line ∈ (rated c.shared t org plan start stop).lines, Fits line.amount_cents) ↔
      Payable plan (callsOf c.shared t org start stop) := by
  rw [← fits_rated_iff]
  constructor
  · rintro ⟨hpersists, -⟩
    by_contra hfits
    exact not_persists_of_not_fits hproc hfits hpersists
  · intro hfits
    have hview : c.shared.invoices.view t (org, start) = none :=
      ((clean_of_init h hproc).invoices.view _).trans hnew
    exact ⟨persists_of_fits hproc hview hfree hfits, fun line hline => fits_amount hfits hline⟩

/-- A pro organisation with 150000 calls in its first period. -/
theorem persists_iff_pro :
    ∃ c : Config (Fin 2) (Store (Fin 2)) Proc, bigintProgram.Run Validated init c ∧
      c.proc 1 = .readUsage someOrg "pro" 0 2 ∧ c.shared.invoices.committed (someOrg, 0) = none ∧
        c.shared.invoices.free 1 (someOrg, 0) = true ∧
        callsOf c.shared 1 someOrg 0 2 = 150000 ∧ Persists 1 c someOrg "pro" 0 2 := by
  obtain ⟨c, hc, hproc, hnew, hfree, hcalls⟩ :
      ∃ c ∈ bigintProgram.replay Validated (init : Config (Fin 2) (Store (Fin 2)) Proc)
        [(0, .record ⟨someOrg, "api_calls", 150000, "k"⟩), (0, at_ 0),
          (0, at_ 0), (0, .tick), (1, .close someOrg "pro"), (1, at_ 1),
          (1, at_ 2)],
        c.proc 1 = .readUsage someOrg "pro" 0 2 ∧ c.shared.invoices.committed (someOrg, 0) = none ∧
          c.shared.invoices.free 1 (someOrg, 0) = true ∧
          callsOf c.shared 1 someOrg 0 2 = 150000 := by
    decide
  have hpayable : Payable "pro" (callsOf c.shared 1 someOrg 0 2) := by
    rw [hcalls]
    exact ⟨fun _ => by decide, fun h => absurd h (by decide)⟩
  have hrun := Program.run_of_replay hc
  exact ⟨c, hrun, hproc, hnew, hfree, hcalls,
    ((persists_iff hrun hproc hnew hfree).mpr hpayable).1⟩

/-! ### A period that cannot be closed -/

/-- What an admitted row adds is not negative. -/
theorem quantityOf_nonneg (h : c.shared.usage.Every fun _ e => Admitted e) (t : T) (meter : String)
    (k : Uuid × String) : 0 ≤ quantityOf meter (c.shared.usage.view t k) := by
  cases hview : c.shared.usage.view t k with
  | none => exact le_rfl
  | some e =>
      rw [quantityOf]
      split
      · exact (h.view hview).1
      · exact le_rfl

/-- The usage of a window only grows. -/
theorem callsOf_mono {start stop stop' : ℕ} (hgrows : Grows c.shared d.shared)
    (hclean : Clean u c.shared) (hclean' : Clean t d.shared)
    (hI : d.shared.usage.Every fun _ e => Admitted e) (hstop : stop ≤ stop') :
    callsOf c.shared u org start stop ≤ callsOf d.shared t org start stop' := by
  have hrows : ∀ k ∈ c.shared.eventsOf u org start stop,
      k ∈ d.shared.eventsOf t org start stop' ∧
        c.shared.usage.view u k = d.shared.usage.view t k := by
    intro k hk
    obtain ⟨horg, e, he, hwithin⟩ := (mem_eventsOf hclean).mp hk
    have he' := hgrows.usage k e he
    refine ⟨(mem_eventsOf hclean').mpr ⟨horg, e, he', hwithin.1, hwithin.2.trans_le hstop⟩, ?_⟩
    rw [hclean.usage.view, hclean'.usage.view, he, he']
  calc callsOf c.shared u org start stop
      = ∑ k ∈ c.shared.eventsOf u org start stop,
          quantityOf "api_calls" (d.shared.usage.view t k) :=
        Finset.sum_congr rfl fun k hk => by rw [(hrows k hk).2]
    _ ≤ callsOf d.shared t org start stop' :=
        Finset.sum_le_sum_of_subset_of_nonneg (fun k hk => (hrows k hk).1)
          fun k _ _ => quantityOf_nonneg hI t _ k

/-- Room is not gained by more calls. -/
theorem Payable.mono {calls calls' : ℤ} (h : Payable plan calls') (hle : calls ≤ calls') :
    Payable plan calls := ⟨fun hp => hle.trans (h.1 hp), fun hp => hle.trans (h.2 hp)⟩

/-- **A period that cannot be closed never can be**: if the plan has no room for its calls, a
later close on that plan that reads at least this window does not insert an invoice either. -/
theorem never_persists {stop' : ℕ} (h : bigintProgram.Run Validated init c)
    (hproc : c.proc u = .readUsage org plan start stop)
    (hfull : ¬ Payable plan (callsOf c.shared u org start stop))
    (h' : bigintProgram.Run Validated c d) (hproc' : d.proc t = .readUsage org plan start stop')
    (hstop : stop ≤ stop') : ¬ Persists t d org plan start stop' := by
  have hreached : bigintProgram.Run Validated init d := h.trans h'
  have hgrows : Grows c.shared d.shared :=
    grows_of_run (footprint_of_run footprint_init (run_of_bigintRun h)) (run_of_bigintRun h')
  have hle : callsOf c.shared u org start stop ≤ callsOf d.shared t org start stop' :=
    callsOf_mono hgrows (clean_of_init h hproc) (clean_of_init hreached hproc')
      (admitted_of_init hreached) hstop
  exact not_persists_of_not_fits hproc' fun hfits =>
    hfull ((fits_rated_iff.mp hfits).mono hle)

/-- Two events of the largest quantity: the invoice of their period cannot be inserted. -/
theorem admitted_usage_not_invoiced :
    ∃ c : Config (Fin 3) (Store (Fin 3)) Proc, bigintProgram.Run Validated init c ∧
      (c.shared.usage.Every fun _ e => Admitted e) ∧
      c.proc 2 = .readUsage someOrg "pro" 0 2 ∧ c.shared.invoices.committed (someOrg, 0) = none ∧
      c.shared.invoices.free 2 (someOrg, 0) = true ∧ ¬ Persists 2 c someOrg "pro" 0 2 := by
  obtain ⟨c, hc, hproc, hnew, hfree, hbig⟩ :
      ∃ c ∈ bigintProgram.replay Validated (init : Config (Fin 3) (Store (Fin 3)) Proc)
        [(0, .record ⟨someOrg, "api_calls", 2 ^ 63 - 1, "k"⟩), (0, at_ 0),
          (0, at_ 0), (1, .record ⟨someOrg, "api_calls", 2 ^ 63 - 1, "l"⟩),
          (1, at_ 0), (1, at_ 0), (0, .tick), (2, .close someOrg "pro"),
          (2, at_ 1), (2, at_ 2)],
        c.proc 2 = .readUsage someOrg "pro" 0 2 ∧ c.shared.invoices.committed (someOrg, 0) = none ∧
          c.shared.invoices.free 2 (someOrg, 0) = true ∧
          ¬ Fits (rated c.shared 2 someOrg "pro" 0 2).total_cents := by
    decide
  have hrun := Program.run_of_replay hc
  exact ⟨c, hrun, admitted_of_init hrun, hproc, hnew, hfree,
    not_persists_of_not_fits hproc hbig⟩

end BackendManager.Usage
