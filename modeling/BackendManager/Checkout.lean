import BackendManager.Billing
import BackendManager.Interleaving
import BackendManager.ReadCommitted

/-!
# Checkout and Portal Sessions of One Customer

The model of `create_checkout_session` and `create_portal_session` in `app/billing/router.py`
with the two payments adapters behind them. The provider customer of an organisation is
created lazily: a request reads `payments_customer_id`, asks the provider for a customer if
it is `NULL`, opens the provider session for that customer, and commits.

## Statement convention

* Reading the row, `_ensure_customer`, opening the provider session, the `UPDATE` of the
  flush and `COMMIT` are separate steps, and requests interleave under READ COMMITTED.
* The flush writes `payments_customer_id` if the request has set it. The `UPDATE` waits for
  the row lock and does not look at the value it overwrites.
* A request hands out a URL when it has committed. The customer id that the provider draws
  is chosen by the environment; that the column is unique is left out, which allows strictly
  more interleavings.

## Main results

* `handed_out_for_stored`: as long as an id is only ever written over `NULL`, each session
  handed out is one of the stored customer, and a webhook event of that customer finds the
  organisation.
* `handed_out_for_lost`: two requests that both read `NULL`, after which the session of the
  first one belongs to a customer that is stored nowhere.
-/

namespace BackendManager.Billing.Checkout

open ReadCommitted Interleaving

/-- The table `organizations`, keyed by `id`. -/
abbrev Organizations (T : Type) := Table T Uuid Organization

/-- `settings.payments_provider`. -/
inductive Adapter
  | stripe
  | razorpay
deriving DecidableEq

/-- `PaymentsPort.name`. -/
def Adapter.name : Adapter → String
  | .stripe => "stripe"
  | .razorpay => "razorpay"

/-- What the routes take from the settings. -/
structure Settings where
  adapter : Adapter
  payments_default_plan : String
  stripe_plan_to_price : List (String × String)
  razorpay_plan_to_plan_id : List (String × String)
  razorpay_portal_url : String
  /-- `repr` of a plan, in the text of an error. -/
  repr : String → String

/-- A session at the provider. -/
structure Session where
  customer : String
  url : String
deriving DecidableEq

/-- What a request asks for. -/
inductive Kind
  | checkout (plan : Option String)
  | portal
deriving DecidableEq

/-- What a request answers. -/
inductive Response
  | checkoutSession (url provider : String)
  | portalSession (url : String)
  | error (e : HTTPException)
deriving DecidableEq

/-- Where a request stands: the step it executes next, with what its Python frame holds. -/
inductive Proc
  /-- Not started. -/
  | idle
  /-- The `SELECT` of `_get_org` is next. -/
  | get_org (org : Uuid) (kind : Kind)
  /-- The adapter is called with the row. -/
  | adapter (account : Organization) (kind : Kind)
  /-- The customer is known, and newly created if `created`: the provider session is next. -/
  | openSession (org : Uuid) (kind : Kind) (customer : String) (created : Bool)
  /-- The session is open; the `UPDATE` of the new customer is next. -/
  | flush (org : Uuid) (kind : Kind) (session : Session)
  /-- `COMMIT` is next. -/
  | commit (org : Uuid) (session : Option Session) (response : Response)
  /-- The request has answered; `session` is what it hands out. -/
  | returned (org : Uuid) (session : Option Session) (response : Response)
  /-- The request ended with an exception and its transaction was rolled back. -/
  | raised
deriving DecidableEq

/-- What the environment decides for one step. -/
structure Env where
  /-- The id of the customer that the provider creates. -/
  customer : String
  /-- The URL of the session that the provider opens. -/
  url : String
deriving DecidableEq

/-- One scheduled action of a request. -/
inductive Act
  | request (org : Uuid) (kind : Kind)
  /-- The next step. -/
  | stmt (env : Env)
  /-- The request fails, at the provider or at the database, and is rolled back. -/
  | fail
deriving DecidableEq

/-! ### Adapters -/

/-- `_plan_to_price` and `_plan_to_plan_id`: the id configured for the plan, or the text of
a `PaymentError`. -/
def plan_to_id (S : Settings) (plan : String) : Except String String :=
  let table := match S.adapter with
    | .stripe => S.stripe_plan_to_price
    | .razorpay => S.razorpay_plan_to_plan_id
  let detail := match S.adapter with
    | .stripe => "No Stripe price configured for plan " ++ S.repr plan
    | .razorpay => "No Razorpay plan configured for plan " ++ S.repr plan
  match table.lookup plan with
  | some id => if id = "" then .error detail else .ok id
  | none => .error detail

/-- `_ensure_customer`. -/
def ensure_customer (env : Env) (account : Organization) (kind : Kind) : Proc :=
  match account.payments_customer_id with
  | some existing => .openSession account.id kind existing false
  | none => .openSession account.id kind env.customer true

/-- `start_checkout` and `open_customer_portal`, up to the provider session. -/
def call (S : Settings) (env : Env) (account : Organization) : Kind → Proc
  | .checkout plan =>
      match plan_to_id S (orElse plan S.payments_default_plan) with
      | .ok _ => ensure_customer env account (.checkout plan)
      | .error detail => .returned account.id none (.error ⟨400, detail⟩)
  | .portal =>
      match S.adapter with
      | .stripe => ensure_customer env account .portal
      | .razorpay => .commit account.id none (.portalSession S.razorpay_portal_url)

/-- The body of a successful answer. -/
def respond (S : Settings) (url : String) : Kind → Response
  | .checkout _ => .checkoutSession url S.adapter.name
  | .portal => .portalSession url

/-! ### Requests -/

variable {T : Type} [DecidableEq T]

/-- The `UPDATE` of `payments_customer_id`, on the version that is found once the row lock
is held. No row is an error. -/
def update (S : Settings) (t : T) (orgs : Organizations T) (org : Uuid) (kind : Kind)
    (session : Session) : Option (Organizations T × Proc) :=
  match orgs.view t org with
  | some row =>
      (orgs.put t org (some { row with payments_customer_id := some session.customer })).map
        fun orgs' => (orgs', .commit org (some session) (respond S session.url kind))
  | none => some (orgs.rollback t, .raised)

/-- The next step of a request. -/
def stmt (S : Settings) (t : T) (env : Env) (orgs : Organizations T) :
    Proc → Option (Organizations T × Proc)
  | .get_org org kind =>
      match orgs.view t org with
      | some account => some (orgs, .adapter { account with id := org } kind)
      | none => some (orgs, .returned org none (.error ⟨404, "Organization not found"⟩))
  | .adapter account kind => some (orgs, call S env account kind)
  | .openSession org kind customer created =>
      let session := ⟨customer, env.url⟩
      if created then some (orgs, .flush org kind session)
      else some (orgs, .commit org (some session) (respond S session.url kind))
  | .flush org kind session => update S t orgs org kind session
  | .commit org session response => some (orgs.commit t, .returned org session response)
  | .idle | .returned _ _ _ | .raised => none

/-- The request has ended. -/
def Proc.ended : Proc → Bool
  | .returned _ _ _ | .raised => true
  | _ => false

/-- One action of one request. -/
def exec (S : Settings) (t : T) : Act → Organizations T → Proc → Option (Organizations T × Proc)
  | .request org kind, orgs, .idle => some (orgs, .get_org org kind)
  | .stmt env, orgs, p => stmt S t env orgs p
  | .fail, orgs, p => if p.ended then none else some (orgs.rollback t, .raised)
  | _, _, _ => none

/-- The two routes as an interleaved program. -/
def program (S : Settings) : Program T (Organizations T) Proc Act := ⟨exec S⟩

/-- A start: any organisations, nobody holds a row, and no request has started. -/
structure Start (c : Config T (Organizations T) Proc) : Prop where
  untouched : ∀ t, c.shared.Untouched t
  idle : ∀ t, c.proc t = .idle

/-- All schedules. -/
abbrev Any : Config T (Organizations T) Proc → T → Act → Prop := fun _ _ _ => True

/-- A new customer is only written while the column is still `NULL`: the condition on the
state before each step. -/
def StillNull (c : Config T (Organizations T) Proc) (t : T) (a : Act) : Prop :=
  match a, c.proc t with
  | .stmt _, .flush org _ _ =>
      (c.shared.view t org).all fun row => row.payments_customer_id = none
  | _, _ => True

instance (c : Config T (Organizations T) Proc) (t : T) (a : Act) : Decidable (StillNull c t a) := by
  unfold StillNull
  split <;> infer_instance

/-- The customer is stored for the organisation. -/
def Stored (orgs : Organizations T) (org : Uuid) (customer : String) : Prop :=
  ∃ row, orgs.committed org = some row ∧ row.payments_customer_id = some customer

section Proofs

variable {S : Settings} {t u : T} {orgs orgs' : Organizations T} {env : Env}
  {c d : Config T (Organizations T) Proc} {a : Act} {p p' : Proc} {org i : Uuid}
  {kind : Kind} {session : Session} {customer : String}

/-! ### Assertions -/

/-- `t` has written the customer over `NULL`, and nothing else. -/
def Writes (t : T) (orgs : Organizations T) (org : Uuid) (customer : String) : Prop :=
  ∃ row row', orgs.committed org = some row ∧ row.payments_customer_id = none ∧
    orgs.Sole t org (some row') ∧ row'.payments_customer_id = some customer

/-- The assertion of a request: the customer of its session is stored, or will be stored by
its commit. -/
def Loc (t : T) (orgs : Organizations T) : Proc → Prop
  | .adapter account _ => orgs.Untouched t ∧
      ∀ customer, account.payments_customer_id = some customer → Stored orgs account.id customer
  | .openSession org _ customer false => orgs.Untouched t ∧ Stored orgs org customer
  | .commit org (some session) _ => Writes t orgs org session.customer ∨
      orgs.Untouched t ∧ Stored orgs org session.customer
  | .returned org (some session) _ => orgs.Untouched t ∧ Stored orgs org session.customer
  | _ => orgs.Untouched t

/-- A row that a request has written replaces `NULL`. -/
theorem Loc.written (hL : Loc t orgs p) {w : Option Organization}
    (hw : orgs.written t i = some w) : ∃ customer, Writes t orgs i customer := by
  have hclean : ¬ orgs.Untouched t := fun hun => hun.not_written hw
  cases p with
  | commit org session response =>
      cases session with
      | none => exact absurd hL hclean
      | some session =>
          rcases hL with hwrites | ⟨hun, -⟩
          · obtain ⟨row, row', hrow, hnull, hsole, hcustomer⟩ := id hwrites
            obtain ⟨rfl, -⟩ := hsole.eq_of_written hw
            exact ⟨session.customer, hwrites⟩
          · exact absurd hun hclean
  | openSession org kind customer created =>
      cases created with
      | true => exact absurd hL hclean
      | false => exact absurd hL.1 hclean
  | returned org session response =>
      cases session with
      | none => exact absurd hL hclean
      | some session => exact absurd hL.1 hclean
  | adapter account kind => exact absurd hL.1 hclean
  | idle | get_org _ _ | flush _ _ _ | raised => exact absurd hL hclean

/-- A commit keeps the stored customers: it writes over `NULL` alone. -/
theorem Stored.commit (h : Stored orgs org customer) (hL : Loc t orgs p) :
    Stored (orgs.commit t) org customer := by
  obtain ⟨row, hrow, hcustomer⟩ := h
  cases hw : orgs.written t org with
  | none => exact ⟨row, by rw [Table.committed_commit_of_written_eq_none hw, hrow], hcustomer⟩
  | some w =>
      obtain ⟨customer', row', -, hrow', hnull, -⟩ := hL.written hw
      obtain rfl : row = row' := Option.some.inj (hrow.symm.trans hrow')
      rw [hcustomer] at hnull
      cases hnull

/-- The commit of a new customer stores it. -/
theorem Writes.commit (h : Writes t orgs org customer) : Stored (orgs.commit t) org customer := by
  obtain ⟨row, row', -, -, hsole, hcustomer⟩ := h
  exact ⟨row', by rw [Table.committed_commit, hsole.view], hcustomer⟩

/-! ### One action -/

/-- What one action can do, branch by branch. -/
inductive Step (S : Settings) (t : T) (orgs : Organizations T) :
    Act → Proc → Organizations T → Proc → Prop
  | request {org : Uuid} {kind : Kind} :
      Step S t orgs (.request org kind) .idle orgs (.get_org org kind)
  /-- A failure, or an `UPDATE` that finds no row. -/
  | rollback {a : Act} {p : Proc} : Step S t orgs a p (orgs.rollback t) .raised
  | get_org {env : Env} {org : Uuid} {kind : Kind} {account : Organization}
      (found : orgs.view t org = some account) :
      Step S t orgs (.stmt env) (.get_org org kind) orgs (.adapter { account with id := org } kind)
  | unknown {env : Env} {org : Uuid} {kind : Kind} :
      Step S t orgs (.stmt env) (.get_org org kind) orgs
        (.returned org none (.error ⟨404, "Organization not found"⟩))
  | adapter {env : Env} {account : Organization} {kind : Kind} :
      Step S t orgs (.stmt env) (.adapter account kind) orgs (call S env account kind)
  | created {env : Env} {org : Uuid} {kind : Kind} {customer : String} :
      Step S t orgs (.stmt env) (.openSession org kind customer true) orgs
        (.flush org kind ⟨customer, env.url⟩)
  | existing {env : Env} {org : Uuid} {kind : Kind} {customer : String} :
      Step S t orgs (.stmt env) (.openSession org kind customer false) orgs
        (.commit org (some ⟨customer, env.url⟩) (respond S env.url kind))
  | flush {env : Env} {org : Uuid} {kind : Kind} {session : Session} {row : Organization}
      {orgs' : Organizations T} (found : orgs.view t org = some row)
      (put : orgs.put t org (some { row with payments_customer_id := some session.customer }) =
        some orgs') :
      Step S t orgs (.stmt env) (.flush org kind session) orgs'
        (.commit org (some session) (respond S session.url kind))
  | commit {env : Env} {org : Uuid} {session : Option Session} {response : Response} :
      Step S t orgs (.stmt env) (.commit org session response) (orgs.commit t)
        (.returned org session response)

/-- An `UPDATE` writes the row that it finds, or ends the request. -/
theorem step_of_update (h : update S t orgs org kind session = some (orgs', p')) :
    Step S t orgs (.stmt env) (.flush org kind session) orgs' p' := by
  rw [update] at h
  split at h
  · rename_i row hrow
    obtain ⟨orgs₁, hput, h⟩ := Option.map_eq_some_iff.mp h
    obtain ⟨rfl, rfl⟩ := Prod.mk.inj h
    exact .flush hrow hput
  · obtain ⟨rfl, rfl⟩ := Prod.mk.inj (Option.some.inj h)
    exact .rollback

/-- **Every statement is a step**: the statements of the source, one by one, against the
constructors of `Step`. -/
theorem step_of_stmt (h : stmt S t env orgs p = some (orgs', p')) :
    Step S t orgs (.stmt env) p orgs' p' := by
  cases p with
  | idle | returned _ _ _ | raised => cases h
  | get_org org kind =>
      simp only [stmt] at h
      split at h
      · rename_i account haccount
        obtain ⟨rfl, rfl⟩ := Prod.mk.inj (Option.some.inj h)
        exact .get_org haccount
      · obtain ⟨rfl, rfl⟩ := Prod.mk.inj (Option.some.inj h)
        exact .unknown
  | adapter account kind =>
      obtain ⟨rfl, rfl⟩ := Prod.mk.inj (Option.some.inj h)
      exact .adapter
  | openSession org kind customer created =>
      cases created with
      | true =>
          obtain ⟨rfl, rfl⟩ := Prod.mk.inj (Option.some.inj h)
          exact .created
      | false =>
          obtain ⟨rfl, rfl⟩ := Prod.mk.inj (Option.some.inj h)
          exact .existing
  | flush org kind session => exact step_of_update h
  | commit org session response =>
      obtain ⟨rfl, rfl⟩ := Prod.mk.inj (Option.some.inj h)
      exact .commit

/-- **Every action is one of these steps.** -/
theorem step_of_exec (h : exec S t a orgs p = some (orgs', p')) : Step S t orgs a p orgs' p' := by
  cases a with
  | request org kind =>
      cases p <;> simp only [exec, reduceCtorEq] at h
      obtain ⟨rfl, rfl⟩ := Prod.mk.inj (Option.some.inj h)
      exact .request
  | stmt env => exact step_of_stmt h
  | fail =>
      simp only [exec] at h
      split at h
      · cases h
      · obtain ⟨rfl, rfl⟩ := Prod.mk.inj (Option.some.inj h)
        exact .rollback

/-- An action keeps the committed rows and the writes of the other requests, or it is a
commit. -/
theorem exec_cases (h : exec S t a orgs p = some (orgs', p')) :
    Table.Private t orgs orgs' ∨ orgs' = orgs.commit t := by
  cases step_of_exec h with
  | request | get_org | unknown | adapter | created | existing => exact .inl (.refl t orgs)
  | rollback => exact .inl (.of_rollback t orgs)
  | flush _ hput => exact .inl (.of_put hput)
  | commit => exact .inr rfl

/-- What is stored stays stored. -/
theorem Stored.of_exec (hs : Stored orgs org customer) (hL : Loc t orgs p)
    (h : exec S t a orgs p = some (orgs', p')) : Stored orgs' org customer := by
  rcases exec_cases h with hpriv | rfl
  · rw [Stored, hpriv.committed]
    exact hs
  · exact hs.commit hL

/-- **Interference freedom.** -/
theorem Loc.of_other (hL : Loc u orgs p) {q : Proc} (hq : Loc t orgs q)
    (h : exec S t a orgs q = some (orgs', p')) (hu : u ≠ t) : Loc u orgs' p := by
  have hstored : ∀ {org customer}, Stored orgs org customer → Stored orgs' org customer :=
    fun hs => hs.of_exec hq h
  have hwritten : orgs'.written u = orgs.written u := by
    rcases exec_cases h with hpriv | rfl
    · exact hpriv.written u hu
    · exact Table.written_commit_ne orgs hu
  have huntouched : orgs.Untouched u → orgs'.Untouched u := fun hun => hun.congr hwritten
  have hwrites : ∀ {org customer}, Writes u orgs org customer → Writes u orgs' org customer := by
    rintro org customer ⟨row, row', hrow, hnull, hsole, hcustomer⟩
    refine ⟨row, row', ?_, hnull, hsole.congr hwritten, hcustomer⟩
    rcases exec_cases h with hpriv | rfl
    · rw [hpriv.committed, hrow]
    · rw [Table.committed_commit_of_written hsole.1 hu, hrow]
  cases p with
  | commit org session response =>
      cases session with
      | none => exact huntouched hL
      | some session =>
          rcases hL with hw | ⟨hun, hs⟩
          · exact .inl (hwrites hw)
          · exact .inr ⟨huntouched hun, hstored hs⟩
  | openSession org kind customer created =>
      cases created with
      | true => exact huntouched hL
      | false => exact ⟨huntouched hL.1, hstored hL.2⟩
  | returned org session response =>
      cases session with
      | none => exact huntouched hL
      | some session => exact ⟨huntouched hL.1, hstored hL.2⟩
  | adapter account kind =>
      exact ⟨huntouched hL.1, fun customer hcustomer => hstored (hL.2 customer hcustomer)⟩
  | idle | get_org _ _ | flush _ _ _ | raised => exact huntouched hL

/-! ### Local correctness -/

/-- `_ensure_customer` takes the stored customer, or creates one. -/
theorem loc_of_ensure_customer {account : Organization} (hL : Loc t orgs (.adapter account kind)) :
    Loc t orgs (ensure_customer env account kind) := by
  obtain ⟨hun, hstored⟩ := hL
  rw [ensure_customer]
  split
  · rename_i existing hexisting
    exact ⟨hun, hstored existing hexisting⟩
  · exact hun

/-- The adapters. -/
theorem loc_of_call {account : Organization} (hL : Loc t orgs (.adapter account kind)) :
    Loc t orgs (call S env account kind) := by
  cases kind with
  | checkout plan =>
      rw [call]
      split
      · exact loc_of_ensure_customer hL
      · exact hL.1
  | portal =>
      rw [call]
      split
      · exact loc_of_ensure_customer hL
      · exact hL.1

/-- **Local correctness.** Every step establishes the next assertion of its request, a flush
only if it writes over `NULL`. -/
theorem Step.loc (h : Step S t orgs a p orgs' p') (hL : Loc t orgs p)
    (hok : ∀ env org kind session, a = .stmt env → p = .flush org kind session →
      (orgs.view t org).all fun row => row.payments_customer_id = none) : Loc t orgs' p' := by
  cases h with
  | request | unknown | created => exact hL
  | rollback => exact Table.untouched_rollback _ _
  | get_org haccount =>
      have hun : orgs.Untouched t := hL
      rw [hun.view] at haccount
      exact ⟨hun, fun customer hcustomer => ⟨_, haccount, hcustomer⟩⟩
  | adapter => exact loc_of_call hL
  | existing => exact .inr hL
  | flush hrow hput =>
      have hun : orgs.Untouched t := hL
      have hnull := hok _ _ _ _ rfl rfl
      rw [hrow, Option.all_some, decide_eq_true_eq] at hnull
      rw [hun.view] at hrow
      exact .inl ⟨_, _, by rw [Table.committed_put hput, hrow], hnull, hun.put hput, rfl⟩
  | @commit _ org session response =>
      have hend : (orgs.commit t).Untouched t := Table.untouched_commit _ _
      cases session with
      | none => exact hend
      | some session =>
          rcases id hL with hwrites | ⟨-, hstored⟩
          · exact ⟨hend, hwrites.commit⟩
          · exact ⟨hend, hstored.commit hL⟩

/-- The same for an action that meets the condition. -/
theorem loc_of_exec (hL : Loc t c.shared (c.proc t)) (hok : StillNull c t a)
    (h : exec S t a c.shared (c.proc t) = some (orgs', p')) : Loc t orgs' p' := by
  refine (step_of_exec h).loc hL ?_
  rintro env org kind session rfl hp
  simpa only [StillNull, hp] using hok

/-- The outline of the assertions. -/
theorem outline (S : Settings) :
    (program S).Outline (StillNull (T := T)) (fun _ => True) Loc where
  step hok _ hL h := ⟨trivial, loc_of_exec (hL _) hok h⟩
  frame hu _ _ hL h := (hL _).of_other (hL _) h hu

/-- **Sessions of the stored customer.** Take a run in which a new customer is only written
while the column is still `NULL`. The customer of every session handed out is the one that
is stored for the organisation, and the `SELECT` of a webhook event of that customer finds
the organisation. -/
theorem handed_out_for_stored (hc : Start c) (h : (program S).Run StillNull c d)
    {response : Response} (hp : d.proc t = .returned org (some session) response) :
    Stored d.shared org session.customer ∧
      ∀ u, d.shared.Untouched u →
        org ∈ d.shared.scan u fun row => row.payments_customer_id = some session.customer := by
  have hinit : ∀ v, Loc v c.shared (c.proc v) := by
    intro v
    rw [hc.idle v]
    exact hc.untouched v
  have hL := ((outline S).run h trivial hinit).2 t
  rw [hp] at hL
  refine ⟨hL.2, fun u hun => ?_⟩
  obtain ⟨row, hrow, hcustomer⟩ := hL.2
  exact Table.mem_scan.mpr ⟨row, by rw [hun.view, hrow], by simp [hcustomer]⟩

end Proofs

/-! ### Two schedules -/

/-- Settings under which schedules are evaluated. -/
def plainSettings : Settings := ⟨.stripe, "pro", [("pro", "price_1")], [], "", id⟩

/-- One organisation without a customer, and no request. -/
def oneOrg : Config (Fin 2) (Organizations (Fin 2)) Proc where
  shared :=
    { committed := fun k => if k = Uuid.ofNat 1 then some ⟨Uuid.ofNat 1, none⟩ else none
      dirty := fun _ => none
      keys := {Uuid.ofNat 1}
      mem_keys_of_committed := fun {k} h => by
        by_contra hk
        exact h (if_neg (by simpa using hk))
      mem_keys_of_dirty := fun h => absurd rfl h }
  proc := fun _ => .idle

theorem start_oneOrg : Start oneOrg := ⟨fun _ _ => rfl, fun _ => rfl⟩

/-- The next step, at which the provider draws these. -/
def draw (customer url : String) : Act := .stmt ⟨customer, url⟩

/-- A checkout alone creates the customer and hands out a session of it. -/
theorem handed_out_for_stored_checkout :
    ∃ d : Config (Fin 2) (Organizations (Fin 2)) Proc, (program plainSettings).Run Any oneOrg d ∧
      Stored d.shared (Uuid.ofNat 1) "cus_1" := by
  have hreplay : ((program plainSettings).replay StillNull oneOrg
      [(0, .request (Uuid.ofNat 1) (.checkout (some "pro"))), (0, draw "" ""),
        (0, draw "cus_1" ""), (0, draw "" "u_1"), (0, draw "" ""), (0, draw "" "")]).any
      (fun d => d.proc 0 = .returned (Uuid.ofNat 1) (some ⟨"cus_1", "u_1"⟩)
        (.checkoutSession "u_1" "stripe")) = true := by
    decide
  obtain ⟨d, hrun, hp⟩ := Program.exists_run_of_replay hreplay
  exact ⟨d, hrun.mono fun _ _ _ _ => trivial,
    (handed_out_for_stored start_oneOrg hrun (of_decide_eq_true hp)).1⟩

/-- Two checkouts read `NULL`, create a customer each and commit one after the other. The
first one has handed out a session of a customer that is no longer stored. -/
theorem handed_out_for_lost :
    ∃ (d : Config (Fin 2) (Organizations (Fin 2)) Proc) (session : Session) (response : Response),
      (program plainSettings).Run Any oneOrg d ∧
        d.proc 0 = .returned (Uuid.ofNat 1) (some session) response ∧
        ¬ Stored d.shared (Uuid.ofNat 1) session.customer ∧
        Stored d.shared (Uuid.ofNat 1) "cus_2" := by
  have hreplay : ((program plainSettings).replay Any oneOrg
      [(0, .request (Uuid.ofNat 1) (.checkout (some "pro"))),
        (1, .request (Uuid.ofNat 1) .portal), (0, draw "" ""), (1, draw "" ""),
        (0, draw "cus_1" ""), (0, draw "" "u_1"), (0, draw "" ""), (0, draw "" ""),
        (1, draw "cus_2" ""), (1, draw "" "u_2"), (1, draw "" ""), (1, draw "" "")]).any
      (fun d => decide (d.proc 0 = .returned (Uuid.ofNat 1) (some ⟨"cus_1", "u_1"⟩)
        (.checkoutSession "u_1" "stripe")) &&
        decide (d.shared.committed (Uuid.ofNat 1) = some ⟨Uuid.ofNat 1, some "cus_2"⟩)) = true := by
    decide
  obtain ⟨d, hrun, hd⟩ := Program.exists_run_of_replay hreplay
  simp only [Bool.and_eq_true, decide_eq_true_eq] at hd
  obtain ⟨hp, hstored⟩ := hd
  refine ⟨d, _, _, hrun, hp, ?_, ⟨_, hstored, rfl⟩⟩
  rintro ⟨row, hrow, hcustomer⟩
  obtain rfl := Option.some.inj (hstored.symm.trans hrow)
  exact absurd hcustomer (by decide)

end BackendManager.Billing.Checkout
