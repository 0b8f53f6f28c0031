import BackendManager.ApiKeys
import Mathlib.Data.List.Induction
import Mathlib.Data.List.Sort
import Mathlib.Logic.Function.Basic

/-!
# Webhook Endpoints

The model of `app/webhooks/router.py`. An endpoint registers a list of event types; the column
holds them joined by spaces, and is split at white space wherever it is read. A `Registry` is
the table together with the list that has last been registered for each endpoint, so that what
is read can be compared with it.

The routes are translated with their validation: the bounds of a URL and a secret are fields of
the payloads, so that a payload that the schema refuses cannot be built. An update replaces the
fields that were sent and leaves the others. What the list route returns is sorted by the time
of creation.

## Main results

* `Registry.joined_step`, `Registry.joined_of_history`: every row holds the joined list that has
  last been registered for it.
-/

namespace BackendManager.Webhooks

open ApiKeys (HTTPException)
open UniqueRows

/-! ### Tables and schemas -/

/-- A row of `webhook_endpoints`, with the columns that the relay does not read. -/
structure EndpointRow extends WebhookEndpoint where
  url : String
  secret : String
  created_at : ℕ
deriving DecidableEq

/-- The table `webhook_endpoints`; `id` is the primary key. -/
structure Endpoints where
  rows : List EndpointRow
  ids : Unique (fun row => some row.id) rows

/-- `WebhookEndpointCreate`. -/
structure WebhookEndpointCreate where
  url : String
  event_types : List String
  secret : Option String
  active : Bool
  url_length : url.length ≤ 2048
  event_types_length : 1 ≤ event_types.length
  secret_length : ∀ s, secret = some s → s.length ≤ 255

/-- `WebhookEndpointUpdate`. -/
structure WebhookEndpointUpdate where
  url : Option String
  event_types : Option (List String)
  active : Option Bool
  url_length : ∀ s, url = some s → s.length ≤ 2048
  event_types_length : ∀ l, event_types = some l → 1 ≤ l.length

/-- `WebhookEndpointRead`. -/
structure WebhookEndpointRead where
  id : Uuid
  organization_id : Uuid
  url : String
  secret : String
  event_types : List String
  active : Bool
  created_at : ℕ
deriving DecidableEq

/-- What one `create_webhook_endpoint` call takes from outside. -/
structure Registering where
  /-- `uuid.uuid4()`. -/
  id : Uuid
  /-- `secrets.token_urlsafe(32)`. -/
  token : String
  /-- `now()` of the database. -/
  created_at : ℕ
  /-- The database refuses the row. -/
  refused : Bool

/-- `" ".join(event_types)`. -/
def joined (event_types : List String) : String := " ".intercalate event_types

/-- `_to_read`. -/
def to_read (endpoint : EndpointRow) : WebhookEndpointRead where
  id := endpoint.id
  organization_id := endpoint.organization_id
  url := endpoint.url
  secret := endpoint.secret
  event_types := split endpoint.event_types
  active := endpoint.active
  created_at := endpoint.created_at

namespace Endpoints

/-- The table without rows. -/
def empty : Endpoints := ⟨[], .nil⟩

/-- `SELECT ... WHERE id = :endpoint_id AND organization_id = :org_id`. -/
def selectId (endpoints : Endpoints) (org_id endpoint_id : Uuid) : Option EndpointRow :=
  endpoints.rows.find? fun row => row.id = endpoint_id ∧ row.organization_id = org_id

/-- INSERT; `none` is an `IntegrityError`. -/
def insert (endpoints : Endpoints) (row : EndpointRow) : Option Endpoints :=
  if h : find (fun row : EndpointRow => row.id) row.id endpoints.rows = none then
    some ⟨endpoints.rows ++ [row], endpoints.ids.concat h⟩
  else none

/-- UPDATE of the columns that a payload sets in one row. -/
def changed (payload : WebhookEndpointUpdate) (row : EndpointRow) : EndpointRow :=
  { row with
    url := payload.url.getD row.url
    event_types := (payload.event_types.map joined).getD row.event_types
    active := payload.active.getD row.active }

/-- UPDATE ... WHERE id = :id. -/
def update (endpoints : Endpoints) (id : Uuid) (payload : WebhookEndpointUpdate) : Endpoints where
  rows := endpoints.rows.map fun row => if row.id = id then changed payload row else row
  ids := endpoints.ids.map fun row => by split <;> rfl

/-- DELETE ... WHERE id = :id. -/
def delete (endpoints : Endpoints) (id : Uuid) : Endpoints where
  rows := endpoints.rows.filter fun row => row.id ≠ id
  ids := List.Pairwise.filter _ endpoints.ids

end Endpoints

/-! ### The router -/

/-- The row of `create_webhook_endpoint`. -/
def newRow (org_id : Uuid) (payload : WebhookEndpointCreate) (m : Registering) : EndpointRow where
  id := m.id
  organization_id := org_id
  event_types := joined payload.event_types
  active := payload.active
  url := payload.url
  -- an empty secret counts as none
  secret := (payload.secret.filter (· ≠ "")).getD m.token
  created_at := m.created_at

/-- `create_webhook_endpoint`; without an answer the call has ended with an exception. -/
def create_webhook_endpoint (endpoints : Endpoints) (org_id : Uuid)
    (payload : WebhookEndpointCreate) (m : Registering) :
    Endpoints × Option WebhookEndpointRead :=
  let endpoint := newRow org_id payload m
  match if m.refused then none else endpoints.insert endpoint with
  | some endpoints => (endpoints, some (to_read endpoint))
  | none => (endpoints, none)

/-- `list_webhook_endpoints`. -/
def list_webhook_endpoints (endpoints : Endpoints) (org_id : Uuid) : List WebhookEndpointRead :=
  ((endpoints.rows.filter fun row => row.organization_id = org_id).insertionSort
    fun a b => a.created_at ≤ b.created_at).map to_read

/-- `_get_endpoint`. -/
def _get_endpoint (endpoints : Endpoints) (org_id endpoint_id : Uuid) :
    Except HTTPException EndpointRow :=
  match endpoints.selectId org_id endpoint_id with
  | some endpoint => .ok endpoint
  | none => .error ⟨404, "Webhook endpoint not found", []⟩

/-- `get_webhook_endpoint`. -/
def get_webhook_endpoint (endpoints : Endpoints) (org_id endpoint_id : Uuid) :
    Except HTTPException WebhookEndpointRead :=
  (_get_endpoint endpoints org_id endpoint_id).map to_read

/-- `update_webhook_endpoint`; without an answer the database has refused the row. -/
def update_webhook_endpoint (endpoints : Endpoints) (org_id endpoint_id : Uuid)
    (payload : WebhookEndpointUpdate) (refused : Bool) :
    Endpoints × Option (Except HTTPException WebhookEndpointRead) :=
  match _get_endpoint endpoints org_id endpoint_id with
  | .error e => (endpoints, some (.error e))
  | .ok endpoint =>
      if refused then (endpoints, none)
      else
        (endpoints.update endpoint.id payload,
          some (.ok (to_read (Endpoints.changed payload endpoint))))

/-- `delete_webhook_endpoint`. -/
def delete_webhook_endpoint (endpoints : Endpoints) (org_id endpoint_id : Uuid) (refused : Bool) :
    Endpoints × Option (Except HTTPException Unit) :=
  match _get_endpoint endpoints org_id endpoint_id with
  | .error e => (endpoints, some (.error e))
  | .ok endpoint =>
      if refused then (endpoints, none) else (endpoints.delete endpoint.id, some (.ok ()))

/-! ### Histories -/

/-- A call of the router that writes. -/
inductive RouterCall
  | create (org_id : Uuid) (payload : WebhookEndpointCreate) (m : Registering)
  | update (org_id endpoint_id : Uuid) (payload : WebhookEndpointUpdate) (refused : Bool)
  | delete (org_id endpoint_id : Uuid) (refused : Bool)

/-- The table after a call, and the endpoint that it has answered with. -/
def RouterCall.run (endpoints : Endpoints) : RouterCall → Endpoints × Option WebhookEndpointRead
  | .create org_id payload m => create_webhook_endpoint endpoints org_id payload m
  | .update org_id endpoint_id payload refused =>
      (update_webhook_endpoint endpoints org_id endpoint_id payload refused).map id
        fun answer => answer.bind Except.toOption
  | .delete org_id endpoint_id refused =>
      ((delete_webhook_endpoint endpoints org_id endpoint_id refused).1, none)

/-- The list that a call means to register. -/
def RouterCall.event_types : RouterCall → Option (List String)
  | .create _ payload _ => some payload.event_types
  | .update _ _ payload _ => payload.event_types
  | .delete .. => none

/-- The table, and the list that has last been registered for each endpoint. -/
structure Registry where
  endpoints : Endpoints
  registered : Uuid → List String

namespace Registry

def empty : Registry := ⟨.empty, fun _ => []⟩

/-- A list has been registered if the call has answered. -/
def register (registered : Uuid → List String) :
    Option WebhookEndpointRead → Option (List String) → Uuid → List String
  | some answer, some event_types => Function.update registered answer.id event_types
  | _, _ => registered

/-- One call. -/
def step (registry : Registry) (call : RouterCall) : Registry where
  endpoints := (call.run registry.endpoints).1
  registered := register registry.registered (call.run registry.endpoints).2 call.event_types

/-- The registry after a history, oldest call first. -/
def history (calls : List RouterCall) : Registry := calls.foldl step empty

/-- Every row holds the joined list that has last been registered for it. -/
def Joined (registry : Registry) : Prop :=
  ∀ row ∈ registry.endpoints.rows, row.event_types = joined (registry.registered row.id)

end Registry

variable {endpoints endpoints' : Endpoints} {row : EndpointRow} {registry : Registry}
  {org_id endpoint_id : Uuid} {call : RouterCall} {read : WebhookEndpointRead}

/-! ### What a call writes -/

theorem Endpoints.rows_insert (h : endpoints.insert row = some endpoints') :
    endpoints'.rows = endpoints.rows ++ [row] ∧ ∀ r ∈ endpoints.rows, r.id ≠ row.id := by
  rw [Endpoints.insert] at h
  split at h
  · rename_i hnone
    rw [← Option.some.inj h]
    exact ⟨rfl, find_eq_none_iff.mp hnone⟩
  · cases h

theorem selectId_eq_some (h : endpoints.selectId org_id endpoint_id = some row) :
    row ∈ endpoints.rows ∧ row.id = endpoint_id := by
  have hrow := List.find?_some h
  exact ⟨List.mem_of_find?_eq_some h, (of_decide_eq_true hrow).1⟩

theorem get_endpoint_ok (h : _get_endpoint endpoints org_id endpoint_id = .ok row) :
    row ∈ endpoints.rows ∧ row.id = endpoint_id := by
  rw [_get_endpoint] at h
  split at h
  · rename_i hselect
    rw [← Except.ok.inj h]
    exact selectId_eq_some hselect
  · cases h

/-- **What one call does** to the table: it adds a row, changes or removes the row of one
endpoint, or does nothing. -/
theorem RouterCall.run_cases (endpoints : Endpoints) (call : RouterCall) :
    (∃ row event_types, call.event_types = some event_types ∧ row.event_types = joined event_types ∧
        (∀ r ∈ endpoints.rows, r.id ≠ row.id) ∧
        (call.run endpoints).1.rows = endpoints.rows ++ [row] ∧
        (call.run endpoints).2 = some (to_read row)) ∨
      (∃ row payload, row ∈ endpoints.rows ∧ call.event_types = payload.event_types ∧
        (call.run endpoints).1 = endpoints.update row.id payload ∧
        (call.run endpoints).2 = some (to_read (Endpoints.changed payload row))) ∨
      (call.run endpoints).2 = none ∧
        ∀ r ∈ (call.run endpoints).1.rows, r ∈ endpoints.rows := by
  cases call with
  | create org_id payload m =>
      simp only [RouterCall.run, create_webhook_endpoint, RouterCall.event_types]
      by_cases hrefused : m.refused = true
      · refine .inr (.inr ⟨?_, fun r hr => ?_⟩)
        · simp [hrefused]
        · simpa [hrefused] using hr
      · simp only [hrefused, Bool.false_eq_true, if_false]
        cases hinsert : endpoints.insert (newRow org_id payload m) with
        | none => exact .inr (.inr ⟨rfl, fun r hr => hr⟩)
        | some endpoints' =>
            obtain ⟨hrows, hnew⟩ := Endpoints.rows_insert hinsert
            exact .inl ⟨newRow org_id payload m, _, rfl, rfl, hnew, hrows, rfl⟩
  | update org_id endpoint_id payload refused =>
      simp only [RouterCall.run, update_webhook_endpoint, RouterCall.event_types]
      cases hget : _get_endpoint endpoints org_id endpoint_id with
      | error e => exact .inr (.inr ⟨rfl, fun r hr => hr⟩)
      | ok endpoint =>
          cases refused with
          | true => exact .inr (.inr ⟨rfl, fun r hr => hr⟩)
          | false =>
              exact .inr (.inl ⟨endpoint, payload, (get_endpoint_ok hget).1, rfl, rfl, rfl⟩)
  | delete org_id endpoint_id refused =>
      refine .inr (.inr ⟨rfl, fun r hr => ?_⟩)
      simp only [RouterCall.run, delete_webhook_endpoint] at hr
      split at hr
      · exact hr
      · cases refused with
        | true => exact hr
        | false => exact List.mem_of_mem_filter hr

namespace Registry

/-- **One call** keeps every row joined. -/
theorem joined_step (h : registry.Joined) (call : RouterCall) : (registry.step call).Joined := by
  intro r hr
  simp only [step] at hr ⊢
  rcases call.run_cases registry.endpoints with
    ⟨row, event_types, htypes, hjoined, hnew, hrows, hanswer⟩ |
      ⟨row, payload, hrow, htypes, hrun, hanswer⟩ | ⟨hanswer, hrows⟩
  · rw [hanswer, htypes, register]
    rw [hrows] at hr
    rcases List.mem_append.mp hr with hr | hr
    · have hid : r.id ≠ (to_read row).id := hnew r hr
      rw [Function.update_of_ne hid]
      exact h r hr
    · obtain rfl := List.mem_singleton.mp hr
      have hid : r.id = (to_read r).id := rfl
      rw [hid, Function.update_self]
      exact hjoined
  · rw [hanswer, htypes]
    rw [hrun] at hr
    obtain ⟨old, hold, hr⟩ := List.mem_map.mp hr
    by_cases hid : old.id = row.id
    · rw [if_pos hid] at hr
      obtain rfl := hr
      cases htypes' : payload.event_types with
      | none =>
          simp only [Endpoints.changed, htypes', register]
          exact h old hold
      | some event_types =>
          have hid' : (Endpoints.changed payload old).id =
              (to_read (Endpoints.changed payload row)).id := hid
          rw [register, hid', Function.update_self, Endpoints.changed, htypes']
          rfl
    · rw [if_neg hid] at hr
      obtain rfl := hr
      cases htypes' : payload.event_types with
      | none => exact h old hold
      | some event_types =>
          have hid' : old.id ≠ (to_read (Endpoints.changed payload row)).id := hid
          rw [register, Function.update_of_ne hid']
          exact h old hold
  · rw [hanswer, register]
    · exact h r (hrows r hr)
    · simp

/-- The last call of a history comes last. -/
theorem history_concat (calls : List RouterCall) (call : RouterCall) :
    history (calls ++ [call]) = (history calls).step call := by
  rw [history, List.foldl_append]
  rfl

/-- **Every history** leaves every row joined. -/
theorem joined_of_history (calls : List RouterCall) : (history calls).Joined := by
  induction calls using List.reverseRecOn with
  | nil => exact fun row hrow => nomatch hrow
  | append_singleton calls call ih =>
      rw [history_concat]
      exact joined_step ih call

/-- A call answers with an endpoint that is in the table after it. -/
theorem answer_mem (h : (call.run endpoints).2 = some read) :
    ∃ row ∈ (call.run endpoints).1.rows, read = to_read row := by
  rcases call.run_cases endpoints with
    ⟨row, event_types, -, -, -, hrows, hanswer⟩ | ⟨row, payload, hrow, -, hrun, hanswer⟩ |
      ⟨hanswer, -⟩
  · rw [hanswer] at h
    refine ⟨row, ?_, (Option.some.inj h).symm⟩
    rw [hrows]
    exact List.mem_append_right _ (List.mem_singleton_self _)
  · rw [hanswer] at h
    refine ⟨Endpoints.changed payload row, ?_, (Option.some.inj h).symm⟩
    rw [hrun]
    exact List.mem_map.mpr ⟨row, hrow, if_pos rfl⟩
  · rw [hanswer] at h
    cases h

end Registry

end BackendManager.Webhooks
