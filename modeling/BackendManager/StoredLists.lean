import BackendManager.KeyHistory
import BackendManager.TenantContext
import BackendManager.WebhookEndpoints

/-!
# Lists in a Column

The event types of an endpoint and the scopes of an API key are stored as one text, joined by
spaces and split at white space. A list comes back as it was given exactly if its elements are
words: not empty, and without white space. Nothing checks that they are.

The split is Python's, at runs of white space of any kind, and drops empty pieces. Joining and
splitting is therefore the identity on lists of words and on no other lists. For an endpoint a
list that does not come back means that events are filtered by other types than were registered;
for a key it means other scopes. The theorems follow the column through every history of the
routes.

## Main results

* `split_joined_iff`: which lists come back.
* `Webhooks.faithful_iff`: an endpoint is read and hears as registered, after every history of
  the router, exactly if its event types are words.
* `grants_iff`: a key has the scopes that it was given, after every history, exactly if they are
  words.
-/

namespace BackendManager.Webhooks

/-- Not empty, and without white space. -/
def IsWord (text : String) : Prop := text ≠ "" ∧ ∀ c ∈ text.toList, isspace c = false

/-- A list of words. -/
def Words (texts : List String) : Prop := ∀ text ∈ texts, IsWord text

instance (text : String) : Decidable (IsWord text) :=
  decidable_of_bool (decide (text ≠ "") && text.toList.all fun c => !isspace c) (by simp [IsWord])

instance (texts : List String) : Decidable (Words texts) :=
  inferInstanceAs (Decidable (∀ text ∈ texts, IsWord text))

/-! ### Splitting what has been joined -/

/-- What is between white space has none. -/
theorem isspace_of_mem_splitOnP {text piece : List Char} (h : piece ∈ text.splitOnP isspace) :
    ∀ c ∈ piece, isspace c = false := by
  induction text generalizing piece with
  | nil =>
      obtain rfl : piece = [] := by simpa using h
      exact fun c hc => nomatch hc
  | cons a text ih =>
      rw [List.splitOnP_cons_eq_if_modifyHead] at h
      split at h
      · rcases List.mem_cons.mp h with rfl | h
        · exact fun c hc => nomatch hc
        · exact ih h
      · rename_i ha
        obtain ⟨first, rest, hsplit⟩ :=
          List.exists_cons_of_ne_nil (List.splitOnP_ne_nil isspace text)
        rw [hsplit] at ih h
        rw [List.modifyHead_cons] at h
        rcases List.mem_cons.mp h with rfl | h
        · intro c hc
          rcases List.mem_cons.mp hc with rfl | hc
          · simpa using ha
          · exact ih List.mem_cons_self c hc
        · exact ih (List.mem_cons_of_mem _ h)

/-- What a text is split into are words. -/
theorem words_split (text : String) : Words (split text) := by
  intro word hword
  obtain ⟨piece, hpiece, rfl⟩ := List.mem_map.mp hword
  obtain ⟨hpiece, hne⟩ := List.mem_filter.mp hpiece
  rw [IsWord, String.toList_ofList]
  exact ⟨fun h => of_decide_eq_true hne (String.ofList_injective h),
    isspace_of_mem_splitOnP hpiece⟩

/-- A text of one word. -/
theorem split_word {word : String} (h : IsWord word) : split word = [word] := by
  have hne : word.toList ≠ [] := fun hnil => h.1 (String.toList_inj.mp hnil)
  rw [split, List.splitOnP_eq_singleton h.2]
  simp [hne]

/-- A space ends a text that is split. -/
theorem split_append_space (text text' : String) :
    split (text ++ " " ++ text') = split text ++ split text' := by
  have hlist : (text ++ " " ++ text').toList = text.toList ++ ' ' :: text'.toList := by simp
  rw [split, hlist, List.splitOnP_append_cons _ _ (by decide), List.filter_append, List.map_append]
  rfl

/-- **Words come back.** -/
theorem split_joined {texts : List String} (h : Words texts) : split (joined texts) = texts := by
  induction texts with
  | nil => rfl
  | cons text texts ih =>
      have hword := split_word (h text List.mem_cons_self)
      cases texts with
      | nil => rw [joined, String.intercalate_singleton, hword]
      | cons text' texts =>
          rw [joined, String.intercalate_cons_cons, split_append_space, hword]
          exact congrArg (text :: ·) (ih fun t ht => h t (List.mem_cons_of_mem _ ht))

/-- **Which lists come back.** -/
theorem split_joined_iff (texts : List String) : split (joined texts) = texts ↔ Words texts :=
  ⟨fun h => h ▸ words_split _, split_joined⟩

/-! ### Endpoints -/

/-- The endpoint is read, is asked and receives as has been registered. -/
structure Registry.Faithful (registry : Registry) (row : EndpointRow) : Prop where
  read : (to_read row).event_types = registry.registered row.id
  hears : ∀ event : OutboxEvent, subscribed event row.toWebhookEndpoint = true ↔
    event.event_type ∈ registry.registered row.id
  receives : ∀ (enqueue_fn : Job → Bool) (event : OutboxEvent) (jobs : List Job),
    event.source = WEBHOOK_SOURCE →
    fan_out enqueue_fn (registry.endpoints.rows.map EndpointRow.toWebhookEndpoint) event =
      .ok jobs →
    (job event row.toWebhookEndpoint ∈ jobs ↔
      some row.organization_id = event.organization_id ∧ row.active = true ∧
        event.event_type ∈ registry.registered row.id)

variable {registry : Registry} {row : EndpointRow}

/-- The jobs of an event are those of the endpoints that await it. -/
theorem job_mem_iff (hrow : row ∈ registry.endpoints.rows) {enqueue_fn : Job → Bool}
    {event : OutboxEvent} {jobs : List Job} (hsource : event.source = WEBHOOK_SOURCE)
    (h : fan_out enqueue_fn (registry.endpoints.rows.map EndpointRow.toWebhookEndpoint) event =
      .ok jobs) :
    job event row.toWebhookEndpoint ∈ jobs ↔ Awaits event row.toWebhookEndpoint := by
  obtain ⟨-, rfl⟩ := (fan_out_ok_iff hsource).mp h
  have hmem : ∀ e : WebhookEndpoint, e ∈ (activeEndpoints event
      (registry.endpoints.rows.map EndpointRow.toWebhookEndpoint)).filter (subscribed event) ↔
        e ∈ registry.endpoints.rows.map EndpointRow.toWebhookEndpoint ∧ Awaits event e := by
    intro e
    rw [List.mem_filter, mem_activeEndpoints_iff]
  rw [List.mem_map]
  constructor
  · rintro ⟨e, he, hjob⟩
    obtain ⟨he, hawaits⟩ := (hmem e).mp he
    obtain ⟨row', hrow', rfl⟩ := List.mem_map.mp he
    -- a job names its endpoint
    rw [job, job, Job.mk.injEq] at hjob
    have hid := Tenancy.str_injective hjob.2.1
    have heq : row' = row :=
      registry.endpoints.ids.eq_of_mem hrow' hrow rfl (by rw [hid])
    rwa [heq] at hawaits
  · exact fun hawaits => ⟨_, (hmem _).mpr ⟨List.mem_map_of_mem hrow, hawaits⟩, rfl⟩

/-- A row that holds the joined list. -/
theorem faithful_iff (hjoined : registry.Joined) (hrow : row ∈ registry.endpoints.rows) :
    registry.Faithful row ↔ Words (registry.registered row.id) := by
  have hcolumn : split row.event_types = split (joined (registry.registered row.id)) := by
    rw [hjoined row hrow]
  constructor
  · intro h
    rw [← split_joined_iff, ← hcolumn]
    exact h.read
  · intro h
    have hread : split row.event_types = registry.registered row.id := by
      rw [hcolumn, split_joined h]
    have hhears : ∀ event : OutboxEvent, subscribed event row.toWebhookEndpoint = true ↔
        event.event_type ∈ registry.registered row.id := by
      intro event
      rw [subscribed, hread, decide_eq_true_eq]
    refine ⟨hread, hhears, fun enqueue_fn event jobs hsource hfan => ?_⟩
    rw [job_mem_iff hrow hsource hfan]
    constructor
    · exact fun hawaits =>
        ⟨hawaits.organization_id, hawaits.active, (hhears event).mp hawaits.subscribed⟩
    · exact fun ⟨horg, hactive, htype⟩ => ⟨horg, hactive, (hhears event).mpr htype⟩

/-- A list that a call has registered is answered with the endpoint. -/
theorem answer_event_types {calls : List RouterCall} {call : RouterCall}
    {answer : WebhookEndpointRead} {event_types : List String}
    (h : (call.run (Registry.history calls).endpoints).2 = some answer)
    (htypes : call.event_types = some event_types) :
    answer.event_types = split (joined event_types) := by
  obtain ⟨row, hrow, rfl⟩ := Registry.answer_mem h
  have hjoined := Registry.joined_of_history (calls ++ [call])
  rw [Registry.history_concat] at hjoined
  have hcolumn := hjoined row hrow
  have hregistered : ((Registry.history calls).step call).registered row.id = event_types := by
    rw [Registry.step, h, htypes]
    exact Function.update_self _ _ _
  rw [hregistered] at hcolumn
  rw [to_read, hcolumn]

end BackendManager.Webhooks

namespace BackendManager.ApiKeys

open Text (latin1)
open Webhooks (Words joined split split_joined_iff)

variable {sha256 : List UInt8 → String} {keys : Keys} {p : Principal}

/-! ### Keys -/

/-- The key is read, and authenticates, with these scopes. -/
structure Grants (sha256 : List UInt8 → String) (keys : Keys) (key_id : Uuid)
    (scopes : List String) : Prop where
  read : ∀ row ∈ keys.rows, row.id = key_id → (to_read row).scopes = scopes
  principal : ∀ (x_api_key : Option String) (user : Option Uuid) (now : ℕ) (p : Principal),
    (get_principal sha256 keys x_api_key user now).2 = .ok p → p.api_key_id = some key_id →
      p.scopes = scopes

/-- No scopes are stored as `NULL`, and read as if they were an empty text. -/
theorem splitScopes_joinScopes (scopes : Option (List String)) :
    splitScopes (joinScopes scopes) = split (joined (scopes.getD [])) := by
  rcases scopes with - | - | ⟨scope, scopes⟩
  · rfl
  · rfl
  · rw [joinScopes, splitScopes, Option.getD_some, joined]
    split
    · rename_i hempty
      rw [hempty]
      rfl
    · rfl

/-- The principal of a key is that of its row. -/
theorem row_of_principal {x_api_key : Option String} {user : Option Uuid} {now : ℕ}
    {key_id : Uuid} (h : (get_principal sha256 keys x_api_key user now).2 = .ok p)
    (hid : p.api_key_id = some key_id) :
    ∃ row ∈ keys.rows, row.id = key_id ∧ p.scopes = (to_read row).scopes := by
  unfold get_principal at h
  split at h
  · split at h
    · cases h
    · rename_i row hverified
      split at h
      · cases h
      · split at h
        · cases h
        · obtain rfl := Except.ok.inj h
          exact ⟨row, (verified_eq_some_iff.mp hverified).1, Option.some.inj hid, rfl⟩
  · split at h
    · obtain rfl := Except.ok.inj h
      cases hid
    · cases h

/-- **A key has the scopes it was given**, after every history, exactly if they are words. -/
theorem grants_iff {past future : List Call} {org_id user_id : Uuid} {payload : ApiKeyCreate}
    {m : Minting} {created : ApiKeyCreated}
    (h : (Call.create org_id user_id payload m).created sha256 (history sha256 past) =
      some created) :
    (created.scopes = payload.scopes.getD [] ∧
      Grants sha256 (history sha256 (past ++ .create org_id user_id payload m :: future))
        created.id (payload.scopes.getD [])) ↔ Words (payload.scopes.getD []) := by
  have hscopes : created.scopes = split (joined (payload.scopes.getD [])) := by
    rw [← splitScopes_joinScopes]
    rw [Call.created] at h
    rcases create_cases sha256 (history sha256 past) org_id user_id payload m with
      hnone | ⟨_, -, hsome⟩
    · rw [hnone] at h
      cases h
    · rw [hsome] at h
      obtain rfl := Option.some.inj h
      rfl
  -- the row of the key keeps the scopes
  obtain ⟨row, hrow, hstands⟩ :=
    (stands_of_history sha256 (past ++ .create org_id user_id payload m :: future)).2
      created future ⟨past, _, rfl, h⟩
  have hid : row.id = created.id :=
    Option.some.inj (congrArg Principal.api_key_id hstands.principal)
  have hrows : ∀ row' ∈ (history sha256
      (past ++ .create org_id user_id payload m :: future)).rows,
      row'.id = created.id → (to_read row').scopes = created.scopes := by
    intro row' hrow' hid'
    rw [Keys.eq_of_id _ hrow' hrow (hid'.trans hid.symm)]
    exact congrArg Principal.scopes hstands.principal
  rw [← split_joined_iff, ← hscopes]
  refine ⟨fun h => h.1, fun hback => ⟨hback, ?_, ?_⟩⟩
  · intro row' hrow' hid'
    rw [hrows row' hrow' hid', hback]
  · intro x_api_key user now p hp hkey
    obtain ⟨row', hrow', hid', hp⟩ := row_of_principal hp hkey
    rw [hp, hrows row' hrow' hid', hback]

/-- **Stored lists.** After every history of the router, an endpoint is read, hears and receives
as registered exactly if its event types are words; a call answers with the list it has been
given, and a key has the scopes it has been given, on the same condition. -/
theorem stored_lists (calls : List Webhooks.RouterCall) (sha256 : List UInt8 → String)
    (past : List Call) :
    (∀ row ∈ (Webhooks.Registry.history calls).endpoints.rows,
      ((Webhooks.Registry.history calls).Faithful row ↔
        Words ((Webhooks.Registry.history calls).registered row.id))) ∧
    (∀ (call : Webhooks.RouterCall) (answer : Webhooks.WebhookEndpointRead)
      (event_types : List String),
      (call.run (Webhooks.Registry.history calls).endpoints).2 = some answer →
      call.event_types = some event_types →
      (answer.event_types = event_types ↔ Words event_types)) ∧
    ∀ (future : List Call) (org_id user_id : Uuid) (payload : ApiKeyCreate) (m : Minting)
      (created : ApiKeyCreated),
      (Call.create org_id user_id payload m).created sha256 (history sha256 past) = some created →
      ((created.scopes = payload.scopes.getD [] ∧
        Grants sha256 (history sha256 (past ++ .create org_id user_id payload m :: future))
          created.id (payload.scopes.getD [])) ↔ Words (payload.scopes.getD [])) := by
  refine ⟨fun row hrow =>
    Webhooks.faithful_iff (Webhooks.Registry.joined_of_history calls) hrow, ?_, ?_⟩
  · intro call answer event_types h htypes
    rw [Webhooks.answer_event_types h htypes, split_joined_iff]
  · intro future org_id user_id payload m created h
    exact grants_iff h

/-! ### A list of words, and one with a space -/

/-- The organisation `1` registers an endpoint for these types. -/
def subscribe (event_types : List String) (h : 1 ≤ event_types.length) : Webhooks.RouterCall :=
  .create (.ofNat 1) ⟨"https://hooks.example/a", event_types, none, true, by decide, h, by simp⟩
    ⟨.ofNat 5, "whsec", 0, false⟩

/-- The row of the endpoint. -/
def subscription (event_types : List String) : Webhooks.EndpointRow :=
  ⟨⟨.ofNat 5, .ofNat 1, joined event_types, true⟩, "https://hooks.example/a", "whsec", 0⟩

/-- A key with these scopes. -/
def withScopes (scopes : List String) : ApiKeyCreate :=
  ⟨"scoped-bot", some scopes, none, by decide, by simp⟩

/-- The user `2` mints a key of the organisation `1` with these scopes. -/
def mintScoped (random : Random) (scopes : List String) : Call :=
  .create (.ofNat 1) (.ofNat 2) (withScopes scopes) ⟨random, .ofNat 3, 0, 0, false⟩

/-- What the user is given. -/
def mintedScoped (random : Random) (scopes : List String) : ApiKeyCreated :=
  ⟨⟨.ofNat 3, .ofNat 1, .ofNat 2, "scoped-bot", newPrefix random,
    splitScopes (joinScopes (some scopes)), none, none, none, 0⟩,
    full_key (newPrefix random) (token_urlsafe random.secret)⟩

/-- Two event types, and two scopes, come back as they were given. -/
theorem stored_lists_words :
    (Webhooks.Registry.history [subscribe ["user.created", "invoice.paid"] (by decide)]).Faithful
        (subscription ["user.created", "invoice.paid"]) ∧
      (Webhooks.to_read (subscription ["invoice.paid"])).event_types = ["invoice.paid"] ∧
      Grants latin1
        (history latin1 [mintScoped ⟨7, 8⟩ ["read", "write"], .revoke (.ofNat 4) (.ofNat 3) 10])
        (.ofNat 3) ["read", "write"] := by
  refine ⟨?_, ?_, ?_⟩
  · exact ((stored_lists [subscribe ["user.created", "invoice.paid"] (by decide)] latin1 []).1
      (subscription ["user.created", "invoice.paid"]) (List.mem_singleton_self _)).mpr (by decide)
  · exact ((stored_lists [] latin1 []).2.1 (subscribe ["invoice.paid"] (by decide))
      (Webhooks.to_read (subscription ["invoice.paid"])) ["invoice.paid"] rfl rfl).mpr (by decide)
  · exact (((stored_lists [] latin1 []).2.2 [.revoke (.ofNat 4) (.ofNat 3) 10] (.ofNat 1) (.ofNat 2)
      (withScopes ["read", "write"]) ⟨⟨7, 8⟩, .ofNat 3, 0, 0, false⟩
      (mintedScoped ⟨7, 8⟩ ["read", "write"]) rfl).mpr (by decide)).2

/-- An event of this type. -/
def eventOf (event_type : String) : Webhooks.OutboxEvent :=
  ⟨"webhook", "e", event_type, some (.ofNat 1), "{}", 0, none, none, none, 0⟩

/-- An element with a space: the endpoint reads as two types, hears one that has not been
registered and not the one that has, and the key gains scopes. -/
theorem not_stored_lists :
    (Webhooks.to_read (subscription ["invoice paid"])).event_types = ["invoice", "paid"] ∧
      subscription ["invoice paid"] ∈
        (Webhooks.Registry.history [subscribe ["invoice paid"] (by decide)]).endpoints.rows ∧
      Webhooks.subscribed (eventOf "invoice") (subscription ["invoice paid"]).toWebhookEndpoint =
        true ∧
      Webhooks.subscribed (eventOf "invoice paid")
        (subscription ["invoice paid"]).toWebhookEndpoint = false ∧
      (get_principal latin1 (history latin1 [mintScoped ⟨7, 8⟩ ["read write"]])
          (some (mintedScoped ⟨7, 8⟩ ["read write"]).key) none 20).2 =
        .ok ⟨.ofNat 2, some (.ofNat 1), some (.ofNat 3), ["read", "write"], "api_key"⟩ := by
  refine ⟨by decide, List.mem_singleton_self _, by decide, by decide, ?_⟩
  have hissued : Issued latin1 [mintScoped ⟨7, 8⟩ ["read write"]]
      (mintedScoped ⟨7, 8⟩ ["read write"]) [] := ⟨[], _, rfl, rfl⟩
  refine ((authenticated_iff Text.latin1_injective _ (mintedScoped ⟨7, 8⟩ ["read write"]).key none
    20 _).mpr ⟨mintedScoped ⟨7, 8⟩ ["read write"], _, hissued, rfl, ?_, ?_, by decide⟩).1
  · exact fun call hcall => nomatch hcall
  · exact fun expires_at h => nomatch h

end BackendManager.ApiKeys
