import BackendManager.ForgedWebhooks
import BackendManager.SubscriptionSync

/-!
# Event Ids of Razorpay

The adapter of Razorpay makes the event id of a body from three of its fields: the name of the
event, the id of the subscription, and the second in which the event was created. The route
answers `duplicate` to a body whose id it has noted. Two events of one kind for one subscription
in one second have one id, so that the second of them is dropped.

The id joins the three texts with colons. What it tells of them are their words, that is the
pieces between colons, in order.

## Main results

* `Razorpay.Verified.event_id_eq_iff`: which bodies have equal ids.
* `Razorpay.History.duplicate_iff`: which bodies are answered `duplicate` after any history.
* `Razorpay.Verified.told_iff`: where the three fields are scalars, two bodies are told apart as
  soon as different contents have different ids.
* `event_ids`: when ids are as different as contents, and no event is dropped.
-/

namespace BackendManager.Billing

open Json (Value Scalars PyError)
open Json.Value (Same bind_eq_ok)
open Text (utf8 utf8_injective decodeUtf8 decodeUtf8_eq_some_iff)

variable {F : Type} {razorpay : Razorpay F} {payments : Adapter F} {S : Scalars F}
  {raw_body raw_body' : List UInt8} {signature signature' : String}
  {document document' : Value F} {event event' : AdapterEvent F} {normalized : PaymentEvent}
  {documents : List (Value F)} {db db' : Database} {id id' : String}

/-! ### The synthesized key -/

/-- The texts of the name, of the subscription id and of the time, each cut at its colons. -/
def Razorpay.idWords (S : Scalars F) (event : Value F) : Except PyError (List (List Char)) := do
  let name ← event.get "event" (.str "")
  let entity ← entity event
  let subscription_id ← entity.get "id" .null
  let created_at ← event.get "created_at" .null
  pure ([name, subscription_id, created_at].flatMap fun v => (v.text S).toList.splitOn ':')

/-- The words of a key are those of the three texts. -/
theorem splitOn_eventId (S : Scalars F) (name subscription_id created_at : Value F) :
    (Razorpay.eventId S name subscription_id created_at).toList.splitOn ':' =
      [name, subscription_id, created_at].flatMap fun v => (v.text S).toList.splitOn ':' := by
  have hkey : (Razorpay.eventId S name subscription_id created_at).toList =
      (name.text S).toList ++ ':' ::
        ((subscription_id.text S).toList ++ ':' :: (created_at.text S).toList) := by
    simp [Razorpay.eventId]
  rw [hkey, List.splitOn_append_cons_self, List.splitOn_append_cons_self]
  simp

/-- A text is made up of its words. -/
theorem eq_of_splitOn (h : id.toList.splitOn ':' = id'.toList.splitOn ':') : id = id' := by
  have hjoin := congrArg (List.intercalate [':']) h
  rw [List.intercalate_splitOn, List.intercalate_splitOn] at hjoin
  exact String.toList_injective hjoin

/-- The adapter verifies the body, parses it as this document, and returns this event. -/
structure Razorpay.Verified (razorpay : Razorpay F) (raw_body : List UInt8) (signature : String)
    (document : Value F) (event : AdapterEvent F) : Prop where
  loads : razorpay.loads raw_body = some document
  verify_webhook : razorpay.verify_webhook raw_body signature = .ok event

namespace Razorpay

/-- What the adapter returns is what it makes of the document. -/
theorem Verified._to_payment_event (h : razorpay.Verified raw_body signature document event) :
    razorpay._to_payment_event document = .ok event := by
  have hverify := h.verify_webhook
  rw [Razorpay.verify_webhook] at hverify
  split at hverify
  · cases hverify
  · split at hverify
    · cases hverify
    · simp only [h.loads] at hverify
      cases hevent : razorpay._to_payment_event document with
      | error error =>
          rw [hevent] at hverify
          cases hverify
      | ok event' =>
          rw [hevent] at hverify
          exact congrArg Except.ok (Except.ok.inj hverify)

/-- The route on such a body, if the event is as annotated. -/
theorem Verified.webhook (h : razorpay.Verified raw_body signature document event)
    (hannotated : event.annotated = some normalized) :
    Billing.webhook (.razorpay razorpay) raw_body signature db =
      match payments_webhook "razorpay" normalized db with
      | .ok (db, reply) => (db, .reply reply)
      | .error _ => (db, .failed) := by
  have hverify : (Adapter.razorpay razorpay).verify_webhook raw_body signature = .ok event :=
    h.verify_webhook
  exact webhook_of_verified hverify hannotated

/-- The id of an event has the words of its document. -/
theorem Verified.idWords (h : razorpay.Verified raw_body signature document event) :
    ∃ id, event.event_id = .str id ∧
      idWords razorpay.scalars document = .ok (id.toList.splitOn ':') := by
  obtain ⟨name, entity, created_at, status, plan_id, hreads⟩ := Razorpay.reads h._to_payment_event
  refine ⟨_, hreads.event_id, ?_⟩
  rw [splitOn_eventId]
  exact bind_eq_ok.mpr ⟨name, hreads.get_name, bind_eq_ok.mpr ⟨entity, hreads.get_entity,
    bind_eq_ok.mpr ⟨_, hreads.get_id, bind_eq_ok.mpr ⟨created_at, hreads.get_created_at, rfl⟩⟩⟩⟩

/-- **Which bodies have equal ids**: those whose three fields have equal words. -/
theorem Verified.event_id_eq_iff (h : razorpay.Verified raw_body signature document event)
    (h' : razorpay.Verified raw_body' signature' document' event') :
    event.event_id = event'.event_id ↔
      Razorpay.idWords razorpay.scalars document =
        Razorpay.idWords razorpay.scalars document' := by
  obtain ⟨id, hid, hwords⟩ := h.idWords
  obtain ⟨id', hid', hwords'⟩ := h'.idWords
  rw [hid, hid', hwords, hwords']
  constructor
  · intro heq
    rw [Value.str.inj heq]
  · intro heq
    rw [eq_of_splitOn (Except.ok.inj heq)]

end Razorpay

/-! ### Equal contents -/

/-- Two empty dicts have the same content. -/
theorem same_empty : Same (.dict [] : Value F) (.dict []) :=
  .dict (fun _ => rfl) fun _ _ _ h => nomatch h

/-- Documents of the same content have subscriptions of the same content. -/
theorem entity_of_same (h : Same document document') {entity : Value F}
    (hentity : Razorpay.entity document = .ok entity) :
    ∃ entity', Razorpay.entity document' = .ok entity' ∧ Same entity entity' := by
  rw [Razorpay.entity] at hentity
  obtain ⟨payload, hpayload, hentity⟩ := bind_eq_ok.mp hentity
  obtain ⟨subscription, hsubscription, hentity⟩ := bind_eq_ok.mp hentity
  obtain ⟨payload', hpayload', hsame⟩ := h.get same_empty hpayload
  obtain ⟨subscription', hsubscription', hsame⟩ := hsame.get same_empty hsubscription
  obtain ⟨entity', hentity', hsame⟩ := hsame.get same_empty hentity
  exact ⟨entity', bind_eq_ok.mpr ⟨payload', hpayload',
    bind_eq_ok.mpr ⟨subscription', hsubscription', hentity'⟩⟩, hsame⟩

/-- The three fields are scalars. -/
structure Razorpay.ScalarFields (document : Value F) : Prop where
  name : ∀ v, document.get "event" (.str "") = .ok v → v.IsScalar
  subscription_id : ∀ entity v, Razorpay.entity document = .ok entity →
    entity.get "id" .null = .ok v → v.IsScalar
  created_at : ∀ v, document.get "created_at" .null = .ok v → v.IsScalar

/-- Then equal contents have equal words. -/
theorem idWords_of_same (hscalar : Razorpay.ScalarFields document)
    (h : Same document document') {words : List (List Char)}
    (hwords : Razorpay.idWords S document = .ok words) :
    Razorpay.idWords S document' = .ok words := by
  rw [Razorpay.idWords] at hwords
  obtain ⟨name, hv, hwords⟩ := bind_eq_ok.mp hwords
  obtain ⟨entity, he, hwords⟩ := bind_eq_ok.mp hwords
  obtain ⟨subscription_id, hs, hwords⟩ := bind_eq_ok.mp hwords
  obtain ⟨created_at, hc, hwords⟩ := bind_eq_ok.mp hwords
  have hnull : Same (.null : Value F) .null := .scalar trivial
  have htext : Same (.str "" : Value F) (.str "") := .scalar trivial
  obtain ⟨name', hv', hsameName⟩ := h.get htext hv
  obtain rfl := hsameName.eq_of_isScalar (hscalar.name name hv)
  obtain ⟨created_at', hc', hsameCreated⟩ := h.get hnull hc
  obtain rfl := hsameCreated.eq_of_isScalar (hscalar.created_at created_at hc)
  obtain ⟨entity', he', hsameEntity⟩ := entity_of_same h he
  obtain ⟨subscription_id', hs', hsameSubscription⟩ := hsameEntity.get hnull hs
  obtain rfl :=
    hsameSubscription.eq_of_isScalar (hscalar.subscription_id entity subscription_id he hs)
  exact bind_eq_ok.mpr ⟨name, hv', bind_eq_ok.mpr ⟨entity', he',
    bind_eq_ok.mpr ⟨subscription_id, hs', bind_eq_ok.mpr ⟨created_at, hc', hwords⟩⟩⟩⟩

/-! ### What a delivery notes -/

/-- The ways in which the route ends. -/
inductive Delivery (payments : Adapter F) (raw_body : List UInt8) (signature : String)
    (db : Database) : Database × Answer → Prop
  /-- The id of the event is noted. -/
  | duplicate {event : AdapterEvent F} {id : String} :
      payments.verify_webhook raw_body signature = .ok event → event.event_id = .str id →
      db.tables.processed payments.name id = true →
      Delivery payments raw_body signature db (db, .reply .duplicate)
  /-- The event is processed, and its id is noted. -/
  | ok {event : AdapterEvent F} {id : String} {db' : Database} :
      payments.verify_webhook raw_body signature = .ok event → event.event_id = .str id →
      db.tables.processed payments.name id = false →
      (∀ id', db'.tables.processed payments.name id' =
        (decide (id' = id) || db.tables.processed payments.name id')) →
      Delivery payments raw_body signature db (db', .reply .ok)
  /-- An exception, which the route may answer. -/
  | raised {answer : Answer} : (∀ reply, answer ≠ .reply reply) →
      (∀ event id, payments.verify_webhook raw_body signature = .ok event →
        event.event_id = .str id → db.tables.processed payments.name id = false) →
      Delivery payments raw_body signature db (db, answer)

/-- A failure is no reply of the route. -/
theorem Answer.failed_ne_reply (reply : Reply) : Answer.failed ≠ .reply reply := by
  intro h
  cases h

/-- Nor is a rejection. -/
theorem Answer.httpException_ne_reply {error : HTTPException} (reply : Reply) :
    Answer.httpException error ≠ .reply reply := by
  intro h
  cases h

/-- **One delivery.** -/
theorem delivery (payments : Adapter F) (raw_body : List UInt8) (signature : String)
    (db : Database) :
    Delivery payments raw_body signature db (webhook payments raw_body signature db) := by
  cases hverify : payments.verify_webhook raw_body signature with
  | error error =>
      have hnone : ∀ event id, payments.verify_webhook raw_body signature = .ok event →
          event.event_id = .str id → db.tables.processed payments.name id = false := by
        intro event id hevent
        rw [hverify] at hevent
        cases hevent
      simp only [webhook, hverify]
      cases error with
      | verification message => exact .raised Answer.httpException_ne_reply hnone
      | unicodeDecodeError | python error => exact .raised Answer.failed_ne_reply hnone
  | ok event =>
      have hsame : ∀ event' id, payments.verify_webhook raw_body signature = .ok event' →
          event'.event_id = .str id → event.event_id = .str id := by
        intro event' id hevent hid
        obtain rfl := Except.ok.inj (hverify.symm.trans hevent)
        exact hid
      simp only [webhook, hverify]
      split
      · rename_i id hid
        split
        · rename_i hprocessed
          exact .duplicate hverify hid hprocessed
        · rename_i hnew
          rw [Bool.not_eq_true] at hnew
          have hraised : Delivery payments raw_body signature db (db, .failed) := by
            refine .raised Answer.failed_ne_reply fun event' id' hevent hid' => ?_
            rwa [← Value.str.inj (hid.symm.trans (hsame event' id' hevent hid'))]
          cases hhandled : event.handled payments.scalars db with
          | none => exact hraised
          | some normalized =>
              have hnormalized := Value.str.inj
                (hid.symm.trans (AdapterEvent.event_id_of_handled hhandled))
              have hout := outcome payments.name normalized db
              rw [Option.map_some]
              generalize payments_webhook payments.name normalized db = result at hout
              cases hout with
              | duplicate hp =>
                  rw [Database.Processed, ← hnormalized, hnew] at hp
                  cases hp
              | noted _ _ _ ht =>
                  refine .ok hverify hid hnew fun id' => ?_
                  rw [ht, processed_addProcessed, hnormalized]
              | synced o _ _ _ _ _ _ ht =>
                  refine .ok hverify hid hnew fun id' => ?_
                  rw [ht, processed_written, hnormalized]
              | unrecordable | unsearchable | unwritable | taken | ambiguous => exact hraised
      · rename_i hnone
        refine .raised Answer.failed_ne_reply fun event' id hevent hid => ?_
        exact absurd (hsame event' id hevent hid) (hnone id)

/-! ### Histories -/

/-- The databases that deliveries to the adapter lead to, with the documents that have been
processed. Other transactions may do anything but note ids of this adapter. -/
inductive Razorpay.History (razorpay : Razorpay F) : List (Value F) → Database → Prop
  | start {db : Database} (h : ∀ id, db.tables.processed "razorpay" id = false) :
      History razorpay [] db
  | processed {documents : List (Value F)} {db db' : Database} {raw_body : List UInt8}
      {signature : String} {document : Value F} {event : AdapterEvent F}
      (history : History razorpay documents db)
      (verified : razorpay.Verified raw_body signature document event)
      (reply : webhook (.razorpay razorpay) raw_body signature db = (db', .reply .ok)) :
      History razorpay (document :: documents) db'
  | refused {documents : List (Value F)} {db : Database} (raw_body : List UInt8)
      (signature : String) (history : History razorpay documents db)
      (answer : (webhook (.razorpay razorpay) raw_body signature db).2 ≠ .reply .ok) :
      History razorpay documents (webhook (.razorpay razorpay) raw_body signature db).1
  | other {documents : List (Value F)} {db db' : Database}
      (history : History razorpay documents db)
      (noted : ∀ id, db'.tables.processed "razorpay" id = db.tables.processed "razorpay" id) :
      History razorpay documents db'

namespace Razorpay

/-- **What is noted after any history**: the words of the documents that have been processed. -/
theorem History.processed_iff (h : razorpay.History documents db) (id : String) :
    db.tables.processed "razorpay" id = true ↔
      ∃ document ∈ documents,
        Razorpay.idWords razorpay.scalars document = .ok (id.toList.splitOn ':') := by
  induction h generalizing id with
  | start h => simp [h id]
  | @processed documents db db' raw_body signature document event history verified reply ih =>
      have hdelivery := delivery (.razorpay razorpay) raw_body signature db
      rw [reply] at hdelivery
      cases hdelivery with
      | raised hne => exact absurd rfl (hne .ok)
      | @ok event' noted db' hverify hid hnew hnoted =>
          obtain ⟨id', hid', hwords⟩ := verified.idWords
          obtain rfl := Except.ok.inj (verified.verify_webhook.symm.trans hverify)
          obtain rfl := Value.str.inj (hid.symm.trans hid')
          change ∀ id', db'.tables.processed "razorpay" id' =
            (decide (id' = noted) || db.tables.processed "razorpay" id') at hnoted
          rw [hnoted, Bool.or_eq_true, ih, decide_eq_true_iff, List.exists_mem_cons_iff, hwords]
          refine or_congr_left ⟨fun h => by rw [h], fun h => ?_⟩
          exact (eq_of_splitOn (Except.ok.inj h)).symm
  | @refused documents db raw_body signature history answer ih =>
      have hdelivery := delivery (.razorpay razorpay) raw_body signature db
      generalize webhook (.razorpay razorpay) raw_body signature db = result at hdelivery answer
      cases hdelivery with
      | duplicate | raised => exact ih id
      | ok => exact absurd rfl answer
  | other history noted ih => rw [noted, ih]

/-- **Which bodies are answered `duplicate`** after any history: those whose three fields have the
words of a document that has been processed. -/
theorem History.duplicate_iff (h : razorpay.History documents db)
    (hverified : razorpay.Verified raw_body signature document event) :
    (webhook (.razorpay razorpay) raw_body signature db).2 = .reply .duplicate ↔
      ∃ document' ∈ documents, Razorpay.idWords razorpay.scalars document' =
        Razorpay.idWords razorpay.scalars document := by
  obtain ⟨id, hid, hwords⟩ := hverified.idWords
  rw [hwords, ← h.processed_iff id]
  have hdelivery := delivery (.razorpay razorpay) raw_body signature db
  generalize webhook (.razorpay razorpay) raw_body signature db = result at hdelivery
  cases hdelivery with
  | @duplicate event' id' hverify hid' hprocessed =>
      obtain rfl := Except.ok.inj (hverified.verify_webhook.symm.trans hverify)
      obtain rfl := Value.str.inj (hid.symm.trans hid')
      exact iff_of_true rfl hprocessed
  | @ok event' id' db' hverify hid' hnew hnoted =>
      obtain rfl := Except.ok.inj (hverified.verify_webhook.symm.trans hverify)
      obtain rfl := Value.str.inj (hid.symm.trans hid')
      exact iff_of_false (fun h => nomatch h) (Bool.eq_false_iff.mp hnew)
  | raised hne hnew =>
      refine iff_of_false (hne .duplicate) (Bool.eq_false_iff.mp ?_)
      exact hnew event id hverified.verify_webhook hid

/-- The contents are equal and so are the words of the three fields, or both differ. -/
def Told (S : Scalars F) (document document' : Value F) : Prop :=
  Same document document' ∧ idWords S document = idWords S document' ∨
    ¬ Same document document' ∧ idWords S document ≠ idWords S document'

/-- Where the three fields are scalars, as they are in what Razorpay sends, only differing contents
have to be told. -/
theorem Verified.told_iff (h : razorpay.Verified raw_body signature document event)
    (hscalar : ScalarFields document) :
    Told razorpay.scalars document document' ↔
      (¬ Same document document' →
        Razorpay.idWords razorpay.scalars document ≠
          Razorpay.idWords razorpay.scalars document') := by
  constructor
  · rintro (⟨hsame, -⟩ | ⟨-, hne⟩) hdiffer
    · exact absurd hsame hdiffer
    · exact hne
  · intro htold
    by_cases hsame : Same document document'
    · obtain ⟨id, -, hwords⟩ := h.idWords
      exact .inl ⟨hsame, hwords.trans (idWords_of_same hscalar hsame hwords).symm⟩
    · exact .inr ⟨hsame, htold hsame⟩

/-- The ids are as different as the contents. -/
structure Keyed (document document' : Value F) (event event' : AdapterEvent F) : Prop where
  differ : ¬ Same document document' → event.event_id ≠ event'.event_id
  equal : Same document document' → event.event_id = event'.event_id

end Razorpay

/-- **When ids are as different as contents**, for two bodies of the adapter: exactly if their
contents are told by the words of the three fields. In every history of such bodies, an answer
`duplicate` goes to a document that has been processed. -/
theorem event_ids (razorpay : Razorpay F) :
    (∀ raw_body signature document event raw_body' signature' document' event',
      razorpay.Verified raw_body signature document event →
      razorpay.Verified raw_body' signature' document' event' →
      (Razorpay.Keyed document document' event event' ↔
        Razorpay.Told razorpay.scalars document document')) ∧
    ∀ documents db, razorpay.History documents db →
      ∀ raw_body signature document event,
        razorpay.Verified raw_body signature document event →
        (∀ document' ∈ documents, Razorpay.Told razorpay.scalars document' document) →
        (webhook (.razorpay razorpay) raw_body signature db).2 = .reply .duplicate →
        ∃ document' ∈ documents, Same document' document := by
  constructor
  · intro raw_body signature document event raw_body' signature' document' event' h h'
    have heq := h.event_id_eq_iff h'
    constructor
    · rintro ⟨hdiffer, hequal⟩
      by_cases hsame : Same document document'
      · exact .inl ⟨hsame, heq.mp (hequal hsame)⟩
      · exact .inr ⟨hsame, fun hwords => hdiffer hsame (heq.mpr hwords)⟩
    · rintro (⟨hsame, hwords⟩ | ⟨hdiffer, hwords⟩)
      · exact ⟨fun hne => absurd hsame hne, fun _ => heq.mpr hwords⟩
      · exact ⟨fun _ hid => hwords (heq.mp hid), fun hsame => absurd hsame hdiffer⟩
  · intro documents db history raw_body signature document event h htold hduplicate
    obtain ⟨document', hmem, hwords⟩ := (history.duplicate_iff h).mp hduplicate
    refine ⟨document', hmem, ?_⟩
    rcases htold document' hmem with ⟨hsame, -⟩ | ⟨-, hne⟩
    · exact hsame
    · exact absurd hwords hne

/-! ### Two plan changes in one second -/

/-- The body of a plan change, as it is sent. -/
def updatedBody (plan_id : String) : String :=
  "\x7b\"event\":\"subscription.updated\",\"created_at\":1700000000,\"payload\":\x7b" ++
    "\"subscription\":\x7b\"entity\":\x7b\"id\":\"sub_2\",\"customer_id\":\"cus_1\"," ++
    "\"status\":\"active\",\"plan_id\":\"" ++ plan_id ++ "\"\x7d\x7d\x7d\x7d"

/-- Different plans are sent in different bodies. -/
theorem updatedBody_injective : Function.Injective updatedBody := fun _ _ h =>
  String.append_right_inj _ |>.mp (String.append_left_inj _ |>.mp h)

/-- The subscription in it. -/
def updatedEntity (plan_id : String) : Value Empty :=
  .dict [("id", .str "sub_2"), ("customer_id", .str "cus_1"), ("status", .str "active"),
    ("plan_id", .str plan_id)]

/-- What `json.loads` makes of it. -/
def updatedDocument (plan_id : String) : Value Empty :=
  .dict [("event", .str "subscription.updated"), ("created_at", .int 1700000000),
    ("payload", .dict [("subscription", .dict [("entity", updatedEntity plan_id)])])]

/-- The event of a plan change. -/
def updatedEvent (plan : String) : AdapterEvent Empty :=
  ⟨.str "subscription.updated:sub_2:1700000000", .updated, .str "sub_2", .str "active", plan, none,
    .str "cus_1"⟩

/-- The event, as annotated. -/
def updatedPayment (plan : String) : PaymentEvent :=
  ⟨"subscription.updated:sub_2:1700000000", .updated, some "sub_2", some "active", some plan,
    none, some "cus_1"⟩

/-- The event of a plan change has the types that it is annotated with. -/
theorem annotated_updatedEvent (plan : String) :
    (updatedEvent plan).annotated = some (updatedPayment plan) := rfl

/-- The adapter with two plans; it parses the bodies of their changes. -/
def twoPlans : Razorpay Empty where
  scalars := noFloats
  verify_webhook_signature _ signature _ :=
    if signature = "good" then .ok () else .error "Razorpay Signature Verification Failed"
  loads raw_body :=
    if raw_body = utf8 (updatedBody "plan_pro") then some (updatedDocument "plan_pro")
    else if raw_body = utf8 (updatedBody "plan_ent") then some (updatedDocument "plan_ent")
    else none
  razorpay_webhook_secret := some "whsec"
  razorpay_plan_to_plan_id := [("pro", "plan_pro"), ("enterprise", "plan_ent")]

/-- The body of the change to the first plan is parsed as its document. -/
theorem loads_twoPlans_pro :
    twoPlans.loads (utf8 (updatedBody "plan_pro")) = some (updatedDocument "plan_pro") := by
  simp only [twoPlans, if_true]

/-- And that of the change to the second one. -/
theorem loads_twoPlans_ent :
    twoPlans.loads (utf8 (updatedBody "plan_ent")) = some (updatedDocument "plan_ent") := by
  have hne : utf8 (updatedBody "plan_ent") ≠ utf8 (updatedBody "plan_pro") := fun heq =>
    absurd (updatedBody_injective (utf8_injective heq)) (by decide)
  simp only [twoPlans, if_neg hne, if_true]

/-- A body that is parsed and has a known plan is verified under the signature that the adapter
accepts. -/
theorem verify_webhook_twoPlans {plan_id plan : String}
    (hloads : twoPlans.loads (utf8 (updatedBody plan_id)) = some (updatedDocument plan_id))
    (hevent : twoPlans._to_payment_event (updatedDocument plan_id) = .ok (updatedEvent plan)) :
    twoPlans.Verified (utf8 (updatedBody plan_id)) "good" (updatedDocument plan_id)
      (updatedEvent plan) where
  loads := hloads
  verify_webhook := by
    have hsignature : twoPlans.verify_webhook_signature (updatedBody plan_id) "good"
        (orElse twoPlans.razorpay_webhook_secret "") = .ok () := rfl
    rw [Razorpay.verify_webhook, decodeUtf8_eq_some_iff.mpr rfl]
    simp only [hsignature, hloads, hevent]
    rfl

/-- The change to the first plan is verified. -/
theorem verified_pro : twoPlans.Verified (utf8 (updatedBody "plan_pro")) "good"
    (updatedDocument "plan_pro") (updatedEvent "pro") :=
  verify_webhook_twoPlans loads_twoPlans_pro rfl

/-- And so is the change to the second one. -/
theorem verified_ent : twoPlans.Verified (utf8 (updatedBody "plan_ent")) "good"
    (updatedDocument "plan_ent") (updatedEvent "enterprise") :=
  verify_webhook_twoPlans loads_twoPlans_ent rfl

/-- The customer after the change to the plan "pro". -/
def onPro : Database where
  tables :=
    { organizations := [⟨Uuid.ofNat 1, some "cus_1"⟩]
      subscriptions := [⟨Uuid.ofNat 1, "razorpay", "sub_2", "active", "pro", none⟩]
      processed_events :=
        [⟨"razorpay", "subscription.updated:sub_2:1700000000", "subscription.updated"⟩] }
  valid := by decide

/-- The first change is processed, and the customer is on its plan. -/
theorem webhook_pro :
    webhook (.razorpay twoPlans) (utf8 (updatedBody "plan_pro")) "good" oneCustomer =
      (onPro, .reply .ok) := by
  rw [verified_pro.webhook (annotated_updatedEvent _)]
  rfl

/-- It makes a history of one delivery. -/
theorem history_pro : twoPlans.History [updatedDocument "plan_pro"] onPro :=
  .processed (.start fun _ => rfl) verified_pro webhook_pro

/-- The two changes have different contents: they name different plans. -/
theorem not_same_updated :
    ¬ Same (updatedDocument "plan_pro") (updatedDocument "plan_ent") := by
  intro h
  have hentity : ∀ plan_id, Razorpay.entity (updatedDocument plan_id) =
      .ok (updatedEntity plan_id) := fun _ => rfl
  have hplan : ∀ plan_id, (updatedEntity plan_id).get "plan_id" .null = .ok (.str plan_id) :=
    fun _ => rfl
  obtain ⟨entity, hent, hsame⟩ := entity_of_same h (hentity _)
  obtain rfl := Except.ok.inj ((hentity _).symm.trans hent)
  have hnull : Same (.null : Value Empty) .null := .scalar trivial
  obtain ⟨v, hv, hsame⟩ := hsame.get hnull (hplan _)
  obtain rfl := Except.ok.inj ((hplan _).symm.trans hv)
  exact absurd (Value.str.inj (hsame.eq_of_isScalar trivial)) (by decide)

/-- The same change once more: its id is that of the first delivery, and so is its content. -/
theorem event_ids_replay :
    Razorpay.Keyed (updatedDocument "plan_pro") (updatedDocument "plan_pro")
        (updatedEvent "pro") (updatedEvent "pro") ∧
      ∃ document' ∈ [updatedDocument "plan_pro"],
        Same document' (updatedDocument "plan_pro") := by
  have htold : Razorpay.Told twoPlans.scalars (updatedDocument "plan_pro")
      (updatedDocument "plan_pro") := .inl ⟨Same.refl _, rfl⟩
  refine ⟨((event_ids twoPlans).1 _ _ _ _ _ _ _ _ verified_pro verified_pro).mpr htold,
    (event_ids twoPlans).2 _ _ history_pro _ _ _ _ verified_pro ?_ ?_⟩
  · intro document' hmem
    rwa [List.mem_singleton.mp hmem]
  · rw [verified_pro.webhook (annotated_updatedEvent _)]
    rfl

/-- The second plan change has the id of the first. It is answered `duplicate`, and the customer
stays on the plan of the first. -/
theorem not_event_ids :
    twoPlans.Verified (utf8 (updatedBody "plan_pro")) "good" (updatedDocument "plan_pro")
        (updatedEvent "pro") ∧
      twoPlans.Verified (utf8 (updatedBody "plan_ent")) "good" (updatedDocument "plan_ent")
        (updatedEvent "enterprise") ∧
      ¬ Same (updatedDocument "plan_pro") (updatedDocument "plan_ent") ∧
      (updatedEvent "pro").event_id = (updatedEvent "enterprise").event_id ∧
      twoPlans.History [updatedDocument "plan_pro"] onPro ∧
      webhook (.razorpay twoPlans) (utf8 (updatedBody "plan_ent")) "good" onPro =
        (onPro, .reply .duplicate) ∧
      plan_for_org onPro (Uuid.ofNat 1) = .ok "pro" := by
  refine ⟨verified_pro, verified_ent, not_same_updated, rfl, history_pro, ?_, rfl⟩
  rw [verified_ent.webhook (annotated_updatedEvent _)]
  rfl

end BackendManager.Billing
