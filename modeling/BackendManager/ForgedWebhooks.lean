import BackendManager.PaymentAdapters

/-!
# Forged Webhooks

The webhook route answers `400` to what an adapter rejects with `WebhookVerificationError`. The
adapter of Stripe hands the bytes to its SDK and maps every error of it. The adapter of Razorpay
decodes the body first, before anything has been verified; a body that is no UTF-8 text ends with
a `UnicodeDecodeError`, to which the route has no answer.

The signature is verified by the SDKs, which are not part of the repository. What they do is a
parameter: on a forged request the one of Stripe raises an error of its own, and the one of
Razorpay an error that the adapter catches. The theorem is about every body and every signature
that is `Forged` in this sense, and says of both adapters at once which of these requests are
answered with `400` and leave the database as it was.

A sibling of the failing path is in the same adapter: the parser's errors are caught.

## Main results

* `verify_webhook_forged_iff`: which forged requests are rejected.
-/

namespace BackendManager.Billing

open Json (Value Scalars)
open Text (utf8 decodeUtf8 decodeUtf8_eq_some_iff)

variable {F : Type} {payments : Adapter F} {raw_body : List UInt8} {signature : String}
  {db : Database}

/-- The signature does not verify: not for the bytes, nor for a text that they encode. -/
def Adapter.Forged (payments : Adapter F) (raw_body : List UInt8) (signature : String) : Prop :=
  match payments with
  | .stripe adapter =>
      ∃ error, adapter.construct_event raw_body signature
        (orElse adapter.stripe_webhook_secret "") = .error error
  | .razorpay adapter =>
      ∀ body, utf8 body = raw_body → ∃ message,
        adapter.verify_webhook_signature body signature
          (orElse adapter.razorpay_webhook_secret "") = .error message

/-- The body is one that the adapter hands to its SDK: any bytes, or a text. -/
def Adapter.Readable (payments : Adapter F) (raw_body : List UInt8) : Prop :=
  match payments with
  | .stripe _ => True
  | .razorpay _ => ∃ body, utf8 body = raw_body

/-- The request is rejected: by the adapter, and by the route. -/
structure Adapter.Rejects (payments : Adapter F) (raw_body : List UInt8) (signature : String)
    (db : Database) : Prop where
  adapter : ∃ message, payments.verify_webhook raw_body signature = .error (.verification message)
  route : webhook payments raw_body signature db =
    (db, .httpException ⟨400, "Invalid webhook signature"⟩)

/-- The route answers `400` to what the adapter rejects. -/
theorem rejects_of_verification {message : String}
    (h : payments.verify_webhook raw_body signature = .error (.verification message)) :
    payments.Rejects raw_body signature db where
  adapter := ⟨message, h⟩
  route := by rw [webhook, h]

/-- A body that is no text. -/
theorem decodeUtf8_eq_none (h : ¬ ∃ body, utf8 body = raw_body) : decodeUtf8 raw_body = none := by
  cases hdecode : decodeUtf8 raw_body with
  | none => rfl
  | some body => exact absurd ⟨body, decodeUtf8_eq_some_iff.mp hdecode⟩ h

/-- **Which forged requests are rejected**: for Stripe all of them, for Razorpay those whose body
is a UTF-8 text. -/
theorem verify_webhook_forged_iff (payments : Adapter F) (raw_body : List UInt8)
    (signature : String) (db : Database) (h : payments.Forged raw_body signature) :
    payments.Rejects raw_body signature db ↔ payments.Readable raw_body := by
  cases payments with
  | stripe stripe =>
      refine iff_of_true ?_ trivial
      obtain ⟨error, herror⟩ := h
      cases error with
      | valueError message | signatureVerificationError message =>
          have hrejected : (Adapter.stripe stripe).verify_webhook raw_body signature =
              .error (.verification message) := by
            rw [Adapter.verify_webhook, Stripe.verify_webhook, herror]
          exact rejects_of_verification hrejected
  | razorpay razorpay =>
      constructor
      · rintro ⟨⟨message, hrejected⟩, -⟩
        by_contra hreadable
        rw [Adapter.verify_webhook, Razorpay.verify_webhook, decodeUtf8_eq_none hreadable]
          at hrejected
        cases hrejected
      · rintro ⟨body, hbody⟩
        obtain ⟨message, hmessage⟩ := h body hbody
        have hrejected : (Adapter.razorpay razorpay).verify_webhook raw_body signature =
            .error (.verification message) := by
          rw [Adapter.verify_webhook, Razorpay.verify_webhook, decodeUtf8_eq_some_iff.mpr hbody]
          simp only [hmessage]
        exact rejects_of_verification hrejected

/-! ### Two adapters that verify nothing -/

/-- JSON without floats. -/
def noFloats : Scalars Empty where
  reprFloat x := x.elim
  reprStr s := "'" ++ s ++ "'"
  isZero x := x.elim
  intFloat x := x.elim
  intStr _ := none
  lower := id
  lower_empty := rfl

/-- The SDK of Stripe parses the body before it verifies the signature. -/
def strictStripe : Adapter Empty := .stripe
  { scalars := noFloats
    construct_event := fun raw_body _ _ =>
      .error (if (decodeUtf8 raw_body).isSome then .signatureVerificationError "no match"
        else .valueError "not a text")
    stripe_webhook_secret := some "whsec"
    stripe_plan_to_price := [("pro", "price_pro")] }

/-- The SDK of Razorpay verifies nothing. -/
def strictRazorpay : Adapter Empty := .razorpay
  { scalars := noFloats
    verify_webhook_signature := fun _ _ _ => .error "Razorpay Signature Verification Failed"
    loads := fun _ => none
    razorpay_webhook_secret := some "whsec"
    razorpay_plan_to_plan_id := [("pro", "plan_pro")] }

/-- The database without rows. -/
def noRows : Database where
  tables := ⟨[], [], []⟩
  valid := by decide

theorem forged_strictStripe (raw_body : List UInt8) (signature : String) :
    strictStripe.Forged raw_body signature := ⟨_, rfl⟩

theorem forged_strictRazorpay (raw_body : List UInt8) (signature : String) :
    strictRazorpay.Forged raw_body signature := fun _ _ => ⟨_, rfl⟩

/-- Both adapters reject bodies under signatures that are not theirs. -/
theorem verify_webhook_forged_text :
    strictStripe.Rejects [0xff] "forged" noRows ∧
      strictRazorpay.Rejects (utf8 "\x7b\x7d") "forged" noRows :=
  ⟨(verify_webhook_forged_iff strictStripe [0xff] "forged" noRows
      (forged_strictStripe _ _)).mpr trivial,
    (verify_webhook_forged_iff strictRazorpay (utf8 "\x7b\x7d") "forged" noRows
      (forged_strictRazorpay _ _)).mpr ⟨"\x7b\x7d", rfl⟩⟩

/-- The byte `0xff` is no text: the adapter of Razorpay fails on it, and so does the route. -/
theorem not_verify_webhook_forged :
    strictRazorpay.Forged [0xff] "forged" ∧
      strictRazorpay.verify_webhook [0xff] "forged" = .error .unicodeDecodeError ∧
      webhook strictRazorpay [0xff] "forged" noRows = (noRows, .failed) := by
  have hdecode : decodeUtf8 [0xff] = none := by decide +kernel
  have hraised : strictRazorpay.verify_webhook [0xff] "forged" = .error .unicodeDecodeError := by
    rw [strictRazorpay, Adapter.verify_webhook, Razorpay.verify_webhook, hdecode]
  exact ⟨forged_strictRazorpay _ _, hraised, by rw [webhook, hraised]⟩

end BackendManager.Billing
