import BackendManager.Migrations

/-!
# What Each Migration Does

The upgrade of every revision turns the schema before it into the schema after it, and its downgrade
turns that back, on a database with any rows.

The tables of a configuration after a number of revisions are given by `Answers.tables`. For
each revision there is one lemma that its script, run on any database of the schema before it,
succeeds and leaves a database of the schema after it; the lemmas of
`BackendManager.SchemaScripts` are composed in the order of the statements, so that no proof
here looks at a row. What a lemma has to know of the answers is that the revision is generated,
and for the policies and for metering that the answers are ones that the template accepts.

A downgrade may drop a table because no foreign key of another one refers to it at that position
(`Free`); the three tables for which this depends on the position are `organizations`, `user`
and `customer_wallets`.

## Main results

* `turns_upgrade`, `turns_downgrade`: one revision.
-/

namespace BackendManager.Migrations

open SchemaChanges

variable {V : Type} [DecidableEq V] {default : String → V} {a : Answers} {postgresql : Bool}
  {T T' T'' : TableName → Option (Table TableName ColumnType)}

attribute [local simp] Answers.tables present secured Answers.done Revision.number
  Answers.generated

/-- The two versions of the table are created without a policy. -/
theorem plain_audit_logs : (audit_logs a).plain = true := by
  unfold audit_logs
  cases a.tenancy <;> decide

/-! ### Policies -/

/-- Protecting a list of tables, one after the other, secures exactly these. The induction is on
the list: each table is still unprotected when its turn comes. -/
theorem turns_protect (l : List TableName) (hnodup : l.Nodup)
    (h : ∀ n ∈ l, ∃ t, T n = some t ∧ t.hasColumn "organization_id" = true ∧ t.policies = []) :
    Turns V default (l.flatMap (protect · tenant_isolation)) T
      fun n => if n ∈ l then (T n).map (secured true) else T n := by
  induction l generalizing T with
  | nil => exact Turns.congr Turns.nil (by simp)
  | cons n l ih =>
      obtain ⟨hn, hnodup⟩ := List.nodup_cons.mp hnodup
      obtain ⟨t, ht, hcolumn, hpolicies⟩ := h n List.mem_cons_self
      have hother : ∀ m ∈ l, m ≠ n := by
        rintro m hm rfl
        exact hn hm
      have hfirst : Turns V default (protect n tenant_isolation) T
          (Function.update T n (some (secured true t))) :=
        Turns.protect ht (by simpa [tenant_isolation] using hcolumn) (by simp [hpolicies])
      have hrest : Turns V default (l.flatMap (protect · tenant_isolation))
          (Function.update T n (some (secured true t))) _ :=
        ih hnodup fun m hm => by simpa [hother m hm] using h m (List.mem_cons_of_mem _ hm)
      refine Turns.congr (hfirst.append hrest) (funext fun m => ?_)
      by_cases hmn : m = n
      · subst m
        simp [hn, ht]
      · simp [hmn]

/-- The table without its policy. -/
def unsecured (t : Table TableName ColumnType) : Table TableName ColumnType :=
  { t with
    row_security := false
    policies := t.policies.filter fun p => p.name ≠ tenant_isolation.name }

/-- And the statements of the downgrade take the protection of exactly these tables away. -/
theorem turns_unprotect (l : List TableName) (hnodup : l.Nodup) (h : ∀ n ∈ l, T n ≠ none) :
    Turns V default (l.flatMap (unprotect · tenant_isolation.name)) T
      fun n => if n ∈ l then (T n).map unsecured else T n := by
  induction l generalizing T with
  | nil => exact Turns.congr Turns.nil (by simp)
  | cons n l ih =>
      obtain ⟨hn, hnodup⟩ := List.nodup_cons.mp hnodup
      obtain ⟨t, ht⟩ := Option.ne_none_iff_exists'.mp (h n List.mem_cons_self)
      have hother : ∀ m ∈ l, m ≠ n := by
        rintro m hm rfl
        exact hn hm
      have hfirst : Turns V default (unprotect n tenant_isolation.name) T
          (Function.update T n (some (unsecured t))) := Turns.unprotect ht
      have hrest : Turns V default (l.flatMap (unprotect · tenant_isolation.name))
          (Function.update T n (some (unsecured t))) _ :=
        ih hnodup fun m hm => by simpa [hother m hm] using h m (List.mem_cons_of_mem _ hm)
      refine Turns.congr (hfirst.append hrest) (funext fun m => ?_)
      by_cases hmn : m = n
      · subst m
        simp [hn, ht]
      · simp [hmn]

/-- No table is protected twice by the first revision. -/
theorem nodup_rls_tables : a.rls_tables.Nodup := by
  rw [Answers.rls_tables]
  cases a.include_api_keys <;> cases a.include_billing <;> cases a.include_webhooks <;>
    cases a.include_audit <;> decide

/-- Nor by the second one. -/
theorem nodup_late_tables : a.late_tables.Nodup := by
  rw [Answers.late_tables]
  cases a.include_webhooks <;> cases a.include_metering <;> decide

/-! ### Upgrades -/

/-- From the second revision on, a foreign key to `organizations` has a table and a key column to
refer to. -/
theorem keyed_organizations {k : ℕ} (ht : a.tenancy = true) (hk : 2 ≤ k) (column : String) :
    keyed (a.tables postgresql k) (cascades column .organizations) = true := by
  simp [keyed, cascades, ht, hk]
  split <;> simp [paying_organizations, organizations, table]

/-- The first revision creates the users and the table of the sample route. -/
theorem turns_initial_schema (hr : a.users = true) :
    Turns V default (a.upgrade postgresql .initial_schema) (a.tables postgresql 0)
      (a.tables postgresql 1) := by
  refine Turns.congr ((Turns.create ?_ ?_ ?_).append (Turns.create ?_ ?_ ?_)) (funext fun n => ?_)
  · simp
  · decide
  · simp [items, table]
  · simp
  · decide
  · simp [user, table]
  · cases n <;> simp [hr]

/-- Organisations, and memberships that refer to them and to the users of the revision before. -/
theorem turns_tenancy (hr : a.tenancy = true) :
    Turns V default (a.upgrade postgresql .tenancy) (a.tables postgresql 1)
      (a.tables postgresql 2) := by
  have hu := Answers.users_of_tenancy hr
  refine Turns.congr ((Turns.create ?_ ?_ ?_).append (Turns.create ?_ ?_ ?_)) (funext fun n => ?_)
  · simp
  · decide
  · simp [organizations, table]
  · simp
  · decide
  · simp [memberships, table, cascades, keyed, organizations, user, hu]
  · cases n <;> simp [hr, hu]

/-- The keys of an organisation, which refer to it. -/
theorem turns_api_keys (hr : a.include_api_keys = true) :
    Turns V default (a.upgrade postgresql .api_keys) (a.tables postgresql 2)
      (a.tables postgresql 3) := by
  have ht : a.tenancy = true := by simp [Answers.tenancy, hr]
  have hu := Answers.users_of_tenancy ht
  refine Turns.congr (Turns.create ?_ ?_ ?_) (funext fun n => ?_)
  · simp
  · decide
  · simp [api_keys, table, cascades, keyed, organizations, user, hu, ht]
  · cases n <;> simp [hr, hu, ht]

/-- The revision of billing adds a nullable column to `organizations`, with its unique index, and
creates two tables. -/
theorem turns_billing (hr : a.include_billing = true) :
    Turns V default (a.upgrade postgresql .billing) (a.tables postgresql 3)
      (a.tables postgresql 4) := by
  have ht : a.tenancy = true := by simp [Answers.tenancy, hr]
  have hu := Answers.users_of_tenancy ht
  have horganizations : a.tables postgresql 3 .organizations = some organizations := by simp [ht]
  refine Turns.congr (((Turns.add_unique horganizations ?_ ?_ ?_ ?_ ?_).append
    (Turns.create ?_ ?_ ?_)).append (Turns.create ?_ ?_ ?_)) (funext fun n => ?_)
  · decide
  · rfl
  · rfl
  · rfl
  · decide
  · simp
  · decide
  · simp [subscriptions, table, cascades, keyed, organizations]
  · simp
  · decide
  · simp [processed_events, table]
  · cases n <;> simp [hr, hu, ht, paying_organizations]

/-- The audit table refers to nothing if it is alone, and to organisations and users where they
exist. -/
theorem turns_audit (hr : a.include_audit = true) :
    Turns V default (a.upgrade postgresql .audit) (a.tables postgresql 4)
      (a.tables postgresql 5) := by
  refine Turns.congr (Turns.create ?_ plain_audit_logs ?_) (funext fun n => ?_)
  · simp
  · cases ht : a.tenancy <;> simp [audit_logs, table, cascades, keyed, ht]
    split <;> simp [paying_organizations, organizations, table]
  · cases n <;> simp [hr]

/-- The endpoints of an organisation. -/
theorem turns_webhooks (hr : a.include_webhooks = true) :
    Turns V default (a.upgrade postgresql .webhooks) (a.tables postgresql 5)
      (a.tables postgresql 6) := by
  have ht : a.tenancy = true := by simp [Answers.tenancy, hr]
  refine Turns.congr (Turns.create ?_ ?_ ?_) (funext fun n => ?_)
  · simp
  · decide
  · simp [webhook_endpoints, table, cascades, keyed, ht]
    split <;> simp [paying_organizations, organizations, table]
  · cases n <;> simp [hr]

/-- A column with a default for the users that are already there, and the table of the refresh
tokens. -/
theorem turns_auth_sessions (hr : a.users = true) :
    Turns V default (a.upgrade postgresql .auth_sessions) (a.tables postgresql 6)
      (a.tables postgresql 7) := by
  have huser : a.tables postgresql 6 .user = some user := by simp [hr]
  have hadd : Turns V default [.add_column .user token_version] (a.tables postgresql 6) _ :=
    Turns.add_column huser (by decide) rfl
  refine Turns.congr (hadd.append (Turns.create ?_ ?_ ?_)) (funext fun n => ?_)
  · simp
  · decide
  · simp [refresh_tokens, table, cascades, keyed, user]
  · cases n <;> simp [hr, versioned_user]

/-- The tables that have existed up to here and that belong to a tenant get their policy. `Valid`
is needed because the revision counts on the tables of the answers it implies. -/
theorem turns_rls (hv : a.Valid) (hr : a.include_rls = true) :
    Turns V default (a.upgrade postgresql .rls) (a.tables postgresql 7)
      (a.tables postgresql 8) := by
  have ht : a.tenancy = true := by simp [Answers.tenancy, hv.include_rls hr]
  cases postgresql with
  | false => exact Turns.congr Turns.nil (funext fun n => by cases n <;> simp)
  | true =>
      refine Turns.congr (turns_protect a.rls_tables nodup_rls_tables fun n hn => ?_)
        (funext fun n => ?_)
      · cases n <;> simp_all [Answers.rls_tables, audit_logs] <;> decide
      · cases n <;> simp +contextual [Answers.rls_tables, hr]

/-- The outbox has no foreign key: an event outlives its organisation. -/
theorem turns_outbox (hr : a.include_webhooks = true) :
    Turns V default (a.upgrade postgresql .outbox) (a.tables postgresql 8)
      (a.tables postgresql 9) := by
  refine Turns.congr (Turns.create ?_ ?_ ?_) (funext fun n => ?_)
  · simp
  · decide
  · simp [outbox_events, table]
  · cases n <;> simp [hr]

/-- The claims of idempotent requests. -/
theorem turns_idempotency (hr : a.include_idempotency = true) :
    Turns V default (a.upgrade postgresql .idempotency) (a.tables postgresql 9)
      (a.tables postgresql 10) := by
  refine Turns.congr (Turns.create ?_ ?_ ?_) (funext fun n => ?_)
  · simp
  · decide
  · simp [idempotency_keys, table]
  · cases n <;> simp [hr]

/-- Four tables that refer to each other: usage and invoices to organisations, wallets to
organisations, and transactions to wallets. -/
theorem turns_metering (hv : a.Valid) (hr : a.include_metering = true) :
    Turns V default (a.upgrade postgresql .metering) (a.tables postgresql 10)
      (a.tables postgresql 11) := by
  have horganization : keyed (a.tables postgresql 10) (cascades "organization_id" .organizations) =
      true := keyed_organizations (hv.include_metering hr) (by decide) _
  refine Turns.congr ((((Turns.create ?_ ?_ ?_).append (Turns.create ?_ ?_ ?_)).append
    (Turns.create ?_ ?_ ?_)).append (Turns.create ?_ ?_ ?_)) (funext fun n => ?_)
  · simp
  · decide
  · intro fk hfk
    obtain rfl := List.mem_singleton.mp hfk
    exact horganization
  · simp
  · decide
  · intro fk hfk
    obtain rfl := List.mem_singleton.mp hfk
    rw [keyed_update (by decide)]
    exact horganization
  · simp
  · decide
  · intro fk hfk
    obtain rfl := List.mem_singleton.mp hfk
    rw [keyed_update (by decide), keyed_update (by decide)]
    exact horganization
  · simp
  · decide
  · simp [wallet_transactions, table, cascades, keyed, customer_wallets]
  · cases n <;> simp [hr]

/-- Every wallet transaction has a wallet, and every wallet an organisation. -/
theorem denormalizes_wallet_transactions :
    Denormalizes wallet_transactions customer_wallets .customer_wallets "organization_id"
      "organization_id" "id" "wallet_id" (cascades "organization_id" .organizations) where
  visible := ⟨rfl, rfl⟩
  new := by decide
  unused := by decide
  parent_key := ⟨cascades "wallet_id" .customer_wallets, List.mem_singleton.mpr rfl, rfl, rfl, rfl⟩
  has_parent := ⟨required "wallet_id" .GUID, by decide, rfl, rfl⟩
  key := rfl
  has_source := ⟨required "organization_id" .GUID, by decide, rfl, rfl⟩
  source_key :=
    ⟨cascades "organization_id" .organizations, List.mem_singleton.mpr rfl, rfl, rfl, rfl⟩
  column := rfl

/-- The organisation of a transaction becomes a column of its own, filled from the wallet before it
is made required. -/
theorem turns_wallet_org (hr : a.include_metering = true) :
    Turns V default (a.upgrade postgresql .wallet_org) (a.tables postgresql 11)
      (a.tables postgresql 12) := by
  have hwallet : a.tables postgresql 11 .wallet_transactions = some wallet_transactions := by
    simp [hr]
  have hparent : a.tables postgresql 11 .customer_wallets = some customer_wallets := by
    simp [hr]
  refine Turns.congr (Turns.denormalize denormalizes_wallet_transactions hwallet hparent ?_ ?_)
    (funext fun n => ?_)
  · decide
  · decide
  · cases n <;> simp [hr, owned_wallet_transactions, index]

/-- The tables that are younger than the first revision of policies get theirs. -/
theorem turns_rls_backfill (hr : a.include_rls = true) :
    Turns V default (a.upgrade postgresql .rls_backfill) (a.tables postgresql 12)
      (a.tables postgresql 13) := by
  cases postgresql with
  | false => exact Turns.congr Turns.nil (funext fun n => by cases n <;> simp)
  | true =>
      refine Turns.congr (turns_protect a.late_tables nodup_late_tables fun n hn => ?_)
        (funext fun n => ?_)
      · cases n <;> simp_all [Answers.late_tables] <;> decide
      · cases n <;> simp +contextual [Answers.late_tables, hr]

/-! ### Downgrades -/

/-- A policy changes no foreign key. -/
theorem secured_foreign_keys (on : Bool) (t : Table TableName ColumnType) :
    (secured on t).foreign_keys = t.foreign_keys := by
  cases on <;> rfl

/-- The tables that others refer to. -/
theorem target_mem {k : ℕ} {n : TableName} {t : Table TableName ColumnType}
    {fk : ForeignKey TableName} (ht : a.tables postgresql k n = some t)
    (hfk : fk ∈ t.foreign_keys) :
    fk.target ∈ [TableName.organizations, .user] ∨
      n = .wallet_transactions ∧ fk.target = .customer_wallets := by
  cases n <;>
    simp only [Answers.tables, present, Option.ite_none_right_eq_some, Option.some.injEq] at ht <;>
    obtain ⟨-, rfl⟩ := ht <;>
    (try rw [secured_foreign_keys] at hfk) <;>
    (try split at hfk) <;>
    simp_all [items, user, versioned_user, organizations, paying_organizations, memberships,
      api_keys, subscriptions, processed_events, audit_logs, webhook_endpoints, refresh_tokens,
      outbox_events, idempotency_keys, usage_events, invoices, customer_wallets,
      wallet_transactions, owned_wallet_transactions, Table.denormalized, table, cascades]
  all_goals rcases hfk with rfl | rfl <;> simp

/-- No table refers to this one. -/
def Free (T : TableName → Option (Table TableName ColumnType)) (n : TableName) : Prop :=
  ∀ m, m ≠ n → ∀ u ∈ T m, ∀ fk ∈ u.foreign_keys, fk.target ≠ n

/-- No foreign key refers to a table other than these three, so that it may be dropped at any
position. -/
theorem free_tables {k : ℕ} {n : TableName}
    (hn : n ∉ [TableName.organizations, .user, .customer_wallets]) :
    Free (a.tables postgresql k) n := by
  rintro m - u hu fk hfk rfl
  rcases target_mem hu hfk with htarget | ⟨-, htarget⟩
  · exact hn (List.mem_append_left [TableName.customer_wallets] htarget)
  · rw [htarget] at hn
    exact hn (by decide)

/-- A table that nothing refers to stays so when another one is dropped. -/
theorem Free.drop {n m : TableName} (h : Free T n) : Free (Function.update T m none) n := by
  intro l hl u hu fk hfk
  by_cases hlm : l = m
  · simp [hlm] at hu
  · exact h l hl u (by simpa [hlm] using hu) fk hfk

/-- The downgrade of the first revision drops what it has created and leaves an empty schema. -/
theorem turns_back_initial_schema (hr : a.users = true) :
    Turns V default (a.downgrade postgresql .initial_schema) (a.tables postgresql 1)
      (a.tables postgresql 0) := by
  have huser : a.tables postgresql 1 .user = some user := by simp [hr]
  have hitems : Function.update (a.tables postgresql 1) .user none .items = some items := by
    simp [hr]
  refine Turns.congr ((Turns.drop huser (by decide) ?_).append
    (Turns.drop hitems (by decide) (free_tables (by decide)).drop)) (funext fun n => ?_)
  · intro m hm u hu fk hfk
    cases m <;> simp at hu
    · obtain rfl := hu.2
      cases hfk
    · exact absurd rfl hm
  · cases n <;> simp

/-- Memberships go before the organisations that they refer to. -/
theorem turns_back_tenancy (hr : a.tenancy = true) :
    Turns V default (a.downgrade postgresql .tenancy) (a.tables postgresql 2)
      (a.tables postgresql 1) := by
  have hmemberships : a.tables postgresql 2 .memberships = some memberships := by simp [hr]
  have horganizations : Function.update (a.tables postgresql 2) .memberships none .organizations =
      some organizations := by simp [hr]
  refine Turns.congr ((Turns.drop hmemberships (by decide) (free_tables (by decide))).append
    (Turns.drop horganizations (by decide) ?_)) (funext fun n => ?_)
  · intro m hm u hu fk hfk
    cases m <;> simp at hu
    · obtain rfl := hu.2
      cases hfk
    · obtain rfl := hu.2
      cases hfk
    · exact absurd rfl hm
  · cases n <;> simp

/-- The downgrade drops the keys. -/
theorem turns_back_api_keys (hr : a.include_api_keys = true) :
    Turns V default (a.downgrade postgresql .api_keys) (a.tables postgresql 3)
      (a.tables postgresql 2) := by
  have htable : a.tables postgresql 3 .api_keys = some api_keys := by simp [hr]
  refine Turns.congr (Turns.drop htable (by decide) (free_tables (by decide)))
    (funext fun n => ?_)
  cases n <;> simp

/-- The two tables go, and the column of the organisations with its index. -/
theorem turns_back_billing (hr : a.include_billing = true) :
    Turns V default (a.downgrade postgresql .billing) (a.tables postgresql 4)
      (a.tables postgresql 3) := by
  have ht : a.tenancy = true := by simp [Answers.tenancy, hr]
  have hevents : a.tables postgresql 4 .processed_events = some processed_events := by simp [hr]
  have hsubscriptions : Function.update (a.tables postgresql 4) .processed_events none
      .subscriptions = some subscriptions := by simp [hr]
  have horganizations : Function.update (Function.update (a.tables postgresql 4)
      .processed_events none) .subscriptions none .organizations = some paying_organizations := by
    simp [hr, ht]
  refine Turns.congr (((Turns.drop hevents (by decide) (free_tables (by decide))).append
    (Turns.drop hsubscriptions (by decide) (free_tables (by decide)).drop)).append
      ((Turns.drop_index horganizations (by decide)).append
        (Turns.drop_column (Function.update_self ..) (by decide) (by decide))))
    (funext fun n => ?_)
  cases n <;> simp [ht]
  decide

/-- The audit entries go. -/
theorem turns_back_audit (hr : a.include_audit = true) :
    Turns V default (a.downgrade postgresql .audit) (a.tables postgresql 5)
      (a.tables postgresql 4) := by
  have htable : a.tables postgresql 5 .audit_logs = some (audit_logs a) := by simp [hr]
  refine Turns.congr (Turns.drop htable plain_audit_logs (free_tables (by decide)))
    (funext fun n => ?_)
  cases n <;> simp

/-- The endpoints go. -/
theorem turns_back_webhooks (hr : a.include_webhooks = true) :
    Turns V default (a.downgrade postgresql .webhooks) (a.tables postgresql 6)
      (a.tables postgresql 5) := by
  have htable : a.tables postgresql 6 .webhook_endpoints = some webhook_endpoints := by simp [hr]
  refine Turns.congr (Turns.drop htable (by decide) (free_tables (by decide)))
    (funext fun n => ?_)
  cases n <;> simp

/-- The refresh tokens go, and the column of the users. -/
theorem turns_back_auth_sessions (hr : a.users = true) :
    Turns V default (a.downgrade postgresql .auth_sessions) (a.tables postgresql 7)
      (a.tables postgresql 6) := by
  have htokens : a.tables postgresql 7 .refresh_tokens = some refresh_tokens := by simp [hr]
  have huser : Function.update (a.tables postgresql 7) .refresh_tokens none .user =
      some versioned_user := by simp [hr]
  refine Turns.congr ((Turns.drop htokens (by decide) (free_tables (by decide))).append
    (Turns.drop_column huser (by decide) (by decide))) (funext fun n => ?_)
  cases n <;> simp [hr]
  decide

/-- The policies of the first revision are dropped; the tables stay. -/
theorem turns_back_rls (hr : a.include_rls = true) :
    Turns V default (a.downgrade postgresql .rls) (a.tables postgresql 8)
      (a.tables postgresql 7) := by
  cases postgresql with
  | false => exact Turns.congr Turns.nil (funext fun n => by cases n <;> simp)
  | true =>
      refine Turns.congr (turns_unprotect a.rls_tables nodup_rls_tables fun n hn => ?_)
        (funext fun n => ?_)
      · cases n <;> simp_all [Answers.rls_tables]
      · cases n <;> simp +contextual [Answers.rls_tables, hr]
        all_goals exact if_congr Iff.rfl rfl rfl

/-- The events of the outbox go. -/
theorem turns_back_outbox (hr : a.include_webhooks = true) :
    Turns V default (a.downgrade postgresql .outbox) (a.tables postgresql 9)
      (a.tables postgresql 8) := by
  have htable : a.tables postgresql 9 .outbox_events = some outbox_events := by simp [hr]
  refine Turns.congr (Turns.drop htable (by decide) (free_tables (by decide)))
    (funext fun n => ?_)
  cases n <;> simp

/-- The claims go. -/
theorem turns_back_idempotency (hr : a.include_idempotency = true) :
    Turns V default (a.downgrade postgresql .idempotency) (a.tables postgresql 10)
      (a.tables postgresql 9) := by
  have htable : a.tables postgresql 10 .idempotency_keys = some idempotency_keys := by simp [hr]
  refine Turns.congr (Turns.drop htable (by decide) (free_tables (by decide)))
    (funext fun n => ?_)
  cases n <;> simp

/-- The four tables go, transactions before the wallets that they refer to. -/
theorem turns_back_metering (hr : a.include_metering = true) :
    Turns V default (a.downgrade postgresql .metering) (a.tables postgresql 11)
      (a.tables postgresql 10) := by
  have htransactions : a.tables postgresql 11 .wallet_transactions = some wallet_transactions := by
    simp [hr]
  have hwallets : Function.update (a.tables postgresql 11) .wallet_transactions none
      .customer_wallets = some customer_wallets := by simp [hr]
  have hinvoices : Function.update (Function.update (a.tables postgresql 11)
      .wallet_transactions none) .customer_wallets none .invoices = some invoices := by simp [hr]
  have hevents : Function.update (Function.update (Function.update (a.tables postgresql 11)
      .wallet_transactions none) .customer_wallets none) .invoices none .usage_events =
        some usage_events := by simp [hr]
  refine Turns.congr ((((Turns.drop htransactions (by decide) (free_tables (by decide))).append
    (Turns.drop hwallets (by decide) ?_)).append
      (Turns.drop hinvoices (by decide) (free_tables (by decide)).drop.drop)).append
        (Turns.drop hevents (by decide) (free_tables (by decide)).drop.drop.drop))
    (funext fun n => ?_)
  · intro m hm u hu fk hfk htarget
    have hmt : m ≠ .wallet_transactions := by
      rintro rfl
      simp at hu
    rw [Function.update_of_ne hmt] at hu
    rcases target_mem hu hfk with hmem | ⟨heq, -⟩
    · rw [htarget] at hmem
      revert hmem
      decide
    · exact hmt heq
  · cases n <;> simp

/-- The copied column goes, with its index and its foreign key. -/
theorem turns_back_wallet_org (hr : a.include_metering = true) :
    Turns V default (a.downgrade postgresql .wallet_org) (a.tables postgresql 12)
      (a.tables postgresql 11) := by
  have htable : a.tables postgresql 12 .wallet_transactions = some owned_wallet_transactions := by
    simp [hr]
  refine Turns.congr ((Turns.drop_index htable (by decide)).append
    ((Turns.drop_foreign_key (Function.update_self ..) (by decide)).append
      (Turns.drop_column (Function.update_self ..) (by decide) (by decide)))) (funext fun n => ?_)
  cases n <;> simp [hr]
  decide

/-- The policies of the younger tables are dropped. -/
theorem turns_back_rls_backfill (hr : a.include_rls = true) :
    Turns V default (a.downgrade postgresql .rls_backfill) (a.tables postgresql 13)
      (a.tables postgresql 12) := by
  cases postgresql with
  | false => exact Turns.congr Turns.nil (funext fun n => by cases n <;> simp)
  | true =>
      refine Turns.congr (turns_unprotect a.late_tables nodup_late_tables fun n hn => ?_)
        (funext fun n => ?_)
      · cases n <;> simp_all [Answers.late_tables]
      · cases n <;> simp +contextual [Answers.late_tables, hr]
        all_goals exact if_congr Iff.rfl rfl rfl

/-! ### Every revision -/

variable {r : Revision}

/-- **What a revision makes of the schema before it.** -/
theorem turns_upgrade (hv : a.Valid) (hr : a.generated r = true) :
    Turns V default (a.upgrade postgresql r) (a.tables postgresql (r.number - 1))
      (a.tables postgresql r.number) := by
  cases r with
  | initial_schema => exact turns_initial_schema hr
  | tenancy => exact turns_tenancy hr
  | api_keys => exact turns_api_keys hr
  | billing => exact turns_billing hr
  | audit => exact turns_audit hr
  | webhooks => exact turns_webhooks hr
  | auth_sessions => exact turns_auth_sessions hr
  | rls => exact turns_rls hv hr
  | outbox => exact turns_outbox hr
  | idempotency => exact turns_idempotency hr
  | metering => exact turns_metering hv hr
  | wallet_org => exact turns_wallet_org hr
  | rls_backfill => exact turns_rls_backfill hr

/-- **Its downgrade takes that back.** -/
theorem turns_downgrade (hr : a.generated r = true) :
    Turns V default (a.downgrade postgresql r) (a.tables postgresql r.number)
      (a.tables postgresql (r.number - 1)) := by
  cases r with
  | initial_schema => exact turns_back_initial_schema hr
  | tenancy => exact turns_back_tenancy hr
  | api_keys => exact turns_back_api_keys hr
  | billing => exact turns_back_billing hr
  | audit => exact turns_back_audit hr
  | webhooks => exact turns_back_webhooks hr
  | auth_sessions => exact turns_back_auth_sessions hr
  | rls => exact turns_back_rls hr
  | outbox => exact turns_back_outbox hr
  | idempotency => exact turns_back_idempotency hr
  | metering => exact turns_back_metering hr
  | wallet_org => exact turns_back_wallet_org hr
  | rls_backfill => exact turns_back_rls_backfill hr

omit [DecidableEq V] in
/-- The schema depends on the revisions that are done. -/
theorem tables_congr {j k : ℕ} (h : ∀ r, a.done j r = a.done k r) :
    a.tables postgresql j = a.tables postgresql k := by
  funext n
  cases n <;> simp only [Answers.tables, h]

end BackendManager.Migrations
