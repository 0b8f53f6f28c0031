import BackendManager.MigrationRuns
import BackendManager.TenantTransactions

/-!
# Rows and Policies After an Upgrade

What an upgrade leaves of the rows that are stored, in every state that commands and the service
lead to: no value of a column that was there is lost, and the organisation that
`0012_wallet_org` adds to a wallet transaction is the one of its wallet. At the head, the tables
with a policy are those that the transactions of the service rely on.

The upgrade is taken script by script as in `BackendManager.MigrationRuns`, with the rows
followed through it: a statement that adds a table, a column, an index or a policy keeps every
value (`Statement.Adds`), and the one script that updates rows does so in the column that it has
just added. A value is identified by its table, its row and its column, so that rows are not
only kept but kept apart.

The protected tables are compared with `Features.protected_tables`, the list that the model of
the transactions under the policies has from the same answers.

## Main results

* `upgrade_keeps_values`: no value is lost.
* `transactions_owned`: the column that is filled is right.
* `protected_at_head`: the tables that are protected.
-/

namespace BackendManager.Migrations

open SchemaChanges

variable {V : Type} [DecidableEq V] {default : String → V} {a : Answers} {postgresql : Bool}
  {s s' : State V} {r target : Revision} {kept : TableName → String → Prop}

/-! ### What the scripts add -/

/-- The creation of a table touches no column that is there. -/
theorem adds_create (n : TableName) (t : Table TableName ColumnType)
    (statement : Statement TableName ColumnType) (hmem : statement ∈ create n t) :
    statement.Adds kept := by
  rcases List.mem_cons.mp hmem with rfl | hmem
  · trivial
  · obtain ⟨ix, -, rfl⟩ := List.mem_map.mp hmem
    trivial

/-- Nor does a policy. -/
theorem adds_protect (l : List TableName) (statement : Statement TableName ColumnType)
    (hmem : statement ∈ l.flatMap (protect · tenant_isolation)) : statement.Adds kept := by
  obtain ⟨n, -, hmem⟩ := List.mem_flatMap.mp hmem
  rcases hmem with _ | ⟨_, _ | ⟨_, _ | ⟨_, ⟨⟩⟩⟩⟩ <;> trivial

/-- An upgrade only adds: the column that it fills is a new one. -/
theorem adds_upgrade
    (hkept : r = .wallet_org → ¬ kept .wallet_transactions "organization_id") :
    ∀ statement ∈ a.upgrade postgresql r, statement.Adds kept := by
  intro statement hmem
  cases r with
  | initial_schema | tenancy =>
      exact (List.mem_append.mp hmem).elim (adds_create _ _ _) (adds_create _ _ _)
  | api_keys | audit | webhooks | outbox | idempotency => exact adds_create _ _ _ hmem
  | billing =>
      rcases List.mem_append.mp hmem with hmem | hmem
      · rcases List.mem_append.mp hmem with hmem | hmem
        · rcases hmem with _ | ⟨_, _ | ⟨_, ⟨⟩⟩⟩ <;> trivial
        · exact adds_create _ _ _ hmem
      · exact adds_create _ _ _ hmem
  | auth_sessions =>
      rcases List.mem_cons.mp hmem with rfl | hmem
      · trivial
      · exact adds_create _ _ _ hmem
  | rls =>
      rw [Answers.upgrade] at hmem
      split at hmem
      · exact adds_protect _ _ hmem
      · cases hmem
  | rls_backfill =>
      rw [Answers.upgrade] at hmem
      split at hmem
      · exact adds_protect _ _ hmem
      · cases hmem
  | metering =>
      rcases List.mem_append.mp hmem with hmem | hmem
      · rcases List.mem_append.mp hmem with hmem | hmem
        · exact (List.mem_append.mp hmem).elim (adds_create _ _ _) (adds_create _ _ _)
        · exact adds_create _ _ _ hmem
      · exact adds_create _ _ _ hmem
  | wallet_org =>
      rcases hmem with _ | ⟨_, _ | ⟨_, _ | ⟨_, _ | ⟨_, _ | ⟨_, ⟨⟩⟩⟩⟩⟩⟩
      · trivial
      · exact hkept rfl
      · trivial
      · trivial
      · trivial

/-- The columns of the tables that a database has. -/
def columnsOf (db : Database TableName ColumnType V) (n : TableName) (column : String) : Prop :=
  ∃ t, db.tables n = some t ∧ t.hasColumn column = true

omit [DecidableEq V] in
/-- A database has its own columns. -/
theorem has_columnsOf (db : Database TableName ColumnType V) : db.Has (columnsOf db) :=
  fun _ _ h => h

omit [DecidableEq V] in
/-- Before `0012_wallet_org`, a wallet transaction has no organisation. -/
theorem not_columnsOf {db : Database TableName ColumnType V} {k : ℕ}
    (htables : db.tables = a.tables postgresql k) (hk : k < 12) :
    ¬ columnsOf db .wallet_transactions "organization_id" := by
  rintro ⟨t, ht, hcolumn⟩
  have hwallet : a.done k .wallet_org = false := done_eq_false hk
  have hbackfill : a.done k .rls_backfill = false := done_eq_false (Nat.lt_succ_of_lt hk)
  simp only [htables, Answers.tables, present, secured, hwallet, hbackfill, Bool.and_false,
    Bool.false_eq_true, if_false, Option.ite_none_right_eq_some] at ht
  obtain ⟨-, ht⟩ := ht
  obtain rfl := Option.some.inj ht
  revert hcolumn
  decide

/-! ### No value is lost -/

/-- **An upgrade loses no value**: the rows of every table are still there, with the same values in
the columns that the table had. -/
theorem upgrade_keeps_values (hv : a.Valid) (h : Reachable default a postgresql s)
    (ht : a.generated target = true) :
    ∃ s', Command.run default a postgresql s (.upgrade target) = some s' ∧
      ∀ n t, s.db.tables n = some t →
        ∃ g : Row V → Row V, s'.db.rows n = (s.db.rows n).map g ∧
          ∀ r c, t.hasColumn c = true → g r c = r c := by
  have hstands := stands_of_reachable hv h
  obtain ⟨s', hrun, -⟩ : ∃ s', s.upgrade default a postgresql target = some s' ∧ _ :=
    hstands.upgrade hv ht
  have hrun' := hrun
  rw [State.upgrade, Option.map_eq_some_iff] at hrun'
  obtain ⟨db, hscript, rfl⟩ := hrun'
  refine ⟨_, by rw [Command.run, if_pos ht, hrun], fun n t hn => ?_⟩
  have hknown : a.Known (some target) := by
    rintro _ ⟨⟩
    exact ht
  have hadds : ∀ statement ∈ (a.path s.version (some target)).flatMap (a.upgrade postgresql),
      statement.Adds (columnsOf s.db) := by
    intro statement hmem
    obtain ⟨r, hr, hmem⟩ := List.mem_flatMap.mp hmem
    refine adds_upgrade (fun heq => not_columnsOf hstands.schema.tables ?_) statement hmem
    subst heq
    obtain ⟨hmem, hnew⟩ := List.mem_filter.mp hr
    rw [mem_lineage_iff hv hknown] at hmem
    rw [decide_eq_true_eq, mem_lineage_iff hv hstands.known, not_and, not_le] at hnew
    exact hnew hmem.1
  obtain ⟨-, g, hrows, hg⟩ := (run_rows hadds (has_columnsOf s.db) hscript).1 n (by simp [hn])
  exact ⟨g, hrows, fun r c hc => hg r c ⟨t, hn, hc⟩⟩

/-- A database with a wallet, from the first revision of policies to the head: the wallet keeps all
its values. -/
theorem upgrade_keeps_values_wallets :
    ∃ s s' : State ℕ, Reachable (fun _ => 0) Answers.full true s ∧
      s.db.rows .customer_wallets = [customer_wallets.constant 1] ∧
        Command.run (fun _ => 0) Answers.full true s (.upgrade .rls_backfill) = some s' ∧
          ∃ g : Row ℕ → Row ℕ, s'.db.rows .customer_wallets = (s.db.rows .customer_wallets).map g ∧
            ∀ r c, customer_wallets.hasColumn c = true → g r c = r c := by
  obtain ⟨s, hs, -, htables, hrows⟩ :=
    exists_populated true Answers.full_valid (rfl : Answers.full.generated .metering = true)
  have hn : s.db.tables .customer_wallets = some customer_wallets := by
    rw [htables]
    rfl
  obtain ⟨s', hrun, hkept⟩ := upgrade_keeps_values Answers.full_valid hs
    (rfl : Answers.full.generated .rls_backfill = true)
  exact ⟨s, s', hs, hrows _ _ hn, hrun, hkept _ _ hn⟩

/-! ### The organisation of a wallet transaction -/

/-- Every wallet transaction has the organisation of its wallet. -/
def Owned (db : Database TableName ColumnType V) : Prop :=
  ∀ r ∈ db.rows .wallet_transactions, ∃ w ∈ db.rows .customer_wallets, ∃ v o,
    r "wallet_id" = some v ∧ w "id" = some v ∧
      r "organization_id" = some o ∧ w "organization_id" = some o

/-- Between the two revisions of metering and the last one the wallets are as they were created. -/
theorem tables_metering {k : ℕ} (hm : a.include_metering = true) (hk : 11 ≤ k) (hk' : k < 13) :
    a.tables postgresql k .customer_wallets = some customer_wallets := by
  have hmetering : a.done k .metering = true := done_eq_true hm hk
  have hbackfill : a.done k .rls_backfill = false := done_eq_false hk'
  rw [Answers.tables, hmetering, hbackfill, Bool.and_false]
  rfl

/-- `0012_wallet_org` fills the column from the wallets. -/
theorem owned_wallet_org {db : Database TableName ColumnType V}
    (hm : a.include_metering = true) (hdb : db.Of (a.tables postgresql 11)) :
    ∃ db', run default db (a.upgrade postgresql .wallet_org) = some db' ∧
      db'.Of (a.tables postgresql 12) ∧ Owned db' := by
  obtain ⟨db', hrun, hdb'⟩ := turns_wallet_org hm db hdb
  refine ⟨db', hrun, hdb', ?_⟩
  have hparent : db.tables .customer_wallets = some customer_wallets := by
    rw [hdb.tables]
    exact tables_metering hm (by decide) (by decide)
  have hwallet : db.tables .wallet_transactions = some wallet_transactions := by
    rw [hdb.tables]
    simp [Answers.tables, Answers.done, Answers.generated, Revision.number, present, secured, hm]
  have hfilled : run default db (a.upgrade postgresql .wallet_org) = _ :=
    run_denormalize denormalizes_wallet_transactions hdb.integrity hwallet hparent (by decide)
      (by decide)
  obtain rfl := Option.some.inj (hfilled.symm.trans hrun)
  exact rows_denormalize denormalizes_wallet_transactions hdb.integrity hwallet hparent
    (by decide) _

/-- No other script after it changes a row. -/
theorem owned_rls_backfill {db db' : Database TableName ColumnType V} (howned : Owned db)
    (hdb : db.Of (a.tables postgresql 12)) (hm : a.include_metering = true)
    (hrun : run default db (a.upgrade postgresql .rls_backfill) = some db') : Owned db' := by
  obtain ⟨hextends, -⟩ := run_rows (adds_upgrade (by rintro ⟨⟩)) (has_columnsOf db) hrun
  have hparent : db.tables .customer_wallets = some customer_wallets := by
    rw [hdb.tables]
    exact tables_metering hm (by decide) (by decide)
  have hwallet : db.tables .wallet_transactions = some owned_wallet_transactions := by
    rw [hdb.tables]
    simp [Answers.tables, Answers.done, Answers.generated, Revision.number, present, secured, hm]
  obtain ⟨-, g, hrows, hg⟩ := hextends .wallet_transactions (by simp [hwallet])
  obtain ⟨-, g', hrows', hg'⟩ := hextends .customer_wallets (by simp [hparent])
  intro r' hr'
  rw [hrows] at hr'
  obtain ⟨r, hr, rfl⟩ := List.mem_map.mp hr'
  obtain ⟨w, hw, v, o, hv, hkey, ho, ho'⟩ := howned r hr
  have hkept : ∀ c, owned_wallet_transactions.hasColumn c = true → g r c = r c :=
    fun c hc => hg r c ⟨_, hwallet, hc⟩
  have hkept' : ∀ c, customer_wallets.hasColumn c = true → g' w c = w c :=
    fun c hc => hg' w c ⟨_, hparent, hc⟩
  refine ⟨g' w, by rw [hrows']; exact List.mem_map_of_mem hw, v, o, ?_, ?_, ?_, ?_⟩
  · rw [hkept _ (by decide), hv]
  · rw [hkept' _ (by decide), hkey]
  · rw [hkept _ (by decide), ho]
  · rw [hkept' _ (by decide), ho']

/-- **The upgrade across the revision** that copies the organisation: whatever rows there are
before, each transaction has the organisation of its wallet afterwards. -/
theorem run_to_wallet_org (hv : a.Valid) (h : s.Stands a postgresql)
    (hm : a.include_metering = true) (hbefore : position s.version < 12) :
    ∃ db, run default s.db ((a.path s.version (some .wallet_org)).flatMap (a.upgrade postgresql)) =
      some db ∧ db.Of (a.tables postgresql 12) ∧ Owned db := by
  have hknown : a.Known (some .metering) := by
    rintro _ ⟨⟩
    exact hm
  obtain ⟨db, hrun, hdb⟩ : ∃ db, run default s.db _ = some db ∧ db.Of (a.tables postgresql 11) :=
    turns_path hv h.known hknown (Nat.le_of_lt_succ hbefore) s.db h.schema
  obtain ⟨db', hrun', hdb', howned⟩ : ∃ db', run default db _ = some db' ∧ _ :=
    owned_wallet_org hm hdb
  have hgenerated : a.generated .wallet_org = true := hm
  refine ⟨db', ?_, hdb', howned⟩
  rw [path_some hv h.known hgenerated hbefore, List.flatMap_append, run_append,
    Answers.down_revision, hrun, Option.bind_some, List.flatMap_singleton, hrun']

/-- **The column that `0012_wallet_org` fills is right**: after an upgrade past it, every wallet
transaction has the organisation of its wallet. -/
theorem transactions_owned (hv : a.Valid) (h : Reachable default a postgresql s)
    (hm : a.include_metering = true) (hbefore : position s.version < 12)
    (ht : a.generated target = true) (hafter : 12 ≤ target.number) :
    ∃ s', Command.run default a postgresql s (.upgrade target) = some s' ∧ Owned s'.db := by
  have hstands := stands_of_reachable hv h
  obtain ⟨db, hrun, hdb, howned⟩ : ∃ db, run default s.db _ = some db ∧ _ :=
    run_to_wallet_org hv hstands hm hbefore
  have hscript : ∃ db, run default s.db
      ((a.path s.version (some target)).flatMap (a.upgrade postgresql)) = some db ∧ Owned db := by
    cases target with
    | wallet_org => exact ⟨db, hrun, howned⟩
    | rls_backfill =>
        obtain ⟨db', hrun', -⟩ : ∃ db', run default db _ = some db' ∧ _ :=
          turns_rls_backfill ht db hdb
        refine ⟨db', ?_, owned_rls_backfill howned hdb hm hrun'⟩
        rw [path_some hv hstands.known ht (Nat.lt_succ_of_lt hbefore), Answers.down_revision,
          if_pos hm, List.flatMap_append, run_append, hrun, Option.bind_some,
          List.flatMap_singleton, hrun']
    | initial_schema | tenancy | api_keys | billing | audit | webhooks | auth_sessions | rls
    | outbox | idempotency | metering => exact absurd hafter (by decide)
  obtain ⟨db', hrun', howned'⟩ := hscript
  exact ⟨_, by rw [Command.run, if_pos ht, State.upgrade, hrun', Option.map_some], howned'⟩

/-- The same for a database with one transaction. -/
theorem transactions_owned_populated :
    ∃ s s' : State ℕ, Reachable (fun _ => 0) Answers.full true s ∧
      s.db.rows .wallet_transactions = [wallet_transactions.constant 1] ∧
        Command.run (fun _ => 0) Answers.full true s (.upgrade .rls_backfill) = some s' ∧
          Owned s'.db := by
  obtain ⟨s, hs, hversion, htables, hrows⟩ :=
    exists_populated true Answers.full_valid (rfl : Answers.full.generated .metering = true)
  have hn : s.db.tables .wallet_transactions = some wallet_transactions := by
    rw [htables]
    rfl
  obtain ⟨s', hrun, howned⟩ := transactions_owned Answers.full_valid hs rfl
    (by rw [hversion]; decide) (rfl : Answers.full.generated .rls_backfill = true) (by decide)
  exact ⟨s, s', hs, hrows _ _ hn, hrun, howned⟩

/-! ### The policies at the head -/

/-- The name of the table. -/
def TableName.name : TableName → String
  | .items => "items"
  | .user => "user"
  | .organizations => "organizations"
  | .memberships => "memberships"
  | .api_keys => "api_keys"
  | .subscriptions => "subscriptions"
  | .processed_events => "processed_events"
  | .audit_logs => "audit_logs"
  | .webhook_endpoints => "webhook_endpoints"
  | .refresh_tokens => "refresh_tokens"
  | .outbox_events => "outbox_events"
  | .idempotency_keys => "idempotency_keys"
  | .usage_events => "usage_events"
  | .invoices => "invoices"
  | .customer_wallets => "customer_wallets"
  | .wallet_transactions => "wallet_transactions"

/-- The answers that the transactions of the service depend on. -/
def Answers.features (a : Answers) : Tenancy.Features where
  include_api_keys := a.include_api_keys
  include_billing := a.include_billing
  include_webhooks := a.include_webhooks
  include_audit := a.include_audit
  include_metering := a.include_metering

/-- They rely on the tables of `_TENANT_TABLES`. -/
theorem protected_tables_eq :
    a.features.protected_tables = (a.rls_tables ++ a.late_tables).map TableName.name := by
  simp only [Tenancy.Features.protected_tables, Tenancy.Features.rls_tables,
    Tenancy.Features.late_tables, Answers.features, Answers.rls_tables, Answers.late_tables,
    List.map_append, apply_ite (List.map TableName.name)]
  rfl

/-- Different tables have different names. -/
theorem TableName.name_injective : Function.Injective TableName.name := by
  intro n n' h
  revert n n'
  decide

/-- The table at the head, without its policy. -/
def Answers.openTable (a : Answers) : TableName → Table TableName ColumnType
  | .items => items
  | .user => versioned_user
  | .organizations => if a.include_billing then paying_organizations else organizations
  | .memberships => memberships
  | .api_keys => api_keys
  | .subscriptions => subscriptions
  | .processed_events => processed_events
  | .audit_logs => audit_logs a
  | .webhook_endpoints => webhook_endpoints
  | .refresh_tokens => refresh_tokens
  | .outbox_events => outbox_events
  | .idempotency_keys => idempotency_keys
  | .usage_events => usage_events
  | .invoices => invoices
  | .customer_wallets => customer_wallets
  | .wallet_transactions => owned_wallet_transactions

/-- A table without its policy, to compare with. -/
theorem openTable_open (n : TableName) :
    (a.openTable n).row_security = false ∧ (a.openTable n).policies = [] := by
  cases n with
  | organizations =>
      rw [Answers.openTable]
      split <;> exact ⟨rfl, rfl⟩
  | _ => exact ⟨rfl, rfl⟩

/-- Which tables there are at the head, and which of them have a policy. -/
theorem tables_head (htenancy : a.tenancy = true) (hrls : a.include_rls = true) {n : TableName}
    {t : Table TableName ColumnType} (hn : a.tables true 13 n = some t) :
    t = secured (n ∈ a.rls_tables ++ a.late_tables) (a.openTable n) ∧
      (n ∈ a.rls_tables ++ a.late_tables ↔
        (a.openTable n).hasColumn "organization_id" = true ∧ n ≠ .memberships) := by
  have hdone : ∀ r, a.done 13 r = a.generated r := by
    intro r
    have hle : r.number ≤ 13 := position_le (some r)
    rw [Answers.done, decide_eq_true hle, Bool.and_true]
  cases n <;>
    simp only [Answers.tables, hdone, Answers.generated, present, hrls, Bool.and_true,
      Option.ite_none_right_eq_some, Option.some.injEq] at hn <;>
    obtain ⟨hgenerated, rfl⟩ := hn <;>
    simp [Answers.rls_tables, Answers.late_tables, Answers.openTable, secured, hgenerated]
  case organizations => split <;> decide
  case audit_logs =>
    simp only [audit_logs, htenancy, if_true]
    decide
  all_goals decide

/-- **The tables with a policy at the head** are those that the service relies on, which are those
with a column for the organisation other than the memberships; the policy is enabled, and forced
for the owner of the table. -/
theorem protected_at_head (hv : a.Valid) (h : Reachable default a true s)
    (hrls : a.include_rls = true) (hhead : ∀ r, a.generated r = true → r ∈ a.lineage s.version)
    {n : TableName} {t : Table TableName ColumnType} (hn : s.db.tables n = some t) :
    (t.row_security = true ↔ n.name ∈ a.features.protected_tables) ∧
      (t.row_security = true ↔ t.hasColumn "organization_id" = true ∧ n ≠ .memberships) ∧
        (t.row_security = true → s.db.forced n = true ∧ t.policies = [tenant_isolation]) := by
  have hstands := stands_of_reachable hv h
  have hlast : 13 ≤ position s.version :=
    ((mem_lineage_iff hv hstands.known).mp (hhead .rls_backfill hrls)).2
  have hforced := hstands.schema.forced n t hn
  have htenancy : a.tenancy = true := by simp [Answers.tenancy, hv.include_rls hrls]
  rw [hstands.schema.tables, le_antisymm (position_le _) hlast] at hn
  obtain ⟨rfl, hiff⟩ := tables_head htenancy hrls hn
  obtain ⟨hopen, hpolicies⟩ := openTable_open (a := a) n
  have hname : n.name ∈ a.features.protected_tables ↔ n ∈ a.rls_tables ++ a.late_tables := by
    rw [protected_tables_eq]
    exact List.mem_map_of_injective TableName.name_injective
  rw [hname]
  by_cases hmem : n ∈ a.rls_tables ++ a.late_tables
  · rw [secured, if_pos (decide_eq_true hmem)] at hforced ⊢
    exact ⟨iff_of_true rfl hmem, iff_of_true rfl (hiff.mp hmem), fun _ =>
      ⟨hforced rfl, by rw [hpolicies, List.nil_append]⟩⟩
  · rw [secured, if_neg (by simpa using hmem), hopen]
    have hfalse : ¬ (false = true) := Bool.false_ne_true
    exact ⟨iff_of_false hfalse hmem, iff_of_false hfalse (mt hiff.mpr hmem), fun h =>
      absurd h hfalse⟩

/-- A database at the head, and the policy of its outbox. -/
theorem protected_at_head_full :
    ∃ s : State ℕ, Reachable (fun _ => 0) Answers.full true s ∧
      ∃ t, s.db.tables .outbox_events = some t ∧ t.row_security = true ∧
        s.db.forced .outbox_events = true ∧ t.policies = [tenant_isolation] := by
  obtain ⟨s, hs, hversion, htables, -⟩ :=
    exists_populated true Answers.full_valid
      (rfl : Answers.full.generated .rls_backfill = true)
  have hhead : ∀ r, Answers.full.generated r = true → r ∈ Answers.full.lineage s.version := by
    rw [hversion]
    rintro r -
    cases r <;> decide
  have hn : s.db.tables .outbox_events = some (secured true outbox_events) := by
    rw [htables]
    rfl
  obtain ⟨-, -, hsecure⟩ := protected_at_head Answers.full_valid hs rfl hhead hn
  exact ⟨s, hs, _, hn, rfl, hsecure rfl⟩

end BackendManager.Migrations
