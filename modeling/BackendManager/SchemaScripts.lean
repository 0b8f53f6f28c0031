import BackendManager.SchemaChanges

/-!
# What a Script Turns a Schema Into

A script runs on every database of a schema, whatever rows are in it, and leaves a database of
another schema: scripts are composed by their schemas, and their rows are not looked at again.
Where a statement depends on the rows, it is taken together with those that make it safe: a unique
index with the new column it is on, and a column that becomes `NOT NULL` with the statement that
fills it from the rows that it belongs to.

A schema is a function from names to tables, and `Turns` is a statement about all databases of a
schema that are intact. This makes the lemmas about scripts independent of each other: the side
conditions are about the two schemas and can be decided. Row security is `FORCE`d by the same
script that enables it, and no later statement takes it back; `Database.Forced` keeps track of
that beside the schema.

## Main results

* `Turns.append`: scripts are composed.
* `Turns.create`, `Turns.drop`, `Turns.add_unique`, `Turns.protect`: the scripts there are.
* `Turns.denormalize`, `run_denormalize`: a column is copied from a parent row.
-/

namespace SchemaChanges

variable {N Ty V : Type} [DecidableEq N]

/-- A table with row security has it for its owner as well. -/
def Database.Forced (d : Database N Ty V) : Prop :=
  ∀ n t, d.tables n = some t → t.row_security = true → d.forced n = true

/-- A database of a schema, with any rows. -/
structure Database.Of (d : Database N Ty V) (T : N → Option (Table N Ty)) : Prop where
  tables : d.tables = T
  integrity : d.Integrity
  forced : d.Forced

variable [Fintype N] [DecidableEq V] {default : String → V} {d d' : Database N Ty V} {n : N}
  {t t' : Table N Ty} {statements : List (Statement N Ty)} {T T' T'' : N → Option (Table N Ty)}

/-- The statement does not enable row security. -/
def Statement.Quiet : Statement N Ty → Prop
  | .enable_row_security _ => False
  | _ => True

omit [Fintype N] [DecidableEq V] in
/-- Changing one table without enabling row security keeps it forced wherever it is enabled. -/
theorem Database.Forced.modify (h : d.Forced) (hn : d.tables n = some t) {rows : N → List (Row V)}
    (ht' : t'.row_security = true → t.row_security = true) :
    Database.Forced { d with tables := Function.update d.tables n (some t'), rows } := by
  intro m u hu hsecurity
  by_cases hmn : m = n
  · subst m
    obtain rfl : t' = u := by simpa using hu
    exact h n t hn (ht' hsecurity)
  · exact h m u (by simpa [hmn] using hu) hsecurity

/-- A statement that does not enable row security keeps it forced, since none of them takes the
owner's enforcement back. -/
theorem forced_apply {statement : Statement N Ty} (hquiet : statement.Quiet) (h : d.Forced)
    (happly : statement.apply default d = some d') : d'.Forced := by
  cases statement with
  | create_table n columns primary_key foreign_keys unique_constraints =>
      rw [Statement.apply, Option.ite_none_right_eq_some] at happly
      obtain ⟨-, hd'⟩ := happly
      obtain rfl := Option.some.inj hd'
      intro m u hu hsecurity
      by_cases hmn : m = n
      · rw [hmn] at hu
        have hnew : _ = u := Option.some.inj ((Function.update_self n _ d.tables).symm.trans hu)
        rw [← hnew] at hsecurity
        cases hsecurity
      · have hforced := h m u (by simpa [hmn] using hu) hsecurity
        simpa [hmn] using hforced
  | drop_table n =>
      rw [Statement.apply, Option.ite_none_right_eq_some] at happly
      obtain ⟨-, hd'⟩ := happly
      obtain rfl := Option.some.inj hd'
      intro m u hu hsecurity
      have hmn : m ≠ n := by
        rintro rfl
        simp at hu
      exact h m u (by simpa [hmn] using hu) hsecurity
  | enable_row_security n => exact hquiet.elim
  | force_row_security n =>
      rw [Statement.apply, Option.ite_none_right_eq_some] at happly
      obtain ⟨-, hd'⟩ := happly
      obtain rfl := Option.some.inj hd'
      intro m u hu hsecurity
      by_cases hmn : m = n
      · simp [hmn]
      · have hforced := h m u hu hsecurity
        simpa [hmn] using hforced
  | disable_row_security n =>
      obtain ⟨t, t', hn, ht', rfl⟩ := modify_some happly
      obtain rfl := Option.some.inj ht'
      exact h.modify hn fun hfalse => by cases hfalse
  | drop_policy n name =>
      obtain ⟨t, t', hn, ht', rfl⟩ := modify_some happly
      obtain rfl := Option.some.inj ht'
      exact h.modify hn id
  | add_column n | drop_column n | alter_column n | create_foreign_key n | drop_foreign_key n
  | create_index n | drop_index n | create_policy n | backfill n =>
      obtain ⟨t, t', hn, hf, rfl⟩ := modify_some happly
      rw [Option.ite_none_right_eq_some] at hf
      obtain ⟨-, ht'⟩ := hf
      obtain rfl := Option.some.inj ht'
      exact h.modify hn id

/-- So does a script of such statements. -/
theorem forced_run (hquiet : ∀ statement ∈ statements, statement.Quiet) (h : d.Forced)
    (hrun : run default d statements = some d') : d'.Forced := by
  induction statements generalizing d with
  | nil =>
      obtain rfl := Option.some.inj hrun
      exact h
  | cons statement statements ih =>
      obtain ⟨middle, happly, hrest⟩ := Option.bind_eq_some_iff.mp hrun
      exact ih (fun s hs => hquiet s (List.mem_cons_of_mem _ hs))
        (forced_apply (hquiet _ List.mem_cons_self) h happly) hrest

/-! ### Scripts -/

variable (V default) in
/-- The script runs on every database of the schema `T`, and turns it into one of `T'`. -/
def Turns (statements : List (Statement N Ty)) (T T' : N → Option (Table N Ty)) : Prop :=
  ∀ d : Database N Ty V, d.Of T → ∃ d', run default d statements = some d' ∧ d'.Of T'

/-- The empty script turns a schema into itself. -/
theorem Turns.nil : Turns V default [] T T := fun d hd => ⟨d, rfl, hd⟩

/-- The schema that is reached may be written in another way. -/
theorem Turns.congr (h : Turns V default statements T T') (heq : T' = T'') :
    Turns V default statements T T'' := heq ▸ h

/-- **Scripts are composed.** -/
theorem Turns.append {statements' : List (Statement N Ty)} (h : Turns V default statements T T')
    (h' : Turns V default statements' T' T'') :
    Turns V default (statements ++ statements') T T'' := by
  intro d hd
  obtain ⟨middle, hrun, hmiddle⟩ := h d hd
  obtain ⟨d', hrest, hd'⟩ := h' middle hmiddle
  exact ⟨d', by rw [run_append, hrun, Option.bind_some, hrest], hd'⟩

/-- A script that does not enable row security is judged by what it does to the tables. -/
theorem Turns.of_run (hquiet : ∀ statement ∈ statements, statement.Quiet)
    (h : ∀ d : Database N Ty V, d.Of T →
      ∃ d', run default d statements = some d' ∧ d'.tables = T') :
    Turns V default statements T T' := by
  intro d hd
  obtain ⟨d', hrun, htables⟩ := h d hd
  exact ⟨d', hrun, htables, integrity_run hd.integrity hrun, forced_run hquiet hd.forced hrun⟩

/-- What a foreign key refers to is in the primary key of its target. -/
def keyed (T : N → Option (Table N Ty)) (fk : ForeignKey N) : Bool :=
  (T fk.target).any fun t => fk.referred ∈ t.primary_key

omit [Fintype N] [DecidableEq V] in
/-- Whether a foreign key has a target does not depend on other tables. -/
theorem keyed_update {fk : ForeignKey N} (h : fk.target ≠ n) (t : Option (Table N Ty)) :
    keyed (Function.update T n t) fk = keyed T fk := by
  rw [keyed, keyed, Function.update_of_ne h]

/-- A table with its indexes is created where there is none, if its foreign keys have targets. -/
theorem Turns.create (hn : T n = none) (hplain : t.plain = true)
    (htargets : ∀ fk ∈ t.foreign_keys, keyed T fk = true) :
    Turns V default (create n t) T (Function.update T n (some t)) := by
  refine Turns.of_run ?_ fun d hd => ?_
  · intro statement hmem
    rcases List.mem_cons.mp hmem with rfl | hmem
    · trivial
    · obtain ⟨ix, -, rfl⟩ := List.mem_map.mp hmem
      trivial
  · obtain ⟨rfl, hintegrity, -⟩ := hd
    exact ⟨_, run_create hn (hintegrity.absent n hn) hplain htargets, rfl⟩

/-- A table that no other one refers to is dropped with its indexes. -/
theorem Turns.drop (hn : T n = some t) (hplain : t.plain = true)
    (hfree : ∀ m, m ≠ n → ∀ u ∈ T m, ∀ fk ∈ u.foreign_keys, fk.target ≠ n) :
    Turns V default (drop n t) T (Function.update T n none) := by
  refine Turns.of_run ?_ fun d hd => ?_
  · intro statement hmem
    rcases List.mem_append.mp hmem with hmem | hmem
    · obtain ⟨ix, -, rfl⟩ := List.mem_map.mp hmem
      trivial
    · obtain rfl := List.mem_singleton.mp hmem
      trivial
  · obtain ⟨rfl, -, -⟩ := hd
    obtain ⟨-, -, -, hnodup, -⟩ := of_decide_eq_true hplain
    refine ⟨_, run_drop hn hnodup ?_, rfl⟩
    rintro ⟨m, hm, u, hu, fk, hfk, htarget⟩
    exact hfree m hm u hu fk hfk htarget

/-- A script of one statement is that statement. -/
theorem run_singleton (statement : Statement N Ty) :
    run default d [statement] = statement.apply default d := by
  rw [run]
  cases statement.apply default d <;> rfl

/-- One statement of one table. -/
theorem Turns.modify {statement : Statement N Ty}
    {f : Database N Ty V → Table N Ty → Option (Table N Ty)} {g : Database N Ty V → Row V → Row V}
    (hquiet : statement.Quiet)
    (happly : ∀ d, statement.apply default d = d.modify n (f d) (g d))
    (hn : T n = some t) (hf : ∀ d : Database N Ty V, d.Of T → f d t = some t') :
    Turns V default [statement] T (Function.update T n (some t')) := by
  refine Turns.of_run (by simpa using hquiet) fun d hd => ?_
  have hmodify : d.modify n (f d) (g d) = some
      { d with
        tables := Function.update d.tables n (some t')
        rows := Function.update d.rows n ((d.rows n).map (g d)) } := by
    rw [modify_eq (hd.tables ▸ hn), hf d hd, Option.map_some]
  exact ⟨_, (run_singleton statement).trans ((happly d).trans hmodify), by rw [← hd.tables]⟩

/-- A column is added if its name is new, and if it is nullable or has a default for the rows that
are there. -/
theorem Turns.add_column {column : Column Ty} (hn : T n = some t)
    (hnew : t.hasColumn column.name = false)
    (hvalue : (column.nullable || column.server_default.isSome) = true) :
    Turns V default [.add_column n column] T
      (Function.update T n (some { t with columns := t.columns ++ [column] })) := by
  refine Turns.modify trivial (fun _ => rfl) hn fun d _ => if_pos ?_
  rw [hnew, hvalue]
  rfl

/-- A column that nothing refers to is dropped. -/
theorem Turns.drop_column {column : String} (hn : T n = some t)
    (hhas : t.hasColumn column = true) (hunused : t.uses column = false) :
    Turns V default [.drop_column n column] T
      (Function.update T n
        (some { t with columns := t.columns.filter fun c => c.name ≠ column })) := by
  refine Turns.modify trivial (fun _ => rfl) hn fun _ _ => if_pos ?_
  rw [hhas, hunused]
  rfl

/-- An index that is there is dropped. -/
theorem Turns.drop_index {column : String} (hn : T n = some t)
    (hhas : (t.indexes.any fun ix => ix.column = column) = true) :
    Turns V default [.drop_index n column] T
      (Function.update T n
        (some { t with indexes := t.indexes.filter fun ix => ix.column ≠ column })) :=
  Turns.modify trivial (fun _ => rfl) hn fun _ _ => if_pos hhas

/-- A foreign key that is there is dropped. -/
theorem Turns.drop_foreign_key {column : String} (hn : T n = some t)
    (hhas : (t.foreign_keys.any fun fk => fk.column = column) = true) :
    Turns V default [.drop_foreign_key n column] T
      (Function.update T n
        (some { t with foreign_keys := t.foreign_keys.filter fun fk => fk.column ≠ column })) :=
  Turns.modify trivial (fun _ => rfl) hn fun _ _ => if_pos hhas

/-- A new column without values, with an index that may be unique. -/
theorem Turns.add_unique {column : Column Ty} {ix : Index} (hn : T n = some t)
    (hnew : t.hasColumn column.name = false) (hnullable : column.nullable = true)
    (hdefault : column.server_default = none) (hix : ix.column = column.name)
    (hfree : (t.indexes.any fun ix' => ix'.column = ix.column) = false) :
    Turns V default [.add_column n column, .create_index n ix] T
      (Function.update T n
        (some { t with columns := t.columns ++ [column], indexes := t.indexes ++ [ix] })) := by
  refine Turns.of_run ?_ fun d hd => ?_
  · rintro statement (_ | ⟨_, _ | ⟨_, ⟨⟩⟩⟩) <;> trivial
  · let added : Database N Ty V :=
      { d with
        tables := Function.update d.tables n (some { t with columns := t.columns ++ [column] })
        rows := Function.update d.rows n
          ((d.rows n).map fun r => Function.update r column.name none) }
    have hadd : (Statement.add_column n column).apply default d = some added := by
      rw [Statement.apply, modify_eq (hd.tables ▸ hn), if_pos (by rw [hnew, hnullable]; rfl),
        hdefault]
      rfl
    have hindex : (Statement.create_index n ix).apply default added = some (added.setTable n
        { t with columns := t.columns ++ [column], indexes := t.indexes ++ [ix] }) := by
      refine modify_id (Function.update_self ..) (if_pos ?_)
      -- The new column has no values, so that none occurs twice.
      have hblank : ((added.rows n).filterMap fun r => r ix.column) = [] := by
        simp [added, hix, List.filterMap_map]
      rw [hblank, hfree, hasColumn_append, hix]
      simp
    refine ⟨_, by rw [run, hadd, Option.bind_some, run_singleton, hindex], ?_⟩
    simp [Database.setTable, added, hd.tables]

/-! ### Policies -/

/-- Enable a policy on a table, for its owner as well. -/
def protect (n : N) (policy : Policy) : List (Statement N Ty) :=
  [.enable_row_security n, .force_row_security n, .create_policy n policy]

/-- Take a policy from a table; that it is forced stays. -/
def unprotect (n : N) (name : String) : List (Statement N Ty) :=
  [.drop_policy n name, .disable_row_security n]

/-- A policy of a new name, on columns that the table has, is enabled, and row security with it. -/
theorem Turns.protect {policy : Policy} (hn : T n = some t)
    (hcolumns : policy.columns.all t.hasColumn = true)
    (hnew : (t.policies.any fun p => p.name = policy.name) = false) :
    Turns V default (protect n policy) T (Function.update T n
      (some { t with row_security := true, policies := t.policies ++ [policy] })) := by
  intro d hd
  let enabled := d.setTable n { t with row_security := true }
  let forced : Database N Ty V :=
    { enabled with forced := Function.update enabled.forced n true }
  have henable : (Statement.enable_row_security n).apply default d = some enabled :=
    modify_id (hd.tables ▸ hn) rfl
  have hforce : (Statement.force_row_security n).apply default enabled = some forced := by
    rw [Statement.apply, if_pos (by simp [enabled])]
  have hpolicy : (Statement.create_policy n policy).apply default forced = some (forced.setTable n
      { t with row_security := true, policies := t.policies ++ [policy] }) := by
    have hforced : forced.tables n = some { t with row_security := true } :=
      d.setTable_tables n _
    refine modify_id hforced (if_pos ?_)
    rw [hnew, Bool.not_false, Bool.and_true]
    exact hcolumns
  have hrun : run default d (SchemaChanges.protect n policy) = some (forced.setTable n
      { t with row_security := true, policies := t.policies ++ [policy] }) := by
    rw [SchemaChanges.protect, run, henable, Option.bind_some, run, hforce, Option.bind_some,
      run_singleton, hpolicy]
  refine ⟨_, hrun, ?_, integrity_run hd.integrity hrun, ?_⟩
  · simp [Database.setTable, forced, enabled, hd.tables]
  · intro m u hu hsecurity
    by_cases hmn : m = n
    · simp [forced, Database.setTable, hmn]
    · have hu' : d.tables m = some u := by
        simpa [Database.setTable, forced, enabled, hmn] using hu
      simpa [forced, enabled, Database.setTable, hmn] using hd.forced m u hu' hsecurity

/-- A table loses its row security, and the policy of that name. -/
theorem Turns.unprotect {name : String} (hn : T n = some t) :
    Turns V default (unprotect n name) T (Function.update T n
      (some { t with
        row_security := false, policies := t.policies.filter fun p => p.name ≠ name })) := by
  have hdrop : Turns V default [.drop_policy n name] T (Function.update T n
      (some { t with policies := t.policies.filter fun p => p.name ≠ name })) :=
    Turns.modify trivial (fun _ => rfl) hn fun _ _ => rfl
  have hdisable : Turns V default [.disable_row_security n]
      (Function.update T n
        (some { t with policies := t.policies.filter fun p => p.name ≠ name }))
      (Function.update (Function.update T n _) n
        (some { t with
          row_security := false, policies := t.policies.filter fun p => p.name ≠ name })) :=
    Turns.modify trivial (fun _ => rfl) (Function.update_self ..) fun _ _ => rfl
  rw [Function.update_idem] at hdisable
  exact hdrop.append hdisable

/-! ### A column that is copied from a parent row -/

section Denormalize

variable {parent : N} {p : Table N Ty} {name : String} {type : Ty} {source pk key : String}
  {fk : ForeignKey N} {ix : Index}

/-- Add a column, fill it from the row that the key of each row refers to, and let it be required, a
foreign key and indexed. -/
def denormalize (n : N) (name : String) (type : Ty) (parent : N) (source pk key : String)
    (fk : ForeignKey N) (ix : Index) : List (Statement N Ty) :=
  [.add_column n ⟨name, type, true, none⟩, .backfill n name parent source pk key,
    .alter_column n name false, .create_foreign_key n fk, .create_index n ix]

/-- Every row of `t` has a parent, a row of `p` with a value to be copied, which is the key of a row
that `fk` may refer to. -/
structure Denormalizes (t p : Table N Ty) (parent : N) (name source pk key : String)
    (fk : ForeignKey N) : Prop where
  visible : t.visible = true ∧ p.visible = true
  new : t.hasColumn name = false
  unused : t.uses name = false
  parent_key : ∃ fk' ∈ t.foreign_keys, fk'.column = key ∧ fk'.target = parent ∧ fk'.referred = pk
  has_parent : ∃ c ∈ t.columns, c.name = key ∧ c.nullable = false
  key : p.primary_key = [pk]
  has_source : ∃ c ∈ p.columns, c.name = source ∧ c.nullable = false
  source_key : ∃ fk' ∈ p.foreign_keys, fk'.column = source ∧ fk'.target = fk.target ∧
    fk'.referred = fk.referred
  column : fk.column = name

/-- The value that a row gets. -/
def copied (parents : List (Row V)) (source pk key : String) (r : Row V) : Option V :=
  (r key).bind fun v => (parents.find? fun p => p pk = some v).bind fun p => p source

omit [DecidableEq N] [Fintype N] in
/-- **The value that a row gets is there**: the key of the row is that of a parent, which is
unique, so that the copy is the value of this parent. -/
theorem exists_copied (h : Denormalizes t p parent name source pk key fk) (hd : d.Integrity)
    (hn : d.tables n = some t) (hp : d.tables parent = some p) {r : Row V} (hr : r ∈ d.rows n) :
    ∃ q ∈ d.rows parent, ∃ v w, r key = some v ∧ q pk = some v ∧ q source = some w ∧
      copied (d.rows parent) source pk key r = some w := by
  obtain ⟨c, hc, rfl, hrequired⟩ := h.has_parent
  obtain ⟨v, hv⟩ := Option.ne_none_iff_exists'.mp ((hd.fits n t hn).not_null r hr c hc hrequired)
  obtain ⟨fk', hfk', hcolumn, rfl, rfl⟩ := h.parent_key
  obtain ⟨q₀, hq₀, hkey₀⟩ := (hd.refers n t hn fk' hfk').values r hr v (hcolumn ▸ hv)
  obtain ⟨q, hfind⟩ : ∃ q, ((d.rows fk'.target).find? fun p => p fk'.referred = some v) = some q :=
    Option.isSome_iff_exists.mp
      (List.find?_isSome.mpr ⟨q₀, hq₀, decide_eq_true hkey₀⟩)
  have hq := List.mem_of_find?_eq_some hfind
  have hqv : q fk'.referred = some v := by simpa using List.find?_some hfind
  obtain ⟨s, hs, rfl, hsource⟩ := h.has_source
  obtain ⟨w, hw⟩ := Option.ne_none_iff_exists'.mp ((hd.fits _ p hp).not_null q hq s hs hsource)
  refine ⟨q, hq, v, w, hv, hqv, hw, ?_⟩
  rw [copied, hv, Option.bind_some, hfind, Option.bind_some, hw]

/-- The database with another table of that name, whose rows have got a value in one column. -/
def Database.filled (d : Database N Ty V) (n : N) (t : Table N Ty) (name : String)
    (f : Row V → Option V) : Database N Ty V :=
  { d with
    tables := Function.update d.tables n (some t)
    rows := Function.update d.rows n ((d.rows n).map fun r => Function.update r name (f r)) }

section Filled

variable {f : Row V → Option V}

omit [Fintype N] [DecidableEq V] in
/-- The table that has been filled is there. -/
@[simp] theorem Database.filled_tables (d : Database N Ty V) (n : N) (t : Table N Ty)
    (name : String) (f : Row V → Option V) : (d.filled n t name f).tables n = some t :=
  Function.update_self ..

omit [Fintype N] [DecidableEq V] in
/-- Its rows are the rows of before, with the value in the new column. -/
@[simp] theorem Database.filled_rows (d : Database N Ty V) (n : N) (t : Table N Ty)
    (name : String) (f : Row V → Option V) :
    (d.filled n t name f).rows n = (d.rows n).map fun r => Function.update r name (f r) :=
  Function.update_self ..

omit [Fintype N] [DecidableEq V] in
/-- Other tables are as they were. -/
theorem Database.filled_tables_of_ne (d : Database N Ty V) {m : N} (hm : m ≠ n) (t : Table N Ty)
    (name : String) (f : Row V → Option V) : (d.filled n t name f).tables m = d.tables m :=
  Function.update_of_ne hm ..

omit [Fintype N] [DecidableEq V] in
/-- And so are their rows. -/
theorem Database.filled_rows_of_ne (d : Database N Ty V) {m : N} (hm : m ≠ n) (t : Table N Ty)
    (name : String) (f : Row V → Option V) : (d.filled n t name f).rows m = d.rows m :=
  Function.update_of_ne hm ..

omit [Fintype N] [DecidableEq V] in
/-- The catalogue is changed after that. -/
theorem modify_filled {F : Table N Ty → Option (Table N Ty)} (hF : F t = some t') :
    (d.filled n t name f).modify n F id = some (d.filled n t' name f) := by
  rw [modify_id (d.filled_tables n t name f) hF, Database.setTable, Database.filled,
    Database.filled, Function.update_idem]

omit [DecidableEq N] [Fintype N] [DecidableEq V] in
/-- The name of a new column is none of those in use. -/
theorem name_ne_of_mem {c : Column Ty} (hnew : t.hasColumn name = false) (hc : c ∈ t.columns) :
    c.name ≠ name := by
  rintro rfl
  have hhas : t.hasColumn c.name = true := List.any_eq_true.mpr ⟨c, hc, decide_eq_true rfl⟩
  rw [hnew] at hhas
  cases hhas

/-- Add the column and fill it. -/
theorem run_backfill (h : Denormalizes t p parent name source pk key fk) (hd : d.Integrity)
    (hn : d.tables n = some t) (hp : d.tables parent = some p) (hne : parent ≠ n) :
    run default d [.add_column n ⟨name, type, true, none⟩,
        .backfill n name parent source pk key] =
      some (d.filled n { t with columns := t.columns ++ [⟨name, type, true, none⟩] } name
        (copied (d.rows parent) source pk key)) := by
  let wide : Table N Ty := { t with columns := t.columns ++ [⟨name, type, true, none⟩] }
  have hadd : (Statement.add_column n ⟨name, type, true, none⟩).apply default d =
      some (d.filled n wide name fun _ => none) := by
    rw [Statement.apply, modify_eq hn, if_pos (by simp [h.new])]
    rfl
  obtain ⟨fk', hfk', hfkey, -⟩ := h.parent_key
  have hkey : t.hasColumn key = true := hfkey ▸ (hd.refers n t hn fk' hfk').column
  have hkeyne : key ≠ name := by
    rintro rfl
    rw [h.new] at hkey
    cases hkey
  have hsource : p.hasColumn source = true := by
    obtain ⟨c, hc, rfl, -⟩ := h.has_source
    exact List.any_eq_true.mpr ⟨c, hc, decide_eq_true rfl⟩
  have hcondition : (((d.filled n wide name fun _ => none).tables parent).any fun p =>
      p.visible && p.hasColumn source && p.primary_key = [pk]) = true := by
    simp [Database.filled, hne, hp, h.visible.2, hsource, h.key]
  have hnullable : (wide.columns.all fun c => c.name ≠ name || c.nullable) = true := by
    refine List.all_eq_true.mpr fun c hc => ?_
    rcases List.mem_append.mp hc with hc | hc
    · simp [name_ne_of_mem h.new hc]
    · obtain rfl := List.mem_singleton.mp hc
      simp
  have hwide : wide.visible = true ∧ wide.hasColumn name = true ∧ wide.hasColumn key = true ∧
      wide.uses name = false :=
    ⟨h.visible.1, by simp [wide, hasColumn_append], by simp [wide, hasColumn_append, hkey],
      h.unused⟩
  obtain ⟨hvisible, hname, hkey, hunused⟩ := hwide
  rw [run, hadd, Option.bind_some, run_singleton, Statement.apply,
    modify_eq (d.filled_tables n wide name _), if_pos, Option.map_some]
  · simp only [Database.filled, Function.update_idem, Function.update_self,
      Function.update_of_ne hne, List.map_map]
    congr 3
    refine List.map_congr_left fun r _ => ?_
    simp [copied, Function.update_of_ne hkeyne]
  · rw [hcondition, hnullable, hvisible, hname, hkey, hunused]
    rfl

/-- A column that is filled may be required. -/
theorem apply_required (hnew : t.hasColumn name = false) (hf : ∀ r ∈ d.rows n, f r ≠ none) :
    (Statement.alter_column n name false).apply default
        (d.filled n { t with columns := t.columns ++ [⟨name, type, true, none⟩] } name f) =
      some (d.filled n { t with columns := t.columns ++ [⟨name, type, false, none⟩] } name f) := by
  have hothers :
      (t.columns.map fun c => if c.name = name then { c with nullable := false } else c) =
        t.columns :=
    (List.map_congr_left fun c hc => if_neg (name_ne_of_mem hnew hc)).trans (List.map_id _)
  have hall : (((d.rows n).map fun r => Function.update r name (f r)).all
      fun r => (r name).isSome) = true := by
    refine List.all_eq_true.mpr fun r' hr' => ?_
    obtain ⟨r, hr, rfl⟩ := List.mem_map.mp hr'
    rw [Function.update_self]
    exact Option.isSome_iff_ne_none.mpr (hf r hr)
  refine modify_filled ?_
  rw [if_pos]
  · rw [List.map_append, hothers]
    simp
  · rw [Database.filled_rows, hall, hasColumn_append]
    simp

/-- A foreign key may be on a column whose values are those of rows of its target. -/
theorem apply_foreign_key (hcolumn : fk.column = name) (hhas : t.hasColumn name = true)
    (htarget : fk.target ≠ n) (hkey : d.hasKey fk = true)
    (hf : ∀ r ∈ d.rows n, ∀ v, f r = some v → ∃ q ∈ d.rows fk.target, q fk.referred = some v) :
    (Statement.create_foreign_key n fk).apply default (d.filled n t name f) =
      some (d.filled n { t with foreign_keys := t.foreign_keys ++ [fk] } name f) := by
  have hkey' : (d.filled n t name f).hasKey fk = true := by
    rw [← hkey, Database.hasKey, Database.hasKey, Database.filled_tables_of_ne d htarget]
  refine modify_filled (if_pos ?_)
  rw [Database.filled_rows, Database.filled_rows_of_ne d htarget, hkey', hcolumn, hhas,
    Bool.true_and, Bool.true_and]
  refine List.all_eq_true.mpr fun r' hr' => ?_
  obtain ⟨r, hr, rfl⟩ := List.mem_map.mp hr'
  rw [Function.update_self]
  cases hv : f r with
  | none => rfl
  | some v =>
      obtain ⟨q, hq, hqv⟩ := hf r hr v hv
      exact List.any_eq_true.mpr ⟨q, hq, decide_eq_true hqv⟩

end Filled

/-- The table with the column, its foreign key and its index. -/
def Table.denormalized (t : Table N Ty) (name : String) (type : Ty) (fk : ForeignKey N)
    (ix : Index) : Table N Ty :=
  { t with
    columns := t.columns ++ [⟨name, type, false, none⟩]
    foreign_keys := t.foreign_keys ++ [fk]
    indexes := t.indexes ++ [ix] }

/-- **A column is copied from the parent rows.** -/
theorem run_denormalize (h : Denormalizes t p parent name source pk key fk) (hd : d.Integrity)
    (hn : d.tables n = some t) (hp : d.tables parent = some p) (hne : parent ≠ n)
    (htarget : fk.target ≠ n) :
    run default d (denormalize n name type parent source pk key fk ⟨name, false⟩) =
      some (d.filled n (t.denormalized name type fk ⟨name, false⟩) name
        (copied (d.rows parent) source pk key)) := by
  have hvalue : ∀ r ∈ d.rows n, ∃ q ∈ d.rows parent, ∃ w, q source = some w ∧
      copied (d.rows parent) source pk key r = some w := by
    intro r hr
    obtain ⟨q, hq, v, w, -, -, hw, hcopied⟩ := exists_copied h hd hn hp hr
    exact ⟨q, hq, w, hw, hcopied⟩
  have hsome : ∀ r ∈ d.rows n, copied (d.rows parent) source pk key r ≠ none := by
    intro r hr
    obtain ⟨-, -, w, -, hcopied⟩ := hvalue r hr
    rw [hcopied]
    exact Option.some_ne_none w
  obtain ⟨fk', hfk', hsource, htarget', hreferred'⟩ := h.source_key
  have hrefers := hd.refers parent p hp fk' hfk'
  have hkey : d.hasKey fk = true := by
    rw [← hrefers.target, Database.hasKey, Database.hasKey, htarget', hreferred']
  have hkeyed : ∀ r ∈ d.rows n, ∀ v, copied (d.rows parent) source pk key r = some v →
      ∃ q ∈ d.rows fk.target, q fk.referred = some v := by
    intro r hr v hv
    obtain ⟨q, hq, w, hw, hcopied⟩ := hvalue r hr
    obtain rfl := Option.some.inj (hcopied.symm.trans hv)
    rw [← htarget', ← hreferred']
    exact hrefers.values q hq w (hsource ▸ hw)
  have hindex : (Statement.create_index n ⟨name, false⟩).apply default (d.filled n
      { t with
        columns := t.columns ++ [⟨name, type, false, none⟩]
        foreign_keys := t.foreign_keys ++ [fk] } name (copied (d.rows parent) source pk key)) =
        some (d.filled n (t.denormalized name type fk ⟨name, false⟩) name
          (copied (d.rows parent) source pk key)) := by
    refine modify_filled (if_pos ?_)
    have hfree : (t.indexes.any fun ix => ix.column = name) = false := by
      have hunused := of_decide_eq_false h.unused
      simp only [not_or] at hunused
      simpa using hunused.2.2.2.1
    dsimp only
    rw [hfree]
    simp [Table.hasColumn]
  have hscript : (denormalize n name type parent source pk key fk ⟨name, false⟩ :
      List (Statement N Ty)) =
        [.add_column n ⟨name, type, true, none⟩, .backfill n name parent source pk key] ++
          [.alter_column n name false, .create_foreign_key n fk, .create_index n ⟨name, false⟩] :=
    rfl
  rw [hscript, run_append, run_backfill h hd hn hp hne, Option.bind_some, run,
    apply_required h.new hsome, Option.bind_some, run,
    apply_foreign_key h.column (by simp [hasColumn_append]) htarget hkey hkeyed, Option.bind_some,
    run_singleton, hindex]

omit [Fintype N] in
/-- Every row has the value of its parent. -/
theorem rows_denormalize (h : Denormalizes t p parent name source pk key fk) (hd : d.Integrity)
    (hn : d.tables n = some t) (hp : d.tables parent = some p) (hne : parent ≠ n)
    (t' : Table N Ty) :
    ∀ r' ∈ (d.filled n t' name (copied (d.rows parent) source pk key)).rows n,
      ∃ q ∈ (d.filled n t' name (copied (d.rows parent) source pk key)).rows parent, ∃ v w,
        r' key = some v ∧ q pk = some v ∧ r' name = some w ∧ q source = some w := by
  intro r' hr'
  rw [Database.filled_rows] at hr'
  obtain ⟨r, hr, rfl⟩ := List.mem_map.mp hr'
  obtain ⟨q, hq, v, w, hv, hqv, hw, hcopied⟩ := exists_copied h hd hn hp hr
  obtain ⟨fk', hfk', hfkey, -⟩ := h.parent_key
  have hkey : t.hasColumn key = true := hfkey ▸ (hd.refers n t hn fk' hfk').column
  have hkeyne : key ≠ name := by
    rintro rfl
    rw [h.new] at hkey
    cases hkey
  refine ⟨q, ?_, v, w, by rw [Function.update_of_ne hkeyne, hv], hqv, ?_, hw⟩
  · rwa [Database.filled_rows_of_ne d hne]
  · rw [Function.update_self, hcopied]

/-- **A value is copied into every row** of a table: the column is added as nullable, filled, made
required, and then gets its foreign key and its index. -/
theorem Turns.denormalize (h : Denormalizes t p parent name source pk key fk)
    (hn : T n = some t) (hp : T parent = some p) (hne : parent ≠ n) (htarget : fk.target ≠ n) :
    Turns V default (denormalize n name type parent source pk key fk ⟨name, false⟩) T
      (Function.update T n (some (t.denormalized name type fk ⟨name, false⟩))) := by
  refine Turns.of_run ?_ fun d hd => ?_
  · rintro statement (_ | ⟨_, _ | ⟨_, _ | ⟨_, _ | ⟨_, _ | ⟨_, ⟨⟩⟩⟩⟩⟩⟩) <;> trivial
  · obtain ⟨rfl, hintegrity, -⟩ := hd
    exact ⟨_, run_denormalize h hintegrity hn hp hne htarget, rfl⟩

end Denormalize

end SchemaChanges
