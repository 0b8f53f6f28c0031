import BackendManager.SchemaTables
import Mathlib.Data.Fintype.Basic

/-!
# Changes of a Schema with Rows in It

The statements that change the schema of a database while rows are stored. A statement fails if the
database refuses it, for the sake of the schema (a table that exists cannot be created again, one
that another table refers to cannot be dropped, a column cannot be dropped under an index, a
constraint or a policy) or of the rows (a column cannot be made `NOT NULL` over a `NULL`, nor an
index unique over a value that occurs twice, nor a foreign key be created over a value that no row
has).

Each statement is a partial function on databases, and a script is their composition, in which
the first failure is the end. A default of a new column is written into the rows that are there.
The integrity that is kept is that of the rows with respect to the schema
(`Database.Integrity`), so that a script that is accepted cannot leave a row that its table
would not have admitted.

## Main results

* `integrity_run`: statements that are accepted keep the integrity.
* `run_create`, `run_drop`: a table with its indexes is added and removed as a whole.
* `run_rows`: statements that only add keep every value.
-/

namespace SchemaChanges

variable {N Ty V : Type}

/-! ### Statements -/

inductive Statement (N Ty : Type)
  /-- `CREATE TABLE`, of a table without indexes and policies. -/
  | create_table (n : N) (columns : List (Column Ty)) (primary_key : List String)
      (foreign_keys : List (ForeignKey N)) (unique_constraints : List (List String))
  | drop_table (n : N)
  | add_column (n : N) (column : Column Ty)
  | drop_column (n : N) (column : String)
  /-- `SET NOT NULL`, or `DROP NOT NULL`. -/
  | alter_column (n : N) (column : String) (nullable : Bool)
  | create_foreign_key (n : N) (fk : ForeignKey N)
  | drop_foreign_key (n : N) (column : String)
  | create_index (n : N) (ix : Index)
  | drop_index (n : N) (column : String)
  | enable_row_security (n : N)
  | disable_row_security (n : N)
  | force_row_security (n : N)
  | create_policy (n : N) (policy : Policy)
  /-- `DROP POLICY IF EXISTS`. -/
  | drop_policy (n : N) (name : String)
  /-- `UPDATE n SET column = (SELECT source FROM parent WHERE id = key) WHERE column IS NULL`. -/
  | backfill (n : N) (column : String) (parent : N) (source id key : String)

section Run

variable [DecidableEq N]

instance [Fintype N] (d : Database N Ty V) (n : N) : Decidable (d.Referenced n) :=
  inferInstanceAs (Decidable (∃ m, m ≠ n ∧ ∃ t ∈ d.tables m, ∃ fk ∈ t.foreign_keys, fk.target = n))

variable [Fintype N] [DecidableEq V] (default : String → V)

/-- One statement; `none` if the database refuses it. `default` is the value of a default. -/
def Statement.apply (d : Database N Ty V) : Statement N Ty → Option (Database N Ty V)
  | .create_table n columns primary_key foreign_keys unique_constraints =>
      let t : Table N Ty := ⟨columns, primary_key, foreign_keys, unique_constraints, [], false, []⟩
      if (d.tables n).isNone ∧ primary_key.all t.hasColumn ∧
          foreign_keys.all fun fk => t.hasColumn fk.column && d.hasKey fk then
        some
          { tables := Function.update d.tables n (some t)
            forced := Function.update d.forced n false
            rows := Function.update d.rows n [] }
      else none
  | .drop_table n =>
      if (d.tables n).isSome ∧ ¬ d.Referenced n then
        some { d with
          tables := Function.update d.tables n none
          rows := Function.update d.rows n [] }
      else none
  | .add_column n column => d.modify n
      (fun t =>
        -- The rows that exist get the default.
        if !t.hasColumn column.name &&
            (column.nullable || column.server_default.isSome || (d.rows n).isEmpty) then
          some { t with columns := t.columns ++ [column] }
        else none)
      fun r => Function.update r column.name (column.server_default.map default)
  | .drop_column n column => d.modify n
      (fun t =>
        if t.hasColumn column && !t.uses column then
          some { t with columns := t.columns.filter fun c => c.name ≠ column }
        else none)
      fun r => Function.update r column none
  | .alter_column n column nullable => d.modify n
      (fun t =>
        if t.hasColumn column && (nullable || (d.rows n).all fun r => (r column).isSome) then
          some { t with columns :=
            t.columns.map fun c => if c.name = column then { c with nullable } else c }
        else none)
      id
  | .create_foreign_key n fk => d.modify n
      (fun t =>
        if t.hasColumn fk.column && d.hasKey fk && (d.rows n).all fun r =>
            (r fk.column).all fun v => (d.rows fk.target).any fun p => p fk.referred = some v then
          some { t with foreign_keys := t.foreign_keys ++ [fk] }
        else none)
      id
  | .drop_foreign_key n column => d.modify n
      (fun t =>
        if t.foreign_keys.any fun fk => fk.column = column then
          some { t with foreign_keys := t.foreign_keys.filter fun fk => fk.column ≠ column }
        else none)
      id
  | .create_index n ix => d.modify n
      (fun t =>
        if t.hasColumn ix.column && (!t.indexes.any fun ix' => ix'.column = ix.column) &&
            (!ix.unique || ((d.rows n).filterMap fun r => r ix.column).Nodup) then
          some { t with indexes := t.indexes ++ [ix] }
        else none)
      id
  | .drop_index n column => d.modify n
      (fun t =>
        if t.indexes.any fun ix => ix.column = column then
          some { t with indexes := t.indexes.filter fun ix => ix.column ≠ column }
        else none)
      id
  | .enable_row_security n => d.modify n (fun t => some { t with row_security := true }) id
  | .disable_row_security n => d.modify n (fun t => some { t with row_security := false }) id
  | .force_row_security n =>
      if (d.tables n).isSome then some { d with forced := Function.update d.forced n true }
      else none
  | .create_policy n policy => d.modify n
      (fun t =>
        if (policy.columns.all t.hasColumn) && !t.policies.any fun p => p.name = policy.name then
          some { t with policies := t.policies ++ [policy] }
        else none)
      id
  | .drop_policy n name => d.modify n
      (fun t => some { t with policies := t.policies.filter fun p => p.name ≠ name }) id
  | .backfill n column parent source pk key => d.modify n
      (fun t =>
        -- At most one row has the key, and no constraint is on the column.
        if ((d.tables parent).any fun p =>
              p.visible && p.hasColumn source && p.primary_key = [pk]) &&
            t.visible && t.hasColumn column && t.hasColumn key && !t.uses column &&
            t.columns.all fun c => c.name ≠ column || c.nullable then some t
        else none)
      fun r =>
        if r column = none then
          Function.update r column <| (r key).bind fun v =>
            ((d.rows parent).find? fun p => p pk = some v).bind fun p => p source
        else r

/-- The statements in their order; the first one that is refused ends them. -/
def run (d : Database N Ty V) : List (Statement N Ty) → Option (Database N Ty V)
  | [] => some d
  | statement :: rest => (statement.apply default d).bind fun d' => run d' rest

variable {default} {d d' : Database N Ty V} {n : N} {t t' : Table N Ty}
  {statements : List (Statement N Ty)} {kept : N → String → Prop}

/-- The empty script changes nothing. -/
@[simp] theorem run_nil : run default d ([] : List (Statement N Ty)) = some d := rfl

/-- Scripts are run one after the other. -/
theorem run_append (l l' : List (Statement N Ty)) :
    run default d (l ++ l') = (run default d l).bind fun d' => run default d' l' := by
  induction l generalizing d with
  | nil => rfl
  | cons statement l ih =>
      rw [List.cons_append, run, run]
      cases statement.apply default d with
      | none => rfl
      | some d' => exact ih

/-- What a statement of one table does, if it is accepted. -/
theorem integrity_apply {statement : Statement N Ty} (h : d.Integrity)
    (happly : statement.apply default d = some d') : d'.Integrity := by
  cases statement with
  | create_table n columns primary_key foreign_keys unique_constraints =>
      rw [Statement.apply, Option.ite_none_right_eq_some] at happly
      obtain ⟨⟨hn, hkey, hforeign⟩, hd'⟩ := happly
      obtain rfl := Option.some.inj hd'
      refine h.create_table (Option.isNone_iff_eq_none.mp hn) (List.all_eq_true.mp hkey) ?_
      simpa using hforeign
  | drop_table n =>
      rw [Statement.apply, Option.ite_none_right_eq_some] at happly
      obtain ⟨⟨-, hn⟩, hd'⟩ := happly
      obtain rfl := Option.some.inj hd'
      exact h.drop_table hn
  | add_column n column =>
      obtain ⟨t, t', hn, hf, rfl⟩ := modify_some happly
      rw [Option.ite_none_right_eq_some] at hf
      obtain ⟨hcond, ht'⟩ := hf
      obtain rfl := Option.some.inj ht'
      simp only [Bool.and_eq_true, Bool.not_eq_true', Bool.or_eq_true] at hcond
      obtain ⟨hnew, hcond⟩ := hcond
      refine h.add_column hn hnew fun hnull => ?_
      rcases hcond with (hnullable | hdefault) | hempty
      · rw [hnull] at hnullable
        cases hnullable
      · exact .inl (by simpa [Option.isSome_iff_ne_none] using hdefault)
      · exact .inr (List.isEmpty_iff.mp hempty)
  | drop_column n column =>
      obtain ⟨t, t', hn, hf, rfl⟩ := modify_some happly
      rw [Option.ite_none_right_eq_some] at hf
      obtain ⟨hcond, ht'⟩ := hf
      obtain rfl := Option.some.inj ht'
      simp only [Bool.and_eq_true, Bool.not_eq_true'] at hcond
      exact h.drop_column hn hcond.2
  | alter_column n column nullable =>
      obtain ⟨t, t', hn, hf, rfl⟩ := modify_some happly
      rw [Option.ite_none_right_eq_some] at hf
      obtain ⟨hcond, ht'⟩ := hf
      obtain rfl := Option.some.inj ht'
      refine h.alter_column hn fun hnull r hr => ?_
      simp only [hnull, Bool.and_eq_true, Bool.false_or, List.all_eq_true] at hcond
      exact Option.isSome_iff_ne_none.mp (hcond.2 r hr)
  | create_foreign_key n fk =>
      obtain ⟨t, t', hn, hf, rfl⟩ := modify_some happly
      rw [Option.ite_none_right_eq_some] at hf
      obtain ⟨hcond, ht'⟩ := hf
      obtain rfl := Option.some.inj ht'
      refine h.modify_catalog hn rfl rfl fun fk' hfk' => ?_
      rcases List.mem_append.mp hfk' with hold | hnew
      · exact .inl hold
      · obtain rfl := List.mem_singleton.mp hnew
        simp only [Bool.and_eq_true, List.all_eq_true] at hcond
        obtain ⟨⟨hcolumn, htarget⟩, hvalues⟩ := hcond
        refine .inr ⟨hcolumn, htarget, fun r hr v hv => ?_⟩
        simpa [hv] using hvalues r hr
  | drop_foreign_key n column =>
      obtain ⟨t, t', hn, hf, rfl⟩ := modify_some happly
      rw [Option.ite_none_right_eq_some] at hf
      obtain ⟨-, ht'⟩ := hf
      obtain rfl := Option.some.inj ht'
      exact h.modify_catalog hn rfl rfl fun fk hfk => .inl (List.mem_of_mem_filter hfk)
  | create_index n ix =>
      obtain ⟨t, t', hn, hf, rfl⟩ := modify_some happly
      rw [Option.ite_none_right_eq_some] at hf
      obtain ⟨-, ht'⟩ := hf
      obtain rfl := Option.some.inj ht'
      exact h.modify_catalog hn rfl rfl fun fk hfk => .inl hfk
  | drop_index n column =>
      obtain ⟨t, t', hn, hf, rfl⟩ := modify_some happly
      rw [Option.ite_none_right_eq_some] at hf
      obtain ⟨-, ht'⟩ := hf
      obtain rfl := Option.some.inj ht'
      exact h.modify_catalog hn rfl rfl fun fk hfk => .inl hfk
  | enable_row_security n =>
      obtain ⟨t, t', hn, ht', rfl⟩ := modify_some happly
      obtain rfl := Option.some.inj ht'
      exact h.modify_catalog hn rfl rfl fun fk hfk => .inl hfk
  | disable_row_security n =>
      obtain ⟨t, t', hn, ht', rfl⟩ := modify_some happly
      obtain rfl := Option.some.inj ht'
      exact h.modify_catalog hn rfl rfl fun fk hfk => .inl hfk
  | force_row_security n =>
      rw [Statement.apply, Option.ite_none_right_eq_some] at happly
      obtain ⟨-, hd'⟩ := happly
      obtain rfl := Option.some.inj hd'
      exact ⟨h.absent, h.fits, fun m u hu fk hfk =>
        let href := h.refers m u hu fk hfk
        ⟨href.column, href.target, href.values⟩⟩
  | create_policy n policy =>
      obtain ⟨t, t', hn, hf, rfl⟩ := modify_some happly
      rw [Option.ite_none_right_eq_some] at hf
      obtain ⟨-, ht'⟩ := hf
      obtain rfl := Option.some.inj ht'
      exact h.modify_catalog hn rfl rfl fun fk hfk => .inl hfk
  | drop_policy n name =>
      obtain ⟨t, t', hn, ht', rfl⟩ := modify_some happly
      obtain rfl := Option.some.inj ht'
      exact h.modify_catalog hn rfl rfl fun fk hfk => .inl hfk
  | backfill n column parent source pk key =>
      obtain ⟨t, t', hn, hf, rfl⟩ := modify_some happly
      rw [Option.ite_none_right_eq_some] at hf
      obtain ⟨hcond, ht'⟩ := hf
      obtain rfl := Option.some.inj ht'
      simp only [Bool.and_eq_true, Bool.not_eq_true', List.all_eq_true, Bool.or_eq_true,
        decide_eq_true_eq] at hcond
      obtain ⟨⟨⟨⟨-, hhas⟩, -⟩, hunused⟩, hnullable⟩ := hcond
      refine h.update hn hunused hhas (fun c hc heq => ?_) fun r c hc => ?_
      · exact (hnullable c hc).elim (fun hne => absurd heq hne) id
      · split
        · rw [Function.update_of_ne hc]
        · rfl

/-- **Accepted statements keep the integrity.** -/
theorem integrity_run (h : d.Integrity) (hrun : run default d statements = some d') :
    d'.Integrity := by
  induction statements generalizing d with
  | nil =>
      obtain rfl := Option.some.inj hrun
      exact h
  | cons statement statements ih =>
      obtain ⟨middle, happly, hrest⟩ := Option.bind_eq_some_iff.mp hrun
      exact ih (integrity_apply h happly) hrest

/-! ### Tables with their indexes -/

/-- Create a table and then its indexes. -/
def create (n : N) (t : Table N Ty) : List (Statement N Ty) :=
  .create_table n t.columns t.primary_key t.foreign_keys t.unique_constraints ::
    t.indexes.map (.create_index n)

/-- Drop the indexes of a table, the last one first, and then the table. -/
def drop (n : N) (t : Table N Ty) : List (Statement N Ty) :=
  (t.indexes.reverse.map fun ix => .drop_index n ix.column) ++ [.drop_table n]

/-- The table can be created so: its keys and indexes are on columns that it has, an index at most
on each, and it has no policies yet. -/
def Table.plain (t : Table N Ty) : Bool :=
  t.primary_key.all t.hasColumn ∧ (t.foreign_keys.all fun fk => t.hasColumn fk.column) ∧
    (t.indexes.all fun ix => t.hasColumn ix.column) ∧ (t.indexes.map Index.column).Nodup ∧
    t.row_security = false ∧ t.policies = []

/-- The indexes of a new table are created one by one. -/
theorem run_create_indexes (hn : d.tables n = some t) (hrows : d.rows n = [])
    (indexes : List Index) (hcolumns : ∀ ix ∈ indexes, t.hasColumn ix.column = true)
    (hnodup : ((t.indexes ++ indexes).map Index.column).Nodup) :
    run default d (indexes.map (.create_index n)) =
      some (d.setTable n { t with indexes := t.indexes ++ indexes }) := by
  induction indexes generalizing d t with
  | nil =>
      rw [List.map_nil, run_nil, List.append_nil, Database.setTable_self hn]
  | cons ix indexes ih =>
      have hfree : (t.indexes.any fun ix' => ix'.column = ix.column) = false := by
        rw [List.any_eq_false]
        intro ix' hix'
        rw [List.map_append, List.nodup_append] at hnodup
        have hne := hnodup.2.2 _ (List.mem_map_of_mem hix') ix.column
          (List.mem_map_of_mem List.mem_cons_self)
        simpa using hne
      have hstep : (Statement.create_index n ix : Statement N Ty).apply default d =
          some (d.setTable n { t with indexes := t.indexes ++ [ix] }) := by
        refine modify_id hn (if_pos ?_)
        rw [hcolumns ix List.mem_cons_self, hfree, hrows]
        simp
      have hrest := ih (d.setTable_tables n { t with indexes := t.indexes ++ [ix] }) hrows
        (fun ix' h => hcolumns ix' (List.mem_cons_of_mem _ h)) (by simpa using hnodup)
      rw [List.map_cons, run, hstep, Option.bind_some, hrest, Database.setTable_setTable]
      simp only [List.append_assoc, List.singleton_append]

/-- **A table is created as a whole.** -/
theorem run_create (hn : d.tables n = none) (hrows : d.rows n = []) (hplain : t.plain = true)
    (htargets : ∀ fk ∈ t.foreign_keys, d.hasKey fk = true) :
    run default d (create n t) = some
      { tables := Function.update d.tables n (some t)
        forced := Function.update d.forced n false
        rows := d.rows } := by
  obtain ⟨hkey, hforeign, hcolumns, hnodup, hsecurity, hpolicies⟩ := of_decide_eq_true hplain
  have hsame : Function.update d.rows n [] = d.rows := Function.update_eq_self_iff.mpr hrows.symm
  have hstep : (Statement.create_table n t.columns t.primary_key t.foreign_keys
      t.unique_constraints : Statement N Ty).apply default d =
        some (Database.setTable { d with forced := Function.update d.forced n false } n
          { t with indexes := [] }) := by
    rw [Statement.apply, if_pos, hsame, hsecurity, hpolicies]
    · rfl
    · refine ⟨by rw [hn]; rfl, hkey, List.all_eq_true.mpr fun fk hfk => ?_⟩
      rw [htargets fk hfk, Bool.and_true]
      exact List.all_eq_true.mp hforeign fk hfk
  have hindexes : run default _ _ = _ := run_create_indexes
    (Database.setTable_tables { d with forced := Function.update d.forced n false } n
      { t with indexes := [] }) hrows t.indexes
    (fun ix hix => List.all_eq_true.mp hcolumns ix hix) hnodup
  rw [create, run, hstep, Option.bind_some, hindexes, Database.setTable_setTable]
  rfl

/-- And dropped in the opposite order. -/
theorem run_drop_indexes (hn : d.tables n = some t) (indexes : List Index)
    (hindexes : t.indexes = indexes.reverse) (hnodup : (t.indexes.map Index.column).Nodup) :
    run default d (indexes.map fun ix => .drop_index n ix.column) =
      some (d.setTable n { t with indexes := [] }) := by
  induction indexes generalizing d t with
  | nil =>
      have hsame : { t with indexes := [] } = t := by
        cases t
        simp_all
      rw [List.map_nil, run_nil, hsame, Database.setTable_self hn]
  | cons ix indexes ih =>
      rw [List.reverse_cons] at hindexes
      rw [hindexes, List.map_append, List.nodup_append] at hnodup
      have hothers : ∀ ix' ∈ indexes.reverse, ix'.column ≠ ix.column :=
        fun ix' hix' => hnodup.2.2 _ (List.mem_map_of_mem hix') _ (by simp)
      have hleft : (t.indexes.filter fun ix' => ix'.column ≠ ix.column) = indexes.reverse := by
        rw [hindexes, List.filter_append]
        simpa using hothers
      have hany : (t.indexes.any fun ix' => ix'.column = ix.column) = true := by
        rw [hindexes]
        simp
      have hstep : (Statement.drop_index n ix.column : Statement N Ty).apply default d =
          some (d.setTable n { t with indexes := indexes.reverse }) :=
        modify_id hn (by rw [if_pos hany, hleft])
      have hrest := ih (d.setTable_tables n { t with indexes := indexes.reverse }) rfl hnodup.1
      rw [List.map_cons, run, hstep, Option.bind_some, hrest, Database.setTable_setTable]

/-- **A table is dropped as a whole**, unless another one refers to it. -/
theorem run_drop (hn : d.tables n = some t) (hnodup : (t.indexes.map Index.column).Nodup)
    (hfree : ¬ d.Referenced n) :
    run default d (drop n t) = some { d with
      tables := Function.update d.tables n none
      rows := Function.update d.rows n [] } := by
  have hfree' : ¬ (d.setTable n { t with indexes := [] }).Referenced n := by
    rintro ⟨m, hm, u, hu, fk, hfk, htarget⟩
    refine hfree ⟨m, hm, u, ?_, fk, hfk, htarget⟩
    simpa [Database.setTable, hm] using hu
  rw [drop, run_append,
    run_drop_indexes hn t.indexes.reverse (List.reverse_reverse _).symm hnodup, Option.bind_some,
    run, Statement.apply, if_pos ⟨by simp, hfree'⟩, Option.bind_some, run_nil]
  simp only [Database.setTable, Function.update_idem]

/-! ### What is added leaves the values -/

/-- The statement only adds; a column that it fills is none of `kept`. -/
def Statement.Adds (kept : N → String → Prop) : Statement N Ty → Prop
  | .drop_table _ | .drop_column _ _ => False
  | .backfill n column _ _ _ _ => ¬ kept n column
  | _ => True

/-- **One statement** that only adds keeps the rows and their values, and the columns that were
there. -/
theorem extends_apply {statement : Statement N Ty} (hadds : statement.Adds kept)
    (h : d.Has kept) (happly : statement.apply default d = some d') :
    d.Extends d' kept ∧ d'.Has kept := by
  have hhas : ∀ n t, d.tables n = some t → ∀ c, kept n c → t.hasColumn c = true := by
    intro n t hn c hc
    obtain ⟨u, hu, hcolumn⟩ := h n c hc
    obtain rfl := Option.some.inj (hn.symm.trans hu)
    exact hcolumn
  cases statement with
  | create_table n columns primary_key foreign_keys unique_constraints =>
      rw [Statement.apply, Option.ite_none_right_eq_some] at happly
      obtain ⟨⟨hn, -, -⟩, hd'⟩ := happly
      obtain rfl := Option.some.inj hd'
      have hne : ∀ m, d.tables m ≠ none → m ≠ n := by
        rintro m hm rfl
        exact hm (Option.isNone_iff_eq_none.mp hn)
      constructor
      · intro m hm
        exact ⟨by simpa [hne m hm] using hm, id, by simp [hne m hm], fun _ _ _ => rfl⟩
      · intro m c hc
        obtain ⟨t, hm, hcolumn⟩ := h m c hc
        have hmn := hne m (by simp [hm])
        exact ⟨t, by simpa [hmn] using hm, hcolumn⟩
  | drop_table n => exact hadds.elim
  | add_column n column =>
      obtain ⟨t, t', hn, hf, rfl⟩ := modify_some happly
      rw [Option.ite_none_right_eq_some] at hf
      obtain ⟨hcond, ht'⟩ := hf
      obtain rfl := Option.some.inj ht'
      rw [Bool.and_eq_true, Bool.not_eq_true'] at hcond
      refine extends_modify (fun r c hc => Function.update_of_ne ?_ _ _) (fun c hc => ?_) h
      · rintro rfl
        rw [hhas n t hn _ hc] at hcond
        cases hcond.1
      · rw [hasColumn_append, hhas n t hn c hc, Bool.true_or]
  | drop_column n column => exact hadds.elim
  | alter_column n column nullable =>
      obtain ⟨t, t', hn, hf, rfl⟩ := modify_some happly
      rw [Option.ite_none_right_eq_some] at hf
      obtain ⟨-, ht'⟩ := hf
      obtain rfl := Option.some.inj ht'
      refine extends_modify (fun _ _ _ => rfl) (fun c hc => ?_) h
      rw [hasColumn_map fun c => by split <;> rfl]
      exact hhas n t hn c hc
  | force_row_security n =>
      rw [Statement.apply, Option.ite_none_right_eq_some] at happly
      obtain ⟨-, hd'⟩ := happly
      obtain rfl := Option.some.inj hd'
      exact ⟨Database.Extends.refl d kept, h⟩
  | enable_row_security n | disable_row_security n | drop_policy n name =>
      obtain ⟨t, t', hn, ht', rfl⟩ := modify_some happly
      obtain rfl := Option.some.inj ht'
      exact extends_modify (fun _ _ _ => rfl) (hhas n t hn) h
  | create_foreign_key n fk | drop_foreign_key n column | create_index n ix | drop_index n column
  | create_policy n policy =>
      obtain ⟨t, t', hn, hf, rfl⟩ := modify_some happly
      rw [Option.ite_none_right_eq_some] at hf
      obtain ⟨-, ht'⟩ := hf
      obtain rfl := Option.some.inj ht'
      exact extends_modify (fun _ _ _ => rfl) (hhas n t hn) h
  | backfill n column parent source pk key =>
      obtain ⟨t, t', hn, hf, rfl⟩ := modify_some happly
      rw [Option.ite_none_right_eq_some] at hf
      obtain ⟨-, ht'⟩ := hf
      obtain rfl := Option.some.inj ht'
      refine extends_modify (fun r c hc => ?_) (hhas n _ hn) h
      have hne : c ≠ column := by
        rintro rfl
        exact hadds hc
      split
      · rw [Function.update_of_ne hne]
      · rfl

/-- **Statements that only add keep every value.** -/
theorem run_rows (hadds : ∀ statement ∈ statements, statement.Adds kept) (h : d.Has kept)
    (hrun : run default d statements = some d') : d.Extends d' kept ∧ d'.Has kept := by
  induction statements generalizing d with
  | nil =>
      obtain rfl := Option.some.inj hrun
      exact ⟨Database.Extends.refl d kept, h⟩
  | cons statement statements ih =>
      obtain ⟨middle, happly, hrest⟩ := Option.bind_eq_some_iff.mp hrun
      obtain ⟨hfirst, hmiddle⟩ := extends_apply (hadds _ List.mem_cons_self) h happly
      obtain ⟨hlast, hhas⟩ := ih (fun s hs => hadds s (List.mem_cons_of_mem _ hs)) hmiddle hrest
      exact ⟨hfirst.trans hlast, hhas⟩

end Run

end SchemaChanges
