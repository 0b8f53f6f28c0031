import Mathlib.Data.List.Nodup
import Mathlib.Logic.Function.Basic

/-!
# Tables, Rows and Keys

A relational database: names are mapped to tables and to their rows, and a row maps columns to
values, and to none where it is `NULL`. The names of the tables, the types of the columns and the
values are parameters; nothing here names a particular schema. `FORCE ROW LEVEL SECURITY` is kept
apart from the tables, since nothing that is done to a table depends on it.

A statement on a table acts on its description and on its rows at once (`Database.modify`). The
lemmas are stated for one statement each and for tables with any rows; what the schema has to
provide for a statement to be safe is a hypothesis of its lemma, and is a decidable property of
the tables. A foreign key refers to a column of a primary key, whose values are distinct and not
`NULL`, so that a value determines the row that it refers to.

## Main results

* `Database.Integrity.create_table`, `drop_table`, `add_column`, `drop_column`, `alter_column`,
  `update`: what may be done to a table with rows in it, such that primary keys, foreign keys and
  `NOT NULL` columns are still what they say.
* `extends_modify`: a change of other columns keeps the values.
-/

namespace SchemaChanges

/-! ### Tables -/

structure Column (Ty : Type) where
  name : String
  type : Ty
  nullable : Bool
  server_default : Option String
deriving DecidableEq

structure ForeignKey (N : Type) where
  column : String
  target : N
  referred : String
  ondelete : String
deriving DecidableEq

/-- An index on one column. Its name is made of those of the table and the column. -/
structure Index where
  column : String
  unique : Bool
deriving DecidableEq

/-- A policy, with the columns that its conditions refer to. -/
structure Policy where
  name : String
  columns : List String
  existing : String
  new : String
deriving DecidableEq

structure Table (N Ty : Type) where
  columns : List (Column Ty)
  primary_key : List String
  foreign_keys : List (ForeignKey N)
  unique_constraints : List (List String)
  indexes : List Index
  row_security : Bool
  policies : List Policy
deriving DecidableEq

/-- The values of a row; a column that is `NULL` has none. -/
abbrev Row (V : Type) := String → Option V

structure Database (N Ty V : Type) where
  tables : N → Option (Table N Ty)
  /-- Which tables have `FORCE ROW LEVEL SECURITY`. -/
  forced : N → Bool
  rows : N → List (Row V)

variable {N Ty V : Type}

namespace Table

def hasColumn (t : Table N Ty) (column : String) : Bool :=
  t.columns.any fun c => c.name = column

/-- Something refers to the column. -/
def uses (t : Table N Ty) (column : String) : Bool :=
  column ∈ t.primary_key ∨ (t.foreign_keys.any fun fk => fk.column = column) ∨
    (t.unique_constraints.any fun columns => column ∈ columns) ∨
    (t.indexes.any fun ix => ix.column = column) ∨ t.policies.any fun p => column ∈ p.columns

/-- Statements see all the rows of the table. -/
def visible (t : Table N Ty) : Bool := !t.row_security

end Table

def Database.empty : Database N Ty V := ⟨fun _ => none, fun _ => false, fun _ => []⟩

/-! ### Integrity -/

/-- The column that a foreign key refers to is one of the primary key of its target. -/
def Database.hasKey (d : Database N Ty V) (fk : ForeignKey N) : Bool :=
  (d.tables fk.target).any fun t => fk.referred ∈ t.primary_key

/-- A table and its rows, by themselves. -/
structure Table.Fits (t : Table N Ty) (rows : List (Row V)) : Prop where
  key : ∀ c ∈ t.primary_key, t.hasColumn c = true
  blank : ∀ r ∈ rows, ∀ c, t.hasColumn c = false → r c = none
  not_null : ∀ r ∈ rows, ∀ c ∈ t.columns, c.nullable = false → r c.name ≠ none
  distinct : rows.Pairwise fun r r' => ∃ c ∈ t.primary_key, r c ≠ r' c

/-- The foreign key is on a column of the table, and its values are those of rows of the target. -/
structure Database.Refers (d : Database N Ty V) (t : Table N Ty) (rows : List (Row V))
    (fk : ForeignKey N) : Prop where
  column : t.hasColumn fk.column = true
  target : d.hasKey fk = true
  values : ∀ r ∈ rows, ∀ v, r fk.column = some v → ∃ p ∈ d.rows fk.target, p fk.referred = some v

/-- Primary keys, foreign keys and `NOT NULL` columns are what they say. -/
structure Database.Integrity (d : Database N Ty V) : Prop where
  absent : ∀ n, d.tables n = none → d.rows n = []
  fits : ∀ n t, d.tables n = some t → t.Fits (d.rows n)
  refers : ∀ n t, d.tables n = some t → ∀ fk ∈ t.foreign_keys, d.Refers t (d.rows n) fk

/-- The keys of a table are still there. -/
def Database.KeepsKeys (d d' : Database N Ty V) (n : N) : Prop :=
  ∀ t, d.tables n = some t → ∃ t', d'.tables n = some t' ∧ t'.primary_key = t.primary_key ∧
    ∀ p ∈ d.rows n, ∃ p' ∈ d'.rows n, ∀ c ∈ t.primary_key, p' c = p c

variable {d d' : Database N Ty V} {n : N} {t t' : Table N Ty} {g : Row V → Row V}

/-- What a foreign key may refer to: a column of the primary key of a table that exists. -/
theorem Database.hasKey_iff {fk : ForeignKey N} :
    d.hasKey fk = true ↔ ∃ t, d.tables fk.target = some t ∧ fk.referred ∈ t.primary_key := by
  rw [Database.hasKey]
  cases d.tables fk.target <;> simp

/-- A foreign key stays satisfied if the keys that it refers to stay, and its own values are not
changed. -/
theorem Database.Refers.mono {rows rows' : List (Row V)} {fk : ForeignKey N}
    (h : d.Refers t rows fk) (hkeeps : d.KeepsKeys d' fk.target)
    (hcolumn : t'.hasColumn fk.column = true)
    (hrows : ∀ r' ∈ rows', ∃ r ∈ rows, r' fk.column = r fk.column) : d'.Refers t' rows' fk := by
  obtain ⟨target, htarget, hreferred⟩ := Database.hasKey_iff.mp h.target
  obtain ⟨target', htarget', hkey, hkept⟩ := hkeeps target htarget
  refine ⟨hcolumn, Database.hasKey_iff.mpr ⟨target', htarget', hkey ▸ hreferred⟩, ?_⟩
  · intro r' hr' v hv
    obtain ⟨r, hr, hsame⟩ := hrows r' hr'
    obtain ⟨p, hp, hpv⟩ := h.values r hr v (hsame ▸ hv)
    obtain ⟨p', hp', hagree⟩ := hkept p hp
    exact ⟨p', hp', (hagree _ hreferred).trans hpv⟩

/-- A row with the same value in every column. -/
def Table.constant (t : Table N Ty) (v : V) : Row V :=
  fun c => if t.hasColumn c then some v else none

/-- The constant row has its value in every column of the table. -/
theorem Table.constant_of_hasColumn {v : V} {c : String} (h : t.hasColumn c = true) :
    t.constant v c = some v := if_pos h

/-- One such row in each table. -/
def Database.populated (d : Database N Ty V) (v : V) (n : N) : List (Row V) :=
  (d.tables n).elim [] fun t => [t.constant v]

/-- A populated database has one row in each table that exists. -/
theorem Database.populated_of_some {v : V} (hn : d.tables n = some t) :
    d.populated v n = [t.constant v] := by
  rw [Database.populated, hn]
  rfl

/-- Those can be the rows of a database. -/
theorem Database.Integrity.populated (h : d.Integrity) (v : V) :
    Database.Integrity { d with rows := d.populated v } := by
  refine ⟨fun n (hn : d.tables n = none) => ?_, fun n t (hn : d.tables n = some t) => ?_,
    fun n t (hn : d.tables n = some t) fk hfk => ?_⟩ <;> simp only
  · rw [Database.populated, hn]
    rfl
  · rw [Database.populated_of_some hn]
    refine ⟨(h.fits n t hn).key, ?_, ?_, List.pairwise_singleton _ _⟩
    · intro r hr c hc
      obtain rfl := List.mem_singleton.mp hr
      exact if_neg (by simp [hc])
    · rintro r hr c hc -
      obtain rfl := List.mem_singleton.mp hr
      have hcolumn : t.hasColumn c.name = true := List.any_eq_true.mpr ⟨c, hc, by simp⟩
      simp [Table.constant_of_hasColumn hcolumn]
  · obtain ⟨hcolumn, htarget, -⟩ := h.refers n t hn fk hfk
    obtain ⟨target, ht, hreferred⟩ := Database.hasKey_iff.mp htarget
    rw [Database.populated_of_some hn]
    refine ⟨hcolumn, htarget, fun r hr v' hv => ⟨target.constant v, ?_, ?_⟩⟩
    · simp [Database.populated_of_some ht]
    · obtain rfl := List.mem_singleton.mp hr
      rw [Table.constant_of_hasColumn hcolumn] at hv
      rw [← hv]
      exact Table.constant_of_hasColumn ((h.fits _ _ ht).key _ hreferred)

/-- A table changes what it says of its columns, and its rows only where no key is. -/
theorem Table.Fits.map {rows : List (Row V)} (h : t.Fits rows)
    (hkey : t'.primary_key = t.primary_key) (hg : ∀ r, ∀ c ∈ t.primary_key, g r c = r c)
    (hcolumns : ∀ c ∈ t.primary_key, t'.hasColumn c = true)
    (hblank : ∀ r ∈ rows, ∀ c, t'.hasColumn c = false → g r c = none)
    (hnull : ∀ r ∈ rows, ∀ c ∈ t'.columns, c.nullable = false → g r c.name ≠ none) :
    t'.Fits (rows.map g) := by
  refine ⟨fun c hc => hcolumns c (hkey ▸ hc), ?_, ?_, ?_⟩
  · intro r' hr' c hc
    obtain ⟨r, hr, rfl⟩ := List.mem_map.mp hr'
    exact hblank r hr c hc
  · intro r' hr' c hc hn
    obtain ⟨r, hr, rfl⟩ := List.mem_map.mp hr'
    exact hnull r hr c hc hn
  · refine List.pairwise_map.mpr (h.distinct.imp fun {r r'} hne => ?_)
    obtain ⟨c, hc, hne⟩ := hne
    exact ⟨c, hkey ▸ hc, by rw [hg r c hc, hg r' c hc]; exact hne⟩

/-- A column that nothing refers to is in no primary key and has no foreign key. -/
theorem Table.not_uses {column : String} (h : t.uses column = false) :
    column ∉ t.primary_key ∧ ∀ fk ∈ t.foreign_keys, fk.column ≠ column := by
  have h' := of_decide_eq_false h
  simp only [not_or, List.any_eq_true, decide_eq_true_eq, not_exists, not_and] at h'
  exact ⟨h'.1, h'.2.1⟩

/-- A table has the columns of before and the one that is added. -/
theorem hasColumn_append (columns : List (Column Ty)) (column : Column Ty) (c : String) :
    Table.hasColumn { t with columns := columns ++ [column] } c =
      (Table.hasColumn { t with columns } c || column.name = c) := by
  simp [Table.hasColumn]

/-- After a column is dropped the others are there. -/
theorem hasColumn_filter (column c : String) :
    Table.hasColumn { t with columns := t.columns.filter fun c => c.name ≠ column } c =
      (t.hasColumn c && c ≠ column) := by
  rw [Table.hasColumn, Table.hasColumn, List.any_filter, Bool.eq_iff_iff]
  simp only [List.any_eq_true, Bool.and_eq_true, decide_eq_true_eq]
  constructor
  · rintro ⟨column', hmem, hne, rfl⟩
    exact ⟨⟨column', hmem, rfl⟩, hne⟩
  · rintro ⟨⟨column', hmem, rfl⟩, hne⟩
    exact ⟨column', hmem, hne, rfl⟩

/-- Altering columns without renaming them keeps their names. -/
theorem hasColumn_map {f : Column Ty → Column Ty} (hf : ∀ column, (f column).name = column.name)
    (c : String) : Table.hasColumn { t with columns := t.columns.map f } c = t.hasColumn c := by
  simp [Table.hasColumn, List.any_map, Function.comp_def, hf]

section Change

variable [DecidableEq N]

/-- Change one table, which exists, and each of its rows. -/
def Database.modify (d : Database N Ty V) (n : N) (f : Table N Ty → Option (Table N Ty))
    (g : Row V → Row V) : Option (Database N Ty V) :=
  ((d.tables n).bind f).map fun t =>
    { d with
      tables := Function.update d.tables n (some t)
      rows := Function.update d.rows n ((d.rows n).map g) }

/-- The database with another table of that name. -/
def Database.setTable (d : Database N Ty V) (n : N) (t : Table N Ty) : Database N Ty V :=
  { d with tables := Function.update d.tables n (some t) }

/-- The table that is set is there. -/
@[simp] theorem Database.setTable_tables (d : Database N Ty V) (n : N) (t : Table N Ty) :
    (d.setTable n t).tables n = some t := Function.update_self ..

/-- Setting a table leaves all rows. -/
@[simp] theorem Database.setTable_rows (d : Database N Ty V) (n : N) (t : Table N Ty) :
    (d.setTable n t).rows = d.rows := rfl

/-- Of two tables that are set, the second counts. -/
@[simp] theorem Database.setTable_setTable (d : Database N Ty V) (n : N) (t t' : Table N Ty) :
    (d.setTable n t).setTable n t' = d.setTable n t' := by
  rw [setTable, setTable, setTable, Function.update_idem]

/-- Setting the table that is there changes nothing. -/
theorem Database.setTable_self (hn : d.tables n = some t) : d.setTable n t = d := by
  rw [setTable, ← hn, Function.update_eq_self]

/-- A change of a table that exists, with its rows, in closed form. -/
theorem modify_eq (h : d.tables n = some t) (f : Table N Ty → Option (Table N Ty))
    (g : Row V → Row V) :
    d.modify n f g = (f t).map fun t' =>
      { d with
        tables := Function.update d.tables n (some t')
        rows := Function.update d.rows n ((d.rows n).map g) } := by
  rw [Database.modify, h, Option.bind_some]

/-- A change that succeeds has found its table. -/
theorem modify_some {f : Table N Ty → Option (Table N Ty)} (h : d.modify n f g = some d') :
    ∃ t t', d.tables n = some t ∧ f t = some t' ∧
      d' = { d with
        tables := Function.update d.tables n (some t')
        rows := Function.update d.rows n ((d.rows n).map g) } := by
  rw [Database.modify, Option.map_eq_some_iff] at h
  obtain ⟨t', hbind, rfl⟩ := h
  obtain ⟨t, ht, hf⟩ := Option.bind_eq_some_iff.mp hbind
  exact ⟨t, t', ht, hf, rfl⟩

/-- The catalogue is changed, but no row. -/
theorem modify_id (hn : d.tables n = some t) {f : Table N Ty → Option (Table N Ty)}
    (hf : f t = some t') : d.modify n f id = some (d.setTable n t') := by
  rw [modify_eq hn, hf, Option.map_some, List.map_id, Function.update_eq_self]
  rfl

/-- Another table has a foreign key to this one. -/
def Database.Referenced (d : Database N Ty V) (n : N) : Prop :=
  ∃ m, m ≠ n ∧ ∃ t ∈ d.tables m, ∃ fk ∈ t.foreign_keys, fk.target = n

/-- One table is changed, but not its primary key. -/
theorem Database.Integrity.modify (h : d.Integrity) (hn : d.tables n = some t)
    (hkey : t'.primary_key = t.primary_key) (hg : ∀ r, ∀ c ∈ t.primary_key, g r c = r c)
    (hfits : t'.Fits ((d.rows n).map g))
    (hrefers : ∀ fk ∈ t'.foreign_keys, d.Refers t' ((d.rows n).map g) fk) :
    Database.Integrity
      { d with
        tables := Function.update d.tables n (some t')
        rows := Function.update d.rows n ((d.rows n).map g) } := by
  have hkeeps : ∀ m, d.KeepsKeys
      { d with
        tables := Function.update d.tables n (some t')
        rows := Function.update d.rows n ((d.rows n).map g) } m := by
    intro m target htarget
    by_cases hm : m = n
    · subst m
      obtain rfl := Option.some.inj (hn.symm.trans htarget)
      exact ⟨t', Function.update_self .., hkey, fun p hp =>
        ⟨g p, by simpa using ⟨p, hp, rfl⟩, hg p⟩⟩
    · exact ⟨target, by simpa [hm] using htarget, rfl, fun p hp =>
        ⟨p, by simpa [hm] using hp, fun _ _ => rfl⟩⟩
  constructor
  · intro m hm
    by_cases hmn : m = n
    · simp [hmn] at hm
    · simpa [hmn] using h.absent m (by simpa [hmn] using hm)
  · intro m u hu
    by_cases hmn : m = n
    · subst m
      obtain rfl : t' = u := by simpa using hu
      simpa using hfits
    · simpa [hmn] using h.fits m u (by simpa [hmn] using hu)
  · intro m u hu fk hfk
    by_cases hmn : m = n
    · subst m
      obtain rfl : t' = u := by simpa using hu
      have href := hrefers fk hfk
      refine href.mono (hkeeps _) href.column fun r hr => ⟨r, ?_, rfl⟩
      simpa using hr
    · have href := h.refers m u (by simpa [hmn] using hu) fk hfk
      refine href.mono (hkeeps _) href.column fun r hr => ⟨r, ?_, rfl⟩
      simpa [hmn] using hr

/-- Columns, keys and rows stay as they are. -/
theorem Database.Integrity.modify_catalog (h : d.Integrity) (hn : d.tables n = some t)
    (hcolumns : t'.columns = t.columns) (hkey : t'.primary_key = t.primary_key)
    (hforeign : ∀ fk ∈ t'.foreign_keys, fk ∈ t.foreign_keys ∨ d.Refers t (d.rows n) fk) :
    Database.Integrity
      { d with
        tables := Function.update d.tables n (some t')
        rows := Function.update d.rows n ((d.rows n).map id) } := by
  have hfits := h.fits n t hn
  have hhas : ∀ c, t'.hasColumn c = t.hasColumn c := by
    intro c
    rw [Table.hasColumn, Table.hasColumn, hcolumns]
  refine h.modify hn hkey (fun _ _ _ => rfl) ?_ ?_
  · refine hfits.map hkey (fun _ _ _ => rfl) (fun c hc => (hhas c).trans (hfits.key c hc)) ?_ ?_
    · intro r hr c hc
      exact hfits.blank r hr c ((hhas c).symm.trans hc)
    · intro r hr c hc
      exact hfits.not_null r hr c (hcolumns ▸ hc)
  · intro fk hfk
    have href : d.Refers t (d.rows n) fk := (hforeign fk hfk).elim (h.refers n t hn fk) id
    refine ⟨(hhas _).trans href.column, href.target, ?_⟩
    rw [List.map_id]
    exact href.values

/-- A new table has no rows that could violate anything, and refers to keys that exist. -/
theorem Database.Integrity.create_table (h : d.Integrity) (hn : d.tables n = none)
    (hkey : ∀ c ∈ t.primary_key, t.hasColumn c = true)
    (hforeign : ∀ fk ∈ t.foreign_keys, t.hasColumn fk.column = true ∧ d.hasKey fk = true) :
    Database.Integrity
      { tables := Function.update d.tables n (some t)
        forced := Function.update d.forced n false
        rows := Function.update d.rows n [] } := by
  have hkeeps : ∀ m, d.KeepsKeys
      { tables := Function.update d.tables n (some t)
        forced := Function.update d.forced n false
        rows := Function.update d.rows n [] } m := by
    intro m target htarget
    have hm : m ≠ n := by
      rintro rfl
      rw [hn] at htarget
      cases htarget
    exact ⟨target, by simpa [hm] using htarget, rfl, fun p hp =>
      ⟨p, by simpa [hm] using hp, fun _ _ => rfl⟩⟩
  constructor
  · intro m hm
    by_cases hmn : m = n
    · simp [hmn]
    · simpa [hmn] using h.absent m (by simpa [hmn] using hm)
  · intro m u hu
    by_cases hmn : m = n
    · subst m
      obtain rfl : t = u := by simpa using hu
      have hempty : t.Fits ([] : List (Row V)) := ⟨hkey, by simp, by simp, List.Pairwise.nil⟩
      simpa using hempty
    · simpa [hmn] using h.fits m u (by simpa [hmn] using hu)
  · intro m u hu fk hfk
    by_cases hmn : m = n
    · subst m
      obtain rfl : t = u := by simpa using hu
      obtain ⟨hcolumn, htarget⟩ := hforeign fk hfk
      have href : d.Refers t [] fk := ⟨hcolumn, htarget, by simp⟩
      refine href.mono (hkeeps _) hcolumn ?_
      simp
    · have href := h.refers m u (by simpa [hmn] using hu) fk hfk
      refine href.mono (hkeeps _) href.column fun r hr => ⟨r, ?_, rfl⟩
      simpa [hmn] using hr

/-- Dropping a table that no other one refers to leaves every foreign key with its target. -/
theorem Database.Integrity.drop_table (h : d.Integrity) (hn : ¬ d.Referenced n) :
    Database.Integrity { d with
      tables := Function.update d.tables n none
      rows := Function.update d.rows n [] } := by
  constructor
  · intro m hm
    by_cases hmn : m = n
    · simp [hmn]
    · simpa [hmn] using h.absent m (by simpa [hmn] using hm)
  · intro m u hu
    have hmn : m ≠ n := by
      rintro rfl
      simp at hu
    simpa [hmn] using h.fits m u (by simpa [hmn] using hu)
  · intro m u hu fk hfk
    have hmn : m ≠ n := by
      rintro rfl
      simp at hu
    have hu' : d.tables m = some u := by simpa [hmn] using hu
    have htarget : fk.target ≠ n := fun heq => hn ⟨m, hmn, u, hu', fk, hfk, heq⟩
    have href := h.refers m u hu' fk hfk
    refine href.mono (fun target ht => ?_) href.column fun r hr => ⟨r, ?_, rfl⟩
    · exact ⟨target, by simpa [htarget] using ht, rfl, fun p hp =>
        ⟨p, by simpa [htarget] using hp, fun _ _ => rfl⟩⟩
    · simpa [hmn] using hr

/-- A column that may be `NULL`, or has a default, or is added to no row, violates nothing. -/
theorem Database.Integrity.add_column (h : d.Integrity) (hn : d.tables n = some t)
    {column : Column Ty} {v : Option V} (hnew : t.hasColumn column.name = false)
    (hv : column.nullable = false → v ≠ none ∨ d.rows n = []) :
    Database.Integrity
      { d with
        tables := Function.update d.tables n (some { t with columns := t.columns ++ [column] })
        rows := Function.update d.rows n
          ((d.rows n).map fun r => Function.update r column.name v) } := by
  have hfits := h.fits n t hn
  have hother : ∀ c, t.hasColumn c = true → c ≠ column.name := by
    rintro c hc rfl
    rw [hnew] at hc
    cases hc
  have hkey : ∀ r : Row V, ∀ c ∈ t.primary_key, Function.update r column.name v c = r c :=
    fun r c hc => Function.update_of_ne (hother c (hfits.key c hc)) _ _
  refine h.modify hn rfl hkey (hfits.map rfl hkey ?_ ?_ ?_) ?_
  · intro c hc
    rw [hasColumn_append, hfits.key c hc, Bool.true_or]
  · intro r hr c hc
    rw [hasColumn_append, Bool.or_eq_false_iff] at hc
    rw [Function.update_of_ne fun heq => of_decide_eq_false hc.2 heq.symm]
    exact hfits.blank r hr c hc.1
  · intro r hr c hc hnull
    rcases List.mem_append.mp hc with hc | hc
    · have hhas : t.hasColumn c.name = true := List.any_eq_true.mpr ⟨c, hc, by simp⟩
      rw [Function.update_of_ne (hother c.name hhas)]
      exact hfits.not_null r hr c hc hnull
    · obtain rfl := List.mem_singleton.mp hc
      rw [Function.update_self]
      refine (hv hnull).elim id fun hempty => ?_
      rw [hempty] at hr
      cases hr
  · intro fk hfk
    have href := h.refers n t hn fk hfk
    refine ⟨?_, href.target, ?_⟩
    · rw [hasColumn_append, href.column, Bool.true_or]
    · intro r' hr' w hw
      obtain ⟨r, hr, rfl⟩ := List.mem_map.mp hr'
      rw [Function.update_of_ne (hother _ href.column)] at hw
      exact href.values r hr w hw

/-- Nor does the loss of a column that is in no key. -/
theorem Database.Integrity.drop_column (h : d.Integrity) (hn : d.tables n = some t)
    {column : String} (hunused : t.uses column = false) :
    Database.Integrity
      { d with
        tables := Function.update d.tables n
          (some { t with columns := t.columns.filter fun c => c.name ≠ column })
        rows := Function.update d.rows n
          ((d.rows n).map fun r => Function.update r column none) } := by
  have hfits := h.fits n t hn
  obtain ⟨hnokey, hnoforeign⟩ := Table.not_uses hunused
  have hother : ∀ c ∈ t.primary_key, c ≠ column := by
    rintro c hc rfl
    exact hnokey hc
  have hkey : ∀ r : Row V, ∀ c ∈ t.primary_key, Function.update r column none c = r c :=
    fun r c hc => Function.update_of_ne (hother c hc) _ _
  refine h.modify hn rfl hkey (hfits.map rfl hkey ?_ ?_ ?_) ?_
  · intro c hc
    rw [hasColumn_filter, hfits.key c hc, Bool.true_and]
    exact decide_eq_true (hother c hc)
  · intro r hr c hc
    by_cases heq : c = column
    · rw [heq, Function.update_self]
    · rw [Function.update_of_ne heq]
      rw [hasColumn_filter, decide_eq_true heq, Bool.and_true] at hc
      exact hfits.blank r hr c hc
  · intro r hr c hc hnull
    obtain ⟨hc, hne⟩ := List.mem_filter.mp hc
    rw [Function.update_of_ne (of_decide_eq_true hne)]
    exact hfits.not_null r hr c hc hnull
  · intro fk hfk
    have href := h.refers n t hn fk hfk
    refine ⟨?_, href.target, ?_⟩
    · rw [hasColumn_filter, href.column, Bool.true_and]
      exact decide_eq_true (hnoforeign fk hfk)
    · intro r' hr' w hw
      obtain ⟨r, hr, rfl⟩ := List.mem_map.mp hr'
      rw [Function.update_of_ne (hnoforeign fk hfk)] at hw
      exact href.values r hr w hw

/-- A column may be made required if no row has `NULL` in it. -/
theorem Database.Integrity.alter_column (h : d.Integrity) (hn : d.tables n = some t)
    {column : String} {nullable : Bool}
    (hnull : nullable = false → ∀ r ∈ d.rows n, r column ≠ none) :
    Database.Integrity
      { d with
        tables := Function.update d.tables n (some
          { t with columns :=
              (t.columns.map fun c => if c.name = column then { c with nullable } else c) })
        rows := Function.update d.rows n ((d.rows n).map id) } := by
  have hfits := h.fits n t hn
  have hname : ∀ c : Column Ty, (if c.name = column then { c with nullable } else c).name =
      c.name := by
    intro c
    split <;> rfl
  have hhas := hasColumn_map (t := t) hname
  refine h.modify hn rfl (fun _ _ _ => rfl) (hfits.map rfl (fun _ _ _ => rfl) ?_ ?_ ?_) ?_
  · intro c hc
    rw [hhas, hfits.key c hc]
  · intro r hr c hc
    exact hfits.blank r hr c ((hhas c).symm.trans hc)
  · intro r hr c' hc' hn'
    obtain ⟨c, hc, rfl⟩ := List.mem_map.mp hc'
    rw [hname]
    by_cases heq : c.name = column
    · rw [if_pos heq] at hn'
      rw [heq]
      exact hnull hn' r hr
    · rw [if_neg heq] at hn'
      exact hfits.not_null r hr c hc hn'
  · intro fk hfk
    have href := h.refers n t hn fk hfk
    refine ⟨(hhas _).trans href.column, href.target, ?_⟩
    rw [List.map_id]
    exact href.values

/-- A column that nothing refers to may get any values, if it may be `NULL`. -/
theorem Database.Integrity.update (h : d.Integrity) (hn : d.tables n = some t) {column : String}
    (hunused : t.uses column = false) (hhas : t.hasColumn column = true)
    (hnullable : ∀ c ∈ t.columns, c.name = column → c.nullable = true)
    (hg : ∀ r, ∀ c, c ≠ column → g r c = r c) :
    Database.Integrity
      { d with
        tables := Function.update d.tables n (some t)
        rows := Function.update d.rows n ((d.rows n).map g) } := by
  have hfits := h.fits n t hn
  obtain ⟨hnokey, hnoforeign⟩ := Table.not_uses hunused
  have hkey : ∀ r, ∀ c ∈ t.primary_key, g r c = r c := by
    intro r c hc
    refine hg r c ?_
    rintro rfl
    exact hnokey hc
  refine h.modify hn rfl hkey (hfits.map rfl hkey hfits.key ?_ ?_) ?_
  · intro r hr c hc
    have hne : c ≠ column := by
      rintro rfl
      rw [hhas] at hc
      cases hc
    rw [hg r c hne]
    exact hfits.blank r hr c hc
  · intro r hr c hc hnull
    have hne : c.name ≠ column := by
      intro heq
      rw [hnullable c hc heq] at hnull
      cases hnull
    rw [hg r _ hne]
    exact hfits.not_null r hr c hc hnull
  · intro fk hfk
    have href := h.refers n t hn fk hfk
    refine ⟨href.column, href.target, ?_⟩
    intro r' hr' w hw
    obtain ⟨r, hr, rfl⟩ := List.mem_map.mp hr'
    rw [hg r _ (hnoforeign fk hfk)] at hw
    exact href.values r hr w hw

end Change

/-! ### The same values -/

/-- The columns are there. -/
def Database.Has (d : Database N Ty V) (kept : N → String → Prop) : Prop :=
  ∀ n c, kept n c → ∃ t, d.tables n = some t ∧ t.hasColumn c = true

/-- The rows are the same ones, with the same values in the columns `kept`. -/
def Database.Extends (d d' : Database N Ty V) (kept : N → String → Prop) : Prop :=
  ∀ n, d.tables n ≠ none → d'.tables n ≠ none ∧
    ∃ g : Row V → Row V, d'.rows n = (d.rows n).map g ∧ ∀ r c, kept n c → g r c = r c

/-- A database extends itself. -/
theorem Database.Extends.refl (d : Database N Ty V) (kept : N → String → Prop) :
    d.Extends d kept :=
  fun _ hn => ⟨hn, id, (List.map_id _).symm, fun _ _ _ => rfl⟩

/-- Extensions, one after the other. -/
theorem Database.Extends.trans {d'' : Database N Ty V} {kept : N → String → Prop}
    (h : d.Extends d' kept) (h' : d'.Extends d'' kept) : d.Extends d'' kept := by
  intro n hn
  obtain ⟨hn', g, hrows, hg⟩ := h n hn
  obtain ⟨hn'', g', hrows', hg'⟩ := h' n hn'
  refine ⟨hn'', g' ∘ g, ?_, fun r c hc => (hg' (g r) c hc).trans (hg r c hc)⟩
  rw [hrows', hrows, List.map_map]

section Change

variable [DecidableEq N] {kept : N → String → Prop}

/-- One table is changed. -/
theorem extends_modify (hg : ∀ r c, kept n c → g r c = r c)
    (hhas : ∀ c, kept n c → t'.hasColumn c = true) (h : d.Has kept) :
    let d' : Database N Ty V :=
      { d with
        tables := Function.update d.tables n (some t')
        rows := Function.update d.rows n ((d.rows n).map g) }
    d.Extends d' kept ∧ d'.Has kept := by
  constructor
  · intro m hm
    by_cases hmn : m = n
    · subst m
      exact ⟨by simp, g, by simp, hg⟩
    · exact ⟨by simpa [hmn] using hm, id, by simp [hmn], fun _ _ _ => rfl⟩
  · intro m c hc
    by_cases hmn : m = n
    · subst m
      exact ⟨t', by simp, hhas c hc⟩
    · simpa [hmn] using h m c hc

end Change

end SchemaChanges
