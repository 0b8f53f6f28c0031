import BackendManager.MigrationSteps
import Mathlib.Logic.Relation

/-!
# Migrations of a Running Service

The commands `alembic upgrade` and `alembic downgrade` over a database that the service writes to in
between. A command runs the scripts between the revision of the database and its target in one
transaction; the order of the scripts is found by the names that each revision gives for the one
before it.

A state is a database with the revision that it is at. It stands (`State.Stands`) if its schema
is the one of that revision and its keys and foreign keys are intact; this is kept by every
command that is accepted, and by every transaction of the service, which may change the rows in
any way that the constraints admit. The order of the scripts follows from the revisions' own
references to their predecessors, for every configuration: that these form one line is the
theorem on which the others rest.

## Main results

* `mem_heads_iff`: the revisions are in one line, with one head.
* `migrate_succeeds`: no command fails, whatever the service has written.
-/

namespace BackendManager.Migrations

open SchemaChanges

/-! ### The line of the revisions -/

def Revision.all : List Revision :=
  [.initial_schema, .tenancy, .api_keys, .billing, .audit, .webhooks, .auth_sessions, .rls, .outbox,
    .idempotency, .metering, .wallet_org, .rls_backfill]

/-- There are no other revisions. -/
theorem Revision.mem_all (r : Revision) : r ∈ Revision.all := by
  cases r <;> decide

/-- A revision is known by the number in the name of its file. -/
theorem Revision.number_injective {r r' : Revision} (h : r.number = r'.number) : r = r' := by
  cases r <;> cases r' <;> first | rfl | cases h

/-- The place of the revision of a database; a database without one is at the base. -/
def position : Option Revision → ℕ
  | none => 0
  | some r => r.number

/-- A database at a revision is not at the base. -/
theorem position_pos (r : Revision) : 0 < position (some r) := by
  cases r <;> decide

/-- There are thirteen positions above the base. -/
theorem position_le (version : Option Revision) : position version ≤ 13 := by
  cases version with
  | none => decide
  | some r => cases r <;> decide

namespace Answers

/-- The revisions up to one, by the names of those before them. -/
def lineageFrom (a : Answers) : ℕ → Option Revision → List Revision
  | 0, _ | _, none => []
  | fuel + 1, some r => a.lineageFrom fuel (a.down_revision r) ++ [r]

def lineage (a : Answers) (version : Option Revision) : List Revision :=
  a.lineageFrom Revision.all.length version

/-- The revisions that no other one follows. -/
def heads (a : Answers) : List Revision :=
  Revision.all.filter fun r =>
    a.generated r && Revision.all.all fun q => !(a.generated q && a.down_revision q = some r)

/-- The scripts between a version and a target that are not run yet. -/
def path (a : Answers) (version target : Option Revision) : List Revision :=
  (a.lineage target).filter fun r => r ∉ a.lineage version

/-- The revision is one of those that are generated, or none. -/
def Known (a : Answers) (version : Option Revision) : Prop :=
  ∀ r ∈ version, a.generated r = true

end Answers

section Lineage

variable {a : Answers} {r : Revision} {version target : Option Revision}

/-- What a revision follows has a smaller number. -/
theorem Answers.Follows.position_lt (h : a.Follows r version) : position version < r.number := by
  cases version with
  | none => exact position_pos r
  | some previous => exact h.2.1

/-- And it is generated, or the base, so that the chain has no gap. -/
theorem Answers.Follows.known (h : a.Follows r version) : a.Known version := by
  cases version with
  | none => exact fun _ hmem => by cases hmem
  | some previous =>
      rintro _ ⟨⟩
      exact h.1

/-- No revision is between the two. -/
theorem Answers.Follows.le (h : a.Follows r version) {q : Revision} (hq : a.generated q = true)
    (hlt : q.number < r.number) : q.number ≤ position version := by
  cases version with
  | none => exact absurd (h q hq) (Nat.not_le_of_lt hlt)
  | some previous => exact h.2.2 q hq hlt

/-- The bound of the recursion does not matter if it is large enough: each step goes down to a
smaller position. -/
theorem lineageFrom_eq (hv : a.Valid) {m n : ℕ} (hknown : a.Known version)
    (hm : position version ≤ m) (hn : position version ≤ n) :
    a.lineageFrom m version = a.lineageFrom n version := by
  induction m generalizing n version with
  | zero =>
      cases version with
      | none => cases n <;> rfl
      | some r => exact absurd hm (Nat.not_le_of_lt (position_pos r))
  | succ m ih =>
      cases version with
      | none => cases n <;> rfl
      | some r =>
          obtain ⟨n, rfl⟩ := Nat.exists_eq_succ_of_ne_zero
            (Nat.ne_of_gt (Nat.lt_of_lt_of_le (position_pos r) hn))
          have hfollows := Answers.follows_down_revision hv (hknown r rfl)
          have hlt := hfollows.position_lt
          rw [position] at hm hn
          have hrest : a.lineageFrom m (a.down_revision r) = a.lineageFrom n (a.down_revision r) :=
            ih hfollows.known (by omega) (by omega)
          rw [Answers.lineageFrom, Answers.lineageFrom, hrest]

/-- The lineage goes on from the one of the revision before. -/
theorem lineage_some (hv : a.Valid) (hr : a.generated r = true) :
    a.lineage (some r) = a.lineage (a.down_revision r) ++ [r] := by
  have hfollows := Answers.follows_down_revision hv hr
  have hlt := hfollows.position_lt
  have hle := position_le (some r)
  rw [position] at hle
  rw [Answers.lineage, Answers.lineage]
  refine congrArg (· ++ [r]) (lineageFrom_eq hv hfollows.known ?_ (position_le _))
  show _ ≤ 12
  omega

/-- **The lineage of a revision is what is generated up to it.** -/
theorem mem_lineage_iff (hv : a.Valid) (hknown : a.Known version) :
    r ∈ a.lineage version ↔ a.generated r = true ∧ r.number ≤ position version := by
  induction hk : position version using Nat.strong_induction_on generalizing version with
  | _ k ih =>
      cases version with
      | none =>
          constructor
          · intro hmem
            cases hmem
          · rintro ⟨-, hle⟩
            exact absurd hle (Nat.not_le_of_lt (hk ▸ position_pos r))
      | some q =>
          subst hk
          have hfollows := Answers.follows_down_revision hv (hknown q rfl)
          rw [lineage_some hv (hknown q rfl), List.mem_append, List.mem_singleton,
            ih _ hfollows.position_lt hfollows.known rfl]
          constructor
          · rintro (⟨hr, hle⟩ | rfl)
            · exact ⟨hr, hle.trans hfollows.position_lt.le⟩
            · exact ⟨hknown r rfl, le_rfl⟩
          · rintro ⟨hr, hle⟩
            rcases Nat.lt_or_eq_of_le hle with hlt | heq
            · exact .inl ⟨hr, hfollows.le hr hlt⟩
            · exact .inr (Revision.number_injective heq)

/-- **There is one head**, the last revision. -/
theorem mem_heads_iff (hv : a.Valid) :
    r ∈ a.heads ↔ a.generated r = true ∧ ∀ q, a.generated q = true → q.number ≤ r.number := by
  rw [Answers.heads, List.mem_filter, Bool.and_eq_true, List.all_eq_true]
  constructor
  · rintro ⟨-, hr, hnone⟩
    refine ⟨hr, fun q hq => ?_⟩
    -- The first revision after `r` would follow it.
    induction hk : q.number using Nat.strong_induction_on generalizing q with
    | _ k ih =>
        by_contra hlt
        have hfollows := Answers.follows_down_revision hv hq
        have hle := hfollows.le hr (by omega)
        cases hdown : a.down_revision q with
        | none =>
            rw [hdown, position] at hle
            exact absurd hle (Nat.not_le_of_lt (position_pos r))
        | some p =>
            rw [hdown] at hfollows hle
            have hp := ih p.number (hk ▸ hfollows.2.1) p hfollows.1 rfl
            obtain rfl := Revision.number_injective (le_antisymm hp hle)
            have hnot := hnone q (Revision.mem_all q)
            rw [hq, hdown, decide_eq_true rfl] at hnot
            cases hnot
  · rintro ⟨hr, hlast⟩
    refine ⟨Revision.mem_all r, hr, fun q _ => ?_⟩
    by_contra hnot
    rw [Bool.not_eq_true', Bool.not_eq_false, Bool.and_eq_true, decide_eq_true_eq] at hnot
    obtain ⟨hq, hdown⟩ := hnot
    have hfollows := Answers.follows_down_revision hv hq
    rw [hdown] at hfollows
    exact absurd (hlast q hq) (Nat.not_le_of_lt hfollows.2.1)

/-! ### The scripts of a command -/

/-- A version that is not beyond a revision and not the revision itself is before it. -/
theorem lt_of_not_eq (hle : position version ≤ r.number) (hne : version ≠ some r) :
    position version < r.number := by
  refine lt_of_le_of_ne hle fun heq => ?_
  cases version with
  | none => exact absurd heq (Nat.ne_of_lt (position_pos r))
  | some q => exact hne (congrArg some (Revision.number_injective heq))

/-- From a version to itself there is nothing to run. -/
theorem path_self : a.path version version = [] := by
  rw [Answers.path, List.filter_eq_nil_iff]
  intro r hr
  simpa using hr

/-- The script of a revision comes last. -/
theorem path_some (hv : a.Valid) (hknown : a.Known version) (hr : a.generated r = true)
    (hlt : position version < r.number) :
    a.path version (some r) = a.path version (a.down_revision r) ++ [r] := by
  have hnew : r ∉ a.lineage version := by
    rw [mem_lineage_iff hv hknown]
    rintro ⟨-, hle⟩
    omega
  rw [Answers.path, Answers.path, lineage_some hv hr, List.filter_append]
  simp [hnew]

/-- The version is not past the revision before. -/
theorem position_le_down (hv : a.Valid) (hknown : a.Known version) (hr : a.generated r = true)
    (hlt : position version < r.number) : position version ≤ position (a.down_revision r) := by
  cases version with
  | none => exact Nat.zero_le _
  | some q => exact (Answers.follows_down_revision hv hr).le (hknown q rfl) hlt

/-- Between a revision and the one that it follows, the schema does not change: the numbers that
lie in between are not generated. -/
theorem tables_before (hv : a.Valid) (hr : a.generated r = true) (postgresql : Bool) :
    a.tables postgresql (r.number - 1) = a.tables postgresql (position (a.down_revision r)) := by
  have hfollows := Answers.follows_down_revision hv hr
  have hlt := hfollows.position_lt
  refine tables_congr fun q => ?_
  rw [Answers.done, Answers.done]
  cases hq : a.generated q with
  | false => rfl
  | true =>
      have hle := hfollows.le hq
      have hiff : q.number ≤ r.number - 1 ↔ q.number ≤ position (a.down_revision r) := by omega
      simp only [hiff]

variable {V : Type} [DecidableEq V] {default : String → V} {postgresql : Bool}

/-- **The scripts of an upgrade turn the schema of the version into that of the target.** -/
theorem turns_path (hv : a.Valid) (hknown : a.Known version) (htarget : a.Known target)
    (hle : position version ≤ position target) :
    Turns V default ((a.path version target).flatMap (a.upgrade postgresql))
      (a.tables postgresql (position version)) (a.tables postgresql (position target)) := by
  induction hk : position target using Nat.strong_induction_on generalizing target with
  | _ k ih =>
      by_cases hsame : version = target
      · rw [← hk, hsame, path_self]
        exact Turns.nil
      · cases target with
        | none =>
            have hzero : position version = 0 := Nat.le_zero.mp hle
            rw [← hk, hzero]
            exact Turns.nil
        | some r =>
            have hr := htarget r rfl
            have hlt := lt_of_not_eq hle hsame
            have hfollows := Answers.follows_down_revision hv hr
            have hbefore := ih _ (hk ▸ hfollows.position_lt) hfollows.known
              (position_le_down hv hknown hr hlt) rfl
            rw [path_some hv hknown hr hlt, List.flatMap_append, List.flatMap_singleton, ← hk]
            refine hbefore.append ?_
            rw [← tables_before hv hr postgresql]
            exact turns_upgrade hv hr

/-- **Those of a downgrade turn it back.** -/
theorem turns_path_back (hv : a.Valid) (hknown : a.Known version) (htarget : a.Known target)
    (hle : position target ≤ position version) :
    Turns V default ((a.path target version).reverse.flatMap (a.downgrade postgresql))
      (a.tables postgresql (position version)) (a.tables postgresql (position target)) := by
  induction hk : position version using Nat.strong_induction_on generalizing version with
  | _ k ih =>
      by_cases hsame : target = version
      · rw [← hk, hsame, path_self]
        exact Turns.nil
      · cases version with
        | none =>
            have hzero : position target = 0 := Nat.le_zero.mp hle
            rw [← hk, hzero]
            exact Turns.nil
        | some r =>
            have hr := hknown r rfl
            have hlt := lt_of_not_eq hle hsame
            have hfollows := Answers.follows_down_revision hv hr
            have hrest := ih _ (hk ▸ hfollows.position_lt) hfollows.known
              (position_le_down hv htarget hr hlt) rfl
            rw [path_some hv htarget hr hlt, List.reverse_append, List.flatMap_append,
              List.reverse_singleton, List.flatMap_singleton, ← hk]
            refine Turns.append (turns_downgrade hr) ?_
            rw [tables_before hv hr postgresql]
            exact hrest

end Lineage

/-! ### Commands and writes -/

section Runs

variable (V : Type) in
/-- A database with its version, the row of `alembic_version`. -/
structure State where
  version : Option Revision
  db : Database TableName ColumnType V

def State.empty {V : Type} : State V := ⟨none, Database.empty⟩

inductive Command
  /-- `alembic upgrade <revision>`. -/
  | upgrade (target : Revision)
  /-- `alembic upgrade head`, which wants one head. -/
  | upgrade_head
  /-- `alembic downgrade <revision>`, or `alembic downgrade base`. -/
  | downgrade (target : Option Revision)

variable {V : Type} [DecidableEq V] (default : String → V) (a : Answers) (postgresql : Bool)

/-- Upgrade to a revision, in one transaction; there is nothing to do if it is behind. -/
def State.upgrade (s : State V) (target : Revision) : Option (State V) :=
  (run default s.db ((a.path s.version (some target)).flatMap (a.upgrade postgresql))).map fun db =>
    ⟨if target ∈ a.lineage s.version then s.version else some target, db⟩

/-- A command in one transaction; `none` if it fails. -/
def Command.run (s : State V) : Command → Option (State V)
  | .upgrade target =>
      if a.generated target then s.upgrade default a postgresql target else none
  | .upgrade_head =>
      match a.heads with
      | [] => some s
      | [target] => s.upgrade default a postgresql target
      | _ => none
  | .downgrade target =>
      if target.all (· ∈ a.lineage s.version) then
        (SchemaChanges.run default s.db
          ((a.path target s.version).reverse.flatMap (a.downgrade postgresql))).map fun db =>
            ⟨target, db⟩
      else none

/-- One step: a command, or a transaction of the service, which changes the rows in any way that
the database allows. -/
inductive Step : State V → State V → Prop
  | command {s s' : State V} (c : Command) (h : c.run default a postgresql s = some s') : Step s s'
  | write {s : State V} (rows : TableName → List (Row V))
      (h : Database.Integrity { s.db with rows }) : Step s { s with db := { s.db with rows } }

/-- The states of a database that starts empty. -/
def Reachable : State V → Prop := Relation.ReflTransGen (Step default a postgresql) State.empty

/-- The schema of the database is the one of its version. -/
structure State.Stands (s : State V) : Prop where
  known : a.Known s.version
  schema : s.db.Of (a.tables postgresql (position s.version))

variable {default a postgresql} {s s' : State V} {r target : Revision}

/-- An upgrade to a generated revision succeeds, and reaches it unless the database has passed it
already. The induction is on the scripts that are left to run. -/
theorem State.Stands.upgrade (hv : a.Valid) (h : s.Stands a postgresql)
    (ht : a.generated target = true) : ∃ s', s.upgrade default a postgresql target = some s' ∧
      s'.Stands a postgresql ∧ target ∈ a.lineage s'.version ∧
        (s'.version = s.version ∨ s'.version = some target) := by
  have hknown : a.Known (some target) := by
    rintro _ ⟨⟩
    exact ht
  by_cases hbehind : target ∈ a.lineage s.version
  · have hnothing : a.path s.version (some target) = [] := by
      rw [Answers.path, List.filter_eq_nil_iff]
      intro q hq
      rw [mem_lineage_iff hv hknown] at hq
      obtain ⟨-, hle⟩ := (mem_lineage_iff hv h.known).mp hbehind
      simpa using (mem_lineage_iff hv h.known).mpr ⟨hq.1, hq.2.trans hle⟩
    refine ⟨s, ?_, h, hbehind, .inl rfl⟩
    rw [State.upgrade, hnothing, List.flatMap_nil, run_nil, if_pos hbehind]
    rfl
  · have hle : position s.version ≤ position (some target) := by
      rw [mem_lineage_iff hv h.known, not_and, not_le] at hbehind
      exact (hbehind ht).le
    obtain ⟨db, hrun, hdb⟩ := turns_path hv h.known hknown hle s.db h.schema
    refine ⟨⟨some target, db⟩, ?_, ⟨hknown, hdb⟩, ?_, .inr rfl⟩
    · rw [State.upgrade, hrun, if_neg hbehind]
      rfl
    · exact (mem_lineage_iff hv hknown).mpr ⟨ht, le_rfl⟩

/-- A downgrade to a revision of the lineage, or to the base, succeeds: each script finds the
schema that its revision has left. -/
theorem State.Stands.downgrade (hv : a.Valid) (h : s.Stands a postgresql)
    {target : Option Revision} (ht : ∀ r ∈ target, r ∈ a.lineage s.version) :
    ∃ db, run default s.db ((a.path target s.version).reverse.flatMap (a.downgrade postgresql)) =
      some db ∧ State.Stands a postgresql ⟨target, db⟩ := by
  have hmem : ∀ r ∈ target, a.generated r = true ∧ r.number ≤ position s.version :=
    fun r hr => (mem_lineage_iff hv h.known).mp (ht r hr)
  have hle : position target ≤ position s.version := by
    cases target with
    | none => exact Nat.zero_le _
    | some r => exact (hmem r rfl).2
  obtain ⟨db, hrun, hdb⟩ :=
    turns_path_back hv h.known (fun r hr => (hmem r hr).1) hle s.db h.schema
  exact ⟨db, hrun, fun r hr => (hmem r hr).1, hdb⟩

/-- There is no head, or one that is the last revision. -/
theorem heads_cases (hv : a.Valid) :
    (a.heads = [] ∧ ∀ q, a.generated q = false) ∨
      ∃ r, a.heads = [r] ∧ a.generated r = true ∧
        ∀ q, a.generated q = true → q.number ≤ r.number := by
  have hnodup : a.heads.Nodup := List.Nodup.filter _ (by decide)
  cases hheads : a.heads with
  | nil =>
      refine .inl ⟨rfl, fun q => ?_⟩
      by_contra hq
      rw [Bool.not_eq_false] at hq
      -- The greatest number of a revision that is generated is that of a head.
      classical
      let P : ℕ → Prop := fun k => ∃ q, a.generated q = true ∧ q.number = k
      have hle : ∀ q : Revision, q.number ≤ 13 := fun q => position_le (some q)
      obtain ⟨r, hr, hnumber⟩ : P (Nat.findGreatest P 13) :=
        Nat.findGreatest_spec (hle q) ⟨q, hq, rfl⟩
      have hhead : r ∈ a.heads := (mem_heads_iff hv).mpr ⟨hr, fun p hp => by
        rw [hnumber]
        exact Nat.le_findGreatest (hle p) ⟨p, hp, rfl⟩⟩
      rw [hheads] at hhead
      cases hhead
  | cons r rest =>
      have hr := (mem_heads_iff hv).mp (hheads ▸ List.mem_cons_self)
      refine .inr ⟨r, ?_, hr⟩
      cases rest with
      | nil => rfl
      | cons q rest =>
          have hq := (mem_heads_iff hv).mp
            (hheads ▸ List.mem_cons_of_mem r List.mem_cons_self : q ∈ a.heads)
          obtain rfl := Revision.number_injective (le_antisymm (hr.2 q hq.1) (hq.2 r hr.1))
          rw [hheads] at hnodup
          simp at hnodup

/-- The command can be given at that version. -/
def Command.Accepted (a : Answers) (version : Option Revision) : Command → Prop
  | .upgrade target => a.generated target = true
  | .upgrade_head => True
  | .downgrade target => ∀ r ∈ target, r ∈ a.lineage version

/-- The version is what the command asks for. -/
def Command.Reaches (a : Answers) (version : Option Revision) : Command → Prop
  | .upgrade target => target ∈ a.lineage version
  | .upgrade_head => ∀ r, a.generated r = true → r ∈ a.lineage version
  | .downgrade target => version = target

/-- **Every command that is accepted succeeds** on a database that stands at its version, which is
then what the command asks for. -/
theorem State.Stands.command (hv : a.Valid) (h : s.Stands a postgresql) {c : Command}
    (hc : c.Accepted a s.version) :
    ∃ s', c.run default a postgresql s = some s' ∧ s'.Stands a postgresql ∧
      c.Reaches a s'.version := by
  cases c with
  | upgrade target =>
      obtain ⟨s', hrun, hs', hmem, -⟩ : ∃ s', s.upgrade default a postgresql target = some s' ∧ _ :=
        h.upgrade hv hc
      have hgenerated : a.generated target = true := hc
      exact ⟨s', by rw [Command.run, if_pos hgenerated, hrun], hs', hmem⟩
  | upgrade_head =>
      rcases heads_cases hv with ⟨hheads, hnone⟩ | ⟨r, hheads, hr, hlast⟩
      · refine ⟨s, by rw [Command.run, hheads], h, fun q hq => ?_⟩
        rw [hnone q] at hq
        cases hq
      · obtain ⟨s', hrun, hs', hmem, -⟩ : ∃ s', s.upgrade default a postgresql r = some s' ∧ _ :=
          h.upgrade hv hr
        refine ⟨s', by rw [Command.run, hheads]; exact hrun, hs', fun q hq => ?_⟩
        have hle := ((mem_lineage_iff hv hs'.known).mp hmem).2
        exact (mem_lineage_iff hv hs'.known).mpr ⟨hq, (hlast q hq).trans hle⟩
  | downgrade target =>
      obtain ⟨db, hrun, hs'⟩ : ∃ db, run default s.db _ = some db ∧ _ := h.downgrade hv hc
      refine ⟨⟨target, db⟩, ?_, hs', rfl⟩
      have hall : (target.all fun r => decide (r ∈ a.lineage s.version)) = true := by
        cases target with
        | none => rfl
        | some r => exact decide_eq_true (hc r rfl)
      rw [Command.run, if_pos hall, hrun, Option.map_some]

/-- Any other command fails. -/
theorem Command.accepted_of_run {c : Command} (h : c.run default a postgresql s = some s') :
    c.Accepted a s.version := by
  cases c with
  | upgrade target =>
      rw [Command.run, Option.ite_none_right_eq_some] at h
      exact h.1
  | upgrade_head => trivial
  | downgrade target =>
      rw [Command.run, Option.ite_none_right_eq_some] at h
      rintro r rfl
      exact of_decide_eq_true h.1

/-- **One step**, a command or a transaction of the service, leaves a database that stands at its
version. -/
theorem State.Stands.step (hv : a.Valid) (h : s.Stands a postgresql)
    (hstep : Step default a postgresql s s') : s'.Stands a postgresql := by
  cases hstep with
  | command c hrun =>
      obtain ⟨s'', hrun', hs'', -⟩ := h.command hv (Command.accepted_of_run hrun)
      rw [hrun] at hrun'
      obtain rfl := Option.some.inj hrun'
      exact hs''
  | write rows hintegrity => exact ⟨h.known, h.schema.tables, hintegrity, h.schema.forced⟩

/-- A revision has not been run before its number has come. -/
theorem done_eq_false {k : ℕ} (h : k < r.number) : a.done k r = false := by
  rw [Answers.done, decide_eq_false (Nat.not_le_of_lt h), Bool.and_false]

/-- And it has from then on, if it is generated. -/
theorem done_eq_true {k : ℕ} (hr : a.generated r = true) (h : r.number ≤ k) :
    a.done k r = true := by
  rw [Answers.done, hr, decide_eq_true h, Bool.and_true]

/-- At the base there are no tables. -/
theorem tables_zero : a.tables postgresql 0 = fun _ => none := by
  have hnone : ∀ r, a.done 0 r = false := fun r => done_eq_false (position_pos r)
  funext n
  cases n <;> simp only [Answers.tables, hnone] <;> rfl

omit [DecidableEq V] in
/-- The empty database stands at the base. -/
theorem State.Stands.empty : (State.empty : State V).Stands a postgresql := by
  constructor
  · intro _ hmem
    cases hmem
  · refine ⟨tables_zero.symm, ⟨fun _ _ => rfl, ?_, ?_⟩, ?_⟩ <;> intro n t hn <;> cases hn

/-- Every reachable database stands at its version. -/
theorem stands_of_reachable (hv : a.Valid) (h : Reachable default a postgresql s) :
    s.Stands a postgresql := by
  induction h with
  | refl => exact State.Stands.empty
  | tail _ hstep ih => exact ih.step hv hstep

/-- At every revision, the database can have a row in every table. -/
theorem exists_populated (postgresql : Bool) (hv : a.Valid) (ht : a.generated target = true) :
    ∃ s : State ℕ, Reachable (fun _ => 0) a postgresql s ∧ s.version = some target ∧
      s.db.tables = a.tables postgresql target.number ∧
        ∀ n t, s.db.tables n = some t → s.db.rows n = [t.constant 1] := by
  have hknown : a.Known (some target) := by
    rintro _ ⟨⟩
    exact ht
  obtain ⟨s, hrun, hs, hmem, hversion⟩ : ∃ s, State.empty.upgrade (fun _ => 0) a _ _ = some s ∧ _ :=
    (State.Stands.empty : (State.empty : State ℕ).Stands a postgresql).upgrade hv ht
  have hversion : s.version = some target := by
    refine hversion.resolve_left fun hnone => ?_
    rw [hnone] at hmem
    cases hmem
  have hstep : Step (fun _ => 0) a postgresql State.empty s :=
    .command (.upgrade target) (by rw [Command.run, if_pos ht, hrun])
  refine ⟨_, (Relation.ReflTransGen.single hstep).tail (.write _ (hs.schema.integrity.populated 1)),
    hversion, ?_, fun n t hn => ?_⟩
  · rw [hs.schema.tables, hversion, position]
  · exact Database.populated_of_some hn

/-- **No migration fails**, in any state that commands and the service lead to: a command that can
be given leaves the schema of its target, with keys, foreign keys and `NOT NULL` columns intact. -/
theorem migrate_succeeds (hv : a.Valid) (h : Reachable default a postgresql s) {c : Command}
    (hc : c.Accepted a s.version) :
    ∃ s', c.run default a postgresql s = some s' ∧ c.Reaches a s'.version ∧
      s'.db.tables = a.tables postgresql (position s'.version) ∧ s'.db.Integrity := by
  obtain ⟨s', hrun, hs', hreaches⟩ : ∃ s', c.run default a postgresql s = some s' ∧ _ :=
    (stands_of_reachable hv h).command hv hc
  exact ⟨s', hrun, hreaches, hs'.schema.tables, hs'.schema.integrity⟩

/-- All the answers are yes. -/
def Answers.full : Answers :=
  ⟨true, true, true, true, true, true, true, true, true, true, true, true⟩

/-- The template accepts the answers. -/
theorem Answers.full_valid : Answers.full.Valid :=
  ⟨rfl, fun _ => rfl, fun _ => rfl, fun _ => rfl⟩

/-- A database with a row in every table at the head is taken back to the first revision, and the
users stay. -/
theorem migrate_succeeds_full :
    ∃ s s' : State ℕ, Reachable (fun _ => 0) Answers.full true s ∧
      s.db.rows .refresh_tokens = [refresh_tokens.constant 1] ∧
        Command.run (fun _ => 0) Answers.full true s (.downgrade (some .initial_schema)) = some s' ∧
          s'.version = some .initial_schema ∧ s'.db.tables .user = some user ∧ s'.db.Integrity := by
  obtain ⟨s, hs, hversion, htables, hrows⟩ :=
    exists_populated true Answers.full_valid
      (rfl : Answers.full.generated .rls_backfill = true)
  have hn : s.db.tables .refresh_tokens = some refresh_tokens := by
    rw [htables]
    rfl
  obtain ⟨s', hrun, hreaches, htables', hintegrity⟩ :=
    migrate_succeeds Answers.full_valid hs (c := .downgrade (some .initial_schema)) <| by
      rw [hversion]
      rintro _ ⟨⟩
      decide
  have hreaches : s'.version = some .initial_schema := hreaches
  refine ⟨s, s', hs, hrows _ _ hn, hrun, hreaches, ?_, hintegrity⟩
  rw [htables', hreaches]
  rfl

end Runs

end BackendManager.Migrations
