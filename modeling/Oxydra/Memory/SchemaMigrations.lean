import Oxydra.Library.Interleaving

/-!
# Migrations of the memory database

`run_pending_migrations` of `crates/memory/src/schema.rs` reads the versions that are recorded in
`memory_migrations`, and then goes through `MIGRATIONS`: each that was not recorded is run and
recorded in one `IMMEDIATE` transaction. Any number of processes may do so on one file at once, and
each of them may fail or be killed between any two statements, and start again.

The read and the transactions of a process are not one transaction, so it may come to a migration
that another has run in the meantime. Its version is a primary key, so recording it again fails, and
the transaction is rolled back. Hence `migrations_in_order`: whatever the interleaving, the file has
the schema after some of the migrations, in order and each of them once, and these are the ones it
records.

What a script does to a schema is a parameter, which may fail. A transaction works on a copy of the
file that replaces it when it is committed; only one may be open (`BEGIN IMMEDIATE`), and one whose
connection is lost is rolled back. Left out are the pragmas, `ensure_migration_bookkeeping`, which
makes the table `memory_migrations` where it is not there, and the check of the tables, indexes and
triggers that must be there in the end.
-/

namespace Oxydra

open Option Function List Lts

variable {rest versions : List String} {process process' : MigrationProcess} {version : String}

/-- The versions of `MIGRATIONS`. -/
def migrationVersions : List String :=
  ["0001_create_sessions_table", "0002_create_conversation_events_table",
    "0003_create_conversation_events_restore_index", "0004_create_session_state_table",
    "0005_create_sessions_updated_at_index", "0006_create_files_table",
    "0007_create_chunks_table", "0008_create_chunks_vec_table", "0009_create_chunks_fts_table",
    "0010_create_files_session_source_index", "0011_create_chunks_session_recency_index",
    "0012_create_chunks_file_lookup_index", "0013_create_chunks_session_hash_index",
    "0014_create_chunks_fts_insert_trigger", "0015_create_chunks_fts_update_trigger",
    "0016_create_chunks_fts_delete_trigger", "0017_create_schedules_table",
    "0018_create_schedules_indexes", "0019_create_schedule_runs_table",
    "0020_create_gateway_sessions", "0021_create_channel_session_mappings",
    "0022_add_channel_origin_to_schedules", "0023_add_full_output_to_schedule_runs",
    "0024_create_chunks_vec_vector_index", "0025_add_delivery_streak_to_schedules",
    "0026_add_policy_to_schedules"]

/-- No migration is listed twice. -/
theorem migrationVersions_nodup : migrationVersions.Nodup := by decide +kernel

section

variable {σ : Type}

/-- The schema of a file, and the rows of `memory_migrations`. -/
structure SchemaRows (σ : Type) where
  schema : σ
  versions : List String

/-- A file of the database: what is committed, and the copy of the transaction that is open. -/
structure SchemaFile (σ : Type) where
  committed : SchemaRows σ
  writer : Option (SchemaRows σ) := none

/-- Where a process is: with the versions it has read, and the migrations from the next one on. -/
inductive MigrationProcess where
  | idle
  | pending (applied remaining : List String)
  | begun (applied : List String) (version : String) (rest : List String)
  | executed (applied : List String) (version : String) (rest : List String)
  | recorded (applied : List String) (version : String) (rest : List String)
  | done
  | failed
  deriving DecidableEq

/-- A step of a process: its next statement; an error or the end of the process, after which its
transaction is rolled back; or another start. -/
inductive MigrationAction where
  | proceed
  | fault
  | restart
  deriving DecidableEq

variable (execute : String → σ → Option σ)

/-- The next statement of `run_pending_migrations`. -/
def migrationProceed (file : SchemaFile σ) :
    MigrationProcess → Option (SchemaFile σ × MigrationProcess)
  | .idle => some (file, .pending file.committed.versions migrationVersions)
  | .pending _ [] => some (file, .done)
  | .pending applied (version :: rest) =>
    if version ∈ applied then some (file, .pending applied rest)
    else
      match file.writer with
      | none => some ({ file with writer := some file.committed }, .begun applied version rest)
      | some _ => some (file, .failed)
  | .begun applied version rest =>
    file.writer.bind fun rows =>
      match execute version rows.schema with
      | some schema =>
        some ({ file with writer := some { rows with schema } }, .executed applied version rest)
      | none => some ({ file with writer := none }, .failed)
  | .executed applied version rest =>
    file.writer.bind fun rows =>
      if version ∈ rows.versions then some ({ file with writer := none }, .failed)
      else some ({ file with writer := some { rows with versions := rows.versions ++ [version] } },
        .recorded applied version rest)
  | .recorded applied _ rest =>
    file.writer.map fun rows => ({ committed := rows, writer := none }, .pending applied rest)
  | .done | .failed => none

/-- Whether a process has a transaction open. -/
def MigrationProcess.InTransaction : MigrationProcess → Prop
  | begun .. | executed .. | recorded .. => True
  | _ => False

instance (process : MigrationProcess) : Decidable process.InTransaction := by
  cases process <;> unfold MigrationProcess.InTransaction <;> infer_instance

/-- A step of a process on the file. -/
def migrationStep (file : SchemaFile σ) (process : MigrationProcess) :
    MigrationAction → Option (SchemaFile σ × MigrationProcess)
  | .proceed => migrationProceed execute file process
  | .fault =>
    some (if process.InTransaction then { file with writer := none } else file, .failed)
  | .restart =>
    match process with
    | .done | .failed => some (file, .idle)
    | _ => none

/-- The schema of a file is the one after the migrations that it records, run in order on the first
schema. -/
def MigratedTo (first : σ) (rows : SchemaRows σ) : Prop :=
  rows.versions <+: migrationVersions ∧
    rows.versions.foldlM (fun schema version => execute version schema) first = some rows.schema

/-- All interleavings of processes on a file that may already have some of the migrations. -/
def migrationSystem (ι : Type) [DecidableEq ι] (first : σ) :
    System (Threads ι (SchemaFile σ) MigrationProcess) (ι × MigrationAction) :=
  interleave
    (fun s => MigratedTo execute first s.shared.committed ∧ s.shared.writer = none ∧
      ∀ i, s.threads i = .idle)
    (migrationStep execute)

/-! ## The invariant -/

/-- The part of the migrations that a process has behind it is recorded. -/
def Passed (versions remaining : List String) : Prop :=
  ∃ before, migrationVersions = before ++ remaining ∧ before <+: versions

/-- What is known of a process and of the copy of its transaction, by where it is. -/
def MigrationProcess.Sound (file : SchemaFile σ) : MigrationProcess → Prop
  | idle | failed => True
  | pending applied remaining => applied <+: file.committed.versions ∧
      Passed file.committed.versions remaining
  | begun applied version rest => applied <+: file.committed.versions ∧
      Passed file.committed.versions (version :: rest) ∧ file.writer = some file.committed
  | executed applied version rest => applied <+: file.committed.versions ∧
      Passed file.committed.versions (version :: rest) ∧
      ∃ schema, execute version file.committed.schema = some schema ∧
        file.writer = some { file.committed with schema }
  | recorded applied version rest => applied <+: file.committed.versions ∧
      Passed file.committed.versions (version :: rest) ∧ version ∉ file.committed.versions ∧
      ∃ schema, execute version file.committed.schema = some schema ∧
        file.writer = some ⟨schema, file.committed.versions ++ [version]⟩
  | done => file.committed.versions = migrationVersions

/-- The file has the schema of the migrations that it records, every process is sound, and at most
one has a transaction open. -/
structure MigrationsOrdered {ι : Type} (first : σ)
    (s : Threads ι (SchemaFile σ) MigrationProcess) : Prop where
  migrated : MigratedTo execute first s.shared.committed
  sound : ∀ i, (s.threads i).Sound execute s.shared
  alone : ∀ i j, (s.threads i).InTransaction → (s.threads j).InTransaction → i = j
  closed : s.shared.writer = none → ∀ i, ¬(s.threads i).InTransaction

variable {execute} {first : σ}

/-- A file that records more has at least the same migrations behind a process. -/
theorem Passed.mono {versions versions' remaining : List String} (h : Passed versions remaining)
    (hle : versions <+: versions') : Passed versions' remaining := by
  obtain ⟨before, hall, hbefore⟩ := h
  exact ⟨before, hall, hbefore.trans hle⟩

/-- What the file records ends in the part that a process has behind it, or goes on with the next
migration. -/
theorem Passed.split (hfront : versions <+: migrationVersions)
    (h : Passed versions (version :: rest)) :
    ∃ before, migrationVersions = before ++ version :: rest ∧
      (versions = before ∨ before ++ [version] <+: versions) := by
  obtain ⟨before, hall, tail, rfl⟩ := h
  refine ⟨before, hall, ?_⟩
  rw [hall, prefix_append_right_inj] at hfront
  cases tail with
  | nil => exact .inl (append_nil before)
  | cons next tail =>
    obtain ⟨rfl, -⟩ := cons_prefix_cons.mp hfront
    exact .inr ⟨tail, by simp⟩

/-- A migration that is recorded is behind a process. -/
theorem Passed.skip (hfront : versions <+: migrationVersions)
    (h : Passed versions (version :: rest)) (hmem : version ∈ versions) : Passed versions rest := by
  obtain ⟨before, hall, rfl | hnext⟩ := h.split hfront
  · have hnodup := hall ▸ migrationVersions_nodup
    have hdisjoint := (nodup_append.mp hnodup).2.2
    exact absurd rfl (hdisjoint version hmem version mem_cons_self)
  · exact ⟨before ++ [version], by simpa using hall, hnext⟩

/-- A migration that is not recorded is the next one of the file. -/
theorem Passed.record (hfront : versions <+: migrationVersions)
    (h : Passed versions (version :: rest)) (hnew : version ∉ versions) :
    versions ++ [version] <+: migrationVersions ∧ Passed (versions ++ [version]) rest := by
  obtain ⟨before, hall, rfl | hnext⟩ := h.split hfront
  · have hall' : migrationVersions = (versions ++ [version]) ++ rest := by simpa using hall
    exact ⟨⟨rest, hall'.symm⟩, versions ++ [version], hall', prefix_refl _⟩
  · exact absurd (hnext.subset (by simp)) hnew

/-- What a step does to the file, apart from what becomes of the process. -/
structure MigrationEffect (file : SchemaFile σ) (process : MigrationProcess)
    (file' : SchemaFile σ) (process' : MigrationProcess) : Prop where
  grows : file.committed.versions <+: file'.committed.versions
  /-- Without a transaction, a process can only open one. -/
  outside : ¬process.InTransaction →
    file' = file ∧ ¬process'.InTransaction ∨ file.writer = none ∧ file'.committed = file.committed
  /-- A transaction that is not open any more has left no copy. -/
  closes : process.InTransaction → process'.InTransaction ∨ file'.writer = none

/-- The copy of a process that has ended its transaction is gone. -/
theorem migrationEffect_abandon (file : SchemaFile σ) (h : process.InTransaction) :
    MigrationEffect file process { file with writer := none } .failed :=
  ⟨prefix_refl _, fun hnot => absurd h hnot, fun _ => .inr rfl⟩

/-- A step keeps what holds of file and process. -/
theorem migrationProceed_spec {file file' : SchemaFile σ}
    (hmigrated : MigratedTo execute first file.committed) (hsound : process.Sound execute file)
    (h : migrationProceed execute file process = some (file', process')) :
    MigratedTo execute first file'.committed ∧ process'.Sound execute file' ∧
      MigrationEffect file process file' process' := by
  cases process with
  | idle =>
    cases h
    exact ⟨hmigrated, ⟨prefix_refl _, [], rfl, nil_prefix⟩, prefix_refl _,
      fun _ => .inl ⟨rfl, id⟩, False.elim⟩
  | pending applied remaining =>
    obtain ⟨happlied, hpassed⟩ := hsound
    -- without a migration left the process is done
    cases remaining with
    | nil =>
      cases h
      obtain ⟨before, hall, hbefore⟩ := hpassed
      rw [append_nil] at hall
      exact ⟨hmigrated, (hmigrated.1.eq_of_length_le (hall ▸ hbefore).length_le),
        prefix_refl _, fun _ => .inl ⟨rfl, id⟩, False.elim⟩
    | cons version rest =>
      simp only [migrationProceed] at h
      -- a recorded migration is skipped, another begins if no process writes
      split_ifs at h with hmem
      · cases h
        exact ⟨hmigrated, ⟨happlied, hpassed.skip hmigrated.1 (happlied.subset hmem)⟩,
          prefix_refl _, fun _ => .inl ⟨rfl, id⟩, False.elim⟩
      · split at h
        · rename_i hwriter
          cases h
          exact ⟨hmigrated, ⟨happlied, hpassed, rfl⟩, prefix_refl _,
            fun _ => .inr ⟨hwriter, rfl⟩, False.elim⟩
        · cases h
          exact ⟨hmigrated, trivial, prefix_refl _, fun _ => .inl ⟨rfl, id⟩, False.elim⟩
  | begun applied version rest =>
    obtain ⟨happlied, hpassed, hwriter⟩ := hsound
    simp only [migrationProceed, hwriter, Option.bind_some] at h
    split at h
    · rename_i schema hschema
      cases h
      exact ⟨hmigrated, ⟨happlied, hpassed, schema, hschema, rfl⟩, prefix_refl _,
        fun hnot => absurd trivial hnot, fun _ => .inl trivial⟩
    · cases h
      exact ⟨hmigrated, trivial, migrationEffect_abandon file trivial⟩
  | executed applied version rest =>
    obtain ⟨happlied, hpassed, schema, hschema, hwriter⟩ := hsound
    simp only [migrationProceed, hwriter, Option.bind_some] at h
    split_ifs at h with hmem
    · cases h
      exact ⟨hmigrated, trivial, migrationEffect_abandon file trivial⟩
    · cases h
      exact ⟨hmigrated, ⟨happlied, hpassed, hmem, schema, hschema, rfl⟩, prefix_refl _,
        fun hnot => absurd trivial hnot, fun _ => .inl trivial⟩
  | recorded applied version rest =>
    obtain ⟨happlied, hpassed, hnew, schema, hschema, hwriter⟩ := hsound
    simp only [migrationProceed, hwriter, Option.map_some] at h
    cases h
    -- the commit: the file gets the version and its schema at once
    obtain ⟨hnext, hrest⟩ := hpassed.record hmigrated.1 hnew
    have hgrows := prefix_append file.committed.versions [version]
    refine ⟨⟨hnext, ?_⟩, ⟨happlied.trans hgrows, hrest⟩, hgrows,
      fun hnot => absurd trivial hnot, fun _ => .inr rfl⟩
    rw [foldlM_append, hmigrated.2]
    simpa using hschema
  | done => contradiction
  | failed => contradiction

/-- A step keeps the file migrated and its process sound. -/
theorem migrationStep_spec {file file' : SchemaFile σ} {action : MigrationAction}
    (hmigrated : MigratedTo execute first file.committed) (hsound : process.Sound execute file)
    (h : migrationStep execute file process action = some (file', process')) :
    MigratedTo execute first file'.committed ∧ process'.Sound execute file' ∧
      MigrationEffect file process file' process' := by
  cases action with
  | proceed => exact migrationProceed_spec hmigrated hsound h
  | fault =>
    obtain ⟨hfile, rfl⟩ := Prod.mk.inj (some.inj h)
    by_cases hin : process.InTransaction
    · rw [if_pos hin] at hfile
      subst hfile
      exact ⟨hmigrated, trivial, migrationEffect_abandon file hin⟩
    · rw [if_neg hin] at hfile
      subst hfile
      exact ⟨hmigrated, trivial, prefix_refl _, fun _ => .inl ⟨rfl, id⟩,
        fun hin' => absurd hin' hin⟩
  | restart =>
    have hstep : file' = file ∧ process' = .idle ∧ ¬process.InTransaction := by
      cases process with
      | done | failed =>
        cases h
        exact ⟨rfl, rfl, id⟩
      | _ => simp [migrationStep] at h
    obtain ⟨rfl, rfl, hnot⟩ := hstep
    exact ⟨hmigrated, trivial, prefix_refl _, fun _ => .inl ⟨rfl, id⟩,
      fun hin => absurd hin hnot⟩

/-- A process without a transaction is sound on a file that records more. -/
theorem MigrationProcess.Sound.grow {file file' : SchemaFile σ} (h : process.Sound execute file)
    (hnot : ¬process.InTransaction) (hmigrated : MigratedTo execute first file'.committed)
    (hgrows : file.committed.versions <+: file'.committed.versions) :
    process.Sound execute file' := by
  cases process with
  | idle | failed => trivial
  | pending applied remaining => exact ⟨h.1.trans hgrows, h.2.mono hgrows⟩
  | begun | executed | recorded => exact absurd trivial hnot
  | done =>
    have hall : file.committed.versions = migrationVersions := h
    exact hmigrated.1.eq_of_length_le (hall ▸ hgrows).length_le

/-- A transaction has a copy. -/
theorem MigrationProcess.Sound.writer_ne_none {file : SchemaFile σ} (h : process.Sound execute file)
    (hin : process.InTransaction) : file.writer ≠ none := by
  intro hnone
  cases process with
  | begun => exact absurd (hnone.symm.trans h.2.2) (by simp)
  | executed =>
    obtain ⟨-, -, schema, -, hwriter⟩ := h
    exact absurd (hnone.symm.trans hwriter) (by simp)
  | recorded =>
    obtain ⟨-, -, -, schema, -, hwriter⟩ := h
    exact absurd (hnone.symm.trans hwriter) (by simp)
  | _ => exact hin

variable {ι : Type} [DecidableEq ι]

/-- A step keeps the order. -/
theorem migrationsOrdered_step {s t : Threads ι (SchemaFile σ) MigrationProcess}
    {l : ι × MigrationAction} (hinv : MigrationsOrdered execute first s)
    (h : (migrationSystem execute ι first).step s l t) : MigrationsOrdered execute first t := by
  obtain ⟨i, action⟩ := l
  obtain ⟨file', process', hstep, rfl⟩ := interleave_step h
  obtain ⟨hmigrated, hsound, heffect⟩ := migrationStep_spec hinv.migrated (hinv.sound i) hstep
  -- the transaction of another process is not touched, and none is opened beside it
  have hother (j : ι) (hj : j ≠ i) (hin : (s.threads j).InTransaction) :
      file' = s.shared ∧ ¬process'.InTransaction := by
    have hout : ¬(s.threads i).InTransaction := fun hin' => hj (hinv.alone j i hin hin')
    obtain hsame | ⟨hnone, -⟩ := heffect.outside hout
    · exact hsame
    · exact absurd hin (hinv.closed hnone j)
  refine ⟨hmigrated, fun j => ?_, fun j k hjin hkin => ?_, fun hnone j hin => ?_⟩
  · show (update s.threads i process' j).Sound execute file'
    by_cases hj : j = i
    · rw [hj, update_self]
      exact hsound
    · rw [update_of_ne hj]
      by_cases hin : (s.threads j).InTransaction
      · exact (hother j hj hin).1 ▸ hinv.sound j
      · exact (hinv.sound j).grow hin hmigrated heffect.grows
  · change (update s.threads i process' j).InTransaction at hjin
    change (update s.threads i process' k).InTransaction at hkin
    by_cases hj : j = i <;> by_cases hk : k = i
    · rw [hj, hk]
    · rw [hj, update_self] at hjin
      rw [update_of_ne hk] at hkin
      exact absurd hjin (hother k hk hkin).2
    · rw [update_of_ne hj] at hjin
      rw [hk, update_self] at hkin
      exact absurd hkin (hother j hj hjin).2
    · rw [update_of_ne hj] at hjin
      rw [update_of_ne hk] at hkin
      exact hinv.alone j k hjin hkin
  · change file'.writer = none at hnone
    change (update s.threads i process' j).InTransaction at hin
    by_cases hj : j = i
    · rw [hj, update_self] at hin
      exact hsound.writer_ne_none hin hnone
    · rw [update_of_ne hj] at hin
      exact hinv.closed ((hother j hj hin).1 ▸ hnone) j hin

/-- A run keeps the order. -/
theorem migrationsOrdered_reach {s : Threads ι (SchemaFile σ) MigrationProcess}
    (h : (migrationSystem execute ι first).Reach s) : MigrationsOrdered execute first s := by
  refine h.invariant (fun s hinit => ?_) fun s l t hinv _ hstep => migrationsOrdered_step hinv hstep
  obtain ⟨hmigrated, hwriter, hidle⟩ := hinit
  have hout (i : ι) : ¬(s.threads i).InTransaction := by
    simp [hidle i, MigrationProcess.InTransaction]
  exact ⟨hmigrated, fun i => by rw [hidle i]; trivial, fun i _ hin _ => absurd hin (hout i),
    fun _ i => hout i⟩

/-- In every run of any number of processes, each of which may fail between any two statements and
start again, the file records some of the migrations from the first one on and has the schema after
these, run in order and each of them once; and once a process has come to its end, all of them. -/
theorem migrations_in_order {s : Threads ι (SchemaFile σ) MigrationProcess}
    (h : (migrationSystem execute ι first).Reach s) :
    s.shared.committed.versions <+: migrationVersions ∧
    s.shared.committed.versions.foldlM (fun schema version => execute version schema) first =
      some s.shared.committed.schema ∧
    ∀ i, s.threads i = .done → s.shared.committed.versions = migrationVersions := by
  have hinv := migrationsOrdered_reach h
  refine ⟨hinv.migrated.1, hinv.migrated.2, fun i hdone => ?_⟩
  have hsound := hinv.sound i
  rw [hdone] at hsound
  exact hsound

/-! ## Starting again -/

/-- The scripts run in order from the first schema on. -/
def RunsInOrder (execute : String → σ → Option σ) (first final : σ) : Prop :=
  migrationVersions.foldlM (fun schema version => execute version schema) first = some final

/-- The script of the next migration of a file runs. -/
theorem RunsInOrder.next {final : σ} (h : RunsInOrder execute first final) {rows : SchemaRows σ}
    (hmigrated : MigratedTo execute first rows)
    (hnext : rows.versions ++ [version] <+: migrationVersions) :
    ∃ schema, execute version rows.schema = some schema := by
  obtain ⟨rest, hall⟩ := hnext
  unfold RunsInOrder at h
  rw [← hall, foldlM_append, foldlM_append, hmigrated.2] at h
  cases hschema : execute version rows.schema with
  | none => simp [hschema] at h
  | some schema => exact ⟨schema, rfl⟩

variable (execute) in
/-- The state after some statements of one process. -/
def proceeds (i : ι) (steps : ℕ) (s : Threads ι (SchemaFile σ) MigrationProcess) :
    Option (Threads ι (SchemaFile σ) MigrationProcess) :=
  exec (fun _ _ => True) (threadStep (migrationStep execute)) s
    (List.replicate steps (i, .proceed))

/-- The first of several steps. -/
theorem proceeds_succ {i : ι} {s : Threads ι (SchemaFile σ) MigrationProcess} {file : SchemaFile σ}
    (h : migrationProceed execute s.shared (s.threads i) = some (file, process)) (steps : ℕ) :
    proceeds execute i (steps + 1) s =
      proceeds execute i steps ⟨file, update s.threads i process⟩ := by
  have hstep : threadStep (migrationStep execute) s (i, .proceed) =
      some ⟨file, update s.threads i process⟩ := by
    simp only [threadStep, migrationStep, h]
  rw [proceeds, replicate_succ, exec, if_pos trivial, hstep]
  rfl

/-- The same where the process has just stepped. -/
theorem proceeds_update {i : ι} {file file' : SchemaFile σ}
    (h : migrationProceed execute file process = some (file', process'))
    (threads : ι → MigrationProcess) (steps : ℕ) :
    proceeds execute i (steps + 1) ⟨file, update threads i process⟩ =
      proceeds execute i steps ⟨file', update threads i process'⟩ := by
  have hself : migrationProceed execute file (update threads i process i) =
      some (file', process') := by
    rw [update_self]
    exact h
  rw [proceeds_succ (s := ⟨file, update threads i process⟩) hself, update_idem]

/-- The four statements of a transaction that succeeds. -/
theorem proceeds_transaction {i : ι} {applied rest : List String}
    {s : Threads ι (SchemaFile σ) MigrationProcess} (hfree : s.shared.writer = none)
    (hprocess : s.threads i = .pending applied (version :: rest)) (hmem : version ∉ applied)
    (hnew : version ∉ s.shared.committed.versions) {schema : σ}
    (hschema : execute version s.shared.committed.schema = some schema) (steps : ℕ) :
    proceeds execute i (steps + 4) s = proceeds execute i steps
      ⟨⟨⟨schema, s.shared.committed.versions ++ [version]⟩, none⟩,
        update s.threads i (.pending applied rest)⟩ := by
  have hbegin : migrationProceed execute s.shared (s.threads i) =
      some (⟨s.shared.committed, some s.shared.committed⟩, .begun applied version rest) := by
    rw [hprocess]
    simp [migrationProceed, hmem, hfree]
  have hexecute : migrationProceed execute ⟨s.shared.committed, some s.shared.committed⟩
      (.begun applied version rest) = some (⟨s.shared.committed,
        some { s.shared.committed with schema }⟩, .executed applied version rest) := by
    simp [migrationProceed, hschema]
  have hrecord : migrationProceed execute ⟨s.shared.committed,
      some { s.shared.committed with schema }⟩ (.executed applied version rest) =
      some (⟨s.shared.committed, some ⟨schema, s.shared.committed.versions ++ [version]⟩⟩,
        .recorded applied version rest) := by
    simp [migrationProceed, hnew]
  rw [proceeds_succ hbegin, proceeds_update hexecute, proceeds_update hrecord]
  exact proceeds_update rfl s.threads steps

/-- A process that is alone, and knows what is recorded of the migrations before it, runs the
others. The induction is on these. -/
theorem proceeds_pending {final : σ} (hruns : RunsInOrder execute first final) {i : ι}
    {applied remaining : List String} {s : Threads ι (SchemaFile σ) MigrationProcess}
    (hmigrated : MigratedTo execute first s.shared.committed) (hfree : s.shared.writer = none)
    (hprocess : s.threads i = .pending applied remaining)
    (happlied : applied <+: s.shared.committed.versions)
    (hpassed : Passed s.shared.committed.versions remaining)
    (hknown : ∀ version ∈ remaining, version ∈ s.shared.committed.versions → version ∈ applied) :
    ∃ steps t, proceeds execute i steps s = some t ∧ t.threads i = .done ∧
      t.shared.writer = none := by
  induction remaining generalizing s with
  | nil =>
    have hstep : migrationProceed execute s.shared (s.threads i) = some (s.shared, .done) := by
      rw [hprocess]
      rfl
    exact ⟨1, _, proceeds_succ hstep 0, update_self .., hfree⟩
  | cons version rest ih =>
    rw [forall_mem_cons] at hknown
    by_cases hmem : version ∈ applied
    · have hstep : migrationProceed execute s.shared (s.threads i) =
          some (s.shared, .pending applied rest) := by
        rw [hprocess]
        exact if_pos hmem
      obtain ⟨steps, t, ht, hdone⟩ := ih (s := ⟨s.shared, update s.threads i _⟩) hmigrated
        hfree (update_self ..) happlied
        (hpassed.skip hmigrated.1 (happlied.subset hmem)) hknown.2
      exact ⟨steps + 1, t, (proceeds_succ hstep steps).trans ht, hdone⟩
    · have hnew : version ∉ s.shared.committed.versions := fun h => hmem (hknown.1 h)
      obtain ⟨hnext, hrest⟩ := hpassed.record hmigrated.1 hnew
      obtain ⟨schema, hschema⟩ := hruns.next hmigrated hnext
      have hgrows := prefix_append s.shared.committed.versions [version]
      have hmigrated' : MigratedTo execute first
          ⟨schema, s.shared.committed.versions ++ [version]⟩ := by
        refine ⟨hnext, ?_⟩
        rw [foldlM_append, hmigrated.2]
        simpa using hschema
      have hunseen : ∀ next ∈ rest, next ∈ s.shared.committed.versions ++ [version] →
          next ∈ applied := by
        intro next hin hmem'
        obtain hold | hsame := mem_append.mp hmem'
        · exact hknown.2 next hin hold
        · obtain ⟨before, hall, -⟩ := hpassed
          have hnodup := (nodup_append.mp (hall ▸ migrationVersions_nodup)).2.1
          rw [mem_singleton.mp hsame] at hin
          exact absurd hin (nodup_cons.mp hnodup).1
      obtain ⟨steps, t, ht, hdone⟩ := ih (s := ⟨⟨⟨schema, _⟩, none⟩, update s.threads i _⟩)
        hmigrated' rfl (update_self ..) (happlied.trans hgrows) hrest hunseen
      refine ⟨steps + 4, t, ?_, hdone⟩
      exact (proceeds_transaction hfree hprocess hmem hnew hschema steps).trans ht

/-- A process that starts while no transaction is open, in whatever state the ones before it have
left the file, and is alone, comes to its end, with all migrations run in order. -/
theorem migrations_complete {s : Threads ι (SchemaFile σ) MigrationProcess}
    (h : (migrationSystem execute ι first).Reach s) (hfree : s.shared.writer = none) {i : ι}
    (hidle : s.threads i = .idle) {final : σ} (hruns : RunsInOrder execute first final) :
    ∃ steps t, proceeds execute i steps s = some t ∧ t.threads i = .done ∧
      t.shared = ⟨⟨final, migrationVersions⟩, none⟩ := by
  have hinv := migrationsOrdered_reach h
  have hread : migrationProceed execute s.shared (s.threads i) =
      some (s.shared, .pending s.shared.committed.versions migrationVersions) := by
    rw [hidle]
    rfl
  obtain ⟨steps, t, ht, hdone, hwriter⟩ := proceeds_pending hruns
    (s := ⟨s.shared, update s.threads i
      (.pending s.shared.committed.versions migrationVersions)⟩)
    hinv.migrated hfree (update_self ..) (prefix_refl _)
    ⟨[], rfl, nil_prefix⟩ fun _ _ hmem => hmem
  have hrun : proceeds execute i (steps + 1) s = some t := (proceeds_succ hread steps).trans ht
  have hreach : (migrationSystem execute ι first).Reach t := reachWithin_exec h hrun
  have hinv' := migrationsOrdered_reach hreach
  have hall : t.shared.committed.versions = migrationVersions := by
    have hsound := hinv'.sound i
    rw [hdone] at hsound
    exact hsound
  have hschema : t.shared.committed.schema = final := by
    have hfold := hinv'.migrated.2
    rw [hall] at hfold
    exact some.inj (hfold.symm.trans hruns)
  refine ⟨steps + 1, t, hrun, hdone, ?_⟩
  obtain ⟨⟨⟨schema, versions⟩, writer⟩, threads⟩ := t
  simp only at hall hschema hwriter
  rw [hall, hschema, hwriter]

end

/-! ## A process that is killed -/

/-- A script that fails where it was run before. -/
def addOnce (version : String) (schema : List String) : Option (List String) :=
  if version ∈ schema then none else some (schema ++ [version])

/-- An empty file, and two processes. -/
def emptyFile : Threads Bool (SchemaFile (List String)) MigrationProcess where
  shared := ⟨⟨[], []⟩, none⟩
  threads _ := .idle

/-- Two processes and an empty file. -/
theorem reach_emptyFile : (migrationSystem addOnce Bool []).Reach emptyFile :=
  .init ⟨⟨List.nil_prefix, rfl⟩, rfl, fun _ => rfl⟩

/-- Two processes start, one of them runs the first migration and is killed in the second, and the
other fails on the first one. -/
def killedRun : List (Bool × MigrationAction) :=
  (true, .proceed) :: List.replicate 7 (false, .proceed) ++
    [(false, .fault), (true, .proceed), (true, .proceed), (true, .restart)]

/-- The run in which one is killed. -/
theorem exists_killedRun :
    ∃ s, exec (fun _ _ => True) (threadStep (migrationStep addOnce)) emptyFile killedRun = some s ∧
      s.shared.committed.versions = ["0001_create_sessions_table"] ∧ s.shared.writer = none ∧
      s.threads true = .idle := by
  have hrun : ((exec (fun _ _ => True) (threadStep (migrationStep addOnce)) emptyFile
      killedRun).map fun s => (s.shared.committed.versions, s.shared.writer.isNone,
        decide (s.threads true = .idle))) =
      some (["0001_create_sessions_table"], true, true) := by decide +kernel
  obtain ⟨s, hs, heq⟩ := Option.map_eq_some_iff.mp hrun
  simp only [Prod.mk.injEq, Option.isNone_iff_eq_none, decide_eq_true_eq] at heq
  exact ⟨s, hs, heq⟩

/-- One migration is recorded after it. -/
theorem migrations_in_order_killed :
    ∃ s : Threads Bool (SchemaFile (List String)) MigrationProcess,
      s.shared.committed.versions = ["0001_create_sessions_table"] ∧
      s.shared.committed.versions <+: migrationVersions ∧
      s.shared.committed.versions.foldlM (fun schema version => addOnce version schema) [] =
        some s.shared.committed.schema ∧
      ∀ i, s.threads i = .done → s.shared.committed.versions = migrationVersions := by
  obtain ⟨s, hs, hversions, -⟩ := exists_killedRun
  exact ⟨s, hversions, migrations_in_order (reachWithin_exec reach_emptyFile hs)⟩

/-- The other process runs the rest. -/
theorem migrations_complete_killed :
    ∃ s steps t, exec (fun _ _ => True) (threadStep (migrationStep addOnce)) emptyFile killedRun =
      some s ∧ proceeds addOnce true steps s = some t ∧ t.threads true = .done ∧
      t.shared = ⟨⟨migrationVersions, migrationVersions⟩, none⟩ := by
  obtain ⟨s, hs, -, hfree, hidle⟩ := exists_killedRun
  obtain ⟨steps, t, hrun⟩ := migrations_complete (reachWithin_exec reach_emptyFile hs) hfree hidle
    (show RunsInOrder addOnce [] migrationVersions by unfold RunsInOrder; decide +kernel)
  exact ⟨s, steps, t, hs, hrun⟩

end Oxydra
