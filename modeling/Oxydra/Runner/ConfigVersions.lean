import Mathlib.Data.List.GetD
import Oxydra.Runner.ConfigMigration
import Oxydra.Runner.FileFaults

/-!
# The versions of a configuration

`is_older_version` compares the numbers of two versions, the shorter one with zeros behind it, and
the loop of `migrate_config_file_if_needed` looks for a migration by the text of the version. A
version that has the numbers of a registered one in another spelling is older, and no migration is
found for it (`migratesAlike_iff`).
-/

namespace Oxydra

open List Toml Effect

/-! ## The age of a version -/

/-- Two versions with the same numbers. -/
def SameVersion (version version' : String) : Prop :=
  ∃ segments segments', parseVersionSegments version = some segments ∧
    parseVersionSegments version' = some segments' ∧
    ∀ idx, segments.getD idx 0 = segments'.getD idx 0

/-- What the first of so many numbers that differ says. -/
def firstDifference (version target : ℕ → ℕ) (len : ℕ) : Option Bool :=
  (List.range len).findSome? fun idx =>
    if version idx < target idx then some true
    else if target idx < version idx then some false
    else none

theorem isOlderVersion_eq {version target : String} {segments target_segments : List ℕ}
    (h : parseVersionSegments version = some segments)
    (htarget : parseVersionSegments target = some target_segments) :
    isOlderVersion version target =
      (firstDifference (segments.getD · 0) (target_segments.getD · 0)
        (max segments.length target_segments.length) <|> some false) := by
  unfold isOlderVersion
  rw [h, htarget]
  rfl

/-- Numbers that are zero on both sides make no difference. -/
theorem firstDifference_add {version target : ℕ → ℕ} {len : ℕ}
    (h : ∀ idx, len ≤ idx → version idx = target idx) (more : ℕ) :
    firstDifference version target (len + more) = firstDifference version target len := by
  have hmore : ((List.range more).map (len + ·)).findSome? (fun idx =>
      if version idx < target idx then some true
      else if target idx < version idx then some false
      else none) = none := by
    refine List.findSome?_eq_none_iff.mpr fun idx hidx => ?_
    obtain ⟨k, -, rfl⟩ := mem_map.mp hidx
    rw [h _ (Nat.le_add_right len k), if_neg (Nat.lt_irrefl _), if_neg (Nat.lt_irrefl _)]
  unfold firstDifference
  rw [range_add, List.findSome?_append, hmore, Option.or_none]

/-- Versions with the same numbers are of one age. -/
theorem SameVersion.isOlderVersion_eq {version version' : String}
    (h : SameVersion version version') (target : String) :
    isOlderVersion version target = isOlderVersion version' target := by
  obtain ⟨segments, segments', hparse, hparse', hsame⟩ := h
  cases htarget : parseVersionSegments target with
  | none => simp [isOlderVersion, hparse, hparse', htarget]
  | some target_segments =>
    rw [Oxydra.isOlderVersion_eq hparse htarget, Oxydra.isOlderVersion_eq hparse' htarget]
    set len := max (max segments.length segments'.length) target_segments.length with hlen
    -- both are compared as far as the longest of the three goes
    have hlong : ∀ parts : List ℕ, parts.length ≤ max segments.length segments'.length →
        firstDifference (parts.getD · 0) (target_segments.getD · 0)
          (max parts.length target_segments.length) =
        firstDifference (parts.getD · 0) (target_segments.getD · 0) len := by
      intro parts hparts
      obtain ⟨more, hmore⟩ :=
        Nat.exists_eq_add_of_le (show max parts.length target_segments.length ≤ len by omega)
      rw [hmore, firstDifference_add]
      intro idx hidx
      rw [getD_eq_default _ _ (by omega), getD_eq_default _ _ (by omega)]
    rw [hlong segments (Nat.le_max_left _ _), hlong segments' (Nat.le_max_right _ _),
      funext hsame]

/-! ## The loop -/

/-- The loop of `migrate_config_file_if_needed`, or `none` where it has not ended after so many
rounds. -/
def migrationLoop (path : FilePath) (kind : ConfigKind) :
    ℕ → Table → String → Option (Except MigrationError Table)
  | 0, _, _ => none
  | rounds + 1, document, current_version =>
    if current_version = defaultRunnerConfigVersion then some (.ok document)
    else
      match kind.migrations.find? fun migration => migration.from_version = current_version with
      | none => some <| .error <| .configMigration path
          s!"no migration registered for {kind.asLabel} config version `{current_version}`"
      | some migration =>
        match migration.transform document with
        | .error error => some (.error error)
        | .ok document =>
          migrationLoop path kind rounds
            (Fields.insert "config_version" (.string migration.to_version) document)
            migration.to_version

/-- The migrations that there are lead to the default version. -/
theorem ConfigKind.mem_migrations {kind : ConfigKind} {migration : ConfigMigration}
    (h : migration ∈ kind.migrations) :
    migration.from_version = legacyRunnerConfigVersion ∧
      migration.to_version = defaultRunnerConfigVersion ∧
      ∀ document, migration.transform document = .ok document := by
  cases kind <;>
    obtain rfl := mem_singleton.mp h <;>
    exact ⟨rfl, rfl, fun _ => rfl⟩

/-- The loop ends, after two rounds at the latest. -/
theorem migrationLoop_eq (path : FilePath) (kind : ConfigKind) (document : Table)
    (current_version : String) :
    migrationLoop path kind 2 document current_version =
      some (applyMigrations path kind 1 document current_version) := by
  unfold migrationLoop applyMigrations
  by_cases hversion : current_version = defaultRunnerConfigVersion
  · rw [if_pos hversion, if_pos hversion]
  · rw [if_neg hversion, if_neg hversion]
    cases hfind : kind.migrations.find? fun migration =>
      migration.from_version = current_version with
    | none => rfl
    | some migration =>
      obtain ⟨-, hto, htransform⟩ := ConfigKind.mem_migrations (mem_of_find?_eq_some hfind)
      dsimp only
      rw [htransform document]
      simp only [hto, migrationLoop, applyMigrations, ↓reduceIte]
      rfl

/-- A document of the legacy version gets the default one. -/
theorem applyMigrations_legacy (path : FilePath) (kind : ConfigKind) (document : Table) :
    applyMigrations path kind 1 document legacyRunnerConfigVersion =
      .ok (Fields.insert "config_version" (.string defaultRunnerConfigVersion) document) := by
  have hdone : applyMigrations path kind 0
      (Fields.insert "config_version" (.string defaultRunnerConfigVersion) document)
      defaultRunnerConfigVersion =
        .ok (Fields.insert "config_version" (.string defaultRunnerConfigVersion) document) := by
    unfold applyMigrations
    exact if_pos rfl
  unfold applyMigrations
  rw [if_neg (by decide)]
  cases kind <;> exact hdone

/-- No other version but the default one has a migration. -/
theorem applyMigrations_error {path : FilePath} {kind : ConfigKind} {document : Table}
    {version : String} (hlegacy : version ≠ legacyRunnerConfigVersion)
    (hdefault : version ≠ defaultRunnerConfigVersion) :
    applyMigrations path kind 1 document version = .error (.configMigration path
      s!"no migration registered for {kind.asLabel} config version `{version}`") := by
  have hfind : kind.migrations.find? (fun migration => migration.from_version = version) =
      none := by
    refine List.find?_eq_none.mpr fun migration hmem => ?_
    rw [(ConfigKind.mem_migrations hmem).1]
    simpa using hlegacy.symm
  unfold applyMigrations
  rw [if_neg hdefault, hfind]

/-! ## The file -/

/-- The document of a file, with the version that it states. -/
structure StatesVersion (toml : TomlCrate) (files : ConfigFiles) (path : FilePath) (raw : String)
    (document : Table) (version : String) : Prop where
  text : textOf files path = some raw
  parse : toml.parse raw = .ok document
  version : document.lookup "config_version" = some (.string version)

/-- A migration of a file, by a process whose calls do not fail, ends well and leaves the text of a
document in it. -/
def MigratesTo (toml : TomlCrate) (kind : ConfigKind) (files : ConfigFiles) (path : FilePath)
    (raw : String) (document : Table) : Prop :=
  ∀ host : FileHost, host.Reliable → ∀ now, ∃ backup files',
    migrateConfigFileIfNeeded host now toml path kind files = .ok backup files' ∧
      textOf files' path = some (toml.edited raw document)

/-- What is expected of the versions of a file's document. A version with the numbers of a
registered one is migrated to the document that the registered one is, whatever the file is in which
that stands; the loop ends for an older version; and a file that is not older stays. -/
structure MigratesAlike (toml : TomlCrate) (kind : ConfigKind) (files : ConfigFiles)
    (path : FilePath) (raw : String) (document : Table) (version : String) : Prop where
  alike : ∀ migration ∈ kind.migrations, SameVersion version migration.from_version →
    ∃ migrated, MigratesTo toml kind files path raw migrated ∧
      ∀ files₀ raw₀, StatesVersion toml files₀ path raw₀
          (Fields.insert "config_version" (.string migration.from_version) document)
          migration.from_version →
        MigratesTo toml kind files₀ path raw₀ migrated
  ends : isOlderVersion version defaultRunnerConfigVersion = some true →
    ∃ rounds outcome, migrationLoop path kind rounds document version = some outcome
  stays : isOlderVersion version defaultRunnerConfigVersion = some false →
    ∀ host now, wp (migrateConfigFileIfNeeded host now toml path kind)
      (fun _ files' => files' = files) (fun _ files' => files' = files) files

section

variable {toml : TomlCrate} {kind : ConfigKind} {files : ConfigFiles} {path : FilePath}
  {raw version : String} {document : Table}

theorem StatesVersion.migratedText_eq (h : StatesVersion toml files path raw document version) :
    migratedText toml path kind raw =
      if version = defaultRunnerConfigVersion then .ok none
      else if isOlderVersion version defaultRunnerConfigVersion = some true then
        (applyMigrations path kind 1 document version).map fun migrated =>
          some (toml.edited raw migrated)
      else .ok none := by
  have hmap : ∀ migrated : Except MigrationError Table,
      (do return some (toml.edited raw (← migrated))) =
        migrated.map fun migrated => some (toml.edited raw migrated) := by
    intro migrated
    cases migrated <;> rfl
  unfold migratedText
  rw [h.parse]
  simp only [Except.mapError, Effect.except_ok_bind, h.version, hmap]
  rfl

/-- A file that is not migrated stays, whatever the calls do. -/
theorem wp_migrate_idle (h : migratedText toml path kind raw = .ok none)
    (htext : textOf files path = some raw) (host : FileHost) (now : MigrationTimes) :
    wp (migrateConfigFileIfNeeded host now toml path kind)
      (fun _ files' => files' = files) (fun _ files' => files' = files) files := by
  unfold migrateConfigFileIfNeeded
  rw [wp_bind, wp_adaptExcept]
  refine FileHost.wp_readToString.mono ?_ fun _ _ hfiles => hfiles
  rintro raw' _ ⟨rfl, htext'⟩
  obtain rfl : raw = raw' := Option.some.inj (htext.symm.trans htext')
  rw [h]
  exact rfl

/-- A file that is migrated holds the text of the document. -/
theorem migratesTo_of {migrated : Table}
    (h : migratedText toml path kind raw = .ok (some (toml.edited raw migrated)))
    (htext : textOf files path = some raw) : MigratesTo toml kind files path raw migrated := by
  intro host hhost now
  obtain ⟨before, hbefore, -⟩ := Option.bind_eq_some_iff.mp htext
  have hof : migrationOf toml path kind files = some (toml.edited raw migrated) := by
    unfold migrationOf
    rw [htext]
    show ((migratedText toml path kind raw).toOption.bind fun text => text) = _
    rw [h]
    rfl
  refine ⟨_, _, hhost.migrate_run hof hbefore, ?_⟩
  rw [textOf, lookup_written, if_pos rfl, Option.bind_some, fromUTF8?_toUTF8]

/-- The legacy version is migrated. -/
theorem StatesVersion.migratesTo (h : StatesVersion toml files path raw document
    legacyRunnerConfigVersion) :
    MigratesTo toml kind files path raw
      (Fields.insert "config_version" (.string defaultRunnerConfigVersion) document) := by
  refine migratesTo_of ?_ h.text
  rw [h.migratedText_eq, if_neg (by decide), if_pos (by decide), applyMigrations_legacy]
  rfl

/-- A version of the registered one's age with another text is not migrated. -/
theorem StatesVersion.not_migratesTo (h : StatesVersion toml files path raw document version)
    (hsame : SameVersion version legacyRunnerConfigVersion)
    (hne : version ≠ legacyRunnerConfigVersion) (migrated : Table) :
    ¬MigratesTo toml kind files path raw migrated := by
  intro hto
  have hage : isOlderVersion version defaultRunnerConfigVersion = some true :=
    (hsame.isOlderVersion_eq _).trans (by decide)
  have hdefault : version ≠ defaultRunnerConfigVersion := by
    rintro rfl
    exact absurd hage (by decide)
  have htext : migratedText toml path kind raw = _ := h.migratedText_eq
  rw [if_neg hdefault, if_pos hage, applyMigrations_error hne hdefault] at htext
  obtain ⟨backup, files', hrun, -⟩ := hto _ (FileHost.reliable_reliable 0) ⟨0, 0⟩
  have hread := (FileHost.reliable_reliable 0).readToString_ok h.text
  unfold migrateConfigFileIfNeeded at hrun
  rw [bind_ok (adaptExcept_eq_ok.mpr hread), htext] at hrun
  exact absurd hrun nofun

/-- What is expected of a file's version holds if it is not a registered one in another spelling. -/
theorem StatesVersion.alike_iff (h : StatesVersion toml files path raw document version) :
    MigratesAlike toml kind files path raw document version ↔
      ∀ migration ∈ kind.migrations, SameVersion version migration.from_version →
        version = migration.from_version := by
  constructor
  · intro halike migration hmem hsame
    by_contra hne
    obtain ⟨migrated, hto, -⟩ := halike.alike migration hmem hsame
    rw [(ConfigKind.mem_migrations hmem).1] at hsame hne
    exact h.not_migratesTo hsame hne migrated hto
  · intro hcond
    refine ⟨fun migration hmem hsame => ?_, fun _ => ⟨2, _, migrationLoop_eq _ _ _ _⟩,
      fun hage host now => wp_migrate_idle ?_ h.text host now⟩
    · have hversion := hcond migration hmem hsame
      rw [(ConfigKind.mem_migrations hmem).1] at hversion ⊢
      subst hversion
      refine ⟨_, h.migratesTo, fun files₀ raw₀ h₀ => ?_⟩
      have hto : MigratesTo toml kind files₀ path raw₀ _ := h₀.migratesTo
      rw [Fields.insert_insert] at hto
      exact hto
    · rw [h.migratedText_eq, hage]
      simp

end

/-- The versions of all files are migrated alike where none is a registered one in another
spelling. -/
theorem migratesAlike_iff (toml : TomlCrate) (kind : ConfigKind) (files : ConfigFiles)
    (path : FilePath) :
    (∀ raw document version, StatesVersion toml files path raw document version →
      MigratesAlike toml kind files path raw document version) ↔
    ∀ raw document version, StatesVersion toml files path raw document version →
      ∀ migration ∈ kind.migrations, SameVersion version migration.from_version →
        version = migration.from_version :=
  forall₃_congr fun _ _ _ => forall_congr' fun h => h.alike_iff

/-! ## The legacy version, written shorter -/

/-- The text of a file with the legacy version. -/
def shortVersionText : String := "config_version = \"1.0\"\n"

/-- `toml_edit`, as far as that file goes. -/
def shortVersionToml : TomlCrate where
  parse text :=
    if text = shortVersionText then .ok [("config_version", .string "1.0")]
    else .error "not read here"
  pretty _ := .error "not printed here"
  edited _ _ := "config_version = \"1.0.1\"\n"
  coercions := ⟨fun _ _ => none, fun _ _ => none⟩
  mismatch _ _ := "not read here"

/-- No migration is found for the version `1.0`. -/
theorem shortVersion_not_migrated :
    ¬∀ raw document version,
      StatesVersion shortVersionToml
          (AList.singleton ⟨"/etc/oxydra", "runner.toml"⟩ shortVersionText.toUTF8)
          ⟨"/etc/oxydra", "runner.toml"⟩ raw document version →
        MigratesAlike shortVersionToml .global
          (AList.singleton ⟨"/etc/oxydra", "runner.toml"⟩ shortVersionText.toUTF8)
          ⟨"/etc/oxydra", "runner.toml"⟩ raw document version := by
  intro h
  have hstates : StatesVersion shortVersionToml
      (AList.singleton ⟨"/etc/oxydra", "runner.toml"⟩ shortVersionText.toUTF8)
      ⟨"/etc/oxydra", "runner.toml"⟩ shortVersionText [("config_version", .string "1.0")]
      "1.0" := by
    refine ⟨?_, rfl, rfl⟩
    have hbytes : (AList.singleton (β := fun _ : FilePath => ByteArray)
        ⟨"/etc/oxydra", "runner.toml"⟩ shortVersionText.toUTF8).lookup
          ⟨"/etc/oxydra", "runner.toml"⟩ = some shortVersionText.toUTF8 := rfl
    rw [textOf, hbytes, Option.bind_some, fromUTF8?_toUTF8]
  have hsame : SameVersion "1.0" legacyRunnerConfigVersion := by
    refine ⟨[1, 0], [1, 0, 0], by decide, by decide, fun i => ?_⟩
    rcases i with _ | _ | _ | _ <;> rfl
  obtain ⟨migrated, hto, -⟩ := (h _ _ _ hstates).alike _ (mem_singleton.mpr rfl) hsame
  exact hstates.not_migratesTo hsame (by decide) migrated hto

end Oxydra
