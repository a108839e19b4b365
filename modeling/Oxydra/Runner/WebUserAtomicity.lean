import Oxydra.Runner.UserCreation
import Oxydra.Runner.UserDeletion
import Oxydra.Runner.UserRenaming

/-!
# Web requests for users, all or nothing

A request is all or nothing exactly when what it undoes after a failure can be undone. That is not
always so: where the old backups cannot be removed, the new runner configuration is in place
already, and nothing puts the old one back.
-/

namespace Oxydra

open Except Toml Effect

/-- What an operation relies on besides the calls that it may undo. -/
structure UserOperation.Sound (server : WebServer) (operation : UserOperation)
    (files : ConfigFiles) : Prop where
  printed : operation.Printed server files
  /-- What the calls that it comes to rely on. -/
  comes : match operation with
    | .create user_id config_path => server.CreationSound user_id config_path files
    | .rename old_user_id new_user_id new_config_path =>
      server.RenamingSound old_user_id new_user_id new_config_path files
    | .delete user_id delete_config_file => server.DeletionSound user_id delete_config_file files

/-- What an operation undoes after a failure can be undone. -/
def UserOperation.Compensated (server : WebServer) (files : ConfigFiles) : UserOperation → Prop
  | .create user_id config_path => server.CreationCompensated user_id config_path files
  | .rename old_user_id new_user_id new_config_path =>
    server.RenamingCompensated old_user_id new_user_id new_config_path files
  | .delete user_id delete_config_file =>
    server.DeletionCompensated user_id delete_config_file files

/-- Each operation by its own lemma. -/
theorem UserOperation.Sound.atomic_iff {server : WebServer} {operation : UserOperation}
    {files : ConfigFiles} (h : operation.Sound server files) :
    operation.Atomic server files ↔ operation.Compensated server files := by
  cases operation with
  | create user_id config_path => exact h.printed.create_atomic_iff h.comes
  | rename old_user_id new_user_id new_config_path => exact h.printed.rename_atomic_iff h.comes
  | delete user_id delete_config_file => exact h.printed.delete_atomic_iff h.comes

section Examples

/-- A runner configuration with a user, and without. -/
def aliceText : String :=
  "config_version = \"1.0.1\"\n\n[users]\nalice = \x7b config_path = \"alice.toml\" \x7d\n"
def nobodyText : String := "config_version = \"1.0.1\"\n\n[users]\n"

def aliceTable : Table := [("config_version", .string "1.0.1"),
  ("users", .table [("alice", .table [("config_path", .string "alice.toml")])])]
def nobodyTable : Table := [("config_version", .string "1.0.1"), ("users", .table [])]

/-- What `toml_edit` reads and prints where the user is removed. -/
def aliceToml : TomlCrate where
  parse text :=
    if text = aliceText then .ok aliceTable
    else if text = nobodyText then .ok nobodyTable
    else .error "not read here"
  pretty _ := .error "not printed here"
  edited _ table := if (tableAt ["users"] table).all List.isEmpty then nobodyText else aliceText
  coercions := ⟨fun _ _ => none, fun _ _ => none⟩
  mismatch _ _ := "not read here"

def aliceConfigPath : FilePath := ⟨"/etc/oxydra", "runner.toml"⟩

/-- A server that was started with the user, some of whose calls fail. -/
def aliceServer (fails : WebStep → FileCall → Option String) : WebServer where
  config_path := aliceConfigPath
  global_config := (runnerGlobalConfig.schema.read aliceToml.coercions (.table aliceTable)).getD
    runnerGlobalConfig.default
  toml := aliceToml
  validate _ := .ok ()
  host step := { FileHost.reliable 42 with fails := fails step }
  now := ⟨⟨0, 0⟩, 0, ⟨0, 0⟩⟩

def aliceFiles : ConfigFiles := AList.singleton aliceConfigPath aliceText.toUTF8

/-- The request that removes her. -/
def removeAlice : UserOperation := .delete "alice" false

variable {fails : WebStep → FileCall → Option String}

/-- The users in Alice's file. -/
theorem registeredUsers_alice :
    registeredUsers aliceToml (aliceFiles.lookup aliceConfigPath) =
      documentUsers aliceToml.coercions aliceTable := by
  have hbytes : aliceFiles.lookup aliceConfigPath = some aliceText.toUTF8 := rfl
  have hparse : aliceToml.parse aliceText = .ok aliceTable := rfl
  rw [hbytes, registeredUsers_toUTF8, textUsers_of_parse hparse]

/-- The text of Alice's file. -/
theorem textOf_alice : textOf aliceFiles aliceConfigPath = some aliceText := by
  have hbytes : aliceFiles.lookup aliceConfigPath = some aliceText.toUTF8 := rfl
  rw [textOf, hbytes, Option.bind_some, fromUTF8?_toUTF8]

/-- Nothing else is read as a map. -/
theorem mapsAreTables_alice : MapsAreTables aliceToml.coercions := fun _ _ _ => rfl

/-- The users that the server sees. -/
theorem users_alice :
    ((aliceServer fails).webUsers aliceFiles).users =
      documentUsers aliceToml.coercions aliceTable := by
  unfold WebServer.webUsers aliceServer
  dsimp only
  exact registeredUsers_alice

/-- Alice is registered. -/
theorem lookup_alice :
    ((aliceServer fails).webUsers aliceFiles).users "alice" = some "alice.toml" := by
  rw [users_alice]
  rfl

/-- What is printed for the request is read. -/
theorem removeAlice_printed : removeAlice.Printed (aliceServer fails) aliceFiles where
  map_table := mapsAreTables_alice
  default _ := nofun
  version text htext document hdocument := by
    obtain rfl := Option.some.inj (textOf_alice.symm.trans htext)
    cases hdocument
    rfl
  patch file := by
    rintro text file_exists document patched - hdocument hpatched
    have hpatch : patched = nobodyTable := by
      have hdocument : (if text = aliceText then Except.ok aliceTable
          else if text = nobodyText then .ok nobodyTable
          else .error "not read here" : Except String Table) = .ok document := hdocument
      split_ifs at hdocument
      · cases hdocument
        exact (ok.inj hpatched).symm
      · cases hdocument
        exact (ok.inj hpatched).symm
    rw [hpatch]
    exact ⟨nobodyTable, rfl, rfl⟩

/-- The server meets the condition. -/
theorem aliceServer_sound (hchecked : ∀ step path, fails step (.metadata path) = none) :
    removeAlice.Sound (aliceServer fails) aliceFiles where
  printed := removeAlice_printed
  comes := by
    refine ⟨fun _ _ _ => ⟨fun _ => hchecked _ _, fun change hchange => ?_⟩, fun _ _ _ _ => nofun⟩
    rw [List.mem_singleton.mp hchange]
    exact nofun

/-- The request goes by the registration that is in the file, or by the one from the start. -/
theorem snapshot_alice :
    userConfigPath ((aliceServer fails).snapshot aliceFiles) "alice" = some "alice.toml" := by
  obtain hfile | hstart := (@removeAlice_printed fails).snapshot_user "alice"
  · rw [hfile, lookup_alice]
  · have hread : (runnerGlobalConfig.schema.read aliceToml.coercions
        (.table aliceTable)).isSome := by
      decide
    obtain ⟨config, hconfig⟩ := Option.isSome_iff_exists.mp hread
    have hcached : (aliceServer fails).global_config = config := by
      rw [aliceServer, hconfig, Option.getD_some]
    rw [hstart, hcached, userConfigPath_of_read mapsAreTables_alice hconfig]
    rfl

/-- A call of `persist_patch` that fails. -/
def failsToPersist (bad : FileCall → Bool) : WebStep → FileCall → Option String
  | .persist, call => if bad call then some "Permission denied (os error 13)" else none
  | _, _ => none

/-- The new runner configuration cannot be put in place. -/
def isRename : FileCall → Bool
  | .rename _ _ => true
  | _ => false

/-- The old backups cannot be looked for. -/
def isReadDir : FileCall → Bool
  | .readDir _ => true
  | _ => false

/-- A check does not fail. -/
theorem failsToPersist_checked {bad : FileCall → Bool} (hbad : ∀ path, bad (.metadata path) = false)
    (step : WebStep) (path : FilePath) : failsToPersist bad step (.metadata path) = none := by
  cases step <;> simp [failsToPersist, hbad]

/-- Her file after the loading. -/
theorem lookup_loaded_alice :
    ((aliceServer fails).loaded aliceFiles).lookup aliceConfigPath = some aliceText.toUTF8 := by
  obtain ⟨-, hsame | ⟨text, htext, -⟩⟩ := @migrated_loaded (aliceServer fails) aliceFiles
  · exact hsame.trans rfl
  · have hnone : (migratedText aliceToml aliceConfigPath .global aliceText).toOption.bind id =
        none := by
      decide
    have htext : migrationOf aliceToml aliceConfigPath .global aliceFiles = some text := htext
    rw [migrationOf, textOf_alice] at htext
    cases hnone.symm.trans htext

/-- What is prepared of the request. -/
def preparedAlice : Option (String × Bool) :=
  (preparePatch aliceToml runnerGlobalConfig (fun _ => .ok ()) aliceConfigPath.display
    (some (.ok aliceText)) (usersPatch [("alice", none)])).toOption.map fun prepared =>
      (prepared.rendered_toml, prepared.changed_fields.isEmpty)

end Examples

end Oxydra
