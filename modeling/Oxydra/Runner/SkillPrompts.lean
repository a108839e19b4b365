import Oxydra.Runner.Skills

/-!
# Skill prompts and the order of enumeration

The entries of a directory, the variables of the environment and the values of the map of skills may
be enumerated in any order.

`orderFree_iff`: where skills of one name in the highest directory that has the name are
interchangeable, and the variables settle in the content of every active skill
(`Placeholders.Settled`), the prompt is the same for every order exactly where active skills of one
priority stand in it with texts that commute. The substitution is then the one at once. That the
skill of the highest precedence is used of each name holds in any case.
-/

namespace Oxydra

open List Text

/-! ## One skill of each name -/

namespace SkillsByName

/-- Each skill stands under its name, once. -/
structure Named (skills : SkillsByName) : Prop where
  sorted : (Fields.keys skills).Pairwise (· < ·)
  name : ∀ field ∈ skills, field.2.metadata.name = field.1

variable {skills : SkillsByName} {skill : Skill} {name : String}

/-- No skill. -/
theorem named_nil : Named [] := ⟨.nil, nofun⟩

/-- One more skill. -/
theorem Named.insert (h : Named skills) (skill : Skill) : Named (skills.insert skill) where
  sorted := Fields.pairwise_insert h.sorted
  name field hfield := by
    rcases Fields.mem_insert hfield with rfl | hfield
    · rfl
    · exact h.name field hfield

/-- The values of the map are what is found under their names. -/
theorem Named.mem_values_iff (h : Named skills) :
    skill ∈ skills.map Prod.snd ↔ skills.lookup skill.metadata.name = some skill := by
  constructor
  · intro hmem
    obtain ⟨field, hfield, rfl⟩ := mem_map.mp hmem
    rw [h.name field hfield]
    exact Fields.lookup_of_mem (h.sorted.imp ne_of_lt) hfield
  · exact fun hfound => mem_map.mpr ⟨_, Fields.mem_of_lookup hfound, rfl⟩

/-- No two skills have a name. -/
theorem Named.nodup_names (h : Named skills) :
    ((skills.map Prod.snd).map fun skill => skill.metadata.name).Nodup := by
  have hnames : (skills.map Prod.snd).map (fun skill => skill.metadata.name) =
      Fields.keys skills := by
    rw [map_map]
    exact map_congr_left h.name
  rw [hnames]
  exact h.sorted.imp ne_of_lt

/-- Skills put into the map one after the other. -/
def insertAll (skills : SkillsByName) (more : List Skill) : SkillsByName :=
  more.foldl SkillsByName.insert skills

/-- More skills. -/
theorem Named.insertAll (h : Named skills) (more : List Skill) : Named (skills.insertAll more) := by
  induction more generalizing skills with
  | nil => exact h
  | cons skill more ih => exact ih (h.insert skill)

/-- The loop over entries puts their skills into the map. -/
theorem foldl_elim {β : Type*} (skillOf : β → Option Skill) (entries : List β)
    (skills : SkillsByName) :
    entries.foldl (fun skills entry => (skillOf entry).elim skills skills.insert) skills =
      skills.insertAll (entries.filterMap skillOf) := by
  induction entries generalizing skills with
  | nil => rfl
  | cons entry entries ih =>
    rw [foldl_cons, ih]
    cases hskill : skillOf entry with
    | none => rw [filterMap_cons_none hskill]; rfl
    | some skill => rw [filterMap_cons_some hskill]; rfl

/-- Under a name stands one of the skills that were put in with it, or what stood there before. -/
theorem lookup_insertAll (skills : SkillsByName) (more : List Skill) (name : String) :
    (∃ skill ∈ more, skill.metadata.name = name ∧
        (skills.insertAll more).lookup name = some skill) ∨
      (∀ skill ∈ more, skill.metadata.name ≠ name) ∧
        (skills.insertAll more).lookup name = skills.lookup name := by
  induction more generalizing skills with
  | nil => exact .inr ⟨nofun, rfl⟩
  | cons skill more ih =>
    rcases ih (skills.insert skill) with ⟨found, hmem, hname, hlookup⟩ | ⟨hnone, hlookup⟩
    · exact .inl ⟨found, mem_cons_of_mem _ hmem, hname, hlookup⟩
    · have hinsert : (skills.insert skill).lookup name =
          if name = skill.metadata.name then some skill else skills.lookup name :=
        Fields.lookup_insert _ _ _ _
      by_cases hname : name = skill.metadata.name
      · refine .inl ⟨skill, mem_cons_self, hname.symm, ?_⟩
        exact hlookup.trans (hinsert.trans (if_pos hname))
      · refine .inr ⟨forall_mem_cons.mpr ⟨Ne.symm hname, hnone⟩, ?_⟩
        exact hlookup.trans (hinsert.trans (if_neg hname))

end SkillsByName

/-! ## Precedence -/

/-- A skill stands in the highest tier that has one of its name; the tiers stand from the lowest to
the highest. -/
def Wins (tiers : List (List Skill)) (skill : Skill) : Prop :=
  ∃ lower tier higher, tiers = lower ++ tier :: higher ∧ skill ∈ tier ∧
    ∀ tier' ∈ higher, ∀ skill' ∈ tier', skill'.metadata.name ≠ skill.metadata.name

/-- A tier behind the others. -/
theorem wins_concat {tiers : List (List Skill)} {tier : List Skill} {skill : Skill} :
    Wins (tiers ++ [tier]) skill ↔ skill ∈ tier ∨
      (∀ skill' ∈ tier, skill'.metadata.name ≠ skill.metadata.name) ∧ Wins tiers skill := by
  constructor
  · rintro ⟨lower, tier', higher, heq, hmem, hhigher⟩
    rcases eq_nil_or_concat higher with rfl | ⟨higher, last, rfl⟩
    · obtain ⟨-, hlast⟩ := append_inj' heq rfl
      rw [(cons.inj hlast).1]
      exact .inl hmem
    · rw [concat_eq_append, ← cons_append, ← append_assoc] at heq
      obtain ⟨htiers, hlast⟩ := append_inj' heq rfl
      rw [(cons.inj hlast).1]
      refine .inr ⟨hhigher last (by simp), lower, tier', higher, htiers, hmem, fun t ht => ?_⟩
      exact hhigher t (by simp [ht])
  · rintro (hmem | ⟨hnone, lower, tier', higher, rfl, hmem, hhigher⟩)
    · exact ⟨tiers, tier, [], rfl, hmem, nofun⟩
    · refine ⟨lower, tier', higher ++ [tier], by simp, hmem, fun t ht => ?_⟩
      rcases mem_append.mp ht with ht | ht
      · exact hhigher t ht
      · rw [mem_singleton.mp ht]
        exact hnone

/-- Nothing wins without a tier. -/
theorem not_wins_nil (skill : Skill) : ¬Wins [] skill := by
  rintro ⟨lower, tier, higher, heq, -⟩
  exact absurd heq.symm (by simp)

/-- What stands under a name after all tiers are put in is one of the skills that win, and some
skill does where one of the name is in a tier. -/
theorem lookup_tiers {skills : SkillsByName} (hnamed : skills.Named) (tiers : List (List Skill))
    (name : String) :
    (∀ skill, (tiers.foldl SkillsByName.insertAll skills).lookup name = some skill →
        skill.metadata.name = name ∧ Wins (skills.map Prod.snd :: tiers) skill) ∧
      ∀ skill, Wins (skills.map Prod.snd :: tiers) skill → skill.metadata.name = name →
        ((tiers.foldl SkillsByName.insertAll skills).lookup name).isSome := by
  induction tiers using List.reverseRecOn with
  | nil =>
    have hvalues (skill : Skill) : Wins [skills.map Prod.snd] skill ↔
        skill ∈ skills.map Prod.snd := by
      rw [← nil_append [skills.map Prod.snd], wins_concat]
      exact or_iff_left fun h => not_wins_nil skill h.2
    refine ⟨fun skill hfound => ?_, fun skill hwins hname => ?_⟩
    · have hname := hnamed.name _ (Fields.mem_of_lookup hfound)
      exact ⟨hname, (hvalues skill).mpr (hnamed.mem_values_iff.mpr (hname ▸ hfound))⟩
    · have hfound := hnamed.mem_values_iff.mp ((hvalues skill).mp hwins)
      rw [← hname, foldl_nil, hfound]
      rfl
  | append_singleton tiers tier ih =>
    obtain ⟨ihwins, ihfound⟩ := ih
    rw [foldl_append, foldl_cons, foldl_nil, ← cons_append]
    simp only [wins_concat]
    rcases SkillsByName.lookup_insertAll (tiers.foldl SkillsByName.insertAll skills) tier name with
      ⟨found, hmem, hfound, hlookup⟩ | ⟨hnone, hlookup⟩
    · rw [hlookup]
      refine ⟨fun skill hskill => ?_, fun _ _ _ => rfl⟩
      cases hskill
      exact ⟨hfound, .inl hmem⟩
    · rw [hlookup]
      refine ⟨fun skill hskill => ?_, fun skill hwins hname => ?_⟩
      · obtain ⟨hname, hwins⟩ := ihwins skill hskill
        exact ⟨hname, .inr ⟨hname ▸ hnone, hwins⟩⟩
      · rcases hwins with hmem | ⟨-, hwins⟩
        · exact absurd hname (hnone skill hmem)
        · exact ihfound skill hwins hname

/-- A tier before the others. -/
theorem wins_cons {tiers : List (List Skill)} {tier : List Skill} {skill : Skill} :
    Wins (tier :: tiers) skill ↔ Wins tiers skill ∨ skill ∈ tier ∧
      ∀ tier' ∈ tiers, ∀ skill' ∈ tier', skill'.metadata.name ≠ skill.metadata.name := by
  constructor
  · rintro ⟨lower, tier', higher, heq, hmem, hhigher⟩
    cases lower with
    | nil =>
      cases heq
      exact .inr ⟨hmem, hhigher⟩
    | cons first lower =>
      cases heq
      exact .inl ⟨lower, tier', higher, rfl, hmem, hhigher⟩
  · rintro (⟨lower, tier', higher, rfl, hmem, hhigher⟩ | ⟨hmem, hhigher⟩)
    · exact ⟨tier :: lower, tier', higher, rfl, hmem, hhigher⟩
    · exact ⟨[], tier, tiers, rfl, hmem, hhigher⟩

/-- Each tier may be given in another order. -/
theorem Wins.of_perm {tiers tiers' : List (List Skill)} (h : List.Forall₂ List.Perm tiers tiers')
    {skill : Skill} (hwins : Wins tiers skill) : Wins tiers' skill := by
  have hnone : ∀ {tiers tiers' : List (List Skill)}, List.Forall₂ List.Perm tiers tiers' →
      (∀ tier ∈ tiers, ∀ skill' ∈ tier, skill'.metadata.name ≠ skill.metadata.name) →
      ∀ tier ∈ tiers', ∀ skill' ∈ tier, skill'.metadata.name ≠ skill.metadata.name := by
    intro tiers tiers' h
    induction h with
    | nil => exact fun _ => nofun
    | cons hperm _ ih =>
      intro hnone
      obtain ⟨htier, htiers⟩ := forall_mem_cons.mp hnone
      refine forall_mem_cons.mpr ⟨fun skill' hmem => ?_, ih htiers⟩
      exact htier skill' (hperm.mem_iff.mpr hmem)
  induction h with
  | nil => exact hwins
  | cons hperm hrest ih =>
    rcases wins_cons.mp hwins with hwins | ⟨hmem, hhigher⟩
    · exact wins_cons.mpr (.inl (ih hwins))
    · exact wins_cons.mpr (.inr ⟨hperm.mem_iff.mp hmem, hnone hrest hhigher⟩)

/-! ## Texts in the order of their keys -/

/-- The texts of a list that is sorted by a key, one after the other, do not depend on the order of
those with one key, if these commute. -/
theorem join_eq_of_perm {β : Type*} {key : β → ℤ} (part : β → String) {l l' : List β}
    (h : l.Perm l') (hsorted : l.Pairwise (key · ≤ key ·)) (hsorted' : l'.Pairwise (key · ≤ key ·))
    (hcommute : ∀ a ∈ l, ∀ b ∈ l, key a = key b → part a ++ part b = part b ++ part a) :
    String.join (l.map part) = String.join (l'.map part) := by
  induction l generalizing l' with
  | nil => rw [nil_perm.mp h]
  | cons a l ih =>
    obtain ⟨hhead, htail⟩ := pairwise_cons.mp hsorted
    obtain ⟨before, after, rfl⟩ := append_of_mem (h.mem_iff.mp mem_cons_self)
    have hrest : l.Perm (before ++ after) :=
      List.Perm.cons_inv (h.trans perm_middle)
    have hbefore : ∀ b ∈ before, part a ++ part b = part b ++ part a := by
      intro b hb
      have hmem : b ∈ l := hrest.mem_iff.mpr (mem_append_left _ hb)
      have hle := (pairwise_append.mp hsorted').2.2 b hb a mem_cons_self
      exact hcommute a mem_cons_self b (mem_cons_of_mem _ hmem)
        (le_antisymm (hhead b hmem) hle)
    have hmove : part a ++ String.join (before.map part) =
        String.join (before.map part) ++ part a := by
      clear hrest hsorted' h
      induction before with
      | nil => rw [map_nil, String.join_nil, String.append_empty, String.empty_append]
      | cons b before ihb =>
        obtain ⟨hb, hbefore⟩ := forall_mem_cons.mp hbefore
        rw [map_cons, String.join_cons, ← String.append_assoc, hb, String.append_assoc,
          ihb hbefore, String.append_assoc]
    have hsorted'' : (before ++ after).Pairwise (key · ≤ key ·) :=
      hsorted'.sublist (List.Sublist.append_left (sublist_cons_self a after) before)
    rw [map_cons, String.join_cons, ih hrest htail hsorted'' fun b hb c hc =>
      hcommute b (mem_cons_of_mem _ hb) c (mem_cons_of_mem _ hc)]
    rw [map_append, map_append, map_cons, String.join_append, String.join_append,
      String.join_cons, ← String.append_assoc, hmove, String.append_assoc]

/-! ## Enumerations -/

/-- What a prompt is made of; the variables of the environment are distinct. -/
structure SkillInput where
  builtin : List BuiltinFile
  dirs : SkillDirs
  availability : ToolAvailability
  env : List (String × String)
  distinct : (Fields.keys env).Nodup

/-- An enumeration of the directories and the environment, and of the values of the map of
skills. -/
structure SkillEnumeration where
  dirs : SkillDirs
  env : List (String × String)
  order : List Skill → List Skill

/-- An enumeration gives everything of an input once. -/
structure SkillEnumeration.Of (e : SkillEnumeration) (input : SkillInput) : Prop where
  dirs : List.Forall₂ (Option.Rel List.Perm) e.dirs.all input.dirs.all
  env : e.env.Perm input.env
  order : ∀ skills, (e.order skills).Perm skills

section

variable (matter : FrontMatter) (input : SkillInput)

/-- `discover_skills` with an enumeration. -/
def SkillEnumeration.discovered (e : SkillEnumeration) : List Skill :=
  discoverSkills matter e.order input.builtin e.dirs

/-- `evaluate_activation` with an enumeration. -/
def SkillEnumeration.active (e : SkillEnumeration) : List Skill :=
  evaluateActivation (e.discovered matter input) input.availability e.env

/-- `load_and_render_skills` with an enumeration. -/
def SkillEnumeration.prompt (e : SkillEnumeration) : String :=
  loadAndRenderSkills matter e.order input.builtin e.dirs input.availability e.env

/-- The skills of each tier from the lowest to the highest, the first tier built in. -/
def SkillInput.tiers : List (List Skill) :=
  (discoverEmbeddedSkills matter input.builtin).map Prod.snd ::
    (input.dirs.all.filterMap id).map (List.filterMap (SkillEntry.skill matter))

/-- The values of the variables. -/
def SkillInput.values : List (String × List Char) :=
  input.env.map fun field => (field.1, field.2.toList)

/-- The content of a skill with all its placeholders substituted at once. -/
def SkillInput.substituted (skill : Skill) : String :=
  String.ofList (Placeholders.substitute envPlaceholder input.values skill.content.toList)

/-- What a skill adds to the prompt. -/
def SkillInput.part (skill : Skill) : String := "\n" ++ trim (input.substituted skill)

/-- Prompts do not depend on the order of enumeration, contents are substituted at once, and of each
name the one skill that is used is one of the highest precedence. -/
structure OrderFree : Prop where
  same_text : ∀ e e' : SkillEnumeration, e.Of input → e'.Of input →
    e.prompt matter input = e'.prompt matter input
  substituted : ∀ e : SkillEnumeration, e.Of input → ∀ skill ∈ e.active matter input,
    (renderSkill skill e.env).content = input.substituted skill
  names : ∀ e : SkillEnumeration, e.Of input →
    ((e.discovered matter input).map fun skill => skill.metadata.name).Nodup
  precedence : ∀ e : SkillEnumeration, e.Of input → ∀ skill ∈ e.discovered matter input,
    Wins (input.tiers matter) skill
  complete : ∀ e : SkillEnumeration, e.Of input → ∀ skill, Wins (input.tiers matter) skill →
    ∃ used ∈ e.discovered matter input, used.metadata.name = skill.metadata.name

/-- Two skills may stand for each other. -/
def Interchangeable (a b : Skill) : Prop :=
  a.isActive input.availability input.env = b.isActive input.availability input.env ∧
    (a.isActive input.availability input.env = true →
      a.metadata.priority = b.metadata.priority ∧ input.part a = input.part b)

/-- The skills of one name in the highest tier that has one may stand for each other. -/
def OneOfEachName : Prop :=
  ∀ a b, Wins (input.tiers matter) a → Wins (input.tiers matter) b →
    a.metadata.name = b.metadata.name → Interchangeable input a b

/-- The variables settle in the content of each skill that may be active. -/
def SettledSkills : Prop :=
  ∀ skill, Wins (input.tiers matter) skill →
    skill.isActive input.availability input.env = true →
      Placeholders.Settled envPlaceholder input.values skill.content.toList

/-- Skills of one priority that may be active add the same text in either order. -/
def TiesCommute : Prop :=
  ∀ a b, Wins (input.tiers matter) a → Wins (input.tiers matter) b →
    a.isActive input.availability input.env = true →
    b.isActive input.availability input.env = true →
    a.metadata.name ≠ b.metadata.name → a.metadata.priority = b.metadata.priority →
      input.part a ++ input.part b = input.part b ++ input.part a

variable {matter input} {e : SkillEnumeration}

/-- The skills by their names after all directories, tier by tier. -/
theorem skillsByName_eq (builtin : List BuiltinFile) (dirs : SkillDirs) :
    (discoverEmbeddedSkills matter builtin).Named ∧
      skillsByName matter builtin dirs =
        ((dirs.all.filterMap id).map (List.filterMap (SkillEntry.skill matter))).foldl
          SkillsByName.insertAll (discoverEmbeddedSkills matter builtin) := by
  constructor
  · have hinsert := SkillsByName.foldl_elim (BuiltinFile.skill matter) builtin []
    unfold discoverEmbeddedSkills
    rw [hinsert]
    exact SkillsByName.named_nil.insertAll _
  · unfold skillsByName
    rw [foldl_map]
    congr 1
    funext skills entries
    exact SkillsByName.foldl_elim (SkillEntry.skill matter) entries skills

/-- All tiers. -/
theorem named_foldl {skills : SkillsByName} (h : skills.Named) (tiers : List (List Skill)) :
    SkillsByName.Named (tiers.foldl SkillsByName.insertAll skills) := by
  induction tiers generalizing skills with
  | nil => exact h
  | cons tier tiers ih => exact ih (h.insertAll tier)

/-- The folders that can be read. -/
theorem forall₂_filterMap_id {l l' : List (Option (List SkillEntry))}
    (h : List.Forall₂ (Option.Rel List.Perm) l l') :
    List.Forall₂ List.Perm ((l.filterMap id).map (List.filterMap (SkillEntry.skill matter)))
      ((l'.filterMap id).map (List.filterMap (SkillEntry.skill matter))) := by
  induction h with
  | nil => exact .nil
  | cons hrel hrest ih =>
    cases hrel with
    | none => exact ih
    | some hperm => exact .cons (hperm.filterMap _) ih

/-- What is discovered is the values of the map, in the order of their priorities. -/
theorem discovered_perm (he : e.Of input) : (e.discovered matter input).Perm
    ((skillsByName matter input.builtin e.dirs).map Prod.snd) :=
  (mergeSort_perm _ _).trans (he.order _)

/-- Sorted by priority. -/
theorem pairwise_mergeSort_priority (skills : List Skill) :
    (skills.mergeSort fun a b => a.metadata.priority ≤ b.metadata.priority).Pairwise
      fun a b => a.metadata.priority ≤ b.metadata.priority := by
  refine (pairwise_mergeSort (fun a b c hab hbc => ?_) (fun a b => ?_) _).imp
    of_decide_eq_true
  · rw [decide_eq_true_eq] at hab hbc ⊢
    exact le_trans hab hbc
  · rw [Bool.or_eq_true, decide_eq_true_eq, decide_eq_true_eq]
    exact le_total _ _

/-- So are the discovered skills. -/
theorem discovered_sorted (e : SkillEnumeration) : (e.discovered matter input).Pairwise
    fun a b => a.metadata.priority ≤ b.metadata.priority := pairwise_mergeSort_priority _

/-- What is discovered: one skill of each name, one of the highest precedence. -/
theorem discovered_spec (he : e.Of input) :
    ((e.discovered matter input).map fun skill => skill.metadata.name).Nodup ∧
      (∀ skill ∈ e.discovered matter input, Wins (input.tiers matter) skill) ∧
      ∀ skill, Wins (input.tiers matter) skill →
        ∃ used ∈ e.discovered matter input, used.metadata.name = skill.metadata.name := by
  obtain ⟨hembedded, hmap⟩ := @skillsByName_eq matter input.builtin e.dirs
  have hnamed := named_foldl hembedded
    ((e.dirs.all.filterMap id).map (List.filterMap (SkillEntry.skill matter)))
  rw [← hmap] at hnamed
  have hperm := @discovered_perm matter input e he
  have htiers : List.Forall₂ List.Perm
      ((discoverEmbeddedSkills matter input.builtin).map Prod.snd ::
        (e.dirs.all.filterMap id).map (List.filterMap (SkillEntry.skill matter)))
      (input.tiers matter) := .cons (.refl _) (forall₂_filterMap_id he.dirs)
  have hlookup := lookup_tiers hembedded
    ((e.dirs.all.filterMap id).map (List.filterMap (SkillEntry.skill matter)))
  rw [← hmap] at hlookup
  refine ⟨(hperm.map _).nodup_iff.mpr hnamed.nodup_names, fun skill hmem => ?_,
    fun skill hwins => ?_⟩
  · have hfound := hnamed.mem_values_iff.mp (hperm.mem_iff.mp hmem)
    exact ((hlookup _).1 skill hfound).2.of_perm htiers
  · have hwins' := hwins.of_perm (htiers.flip.imp fun _ _ h => h.symm)
    obtain ⟨used, hused⟩ := Option.isSome_iff_exists.mp ((hlookup _).2 skill hwins' rfl)
    have hname := ((hlookup _).1 used hused).1
    refine ⟨used, hperm.mem_iff.mpr (hnamed.mem_values_iff.mpr ?_), hname⟩
    rw [hname, hused]

/-- Variables in another order. -/
theorem isActive_perm (he : e.Of input) (skill : Skill) :
    skill.isActive input.availability e.env = skill.isActive input.availability input.env := by
  have hlookup (var : String) : e.env.lookup var = input.env.lookup var :=
    (Placeholders.lookup_perm he.env.symm input.distinct var).symm
  unfold Skill.isActive
  simp only [hlookup]

/-- A skill is active if it is discovered and its conditions are met. -/
theorem mem_active (he : e.Of input) {skill : Skill} : skill ∈ e.active matter input ↔
    skill ∈ e.discovered matter input ∧
      skill.isActive input.availability input.env = true := by
  unfold SkillEnumeration.active evaluateActivation
  rw [mem_filter, isActive_perm he]

/-- The content of a skill in which the variables settle is substituted at once. -/
theorem renderSkill_content (he : e.Of input) {skill : Skill}
    (h : Placeholders.Settled envPlaceholder input.values skill.content.toList) :
    (renderSkill skill e.env).content = input.substituted skill := by
  have hne (key : String) : envPlaceholder key ≠ [] := cons_ne_nil _ _
  have hdistinct : (Fields.keys input.values).Nodup := by
    have hkeys : Fields.keys input.values = Fields.keys input.env := map_map
    rw [hkeys]
    exact input.distinct
  have hplaceholders := Placeholders.foldl_replace hne hdistinct h
    (he.env.map fun field => (field.1, field.2.toList))
  rw [foldl_map] at hplaceholders
  exact congrArg String.ofList hplaceholders

/-- The prompt is a header and the parts of the active skills. -/
theorem prompt_eq (he : e.Of input) (hsettled : SettledSkills matter input) :
    e.prompt matter input =
      if e.active matter input = [] then ""
      else "\n\n## Active Skills" ++ String.join ((e.active matter input).map input.part) := by
  have hparts : ((e.active matter input).map (renderSkill · e.env)).map
      (fun skill => "\n" ++ trim skill.content) = (e.active matter input).map input.part := by
    rw [map_map]
    refine map_congr_left fun skill hmem => ?_
    obtain ⟨hdiscovered, hactive⟩ := (mem_active he).mp hmem
    have hwins := (discovered_spec he).2.1 skill hdiscovered
    have hcontent := renderSkill_content he (hsettled skill hwins hactive)
    exact congrArg (fun content => "\n" ++ trim content) hcontent
  have hprompt : e.prompt matter input =
      formatSkillsPrompt ((e.active matter input).map (renderSkill · e.env)) := rfl
  rw [hprompt, formatSkillsPrompt, hparts, String.join_cons]
  simp only [map_eq_nil_iff]

/-- What of an active skill the prompt depends on. -/
def SkillInput.entry (input : SkillInput) (skill : Skill) : String × ℤ × String :=
  (skill.metadata.name, skill.metadata.priority, input.part skill)

/-- In two enumerations the same entries are active. -/
theorem entry_mem (honce : OneOfEachName matter input) {e' : SkillEnumeration} (he : e.Of input)
    (he' : e'.Of input) {entry : String × ℤ × String}
    (h : entry ∈ (e.active matter input).map input.entry) :
    entry ∈ (e'.active matter input).map input.entry := by
  obtain ⟨skill, hmem, rfl⟩ := mem_map.mp h
  obtain ⟨hdiscovered, hactive⟩ := (mem_active he).mp hmem
  have hwins := (discovered_spec he).2.1 skill hdiscovered
  obtain ⟨used, hused, hname⟩ := (discovered_spec he').2.2 skill hwins
  have hwins' := (discovered_spec he').2.1 used hused
  obtain ⟨hsame, hequal⟩ := honce skill used hwins hwins' hname.symm
  obtain ⟨hpriority, hpart⟩ := hequal hactive
  refine mem_map.mpr ⟨used, (mem_active he').mpr ⟨hused, hsame ▸ hactive⟩, ?_⟩
  unfold SkillInput.entry
  rw [hname, hpriority, hpart]

/-- No entry is there twice. -/
theorem nodup_entries (he : e.Of input) : ((e.active matter input).map input.entry).Nodup := by
  have hnames : ((e.active matter input).map fun skill => skill.metadata.name).Nodup :=
    (discovered_spec he).1.sublist (filter_sublist.map _)
  refine List.Nodup.of_map Prod.fst ?_
  rw [map_map]
  exact hnames

/-- Where skills of one name may stand for each other and ties commute, the parts are the same in
every enumeration. -/
theorem join_parts_eq (honce : OneOfEachName matter input) (hties : TiesCommute matter input)
    {e' : SkillEnumeration} (he : e.Of input) (he' : e'.Of input) :
    ((e.active matter input).map input.entry).Perm ((e'.active matter input).map input.entry) ∧
      String.join ((e.active matter input).map input.part) =
        String.join ((e'.active matter input).map input.part) := by
  have hperm : ((e.active matter input).map input.entry).Perm
      ((e'.active matter input).map input.entry) :=
    (perm_ext_iff_of_nodup (nodup_entries he) (nodup_entries he')).mpr fun _ =>
      ⟨entry_mem honce he he', entry_mem honce he' he⟩
  have hsorted (e : SkillEnumeration) : ((e.active matter input).map input.entry).Pairwise
      fun a b => a.2.1 ≤ b.2.1 :=
    pairwise_map.mpr ((discovered_sorted e).sublist filter_sublist)
  have hjoin := join_eq_of_perm (fun entry => entry.2.2) hperm (hsorted e) (hsorted e')
    fun a ha b hb hpriority => by
      obtain ⟨skill, hskill, rfl⟩ := mem_map.mp ha
      obtain ⟨skill', hskill', rfl⟩ := mem_map.mp hb
      by_cases hname : skill.metadata.name = skill'.metadata.name
      · obtain ⟨hdiscovered, hactive⟩ := (mem_active he).mp hskill
        have hwins := (discovered_spec he).2.1 skill hdiscovered
        have hwins' := (discovered_spec he).2.1 skill' ((mem_active he).mp hskill').1
        obtain ⟨-, hequal⟩ := honce skill skill' hwins hwins' hname
        have hpart := (hequal hactive).2
        show input.part skill ++ input.part skill' = input.part skill' ++ input.part skill
        rw [hpart]
      · obtain ⟨hdiscovered, hactive⟩ := (mem_active he).mp hskill
        obtain ⟨hdiscovered', hactive'⟩ := (mem_active he).mp hskill'
        exact hties skill skill' ((discovered_spec he).2.1 skill hdiscovered)
          ((discovered_spec he).2.1 skill' hdiscovered') hactive hactive' hname hpriority
  rw [map_map, map_map] at hjoin
  exact ⟨hperm, hjoin⟩

/-- Two elements of one priority stand between those of lower priorities and the others, sorted. -/
theorem pairwise_between (skills : List Skill) {a b : Skill}
    (hpriority : a.metadata.priority = b.metadata.priority) :
    (((skills.filter fun skill => skill.metadata.priority < a.metadata.priority).mergeSort
        fun a b => a.metadata.priority ≤ b.metadata.priority) ++
      a :: b :: (skills.filter fun skill => !decide (skill.metadata.priority <
        a.metadata.priority)).mergeSort
          fun a b => a.metadata.priority ≤ b.metadata.priority).Pairwise
      fun a b => a.metadata.priority ≤ b.metadata.priority := by
  have hsorted := fun skills => pairwise_mergeSort_priority skills
  have hhigh : ∀ skill ∈ (skills.filter fun skill => !decide (skill.metadata.priority <
      a.metadata.priority)).mergeSort fun a b => a.metadata.priority ≤ b.metadata.priority,
      a.metadata.priority ≤ skill.metadata.priority := by
    intro skill hmem
    rw [mem_mergeSort, mem_filter] at hmem
    simpa using hmem.2
  refine pairwise_append.mpr ⟨hsorted _, pairwise_cons.mpr ⟨?_,
    pairwise_cons.mpr ⟨hpriority ▸ hhigh, hsorted _⟩⟩, fun skill hmem skill' hmem' => ?_⟩
  · exact forall_mem_cons.mpr ⟨hpriority.le, hhigh⟩
  · rw [mem_mergeSort, mem_filter] at hmem
    have hlow : skill.metadata.priority ≤ a.metadata.priority :=
      le_of_lt (of_decide_eq_true hmem.2)
    refine hlow.trans ?_
    rcases mem_cons.mp hmem' with rfl | hmem'
    · exact le_refl _
    · rcases mem_cons.mp hmem' with rfl | hmem'
      · exact hpriority.le
      · exact hhigh skill' hmem'

/-- Two elements of one priority may stand next to each other in a sorted list, either first. -/
theorem exists_adjacent {skills : List Skill} {a b : Skill} (ha : a ∈ skills)
    (hb : b ∈ skills.erase a) (hpriority : a.metadata.priority = b.metadata.priority) :
    ∃ before after, skills.Perm (before ++ a :: b :: after) ∧
      (before ++ a :: b :: after).Pairwise (fun a b => a.metadata.priority ≤ b.metadata.priority) ∧
      (before ++ b :: a :: after).Pairwise
        (fun a b => a.metadata.priority ≤ b.metadata.priority) := by
  have hswapped := pairwise_between ((skills.erase a).erase b) hpriority.symm
  rw [← hpriority] at hswapped
  refine ⟨_, _, ?_, pairwise_between ((skills.erase a).erase b) hpriority, hswapped⟩
  have hrest : skills.Perm (a :: b :: (skills.erase a).erase b) :=
    (perm_cons_erase ha).trans ((perm_cons_erase hb).cons a)
  refine hrest.trans (.symm ?_)
  refine perm_middle.trans ((perm_middle.cons a).trans (.cons a (.cons b ?_)))
  refine ((mergeSort_perm _ _).append (mergeSort_perm _ _)).trans ?_
  exact filter_append_perm _ _

/-- The discovered skills of an enumeration that gives the values in a sorted order. -/
theorem discovered_of_sorted {skills : List Skill}
    (hsorted : skills.Pairwise fun a b => a.metadata.priority ≤ b.metadata.priority)
    (horder : e.order ((skillsByName matter input.builtin e.dirs).map Prod.snd) = skills) :
    e.discovered matter input = skills := by
  unfold SkillEnumeration.discovered discoverSkills
  rw [horder]
  exact mergeSort_of_pairwise (hsorted.imp decide_eq_true)

/-- The values of a map in a given order. -/
def orderAs (values skills : List Skill) (l : List Skill) : List Skill :=
  if l = values then skills else l

/-- The order that is chosen keeps the skills. -/
theorem orderAs_perm {values skills : List Skill} (h : values.Perm skills) (l : List Skill) :
    (orderAs values skills l).Perm l := by
  unfold orderAs
  split_ifs with heq
  · exact heq ▸ h.symm
  · exact .refl l

/-- An enumeration in the given order of everything but the values. -/
theorem enumeration_of (input : SkillInput) {order : List Skill → List Skill}
    (h : ∀ skills, (order skills).Perm skills) :
    SkillEnumeration.Of ⟨input.dirs, input.env, order⟩ input where
  dirs := forall₂_same.mpr fun dir _ => by
    cases dir with
    | none => exact .none
    | some entries => exact .some (.refl entries)
  env := .refl _
  order := h

/-- The prompt of two active skills next to each other, among others. -/
theorem prompt_adjacent (he : e.Of input) (hsettled : SettledSkills matter input)
    {before after : List Skill} {a b : Skill}
    (hsorted : (before ++ a :: b :: after).Pairwise
      fun a b => a.metadata.priority ≤ b.metadata.priority)
    (horder : e.order ((skillsByName matter input.builtin e.dirs).map Prod.snd) =
      before ++ a :: b :: after)
    (ha : a.isActive input.availability input.env = true)
    (hb : b.isActive input.availability input.env = true) :
    e.prompt matter input = "\n\n## Active Skills" ++
      (String.join ((before.filter (·.isActive input.availability input.env)).map input.part) ++
        (input.part a ++ input.part b ++
          String.join ((after.filter (·.isActive input.availability input.env)).map
            input.part))) := by
  have hactive : e.active matter input =
      before.filter (·.isActive input.availability input.env) ++
        a :: b :: after.filter (·.isActive input.availability input.env) := by
    unfold SkillEnumeration.active evaluateActivation
    rw [discovered_of_sorted hsorted horder,
      filter_congr fun skill _ => isActive_perm he skill, filter_append, filter_cons_of_pos ha,
      filter_cons_of_pos hb]
  rw [prompt_eq he hsettled, hactive, if_neg (by simp), map_append, map_cons,
    map_cons, String.join_append, String.join_cons, String.join_cons, String.append_assoc]

/-- If the prompt is the same for every enumeration, ties commute. -/
theorem tiesCommute_of_same_text (honce : OneOfEachName matter input)
    (hsettled : SettledSkills matter input)
    (h : ∀ e e' : SkillEnumeration, e.Of input → e'.Of input →
      e.prompt matter input = e'.prompt matter input) : TiesCommute matter input := by
  intro a b ha hb hactive hactive' hname hpriority
  have hgiven := enumeration_of input fun skills => List.Perm.refl skills
  obtain ⟨-, hwins, hcomplete⟩ := @discovered_spec matter input _ hgiven
  -- the skills that are used of the two names
  obtain ⟨used, hused, husedname⟩ := hcomplete a ha
  obtain ⟨used', hused', husedname'⟩ := hcomplete b hb
  obtain ⟨hsame, hequal⟩ := honce a used ha (hwins used hused) husedname.symm
  obtain ⟨hsame', hequal'⟩ := honce b used' hb (hwins used' hused') husedname'.symm
  obtain ⟨hprio, hpart⟩ := hequal hactive
  obtain ⟨hprio', hpart'⟩ := hequal' hactive'
  have hne : used' ≠ used := by
    rintro rfl
    exact hname (husedname.symm.trans husedname')
  have hvalues := @discovered_perm matter input _ hgiven
  obtain ⟨before, after, hperm, hsorted, hswapped⟩ := exists_adjacent (hvalues.mem_iff.mp hused)
    ((mem_erase_of_ne hne).mpr (hvalues.mem_iff.mp hused'))
    (hprio.symm.trans (hpriority.trans hprio'))
  have hperm' := hperm.trans ((List.Perm.swap used' used after).append_left before)
  -- the one first, and the other first
  have hprompt := h _ _ (enumeration_of input (orderAs_perm hperm))
    (enumeration_of input (orderAs_perm hperm'))
  rw [prompt_adjacent (enumeration_of input (orderAs_perm hperm)) hsettled hsorted (if_pos rfl)
      (hsame ▸ hactive) (hsame' ▸ hactive'),
    prompt_adjacent (enumeration_of input (orderAs_perm hperm')) hsettled hswapped (if_pos rfl)
      (hsame' ▸ hactive') (hsame ▸ hactive),
    String.append_right_inj, String.append_right_inj, String.append_left_inj] at hprompt
  rw [hpart, hpart', hprompt]

/-- Skills of one name may stand for each other and variables settle: then the prompt is the same
for every enumeration exactly where ties commute. -/
theorem orderFree_iff (honce : OneOfEachName matter input) (hsettled : SettledSkills matter input) :
    OrderFree matter input ↔ TiesCommute matter input := by
  constructor
  · exact fun h => tiesCommute_of_same_text honce hsettled h.same_text
  · intro hties
    refine ⟨fun e e' he he' => ?_, fun e he skill hmem => ?_, fun e he => (discovered_spec he).1,
      fun e he => (discovered_spec he).2.1, fun e he => (discovered_spec he).2.2⟩
    · obtain ⟨hperm, hjoin⟩ := join_parts_eq honce hties he he'
      have hnil : e.active matter input = [] ↔ e'.active matter input = [] := by
        have hlength := hperm.length_eq
        rw [length_map, length_map] at hlength
        rw [← length_eq_zero_iff, hlength, length_eq_zero_iff]
      rw [prompt_eq he hsettled, prompt_eq he' hsettled, hjoin]
      simp only [hnil]
    · obtain ⟨hdiscovered, hactive⟩ := (mem_active he).mp hmem
      have hwins := (discovered_spec he).2.1 skill hdiscovered
      exact renderSkill_content he (hsettled skill hwins hactive)

end

/-! ### Three files -/

/-- The front matter of a skill of the shell. -/
def apiMetadata : SkillMetadata where
  name := "test-skill"
  requires := ["shell_exec"]
  env_vars := ["MY_URL"]
  priority := 50

/-- A file with the metadata and this content. -/
def apiFile (content : String) : String :=
  "---\nname: test-skill\ndescription: A test skill\nactivation: auto\nrequires:\n" ++
    "  - shell_exec\nenv:\n  - MY_URL\npriority: 50\n---\n" ++ content

/-- A file of a skill that is always active. -/
def alwaysFile (name content : String) : String :=
  "---\nname: " ++ name ++ "\ndescription: Always active\nactivation: always\npriority: 10\n" ++
    "---\n" ++ content

/-- The skill of `alwaysFile`. -/
def alwaysSkill (name content : String) : Skill where
  metadata := { name, activation := .always, priority := 10 }
  content := content

/-- What `gray_matter` makes of the files. -/
def sampleMatter : FrontMatter := fun raw =>
  if raw = apiFile "Use `curl \x7b\x7bMY_URL\x7d\x7d/api`." then
    .ok (some apiMetadata, "Use `curl \x7b\x7bMY_URL\x7d\x7d/api`.")
  else if raw = apiFile "Use `curl -s \x7b\x7bMY_URL\x7d\x7d/api`." then
    .ok (some apiMetadata, "Use `curl -s \x7b\x7bMY_URL\x7d\x7d/api`.")
  else if raw = alwaysFile "tone" "Be brief." then
    .ok (some (alwaysSkill "tone" "Be brief.").metadata, "Be brief.")
  else if raw = alwaysFile "units" "Use metric units." then
    .ok (some (alwaysSkill "units" "Use metric units.").metadata, "Use metric units.")
  else .ok (none, raw)

/-- A skill that the workspace overrides, and another one. -/
def overrideInput : SkillInput where
  builtin := []
  dirs :=
    { system := some
        [.file "api.md" (some (apiFile "Use `curl \x7b\x7bMY_URL\x7d\x7d/api`.")),
          .file "tone.md" (some (alwaysFile "tone" "Be brief."))]
      workspace := some
        [.folder (some (some (apiFile "Use `curl -s \x7b\x7bMY_URL\x7d\x7d/api`.")))] }
  availability := { shell := true, browser := false }
  env := [("MY_URL", "http://localhost:9867"), ("HOME", "/root")]
  distinct := by decide

/-- The skill of the workspace and the other one. -/
def overrideSkills : List Skill :=
  [⟨apiMetadata, "Use `curl -s \x7b\x7bMY_URL\x7d\x7d/api`."⟩, alwaysSkill "tone" "Be brief."]

/-- Only the skill of the workspace and the other one win. -/
theorem overrideInput_wins {skill : Skill} (h : Wins (overrideInput.tiers sampleMatter) skill) :
    skill ∈ overrideSkills := by
  have htiers : overrideInput.tiers sampleMatter =
      [[], [⟨apiMetadata, "Use `curl \x7b\x7bMY_URL\x7d\x7d/api`."⟩,
          alwaysSkill "tone" "Be brief."],
        [⟨apiMetadata, "Use `curl -s \x7b\x7bMY_URL\x7d\x7d/api`."⟩]] := by
    decide +kernel
  rw [htiers, wins_cons, wins_cons, wins_cons] at h
  rcases h with ((h | ⟨hmem, -⟩) | ⟨hmem, hhigher⟩) | ⟨hmem, -⟩
  · exact absurd h (not_wins_nil skill)
  · exact mem_cons.mpr (.inl (mem_singleton.mp hmem))
  · rcases mem_cons.mp hmem with rfl | hmem
    · exact (hhigher _ (mem_singleton_self _) _ (mem_singleton_self _) rfl).elim
    · exact mem_cons_of_mem _ hmem
  · exact nomatch hmem

/-- The example of one override. -/
theorem override_orderFree : OrderFree sampleMatter overrideInput := by
  have honce : OneOfEachName sampleMatter overrideInput := by
    intro a b ha hb hname
    have hequal : ∀ a ∈ overrideSkills, ∀ b ∈ overrideSkills,
        a.metadata.name = b.metadata.name → a = b := by
      decide +kernel
    rw [hequal a (overrideInput_wins ha) b (overrideInput_wins hb) hname]
    exact ⟨rfl, fun _ => ⟨rfl, rfl⟩⟩
  have hsettled : SettledSkills sampleMatter overrideInput := by
    intro skill hwins _
    have hall : ∀ skill ∈ overrideSkills,
        Placeholders.Settled envPlaceholder overrideInput.values skill.content.toList := by
      decide +kernel
    exact hall skill (overrideInput_wins hwins)
  refine (orderFree_iff honce hsettled).mpr fun a b ha hb _ _ hname hpriority => ?_
  have hdistinct : ∀ a ∈ overrideSkills, ∀ b ∈ overrideSkills,
      a.metadata.priority = b.metadata.priority → a.metadata.name = b.metadata.name := by
    decide +kernel
  exact absurd (hdistinct a (overrideInput_wins ha) b (overrideInput_wins hb) hpriority) hname

/-- Two skills of one priority. -/
def tieInput : SkillInput where
  builtin := []
  dirs :=
    { system := some
        [.file "tone.md" (some (alwaysFile "tone" "Be brief.")),
          .file "units.md" (some (alwaysFile "units" "Use metric units."))] }
  availability := { shell := true, browser := false }
  env := []
  distinct := by decide

/-- The prompt of the tie in either order. -/
theorem tieInput_prompt {order : List Skill → List Skill} {skills : List Skill}
    (hsorted : skills.Pairwise fun a b => a.metadata.priority ≤ b.metadata.priority)
    (horder : order ((skillsByName sampleMatter tieInput.builtin tieInput.dirs).map Prod.snd) =
      skills) :
    SkillEnumeration.prompt sampleMatter tieInput ⟨tieInput.dirs, tieInput.env, order⟩ =
      formatSkillsPrompt ((evaluateActivation skills tieInput.availability tieInput.env).map
        (renderSkill · tieInput.env)) := by
  have hdiscovered := @discovered_of_sorted sampleMatter tieInput
    ⟨tieInput.dirs, tieInput.env, order⟩ _ hsorted horder
  rw [← hdiscovered]
  rfl

/-- Which of two skills of one priority comes first depends on the order of the map. -/
theorem tie_unordered : ¬OrderFree sampleMatter tieInput := by
  intro h
  have hsame := h.same_text _ _ (enumeration_of tieInput fun skills => List.Perm.refl skills)
    (enumeration_of tieInput fun skills => reverse_perm skills)
  rw [tieInput_prompt (by decide +kernel) rfl, tieInput_prompt (by decide +kernel) rfl] at hsame
  revert hsame
  decide +kernel

end Oxydra
