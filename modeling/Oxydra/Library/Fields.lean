import Mathlib.Data.List.Sort

/-!
# Maps as lists of fields in key order

What `insert` and `remove` of a `BTreeMap` do to the list of its fields, what is then found under
each key, and that the keys stay in order. A list of fields with different keys is its keys with
what is found under them.
-/

namespace Fields

open List

variable {κ α : Type*} [DecidableEq κ]

/-- `BTreeMap::insert`. -/
def insert [LT κ] [DecidableLT κ] (key : κ) (value : α) : List (κ × α) → List (κ × α)
  | [] => [(key, value)]
  | (k, v) :: rest =>
    if k = key then (key, value) :: rest
    else if key < k then (key, value) :: (k, v) :: rest
    else (k, v) :: insert key value rest

/-- `BTreeMap::remove`. -/
def remove (key : κ) (fields : List (κ × α)) : List (κ × α) :=
  fields.filter fun field => field.1 ≠ key

theorem lookup_cons (key k : κ) (v : α) (rest : List (κ × α)) :
    ((k, v) :: rest).lookup key = if key = k then some v else rest.lookup key := by
  rw [List.lookup_cons]
  by_cases h : key = k
  · simp [h]
  · simp [h, beq_eq_false_iff_ne.mpr h]

/-- An insertion changes what is found under its key, and nothing else. -/
theorem lookup_insert [LT κ] [DecidableLT κ] (key key' : κ) (value : α) (fields : List (κ × α)) :
    (insert key value fields).lookup key' =
      if key' = key then some value else fields.lookup key' := by
  induction fields with
  | nil => exact lookup_cons key' key value []
  | cons field rest ih =>
    obtain ⟨k, v⟩ := field
    rw [insert]
    by_cases hk : k = key
    · rw [if_pos hk, lookup_cons, lookup_cons, hk]
      by_cases hkey : key' = key
      · rw [if_pos hkey, if_pos hkey]
      · rw [if_neg hkey, if_neg hkey, if_neg hkey]
    · rw [if_neg hk]
      by_cases hlt : key < k
      · rw [if_pos hlt, lookup_cons]
      · rw [if_neg hlt, lookup_cons, lookup_cons, ih]
        by_cases hkey : key' = key
        · rw [if_pos hkey, if_neg fun h => hk (h.symm.trans hkey)]
          rw [if_pos hkey]
        · rw [if_neg hkey, if_neg hkey]

/-- Of two insertions under a key the second one counts. -/
theorem insert_insert [Preorder κ] [DecidableLT κ] (key : κ) (value value' : α)
    (fields : List (κ × α)) :
    insert key value (insert key value' fields) = insert key value fields := by
  induction fields with
  | nil => exact if_pos rfl
  | cons field rest ih =>
    obtain ⟨k, v⟩ := field
    simp only [insert]
    split_ifs with hk hlt
    · exact if_pos rfl
    · exact if_pos rfl
    · rw [insert, if_neg hk, if_neg hlt, ih]

/-- Insertions under different keys can be made in either order. -/
theorem insert_comm {κ : Type*} [LinearOrder κ] {key key' : κ} (h : key ≠ key') (value value' : α)
    (fields : List (κ × α)) :
    insert key value (insert key' value' fields) =
      insert key' value' (insert key value fields) := by
  induction fields with
  | nil =>
    simp only [insert, h.symm, h, if_false]
    obtain hlt | hgt := lt_or_gt_of_ne h
    · rw [if_pos hlt, if_neg (not_lt_of_gt hlt)]
    · rw [if_neg (not_lt_of_gt hgt), if_pos hgt]
  | cons field rest ih =>
    obtain ⟨k, v⟩ := field
    -- both stop at the first key that is not below them
    obtain hk | hk | hk := lt_trichotomy key k <;>
    obtain hk' | hk' | hk' := lt_trichotomy key' k <;>
    grind [insert]

/-- What is inserted under a key is removed with it. -/
theorem remove_insert [LT κ] [DecidableLT κ] (key : κ) (value : α) (fields : List (κ × α)) :
    remove key (insert key value fields) = remove key fields := by
  unfold remove
  induction fields with
  | nil => simp [insert]
  | cons field rest ih =>
    obtain ⟨k, v⟩ := field
    rw [insert]
    split_ifs with hk hlt
    · simp [hk]
    · simp
    · rw [filter_cons, filter_cons, ih]

/-- Nothing but the key is removed. -/
theorem lookup_remove {key key' : κ} (h : key' ≠ key) (fields : List (κ × α)) :
    (remove key fields).lookup key' = fields.lookup key' := by
  induction fields with
  | nil => rfl
  | cons field rest ih =>
    obtain ⟨k, v⟩ := field
    unfold remove at ih ⊢
    rw [filter_cons, lookup_cons]
    by_cases hk : k = key
    · rw [if_neg (by simp [hk]), if_neg fun hkey => h (hkey.trans hk), ih]
    · rw [if_pos (by simp [hk]), lookup_cons, ih]

/-! ## Keys -/

/-- The keys of a list of fields. -/
def keys (fields : List (κ × α)) : List κ := fields.map Prod.fst

theorem mem_keys_insert [LT κ] [DecidableLT κ] {key key' : κ} {value : α} {fields : List (κ × α)} :
    key' ∈ keys (insert key value fields) ↔ key' = key ∨ key' ∈ keys fields := by
  unfold keys
  induction fields with
  | nil => simp [insert]
  | cons field rest ih =>
    obtain ⟨k, v⟩ := field
    rw [insert]
    split_ifs with hk hlt
    · simp [hk]
    · simp
    · rw [map_cons, mem_cons, ih, map_cons, mem_cons]
      exact or_left_comm

/-- Under a key that is not among them, nothing is found. -/
theorem lookup_eq_none {key : κ} {fields : List (κ × α)} (h : key ∉ keys fields) :
    fields.lookup key = none := by
  induction fields with
  | nil => rfl
  | cons field rest ih =>
    obtain ⟨hne, hrest⟩ := not_or.mp (mt mem_cons.mpr h)
    rw [← ih hrest]
    exact (lookup_cons key field.1 field.2 rest).trans (if_neg hne)

/-- An insertion keeps the keys in order. -/
theorem pairwise_insert {κ : Type*} [LinearOrder κ] {key : κ} {value : α} {fields : List (κ × α)}
    (h : (keys fields).Pairwise (· < ·)) : (keys (insert key value fields)).Pairwise (· < ·) := by
  induction fields with
  | nil => exact pairwise_singleton _ _
  | cons field rest ih =>
    obtain ⟨k, v⟩ := field
    obtain ⟨hmin, hrest⟩ := pairwise_cons.mp h
    rw [insert]
    split_ifs with hk hlt
    · exact hk ▸ h
    · refine pairwise_cons.mpr ⟨fun k' hk' => ?_, h⟩
      rcases mem_cons.mp hk' with rfl | hk'
      · exact hlt
      · exact lt_trans hlt (hmin k' hk')
    · refine pairwise_cons.mpr ⟨fun k' hk' => ?_, ih hrest⟩
      rcases mem_keys_insert.mp hk' with rfl | hk'
      · exact lt_of_le_of_ne (not_lt.mp hlt) hk
      · exact hmin k' hk'

/-- Fields with different keys are the keys with what is found under them. -/
theorem eq_map_lookup {fields : List (κ × α)} (default : α) (h : (keys fields).Nodup) :
    fields = (keys fields).map fun key => (key, (fields.lookup key).getD default) := by
  induction fields with
  | nil => rfl
  | cons field rest ih =>
    obtain ⟨k, v⟩ := field
    obtain ⟨hnot, hrest⟩ := nodup_cons.mp h
    have htail : ∀ key ∈ keys rest, (key, (((k, v) :: rest).lookup key).getD default) =
        (key, (rest.lookup key).getD default) := by
      intro key hkey
      rw [lookup_cons, if_neg (ne_of_mem_of_not_mem hkey hnot)]
    show (k, v) :: rest = (k, _) :: (keys rest).map _
    rw [map_congr_left htail, ← ih hrest, lookup_cons, if_pos rfl]
    rfl

/-! ## Fields and what is found -/

section Found

variable {key : κ} {value : α} {fields : List (κ × α)}

/-- What is found under a key is a field. -/
theorem mem_of_lookup (h : fields.lookup key = some value) : (key, value) ∈ fields := by
  induction fields with
  | nil => exact nomatch h
  | cons field rest ih =>
    obtain ⟨k, v⟩ := field
    rw [lookup_cons] at h
    split_ifs at h with hk
    · obtain rfl := Option.some_inj.mp h
      rw [hk]
      exact mem_cons_self
    · exact mem_cons_of_mem _ (ih h)

/-- Of fields with different keys each is found. -/
theorem lookup_of_mem (h : (keys fields).Nodup) (hmem : (key, value) ∈ fields) :
    fields.lookup key = some value := by
  induction fields with
  | nil => exact absurd hmem not_mem_nil
  | cons field rest ih =>
    obtain ⟨k, v⟩ := field
    obtain ⟨hnot, hrest⟩ := nodup_cons.mp h
    rw [lookup_cons]
    obtain heq | hmem := mem_cons.mp hmem
    · cases heq
      exact if_pos rfl
    · rw [if_neg (ne_of_mem_of_not_mem (mem_map_of_mem hmem) hnot), ih hrest hmem]

theorem isSome_lookup : (fields.lookup key).isSome ↔ key ∈ keys fields := by
  refine ⟨fun h => ?_, fun h => ?_⟩
  · obtain ⟨value, hvalue⟩ := Option.isSome_iff_exists.mp h
    exact mem_map_of_mem (mem_of_lookup hvalue)
  · by_contra hnone
    obtain ⟨field, hfield, rfl⟩ := mem_map.mp h
    have hne := lookup_eq_none_iff.mp (Option.not_isSome_iff_eq_none.mp hnone) field hfield
    simp at hne

/-- Fields in key order are what is found under their keys. -/
theorem ext_lookup {κ : Type*} [LinearOrder κ] {fields fields' : List (κ × α)}
    (h : (keys fields).Pairwise (· < ·)) (h' : (keys fields').Pairwise (· < ·))
    (hlookup : ∀ key, fields.lookup key = fields'.lookup key) : fields = fields' := by
  have hkeys : keys fields = keys fields' := by
    refine h.eq_of_mem_iff h' fun key => ?_
    rw [← isSome_lookup, ← isSome_lookup, hlookup]
  cases fields with
  | nil => exact (map_eq_nil_iff.mp hkeys.symm).symm
  | cons field rest =>
    rw [eq_map_lookup field.2 (h.imp ne_of_lt), eq_map_lookup field.2 (h'.imp ne_of_lt), hkeys]
    exact map_congr_left fun key _ => by rw [hlookup]

end Found

/-- An insertion only adds its field. -/
theorem mem_insert [LT κ] [DecidableLT κ] {key : κ} {v : α} {fields : List (κ × α)} {field : κ × α}
    (h : field ∈ insert key v fields) :
    field = (key, v) ∨ field ∈ fields := by
  induction fields with
  | nil => exact .inl (mem_singleton.mp h)
  | cons first rest ih =>
    rw [insert] at h
    split_ifs at h
    · exact (mem_cons.mp h).imp_right (mem_cons_of_mem _)
    · exact mem_cons.mp h
    · obtain rfl | h := mem_cons.mp h
      · exact .inr mem_cons_self
      · exact (ih h).imp_right (mem_cons_of_mem _)

/-- Nothing is removed under a new key. -/
theorem remove_of_not_mem {key : κ} {fields : List (κ × α)} (h : key ∉ keys fields) :
    remove key fields = fields := by
  refine filter_eq_self.mpr fun field hfield => ?_
  have hmem : field.1 ∈ keys fields := mem_map_of_mem hfield
  simpa using ne_of_mem_of_not_mem hmem h

/-- Insertions under a new key are told apart. -/
theorem insert_eq_insert [LT κ] [DecidableLT κ] {key : κ} {v w : α} {fields fields' : List (κ × α)}
    (h : key ∉ keys fields) (h' : key ∉ keys fields') :
    insert key v fields = insert key w fields' ↔ v = w ∧ fields = fields' := by
  constructor
  · intro heq
    have hlookup := congrArg (List.lookup key) heq
    rw [lookup_insert, lookup_insert, if_pos rfl, if_pos rfl] at hlookup
    have hremove := congrArg (remove key) heq
    rw [remove_insert, remove_insert, remove_of_not_mem h, remove_of_not_mem h']
      at hremove
    exact ⟨Option.some_inj.mp hlookup, hremove⟩
  · rintro ⟨rfl, rfl⟩
    rfl

/-- Nothing is found under a key that is removed. -/
theorem lookup_remove_self (key : κ) (fields : List (κ × α)) :
    (remove key fields).lookup key = none := by
  refine lookup_eq_none fun hmem => ?_
  obtain ⟨field, hfield, rfl⟩ := mem_map.mp hmem
  exact of_decide_eq_true (mem_filter.mp hfield).2 rfl

/-- A key below all others is put first. -/
theorem insert_of_lt [Preorder κ] [DecidableLT κ] {key : κ} {fields : List (κ × α)}
    (h : ∀ k ∈ keys fields, key < k) (value : α) :
    insert key value fields = (key, value) :: fields := by
  cases fields with
  | nil => rfl
  | cons field rest =>
    have hlt : key < field.1 := h _ mem_cons_self
    rw [insert, if_neg hlt.ne', if_pos hlt]

/-- What is found under a key may be inserted there. -/
theorem insert_of_lookup {κ : Type*} [LinearOrder κ] {key : κ} {value : α}
    {fields : List (κ × α)} (h : (keys fields).Pairwise (· < ·))
    (hlookup : fields.lookup key = some value) : insert key value fields = fields := by
  refine ext_lookup (pairwise_insert h) h fun key' => ?_
  rw [lookup_insert]
  split_ifs with hkey
  · rw [hkey, hlookup]
  · rfl

/-- A removal keeps the keys in order. -/
theorem pairwise_remove {r : κ → κ → Prop} {key : κ} {fields : List (κ × α)}
    (h : (keys fields).Pairwise r) : (keys (remove key fields)).Pairwise r :=
  h.sublist (List.Sublist.map Prod.fst filter_sublist)

/-! ## Fields with other values -/

section Map

variable {β : Type*} (f : α → β) (key : κ) (value : α) (fields : List (κ × α))

theorem lookup_map_snd : (fields.map fun field => (field.1, f field.2)).lookup key =
    (fields.lookup key).map f := by
  induction fields with
  | nil => rfl
  | cons field rest ih =>
    obtain ⟨k, v⟩ := field
    rw [map_cons, lookup_cons, lookup_cons, ih]
    split_ifs <;> rfl

theorem insert_map_snd [LT κ] [DecidableLT κ] :
    (insert key value fields).map (fun field => (field.1, f field.2)) =
      insert key (f value) (fields.map fun field => (field.1, f field.2)) := by
  induction fields with
  | nil => rfl
  | cons field rest ih =>
    obtain ⟨k, v⟩ := field
    rw [map_cons, insert, insert]
    split_ifs
    · rfl
    · rfl
    · rw [map_cons, ih]

theorem remove_map_snd : (remove key fields).map (fun field => (field.1, f field.2)) =
    remove key (fields.map fun field => (field.1, f field.2)) := by
  unfold remove
  rw [filter_map]
  rfl

end Map

end Fields
