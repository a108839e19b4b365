import Oxydra.Runner.ConfigPatch

/-!
# Which fields a patch reports as changed

`compute_changed_fields` (`crates/runner/src/web/config_write.rs`) walks over two JSON values and
reports the places where they part. It reports none exactly where the values are equal. A place is
reported as its keys with dots between them, and this text leads back to the place, but for one
case: a text that is still empty is taken for the root, so empty keys at the top of the value are
lost.
-/

namespace Oxydra

open List

variable {items : List Value} {path x : String}

/-! ## Places in a value -/

namespace Value

/-- What a value consists of; an array has its elements under their indices. -/
def members : Value → List (String × Value)
  | .object fields => fields
  | .array items => items.zipIdx.map fun item => (toString item.2, item.1)
  | _ => []

/-- The value at a place. -/
def atPlace : List String → Value → Option Value
  | [], v => some v
  | key :: place, v => (v.members.lookup key).bind (atPlace place)

/-- Something holds of the keys of every object in a value. -/
inductive KeysHold (p : List String → Prop) : Value → Prop
  | mk {v : Value} : (∀ fields, v = .object fields → p (Fields.keys fields)) →
    (∀ member ∈ v.members, KeysHold p member.2) → KeysHold p v

/-- The keys of all objects stand in order, each of them once. -/
abbrev IsOrdered : Value → Prop := KeysHold (List.Pairwise (· < ·))

/-- There are no dots in the keys. -/
abbrev IsDotFree : Value → Prop := KeysHold fun keys => ∀ key ∈ keys, '.' ∉ key.toList

/-- The values inside of two others are compared, and not the two themselves. -/
def Comparable : Value → Value → Prop
  | .object _, .object _ => True
  | .array before_arr, .array after_arr => before_arr.length = after_arr.length
  | _, _ => False

instance (a b : Value) : Decidable (Comparable a b) := by
  unfold Comparable
  split <;> infer_instance

/-- Two values part at a place: they are alike above it, and different there. -/
inductive Parts : Value → Value → List String → Prop
  | here {a b : Value} : ¬Comparable a b → a ≠ b → Parts a b []
  | missing {a b : Value} {key : String} : Comparable a b →
    (a.members.lookup key).isSome ≠ (b.members.lookup key).isSome → Parts a b [key]
  | inside {a b v w : Value} {key : String} {place : List String} : Comparable a b →
    a.members.lookup key = some v → b.members.lookup key = some w → Parts v w place →
    Parts a b (key :: place)

/-! ## Members -/

variable {a b v w : Value} {key : String} {place : List String} {p : List String → Prop}

/-- Indices with one text are one. -/
theorem toString_injective : Function.Injective (toString : ℕ → String) := by
  intro m n h
  rw [Nat.toString_eq_ofList_toDigits, Nat.toString_eq_ofList_toDigits] at h
  have hdigits := congrArg String.toList h
  rw [String.toList_ofList, String.toList_ofList] at hdigits
  rw [← Nat.ofDigitChars_ten_toDigits (n := m), hdigits, Nat.ofDigitChars_ten_toDigits]

/-- The elements of an array are found under their indices. -/
theorem lookup_array :
    (Value.array items).members.lookup key = some v ↔
      ∃ n : ℕ, key = toString n ∧ items[n]? = some v := by
  have hfrom : ∀ (items : List Value) (start : ℕ),
      ((items.zipIdx start).map fun item => (toString item.2, item.1)).lookup key = some v ↔
        ∃ n : ℕ, key = toString (start + n) ∧ items[n]? = some v := by
    intro items
    induction items with
    | nil => simp
    | cons item items ih =>
      intro start
      rw [zipIdx_cons, map_cons, Fields.lookup_cons]
      split_ifs with hkey
      · refine ⟨fun h => ⟨0, hkey, h⟩, ?_⟩
        rintro ⟨n, hn, h⟩
        have heq := toString_injective (hkey.symm.trans hn)
        obtain rfl : n = 0 := by omega
        exact h
      · rw [ih]
        constructor
        · rintro ⟨n, hn, h⟩
          exact ⟨n + 1, by rwa [← Nat.add_assoc, Nat.add_right_comm], h⟩
        · rintro ⟨_ | n, hn, h⟩
          · exact absurd hn hkey
          · exact ⟨n, by rwa [Nat.add_right_comm, Nat.add_assoc], h⟩
  have hzero := hfrom items 0
  simp only [Nat.zero_add] at hzero
  exact hzero

/-- So it is below a member. -/
theorem KeysHold.member (h : KeysHold p a) (hv : a.members.lookup key = some v) :
    KeysHold p v := by
  obtain ⟨-, hmembers⟩ := h
  exact hmembers _ (Fields.mem_of_lookup hv)

/-- A value without members. -/
theorem KeysHold.leaf (h : v.members = []) (hobject : ∀ fields, v ≠ .object fields) :
    KeysHold p v :=
  .mk (fun fields hv => absurd hv (hobject fields)) (by simp [h])

/-- An array of such values. -/
theorem KeysHold.array (h : ∀ item ∈ items, KeysHold p item) :
    KeysHold p (.array items) := by
  refine .mk nofun fun member hmember => ?_
  obtain ⟨⟨item, index⟩, hitem, rfl⟩ := mem_map.mp hmember
  exact h item (fst_mem_of_mem_zipIdx hitem)

/-- An object of such values. -/
theorem KeysHold.object {fields : List (String × Value)} (hkeys : p (Fields.keys fields))
    (h : ∀ field ∈ fields, KeysHold p field.2) : KeysHold p (.object fields) := by
  refine .mk (fun fields' heq => ?_) h
  cases heq
  exact hkeys

/-- The items of an array. -/
theorem KeysHold.of_array (h : KeysHold p (.array items)) :
    ∀ item ∈ items, KeysHold p item := by
  obtain ⟨-, hmembers⟩ := h
  intro item hitem
  obtain ⟨n, hn, rfl⟩ := mem_iff_getElem.mp hitem
  refine hmembers (toString n, items[n]) (mem_map.mpr ⟨(items[n], n), ?_, rfl⟩)
  exact mem_zipIdx_iff_getElem?.mpr (List.getElem?_eq_getElem hn)

/-- The fields of an object. -/
theorem KeysHold.of_object {fields : List (String × Value)} (h : KeysHold p (.object fields)) :
    p (Fields.keys fields) ∧ ∀ field ∈ fields, KeysHold p field.2 := by
  obtain ⟨hkeys, hmembers⟩ := h
  exact ⟨hkeys fields rfl, hmembers⟩

/-- A member is smaller. -/
theorem sizeOf_member (hv : a.members.lookup key = some v) : sizeOf v < sizeOf a := by
  cases a with
  | object fields =>
    have hmem : (key, v) ∈ fields := Fields.mem_of_lookup hv
    have hlt := sizeOf_lt_of_mem hmem
    simp only [Prod.mk.sizeOf_spec, Value.object.sizeOf_spec] at hlt ⊢
    omega
  | array items =>
    obtain ⟨n, -, hn⟩ := lookup_array.mp hv
    have hlt := sizeOf_lt_of_mem (mem_of_getElem? hn)
    simp only [Value.array.sizeOf_spec]
    omega
  | _ => exact nomatch hv

/-- Where values part they are different. -/
theorem Parts.atPlace_ne (h : Parts a b place) : a.atPlace place ≠ b.atPlace place := by
  induction h with
  | here _ hne => exact fun heq => hne (Option.some_inj.mp heq)
  | missing _ hkey =>
    intro heq
    simp only [Value.atPlace, Option.bind_fun_some] at heq
    exact hkey (congrArg Option.isSome heq)
  | inside _ hv hw _ ih =>
    rw [Value.atPlace, Value.atPlace, hv, hw]
    exact ih

/-- Values that part somewhere differ. -/
theorem Parts.ne (h : Parts a b place) : a ≠ b := by
  rintro rfl
  exact h.atPlace_ne rfl

/-- Values that part below a key are different under this key. -/
theorem Parts.atPlace_head_ne (h : Parts a b (key :: place)) :
    a.atPlace [key] ≠ b.atPlace [key] := by
  cases h with
  | missing hcomp hkey => exact (Parts.missing hcomp hkey).atPlace_ne
  | inside _ hv hw hparts =>
    rw [Value.atPlace, Value.atPlace, hv, hw]
    exact fun heq => hparts.ne (Option.some_inj.mp heq)

/-! ## What is reported -/

/-- What the fields before give. -/
theorem mem_diffFields {before_obj after_obj : List (String × Value)} :
    x ∈ diffFields path after_obj before_obj ↔ ∃ key v, (key, v) ∈ before_obj ∧
      match after_obj.lookup key with
      | some w => x ∈ diffValues (nextPath path key) v w
      | none => x = nextPath path key := by
  induction before_obj with
  | nil => simp [diffFields]
  | cons field before_obj ih =>
    obtain ⟨key, v⟩ := field
    rw [diffFields, mem_append, ih]
    constructor
    · rintro (hx | ⟨key, v, hmem, hx⟩)
      · refine ⟨key, v, mem_cons_self, ?_⟩
        cases hw : after_obj.lookup key <;> simpa [hw] using hx
      · exact ⟨key, v, mem_cons_of_mem _ hmem, hx⟩
    · rintro ⟨key', v', hmem, hx⟩
      obtain heq | hmem := mem_cons.mp hmem
      · obtain ⟨rfl, rfl⟩ := Prod.mk.inj heq
        refine .inl ?_
        cases hw : after_obj.lookup key' <;> simpa [hw] using hx
      · exact .inr ⟨key', v', hmem, hx⟩

/-- What the items at one index give. -/
theorem mem_diffElements {index : ℕ} {before_arr after_arr : List Value} :
    x ∈ diffElements path index before_arr after_arr ↔ ∃ (n : ℕ) (v w : Value),
      before_arr[n]? = some v ∧ after_arr[n]? = some w ∧
        x ∈ diffValues (nextPath path (toString (index + n))) v w := by
  induction before_arr generalizing index after_arr with
  | nil => simp [diffElements]
  | cons v before_arr ih =>
    cases after_arr with
    | nil => simp [diffElements]
    | cons w after_arr =>
      rw [diffElements, mem_append, ih]
      constructor
      · rintro (hx | ⟨n, v, w, hv, hw, hx⟩)
        · exact ⟨0, v, w, rfl, rfl, hx⟩
        · exact ⟨n + 1, v, w, hv, hw, by rwa [← Nat.add_assoc, Nat.add_right_comm]⟩
      · rintro ⟨_ | n, v', w', hv, hw, hx⟩
        · obtain rfl := Option.some_inj.mp hv
          obtain rfl := Option.some_inj.mp hw
          exact .inl hx
        · exact .inr ⟨n, v', w', hv, hw, by rwa [Nat.add_right_comm, Nat.add_assoc]⟩

/-- What is reported of two objects. -/
theorem mem_diffValues_object {before_obj after_obj : List (String × Value)}
    (h : (Fields.keys before_obj).Nodup) (path x : String) :
    x ∈ diffValues path (.object before_obj) (.object after_obj) ↔
      (∃ key v w, before_obj.lookup key = some v ∧ after_obj.lookup key = some w ∧
        x ∈ diffValues (nextPath path key) v w) ∨
      ∃ key, (before_obj.lookup key).isSome ≠ (after_obj.lookup key).isSome ∧
        x = nextPath path key := by
  rw [diffValues, mem_append, mem_diffFields]
  constructor
  · rintro (⟨key, v, hmem, hx⟩ | hx)
    · have hv := Fields.lookup_of_mem h hmem
      cases hw : after_obj.lookup key with
      | none =>
        rw [hw] at hx
        exact .inr ⟨key, by rw [hv, hw]; exact nofun, hx⟩
      | some w =>
        rw [hw] at hx
        exact .inl ⟨key, v, w, hv, hw, hx⟩
    · obtain ⟨key, hkey, rfl⟩ := mem_map.mp hx
      obtain ⟨hafter, hbefore⟩ := mem_filter.mp hkey
      refine .inr ⟨key, ?_, rfl⟩
      rw [Fields.lookup_eq_none (of_decide_eq_true hbefore), Fields.isSome_lookup.mpr hafter]
      exact nofun
  · rintro (⟨key, v, w, hv, hw, hx⟩ | ⟨key, hkey, rfl⟩)
    · refine .inl ⟨key, v, Fields.mem_of_lookup hv, ?_⟩
      rw [hw]
      exact hx
    · cases hv : before_obj.lookup key with
      | some v =>
        refine .inl ⟨key, v, Fields.mem_of_lookup hv, ?_⟩
        cases hw : after_obj.lookup key with
        | none => rfl
        | some w =>
          rw [hv, hw] at hkey
          exact absurd rfl hkey
      | none =>
        refine .inr (mem_map_of_mem (mem_filter.mpr ⟨?_, ?_⟩))
        · rw [hv, Option.isSome_none, ne_comm, Bool.ne_false_iff] at hkey
          exact Fields.isSome_lookup.mp hkey
        · rw [decide_eq_true_eq, ← Fields.isSome_lookup, hv]
          exact Bool.false_ne_true

/-- What is reported of two arrays of one length. -/
theorem mem_diffValues_array {before_arr after_arr : List Value}
    (h : before_arr.length = after_arr.length) (path x : String) :
    x ∈ diffValues path (.array before_arr) (.array after_arr) ↔
      ∃ key v w, (Value.array before_arr).members.lookup key = some v ∧
        (Value.array after_arr).members.lookup key = some w ∧
        x ∈ diffValues (nextPath path key) v w := by
  rw [diffValues, if_neg (not_not.mpr h), mem_diffElements]
  simp only [lookup_array, Nat.zero_add]
  constructor
  · rintro ⟨n, v, w, hv, hw, hx⟩
    exact ⟨toString n, v, w, ⟨n, rfl, hv⟩, ⟨n, rfl, hw⟩, hx⟩
  · rintro ⟨key, v, w, ⟨n, rfl, hv⟩, ⟨m, hm, hw⟩, hx⟩
    obtain rfl := toString_injective hm
    exact ⟨n, v, w, hv, hw, hx⟩

/-- The members of an array are its indices. -/
theorem isSome_lookup_array :
    ((Value.array items).members.lookup key).isSome ↔ ∃ n < items.length, key = toString n := by
  rw [Option.isSome_iff_exists]
  simp only [lookup_array]
  constructor
  · rintro ⟨v, n, hkey, hv⟩
    exact ⟨n, (List.getElem?_eq_some_iff.mp hv).1, hkey⟩
  · rintro ⟨n, hn, hkey⟩
    exact ⟨items[n], n, hkey, List.getElem?_eq_getElem hn⟩

/-- What is reported of two values at a path. -/
theorem mem_diffValues (ha : a.IsOrdered) (path x : String) :
    x ∈ diffValues path a b ↔
      if Comparable a b then
        (∃ key v w, a.members.lookup key = some v ∧ b.members.lookup key = some w ∧
          x ∈ diffValues (nextPath path key) v w) ∨
        ∃ key, (a.members.lookup key).isSome ≠ (b.members.lookup key).isSome ∧
          x = nextPath path key
      else a ≠ b ∧ x = pathOrRoot path := by
  split_ifs with h
  · cases a with
    | object before_obj =>
      cases b with
      | object after_obj =>
        obtain ⟨hkeys, -⟩ := ha
        exact mem_diffValues_object ((hkeys _ rfl).imp ne_of_lt) path x
      | _ => exact absurd h id
    | array before_arr =>
      cases b with
      | array after_arr =>
        have hlength : before_arr.length = after_arr.length := h
        rw [mem_diffValues_array hlength]
        refine (or_iff_left ?_).symm
        rintro ⟨key, hkey, -⟩
        refine hkey (Bool.eq_iff_iff.mpr ?_)
        rw [isSome_lookup_array, isSome_lookup_array, hlength]
      | _ => exact absurd h id
    | _ => exact absurd h id
  · have hreport : diffValues path a b = if a = b then [] else [pathOrRoot path] := by
      have hlength : ∀ before_arr after_arr : List Value,
          ¬before_arr.length = after_arr.length → before_arr ≠ after_arr := by
        rintro before_arr _ hne rfl
        exact hne rfl
      cases a <;> cases b <;> simp_all [diffValues, Comparable]
    rw [hreport]
    split_ifs with heq <;> simp [heq]

/-- What is reported are places where the values part. -/
theorem parts_of_mem (ha : a.IsOrdered) (hx : x ∈ diffValues path a b) :
    ∃ place, Parts a b place ∧
      (x = pathOrRoot (place.foldl nextPath path) ∨
        place ≠ [] ∧ x = place.foldl nextPath path) := by
  induction hsize : sizeOf a using Nat.strong_induction_on generalizing a b path with
  | _ size ih =>
    rw [mem_diffValues ha] at hx
    split_ifs at hx with hcomp
    · obtain ⟨key, v, w, hv, hw, hx⟩ | ⟨key, hkey, rfl⟩ := hx
      · obtain ⟨place, hparts, hshown⟩ :=
          ih (sizeOf v) (hsize ▸ sizeOf_member hv) (ha.member hv) hx rfl
        refine ⟨key :: place, .inside hcomp hv hw hparts, ?_⟩
        exact hshown.imp_right fun h => ⟨cons_ne_nil _ _, h.2⟩
      · exact ⟨[key], .missing hcomp hkey, .inr ⟨cons_ne_nil _ _, rfl⟩⟩
    · exact ⟨[], .here hcomp hx.1, .inl hx.2⟩

/-- Each of them is reported. -/
theorem Parts.mem (h : Parts a b place) (ha : a.IsOrdered) (path : String) :
    pathOrRoot (place.foldl nextPath path) ∈ diffValues path a b ∨
      place.foldl nextPath path ∈ diffValues path a b := by
  induction h generalizing path with
  | here hcomp hne =>
    refine .inl ((mem_diffValues ha _ _).mpr ?_)
    rw [if_neg hcomp]
    exact ⟨hne, rfl⟩
  | @missing a b key hcomp hkey =>
    refine .inr ((mem_diffValues ha _ _).mpr ?_)
    rw [if_pos hcomp]
    exact .inr ⟨key, hkey, rfl⟩
  | @inside a b v w key place hcomp hv hw _ ih =>
    refine (ih (ha.member hv) (nextPath path key)).imp (fun hx => ?_) fun hx => ?_ <;>
      · refine (mem_diffValues ha _ _).mpr ?_
        rw [if_pos hcomp]
        exact .inl ⟨key, v, w, hv, hw, hx⟩

/-- Values of one kind are what is found in them. -/
theorem ext_members (ha : a.IsOrdered) (hb : b.IsOrdered) (hcomp : Comparable a b)
    (h : ∀ key, a.members.lookup key = b.members.lookup key) : a = b := by
  cases a with
  | object before_obj =>
    cases b with
    | object after_obj =>
      obtain ⟨hkeys, -⟩ := ha
      obtain ⟨hkeys', -⟩ := hb
      exact congrArg _ (Fields.ext_lookup (hkeys _ rfl) (hkeys' _ rfl) h)
    | _ => exact absurd hcomp id
  | array before_arr =>
    cases b with
    | array after_arr =>
      have hitem : ∀ (items : List Value) (n : ℕ) (v : Value),
          (Value.array items).members.lookup (toString n) = some v ↔ items[n]? = some v := by
        intro items n v
        rw [lookup_array]
        refine ⟨?_, fun hv => ⟨n, rfl, hv⟩⟩
        rintro ⟨m, hm, hv⟩
        rwa [toString_injective hm]
      refine congrArg _ (ext_getElem? fun n => Option.ext fun v => ?_)
      rw [← hitem, ← hitem, h]
    | _ => exact absurd hcomp id
  | _ => exact absurd hcomp id

/-- Different values part somewhere. -/
theorem exists_parts (ha : a.IsOrdered) (hb : b.IsOrdered) (h : a ≠ b) :
    ∃ place, Parts a b place := by
  induction hsize : sizeOf a using Nat.strong_induction_on generalizing a b with
  | _ size ih =>
    by_cases hcomp : Comparable a b
    · obtain ⟨key, hkey⟩ : ∃ key, a.members.lookup key ≠ b.members.lookup key := by
        by_contra hnot
        exact h (ext_members ha hb hcomp fun key => by_contra fun hkey => hnot ⟨key, hkey⟩)
      by_cases hsome : (a.members.lookup key).isSome = (b.members.lookup key).isSome
      · cases hv : a.members.lookup key with
        | none =>
          rw [hv, Option.isSome_none, eq_comm, Option.isSome_eq_false_iff,
            Option.isNone_iff_eq_none] at hsome
          exact absurd (hv.trans hsome.symm) hkey
        | some v =>
          obtain ⟨w, hw⟩ : ∃ w, b.members.lookup key = some w :=
            Option.isSome_iff_exists.mp (by rw [← hsome, hv]; rfl)
          have hne : v ≠ w := by
            rintro rfl
            exact hkey (hv.trans hw.symm)
          obtain ⟨place, hparts⟩ :=
            ih (sizeOf v) (hsize ▸ sizeOf_member hv) (ha.member hv) (hb.member hw) hne rfl
          exact ⟨key :: place, .inside hcomp hv hw hparts⟩
      · exact ⟨[key], .missing hcomp hsome⟩
    · exact ⟨[], .here hcomp h⟩

/-- Nothing is reported exactly of equal values. -/
theorem diffValues_eq_nil (ha : a.IsOrdered) (hb : b.IsOrdered) (path : String) :
    diffValues path a b = [] ↔ a = b := by
  constructor
  · intro hnil
    by_contra hne
    obtain ⟨place, hparts⟩ := exists_parts ha hb hne
    have hmem := hparts.mem ha path
    rw [hnil] at hmem
    exact hmem.elim not_mem_nil not_mem_nil
  · rintro rfl
    refine eq_nil_iff_forall_not_mem.mpr fun x hx => ?_
    obtain ⟨place, hparts, -⟩ := parts_of_mem ha hx
    exact hparts.ne rfl

/-- The keys to where two values part are keys of theirs. -/
theorem Parts.dotFree (h : Parts a b place) (ha : a.IsDotFree) (hb : b.IsDotFree) :
    ∀ key ∈ place, '.' ∉ key.toList := by
  have hkey : ∀ {v : Value} {key : String}, v.IsDotFree → (v.members.lookup key).isSome →
      '.' ∉ key.toList := by
    intro v key hv hsome
    cases v with
    | object fields =>
      obtain ⟨hkeys, -⟩ := hv
      exact hkeys fields rfl key (Fields.isSome_lookup.mp hsome)
    | array items =>
      obtain ⟨n, -, rfl⟩ := isSome_lookup_array.mp hsome
      intro hdot
      rw [Nat.toString_eq_ofList_toDigits, String.toList_ofList] at hdot
      exact absurd (Nat.isDigit_of_mem_toDigits (by decide) (by decide) hdot) (by decide)
    | _ => exact nomatch hsome
  induction h with
  | here => exact fun key hmem => absurd hmem not_mem_nil
  | @missing a b key _ hne =>
    intro key' hmem
    obtain rfl := mem_singleton.mp hmem
    cases hsome : (a.members.lookup key').isSome with
    | true => exact hkey ha hsome
    | false =>
      rw [hsome, ne_comm, Bool.ne_false_iff] at hne
      exact hkey hb hne
  | inside _ hv hw _ ih =>
    refine forall_mem_cons.mpr ⟨hkey ha ?_, ih (ha.member hv) (hb.member hw)⟩
    rw [hv]
    rfl

end Value

/-! ## Changed fields -/

open Value

variable {before after : Value}

/-- Neighbours that are equal count once. -/
theorem mem_destutter {α : Type*} [DecidableEq α] {l : List α} {x : α} :
    x ∈ l.destutter (· ≠ ·) ↔ x ∈ l := by
  have hfrom : ∀ (l : List α) (a : α), x ∈ l.destutter' (· ≠ ·) a ↔ x = a ∨ x ∈ l := by
    intro l
    induction l with
    | nil => simp
    | cons b l ih =>
      intro a
      rw [List.destutter'_cons]
      split_ifs with hne
      · rw [mem_cons, ih, mem_cons]
      · obtain rfl := not_not.mp hne
        rw [ih, mem_cons, ← or_assoc, or_self]
  cases l with
  | nil => exact Iff.rfl
  | cons a l => rw [destutter_cons', hfrom, mem_cons]

/-- The changed fields are those found. -/
theorem mem_computeChangedFields :
    path ∈ computeChangedFields before after ↔ path ∈ diffValues "" before after := by
  unfold computeChangedFields
  rw [mem_destutter, mem_mergeSort]

/-- The place that a reported path leads to. -/
def placeOf (path : String) : List String :=
  if path = "$" then [] else (path.toList.splitOn '.').map String.ofList

/-- What a path shows of a place. -/
def shownPlace (place : List String) : List String := place.dropWhile (· = "")

/-- Empty keys in front leave no dot. -/
theorem foldl_nextPath_empty (place : List String) :
    place.foldl nextPath "" = (shownPlace place).foldl nextPath "" := by
  induction place with
  | nil => rfl
  | cons key place ih =>
    unfold shownPlace
    rw [dropWhile_cons]
    split_ifs with hkey
    · obtain rfl := of_decide_eq_true hkey
      exact ih
    · rfl

/-- Each key follows a dot. -/
theorem toList_foldl_nextPath (place : List String) (h : path ≠ "") :
    (place.foldl nextPath path).toList =
      path.toList ++ place.flatMap fun key => '.' :: key.toList := by
  induction place generalizing path with
  | nil => exact (append_nil _).symm
  | cons key place ih =>
    have hnext : nextPath path key = path ++ "." ++ key := if_neg h
    have hne : path ++ "." ++ key ≠ "" := by
      intro heq
      have hlist := congrArg String.toList heq
      simp at hlist
    rw [foldl_cons, hnext, ih hne]
    simp

/-- A shown place begins with a key. -/
theorem ne_empty_of_shown {place rest : List String} {key : String}
    (h : shownPlace place = key :: rest) : key ≠ "" := by
  have hhead := List.head?_dropWhile_not (fun key => decide (key = "")) place
  rw [show place.dropWhile _ = key :: rest from h] at hhead
  exact of_decide_eq_false hhead

/-- Only a place of empty keys has no path. -/
theorem foldl_nextPath_eq_empty {place : List String} :
    place.foldl nextPath "" = "" ↔ shownPlace place = [] := by
  rw [foldl_nextPath_empty]
  cases hshown : shownPlace place with
  | nil => exact iff_of_true rfl rfl
  | cons key rest =>
    have hkey := ne_empty_of_shown hshown
    refine iff_of_false (fun h => hkey ?_) (cons_ne_nil key rest)
    have hlist := congrArg String.toList h
    have hfirst : nextPath "" key = key := rfl
    rw [foldl_cons, hfirst, toList_foldl_nextPath rest hkey] at hlist
    exact String.toList_eq_nil_iff.mp (append_eq_nil_iff.mp hlist).1

/-- The path of a place leads to what it shows of the place. -/
theorem splitOn_shown {place : List String} (hdots : ∀ key ∈ place, '.' ∉ key.toList)
    (h : shownPlace place ≠ []) :
    (((place.foldl nextPath "").toList.splitOn '.').map String.ofList) = shownPlace place := by
  rw [foldl_nextPath_empty]
  have hsub : ∀ key ∈ shownPlace place, '.' ∉ key.toList := fun key hkey =>
    hdots key ((dropWhile_sublist _).mem hkey)
  cases hshown : shownPlace place with
  | nil => exact absurd hshown h
  | cons key rest =>
    have hkey := ne_empty_of_shown hshown
    have hsplit : ∀ (rest : List String) (key : String), (∀ key' ∈ key :: rest, '.' ∉ key'.toList) →
        (key.toList ++ rest.flatMap fun key => '.' :: key.toList).splitOn '.' =
          (key :: rest).map String.toList := by
      intro rest
      induction rest with
      | nil =>
        intro key hall
        rw [flatMap_nil, append_nil,
          splitOn_eq_singleton (hall key mem_cons_self)]
        rfl
      | cons next rest ih =>
        intro key hall
        obtain ⟨hfirst, hrest⟩ := forall_mem_cons.mp hall
        rw [flatMap_cons, cons_append,
          splitOn_append_cons_self_of_not_mem hfirst, ih next hrest]
        rfl
    have hfirst : nextPath "" key = key := rfl
    rw [foldl_cons, hfirst, toList_foldl_nextPath rest hkey,
      hsplit rest key (hshown ▸ hsub), map_map]
    simp

/-- What is expected of the changed fields. -/
structure ChangesExact (before after : Value) : Prop where
  empty : computeChangedFields before after = [] ↔ before = after
  leads : before.IsDotFree → after.IsDotFree → ∀ path ∈ computeChangedFields before after,
    before.atPlace (placeOf path) ≠ after.atPlace (placeOf path)

/-- Where two values part below empty keys at the top, they also differ at the place without these
keys. -/
def NoEmptyKeyLost (before after : Value) : Prop :=
  before.IsDotFree → after.IsDotFree → ∀ place, Parts before after place →
    shownPlace place = [] ∨ shownPlace place = ["$"] ∨
      before.atPlace (shownPlace place) ≠ after.atPlace (shownPlace place)

/-- Nothing is changed exactly between equal values. -/
theorem computeChangedFields_eq_nil (hbefore : before.IsOrdered) (hafter : after.IsOrdered) :
    computeChangedFields before after = [] ↔ before = after := by
  rw [← diffValues_eq_nil hbefore hafter ""]
  simp only [eq_nil_iff_forall_not_mem, mem_computeChangedFields]

/-- The changed fields are what is expected of them, if no empty key at the top is lost. -/
theorem changesExact_iff (hbefore : before.IsOrdered) (hafter : after.IsOrdered) :
    ChangesExact before after ↔ NoEmptyKeyLost before after := by
  constructor
  · intro hexact hdots hdots' place hparts
    by_contra hnot
    obtain ⟨hne, hroot, heq⟩ := not_or.mp hnot |>.imp_right not_or.mp
    have hplace := splitOn_shown (hparts.dotFree hdots hdots') hne
    have hpath : place.foldl nextPath "" ≠ "" := mt foldl_nextPath_eq_empty.mp hne
    have hmem : place.foldl nextPath "" ∈ computeChangedFields before after := by
      rw [mem_computeChangedFields]
      have hmem := hparts.mem hbefore ""
      rwa [pathOrRoot, if_neg hpath, or_self] at hmem
    have hleads := hexact.leads hdots hdots' _ hmem
    unfold placeOf at hleads
    split_ifs at hleads with hdollar
    · rw [hdollar] at hplace
      exact hroot hplace.symm
    · rw [hplace] at hleads
      exact heq hleads
  · intro hlost
    refine ⟨computeChangedFields_eq_nil hbefore hafter, fun hdots hdots' path hpath => ?_⟩
    obtain ⟨place, hparts, hx⟩ := parts_of_mem hbefore (mem_computeChangedFields.mp hpath)
    have hroot : before.atPlace [] ≠ after.atPlace [] := fun heq =>
      hparts.ne (Option.some_inj.mp heq)
    -- a place of empty keys is shown as the root, any other as its path
    by_cases hshown : shownPlace place = []
    · rw [foldl_nextPath_eq_empty.mpr hshown] at hx
      obtain rfl | ⟨hne, rfl⟩ := hx
      · exact hroot
      · cases place with
        | nil => exact absurd rfl hne
        | cons key place =>
          have hkey : key = "" := by
            by_contra hkey
            unfold shownPlace at hshown
            rw [dropWhile_cons_of_neg (by simpa using hkey)] at hshown
            exact nomatch hshown
          subst hkey
          exact hparts.atPlace_head_ne
    · have hplace := splitOn_shown (hparts.dotFree hdots hdots') hshown
      have hne : place.foldl nextPath "" ≠ "" := mt foldl_nextPath_eq_empty.mp hshown
      rw [pathOrRoot, if_neg hne] at hx
      obtain rfl : path = place.foldl nextPath "" := hx.elim id And.right
      unfold placeOf
      split_ifs with hdollar
      · exact hroot
      · rw [hplace]
        obtain h | h | h := hlost hdots hdots' place hparts
        · exact absurd h hshown
        · exact absurd (by rw [foldl_nextPath_empty, h]; rfl) hdollar
        · exact h

end Oxydra
