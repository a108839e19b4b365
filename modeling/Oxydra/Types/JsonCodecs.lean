import Mathlib.Algebra.Group.Int.Defs
import Mathlib.Data.String.Basic
import Oxydra.Library.Fields
import Oxydra.Library.RecordCodec
import Oxydra.Types.Model

/-!
# Types as JSON

How `serde` writes the types of Rust as JSON and reads them, each with the law that what is written
is read back: texts, truth values, words, lists, maps, enumerations without data, and records.
-/

namespace Oxydra

open List RecordCodec

namespace Json

/-- A `String`. -/
def string : Codec Value String where
  write s := .string s
  read
    | .string s => .ok s
    | _ => .error "invalid type: expected a string"
  read_write _ := rfl

/-- A `bool`. -/
def bool : Codec Value Bool where
  write b := .bool b
  read
    | .bool b => .ok b
    | _ => .error "invalid type: expected a boolean"
  read_write _ := rfl

/-- An unsigned word of `w` bits. -/
def word (w : ℕ) : Codec Value (BitVec w) where
  write n := .number n.toNat
  read
    | .number (.integer q) =>
      if 0 ≤ q ∧ q < 2^w then .ok (BitVec.ofNat w q.toNat)
      else .error "invalid value: expected an unsigned word"
    | _ => .error "invalid type: expected an unsigned word"
  read_write n := by
    have hlt : ((n.toNat : ℤ)) < 2^w := by exact_mod_cast n.isLt
    dsimp only
    rw [if_pos ⟨Int.natCast_nonneg _, hlt⟩, Int.toNat_natCast, BitVec.ofNat_toNat,
      BitVec.setWidth_eq]

/-- A `Vec`. -/
def list {α : Type} (c : Codec Value α) : Codec Value (List α) where
  write items := .array (items.map c.write)
  read
    | .array items => items.mapM c.read
    | _ => .error "invalid type: expected a sequence"
  read_write items := by
    dsimp only
    induction items with
    | nil => rfl
    | cons a items ih =>
      rw [map_cons, mapM_cons, c.read_write, ih]
      rfl

/-- A unit variant of an enumeration, by its name. -/
def variant {α : Type} [DecidableEq α] (all : List α) (name : α → String)
    (complete : ∀ a, a ∈ all) (distinct : ∀ a b, name a = name b → a = b) : Codec Value α where
  write a := .string (name a)
  read
    | .string s | .object [(s, .null)] =>
      match all.find? fun a => name a = s with
      | some a => .ok a
      | none => .error ("unknown variant " ++ s)
    | _ => .error "invalid type: expected a variant"
  read_write a := by
    dsimp only
    cases hfind : all.find? fun b => name b = name a with
    | none =>
      have hnone := List.find?_eq_none.mp hfind a (complete a)
      exact absurd (decide_eq_true rfl) hnone
    | some b =>
      have hname : decide (name b = name a) = true :=
        List.find?_some (p := fun b => decide (name b = name a)) hfind
      exact congrArg Except.ok (distinct b a (of_decide_eq_true hname))

/-- The fields of an object, or the items of an array. -/
def unpack : Value → Except String (List (String × Value) ⊕ List Value)
  | .object fields => .ok (.inl fields)
  | .array items => .ok (.inr items)
  | _ => .error "invalid type: expected a struct"

/-- A struct. -/
def record {α : Type} (r : Record Value α) : Codec Value α := r.codec .object unpack fun _ => rfl

/-- Whether a value is null. -/
def isNull : Value → Bool
  | .null => true
  | _ => false

section

variable {α : Type} (name : String)

/-- A field without attributes. -/
def required (c : Codec Value α) : Record Value α := .field name (.required name c)

/-- A field with a default. -/
def defaulted (default : α) (c : Codec Value α) : Record Value α :=
  .field name (.defaulted default c)

/-- A field that is left out where it has no value. -/
def optional (c : Codec Value α) (h : ∀ a, isNull (c.write a) = false) :
    Record Value (Option α) :=
  .field name (.optional isNull c h)

/-- A field that is left out where it has its default. -/
def skipped (default : α) (skip : α → Bool) (h : ∀ a, skip a = true → a = default)
    (c : Codec Value α) : Record Value α :=
  .field name (.skipped default skip h c)

end

end Json

/-! ## Maps -/

/-- A `BTreeMap` of texts, as its fields in key order. -/
structure TextMap where
  fields : List (String × String)
  sorted : (Fields.keys fields).Pairwise (· < ·)
  deriving DecidableEq

namespace TextMap

/-- A map without fields. -/
def empty : TextMap := ⟨[], .nil⟩

/-- `insert`. -/
def insert (map : TextMap) (key value : String) : TextMap where
  fields := Fields.insert key value map.fields
  sorted := Fields.pairwise_insert map.sorted

/-- A field behind all others is put last. -/
theorem insert_of_gt {key : String} {fields : List (String × String)}
    (h : ∀ k ∈ Fields.keys fields, k < key) (value : String) :
    Fields.insert key value fields = fields ++ [(key, value)] := by
  induction fields with
  | nil => rfl
  | cons field rest ih =>
    have hlt : field.1 < key := h _ mem_cons_self
    rw [Fields.insert, if_neg hlt.ne, if_neg hlt.not_gt,
      ih fun k hk => h k (mem_cons_of_mem _ hk)]
    rfl

/-- A field of an object is inserted. -/
def readField (map : TextMap) (field : String × Value) : Except String TextMap := do
  return map.insert field.1 (← Json.string.read field.2)

/-- Fields in key order are read as they stand: by induction, with the ones that are read. -/
theorem foldlM_readField (fields : List (String × String)) (map : TextMap)
    (h : (Fields.keys (map.fields ++ fields)).Pairwise (· < ·)) :
    (fields.map fun field => (field.1, Value.string field.2)).foldlM readField map =
      .ok ⟨map.fields ++ fields, h⟩ := by
  induction fields generalizing map with
  | nil => simp [pure, Except.pure]
  | cons field fields ih =>
    have hkeys := h
    rw [Fields.keys, map_append, pairwise_append] at hkeys
    have hlast : (map.insert field.1 field.2).fields = map.fields ++ [field] :=
      insert_of_gt (fun k hk => hkeys.2.2 k hk _ mem_cons_self) _
    have hsplit : (map.insert field.1 field.2).fields ++ fields = map.fields ++ field :: fields := by
      rw [hlast, append_assoc]
      rfl
    rw [map_cons, foldlM_cons]
    change (fields.map fun field => (field.1, Value.string field.2)).foldlM readField
      (map.insert field.1 field.2) = _
    rw [ih (map.insert field.1 field.2) (by rw [hsplit]; exact h)]
    exact congrArg Except.ok (by simp only [hsplit])

end TextMap

/-- A `BTreeMap` of texts, of whose fields with one key the last one counts. -/
def Json.textMap : Codec Value TextMap where
  write map := .object (map.fields.map fun field => (field.1, .string field.2))
  read
    | .object fields => fields.foldlM TextMap.readField TextMap.empty
    | _ => .error "invalid type: expected a map"
  read_write map := TextMap.foldlM_readField map.fields TextMap.empty map.sorted

end Oxydra
