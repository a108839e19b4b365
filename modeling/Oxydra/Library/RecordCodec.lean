import Mathlib.Data.List.Basic

/-!
# Records as fields of a data format

How the values of a type are written in a data format and read back, with the law that what is
written is read back as it was. A field may be left out where its value is the one that it has when
it is missing (`Field.skipped`), and a record is the fields with the names of its parts, wherever
they stand among others (`Record.pair`).

`J` is the type of the values of the format.
-/

namespace RecordCodec

open List

variable {J α β : Type}

/-- How the values of a type are written and read. -/
structure Codec (J α : Type) where
  write : α → J
  read : J → Except String α
  read_write : ∀ a, read (write a) = .ok a

/-! ## Fields -/

/-- How a field is written, or left out, and how it is read, where it is there or missing. -/
structure Field (J α : Type) where
  write : α → Option J
  read : Option J → Except String α
  read_write : ∀ a, read (write a) = .ok a

namespace Field

/-- A field that must be there. -/
def required (name : String) (c : Codec J α) : Field J α where
  write a := some (c.write a)
  read
    | some j => c.read j
    | none => .error ("missing field " ++ name)
  read_write a := c.read_write a

/-- A field that is always written, and has a default where it is missing. -/
def defaulted (default : α) (c : Codec J α) : Field J α where
  write a := some (c.write a)
  read
    | some j => c.read j
    | none => .ok default
  read_write a := c.read_write a

/-- A field that is left out where it has its default. -/
def skipped (default : α) (skip : α → Bool) (h : ∀ a, skip a = true → a = default)
    (c : Codec J α) : Field J α where
  write a := if skip a then none else some (c.write a)
  read
    | some j => c.read j
    | none => .ok default
  read_write a := by
    cases hskip : skip a with
    | true =>
      rw [if_pos rfl]
      exact congrArg Except.ok (h a hskip).symm
    | false => exact c.read_write a

/-- A field that is left out where it has no value, and has none where it is missing or null. -/
def optional (isNull : J → Bool) (c : Codec J α) (h : ∀ a, isNull (c.write a) = false) :
    Field J (Option α) where
  write a := a.map c.write
  read
    | some j => if isNull j then .ok none else (c.read j).map some
    | none => .ok none
  read_write a := by
    cases a with
    | none => rfl
    | some a =>
      rw [Option.map_some]
      dsimp only
      rw [if_neg (by rw [h]; decide), c.read_write]
      rfl

end Field

/-! ## Records -/

/-- What stands under a name among fields: nothing, a value, or more than one. -/
def find (name : String) (fields : List (String × J)) : Except String (Option J) :=
  match fields.filter fun field => field.1 = name with
  | [] => .ok none
  | [field] => .ok (some field.2)
  | _ => .error ("duplicate field " ++ name)

/-- How a record is written as fields, and read from fields or from items in their order. -/
structure Record (J α : Type) where
  names : List String
  write : α → List (String × J)
  read : List (String × J) → Except String α
  readItems : List J → Except String (α × List J)
  names_write : ∀ a, ∀ field ∈ write a, field.1 ∈ names
  read_write : ∀ a before after, (∀ field ∈ before, field.1 ∉ names) →
    (∀ field ∈ after, field.1 ∉ names) → read (before ++ write a ++ after) = .ok a

namespace Record

theorem find_append {name : String} {before after : List (String × J)}
    (hbefore : ∀ field ∈ before, field.1 ∉ [name]) (hafter : ∀ field ∈ after, field.1 ∉ [name])
    (own : List (String × J)) : find name (before ++ own ++ after) = find name own := by
  have hnone : ∀ fields : List (String × J), (∀ field ∈ fields, field.1 ∉ [name]) →
      (fields.filter fun field => field.1 = name) = [] := by
    intro fields h
    refine filter_eq_nil_iff.mpr fun field hfield hname => h field hfield ?_
    exact mem_singleton.mpr (of_decide_eq_true hname)
  unfold find
  rw [filter_append, filter_append, hnone before hbefore, hnone after hafter,
    nil_append, append_nil]

/-- A record of one field. -/
def field (name : String) (f : Field J α) : Record J α where
  names := [name]
  write a := (f.write a).toList.map fun j => (name, j)
  read fields := do f.read (← find name fields)
  readItems
    | [] => return (← f.read none, [])
    | j :: rest => return (← f.read (some j), rest)
  names_write a field hfield := by
    obtain ⟨j, -, rfl⟩ := mem_map.mp hfield
    exact mem_singleton_self name
  read_write a before after hbefore hafter := by
    have hfind : find name ((f.write a).toList.map fun j => (name, j)) = .ok (f.write a) := by
      cases f.write a with
      | none => rfl
      | some j => simp [find]
    rw [find_append hbefore hafter, hfind]
    exact f.read_write a

/-- The fields of a record and then those of another one. -/
def pair (r : Record J α) (s : Record J β) (h : ∀ name ∈ r.names, name ∉ s.names) :
    Record J (α × β) where
  names := r.names ++ s.names
  write p := r.write p.1 ++ s.write p.2
  read fields := do return (← r.read fields, ← s.read fields)
  readItems items := do
    let (a, rest) ← r.readItems items
    let (b, rest) ← s.readItems rest
    return ((a, b), rest)
  names_write p field hfield := by
    rcases mem_append.mp hfield with hr | hs
    · exact mem_append_left _ (r.names_write p.1 field hr)
    · exact mem_append_right _ (s.names_write p.2 field hs)
  read_write p before after hbefore hafter := by
    have hr : r.read (before ++ (r.write p.1 ++ s.write p.2) ++ after) = .ok p.1 := by
      have hsplit : before ++ (r.write p.1 ++ s.write p.2) ++ after =
          before ++ r.write p.1 ++ (s.write p.2 ++ after) := by
        simp only [append_assoc]
      rw [hsplit]
      refine r.read_write p.1 _ _ (fun field hfield hname => ?_) (fun field hfield hname => ?_)
      · exact hbefore field hfield (mem_append_left _ hname)
      · rcases mem_append.mp hfield with hs | ha
        · exact h _ hname (s.names_write p.2 field hs)
        · exact hafter field ha (mem_append_left _ hname)
    have hs : s.read (before ++ (r.write p.1 ++ s.write p.2) ++ after) = .ok p.2 := by
      rw [← append_assoc]
      refine s.read_write p.2 _ _ (fun field hfield hname => ?_) (fun field hfield hname => ?_)
      · rcases mem_append.mp hfield with hb | hr
        · exact hbefore field hb (mem_append_right _ hname)
        · exact h _ (r.names_write p.1 field hr) hname
      · exact hafter field hfield (mem_append_right _ hname)
    rw [hr, hs]
    rfl

/-- A type that is made of the parts of a record. -/
def map (r : Record J α) (make : α → β) (parts : β → α) (h : ∀ b, make (parts b) = b) :
    Record J β where
  names := r.names
  write b := r.write (parts b)
  read fields := (r.read fields).map make
  readItems items := (r.readItems items).map fun p => (make p.1, p.2)
  names_write b := r.names_write (parts b)
  read_write b before after hbefore hafter := by
    rw [r.read_write (parts b) before after hbefore hafter]
    exact congrArg Except.ok (h b)

/-- A record as a value of the format, which is read from an object or from an array. -/
def codec (object : List (String × J) → J)
    (unpack : J → Except String (List (String × J) ⊕ List J))
    (h : ∀ fields, unpack (object fields) = .ok (.inl fields)) (r : Record J α) : Codec J α where
  write a := object (r.write a)
  read j := do
    match ← unpack j with
    | .inl fields => r.read fields
    | .inr items =>
      match ← r.readItems items with
      | (a, []) => return a
      | _ => .error "trailing items"
  read_write a := by
    have hread := r.read_write a [] [] (by simp) (by simp)
    rw [nil_append, append_nil] at hread
    rw [h]
    exact hread

end Record

end RecordCodec
