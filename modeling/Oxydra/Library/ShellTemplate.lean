import Oxydra.Library.ShellReader

/-!
# Scripts with arguments

A template is a script that is put together from fixed texts and from arguments that are escaped in
some way. Its arguments are read as data where a shell reads the fixed texts as it does with plain
arguments in their place, and every character of an argument only adds to a word.
-/

namespace Shell

open List

/-- A part of a script. -/
inductive Piece where
  | fixed (text : String)
  | argument (value : String)
  deriving DecidableEq, Repr

/-- A script, its parts in order. -/
abbrev Template := List Piece

section

variable (escape : String → List Char)

/-- A part as it is written. -/
def Piece.written : Piece → List Char
  | .fixed text => text.toList
  | .argument value => escape value

/-- The script. -/
def Template.text (t : Template) : String := String.ofList (t.flatMap (Piece.written escape))

/-- Read from two states, with other arguments in the second reading: the fixed texts are read
alike, and the arguments of the first are data. -/
def ReadsAlike (other : String → String) : Reader → Reader → Template → Prop
  | _, _, [] => True
  | r, r', .fixed text :: t =>
    read r text.toList = read r' text.toList ∧
      ReadsAlike other (after r text.toList) (after r' text.toList) t
  | r, r', .argument value :: t =>
    (∀ x ∈ read r (escape value), x.2.isData = true) ∧
      ReadsAlike other (after r (escape value)) (after r' (escape (other value))) t

/-- A text of letters and digits. -/
def IsPlain (s : String) : Prop := ∀ c ∈ s.toList, Kind.of c = .letter ∨ Kind.of c = .digit

/-- With any plain texts in the place of its arguments, the script is read alike. -/
def ReadsAsData (dollarQuotes : Bool) (t : Template) : Prop :=
  ∀ other : String → String, (∀ value, IsPlain (other value)) →
    ReadsAlike escape other (Reader.start dollarQuotes) (Reader.start dollarQuotes) t

end

section

variable {escape : String → List Char} {other : String → String} {r r' r₁ r₂ : Reader}
  {text value : String} {s s' t : Template} {P Q : Prop}

variable (escape other) in
/-- A part of a script leads from one state of the reader to another, in both readings, exactly
where `P` holds; elsewhere the readings differ. -/
def Leads (r : Reader) (s : Template) (r' : Reader) (P : Prop) : Prop :=
  ∀ t, ReadsAlike escape other r r (s ++ t) ↔ P ∧ ReadsAlike escape other r' r' t

theorem Leads.nil : Leads escape other r [] r True := fun t => by
  rw [nil_append, true_and]

theorem Leads.congr (h : Leads escape other r s r' P) (hiff : P ↔ Q) :
    Leads escape other r s r' Q := fun t => by rw [h, hiff]

/-- A fixed text needs nothing. -/
theorem Leads.fixed (h : after r text.toList = r') :
    Leads escape other r [.fixed text] r' True := fun t => by
  rw [singleton_append, ReadsAlike, h, true_and]
  exact and_iff_right rfl

/-- Nor does an argument that is data and ends where plain texts do. -/
theorem Leads.argument (hdata : ∀ x ∈ read r (escape value), x.2.isData = true)
    (h : after r (escape value) = r') (h' : after r (escape (other value)) = r') :
    Leads escape other r [.argument value] r' True := fun t => by
  rw [singleton_append, ReadsAlike, h, h', true_and]
  exact and_iff_right hdata

theorem Leads.append (r₁ : Reader) (h : Leads escape other r s r₁ P)
    (h' : Leads escape other r₁ s' r₂ Q) : Leads escape other r (s ++ s') r₂ (P ∧ Q) := fun t => by
  rw [append_assoc, h, h', and_assoc]

/-- A part that needs nothing at the end. -/
theorem Leads.andThen (h : Leads escape other r s r₁ P) (h' : Leads escape other r₁ s' r₂ True) :
    Leads escape other r (s ++ s') r₂ P := fun t => by
  rw [append_assoc, h, h', true_and]

/-- A part that needs nothing in front. -/
theorem Leads.after (r₁ : Reader) (h : Leads escape other r s r₁ True)
    (h' : Leads escape other r₁ s' r₂ P) : Leads escape other r (s ++ s') r₂ P := fun t => by
  rw [append_assoc, h, h', true_and]

/-- Parts that need nothing and end where they begin, in any number, and a separator that does. -/
theorem Leads.joined {separator : Template} (hseparator : Leads escape other r separator r True) :
    ∀ {parts : List Template}, (∀ s ∈ parts, Leads escape other r s r True) →
      Leads escape other r (parts.intersperse separator).flatten r True
  | [], _ => .nil
  | [s], h => by simpa using h s mem_cons_self
  | s :: s' :: parts, h => by
    rw [intersperse_cons_cons, flatten_cons, flatten_cons]
    exact (h s mem_cons_self).after _ (hseparator.after _
      (hseparator.joined fun t ht => h t (mem_cons_of_mem s ht)))

/-- A whole script is read alike exactly where it needs be. -/
theorem Leads.readsAlike_iff (h : Leads escape other r s r' P) :
    ReadsAlike escape other r r s ↔ P := by
  have h := h []
  rwa [append_nil, ReadsAlike, and_true] at h

/-- What a script needs with some plain texts it needs with any. -/
theorem readsAsData_iff {dollarQuotes : Bool} (h : ∀ other : String → String,
    (∀ value, IsPlain (other value)) → Leads escape other (Reader.start dollarQuotes) s r' P) :
    ReadsAsData escape dollarQuotes s ↔ P := by
  refine ⟨fun hdata => ?_, fun hP other hother => (h other hother).readsAlike_iff.mpr hP⟩
  have hplain : IsPlain "a" := fun c hc => by
    rw [show "a".toList = ['a'] from rfl, mem_singleton] at hc
    rw [hc]
    exact Or.inl rfl
  exact (h _ fun _ => hplain).readsAlike_iff.mp (hdata _ fun _ => hplain)

/-- Where the readings of the first part differ, so do those of the text. -/
theorem read_append_ne {a b : List Char} (h : read r a ≠ read r' a) :
    read r (a ++ b) ≠ read r' (a ++ b) := by
  rw [read_append, read_append]
  refine fun heq => h (append_inj heq ?_).1
  rw [length_read, length_read]

/-- Where the first part is read alike and leads to one state, the text is read alike. -/
theorem read_append_eq {a b : List Char} (hread : read r a = read r' a)
    (h : after r a = after r' a) : read r (a ++ b) = read r' (a ++ b) ∧
      after r (a ++ b) = after r' (a ++ b) := by
  rw [read_append, read_append, after_append, after_append, hread, h]
  exact ⟨rfl, rfl⟩

/-! ## Texts that are put together -/

theorem toList_between {s : String} {a : List Char} (hs : s.toList = a) (n : String)
    (b : List Char) : (s ++ n ++ String.ofList b).toList = a ++ n.toList ++ b := by
  rw [String.toList_append, String.toList_append, hs, String.toList_ofList]

/-- The state after a text whose characters are known. -/
theorem after_toList {l : List Char} (htext : text.toList = l) (h : after r l = r') :
    after r text.toList = r' := by rw [htext, h]

end

end Shell
