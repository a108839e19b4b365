import Oxydra.Library.ShellReader

/-!
# The argument that a word stands for

A word of characters that are data and of parameters in double quotes, each given by its name alone,
is passed on as one text: the characters stand for themselves, and a parameter for its value. Any
other word has no argument here.
-/

namespace Shell

open List

variable (env : List Char → List Char)

/-- What is put in for a `$` and the name after it. -/
def parameter : Option (List Char) → List Char
  | none => []
  | some [] => ['$']
  | some name => env name

/-- The argument of a word, after the start of a parameter's name. -/
def expand : Option (List Char) → Word → Option (List Char)
  | name, [] => some (parameter env name)
  | some name, (c, .quotedExpansion) :: w =>
    if Kind.of c = .letter ∨ Kind.of c = .digit then expand (some (name ++ [c])) w else none
  | name, (_, .dollar) :: w => (expand (some []) w).map (parameter env name ++ ·)
  | name, x :: w =>
    if x.2.isData then (expand none w).map (parameter env name ++ own x ++ ·) else none

/-- The argument of a text that is one word. -/
def argument (dollarQuotes : Bool) (text : List Char) : Option (List Char) :=
  let word : Word := read (Reader.start dollarQuotes) text
  let ending := after (Reader.start dollarQuotes) text
  if ending.inside = [] ∧ ending.escaped = false ∧ word.isPresent then expand env none word
  else none

variable {env}

theorem expand_data {x : Char × Role} (h : x.2.isData = true) (name : Option (List Char))
    (w : Word) :
    expand env name (x :: w) = (expand env none w).map (parameter env name ++ own x ++ ·) := by
  obtain ⟨c, role⟩ := x
  cases role <;> first | (cases name <;> rfl) | exact absurd h Bool.false_ne_true

/-- Data stands for itself. -/
theorem expand_append {w w' : Word} (h : w.all (fun x => x.2.isData) = true) :
    expand env none (w ++ w') = (expand env none w').map (w.flatMap own ++ ·) := by
  induction w with
  | nil => exact Option.map_id'.symm
  | cons x w ih =>
    obtain ⟨hx, hw⟩ := Bool.and_eq_true_iff.mp h
    rw [cons_append, expand_data hx, ih hw, Option.map_map]
    refine congrFun (congrArg _ (funext fun text => ?_)) _
    rw [Function.comp_apply, flatMap_cons, append_assoc, append_assoc]
    rfl

/-! ## Templates -/

variable (env) in
/-- Read from a state that it leads back to, a part of a script stands for a text. -/
structure Expands (r : Reader) (written text : List Char) : Prop where
  back : after r written = r
  stands : ∀ w, expand env none (read r written ++ w) = (expand env none w).map (text ++ ·)

theorem Expands.nil {r : Reader} : Expands env r [] [] :=
  ⟨rfl, fun _ => Option.map_id'.symm⟩

theorem Expands.append {r : Reader} {a b s t : List Char} (ha : Expands env r a s)
    (hb : Expands env r b t) : Expands env r (a ++ b) (s ++ t) := by
  refine ⟨by rw [after_append, ha.back, hb.back], fun w => ?_⟩
  rw [read_append, ha.back, append_assoc, ha.stands, hb.stands, Option.map_map]
  refine congrFun (congrArg _ (funext fun text => ?_)) _
  exact (append_assoc s t text).symm

/-- A part that is data. -/
theorem Expands.data {r : Reader} {a s : List Char} (hback : after r a = r)
    (hdata : (read r a).all (fun x => x.2.isData) = true) (htext : (read r a).flatMap own = s) :
    Expands env r a s :=
  ⟨hback, fun w => by rw [expand_append hdata, htext]⟩

/-- An argument that is escaped character by character. -/
theorem Expands.flatMap {r : Reader} {f g : Char → List Char} {cs : List Char}
    (h : ∀ c ∈ cs, Expands env r (f c) (g c)) : Expands env r (cs.flatMap f) (cs.flatMap g) := by
  induction cs with
  | nil => exact .nil
  | cons c cs ih =>
    obtain ⟨hc, hcs⟩ := forall_mem_cons.mp h
    rw [flatMap_cons, flatMap_cons]
    exact hc.append (ih hcs)

end Shell
