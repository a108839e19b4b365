import Mathlib.Data.List.DropRight
import Mathlib.Tactic.IntervalCases
import Oxydra.Library.ShellReader

/-!
# Which characters a shell's operators are made of

A control operator is one of five characters, and a text without the characters of the others has
no redirection and no substitution. A word stands for its own text where nothing is put into it.
-/

namespace Shell

open List

/-! ## Kinds -/

/-- The character of a kind that has only one. -/
def Kind.sole : Kind → Option Char
  | .backslash => '\\'
  | .apostrophe => '\''
  | .quote => '"'
  | .backquote => '`'
  | .dollar => '$'
  | .opening => '('
  | .closing => ')'
  | .newline => '\n'
  | .semicolon => ';'
  | .ampersand => '&'
  | .bar => '|'
  | .colon => ':'
  | _ => none

theorem Kind.eq_of_sole {c d : Char} (h : (Kind.of c).sole = some d) : c = d := by
  unfold Kind.of at h
  split_ifs at h
  · cases h
  · cases h
  · unfold ofSign at h
    split at h <;> first | exact Option.some_inj.mp h | cases h

theorem Kind.decide_colon (c : Char) : decide (c = ':') = decide (Kind.of c = .colon) := by
  rw [decide_eq_decide]
  exact ⟨fun h => by rw [h]; rfl, fun h => Kind.eq_of_sole (by rw [h]; rfl)⟩

/-- The characters that redirect. -/
theorem Kind.of_angle {c : Char} (h : Kind.of c = .angle) : c = '<' ∨ c = '>' := by
  unfold Kind.of at h
  split_ifs at h
  unfold ofSign at h
  split at h <;> first | decide | cases h

/-- The characters of control operators. -/
theorem Kind.of_control {c : Char}
    (h : Kind.of c ∈ [Kind.opening, .closing, .semicolon, .ampersand, .bar]) :
    c ∈ [';', '&', '|', '(', ')'] := by
  simp only [mem_cons, not_mem_nil, or_false] at h ⊢
  obtain h | h | h | h | h := h
  · simp [Kind.eq_of_sole (d := '(') (by rw [h]; rfl)]
  · simp [Kind.eq_of_sole (d := ')') (by rw [h]; rfl)]
  · simp [Kind.eq_of_sole (d := ';') (by rw [h]; rfl)]
  · simp [Kind.eq_of_sole (d := '&') (by rw [h]; rfl)]
  · simp [Kind.eq_of_sole (d := '|') (by rw [h]; rfl)]

/-- A digit means nothing else. -/
theorem Kind.of_digit {c : Char} (h : c.isDigit = true) : Kind.of c = .digit := by
  obtain ⟨hlow, hhigh⟩ := Char.isDigit_iff_toNat.mp h
  have hchar : c = Char.ofNat c.toNat := (Char.ofNat_toNat c).symm
  have hlow : 48 ≤ c.toNat := hlow
  have hhigh : c.toNat ≤ 57 := hhigh
  rw [hchar]
  generalize c.toNat = n at hlow hhigh
  interval_cases n <;> rfl

/-! ## Steps -/

namespace Reader

variable {r : Reader} {k : Kind}

/-- Nothing is expanded where no `$` and no name is in front. -/
theorem afterDollar_eq_none {quoted : Bool} (h : r.last ≠ .dollar) (h' : r.last ≠ .name) :
    r.afterDollar k quoted = none := by
  unfold afterDollar
  split <;> first | rfl | simp_all

/-- What a `$` makes of the next character. -/
theorem afterDollar_cases {quoted : Bool} {x : Role × Reader}
    (h : r.afterDollar k quoted = some x) : r.last = .dollar ∧ k = .opening ∨
      x.1 = .ofParameter quoted ∧ (x.2.last = .other ∨ x.2.last = .name) ∧
        (x.2.inside = r.inside ∨ x.2.inside = .braces quoted :: r.inside) := by
  unfold afterDollar at h
  split at h <;> simp at h
  all_goals (obtain rfl := h; simp [enter, passed, *])

/-- Neither a redirection nor a substitution has been begun. -/
structure IsSimple (r : Reader) : Prop where
  last : r.last ≠ .angle
  inside : ∀ place bracket, .parens place bracket ∉ r.inside

/-- What a step does that begins neither. -/
structure StepsSimply (k : Kind) (x : Role × Reader) : Prop where
  redirection : x.1 ≠ .redirection
  substitution : x.1 ≠ .substitution
  isSimple : x.2.IsSimple
  dollar : x.2.last = .dollar → k = .dollar

section

variable {role : Role} {r' : Reader} {e : Enclosure}

theorem ofParameter_simple (quoted : Bool) :
    Role.ofParameter quoted ≠ .redirection ∧ Role.ofParameter quoted ≠ .substitution := by
  cases quoted <;> decide

/-- The enclosure is the same, or the innermost has been left. -/
theorem StepsSimply.keep (hr : r.IsSimple) (hrole : role ≠ .redirection ∧ role ≠ .substitution)
    (hlast : r'.last = .other) (hinside : r'.inside ⊆ r.inside) : StepsSimply k (role, r') := by
  refine ⟨hrole.1, hrole.2, ⟨?_, fun place bracket hmem => ?_⟩, ?_⟩
  · show r'.last ≠ .angle
    rw [hlast]
    decide
  · exact hr.inside place bracket (hinside hmem)
  · intro hdollar
    rw [show r'.last = .dollar from hdollar] at hlast
    exact nomatch hlast

/-- Quotes, braces or a comment are begun. -/
theorem StepsSimply.enter (hr : r.IsSimple) (hrole : role ≠ .redirection ∧ role ≠ .substitution)
    (he : ∀ place bracket, e ≠ .parens place bracket) (hinside : r'.inside = r.inside) :
    StepsSimply k (role, r'.enter e) := by
  refine ⟨hrole.1, hrole.2, ⟨nofun, fun place bracket hmem => ?_⟩, nofun⟩
  obtain h | h := mem_cons.mp hmem
  · exact he place bracket h.symm
  · rw [hinside] at h
    exact hr.inside place bracket h

/-- A `$` waits for the next character. -/
theorem StepsSimply.dollarSign (hr : r.IsSimple) (hinside : r'.inside = r.inside) :
    StepsSimply .dollar (.dollar, { r' with last := .dollar }) := by
  refine ⟨nofun, nofun, ⟨nofun, fun place bracket hmem => ?_⟩, fun _ => rfl⟩
  have hmem : .parens place bracket ∈ r'.inside := hmem
  rw [hinside] at hmem
  exact hr.inside place bracket hmem

/-- A character of the word is read. -/
theorem StepsSimply.grown (hr : r.IsSimple) (hrole : role ≠ .redirection ∧ role ≠ .substitution) :
    StepsSimply k (role, r.grown k) := by
  have hlast : (r.grown k).last ≠ .angle ∧ (r.grown k).last ≠ .dollar := by
    unfold Reader.grown
    split_ifs <;> exact ⟨nofun, nofun⟩
  exact ⟨hrole.1, hrole.2, ⟨hlast.1, hr.inside⟩, fun h => absurd h hlast.2⟩

/-- What a `$` makes of the next character begins neither, unless that is a parenthesis. -/
theorem StepsSimply.afterDollar {quoted : Bool} {x : Role × Reader} (hr : r.IsSimple)
    (hpair : r.last = .dollar → k ≠ .opening) (hx : StepsSimply k x) :
    StepsSimply k ((r.afterDollar k quoted).getD x) := by
  cases h : r.afterDollar k quoted with
  | none => exact hx
  | some y =>
    obtain ⟨hd, ho⟩ | ⟨hrole, hlast, hinside⟩ := afterDollar_cases h
    · exact absurd ho (hpair hd)
    · have hparens : ∀ place bracket, .parens place bracket ∉ y.2.inside := by
        obtain h | h := hinside <;> rw [h]
        · exact hr.inside
        · intro place bracket
          rw [mem_cons, not_or]
          exact ⟨by simp, hr.inside place bracket⟩
      have hsimple := ofParameter_simple quoted
      rw [← hrole] at hsimple
      refine ⟨hsimple.1, hsimple.2, ⟨?_, hparens⟩, ?_⟩
      · obtain h | h := hlast <;> rw [Option.getD_some, h] <;> decide
      · obtain h | h := hlast <;> rw [Option.getD_some, h] <;> nofun

end

theorem apostrophe_ne (place : Place) (bracket : Bracket) :
    r.apostrophe ≠ .parens place bracket := by
  unfold apostrophe
  split_ifs <;> simp

theorem stepsSimply_stepPlain (hr : r.IsSimple) (hangle : k ≠ .angle) (hback : k ≠ .backquote) :
    StepsSimply k (r.stepPlain k) := by
  have hsubset := List.Subset.refl r.inside
  unfold stepPlain
  cases k
  case closing =>
    dsimp only
    split
    · rename_i place bracket rest hin
      exact absurd (by rw [hin]; exact mem_cons_self) (hr.inside place bracket)
    · exact .keep hr (by decide) rfl hsubset
  case hash =>
    dsimp only
    split_ifs
    · exact .enter hr (by decide) (by simp) rfl
    · exact .grown hr (by decide)
  case tilde | endBracket => dsimp only; split_ifs <;> exact .grown hr (by decide)
  case apostrophe => exact .enter hr (by decide) apostrophe_ne rfl
  case quote => exact .enter hr (by decide) (by simp) rfl
  case ampersand | bar =>
    rw [if_neg hr.last]
    exact .keep hr (by decide) rfl hsubset
  case angle => exact absurd rfl hangle
  case backquote => exact absurd rfl hback
  case dollar => exact .dollarSign hr rfl
  all_goals first
    | exact .grown hr (by decide)
    | exact .keep hr (by decide) rfl hsubset

/-- A step at a character that begins neither a redirection nor a substitution. -/
theorem stepsSimply_stepKind (hr : r.IsSimple) (hangle : k ≠ .angle) (hback : k ≠ .backquote)
    (hpair : r.last = .dollar → k ≠ .opening) : StepsSimply k (r.stepKind k) := by
  have hsubset := List.Subset.refl r.inside
  have htail : r.inside.tail ⊆ r.inside := fun _ => mem_of_mem_tail
  have hbare : StepsSimply k (r.stepBare k) := by
    unfold stepBare
    split_ifs
    · exact .keep hr (by decide) rfl hsubset
    · exact .keep hr (by decide) rfl hsubset
    · exact (stepsSimply_stepPlain hr hangle hback).afterDollar hr hpair
  unfold stepKind
  split
  · split_ifs
    · exact .keep hr (by decide) rfl htail
    · exact .keep hr (by decide) rfl hsubset
  · split_ifs
    · exact .keep hr (by decide) rfl htail
    · exact .keep hr (by decide) rfl hsubset
  · unfold stepEscapes
    split_ifs
    · exact .keep hr (by decide) rfl hsubset
    · split
      · exact .keep hr (by decide) rfl hsubset
      · exact .keep hr (by decide) rfl htail
      · exact .keep hr (by decide) rfl hsubset
  · unfold stepDouble
    split_ifs
    · split <;> exact .keep hr (by decide) rfl hsubset
    · refine .afterDollar hr hpair ?_
      split
      · exact .keep hr (by decide) rfl hsubset
      · exact .keep hr (by decide) rfl htail
      · exact absurd rfl hback
      · exact .dollarSign hr rfl
      · exact .keep hr (by decide) rfl hsubset
  · rename_i quoted _ _
    have hrole := ofParameter_simple quoted
    unfold stepBraces
    split_ifs
    · exact .keep hr hrole rfl hsubset
    all_goals
      refine .afterDollar hr hpair ?_
      split
      · exact .keep hr hrole rfl hsubset
      · first
          | exact .keep hr hrole rfl hsubset
          | exact .enter hr (by decide) apostrophe_ne rfl
      · exact .enter hr (by decide) (by simp) rfl
      · exact absurd rfl hback
      · exact .dollarSign hr rfl
      · exact .keep hr hrole rfl htail
      · exact .keep hr hrole rfl hsubset
  · exact hbare
  · exact hbare

/-- Only these kinds are control operators. -/
theorem stepKind_control (h : (r.stepKind k).1 = .control) :
    k ∈ [Kind.opening, .closing, .semicolon, .ampersand, .bar] := by
  have hdollar : ∀ {quoted : Bool} {x : Role × Reader}, x.1 ≠ .control →
      ((r.afterDollar k quoted).getD x).1 ≠ .control := by
    intro quoted x hx
    unfold afterDollar
    split <;> cases quoted <;> simp [Role.ofParameter, hx]
  have hbare : (r.stepBare k).1 = .control →
      k ∈ [Kind.opening, .closing, .semicolon, .ampersand, .bar] := by
    intro h
    by_contra hk
    unfold stepBare at h
    split_ifs at h
    refine hdollar ?_ h
    unfold stepPlain
    cases k <;> first | exact absurd (by decide) hk | (dsimp only; split_ifs <;> simp) | simp
  unfold stepKind at h
  split at h
  · split_ifs at h
  · split_ifs at h
  · unfold stepEscapes at h
    split_ifs at h
    split at h <;> exact nomatch h
  · unfold stepDouble at h
    split_ifs at h
    · split at h <;> exact nomatch h
    · refine absurd h (hdollar ?_)
      split <;> simp
  · rename_i quoted _ _
    unfold stepBraces at h
    split_ifs at h
    · cases quoted <;> exact nomatch h
    all_goals
      refine absurd h (hdollar ?_)
      cases quoted <;> split <;> simp [Role.ofParameter]
  · exact hbare h
  · exact hbare h

end Reader

/-- Only these characters are control operators. -/
theorem mem_of_control {cs : List Char} {r : Reader} :
    ∀ x ∈ read r cs, x.2 = .control → x.1 ∈ [';', '&', '|', '(', ')'] := by
  induction cs generalizing r with
  | nil => exact fun x hx => absurd hx not_mem_nil
  | cons c cs ih =>
    intro x hx hrole
    rw [read] at hx
    obtain rfl | hx := mem_cons.mp hx
    · exact Kind.of_control (Reader.stepKind_control hrole)
    · exact ih x hx hrole

/-- A text without `<`, `>`, a backquote and `$(` has no redirection and no substitution. -/
theorem simple_of_free (cs : List Char) {r : Reader} (hr : r.IsSimple)
    (hfree : ∀ c ∈ cs, c ≠ '<' ∧ c ≠ '>' ∧ c ≠ '`') (hpair : ¬['$', '('] <:+: cs)
    (hlast : r.last = .dollar → cs.head? ≠ some '(') :
    ∀ x ∈ read r cs, x.2 ≠ .redirection ∧ x.2 ≠ .substitution := by
  induction cs generalizing r with
  | nil => exact fun x hx => absurd hx not_mem_nil
  | cons c cs ih =>
    have hc := hfree c mem_cons_self
    have hstep : Reader.StepsSimply (Kind.of c) (r.step c) := by
      refine Reader.stepsSimply_stepKind hr ?_ ?_ ?_
      · exact fun h => (Kind.of_angle h).elim hc.1 hc.2.1
      · exact fun h => hc.2.2 (Kind.eq_of_sole (by rw [h]; rfl))
      · intro hd ho
        rw [Kind.eq_of_sole (c := c) (d := '(') (by rw [ho]; rfl)] at hlast
        exact hlast hd rfl
    intro x hx
    rw [read] at hx
    obtain rfl | hx := mem_cons.mp hx
    · exact ⟨hstep.redirection, hstep.substitution⟩
    · refine ih hstep.isSimple (fun c' hc' => hfree c' (mem_cons_of_mem _ hc')) ?_ ?_ x hx
      · exact fun h => hpair (h.trans (suffix_cons c cs).isInfix)
      · intro hd hhead
        cases cs with
        | nil => cases hhead
        | cons c' cs' =>
          have hdollar : c = '$' := Kind.eq_of_sole (by rw [hstep.dollar hd]; rfl)
          rw [hdollar, Option.some_inj.mp hhead] at hpair
          exact hpair ⟨[], cs', rfl⟩

/-! ## The texts of a word -/

/-- The text of a word in which nothing is put. -/
def Word.text (w : Word) : List Char := w.flatMap own

/-- What follows the last character that something is put for. -/
def Word.fixedEnd (w : Word) : Word := w.rtakeWhile fun x => !x.2.varies

theorem stands_append {a b : Word} {s t : List Char} (ha : Stands a s) (hb : Stands b t) :
    Stands (a ++ b) (s ++ t) := by
  induction ha with
  | nil => exact hb
  | own hx _ ih => rw [append_assoc]; exact .own hx ih
  | put value hx _ ih => rw [append_assoc]; exact .put value hx ih

/-- A word of which nothing varies stands for its text. -/
theorem stands_text {w : Word} (hw : ∀ x ∈ w, x.2.varies = false) : Stands w w.text := by
  induction w with
  | nil => exact .nil
  | cons x w ih =>
    exact .own (hw x mem_cons_self) (ih fun y hy => hw y (mem_cons_of_mem _ hy))

/-- It stands for nothing else. -/
theorem Stands.eq_text {w : Word} {t : List Char} (h : Stands w t)
    (hw : ∀ x ∈ w, x.2.varies = false) : t = w.text := by
  induction h with
  | nil => rfl
  | own _ _ ih =>
    rw [ih fun y hy => hw y (mem_cons_of_mem _ hy)]
    rfl
  | put _ hx _ _ =>
    rw [hw _ mem_cons_self] at hx
    exact Bool.noConfusion hx

theorem exists_stands : ∀ w : Word, ∃ t, Stands w t
  | [] => ⟨[], .nil⟩
  | x :: w => by
    obtain ⟨t, ht⟩ := exists_stands w
    cases hx : x.2.varies
    · exact ⟨_, .own hx ht⟩
    · exact ⟨_, .put [] hx ht⟩

/-- The texts of the second part stand at the end. -/
theorem Stands.append_inv {a b : Word} {t : List Char} (h : Stands (a ++ b) t) :
    ∃ s u, t = s ++ u ∧ Stands b u := by
  induction a generalizing t with
  | nil => exact ⟨[], t, rfl, h⟩
  | cons x a ih =>
    cases h with
    | own _ ht =>
      obtain ⟨s, u, rfl, hu⟩ := ih ht
      exact ⟨_, u, (append_assoc ..).symm, hu⟩
    | put value _ ht =>
      obtain ⟨s, u, rfl, hu⟩ := ih ht
      exact ⟨_, u, (append_assoc ..).symm, hu⟩

theorem Word.varies_fixedEnd (w : Word) : ∀ x ∈ w.fixedEnd, x.2.varies = false := by
  intro x hx
  have h := mem_rtakeWhile_imp hx
  rwa [Bool.not_eq_true'] at h

/-- Every text of a word ends as the word does. -/
theorem Stands.fixedEnd {w : Word} {t : List Char} (h : Stands w t) :
    ∃ s, t = s ++ w.fixedEnd.text := by
  rw [← rdropWhile_append_rtakeWhile (p := fun x => !x.2.varies) (l := w)] at h
  obtain ⟨s, u, rfl, hu⟩ := h.append_inv
  exact ⟨s, by rw [hu.eq_text w.varies_fixedEnd]; rfl⟩

/-- Where something varies, anything may stand in front of that end. -/
theorem exists_stands_fixedEnd {w : Word} (hw : ¬∀ x ∈ w, x.2.varies = false) :
    ∃ s, ∀ value, Stands w (s ++ (value ++ w.fixedEnd.text)) := by
  have hne : w.rdropWhile (fun x => !x.2.varies) ≠ [] := by
    rw [Ne, rdropWhile_eq_nil_iff]
    simpa using hw
  have hlast := rdropWhile_last_not _ _ hne
  -- the last character that varies, and what is before and after it
  have hsplit : w = (w.rdropWhile fun x => !x.2.varies).dropLast ++
      (w.rdropWhile fun x => !x.2.varies).getLast hne :: w.fixedEnd := by
    rw [append_cons, dropLast_append_getLast hne, Word.fixedEnd,
      rdropWhile_append_rtakeWhile]
  obtain ⟨s, hs⟩ := exists_stands (w.rdropWhile fun x => !x.2.varies).dropLast
  refine ⟨s, fun value => ?_⟩
  have hend := stands_append hs
    (.put value (by simpa using hlast) (stands_text w.varies_fixedEnd))
  rwa [← hsplit] at hend

end Shell
