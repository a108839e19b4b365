import Mathlib.Algebra.Group.Int.Defs
import Oxydra.Library.Fields
import Oxydra.Types.Model

/-!
# How a JSON text is read

A reader of JSON texts as RFC 8259 has them. Each part of it takes what it reads off the front of a
text, and nothing is read of a text that is not JSON. How the members of an object are put together
is a parameter; for `parse`, of two members with one name the last one counts.
-/

namespace Oxydra.Json

open Option List

variable {good : Char → Bool} {spelled : Char → List Char} {members : List (String × Value)}
  {ms : List Member} {m : Member} {s : String}

/-! ## Strings -/

/-- The character of an escape with one letter. -/
def escaped : Char → Option Char
  | '"' => some '"'
  | '\\' => some '\\'
  | '/' => some '/'
  | 'b' => some (Char.ofNat 0x08)
  | 'f' => some (Char.ofNat 0x0C)
  | 'n' => some '\n'
  | 'r' => some '\r'
  | 't' => some '\t'
  | _ => none

def hexValue (c : Char) : Option ℕ :=
  if c.isDigit then some (c.toNat - '0'.toNat)
  else if 'a' ≤ c ∧ c ≤ 'f' then some (c.toNat - 'a'.toNat + 10)
  else if 'A' ≤ c ∧ c ≤ 'F' then some (c.toNat - 'A'.toNat + 10)
  else none

/-- The four digits of a code unit. -/
def readUnit : List Char → Option (ℕ × List Char)
  | a :: b :: c :: d :: rest => do
    let unit := (((← hexValue a) * 16 + (← hexValue b)) * 16 + (← hexValue c)) * 16 + (← hexValue d)
    return (unit, rest)
  | _ => none

/-- The code units of a character, behind the first `\u`. -/
def readUnicode (cs : List Char) : Option (Char × List Char) := do
  let (unit, rest) ← readUnit cs
  if 0xD800 ≤ unit ∧ unit < 0xDC00 then
    let '\\' :: 'u' :: rest := rest | none
    let (low, rest) ← readUnit rest
    if 0xDC00 ≤ low ∧ low < 0xE000 then
      return (Char.ofNat (0x10000 + (unit - 0xD800) * 0x400 + (low - 0xDC00)), rest)
    else none
  else if 0xDC00 ≤ unit ∧ unit < 0xE000 then none
  else return (Char.ofNat unit, rest)

/-- The next character of a string, or nothing for the quote that ends it. -/
def readItem : List Char → Option (Option Char × List Char)
  | [] => none
  | '"' :: rest => some (none, rest)
  | '\\' :: 'u' :: rest => (readUnicode rest).map fun (c, rest) => (some c, rest)
  | '\\' :: c :: rest => (escaped c).map fun c => (some c, rest)
  | ['\\'] => none
  | c :: rest => if c.toNat < 0x20 then none else some (some c, rest)

/-- Whether a character stands in a string as it is. -/
def isPlain (c : Char) : Bool := c ≠ '"' && c ≠ '\\' && 0x20 ≤ c.toNat

theorem readItem_of_ne {c : Char} (h : c ≠ '"') (h' : c ≠ '\\') (rest : List Char) :
    readItem (c :: rest) = if 0x20 ≤ c.toNat then some (some c, rest) else none := by
  unfold readItem
  split
  case h_6 heq =>
    cases heq
    simp only [← Nat.not_le, ite_not]
  all_goals simp_all

/-- The rest of a string, of no more than so many characters. -/
def readChars : ℕ → List Char → Option (List Char × List Char)
  | 0, _ => none
  | fuel + 1, cs =>
    match readItem cs with
    | none => none
    | some (none, rest) => some ([], rest)
    | some (some c, rest) => (readChars fuel rest).map fun (s, rest) => (c :: s, rest)

/-- The rest of a string, behind the quote that starts it. -/
def readString (cs : List Char) : Option (String × List Char) :=
  (readChars (cs.length + 1) cs).map fun (s, rest) => (String.ofList s, rest)

/-- A string is read if each of its characters is, as it is spelled. -/
theorem readChars_flatMap {s : List Char}
    (h : ∀ c ∈ s, ∀ rest, readItem (spelled c ++ rest) =
      if good c then some (some c, rest) else none) {fuel : ℕ} (hfuel : s.length < fuel)
    (rest : List Char) :
    readChars fuel (s.flatMap spelled ++ '"' :: rest) =
      if s.all good then some (s, rest) else none := by
  induction s generalizing fuel with
  | nil =>
    obtain ⟨fuel, rfl⟩ := Nat.exists_eq_add_of_lt hfuel
    rfl
  | cons c s ih =>
    obtain ⟨fuel, rfl⟩ : ∃ n, fuel = n + 1 := Nat.exists_eq_add_one.mpr (by omega)
    obtain ⟨hc, hs⟩ := forall_mem_cons.mp h
    rw [readChars, flatMap_cons, append_assoc, hc, all_cons]
    cases good c with
    | false => rfl
    | true =>
      have hrest := @ih hs fuel (by simpa using hfuel)
      simp only [if_true, Bool.true_and, hrest]
      split_ifs <;> rfl

theorem length_le_flatMap {cs : List Char} (hne : ∀ c ∈ cs, spelled c ≠ []) :
    cs.length ≤ (cs.flatMap spelled).length := by
  induction cs with
  | nil => exact Nat.le_refl _
  | cons c cs ih =>
    obtain ⟨hc, hcs⟩ := forall_mem_cons.mp hne
    have hpos := length_pos_iff.mpr hc
    have hrest := ih hcs
    rw [flatMap_cons, length_append, length_cons]
    omega

/-- A string behind its first quote, if each character is spelled with one character at least. -/
theorem readString_flatMap (hne : ∀ c ∈ s.toList, spelled c ≠ [])
    (h : ∀ c ∈ s.toList, ∀ rest, readItem (spelled c ++ rest) =
      if good c then some (some c, rest) else none) (rest : List Char) :
    readString (s.toList.flatMap spelled ++ '"' :: rest) =
      if s.toList.all good then some (s, rest) else none := by
  have hlen := length_le_flatMap hne
  unfold readString
  rw [readChars_flatMap h (by rw [length_append]; omega)]
  split_ifs
  · exact congrArg some (Prod.ext String.ofList_toList rfl)
  · rfl

/-- A string of characters that stand in it as they are. -/
theorem readString_plain (h : s.toList.all isPlain = true) (rest : List Char) :
    readString (s.toList ++ '"' :: rest) = some (s, rest) := by
  have hitem : ∀ c ∈ s.toList, ∀ rest, readItem ([c] ++ rest) =
      if isPlain c then some (some c, rest) else none := by
    intro c hc rest
    have hplain := all_eq_true.mp h c hc
    rw [if_pos hplain]
    simp only [isPlain, Bool.and_eq_true, decide_eq_true_eq] at hplain
    obtain ⟨⟨hquote, hback⟩, hlow⟩ := hplain
    exact (readItem_of_ne hquote hback rest).trans (if_pos hlow)
  have hread := readString_flatMap (fun c _ => cons_ne_nil c []) hitem rest
  rwa [flatMap_singleton', if_pos h] at hread

/-! ## Numbers -/

/-- A run of digits, which is not empty. -/
def readDigits (cs : List Char) : Option (List Char × List Char) :=
  match cs.takeWhile Char.isDigit with
  | [] => none
  | digits => some (digits, cs.dropWhile Char.isDigit)

/-- What a point stands before. -/
def readFraction : List Char → Option (ℚ × List Char)
  | '.' :: rest => do
    let (digits, rest) ← readDigits rest
    return ((Nat.ofDigitChars 10 digits 0 : ℚ) / 10 ^ digits.length, rest)
  | rest => some (0, rest)

/-- The power of ten. -/
def readExponent : List Char → Option (ℚ × List Char)
  | 'e' :: '-' :: rest | 'E' :: '-' :: rest => do
    let (digits, rest) ← readDigits rest
    return (1 / 10 ^ Nat.ofDigitChars 10 digits 0, rest)
  | 'e' :: '+' :: rest | 'E' :: '+' :: rest | 'e' :: rest | 'E' :: rest => do
    let (digits, rest) ← readDigits rest
    return (10 ^ Nat.ofDigitChars 10 digits 0, rest)
  | rest => some (1, rest)

/-- A number that is not negative: an integer where no point and no power stands behind its digits. -/
def readMagnitude (cs : List Char) : Option (Number × List Char) := do
  let (whole, behind) ← readDigits cs
  if whole.head? = some '0' ∧ whole ≠ ['0'] then none
  else
    let (fraction, rest) ← readFraction behind
    let (power, rest) ← readExponent rest
    if rest = behind then return (.integer (Nat.ofDigitChars 10 whole 0), rest)
    else return (.float ((Nat.ofDigitChars 10 whole 0 + fraction) * power), rest)

/-- An integer that no `u64` and no `i64` holds is a float, and so is `-0`. -/
def readNumber : List Char → Option (Value × List Char)
  | '-' :: rest => (readMagnitude rest).map fun
    | (.integer n, rest) =>
      (.number (if 0 < n ∧ n ≤ 2^63 then .integer (-n) else .float (-n)), rest)
    | (.float x, rest) => (.number (.float (-x)), rest)
  | rest => (readMagnitude rest).map fun
    | (.integer n, rest) => (.number (if n < 2^64 then .integer n else .float n), rest)
    | (.float x, rest) => (.number (.float x), rest)

/-! ## Values -/

def isSpace (c : Char) : Bool := c = ' ' || c = '\t' || c = '\n' || c = '\r'

def skipSpace (cs : List Char) : List Char := cs.dropWhile isSpace

section

variable (put : String → Value → List (String × Value) → List (String × Value))

mutual

/-- A value, with no more than so many others in it. -/
def readValue : ℕ → List Char → Option (Value × List Char)
  | 0, _ => none
  | fuel + 1, cs =>
    match skipSpace cs with
    | '"' :: rest => (readString rest).map fun (s, rest) => (.string s, rest)
    | '\x7b' :: rest =>
      match skipSpace rest with
      | '\x7d' :: rest => some (.object [], rest)
      | rest => readMembers fuel [] rest
    | '[' :: rest =>
      match skipSpace rest with
      | ']' :: rest => some (.array [], rest)
      | rest => readElements fuel [] rest
    | 't' :: 'r' :: 'u' :: 'e' :: rest => some (.bool true, rest)
    | 'f' :: 'a' :: 'l' :: 's' :: 'e' :: rest => some (.bool false, rest)
    | 'n' :: 'u' :: 'l' :: 'l' :: rest => some (.null, rest)
    | rest => readNumber rest

/-- The rest of an object, behind the members that were read. -/
def readMembers : ℕ → List (String × Value) → List Char → Option (Value × List Char)
  | 0, _, _ => none
  | fuel + 1, fields, cs => do
    let '"' :: rest := skipSpace cs | none
    let (name, rest) ← readString rest
    let ':' :: rest := skipSpace rest | none
    let (v, rest) ← readValue fuel rest
    let fields := put name v fields
    match skipSpace rest with
    | ',' :: rest => readMembers fuel fields rest
    | '\x7d' :: rest => some (.object fields, rest)
    | _ => none

/-- The rest of an array, behind the elements that were read. -/
def readElements : ℕ → List Value → List Char → Option (Value × List Char)
  | 0, _, _ => none
  | fuel + 1, items, cs => do
    let (v, rest) ← readValue fuel cs
    let items := items ++ [v]
    match skipSpace rest with
    | ',' :: rest => readElements fuel items rest
    | ']' :: rest => some (.array items, rest)
    | _ => none

end

/-- The value of a JSON text. -/
def parseWith (cs : List Char) : Option Value :=
  match readValue put (cs.length + 1) cs with
  | some (v, rest) => if skipSpace rest = [] then some v else none
  | none => none

end

/-- The value of a JSON text, with the members of an object in key order. -/
def parse (cs : List Char) : Option Value := parseWith Fields.insert cs

/-! ## Objects -/

/-- A member as it is spelled, with its value, if that is read. -/
structure Member where
  name : String
  text : List Char
  value : Option Value

/-- The name is read as it stands, and the value is read of its text. -/
structure Member.IsRead (m : Member) : Prop where
  name : ∀ rest, readString (m.name.toList ++ '"' :: rest) = some (m.name, rest)
  value : ∀ fuel rest, readValue Fields.insert (fuel + 1) (m.text ++ rest) = m.value.map (·, rest)

/-- A string whose characters are spelled in some way; the good ones are read so. -/
def Member.ofString (name : String) (spelled : Char → List Char) (good : Char → Bool)
    (s : String) : Member where
  name := name
  text := '"' :: s.toList.flatMap spelled ++ ['"']
  value := if s.toList.all good then some (.string s) else none

theorem Member.isRead_ofString {name s : String} (hname : name.toList.all isPlain = true)
    (hne : ∀ c ∈ s.toList, spelled c ≠ [])
    (h : ∀ c ∈ s.toList, ∀ rest, readItem (spelled c ++ rest) =
      if good c then some (some c, rest) else none) :
    (Member.ofString name spelled good s).IsRead := by
  refine ⟨readString_plain hname, fun fuel rest => ?_⟩
  have htext : (Member.ofString name spelled good s).text ++ rest =
      '"' :: (s.toList.flatMap spelled ++ '"' :: rest) := by
    simp [Member.ofString]
  have hskip : ∀ cs, skipSpace ('"' :: cs) = '"' :: cs := fun _ => rfl
  rw [htext, readValue, hskip]
  simp only [readString_flatMap hne h]
  unfold Member.ofString
  split_ifs <;> rfl

/-- A member as it is written. -/
def Member.written (m : Member) : List Char := '"' :: m.name.toList ++ '"' :: ':' :: m.text

/-- The text of the members of an object, up to its end. -/
def membersText (m : Member) : List Member → List Char
  | [] => m.written ++ ['\x7d']
  | next :: ms => m.written ++ ',' :: membersText next ms

/-- The members, if their values are read. -/
def readOf (ms : List Member) : Option (List (String × Value)) :=
  ms.mapM fun m => m.value.map (m.name, ·)

theorem readOf_cons (m : Member) (ms : List Member) : readOf (m :: ms) = m.value.bind fun v =>
    (readOf ms).map ((m.name, v) :: ·) := by
  unfold readOf
  rw [mapM_cons]
  cases m.value with
  | none => rfl
  | some v =>
    rw [map_some, bind_some, bind_eq_bind, bind_some]
    exact map_eq_bind.symm

theorem isSome_readOf :
    (readOf ms).isSome ↔ ∀ m ∈ ms, m.value.isSome := by
  induction ms with
  | nil => exact iff_of_true rfl fun m hm => absurd hm not_mem_nil
  | cons m ms ih =>
    rw [readOf_cons, forall_mem_cons, ← ih]
    cases m.value with
    | none => simp
    | some v => simp

/-- The members that were read have the names in order. -/
theorem keys_readOf (h : readOf ms = some members) : Fields.keys members = ms.map Member.name := by
  induction ms generalizing members with
  | nil =>
    obtain rfl := some_inj.mp h
    rfl
  | cons m ms ih =>
    rw [readOf_cons] at h
    obtain ⟨v, -, hrest⟩ := bind_eq_some_iff.mp h
    obtain ⟨rest, hread, rfl⟩ := map_eq_some_iff.mp hrest
    exact congrArg (m.name :: ·) (ih hread)

/-- Under the name of a member its value was read. -/
theorem lookup_readOf (hnames : (ms.map Member.name).Nodup) (h : readOf ms = some members)
    (hm : m ∈ ms) :
    members.lookup m.name = m.value := by
  induction ms generalizing members with
  | nil => exact absurd hm not_mem_nil
  | cons first ms ih =>
    rw [readOf_cons] at h
    obtain ⟨v, hvalue, hrest⟩ := bind_eq_some_iff.mp h
    obtain ⟨rest, hread, rfl⟩ := map_eq_some_iff.mp hrest
    obtain ⟨hnot, hnames⟩ := nodup_cons.mp hnames
    rw [Fields.lookup_cons]
    obtain rfl | hm := mem_cons.mp hm
    · rw [if_pos rfl, hvalue]
    · rw [if_neg (ne_of_mem_of_not_mem (mem_map_of_mem hm) hnot), ih hnames hread hm]

/-- The fields of an object with these members. -/
def fieldsOf (members fields : List (String × Value)) : List (String × Value) :=
  members.foldl (fun fields member => Fields.insert member.1 member.2 fields) fields

/-- A member in front of others. -/
theorem readMembers_written (h : m.IsRead) (fuel : ℕ) (fields : List (String × Value))
    (rest : List Char) :
    readMembers Fields.insert (fuel + 2) fields (m.written ++ rest) = m.value.bind fun v =>
      match skipSpace rest with
      | ',' :: rest => readMembers Fields.insert (fuel + 1) (Fields.insert m.name v fields) rest
      | '\x7d' :: rest => some (.object (Fields.insert m.name v fields), rest)
      | _ => none := by
  have htext : m.written ++ rest = '"' :: (m.name.toList ++ '"' :: ':' :: (m.text ++ rest)) := by
    simp [Member.written]
  have hskip : ∀ cs, skipSpace ('"' :: cs) = '"' :: cs := fun _ => rfl
  have hskip' : ∀ cs, skipSpace (':' :: cs) = ':' :: cs := fun _ => rfl
  rw [readMembers, htext, hskip]
  simp only [h.name, h.value, hskip', bind_eq_bind, bind_some]
  cases m.value <;> rfl

/-- An object is read if the values of all its members are. -/
theorem readMembers_membersText (h : ∀ m' ∈ m :: ms, m'.IsRead) {fuel : ℕ}
    (hfuel : ms.length + 1 < fuel) (fields : List (String × Value)) (rest : List Char) :
    readMembers Fields.insert fuel fields (membersText m ms ++ rest) =
      (readOf (m :: ms)).map fun members => (.object (fieldsOf members fields), rest) := by
  induction ms generalizing m fuel fields with
  | nil =>
    obtain ⟨fuel, rfl⟩ := Nat.exists_eq_add_of_le (show 2 ≤ fuel by omega)
    rw [Nat.add_comm, membersText, append_assoc,
      readMembers_written (h m mem_cons_self)]
    cases hvalue : m.value with
    | none => simp [readOf, hvalue]
    | some v => simp [readOf, hvalue, fieldsOf, skipSpace, isSpace]
  | cons next ms ih =>
    obtain ⟨hm, hrest⟩ := forall_mem_cons.mp h
    obtain ⟨fuel, rfl⟩ := Nat.exists_eq_add_of_le (show 2 ≤ fuel by omega)
    have hlen : ms.length + 1 < fuel + 1 := by
      rw [length_cons] at hfuel
      omega
    have htext : membersText m (next :: ms) ++ rest =
        m.written ++ ',' :: (membersText next ms ++ rest) := by
      rw [membersText, append_assoc, cons_append]
    have hskip : ∀ cs, skipSpace (',' :: cs) = ',' :: cs := fun _ => rfl
    rw [Nat.add_comm, htext, readMembers_written hm, hskip]
    rw [readOf_cons m]
    cases m.value with
    | none => rfl
    | some v =>
      have hnext := ih hrest hlen (Fields.insert m.name v fields)
      rw [Option.bind_some, Option.bind_some, Option.map_map]
      exact hnext

/-- Of members with different names each is found. -/
theorem lookup_fieldsOf (h : (Fields.keys members).Nodup) (fields : List (String × Value))
    (key : String) :
    (fieldsOf members fields).lookup key = (members.lookup key).or (fields.lookup key) := by
  induction members generalizing fields with
  | nil => rfl
  | cons member members ih =>
    obtain ⟨name, v⟩ := member
    obtain ⟨hnot, hrest⟩ := nodup_cons.mp h
    have hfold : fieldsOf ((name, v) :: members) fields =
        fieldsOf members (Fields.insert name v fields) := rfl
    rw [hfold, ih hrest, Fields.lookup_insert, Fields.lookup_cons]
    split_ifs with hkey
    · rw [hkey, Fields.lookup_eq_none hnot]
      rfl
    · rfl

/-- The text of an object with some members. -/
theorem parse_object (h : ∀ m' ∈ m :: ms, m'.IsRead) :
    parse ('\x7b' :: membersText m ms) =
      (readOf (m :: ms)).map fun members => .object (fieldsOf members []) := by
  have hlen : ∀ (m : Member) (ms : List Member), ms.length + 1 < (membersText m ms).length := by
    intro m ms
    induction ms generalizing m with
    | nil =>
      simp only [membersText, Member.written, length_append, length_cons, length_nil]
      omega
    | cons next ms ih =>
      have hnext := ih next
      simp only [membersText, length_append, length_cons]
      omega
  have hread := readMembers_membersText h (Nat.lt_succ_of_lt (hlen m ms)) [] []
  rw [append_nil] at hread
  have hstart : ∃ rest, membersText m ms = '"' :: rest := by
    cases ms <;> exact ⟨_, rfl⟩
  obtain ⟨rest, hrest⟩ := hstart
  have hvalue : readValue Fields.insert (membersText m ms).length.succ.succ
      ('\x7b' :: membersText m ms) =
        readMembers Fields.insert (membersText m ms).length.succ [] (membersText m ms) := by
    rw [hrest]
    rfl
  unfold parse parseWith
  rw [length_cons, hvalue, hread]
  cases readOf (m :: ms) <;> rfl

/-- An object of members with different names is read if each of their values is, and these values
are found in it. -/
theorem parse_object_spec (h : ∀ m' ∈ m :: ms, m'.IsRead)
    (hnames : ((m :: ms).map Member.name).Nodup) :
    if ∀ m' ∈ m :: ms, m'.value.isSome then
      ∃ fields, parse ('\x7b' :: membersText m ms) = some (.object fields) ∧
        (∀ m' ∈ m :: ms, fields.lookup m'.name = m'.value) ∧
        ∀ name ∉ (m :: ms).map Member.name, fields.lookup name = none
    else parse ('\x7b' :: membersText m ms) = none := by
  rw [parse_object h]
  split_ifs with hvalues
  · obtain ⟨members, hread⟩ := isSome_iff_exists.mp (isSome_readOf.mpr hvalues)
    have hkeys := keys_readOf hread
    have hlookup : ∀ key, (fieldsOf members []).lookup key = members.lookup key := by
      intro key
      rw [lookup_fieldsOf (by rwa [hkeys]), lookup_nil, or_none]
    refine ⟨_, by rw [hread, map_some], fun m' hm' => ?_, fun name hname => ?_⟩
    · rw [hlookup, lookup_readOf hnames hread hm']
    · rw [hlookup, Fields.lookup_eq_none (by rwa [hkeys])]
  · rw [← isSome_readOf, not_isSome_iff_eq_none] at hvalues
    rw [hvalues, map_none]

example : parse "\x7b\"a\": [1, 2.5e1, \"\\u0041\\n\"], \"b\": null\x7d".toList =
    some (.object [("a", .array [.number 1, .number (.float 25), .string "A\n"]), ("b", .null)]) := by
  decide +kernel

end Oxydra.Json
