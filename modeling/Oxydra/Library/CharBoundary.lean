import Oxydra.Library.Text

/-!
# Character boundaries

The bytes of a text that may be sliced at. A slice `&s[i..j]` panics where one of its ends is inside
a character, and `takeBytes` and `floorBoundary` find the last place before a byte where it does
not. There is always one among the last four bytes (`exists_boundary`).
-/

namespace Text

/-- A text can be cut after its first `n` bytes. -/
def IsCharBoundary (n : ℕ) (s : String) : Prop :=
  ∃ before after : String, s = before ++ after ∧ before.utf8ByteSize = n

theorem utf8ByteSize_cons (c : Char) (cs : List Char) :
    (String.ofList (c :: cs)).utf8ByteSize = c.utf8Size + (String.ofList cs).utf8ByteSize := by
  have hsplit : String.ofList (c :: cs) = String.singleton c ++ String.ofList cs := by
    rw [String.singleton_eq_ofList, ← String.ofList_append]
    rfl
  rw [hsplit, String.utf8ByteSize_append, String.utf8ByteSize_singleton]

/-- What is taken is a prefix of at most `n` bytes, and the next character does not fit. -/
theorem takeBytes_spec (n : ℕ) (cs : List Char) :
    ∃ rest, cs = takeBytes n cs ++ rest ∧
      (String.ofList (takeBytes n cs)).utf8ByteSize ≤ n ∧
      ∀ c ∈ rest.head?, n < (String.ofList (takeBytes n cs)).utf8ByteSize + c.utf8Size := by
  induction cs generalizing n with
  | nil => exact ⟨[], rfl, Nat.zero_le n, nofun⟩
  | cons c cs ih =>
    rw [takeBytes]
    split_ifs with hfits
    · obtain ⟨rest, hrest, hle, hnext⟩ := ih (n - c.utf8Size)
      refine ⟨rest, congrArg (c :: ·) hrest, ?_, fun d hd => ?_⟩
      · rw [utf8ByteSize_cons]
        omega
      · have hlt := hnext d hd
        rw [utf8ByteSize_cons]
        omega
    · refine ⟨c :: cs, rfl, Nat.zero_le n, fun d hd => ?_⟩
      cases hd
      have hzero : (String.ofList []).utf8ByteSize = 0 := rfl
      omega

/-- A prefix of a text is what is taken of its bytes. -/
theorem takeBytes_append (before after : List Char) :
    takeBytes (String.ofList before).utf8ByteSize (before ++ after) = before := by
  induction before with
  | nil =>
    cases after with
    | nil => rfl
    | cons c after => exact if_neg (by have := c.utf8Size_pos; simp; omega)
  | cons c before ih =>
    rw [List.cons_append, takeBytes, utf8ByteSize_cons, if_pos (Nat.le_add_right _ _),
      Nat.add_sub_cancel_left, ih]

/-- `&s[..n]` is the prefix of `n` bytes. -/
theorem sliceTo_eq_some_iff {n : ℕ} {s head : String} :
    sliceTo n s = some head ↔ ∃ tail, s = head ++ tail ∧ head.utf8ByteSize = n := by
  unfold sliceTo
  dsimp only
  constructor
  · intro h
    split_ifs at h with hsize
    cases h
    obtain ⟨rest, hrest, -, -⟩ := takeBytes_spec n s.toList
    refine ⟨String.ofList rest, ?_, hsize⟩
    rw [← String.ofList_append, ← hrest, String.ofList_toList]
  · rintro ⟨tail, rfl, rfl⟩
    have htaken : String.ofList (takeBytes head.utf8ByteSize (head ++ tail).toList) = head := by
      have happend := takeBytes_append head.toList tail.toList
      rw [String.ofList_toList] at happend
      rw [String.toList_append, happend, String.ofList_toList]
    rw [htaken, if_pos rfl]

/-- `&s[..n]` does not panic exactly at a boundary. -/
theorem isSome_sliceTo_iff {n : ℕ} {s : String} : (sliceTo n s).isSome ↔ IsCharBoundary n s := by
  rw [Option.isSome_iff_exists]
  constructor
  · rintro ⟨head, h⟩
    obtain ⟨tail, hs, hsize⟩ := sliceTo_eq_some_iff.mp h
    exact ⟨head, tail, hs, hsize⟩
  · rintro ⟨head, tail, hs, hsize⟩
    exact ⟨head, sliceTo_eq_some_iff.mpr ⟨tail, hs, hsize⟩⟩

instance (n : ℕ) (s : String) : Decidable (IsCharBoundary n s) :=
  decidable_of_iff _ isSome_sliceTo_iff

/-- The two ends of a text are boundaries. -/
theorem isCharBoundary_zero (s : String) : IsCharBoundary 0 s :=
  ⟨"", s, String.empty_append.symm, rfl⟩

theorem isCharBoundary_end (s : String) : IsCharBoundary s.utf8ByteSize s :=
  ⟨s, "", String.append_empty.symm, rfl⟩

/-- Among the last four bytes before any byte there is a boundary. -/
theorem exists_boundary {n : ℕ} {s : String} (h : n ≤ s.utf8ByteSize) :
    ∃ b ≤ n, n < b + 4 ∧ IsCharBoundary b s := by
  obtain ⟨rest, hrest, hle, hnext⟩ := takeBytes_spec n s.toList
  have hs : s = String.ofList (takeBytes n s.toList) ++ String.ofList rest := by
    rw [← String.ofList_append, ← hrest, String.ofList_toList]
  refine ⟨_, hle, ?_, _, _, hs, rfl⟩
  cases rest with
  | nil =>
    have hall := congrArg String.utf8ByteSize hs
    rw [String.utf8ByteSize_append] at hall
    have hzero : (String.ofList []).utf8ByteSize = 0 := rfl
    omega
  | cons c rest =>
    have hlt := hnext c rfl
    have hfour := c.utf8Size_le_four
    omega

theorem utf8ByteSize_replicate (k : ℕ) (c : Char) :
    (String.ofList (List.replicate k c)).utf8ByteSize = k * c.utf8Size := by
  induction k with
  | zero => rw [Nat.zero_mul]; rfl
  | succ k ih => rw [List.replicate_succ, utf8ByteSize_cons, ih, Nat.succ_mul, Nat.add_comm]

/-- In a text of one character, the boundaries are the multiples of its size. -/
theorem isCharBoundary_replicate {n k : ℕ} {c : Char}
    (h : IsCharBoundary n (String.ofList (List.replicate k c))) : c.utf8Size ∣ n := by
  obtain ⟨before, after, hsplit, rfl⟩ := h
  have hlists := congrArg String.toList hsplit
  rw [String.toList_ofList, String.toList_append] at hlists
  have hbefore := (List.append_eq_replicate_iff.mp hlists.symm).2.1
  rw [← String.ofList_toList (s := before), hbefore, utf8ByteSize_replicate]
  exact Nat.dvd_mul_left _ _

/-- Of two ways to split a text, the one with the longer first part splits the second part of the
other. -/
theorem exists_between {before after head tail : String} (h : before ++ after = head ++ tail)
    (hle : before.utf8ByteSize ≤ head.utf8ByteSize) :
    ∃ mid, head = before ++ mid ∧ after = mid ++ tail := by
  have hlists : before.toList ++ after.toList = head.toList ++ tail.toList := by
    rw [← String.toList_append, ← String.toList_append, h]
  rcases List.append_eq_append_iff.mp hlists with ⟨mid, hhead, hafter⟩ | ⟨mid, hbefore, htail⟩
  · refine ⟨String.ofList mid, String.toList_injective ?_, String.toList_injective ?_⟩
    · rw [hhead, String.toList_append, String.toList_ofList]
    · rw [hafter, String.toList_append, String.toList_ofList]
  · -- the first part of the other is no longer, so nothing is between them
    have hsame : before = head ++ String.ofList mid := by
      refine String.toList_injective ?_
      rw [hbefore, String.toList_append, String.toList_ofList]
    rw [hsame, String.utf8ByteSize_append] at hle
    have hempty : String.ofList mid = "" := String.utf8ByteSize_eq_zero_iff.mp (by omega)
    have hmid : mid = [] := by simpa using hempty
    subst hmid
    refine ⟨"", ?_, String.toList_injective ?_⟩
    · rw [hsame, hempty, String.append_empty, String.append_empty]
    · rw [String.empty_append, htail, List.nil_append]

/-! ## Slices -/

/-- `&s[i..j]`, which panics where an end is inside a character, past the end, or the ends are in
the wrong order. -/
def slice (i j : ℕ) (s : String) : Option String := do
  let head ← sliceTo j s
  let before ← sliceTo i head
  return String.ofList (head.toList.drop before.toList.length)

/-- A slice is what stands between its ends. -/
theorem slice_eq_some_iff {i j : ℕ} {s mid : String} :
    slice i j s = some mid ↔ ∃ before after, s = before ++ mid ++ after ∧
      before.utf8ByteSize = i ∧ before.utf8ByteSize + mid.utf8ByteSize = j := by
  unfold slice
  constructor
  · intro h
    obtain ⟨head, hhead, h⟩ := Option.bind_eq_some_iff.mp h
    obtain ⟨before, hbefore, hmid⟩ := Option.bind_eq_some_iff.mp h
    obtain ⟨after, rfl, rfl⟩ := sliceTo_eq_some_iff.mp hhead
    obtain ⟨mid', rfl, rfl⟩ := sliceTo_eq_some_iff.mp hbefore
    rw [String.toList_append, List.drop_left, String.ofList_toList] at hmid
    cases hmid
    exact ⟨before, after, rfl, rfl, String.utf8ByteSize_append.symm⟩
  · rintro ⟨before, after, rfl, rfl, rfl⟩
    have hhead : sliceTo (before.utf8ByteSize + mid.utf8ByteSize) (before ++ mid ++ after) =
        some (before ++ mid) :=
      sliceTo_eq_some_iff.mpr ⟨after, rfl, String.utf8ByteSize_append⟩
    have hbefore : sliceTo before.utf8ByteSize (before ++ mid) = some before :=
      sliceTo_eq_some_iff.mpr ⟨mid, rfl, rfl⟩
    rw [hhead, Option.bind_eq_bind, Option.bind_some, hbefore, Option.bind_some,
      String.toList_append, List.drop_left, String.ofList_toList]
    rfl

/-- The last boundary from `low` on that is not after byte `n`, or `low`. -/
def floorBoundary (low : ℕ) (s : String) : ℕ → ℕ
  | 0 => 0
  | n + 1 => if low < n + 1 ∧ ¬IsCharBoundary (n + 1) s then floorBoundary low s n else n + 1

/-- No boundary up to `n` is passed over. -/
theorem floorBoundary_spec {low n : ℕ} {s : String} (hlow : IsCharBoundary low s) (hle : low ≤ n) :
    IsCharBoundary (floorBoundary low s n) s ∧ floorBoundary low s n ≤ n ∧
      ∀ b ≤ n, IsCharBoundary b s → b ≤ floorBoundary low s n := by
  induction n with
  | zero =>
    obtain rfl := Nat.le_zero.mp hle
    exact ⟨hlow, le_refl 0, fun b hb _ => hb⟩
  | succ n ih =>
    rw [floorBoundary]
    split_ifs with hinside
    · obtain ⟨hboundary, hfloor, hlast⟩ := ih (by omega)
      refine ⟨hboundary, by omega, fun b hb hcut => hlast b ?_ hcut⟩
      have hne : b ≠ n + 1 := fun h => hinside.2 (h ▸ hcut)
      omega
    · refine ⟨?_, le_refl _, fun b hb _ => hb⟩
      rcases not_and_or.mp hinside with hnlt | hcut
      · have heq : low = n + 1 := by omega
        exact heq ▸ hlow
      · exact not_not.mp hcut

end Text
