import Mathlib.Data.Nat.Bitwise
import Oxydra.Library.Text

/-!
# The bearer token of the web configurator

`constant_time_eq` and `auth_layer` of `crates/runner/src/web/middleware.rs`, with the token that
`resolve_auth_token` of `crates/types/src/runner.rs` gives. A header's value is its bytes.

The lengths are compared in their low byte only, and the shorter string is read as if zero bytes
followed it. `constantTimeEq_iff` says which strings are then taken for equal.
-/

namespace Oxydra

open Option List

variable {left right : List UInt8}

/-- `constant_time_eq`. -/
def constantTimeEq (left right : List UInt8) : Bool :=
  let max_len := max left.length right.length
  let diff := UInt8.ofNat (left.length ^^^ right.length)
  let diff := (List.range max_len).foldl (fun diff idx =>
    let left_byte := left[idx]?.getD 0
    let right_byte := right[idx]?.getD 0
    diff ||| (left_byte ^^^ right_byte)) diff
  diff == 0

/-- What the loop collects is zero if nothing in it is not. -/
theorem foldl_or_eq_zero (f : ℕ → UInt8) (idxs : List ℕ) (diff : UInt8) :
    idxs.foldl (fun diff idx => diff ||| f idx) diff = 0 ↔ diff = 0 ∧ ∀ idx ∈ idxs, f idx = 0 := by
  induction idxs generalizing diff with
  | nil => simp
  | cons idx idxs ih =>
    rw [foldl_cons, ih, UInt8.or_eq_zero_iff, forall_mem_cons, and_assoc]

/-- The byte of the lengths is zero where they agree in their low byte. -/
theorem ofNat_xor_eq_zero (m n : ℕ) : UInt8.ofNat (m ^^^ n) = 0 ↔ m % 256 = n % 256 := by
  have hbyte : UInt8.ofNat (m ^^^ n) = 0 ↔ (m ^^^ n) % 2 ^ 8 = 0 := by
    rw [← UInt8.toNat_inj, UInt8.toNat_ofNat']
    rfl
  rw [hbyte, Nat.xor_mod_two_pow, Nat.xor_eq_zero_iff]

theorem constantTimeEq_eq_true (left right : List UInt8) :
    constantTimeEq left right = true ↔ left.length % 256 = right.length % 256 ∧
      ∀ idx < max left.length right.length, left[idx]?.getD 0 = right[idx]?.getD 0 := by
  simp only [constantTimeEq, beq_iff_eq, foldl_or_eq_zero, ofNat_xor_eq_zero, mem_range,
    UInt8.xor_eq_zero_iff]

/-- Of two strings the longer one is the other with zero bytes behind it, if they agree wherever
one of them has a byte. -/
theorem eq_append_zeros_iff (hle : left.length ≤ right.length) :
    (∀ idx < max left.length right.length, left[idx]?.getD 0 = right[idx]?.getD 0) ↔
      right = left ++ List.replicate (right.length - left.length) 0 := by
  rw [Nat.max_eq_right hle]
  constructor
  · intro h
    apply ext_getElem
    · rw [length_append, length_replicate]
      omega
    · intro idx hidx _
      have hbyte := h idx hidx
      rw [List.getElem?_eq_getElem hidx, getD_some] at hbyte
      rw [← hbyte]
      obtain hlt | hge := Nat.lt_or_ge idx left.length
      · rw [getElem_append_left hlt, List.getElem?_eq_getElem hlt, getD_some]
      · rw [getElem_append_right hge, List.getElem?_eq_none hge, getElem_replicate]
        rfl
  · intro h idx hidx
    rw [h]
    obtain hlt | hge := Nat.lt_or_ge idx left.length
    · rw [List.getElem?_append_left hlt]
    · have hzero : idx - left.length < right.length - left.length := by omega
      rw [List.getElem?_append_right hge, List.getElem?_eq_none hge,
        List.getElem?_replicate_of_lt hzero]
      rfl

/-- The comparison, for a string and one that is not shorter. -/
theorem constantTimeEq_of_le (hle : left.length ≤ right.length) :
    constantTimeEq left right = true ↔ ∃ k, right = left ++ List.replicate (256 * k) 0 := by
  rw [constantTimeEq_eq_true, eq_append_zeros_iff hle]
  constructor
  · rintro ⟨hmod, hright⟩
    refine ⟨(right.length - left.length) / 256, ?_⟩
    have hdiv : 256 * ((right.length - left.length) / 256) = right.length - left.length := by
      omega
    rw [hdiv]
    exact hright
  · rintro ⟨k, hright⟩
    have hlen : right.length = left.length + 256 * k := by
      rw [hright, length_append, length_replicate]
    have hdiff : right.length - left.length = 256 * k := by omega
    refine ⟨by omega, ?_⟩
    rw [hdiff]
    exact hright

theorem constantTimeEq_comm (left right : List UInt8) :
    constantTimeEq left right = constantTimeEq right left := by
  rw [Bool.eq_iff_iff, constantTimeEq_eq_true, constantTimeEq_eq_true, max_comm,
    eq_comm (a := left.length % 256)]
  refine and_congr_right fun _ => forall₂_congr fun idx _ => ?_
  exact eq_comm

/-- `constant_time_eq` takes two strings for equal if one is the other with a multiple of 256 zero
bytes behind it. -/
theorem constantTimeEq_iff (left right : List UInt8) :
    constantTimeEq left right = true ↔
      ∃ k, right = left ++ List.replicate (256 * k) 0 ∨
        left = right ++ List.replicate (256 * k) 0 := by
  have hlonger : ∀ {a b : List UInt8} {k : ℕ}, a = b ++ List.replicate (256 * k) 0 →
      b.length ≤ a.length := by
    intro a b k h
    rw [h, length_append]
    omega
  rw [exists_or]
  constructor
  · intro h
    obtain hle | hle := Nat.le_total left.length right.length
    · exact .inl ((constantTimeEq_of_le hle).mp h)
    · exact .inr ((constantTimeEq_of_le hle).mp (constantTimeEq_comm left right ▸ h))
  · rintro (⟨k, h⟩ | ⟨k, h⟩)
    · exact (constantTimeEq_of_le (hlonger h)).mpr ⟨k, h⟩
    · exact constantTimeEq_comm left right ▸ (constantTimeEq_of_le (hlonger h)).mpr ⟨k, h⟩

/-- The comparison is that of the strings if neither is the other with 256 zero bytes behind it, or
512, and so on. -/
theorem constantTimeEq_iff_eq_iff (left right : List UInt8) :
    (constantTimeEq left right = true ↔ left = right) ↔
      ∀ k, 0 < k → right ≠ left ++ List.replicate (256 * k) 0 ∧
        left ≠ right ++ List.replicate (256 * k) 0 := by
  have hlonger : ∀ {a : List UInt8} {k : ℕ}, 0 < k → a ≠ a ++ List.replicate (256 * k) 0 := by
    intro a k hk h
    have hlen := congrArg List.length h
    rw [length_append, length_replicate] at hlen
    omega
  rw [constantTimeEq_iff]
  constructor
  · intro h k hk
    refine ⟨fun hright => ?_, fun hleft => ?_⟩
    · have heq := h.mp ⟨k, .inl hright⟩
      exact hlonger hk (heq ▸ hright)
    · have heq := h.mp ⟨k, .inr hleft⟩
      exact hlonger hk (heq ▸ hleft)
  · intro h
    refine ⟨?_, fun heq => ⟨0, .inl ?_⟩⟩
    · rintro ⟨k, hk⟩
      obtain rfl | hpos := Nat.eq_zero_or_pos k
      · simpa [eq_comm] using hk
      · exact absurd hk (not_or.mpr (h k hpos))
    · rw [heq]
      simp

/-- The empty string is taken for 256 zero bytes. -/
theorem constantTimeEq_zeros :
    ¬∀ left right, constantTimeEq left right = true ↔ left = right := by
  intro h
  have htrue : constantTimeEq [] (List.replicate 256 0) = true :=
    (constantTimeEq_iff _ _).mpr ⟨1, .inl rfl⟩
  have hlen := congrArg List.length ((h _ _).mp htrue)
  rw [length_replicate] at hlen
  exact absurd hlen (by decide)

/-! ## The requests that pass -/

inductive WebAuthMode where
  | disabled
  | token
  deriving DecidableEq

/-- `WebConfig`, as far as the token goes. -/
structure WebConfig where
  auth_mode : WebAuthMode
  auth_token_env : Option String
  auth_token : Option String

/-- `resolve_auth_token`: the variable of the environment comes first. -/
def WebConfig.resolveAuthToken (config : WebConfig) (env : String → Option String) :
    Option String :=
  if config.auth_mode ≠ .token then none
  else
    let given := do
      let value ← env (← config.auth_token_env)
      if Text.trim value ≠ "" then some value else none
    given.or (config.auth_token.filter fun value => Text.trim value ≠ "")

/-- `ApiError`, with its status. -/
structure ApiError where
  status : ℕ
  code : String
  message : String
  deriving DecidableEq

/-- `header_value_to_str`: of visible ASCII characters, blanks and tabs. -/
def headerValueToStr (value : List UInt8) : Option (List UInt8) :=
  if value.all fun b => (0x20 ≤ b && b < 0x7F) || b == 0x09 then some value else none

/-- `strip_prefix("Bearer ")`. -/
def stripBearer (auth : List UInt8) : Option (List UInt8) :=
  let bearer := "Bearer ".toUTF8.data.toList
  if bearer.isPrefixOf auth then some (auth.drop bearer.length) else none

/-- The token of an `Authorization` header, or nothing. -/
def providedToken (authorization : Option (List UInt8)) : List UInt8 :=
  ((authorization.bind headerValueToStr).bind stripBearer).getD []

/-- `auth_layer`: the answer to a request that it does not let through. -/
def authLayer (auth_token : Option String) (path : String) (authorization : Option (List UInt8)) :
    Option ApiError :=
  if !("/api/v1/".toList.isPrefixOf path.toList) then none
  else
    match auth_token with
    | none => none
    | some expected_token =>
      if !constantTimeEq expected_token.toUTF8.data.toList (providedToken authorization) then
        some ⟨401, "unauthorized", "missing or invalid bearer token"⟩
      else none

/-- A header's text has no zero byte. -/
theorem zero_notMem_headerValueToStr {value auth : List UInt8}
    (h : headerValueToStr value = some auth) : 0 ∉ auth := by
  unfold headerValueToStr at h
  split at h
  case isFalse => exact absurd h nofun
  case isTrue hall =>
    rw [← some.inj h]
    intro hzero
    have hvisible := all_eq_true.mp hall 0 hzero
    exact absurd hvisible (by decide)

/-- Nor has the provided token. -/
theorem zero_notMem_providedToken (authorization : Option (List UInt8)) :
    0 ∉ providedToken authorization := by
  unfold providedToken
  cases htoken : (authorization.bind headerValueToStr).bind stripBearer with
  | none => exact not_mem_nil
  | some token =>
    obtain ⟨auth, hauth, hstrip⟩ := bind_eq_some_iff.mp htoken
    obtain ⟨value, -, hvalue⟩ := bind_eq_some_iff.mp hauth
    obtain ⟨-, hdrop⟩ := ite_none_right_eq_some.mp hstrip
    rw [getD_some, ← some.inj hdrop]
    exact fun hzero => zero_notMem_headerValueToStr hvalue (mem_of_mem_drop hzero)

/-- A string without a zero byte is taken for another one if that is it, or it with a multiple of
256 zero bytes behind it. -/
theorem constantTimeEq_iff_of_notMem (hright : 0 ∉ right) :
    constantTimeEq left right = true ↔ ∃ k, left = right ++ List.replicate (256 * k) 0 := by
  rw [constantTimeEq_iff]
  constructor
  · rintro ⟨k, h | h⟩
    · obtain rfl | hpos := Nat.eq_zero_or_pos k
      · exact ⟨0, by simp [h]⟩
      · refine absurd ?_ hright
        rw [h]
        exact mem_append_right _ (mem_replicate.mpr ⟨by omega, rfl⟩)
    · exact ⟨k, h⟩
  · rintro ⟨k, h⟩
    exact ⟨k, .inr h⟩

/-- Where a token is expected, the requests let through are those with it, and those with the part
of it before 256 zero bytes, or 512, and so on, at its end. -/
theorem authLayer_eq_none_iff {path : String} (hpath : "/api/v1/".toList <+: path.toList)
    (expected_token : String) (authorization : Option (List UInt8)) :
    authLayer (some expected_token) path authorization = none ↔
      ∃ k, expected_token.toUTF8.data.toList =
        providedToken authorization ++ List.replicate (256 * k) 0 := by
  rw [← constantTimeEq_iff_of_notMem (zero_notMem_providedToken authorization), authLayer,
    isPrefixOf_iff_prefix.mpr hpath]
  simp

end Oxydra
