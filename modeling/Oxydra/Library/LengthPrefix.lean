import Mathlib.Data.List.Basic
import Mathlib.Tactic.NormNum

/-!
# Frames with a length in front

A stream of bytes in which each payload follows its length, which is four bytes, the most
significant first. `split` cuts a stream into the payloads that are complete and what is left, and
`split_frames` says that it gives back the payloads that were written.
-/

namespace LengthPrefix

open List

/-- The number that some bytes are, the most significant first. -/
def ofBytes (bytes : List UInt8) : ℕ := bytes.foldl (fun n byte => n * 256 + byte.toNat) 0

/-- The four bytes of a number. -/
def toBytes (n : ℕ) : List UInt8 :=
  [UInt8.ofNat (n / 2^24), UInt8.ofNat (n / 2^16), UInt8.ofNat (n / 2^8), UInt8.ofNat n]

/-- A payload after its length. -/
def frame (payload : List UInt8) : List UInt8 := toBytes payload.length ++ payload

/-- The first payload, if it is complete, and what follows it. -/
def first (bytes : List UInt8) : Option (List UInt8 × List UInt8) :=
  let rest := bytes.drop 4
  let length := ofBytes (bytes.take 4)
  if bytes.length < 4 ∨ rest.length < length then none
  else some (rest.take length, rest.drop length)

variable {bytes payload rest left : List UInt8}

/-- A payload takes at least its length from the stream. -/
theorem length_of_first (h : first bytes = some (payload, rest)) :
    rest.length + payload.length + 4 = bytes.length := by
  unfold first at h
  dsimp only at h
  split_ifs at h with hshort
  cases h
  simp only [length_drop, length_take] at hshort ⊢
  omega

/-- The complete payloads of a stream, and what is left. -/
def split (bytes : List UInt8) : List (List UInt8) × List UInt8 :=
  match _h : first bytes with
  | none => ([], bytes)
  | some (payload, rest) =>
    let (payloads, left) := split rest
    (payload :: payloads, left)
termination_by bytes.length
decreasing_by
  have hlength := length_of_first _h
  omega

theorem split_of_none (h : first bytes = none) : split bytes = ([], bytes) := by
  unfold split
  split
  · rfl
  · next heq => simp [h] at heq

theorem split_of_some (h : first bytes = some (payload, rest)) :
    split bytes = (payload :: (split rest).1, (split rest).2) := by
  rw [split]
  split
  · next heq => simp [h] at heq
  · next heq =>
    rw [h] at heq
    cases heq
    rfl

/-- Four bytes give back a number below `2^32`. -/
theorem ofBytes_toBytes {n : ℕ} (h : n < 2^32) : ofBytes (toBytes n) = n := by
  unfold ofBytes toBytes
  simp only [foldl_cons, foldl_nil, UInt8.toNat_ofNat']
  omega

/-- A payload that was written is the first of the stream. -/
theorem first_frame (h : payload.length < 2^32) (rest : List UInt8) :
    first (frame payload ++ rest) = some (payload, rest) := by
  have htake : (frame payload ++ rest).take 4 = toBytes payload.length := by
    simp [frame, toBytes]
  have hdrop : (frame payload ++ rest).drop 4 = payload ++ rest := by
    simp [frame, toBytes]
  unfold first
  rw [htake, hdrop, ofBytes_toBytes h]
  rw [if_neg (by simp [frame, toBytes]), take_left, drop_left]

/-- The payloads that were written are what a stream is cut into. -/
theorem split_frames {payloads : List (List UInt8)}
    (h : ∀ payload ∈ payloads, payload.length < 2^32) (hleft : first left = none) :
    split ((payloads.map frame).flatten ++ left) = (payloads, left) := by
  induction payloads with
  | nil => exact split_of_none hleft
  | cons payload payloads ih =>
    have hfirst := first_frame (h payload mem_cons_self)
      ((payloads.map frame).flatten ++ left)
    rw [map_cons, flatten_cons, append_assoc, split_of_some hfirst,
      ih fun other hother => h other (mem_cons_of_mem _ hother)]

end LengthPrefix
