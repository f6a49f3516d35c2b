import Mathlib.Data.List.Basic
import Mathlib.Tactic.Common

/-! Consistent Overhead Byte Stuffing. The encoder is the streaming one: a block is closed as soon as
it holds 254 bytes, even when nothing follows. Frames are given without their 0x00 terminator.
Independent of any program. -/
namespace AssetTracker.Lib.Cobs

def block (b : List UInt8) : List UInt8 := UInt8.ofNat (b.length + 1) :: b

/-- `b` holds the bytes put in the open block so far. -/
def encodeFrom : List UInt8 → List UInt8 → List UInt8
  | b, [] => block b
  | b, x :: xs =>
    if x = 0 then block b ++ encodeFrom [] xs
    else if b.length + 1 = 254 then block (b ++ [x]) ++ encodeFrom [] xs
    else encodeFrom (b ++ [x]) xs

def encode (xs : List UInt8) : List UInt8 := encodeFrom [] xs

def pendingZero (z : Bool) : List UInt8 := if z then [0] else []

/-- `i` bytes of the current block are still to come, and `z` tells whether a zero follows the block
if another one does. A zero code byte ends the frame; a frame that ends inside a block is invalid. -/
def decodeFrom : Nat → Bool → List UInt8 → Option (List UInt8)
  | 0, _, [] => some []
  | _ + 1, _, [] => none
  | i + 1, z, x :: xs => (decodeFrom i z xs).map (x :: ·)
  | 0, z, code :: xs =>
    if code = 0 then some []
    else (decodeFrom (code.toNat - 1) (code ≠ 255) xs).map (pendingZero z ++ ·)

def decode (xs : List UInt8) : Option (List UInt8) := decodeFrom 0 false xs

theorem decodeFrom_block (b : List UInt8) (z : Bool) (rest : List UInt8) :
    decodeFrom b.length z (b ++ rest) = (decodeFrom 0 z rest).map (b ++ ·) := by
  induction b with
  | nil => simp
  | cons x b ih => simp [decodeFrom, ih, Function.comp_def]

theorem code_toNat {n : Nat} (h : n ≤ 254) : (UInt8.ofNat (n + 1)).toNat = n + 1 := by
  simp only [UInt8.toNat_ofNat']
  omega

theorem code_ne_zero {n : Nat} (h : n ≤ 254) : UInt8.ofNat (n + 1) ≠ 0 := by
  intro he
  have ht := code_toNat h
  rw [he] at ht
  simp at ht

theorem code_eq_255 {n : Nat} (h : n ≤ 254) : UInt8.ofNat (n + 1) = 255 ↔ n = 254 := by
  constructor
  · intro he
    have ht := code_toNat h
    rw [he] at ht
    change 255 = n + 1 at ht
    omega
  · intro hn
    subst hn
    rfl

theorem decodeFrom_closed (b : List UInt8) (z : Bool) (rest : List UInt8) (h : b.length ≤ 254) :
    decodeFrom 0 z (block b ++ rest) =
      (decodeFrom 0 (b.length ≠ 254) rest).map (pendingZero z ++ b ++ ·) := by
  have hc := code_eq_255 h
  rw [block, List.cons_append, decodeFrom, if_neg (code_ne_zero h), code_toNat h,
    Nat.add_sub_cancel, decodeFrom_block]
  simp only [ne_eq, hc, Option.map_map, Function.comp_def, List.append_assoc]

theorem decodeFrom_encodeFrom (xs b : List UInt8) (z : Bool) (h : b.length ≤ 253) :
    decodeFrom 0 z (encodeFrom b xs) = some (pendingZero z ++ b ++ xs) := by
  induction xs generalizing b z with
  | nil =>
    have hb := decodeFrom_closed b z [] (by omega)
    simpa [encodeFrom, decodeFrom] using hb
  | cons x xs ih =>
    by_cases hx : x = 0
    · have hn : b.length ≠ 254 := by omega
      rw [encodeFrom, if_pos hx, decodeFrom_closed b z _ (by omega), ih [] _ (by simp)]
      simp [hn, hx, pendingZero]
    · by_cases hf : b.length + 1 = 254
      · have hl : (b ++ [x]).length = 254 := by simpa using hf
        rw [encodeFrom, if_neg hx, if_pos hf, decodeFrom_closed _ z _ (by omega), ih [] _ (by simp)]
        simp [hl, pendingZero]
      · have hl : (b ++ [x]).length ≤ 253 := by
          simp only [List.length_append, List.length_singleton]
          omega
        rw [encodeFrom, if_neg hx, if_neg hf, ih _ z hl]
        simp

theorem decode_encode (xs : List UInt8) : decode (encode xs) = some xs := by
  simpa [decode, encode, pendingZero] using decodeFrom_encodeFrom xs [] false (by simp)

theorem zero_not_mem_block {b : List UInt8} (h : b.length ≤ 254) (hb : 0 ∉ b) : 0 ∉ block b := by
  simpa [block, hb] using (code_ne_zero h).symm

theorem zero_not_mem_encodeFrom (xs b : List UInt8) (h : b.length ≤ 253) (hb : 0 ∉ b) :
    0 ∉ encodeFrom b xs := by
  induction xs generalizing b with
  | nil => exact zero_not_mem_block (by omega) hb
  | cons x xs ih =>
    have hopen := ih [] (by simp) (by simp)
    by_cases hx : x = 0
    · rw [encodeFrom, if_pos hx, List.mem_append, not_or]
      exact ⟨zero_not_mem_block (by omega) hb, hopen⟩
    · have hb' : 0 ∉ b ++ [x] := by simpa [hb] using Ne.symm hx
      have hl : (b ++ [x]).length = b.length + 1 := by simp
      by_cases hf : b.length + 1 = 254
      · rw [encodeFrom, if_neg hx, if_pos hf, List.mem_append, not_or]
        exact ⟨zero_not_mem_block (by omega) hb', hopen⟩
      · rw [encodeFrom, if_neg hx, if_neg hf]
        exact ih _ (by omega) hb'

/-- The body of a frame holds no terminator. -/
theorem zero_not_mem_encode (xs : List UInt8) : 0 ∉ encode xs :=
  zero_not_mem_encodeFrom xs [] (by simp) (by simp)

theorem length_encodeFrom (xs b : List UInt8) (h : b.length ≤ 253) :
    254 * (encodeFrom b xs).length ≤ 255 * (b.length + xs.length) + 254 := by
  induction xs generalizing b with
  | nil =>
    simp only [encodeFrom, block, List.length_cons, List.length_nil]
    omega
  | cons x xs ih =>
    have hopen := ih [] (by simp)
    simp only [List.length_nil, Nat.zero_add] at hopen
    by_cases hx : x = 0
    · rw [encodeFrom, if_pos hx]
      simp only [block, List.length_append, List.length_cons]
      omega
    · by_cases hf : b.length + 1 = 254
      · rw [encodeFrom, if_neg hx, if_pos hf]
        simp only [block, List.length_append, List.length_cons, List.length_nil]
        omega
      · have hl : (b ++ [x]).length = b.length + 1 := by simp
        have hi := ih (b ++ [x]) (by omega)
        rw [encodeFrom, if_neg hx, if_neg hf]
        simp only [List.length_cons]
        omega

/-- One byte of overhead, and one more for every 254 bytes. -/
theorem length_encode (xs : List UInt8) : 254 * (encode xs).length ≤ 255 * xs.length + 254 := by
  simpa [encode] using length_encodeFrom xs [] (by simp)

theorem encodeFrom_append_zero (xs b : List UInt8) :
    encodeFrom b (xs ++ [0]) = encodeFrom b xs ++ [1] := by
  induction xs generalizing b with
  | nil => rfl
  | cons x xs ih =>
    simp only [List.cons_append, encodeFrom, ih]
    split_ifs <;> simp

theorem encode_append_zero (xs : List UInt8) : encode (xs ++ [0]) = encode xs ++ [1] :=
  encodeFrom_append_zero xs []

end AssetTracker.Lib.Cobs
