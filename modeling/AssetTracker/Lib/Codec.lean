import AssetTracker.Lib.Bounded
import Mathlib.Tactic.Ring

/-! Self-delimiting byte codecs. A codec carries its own round trip: decoding what was encoded gives
the value back and leaves the bytes behind it untouched. Varints, pairs, counted sequences and text
are built from smaller codecs; each has a bound on its encoded length. Independent of any program. -/
namespace AssetTracker.Lib
open Bounded

structure Codec (α : Type) where
  encode : α → List UInt8
  decode : List UInt8 → Option (α × List UInt8)
  decode_encode : ∀ a rest, decode (encode a ++ rest) = some (a, rest)

namespace Codec
variable {α β : Type} {n m k : Nat}

/-- Every value takes at most `n` bytes. -/
def Within (c : Codec α) (n : Nat) : Prop := ∀ a, (c.encode a).length ≤ n

def byte : Codec UInt8 where
  encode b := [b]
  decode
    | [] => none
    | b :: rest => some (b, rest)
  decode_encode _ _ := rfl

theorem byte_within : byte.Within 1 := fun _ => le_refl 1

/-- Values of `β` stored as values of `α`; reading back may reject an `α` that stands for none. -/
def convert (c : Codec α) (store : β → α) (load : α → Option β)
    (h : ∀ b, load (store b) = some b) : Codec β where
  encode b := c.encode (store b)
  decode bytes := do
    let (a, rest) ← c.decode bytes
    let b ← load a
    pure (b, rest)
  decode_encode b rest := by simp [c.decode_encode, h]

@[simp] theorem convert_encode (c : Codec α) (store : β → α) (load : α → Option β)
    (h : ∀ b, load (store b) = some b) (b : β) :
    (c.convert store load h).encode b = c.encode (store b) := rfl

theorem convert_within {c : Codec α} {store : β → α} {load : α → Option β}
    {h : ∀ b, load (store b) = some b} (hc : c.Within n) : (c.convert store load h).Within n :=
  fun b => hc (store b)

def pair (c : Codec α) (d : Codec β) : Codec (α × β) where
  encode p := c.encode p.1 ++ d.encode p.2
  decode bytes := do
    let (a, rest) ← c.decode bytes
    let (b, rest) ← d.decode rest
    pure ((a, b), rest)
  decode_encode p rest := by simp [c.decode_encode, d.decode_encode]

@[simp] theorem pair_encode (c : Codec α) (d : Codec β) (p : α × β) :
    (c.pair d).encode p = c.encode p.1 ++ d.encode p.2 := rfl

theorem pair_within {c : Codec α} {d : Codec β} (hc : c.Within n) (hd : d.Within m) :
    (c.pair d).Within (n + m) := by
  intro p
  have h1 := hc p.1
  have h2 := hd p.2
  simp only [pair, List.length_append]
  omega

/-- Seven bits a byte, lowest first, the high bit set on every byte but the last; at most `k` bytes. -/
def varintBytes : Nat → Nat → List UInt8
  | 0, _ => []
  | k + 1, v => if v < 128 then [UInt8.ofNat v] else UInt8.ofNat (v % 128 + 128) :: varintBytes k (v / 128)

/-- The last admissible byte may not exceed `last`, nor may it announce another one. -/
def varintValue (last : Nat) : Nat → List UInt8 → Option (Nat × List UInt8)
  | 0, _ => none
  | _ + 1, [] => none
  | k + 1, b :: rest =>
    if b.toNat < 128 then
      if k = 0 ∧ last < b.toNat then none else some (b.toNat, rest)
    else do
      let (v, rest) ← varintValue last k rest
      pure (b.toNat - 128 + 128 * v, rest)

theorem toNat_ofNat_of_lt {v : Nat} (h : v < 256) : (UInt8.ofNat v).toNat = v := by
  simpa using h

theorem varintBytes_length (k v : Nat) : (varintBytes k v).length ≤ k := by
  induction k generalizing v with
  | zero => exact Nat.le_refl 0
  | succ k ih =>
    by_cases hv : v < 128
    · simp [varintBytes, hv]
    · simpa [varintBytes, hv] using ih (v / 128)

theorem varintValue_bytes {last : Nat} (hlast : last < 128) (k v : Nat) (rest : List UInt8)
    (hv : v < (last + 1) * 128 ^ k) :
    varintValue last (k + 1) (varintBytes (k + 1) v ++ rest) = some (v, rest) := by
  induction k generalizing v with
  | zero =>
    have hle : v < 128 := by omega
    have hb := toNat_ofNat_of_lt (show v < 256 by omega)
    have hn : ¬ last < v := by omega
    simp [varintBytes, varintValue, hle, hb, hn]
  | succ k ih =>
    by_cases hs : v < 128
    · have hb := toNat_ofNat_of_lt (show v < 256 by omega)
      simp [varintBytes, varintValue, hs, hb]
    · have hb := toNat_ofNat_of_lt (show v % 128 + 128 < 256 by omega)
      have hq : v / 128 < (last + 1) * 128 ^ k := by
        apply Nat.div_lt_of_lt_mul
        calc
          v < (last + 1) * 128 ^ (k + 1) := hv
          _ = 128 * ((last + 1) * 128 ^ k) := by ring
      have hcont : ¬ (v % 128 + 128 < 128) := by omega
      rw [varintBytes, if_neg hs, List.cons_append, varintValue, hb, if_neg hcont, ih _ hq]
      simp only [Option.bind_eq_bind, Option.bind_some, Option.pure_def, Option.some.injEq,
        Prod.mk.injEq, and_true]
      omega

/-- Varints of at most `k + 1` bytes, the last of them at most `last`. -/
def varint (k last : Nat) (hlast : last < 128) : Codec (Fin ((last + 1) * 128 ^ k)) where
  encode v := varintBytes (k + 1) v
  decode bytes := do
    let (v, rest) ← varintValue last (k + 1) bytes
    if h : v < (last + 1) * 128 ^ k then pure (⟨v, h⟩, rest) else none
  decode_encode v rest := by
    simp [varintValue_bytes hlast k v rest v.isLt]

theorem varint_within {last : Nat} (hlast : last < 128) : (varint k last hlast).Within (k + 1) :=
  fun v => varintBytes_length (k + 1) v

def times (c : Codec α) : Nat → List UInt8 → Option (List α × List UInt8)
  | 0, bytes => some ([], bytes)
  | n + 1, bytes => do
    let (a, rest) ← c.decode bytes
    let (l, rest) ← times c n rest
    pure (a :: l, rest)

theorem times_encode (c : Codec α) (l : List α) (rest : List UInt8) :
    c.times l.length (l.flatMap c.encode ++ rest) = some (l, rest) := by
  induction l with
  | nil => rfl
  | cons a l ih => simp [times, c.decode_encode, ih]

theorem flatMap_within {c : Codec α} (hc : c.Within n) (l : List α) :
    (l.flatMap c.encode).length ≤ l.length * n := by
  induction l with
  | nil => simp
  | cons a l ih =>
    have ha := hc a
    simp only [List.flatMap_cons, List.length_append, List.length_cons]
    calc
      (c.encode a).length + (l.flatMap c.encode).length ≤ n + l.length * n := by omega
      _ = (l.length + 1) * n := by ring

/-- A count followed by that many items; more than `n` items are rejected. -/
def bvec (count : Codec (Fin m)) (item : Codec α) (h : n < m) : Codec (BVec α n) where
  encode v := count.encode ⟨v.toList.length, Nat.lt_of_le_of_lt v.fits h⟩ ++
    v.toList.flatMap item.encode
  decode bytes := do
    let (len, rest) ← count.decode bytes
    let (l, rest) ← item.times len rest
    let v ← BVec.fromSlice l
    pure (v, rest)
  decode_encode v rest := by simp [count.decode_encode, item.times_encode]

theorem bvec_within {count : Codec (Fin m)} {item : Codec α} {h : n < m} {i : Nat}
    (hc : count.Within k) (hi : item.Within i) : (bvec count item h).Within (k + n * i) := by
  intro v
  have h1 := hc ⟨v.toList.length, Nat.lt_of_le_of_lt v.fits h⟩
  have h2 := flatMap_within hi v.toList
  have h3 := Nat.mul_le_mul_right i v.fits
  simp only [bvec, List.length_append]
  omega

/-- A byte count followed by UTF-8; text that is not UTF-8 or longer than `n` bytes is rejected. -/
def text (count : Codec (Fin m)) (h : n < m) : Codec (BString n) :=
  (bvec count byte h).convert (fun s => ⟨s.bytes, s.bytes_length⟩)
    (fun v => BString.ofBytes v.toList) BString.ofBytes_bytes

theorem text_within {count : Codec (Fin m)} {h : n < m} (hc : count.Within k) :
    (text count h : Codec (BString n)).Within (k + n * 1) :=
  convert_within (bvec_within hc byte_within)

end Codec
end AssetTracker.Lib
