import Mathlib.Algebra.Order.Ring.Nat
import Mathlib.Tactic.Common

/-! CBOR on the line, for integers, texts, arrays, null and 32-bit floats. Items are written with the
shortest head, and read with any; a reader that runs into the end of its input says so, whatever it was
in the middle of. Independent of any program. -/
namespace AssetTracker.Lib.CborBytes

inductive DataItem where
  | unsigned (n : Nat)
  | negative (n : Nat)
  | text (s : String)
  | array (items : List DataItem)
  | null
  | float32 (bits : UInt32)

/-- Why nothing was read: the input ends too early, a text is not UTF-8, or the item is of a kind left
out here. -/
inductive Refusal where
  | eof
  | malformed
  | other
deriving DecidableEq

/-- The low `k` bytes of a number, most significant first. -/
def beBytes : Nat → Nat → List UInt8
  | 0, _ => []
  | k + 1, n => beBytes k (n / 256) ++ [UInt8.ofNat n]

def beValue (l : List UInt8) : Nat := l.foldl (fun v b => v * 256 + b.toNat) 0

def head (major n : Nat) : List UInt8 :=
  if n < 24 then [UInt8.ofNat (32 * major + n)]
  else if n < 2 ^ 8 then UInt8.ofNat (32 * major + 24) :: beBytes 1 n
  else if n < 2 ^ 16 then UInt8.ofNat (32 * major + 25) :: beBytes 2 n
  else if n < 2 ^ 32 then UInt8.ofNat (32 * major + 26) :: beBytes 4 n
  else UInt8.ofNat (32 * major + 27) :: beBytes 8 n

def textBytes (s : String) : List UInt8 := s.toByteArray.data.toList

mutual

def encode : DataItem → List UInt8
  | .unsigned n => head 0 n
  | .negative n => head 1 n
  | .text s => head 3 s.utf8ByteSize ++ textBytes s
  | .array items => head 4 items.length ++ encodeItems items
  | .null => [0xF6]
  | .float32 bits => 0xFA :: beBytes 4 bits.toNat

def encodeItems : List DataItem → List UInt8
  | [] => []
  | item :: items => encode item ++ encodeItems items

end

mutual

/-- Every number and length in it fits a head. -/
def Fits : DataItem → Prop
  | .unsigned n => n < 2 ^ 64
  | .negative n => n < 2 ^ 64
  | .text s => s.utf8ByteSize < 2 ^ 64
  | .array items => items.length < 2 ^ 64 ∧ FitsItems items
  | _ => True

def FitsItems : List DataItem → Prop
  | [] => True
  | item :: items => Fits item ∧ FitsItems items

end

def takeBytes (k : Nat) (bytes : List UInt8) : Except Refusal (List UInt8 × List UInt8) :=
  if bytes.length < k then .error .eof else .ok (bytes.take k, bytes.drop k)

def number (k : Nat) (bytes : List UInt8) : Except Refusal (Nat × List UInt8) := do
  let (l, rest) ← takeBytes k bytes
  pure (beValue l, rest)

/-- The argument of a head; indefinite lengths are left out. -/
def argument (info : Nat) (bytes : List UInt8) : Except Refusal (Nat × List UInt8) :=
  if info < 24 then .ok (info, bytes)
  else if info = 24 then number 1 bytes
  else if info = 25 then number 2 bytes
  else if info = 26 then number 4 bytes
  else if info = 27 then number 8 bytes
  else .error .other

def decodeText (n : Nat) (bytes : List UInt8) : Except Refusal (DataItem × List UInt8) := do
  let (l, rest) ← takeBytes n bytes
  match String.fromUTF8? ⟨l.toArray⟩ with
  | some s => pure (.text s, rest)
  | none => .error .malformed

/-- Null and the floats share a major type. -/
def decodeSimple (initial : UInt8) (n : Nat) (bytes : List UInt8) :
    Except Refusal (DataItem × List UInt8) :=
  if initial = 0xF6 then .ok (.null, bytes)
  else if initial = 0xFA then .ok (.float32 (UInt32.ofNat n), bytes)
  else .error .other

mutual

def decodeItem : Nat → List UInt8 → Except Refusal (DataItem × List UInt8)
  | 0, _ => .error .eof
  | _ + 1, [] => .error .eof
  | fuel + 1, initial :: bytes => do
    let (n, bytes) ← argument (initial.toNat % 32) bytes
    match initial.toNat / 32 with
    | 0 => pure (.unsigned n, bytes)
    | 1 => pure (.negative n, bytes)
    | 3 => decodeText n bytes
    | 4 => do
      let (items, bytes) ← decodeItems fuel n bytes
      pure (.array items, bytes)
    | 7 => decodeSimple initial n bytes
    | _ => .error .other

def decodeItems : Nat → Nat → List UInt8 → Except Refusal (List DataItem × List UInt8)
  | 0, _, _ => .error .eof
  | _ + 1, 0, bytes => .ok ([], bytes)
  | fuel + 1, n + 1, bytes => do
    let (item, bytes) ← decodeItem fuel bytes
    let (items, bytes) ← decodeItems fuel n bytes
    pure (item :: items, bytes)

end

/-- Two levels for each byte are enough: an item takes at least one. -/
def decode (bytes : List UInt8) : Except Refusal (DataItem × List UInt8) :=
  decodeItem (2 * bytes.length) bytes

section Stable

/-- Unless it ran out of input, a reader does with more bytes behind its input what it did without. -/
def Stable {α : Type} (behind : List UInt8) (r r' : Except Refusal (α × List UInt8)) : Prop :=
  r ≠ .error .eof → r' = r.map fun p => (p.1, p.2 ++ behind)

variable {α β : Type} {behind : List UInt8}

theorem stable_eof (r : Except Refusal (α × List UInt8)) : Stable behind (.error .eof) r :=
  fun h => absurd rfl h

theorem stable_ok (a : α) (rest : List UInt8) :
    Stable behind (.ok (a, rest)) (.ok (a, rest ++ behind)) := fun _ => rfl

theorem stable_error (e : Refusal) : Stable (α := α) behind (.error e) (.error e) := fun _ => rfl

theorem Stable.bind {r r' : Except Refusal (α × List UInt8)}
    {k k' : α × List UInt8 → Except Refusal (β × List UInt8)} (h : Stable behind r r')
    (hk : ∀ a rest, Stable behind (k (a, rest)) (k' (a, rest ++ behind))) :
    Stable behind (r >>= k) (r' >>= k') := by
  cases r with
  | ok p =>
    rw [h (by simp)]
    exact hk p.1 p.2
  | error e =>
    intro hne
    have he : (.error e : Except Refusal (α × List UInt8)) ≠ .error .eof := by
      intro heq
      cases heq
      exact hne rfl
    rw [h he]
    rfl

theorem takeBytes_stable (k : Nat) (bytes : List UInt8) :
    Stable behind (takeBytes k bytes) (takeBytes k (bytes ++ behind)) := by
  by_cases h : bytes.length < k
  · rw [takeBytes, if_pos h]
    exact stable_eof _
  · have hk : k ≤ bytes.length := Nat.le_of_not_lt h
    have hmore : ¬ (bytes ++ behind).length < k := by
      rw [List.length_append]
      omega
    rw [takeBytes, takeBytes, if_neg h, if_neg hmore, List.take_append_of_le_length hk,
      List.drop_append_of_le_length hk]
    exact stable_ok _ _

theorem number_stable (k : Nat) (bytes : List UInt8) :
    Stable behind (number k bytes) (number k (bytes ++ behind)) :=
  (takeBytes_stable k bytes).bind fun _ _ => stable_ok _ _

theorem argument_stable (info : Nat) (bytes : List UInt8) :
    Stable behind (argument info bytes) (argument info (bytes ++ behind)) := by
  unfold argument
  split_ifs
  · exact stable_ok _ _
  · exact number_stable 1 bytes
  · exact number_stable 2 bytes
  · exact number_stable 4 bytes
  · exact number_stable 8 bytes
  · exact stable_error _

theorem decodeText_stable (n : Nat) (bytes : List UInt8) :
    Stable behind (decodeText n bytes) (decodeText n (bytes ++ behind)) := by
  refine (takeBytes_stable n bytes).bind fun l rest => ?_
  cases h : String.fromUTF8? ⟨l.toArray⟩ with
  | some s =>
    simp only [h]
    exact stable_ok _ _
  | none =>
    simp only [h]
    exact stable_error _

theorem decodeSimple_stable (initial : UInt8) (n : Nat) (bytes : List UInt8) :
    Stable behind (decodeSimple initial n bytes) (decodeSimple initial n (bytes ++ behind)) := by
  unfold decodeSimple
  split_ifs
  · exact stable_ok _ _
  · exact stable_ok _ _
  · exact stable_error _

mutual

theorem decodeItem_stable {fuel fuel' : Nat} (h : fuel ≤ fuel') (bytes : List UInt8) :
    Stable behind (decodeItem fuel bytes) (decodeItem fuel' (bytes ++ behind)) := by
  match fuel, fuel', bytes, h with
  | 0, _, _, _ =>
    rw [decodeItem]
    exact stable_eof _
  | fuel + 1, _, [], _ =>
    rw [decodeItem]
    exact stable_eof _
  | fuel + 1, fuel' + 1, initial :: bytes, h =>
    have hle : fuel ≤ fuel' := Nat.le_of_succ_le_succ h
    rw [List.cons_append, decodeItem, decodeItem]
    refine (argument_stable _ bytes).bind fun n rest => ?_
    dsimp only
    split
    · exact stable_ok _ _
    · exact stable_ok _ _
    · exact decodeText_stable n rest
    · exact (decodeItems_stable hle n rest).bind fun _ _ => stable_ok _ _
    · exact decodeSimple_stable initial n rest
    · exact stable_error _

theorem decodeItems_stable {fuel fuel' : Nat} (h : fuel ≤ fuel') (n : Nat) (bytes : List UInt8) :
    Stable behind (decodeItems fuel n bytes) (decodeItems fuel' n (bytes ++ behind)) := by
  match fuel, fuel', n, h with
  | 0, _, _, _ =>
    rw [decodeItems]
    exact stable_eof _
  | fuel + 1, fuel' + 1, 0, _ =>
    rw [decodeItems, decodeItems]
    exact stable_ok _ _
  | fuel + 1, fuel' + 1, n + 1, h =>
    have hle : fuel ≤ fuel' := Nat.le_of_succ_le_succ h
    rw [decodeItems, decodeItems]
    exact (decodeItem_stable hle bytes).bind fun _ rest =>
      (decodeItems_stable hle n rest).bind fun _ _ => stable_ok _ _

end

end Stable

theorem beBytes_length (k n : Nat) : (beBytes k n).length = k := by
  induction k generalizing n with
  | zero => rfl
  | succ k ih => rw [beBytes, List.length_append, ih, List.length_singleton]

theorem beValue_beBytes {k n : Nat} (h : n < 256 ^ k) : beValue (beBytes k n) = n := by
  induction k generalizing n with
  | zero =>
    rw [Nat.pow_zero] at h
    rw [beBytes, beValue, List.foldl_nil]
    omega
  | succ k ih =>
    have hdiv : n / 256 < 256 ^ k := by
      rw [Nat.pow_succ] at h
      omega
    have hrest : (beBytes k (n / 256)).foldl (fun v b => v * 256 + b.toNat) 0 = n / 256 := ih hdiv
    rw [beBytes, beValue, List.foldl_append, hrest, List.foldl_cons, List.foldl_nil,
      UInt8.toNat_ofNat']
    omega

theorem number_beBytes {k n : Nat} (h : n < 256 ^ k) (rest : List UInt8) :
    number k (beBytes k n ++ rest) = .ok (n, rest) := by
  have hlen := beBytes_length k n
  have hnot : ¬ (beBytes k n ++ rest).length < k := by
    rw [List.length_append]
    omega
  rw [number, takeBytes, if_neg hnot, List.take_left' hlen, List.drop_left' hlen]
  change Except.ok (beValue (beBytes k n), rest) = _
  rw [beValue_beBytes h]

theorem initial_toNat {major info : Nat} (hm : major < 8) (hi : info < 32) :
    (UInt8.ofNat (32 * major + info)).toNat / 32 = major ∧
      (UInt8.ofNat (32 * major + info)).toNat % 32 = info := by
  rw [UInt8.toNat_ofNat']
  omega

theorem head_spec {major n : Nat} (hm : major < 8) (hn : n < 2 ^ 64) :
    ∃ initial tail, head major n = initial :: tail ∧ initial.toNat / 32 = major ∧
      ∀ rest, argument (initial.toNat % 32) (tail ++ rest) = .ok (n, rest) := by
  have hlong : ∀ info k, 24 ≤ info → info < 32 → n < 256 ^ k →
      (∀ bytes, argument info bytes = number k bytes) →
      (UInt8.ofNat (32 * major + info)).toNat / 32 = major ∧ ∀ rest,
        argument ((UInt8.ofNat (32 * major + info)).toNat % 32) (beBytes k n ++ rest) =
          .ok (n, rest) := by
    intro info k _ hi hk harg
    obtain ⟨hmajor, hinfo⟩ := initial_toNat hm hi
    refine ⟨hmajor, ?_⟩
    intro rest
    rw [hinfo, harg, number_beBytes hk]
  unfold head
  split_ifs with h₀ h₁ h₂ h₄
  · obtain ⟨hmajor, hinfo⟩ := initial_toNat hm (show n < 32 by omega)
    refine ⟨_, [], rfl, hmajor, ?_⟩
    intro rest
    rw [hinfo, argument, if_pos h₀, List.nil_append]
  · exact ⟨_, _, rfl, hlong 24 1 (by decide) (by decide) h₁ fun _ => rfl⟩
  · exact ⟨_, _, rfl, hlong 25 2 (by decide) (by decide) h₂ fun _ => rfl⟩
  · exact ⟨_, _, rfl, hlong 26 4 (by decide) (by decide) h₄ fun _ => rfl⟩
  · exact ⟨_, _, rfl, hlong 27 8 (by decide) (by decide) hn fun _ => rfl⟩

theorem encode_length_pos (item : DataItem) (h : Fits item) : 0 < (encode item).length := by
  have hhead : ∀ major n, 0 < (head major n).length := by
    intro major n
    unfold head
    split_ifs <;> simp
  cases item with
  | unsigned n => exact hhead 0 n
  | negative n => exact hhead 1 n
  | text s =>
    have hpos := hhead 3 s.utf8ByteSize
    rw [encode, List.length_append]
    omega
  | array items =>
    have hpos := hhead 4 items.length
    rw [encode, List.length_append]
    omega
  | null => exact Nat.zero_lt_one
  | float32 bits => exact Nat.succ_pos _

theorem decodeText_textBytes (s : String) (rest : List UInt8) :
    decodeText s.utf8ByteSize (textBytes s ++ rest) = .ok (.text s, rest) := by
  have hlen : (textBytes s).length = s.utf8ByteSize := rfl
  have hnot : ¬ (textBytes s ++ rest).length < s.utf8ByteSize := by
    rw [List.length_append]
    omega
  have harr : (⟨(textBytes s).toArray⟩ : ByteArray) = s.toByteArray := by simp [textBytes]
  have hutf : String.fromUTF8? ⟨(textBytes s).toArray⟩ = some s := by
    rw [harr, String.fromUTF8?, dif_pos s.isValidUTF8]
    rfl
  rw [decodeText, takeBytes, if_neg hnot, List.take_left' hlen, List.drop_left' hlen]
  simp only [bind, Except.bind, hutf]
  rfl

section RoundTrip

theorem decodeItem_head {major n : Nat} (hm : major < 8) (hn : n < 2 ^ 64) :
    ∃ initial tail, head major n = initial :: tail ∧ initial.toNat / 32 = major ∧
      ∀ fuel rest, decodeItem (fuel + 1) (head major n ++ rest) =
        match major with
        | 0 => .ok (.unsigned n, rest)
        | 1 => .ok (.negative n, rest)
        | 3 => decodeText n rest
        | 4 => do
          let (items, bytes) ← decodeItems fuel n rest
          pure (.array items, bytes)
        | 7 => decodeSimple initial n rest
        | _ => .error .other := by
  obtain ⟨initial, tail, hhead, hmajor, harg⟩ := head_spec hm hn
  refine ⟨initial, tail, hhead, hmajor, ?_⟩
  intro fuel rest
  rw [hhead, List.cons_append, decodeItem, harg, hmajor]
  rfl

mutual

theorem decodeItem_encode (item : DataItem) (hfits : Fits item) {fuel : Nat} (rest : List UInt8)
    (h : 2 * (encode item).length ≤ fuel) :
    decodeItem fuel (encode item ++ rest) = .ok (item, rest) := by
  have hpos := encode_length_pos item hfits
  obtain ⟨fuel, rfl⟩ : ∃ k, fuel = k + 1 := Nat.exists_eq_add_one.mpr (by omega)
  match item, hfits with
  | .unsigned n, hfits =>
    obtain ⟨_, _, _, _, hread⟩ := decodeItem_head (show 0 < 8 by decide) hfits
    exact hread fuel rest
  | .negative n, hfits =>
    obtain ⟨_, _, _, _, hread⟩ := decodeItem_head (show 1 < 8 by decide) hfits
    exact hread fuel rest
  | .text s, hfits =>
    obtain ⟨_, _, _, _, hread⟩ := decodeItem_head (show 3 < 8 by decide) hfits
    rw [encode, List.append_assoc, hread]
    exact decodeText_textBytes s rest
  | .array items, hfits =>
    obtain ⟨initial, tail, hhead, _, hread⟩ := decodeItem_head (show 4 < 8 by decide) hfits.1
    have hfuel : 2 * (encodeItems items).length + 1 ≤ fuel := by
      rw [encode, hhead, List.length_append, List.length_cons] at h
      omega
    rw [encode, List.append_assoc, hread]
    simp only [decodeItems_encode items hfits.2 rest hfuel]
    rfl
  | .null, _ => rfl
  | .float32 bits, _ =>
    have hbits : bits.toNat < 256 ^ 4 := bits.toNat_lt
    have harg : argument ((0xFA : UInt8).toNat % 32) (beBytes 4 bits.toNat ++ rest) =
        .ok (bits.toNat, rest) := number_beBytes hbits rest
    rw [encode, List.cons_append, decodeItem, harg]
    change Except.ok (DataItem.float32 (UInt32.ofNat bits.toNat), rest) = _
    rw [UInt32.ofNat_toNat]

theorem decodeItems_encode (items : List DataItem) (hfits : FitsItems items) {fuel : Nat}
    (rest : List UInt8) (h : 2 * (encodeItems items).length + 1 ≤ fuel) :
    decodeItems fuel items.length (encodeItems items ++ rest) = .ok (items, rest) := by
  obtain ⟨fuel, rfl⟩ : ∃ k, fuel = k + 1 := Nat.exists_eq_add_one.mpr (by omega)
  match items, hfits with
  | [], _ => rfl
  | item :: items, hfits =>
    have hpos := encode_length_pos item hfits.1
    rw [encodeItems, List.length_append] at h
    rw [encodeItems, List.append_assoc, List.length_cons, decodeItems,
      decodeItem_encode item hfits.1 _ (by omega)]
    change decodeItems fuel items.length (encodeItems items ++ rest) >>= _ = _
    rw [decodeItems_encode items hfits.2 rest (by omega)]
    rfl

end

theorem decode_encode {item : DataItem} (h : Fits item) (rest : List UInt8) :
    decode (encode item ++ rest) = .ok (item, rest) := by
  apply decodeItem_encode item h
  rw [List.length_append]
  omega

/-- However an item is cut off, the reader finds that bytes are missing. -/
theorem decode_truncated {item : DataItem} (h : Fits item) {front back : List UInt8}
    (hcut : encode item = front ++ back) (hback : back ≠ []) : decode front = .error .eof := by
  by_contra hne
  have hstable : Stable back (decode front) (decode (front ++ back)) := by
    apply decodeItem_stable
    rw [List.length_append]
    omega
  have hmap := hstable hne
  have hwhole := decode_encode h []
  rw [List.append_nil, hcut, hmap] at hwhole
  cases hd : decode front with
  | error e =>
    rw [hd] at hwhole
    cases hwhole
  | ok p =>
    rw [hd] at hwhole
    have hrest : p.2 ++ back = [] := congrArg Prod.snd (Except.ok.inj hwhole)
    exact hback (List.append_eq_nil_iff.mp hrest).2

end RoundTrip

end AssetTracker.Lib.CborBytes
