import Mathlib.Data.List.MinMax
import Mathlib.Data.List.Nodup
import Mathlib.Data.List.Forall2

/-! Fixed-capacity containers: vectors, UTF-8 strings and insertion-ordered maps. The bound, and for
the map the distinctness of its keys, is a field of the value, so no operation can build one that
exceeds it. Independent of any program. -/
namespace AssetTracker.Bounded
variable {α K V : Type*} {n : Nat}

structure BVec (α : Type*) (n : Nat) where
  toList : List α
  fits : toList.length ≤ n
deriving DecidableEq

namespace BVec

def empty : BVec α n := ⟨[], Nat.zero_le n⟩

/-- Copying a slice fails when the slice is longer than the capacity. -/
def fromSlice (l : List α) : Option (BVec α n) :=
  if h : l.length ≤ n then some ⟨l, h⟩ else none

/-- Appending a slice takes all of it or none. -/
def extendFromSlice (v : BVec α n) (l : List α) : Option (BVec α n) :=
  if h : (v.toList ++ l).length ≤ n then some ⟨v.toList ++ l, h⟩ else none

@[ext] theorem ext {v w : BVec α n} (h : v.toList = w.toList) : v = w := by
  cases v; cases w; cases h; rfl

@[simp] theorem empty_toList : (empty : BVec α n).toList = [] := rfl

theorem fromSlice_eq_some {l : List α} (h : l.length ≤ n) :
    (fromSlice l : Option (BVec α n)) = some ⟨l, h⟩ := dif_pos h

theorem fromSlice_some {l : List α} {v : BVec α n} (h : fromSlice l = some v) : v.toList = l := by
  by_cases hl : l.length ≤ n
  · rw [fromSlice_eq_some hl] at h
    cases h
    rfl
  · rw [fromSlice, dif_neg hl] at h
    cases h

@[simp] theorem fromSlice_toList (v : BVec α n) : fromSlice v.toList = some v :=
  fromSlice_eq_some v.fits

def popFront : BVec α n → Option (α × BVec α n)
  | ⟨[], _⟩ => none
  | ⟨a :: l, h⟩ => some (a, ⟨l, Nat.le_of_succ_le h⟩)

theorem popFront_some {v w : BVec α n} {a : α} (h : v.popFront = some (a, w)) :
    v.toList = a :: w.toList := by
  cases v with
  | mk l hl =>
    cases l with
    | nil => simp [popFront] at h
    | cons b l =>
      simp only [popFront, Option.some.injEq, Prod.mk.injEq] at h
      rw [← h.1, ← h.2]

end BVec

/-- Text of at most `n` bytes. -/
structure BString (n : Nat) where
  str : String
  fits : str.utf8ByteSize ≤ n
deriving DecidableEq

namespace BString

def ofString (s : String) : Option (BString n) :=
  if h : s.utf8ByteSize ≤ n then some ⟨s, h⟩ else none

@[ext] theorem ext {s t : BString n} (h : s.str = t.str) : s = t := by
  cases s; cases t; cases h; rfl

def bytes (s : BString n) : List UInt8 := s.str.toByteArray.data.toList

def ofBytes (l : List UInt8) : Option (BString n) :=
  (String.fromUTF8? ⟨l.toArray⟩).bind ofString

theorem bytes_length (s : BString n) : s.bytes.length ≤ n := s.fits

theorem ofString_eq_some {s : String} (h : s.utf8ByteSize ≤ n) :
    (ofString s : Option (BString n)) = some ⟨s, h⟩ := dif_pos h

theorem ofBytes_widen {m : Nat} (s : BString n) (h : s.str.utf8ByteSize ≤ m) :
    (ofBytes s.bytes : Option (BString m)) = some ⟨s.str, h⟩ := by
  have harr : (⟨s.bytes.toArray⟩ : ByteArray) = s.str.toByteArray := by
    simp [bytes]
  rw [ofBytes, harr, String.fromUTF8?, dif_pos s.str.isValidUTF8]
  exact ofString_eq_some h

theorem ofBytes_bytes (s : BString n) : ofBytes s.bytes = some s := ofBytes_widen s s.fits

end BString

theorem mapM_eq_some_iff {β : Type*} {f : α → Option β} {l : List α} {l' : List β} :
    l.mapM f = some l' ↔ List.Forall₂ (fun a b => f a = some b) l l' := by
  induction l generalizing l' with
  | nil => simp [eq_comm]
  | cons a l ih =>
    simp only [List.mapM_cons, Option.bind_eq_bind, Option.bind_eq_some_iff, Option.pure_def,
      Option.some.injEq, ih]
    cases l' with
    | nil => simp
    | cons b l' => simp

theorem mapM_eq_some {β : Type*} {f : α → Option β} {g : α → β} {l : List α}
    (h : ∀ a ∈ l, f a = some (g a)) : l.mapM f = some (l.map g) := by
  rw [mapM_eq_some_iff, List.forall₂_map_right_iff, List.forall₂_same]
  exact h

theorem mapM_eq_none_iff {β : Type*} {f : α → Option β} {l : List α} :
    l.mapM f = none ↔ ∃ a ∈ l, f a = none := by
  induction l with
  | nil => simp
  | cons a l ih =>
    cases ha : f a with
    | none => simp [ha]
    | some b =>
      cases hl : l.mapM f with
      | none =>
        obtain ⟨c, hc, hnone⟩ := ih.mp hl
        have hmem : c ∈ a :: l := List.mem_cons_of_mem a hc
        simp only [List.mapM_cons, ha, hl, Option.bind_eq_bind, Option.bind_some, Option.bind_none,
          true_iff]
        exact ⟨c, hmem, hnone⟩
      | some l' => simpa [ha, hl] using ih

/-- Remove the first element satisfying `p` and put the last element in its place. -/
def swapRemove (p : α → Bool) : List α → List α
  | [] => []
  | x :: xs =>
    if p x then
      match xs.getLast? with
      | none => []
      | some last => last :: xs.dropLast
    else x :: swapRemove p xs

theorem swapRemove_perm (p : α → Bool) (l : List α) : (swapRemove p l).Perm (l.eraseP p) := by
  induction l with
  | nil => exact List.Perm.refl _
  | cons x xs ih =>
    by_cases hx : p x
    · cases hl : xs.getLast? with
      | none =>
        have hn : xs = [] := List.getLast?_eq_none_iff.mp hl
        simp [swapRemove, hx, hn]
      | some last =>
        have hs : xs.dropLast ++ [last] = xs := List.dropLast_append_getLast? last hl
        have hp : ([last] ++ xs.dropLast).Perm (xs.dropLast ++ [last]) := List.perm_append_comm
        simpa [swapRemove, hx, hl, hs] using hp
    · simpa [swapRemove, hx] using ih

/-- A map of capacity `n` that keeps its entries in insertion order. -/
structure IndexMap (K V : Type*) (n : Nat) where
  entries : List (K × V)
  nodup : (entries.map Prod.fst).Nodup
  fits : entries.length ≤ n

namespace IndexMap

def empty : IndexMap K V n := ⟨[], by simp, Nat.zero_le n⟩

@[simp] theorem empty_entries : (empty : IndexMap K V n).entries = [] := rfl

@[ext] theorem ext {m m' : IndexMap K V n} (h : m.entries = m'.entries) : m = m' := by
  cases m; cases m'; cases h; rfl

def isFull (m : IndexMap K V n) : Bool := m.entries.length == n

theorem value_unique (m : IndexMap K V n) {k : K} {v w : V}
    (hv : (k, v) ∈ m.entries) (hw : (k, w) ∈ m.entries) : v = w := by
  have h := List.inj_on_of_nodup_map m.nodup hv hw rfl
  exact congrArg Prod.snd h

def retain (p : K → V → Bool) (m : IndexMap K V n) : IndexMap K V n where
  entries := m.entries.filter fun e => p e.1 e.2
  nodup := m.nodup.sublist (List.filter_sublist.map _)
  fits := (List.length_filter_le _ _).trans m.fits

@[simp] theorem mem_retain (p : K → V → Bool) (m : IndexMap K V n) (e : K × V) :
    e ∈ (m.retain p).entries ↔ e ∈ m.entries ∧ p e.1 e.2 := by
  simp [retain]

/-- `retain` with a predicate that may fail: one failing entry fails the whole call. -/
def tryRetain (p : K → V → Option Bool) (m : IndexMap K V n) : Option (IndexMap K V n) :=
  if m.entries.all fun e => (p e.1 e.2).isSome then some (m.retain fun k v => p k v == some true)
  else none

theorem tryRetain_eq_some {p : K → V → Option Bool} {q : K → V → Bool} {m : IndexMap K V n}
    (h : ∀ e ∈ m.entries, p e.1 e.2 = some (q e.1 e.2)) : m.tryRetain p = some (m.retain q) := by
  have hall : (m.entries.all fun e => (p e.1 e.2).isSome) = true := by
    simp only [List.all_eq_true]
    intro e he
    simp [h e he]
  rw [tryRetain, if_pos hall]
  refine congrArg some (ext ?_)
  apply List.filter_congr
  intro e he
  simp [h e he]

/-- The first entry whose value under `f` is least. -/
def minByKey {β : Type*} [Preorder β] [DecidableLT β] (m : IndexMap K V n) (f : V → β) :
    Option (K × V) := m.entries.argmin fun e => f e.2

theorem minByKey_least {β : Type*} [LinearOrder β] {m : IndexMap K V n} {f : V → β} {e : K × V}
    (h : m.minByKey f = some e) : e ∈ m.entries ∧ ∀ e' ∈ m.entries, f e.2 ≤ f e'.2 := by
  have hm : e ∈ m.entries.argmin fun e => f e.2 := h
  exact ⟨List.argmin_mem hm, fun e' he' =>
    List.le_of_mem_argmin (f := fun e : K × V => f e.2) he' hm⟩

theorem minByKey_isSome {β : Type*} [LinearOrder β] {m : IndexMap K V n} (f : V → β)
    (h : m.entries ≠ []) : ∃ e, m.minByKey f = some e := by
  apply Option.ne_none_iff_exists'.mp
  simpa [minByKey, List.argmin_eq_none] using h

variable [DecidableEq K]

def containsKey (m : IndexMap K V n) (k : K) : Bool := m.entries.any fun e => e.1 == k

theorem containsKey_iff (m : IndexMap K V n) (k : K) :
    m.containsKey k = true ↔ ∃ v, (k, v) ∈ m.entries := by
  simp [containsKey]

def get (m : IndexMap K V n) (k : K) : Option V :=
  (m.entries.find? fun e => e.1 == k).map Prod.snd

theorem get_eq_some (m : IndexMap K V n) (k : K) (v : V) :
    m.get k = some v ↔ (k, v) ∈ m.entries := by
  constructor
  · intro h
    obtain ⟨e, he, rfl⟩ := Option.map_eq_some_iff.mp h
    have hk := List.find?_some he
    have hm := List.mem_of_find?_eq_some he
    simp only [beq_iff_eq] at hk
    subst hk
    exact hm
  · intro h
    cases hf : m.entries.find? fun e => e.1 == k with
    | none => simpa using List.find?_eq_none.mp hf _ h
    | some e =>
      have hk := List.find?_some hf
      have hm := List.mem_of_find?_eq_some hf
      simp only [beq_iff_eq] at hk
      subst hk
      rw [get, hf, Option.map_some, m.value_unique hm h]

/-- The last entry takes the place of the removed one. -/
def remove (m : IndexMap K V n) (k : K) : IndexMap K V n where
  entries := swapRemove (fun e => e.1 == k) m.entries
  nodup := by
    have hp := (swapRemove_perm (fun e : K × V => e.1 == k) m.entries).map Prod.fst
    exact hp.nodup_iff.mpr (m.nodup.sublist (List.eraseP_sublist.map _))
  fits := by
    rw [(swapRemove_perm (fun e : K × V => e.1 == k) m.entries).length_eq]
    exact List.length_eraseP_le.trans m.fits

theorem not_containsKey (m : IndexMap K V n) (k : K) :
    ¬ m.containsKey k = true ↔ k ∉ m.entries.map Prod.fst := by
  simp [containsKey]

def assign (k : K) (v : V) (e : K × V) : K × V := if e.1 = k then (e.1, v) else e

theorem assign_key (k : K) (v : V) : Prod.fst ∘ assign k v = Prod.fst := by
  funext e
  by_cases he : e.1 = k <;> simp [assign, he]

/-- Replace the value of a present key in place, append a new key, or hand the pair back when a new
key meets a full map. -/
def insert (m : IndexMap K V n) (k : K) (v : V) : Except (K × V) (IndexMap K V n) :=
  if hk : m.containsKey k then
    .ok { entries := m.entries.map (assign k v)
          nodup := by simpa [assign_key] using m.nodup
          fits := by simpa using m.fits }
  else if hlt : m.entries.length < n then
    .ok { entries := m.entries ++ [(k, v)]
          nodup := by simpa using m.nodup.concat ((m.not_containsKey k).mp hk)
          fits := by simpa using Nat.succ_le_of_lt hlt }
  else .error (k, v)

theorem mem_remove (m : IndexMap K V n) (k : K) (e : K × V) :
    e ∈ (m.remove k).entries ↔ e ∈ m.entries ∧ e.1 ≠ k := by
  have hp := (swapRemove_perm (fun e : K × V => e.1 == k) m.entries).mem_iff (a := e)
  rw [remove, hp]
  constructor
  · intro he
    refine ⟨List.mem_of_mem_eraseP he, ?_⟩
    intro hk
    subst hk
    obtain ⟨a, l₁, l₂, -, ha, hm, her⟩ := List.exists_of_eraseP (p := fun a : K × V => a.1 == e.1)
      (List.mem_of_mem_eraseP he) (by simp)
    rw [her] at he
    have hd := m.nodup
    rw [hm] at hd
    simp only [List.map_append, List.map_cons, List.nodup_middle, List.nodup_cons] at hd
    apply hd.1
    rw [eq_of_beq ha, ← List.map_append]
    exact List.mem_map_of_mem he
  · intro he
    exact (List.mem_eraseP_of_neg (by simpa using he.2)).mpr he.1

theorem length_remove (m : IndexMap K V n) {k : K} {v : V} (h : (k, v) ∈ m.entries) :
    (m.remove k).entries.length + 1 = m.entries.length := by
  have hp := (swapRemove_perm (fun e : K × V => e.1 == k) m.entries).length_eq
  have he := List.length_eraseP_of_mem (p := fun e : K × V => e.1 == k) h (by simp)
  have hpos : 0 < m.entries.length := List.length_pos_of_mem h
  rw [remove, hp, he]
  omega

theorem mem_assign {m : IndexMap K V n} {k : K} (hk : m.containsKey k = true) (v : V) (e : K × V) :
    e ∈ m.entries.map (assign k v) ↔ e = (k, v) ∨ (e ∈ m.entries ∧ e.1 ≠ k) := by
  obtain ⟨w, hw⟩ := (m.containsKey_iff k).mp hk
  rw [List.mem_map]
  constructor
  · intro h
    obtain ⟨e', he', hv⟩ := h
    subst hv
    by_cases hek : e'.1 = k
    · exact Or.inl (by simp [assign, hek])
    · exact Or.inr (by simpa [assign, hek] using he')
  · intro h
    cases h with
    | inl he => exact ⟨(k, w), hw, by simp [assign, he]⟩
    | inr he => exact ⟨e, he.1, by simp [assign, he.2]⟩

theorem mem_concat {m : IndexMap K V n} {k : K} (hk : ¬ m.containsKey k = true) (v : V) (e : K × V) :
    e ∈ m.entries ++ [(k, v)] ↔ e = (k, v) ∨ (e ∈ m.entries ∧ e.1 ≠ k) := by
  have hn := (m.not_containsKey k).mp hk
  rw [List.mem_append, List.mem_singleton, or_comm]
  apply or_congr_right
  constructor
  · intro he
    refine ⟨he, ?_⟩
    intro hek
    exact hn (List.mem_map.mpr ⟨e, he, hek⟩)
  · intro he
    exact he.1

/-- Insertion succeeds on a present key or below capacity, and then changes `k` only. -/
theorem insert_ok (m : IndexMap K V n) (k : K) (v : V)
    (h : m.containsKey k = true ∨ m.entries.length < n) :
    ∃ m', m.insert k v = .ok m' ∧
      ∀ e, e ∈ m'.entries ↔ e = (k, v) ∨ (e ∈ m.entries ∧ e.1 ≠ k) := by
  by_cases hk : m.containsKey k = true
  · exact ⟨_, dif_pos hk, mem_assign hk v⟩
  · have hlt : m.entries.length < n := h.resolve_left hk
    exact ⟨_, by rw [insert, dif_neg hk, dif_pos hlt], mem_concat hk v⟩

theorem mem_insert {m m' : IndexMap K V n} {k : K} {v : V} (h : m.insert k v = .ok m') (e : K × V) :
    e ∈ m'.entries ↔ e = (k, v) ∨ (e ∈ m.entries ∧ e.1 ≠ k) := by
  have hroom : m.containsKey k = true ∨ m.entries.length < n := by
    by_contra hno
    have hk : ¬ m.containsKey k = true := fun hk => hno (.inl hk)
    have hlt : ¬ m.entries.length < n := fun hlt => hno (.inr hlt)
    rw [insert, dif_neg hk, dif_neg hlt] at h
    cases h
  obtain ⟨m'', hm, hmem⟩ := m.insert_ok k v hroom
  rw [h] at hm
  cases hm
  exact hmem e

end IndexMap
end AssetTracker.Bounded
