import AssetTracker.Scanner.Advertisement
import Mathlib.Data.List.Induction
import Mathlib.Algebra.Order.Ring.Nat

/-! What `parse_manufacturer_data` accepts, as a condition on the structures that are read out of the
data, and the bytes that a list of structures is written as. -/
namespace AssetTracker.Scanner
open Bounded

theorem read_cons_length (len : UInt8) (rest : List UInt8) :
    (AdStructure.read (len :: rest)).2.length ≤ rest.length := by
  unfold AdStructure.read
  by_cases hlen : len < 2
  · simp [hlen]
  · cases rest with
    | nil => simp [hlen]
    | cons ty rest =>
      by_cases hshort : rest.length < len.toNat - 1
      · simp [hlen, hshort]
      · simp [hlen, hshort]
        omega

theorem items_of_length_le {fuel : Nat} {data : List UInt8} (h : data.length ≤ fuel) :
    AdStructure.items fuel data = AdStructure.decode data := by
  induction fuel using Nat.strongRecOn generalizing data with
  | ind fuel ih =>
    cases data with
    | nil => cases fuel <;> rfl
    | cons len rest =>
      cases fuel with
      | zero => simp at h
      | succ fuel =>
        have hle := read_cons_length len rest
        have hrest : rest.length ≤ fuel := by simpa using h
        rw [AdStructure.decode, List.length_cons, AdStructure.items, AdStructure.items]
        dsimp only
        rw [ih fuel (by omega) (by omega), ih rest.length (by omega) hle]

theorem decode_cons (len : UInt8) (rest : List UInt8) :
    AdStructure.decode (len :: rest) =
      (AdStructure.read (len :: rest)).1 :: AdStructure.decode (AdStructure.read (len :: rest)).2 := by
  rw [AdStructure.decode, List.length_cons, AdStructure.items]
  exact congrArg (List.cons _) (items_of_length_le (read_cons_length len rest))

def structures (items : List (Except CodecError AdStructure)) : List AdStructure :=
  items.filterMap fun item => item.toOption

def localName? : AdStructure → Option (List UInt8)
  | .completeLocalName data => some data
  | _ => none

def manufacturer? : AdStructure → Option (Nat × List UInt8)
  | .manufacturerSpecificData companyIdentifier payload => some (companyIdentifier, payload)
  | _ => none

def localNames (l : List AdStructure) : List (List UInt8) := l.filterMap localName?

def manufacturers (l : List AdStructure) : List (Nat × List UInt8) := l.filterMap manufacturer?

def payloadFields : List UInt8 → Option (UInt32 × UInt8)
  | a :: b :: c :: d :: channel :: _ => some (u32FromBeBytes a b c d, channel)
  | _ => none

/-- No structure is one the parser gives up on. -/
structure Admissible (l : List AdStructure) : Prop where
  names : ∀ name ∈ localNames l, name.length ≤ tagNameMaxLen
  manufacturers : ∀ m ∈ manufacturers l, m.1 = 0xffff ∧ 5 ≤ m.2.length

/-- The advertisement a list of structures stands for: the last name, the last manufacturer data. -/
structure Accepts (l : List AdStructure) (ad : ParsedAdvertisement) : Prop where
  admissible : Admissible l
  name : (localNames l).getLast?.bind BString.ofBytes = some ad.name
  fields : (manufacturers l).getLast?.bind (fun m => payloadFields m.2) =
    some (ad.sequence, ad.channelNumber)

/-- The local variables of the parser after admissible structures. -/
def parsed (l : List AdStructure) : ParseState :=
  let fields := (manufacturers l).getLast?.bind fun m => payloadFields m.2
  ⟨fields.map Prod.fst, (localNames l).getLast?.bind BString.ofBytes, fields.map Prod.snd⟩

theorem payloadFields_isSome_iff (payload : List UInt8) :
    (payloadFields payload).isSome = true ↔ 5 ≤ payload.length := by
  match payload with
  | [] => simp [payloadFields]
  | [_] => simp [payloadFields]
  | [_, _] => simp [payloadFields]
  | [_, _, _] => simp [payloadFields]
  | [_, _, _, _] => simp [payloadFields]
  | _ :: _ :: _ :: _ :: _ :: _ => simp [payloadFields]

theorem parseItem_manufacturer (s : ParseState) (c : Nat) (payload : List UInt8) :
    parseItem s (.ok (.manufacturerSpecificData c payload)) =
      if c = 0xffff then (payloadFields payload).map fun f =>
        { s with sequence := some f.1, channelNumber := some f.2 }
      else none := by
  by_cases hc : c = 0xffff
  · match payload with
    | [] => simp [parseItem, payloadFields]
    | [_] => simp [parseItem, payloadFields]
    | [_, _] => simp [parseItem, payloadFields]
    | [_, _, _] => simp [parseItem, payloadFields]
    | [_, _, _, _] => simp [parseItem, payloadFields]
    | _ :: _ :: _ :: _ :: _ :: _ => simp [parseItem, payloadFields, hc]
  · simp [parseItem, hc]

theorem parseItems_append (s : ParseState) (items items' : List (Except CodecError AdStructure)) :
    parseItems s (items ++ items') = (parseItems s items).bind fun s => parseItems s items' := by
  induction items generalizing s with
  | nil => rfl
  | cons item items ih =>
    cases hitem : parseItem s item with
    | none => simp [parseItems, hitem]
    | some s' => simpa [parseItems, hitem] using ih s'

theorem localNames_append (l l' : List AdStructure) :
    localNames (l ++ l') = localNames l ++ localNames l' := List.filterMap_append

theorem manufacturers_append (l l' : List AdStructure) :
    manufacturers (l ++ l') = manufacturers l ++ manufacturers l' := List.filterMap_append

theorem admissible_append {l l' : List AdStructure} :
    Admissible (l ++ l') ↔ Admissible l ∧ Admissible l' := by
  constructor
  · intro h
    refine ⟨⟨?_, ?_⟩, ⟨?_, ?_⟩⟩
    · intro name hname
      exact h.names name (by simp [localNames_append, hname])
    · intro m hm
      exact h.manufacturers m (by simp [manufacturers_append, hm])
    · intro name hname
      exact h.names name (by simp [localNames_append, hname])
    · intro m hm
      exact h.manufacturers m (by simp [manufacturers_append, hm])
  · intro h
    refine ⟨?_, ?_⟩
    · intro name hname
      rw [localNames_append] at hname
      cases List.mem_append.mp hname with
      | inl hl => exact h.1.names name hl
      | inr hl => exact h.2.names name hl
    · intro m hm
      rw [manufacturers_append] at hm
      cases List.mem_append.mp hm with
      | inl hl => exact h.1.manufacturers m hl
      | inr hl => exact h.2.manufacturers m hl

theorem parseItem_parsed (l : List AdStructure) (a : AdStructure) (s : ParseState) :
    parseItem (parsed l) (.ok a) = some s ↔ Admissible [a] ∧ s = parsed (l ++ [a]) := by
  cases a with
  | completeLocalName data =>
    have hadm : Admissible [.completeLocalName data] ↔ data.length ≤ tagNameMaxLen := by
      constructor
      · intro h
        exact h.names data (by simp [localNames, localName?])
      · intro h
        exact ⟨by simpa [localNames, localName?] using h, by simp [manufacturers, manufacturer?]⟩
    have hparsed : parsed (l ++ [.completeLocalName data]) =
        { parsed l with name := BString.ofBytes data } := by
      simp [parsed, localNames, manufacturers, localName?, manufacturer?]
    rw [hadm, hparsed]
    by_cases hlen : data.length ≤ tagNameMaxLen
    · simp [parseItem, hlen, eq_comm]
    · simp [parseItem, hlen]
  | manufacturerSpecificData c payload =>
    have hadm : Admissible [.manufacturerSpecificData c payload] ↔
        c = 0xffff ∧ 5 ≤ payload.length := by
      constructor
      · intro h
        exact h.manufacturers (c, payload) (by simp [manufacturers, manufacturer?])
      · intro h
        exact ⟨by simp [localNames, localName?], by simpa [manufacturers, manufacturer?] using h⟩
    have hparsed : parsed (l ++ [.manufacturerSpecificData c payload]) =
        { parsed l with sequence := (payloadFields payload).map Prod.fst,
                        channelNumber := (payloadFields payload).map Prod.snd } := by
      simp [parsed, localNames, manufacturers, localName?, manufacturer?]
    rw [hadm, hparsed, parseItem_manufacturer, ← payloadFields_isSome_iff]
    by_cases hc : c = 0xffff
    · cases payloadFields payload with
      | none => simp
      | some f => simp [hc, eq_comm]
    · simp [hc]
  | other ty data =>
    have hadm : Admissible [.other ty data] :=
      ⟨by simp [localNames, localName?], by simp [manufacturers, manufacturer?]⟩
    have hparsed : parsed (l ++ [.other ty data]) = parsed l := by
      simp [parsed, localNames, manufacturers, localName?, manufacturer?]
    simp [parseItem, hadm, hparsed, eq_comm]

theorem parseItems_iff (items : List (Except CodecError AdStructure)) (s : ParseState) :
    parseItems ⟨none, none, none⟩ items = some s ↔
      Admissible (structures items) ∧ s = parsed (structures items) := by
  induction items using List.reverseRecOn generalizing s with
  | nil =>
    have hadm : Admissible [] := ⟨by simp [localNames], by simp [manufacturers]⟩
    simp [parseItems, structures, hadm, parsed, localNames, manufacturers, eq_comm]
  | append_singleton items item ih =>
    rw [parseItems_append, Option.bind_eq_some_iff]
    have hsingle : ∀ s' : ParseState, parseItems s' [item] = parseItem s' item := by
      intro s'
      cases h : parseItem s' item <;> simp [parseItems, h]
    cases item with
    | error e =>
      have hstr : structures (items ++ [.error e]) = structures items := by
        simp [structures, Except.toOption]
      rw [hstr, ← ih]
      simp [parseItems, parseItem]
    | ok a =>
      have hstr : structures (items ++ [.ok a]) = structures items ++ [a] := by
        simp [structures, Except.toOption]
      rw [hstr, admissible_append]
      constructor
      · intro h
        obtain ⟨s', hs', hs⟩ := h
        obtain ⟨hadm, rfl⟩ := (ih s').mp hs'
        rw [hsingle, parseItem_parsed] at hs
        exact ⟨⟨hadm, hs.1⟩, hs.2⟩
      · intro h
        refine ⟨parsed (structures items), (ih _).mpr ⟨h.1.1, rfl⟩, ?_⟩
        rw [hsingle, parseItem_parsed]
        exact ⟨h.1.2, h.2⟩

theorem parseManufacturerData_iff (data : List UInt8) (ad : ParsedAdvertisement) :
    parseManufacturerData data = some ad ↔
      Accepts (structures (AdStructure.decode data)) ad := by
  constructor
  · intro h
    simp only [parseManufacturerData, Option.bind_eq_bind, Option.bind_eq_some_iff,
      Option.pure_def, Option.some.injEq] at h
    obtain ⟨s, hs, name, hname, sequence, hsequence, channelNumber, hchannel, rfl⟩ := h
    obtain ⟨hadm, rfl⟩ := (parseItems_iff _ s).mp hs
    refine ⟨hadm, hname, ?_⟩
    obtain ⟨f, hf, rfl⟩ := Option.map_eq_some_iff.mp hsequence
    obtain ⟨g, hg, rfl⟩ := Option.map_eq_some_iff.mp hchannel
    rw [hf] at hg
    cases hg
    exact hf
  · intro h
    have hs := (parseItems_iff (AdStructure.decode data) _).mpr ⟨h.admissible, rfl⟩
    simp [parseManufacturerData, hs, parsed, h.name, h.fields]

/-- The structures up to the first malformed one, and the bytes this one leaves. -/
def strictItems : Nat → List UInt8 → List AdStructure × List UInt8
  | 0, data => ([], data)
  | fuel + 1, data =>
    match AdStructure.read data with
    | (.ok a, rest) => (a :: (strictItems fuel rest).1, (strictItems fuel rest).2)
    | (.error _, rest) => ([], rest)

def readStrictly (data : List UInt8) : List AdStructure := (strictItems data.length data).1

def behindMalformed (data : List UInt8) : List UInt8 := (strictItems data.length data).2

theorem structures_strictItems {fuel : Nat} {data : List UInt8} (h : data.length ≤ fuel) :
    structures (AdStructure.decode data) =
        (strictItems fuel data).1 ++ structures (AdStructure.decode (strictItems fuel data).2) ∧
      ((∀ e, .error e ∉ AdStructure.decode data) → (strictItems fuel data).2 = []) := by
  induction fuel generalizing data with
  | zero =>
    obtain rfl := List.length_eq_zero_iff.mp (Nat.le_zero.mp h)
    exact ⟨rfl, fun _ => rfl⟩
  | succ fuel ih =>
    cases data with
    | nil => exact ⟨rfl, fun _ => rfl⟩
    | cons len rest =>
      have hle := read_cons_length len rest
      have hrest : rest.length ≤ fuel := by simpa using h
      rw [decode_cons, strictItems]
      cases hread : AdStructure.read (len :: rest) with
      | mk item rest' =>
        rw [hread] at hle
        obtain ⟨hstructures, hnil⟩ := ih (hle.trans hrest)
        cases item with
        | error e => exact ⟨rfl, fun h => absurd List.mem_cons_self (h e)⟩
        | ok a =>
          refine ⟨congrArg (List.cons a) hstructures, ?_⟩
          intro h
          apply hnil
          intro e he
          exact h e (List.mem_cons_of_mem _ he)

/-- The parser accepts by all the structures the iterator yields: those before the first malformed one,
then those in the bytes it leaves. Without a malformed one nothing is left. -/
theorem accepted_structures (data : List UInt8) :
    (∀ ad, parseManufacturerData data = some ad ↔
      Accepts (structures (AdStructure.decode data)) ad) ∧
    structures (AdStructure.decode data) =
      readStrictly data ++ structures (AdStructure.decode (behindMalformed data)) ∧
    ((∀ e, .error e ∉ AdStructure.decode data) → behindMalformed data = []) :=
  ⟨parseManufacturerData_iff data, structures_strictItems (le_refl data.length)⟩

/- One structure, longer than the data, around the structures of a tag. -/
def brokenData : List UInt8 :=
  [31, 0xAA, 2, 0x09, 84, 8, 0xFF, 0xFF, 0xFF, 0, 0, 0, 7, 37]

theorem readStrictly_not_accepts : ¬ ∀ data ad, parseManufacturerData data = some ad ↔
    Accepts (readStrictly data) ad := by
  intro h
  have hparse : parseManufacturerData brokenData = some ⟨⟨"T", by decide⟩, 7, 37⟩ := rfl
  have hname := ((h _ _).mp hparse).name
  cases hname

end AssetTracker.Scanner
