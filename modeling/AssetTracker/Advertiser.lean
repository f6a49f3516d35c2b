import AssetTracker.Scanner.Format

/-! What a tag advertises, and that the scanner reads it back: the advertiser writes three structures
into its buffer, the scanner finds the name and the payload among any others, in any order. -/
namespace AssetTracker.Advertiser
open Bounded Scanner

structure AdvertisementPayload where
  sequence : UInt32
  channelNumber : UInt8

def u32ToBeBytes (x : UInt32) : List UInt8 :=
  [(x >>> 24).toUInt8, (x >>> 16).toUInt8, (x >>> 8).toUInt8, x.toUInt8]

def AdvertisementPayload.toBytes (p : AdvertisementPayload) : List UInt8 :=
  u32ToBeBytes p.sequence ++ [p.channelNumber]

/-- The type byte of a structure and the bytes behind it; company identifiers are little-endian. -/
def adType : AdStructure → UInt8
  | .completeLocalName _ => 0x09
  | .manufacturerSpecificData _ _ => 0xFF
  | .other ty _ => ty

def adData : AdStructure → List UInt8
  | .completeLocalName data => data
  | .manufacturerSpecificData companyIdentifier payload =>
    UInt8.ofNat companyIdentifier :: UInt8.ofNat (companyIdentifier / 256) :: payload
  | .other _ data => data

def encode (a : AdStructure) : List UInt8 :=
  UInt8.ofNat ((adData a).length + 1) :: adType a :: adData a

/-- Writing behind what is in the buffer already; it fails at the first structure without room. -/
def encodeSlice (capacity : Nat) : List AdStructure → List UInt8 → Except CodecError (List UInt8)
  | [], written => .ok written
  | a :: l, written =>
    if written.length + (encode a).length ≤ capacity then encodeSlice capacity l (written ++ encode a)
    else .error .insufficientSpace

def leGeneralDiscoverable : UInt8 := 0b00000010

def brEdrNotSupported : UInt8 := 0b00000100

def flags (value : UInt8) : AdStructure := .other 0x01 [value]

def advStructures (tagName : List UInt8) (payload : AdvertisementPayload) : List AdStructure :=
  [flags (leGeneralDiscoverable ||| brEdrNotSupported), .completeLocalName tagName,
    .manufacturerSpecificData 0xFFFF payload.toBytes]

def advData (tagName : List UInt8) (payload : AdvertisementPayload) :
    Except CodecError (List UInt8) :=
  encodeSlice 31 (advStructures tagName payload) []

/-- Neither too short nor too long for its length byte, and of the kind its type byte says. -/
structure WellFormed (a : AdStructure) : Prop where
  nonempty : adData a ≠ []
  length_le : (adData a).length ≤ 254
  ofData : AdStructure.ofData (adType a) (adData a) = a

theorem encodeSlice_eq_ok {capacity : Nat} (l : List AdStructure) {written : List UInt8}
    (h : written.length + (l.flatMap encode).length ≤ capacity) :
    encodeSlice capacity l written = .ok (written ++ l.flatMap encode) := by
  induction l generalizing written with
  | nil => simp [encodeSlice]
  | cons a l ih =>
    simp only [List.flatMap_cons, List.length_append] at h
    rw [encodeSlice, if_pos (by omega), ih (by rw [List.length_append]; omega)]
    simp

theorem read_encode {a : AdStructure} (h : WellFormed a) (rest : List UInt8) :
    AdStructure.read (encode a ++ rest) = (.ok a, rest) := by
  have hpos := List.length_pos_iff.mpr h.nonempty
  have hle := h.length_le
  have hlen : (UInt8.ofNat ((adData a).length + 1)).toNat = (adData a).length + 1 := by
    rw [UInt8.toNat_ofNat']
    omega
  have hnot : ¬ UInt8.ofNat ((adData a).length + 1) < 2 := by
    have htwo : (2 : UInt8).toNat = 2 := rfl
    rw [UInt8.lt_iff_toNat_lt, hlen, htwo]
    omega
  have hfits : ¬ (adData a ++ rest).length < (adData a).length := by simp
  simp only [encode, List.cons_append, AdStructure.read, if_neg hnot, hlen, Nat.add_sub_cancel,
    if_neg hfits, List.take_left, List.drop_left, h.ofData]

theorem decode_encode {a : AdStructure} (h : WellFormed a) (rest : List UInt8) :
    AdStructure.decode (encode a ++ rest) = .ok a :: AdStructure.decode rest := by
  have hread := read_encode h rest
  rw [encode, List.cons_append, List.cons_append] at hread ⊢
  rw [decode_cons, hread]

theorem structures_decode {l : List AdStructure} (h : ∀ a ∈ l, WellFormed a) :
    structures (AdStructure.decode (l.flatMap encode)) = l := by
  induction l with
  | nil => rfl
  | cons a l ih =>
    rw [List.flatMap_cons, decode_encode (h a List.mem_cons_self)]
    exact congrArg (List.cons a) (ih fun b hb => h b (List.mem_cons_of_mem a hb))

theorem payloadFields_toBytes (p : AdvertisementPayload) :
    payloadFields p.toBytes = some (p.sequence, p.channelNumber) := by
  have hx := p.sequence.toNat_lt
  have hseq : u32FromBeBytes (p.sequence >>> 24).toUInt8 (p.sequence >>> 16).toUInt8
      (p.sequence >>> 8).toUInt8 p.sequence.toUInt8 = p.sequence := by
    rw [← UInt32.toNat_inj]
    simp [u32FromBeBytes, Nat.shiftRight_eq_div_pow]
    omega
  simp [payloadFields, AdvertisementPayload.toBytes, u32ToBeBytes, hseq]

theorem flags_wellFormed (value : UInt8) : WellFormed (flags value) where
  nonempty := List.cons_ne_nil _ _
  length_le := by simp [adData, flags]
  ofData := rfl

theorem completeLocalName_wellFormed {name : List UInt8} (hne : name ≠ [])
    (hle : name.length ≤ 254) : WellFormed (.completeLocalName name) :=
  ⟨hne, hle, rfl⟩

theorem manufacturerSpecificData_wellFormed {payload : List UInt8} (hle : payload.length ≤ 252) :
    WellFormed (.manufacturerSpecificData 0xFFFF payload) where
  nonempty := List.cons_ne_nil _ _
  length_le := by
    simp only [adData, List.length_cons]
    omega
  ofData := rfl

theorem toBytes_length (p : AdvertisementPayload) : p.toBytes.length = 5 := rfl

theorem advData_eq_ok {tagName : List UInt8} (h : tagName.length ≤ 17)
    (payload : AdvertisementPayload) :
    advData tagName payload = .ok ((advStructures tagName payload).flatMap encode) := by
  apply encodeSlice_eq_ok
  simp [advStructures, encode, adData, flags, toBytes_length]
  omega

/-- What the scanner makes of a tag's advertisement. -/
def advertisement (tagName : BString 17) (payload : AdvertisementPayload) : ParsedAdvertisement where
  name := ⟨tagName.str, tagName.fits.trans (by decide)⟩
  sequence := payload.sequence
  channelNumber := payload.channelNumber

/-- Neither name nor manufacturer data. -/
def Unrelated (a : AdStructure) : Prop := localName? a = none ∧ manufacturer? a = none

theorem accepts_of_perm {tagName : BString 17} {payload : AdvertisementPayload}
    {l others : List AdStructure} (hothers : ∀ a ∈ others, Unrelated a)
    (hl : l.Perm (advStructures tagName.bytes payload ++ others)) :
    Accepts l (advertisement tagName payload) := by
  have hnone : localNames others = [] ∧ manufacturers others = [] :=
    ⟨List.filterMap_eq_nil_iff.mpr fun a ha => (hothers a ha).1,
      List.filterMap_eq_nil_iff.mpr fun a ha => (hothers a ha).2⟩
  have hnames : localNames l = [tagName.bytes] := by
    apply List.perm_singleton.mp
    have hperm := hl.filterMap localName?
    rwa [List.filterMap_append, show others.filterMap localName? = [] from hnone.1] at hperm
  have hmanufacturers : manufacturers l = [(0xFFFF, payload.toBytes)] := by
    apply List.perm_singleton.mp
    have hperm := hl.filterMap manufacturer?
    rwa [List.filterMap_append, show others.filterMap manufacturer? = [] from hnone.2] at hperm
  have hlen : tagName.bytes.length ≤ tagNameMaxLen := tagName.bytes_length.trans (by decide)
  refine ⟨⟨?_, ?_⟩, ?_, ?_⟩
  · simpa [hnames] using hlen
  · simp [hmanufacturers, toBytes_length]
  · rw [hnames]
    exact BString.ofBytes_widen tagName (tagName.fits.trans (by decide))
  · rw [hmanufacturers]
    exact payloadFields_toBytes payload

theorem advStructures_wellFormed {tagName : BString 17} (hne : tagName.str ≠ "")
    (payload : AdvertisementPayload) :
    ∀ a ∈ advStructures tagName.bytes payload, WellFormed a := by
  have hlen := tagName.bytes_length
  have hbytes : tagName.bytes ≠ [] := by
    intro h
    exact hne (String.utf8ByteSize_eq_zero_iff.mp (congrArg List.length h))
  simp only [advStructures, List.mem_cons, List.not_mem_nil, or_false, forall_eq_or_imp,
    forall_eq]
  refine ⟨flags_wellFormed _, ?_, ?_⟩
  · exact completeLocalName_wellFormed hbytes (by omega)
  · exact manufacturerSpecificData_wellFormed (by rw [toBytes_length]; omega)

/-- An advertisement always fits the buffer. Unless the name is empty the scanner reads back what the
tag advertises, also from data with the structures in another order and others between them. -/
theorem advertisement_parsed (tagName : BString 17) (payload : AdvertisementPayload) :
    ∃ data, advData tagName.bytes payload = .ok data ∧ data.length ≤ 31 ∧
      (tagName.str ≠ "" →
        parseManufacturerData data = some (advertisement tagName payload) ∧
        ∀ others l : List AdStructure, (∀ a ∈ others, WellFormed a ∧ Unrelated a) →
          l.Perm (advStructures tagName.bytes payload ++ others) →
          parseManufacturerData (l.flatMap encode) = some (advertisement tagName payload)) := by
  have hlen := tagName.bytes_length
  refine ⟨_, advData_eq_ok hlen payload, ?_, ?_⟩
  · simp [advStructures, encode, adData, flags, toBytes_length]
    omega
  · intro hne
    have hparse : ∀ others l : List AdStructure, (∀ a ∈ others, WellFormed a ∧ Unrelated a) →
        l.Perm (advStructures tagName.bytes payload ++ others) →
        parseManufacturerData (l.flatMap encode) = some (advertisement tagName payload) := by
      intro others l hothers hl
      have hwell : ∀ a ∈ l, WellFormed a := by
        intro a ha
        cases List.mem_append.mp (hl.mem_iff.mp ha) with
        | inl h => exact advStructures_wellFormed hne payload a h
        | inr h => exact (hothers a h).1
      rw [parseManufacturerData_iff, structures_decode hwell]
      exact accepts_of_perm (fun a ha => (hothers a ha).2) hl
    exact ⟨hparse [] _ (by simp) (by simp), hparse⟩

/- The payload first, then a transmission power, the name and the flags. -/
theorem reordered_advertisement_parsed :
    parseManufacturerData
      [8, 0xFF, 0xFF, 0xFF, 0, 0, 1, 2, 38, 2, 0x0A, 4, 4, 0x09, 0x54, 0x61, 0x67, 2, 0x01, 6] =
      some ⟨⟨"Tag", by decide⟩, 258, 38⟩ := by
  obtain ⟨data, _, _, h⟩ := advertisement_parsed ⟨"Tag", by decide⟩ ⟨258, 38⟩
  have hpower : WellFormed (.other 0x0A [4]) ∧ Unrelated (.other 0x0A [4]) :=
    ⟨⟨by simp [adData], by simp [adData], rfl⟩, rfl, rfl⟩
  exact (h (by decide)).2 [.other 0x0A [4]]
    [.manufacturerSpecificData 0xFFFF [0, 0, 1, 2, 38], .other 0x0A [4],
      .completeLocalName [0x54, 0x61, 0x67], flags 6] (by simpa using hpower) (by decide)

/-- Without a name nothing is read back: its structure is shorter than any the scanner reads. -/
theorem nameless_advertisement_not_parsed :
    ¬ ∀ (tagName : BString 17) (payload : AdvertisementPayload), ∃ data,
      advData tagName.bytes payload = .ok data ∧
        parseManufacturerData data = some (advertisement tagName payload) := by
  intro h
  obtain ⟨data, hdata, hparse⟩ := h ⟨"", by decide⟩ ⟨7, 37⟩
  have heq : data = [2, 0x01, 6, 1, 0x09, 8, 0xFF, 0xFF, 0xFF, 0, 0, 0, 7, 37] :=
    (Except.ok.inj hdata).symm
  rw [heq] at hparse
  cases hparse

end AssetTracker.Advertiser
