import AssetTracker.Scanner.Frame

/-! The address prefix from its setting to the texts sent for an address. The setting is written most
significant byte first and reversed at build time, addresses are held the other way round, and each
text is printed from the reversed address; hex digits compare without regard to case. -/
namespace AssetTracker.Scanner
open Bounded

/- Every character that counts as a hex digit, with its value. -/
def hexTable : List (Char × Nat) :=
  "0123456789abcdef".toList.zipIdx ++ "ABCDEF".toList.zipIdx 10

def hexValue (c : Char) : Option Nat := (hexTable.find? fun x => x.1 = c).map Prod.snd

def hexBytes : List Char → Option (List UInt8)
  | [] => some []
  | [_] => none
  | hi :: lo :: rest => do
    let hi ← hexValue hi
    let lo ← hexValue lo
    let bytes ← hexBytes rest
    pure (UInt8.ofNat (16 * hi + lo) :: bytes)

/-- `TAG_PREFIX`: the colons are dropped, the bytes reversed; anything but three bytes is refused by
the compiler. -/
def tagPrefix (prefixStr : String) : Option TagPrefix := do
  let eui48 ← hexBytes (prefixStr.toList.filter fun c => c ≠ ':')
  if h : eui48.reverse.length = 3 then some ⟨eui48.reverse, h⟩ else none

/-- What `scanner-aio-http` sends for a report; a text that does not fit would be a panic. -/
def aioPayload (upper : Bool) (tickHz : Nat) (deviceId : BString tagNameMaxLen)
    (value : TagReport) : Option AdvertisementPayload := do
  let mac ← BString.ofString (eui48Text upper value.addr.bytes.reverse)
  pure { advType := ⟨"", by decide⟩, channel := value.channelNumber, mac := mac, name := value.name,
         rawRssi := value.rssi, rssi := value.rssi, sequence := value.sequence,
         snifferId := deviceId, timestamp := value.timestamp * 1000 / tickHz }

/-- Six digits, a colon after every second one but the last. -/
def withColons : List Char → List Char
  | [a, b, c, d, e, f] => [a, b, ':', c, d, ':', e, f]
  | digits => digits

def lower (l : List Char) : List Char := l.map Char.toLower

theorem hexTable_lower : ∀ x ∈ hexTable, x.1.toLower = hexDigit false x.2 ∧ x.2 < 16 := by
  decide

theorem hexValue_some {c : Char} {d : Nat} (h : hexValue c = some d) :
    c.toLower = hexDigit false d ∧ d < 16 := by
  obtain ⟨x, hx, rfl⟩ := Option.map_eq_some_iff.mp h
  have hc : x.1 = c := by simpa using List.find?_some hx
  rw [← hc]
  exact hexTable_lower x (List.mem_of_find?_eq_some hx)

theorem hexDigit_lower (upper : Bool) {d : Nat} (h : d < 16) :
    (hexDigit upper d).toLower = hexDigit false d := by
  cases upper <;> interval_cases d <;> decide

theorem hexDigit_inj {d d' : Nat} (h : d < 16) (h' : d' < 16) :
    hexDigit false d = hexDigit false d' ↔ d = d' := by
  have hall : ∀ i < 16, ∀ j < 16, hexDigit false i = hexDigit false j → i = j := by decide
  exact ⟨hall d h d' h', congrArg _⟩

theorem hexByte_lower_iff (upper : Bool) (x : UInt8) {a b : Char} {hi lo : Nat}
    (ha : hexValue a = some hi) (hb : hexValue b = some lo) :
    lower [a, b] = lower (hexByte upper x) ↔ UInt8.ofNat (16 * hi + lo) = x := by
  have hx := x.toNat_lt
  obtain ⟨ha, hhi⟩ := hexValue_some ha
  obtain ⟨hb, hlo⟩ := hexValue_some hb
  have h₁ : x.toNat / 16 < 16 := by omega
  have h₂ : x.toNat % 16 < 16 := by omega
  simp only [lower, hexByte, List.map_cons, List.map_nil, ha, hb, hexDigit_lower upper h₁,
    hexDigit_lower upper h₂, List.cons.injEq, hexDigit_inj hhi h₁, hexDigit_inj hlo h₂, and_true,
    ← UInt8.toNat_inj, UInt8.toNat_ofNat']
  omega

theorem hexBytes_six {a b c d e f : Char} {va vb vc vd ve vf : Nat} (ha : hexValue a = some va)
    (hb : hexValue b = some vb) (hc : hexValue c = some vc) (hd : hexValue d = some vd)
    (he : hexValue e = some ve) (hf : hexValue f = some vf) :
    hexBytes [a, b, c, d, e, f] = some [UInt8.ofNat (16 * va + vb), UInt8.ofNat (16 * vc + vd),
      UInt8.ofNat (16 * ve + vf)] := by
  simp [hexBytes, ha, hb, hc, hd, he, hf]

/-- The text of an address starts with the six written digits exactly when the bytes they stand for
are its first three, and these are the last three as the address is held. -/
theorem withColons_iff_suffix (upper : Bool) (addr : BdAddr) {a b c d e f : Char}
    {va vb vc vd ve vf : Nat} (ha : hexValue a = some va) (hb : hexValue b = some vb)
    (hc : hexValue c = some vc) (hd : hexValue d = some vd) (he : hexValue e = some ve)
    (hf : hexValue f = some vf) :
    lower (withColons [a, b, c, d, e, f]) <+: lower (addrText upper addr).str.toList ↔
      [UInt8.ofNat (16 * ve + vf), UInt8.ofNat (16 * vc + vd), UInt8.ofNat (16 * va + vb)] <:+
        addr.bytes := by
  match hbytes : addr.bytes, addr.length_bytes with
  | [b₀, b₁, b₂, b₃, b₄, b₅], _ =>
    have h₁ := hexByte_lower_iff upper b₅ ha hb
    have h₂ := hexByte_lower_iff upper b₄ hc hd
    have h₃ := hexByte_lower_iff upper b₃ he hf
    simp only [lower, hexByte, List.map_cons, List.map_nil, List.cons.injEq, and_true] at h₁ h₂ h₃
    have htext : (addrText upper addr).str.toList = hexByte upper b₅ ++ ':' :: (hexByte upper b₄ ++
        ':' :: (hexByte upper b₃ ++ ':' :: (hexByte upper b₂ ++ ':' :: (hexByte upper b₁ ++
          ':' :: hexByte upper b₀)))) := by
      simp [addrText_str, hbytes, eui48Text, List.intercalate, List.intersperse]
    have hcolon : ':'.toLower = ':' := rfl
    simp only [htext, withColons, lower, hexByte, List.map_cons, List.map_nil,
      List.cons_append, List.nil_append, List.cons_prefix_cons, List.nil_prefix, hcolon]
    simp only [List.suffix_iff_eq_drop, List.length_cons, List.length_nil, List.drop_succ_cons,
      List.drop_zero, List.cons.injEq, and_true, true_and, ← h₁, ← h₂, ← h₃]
    constructor
    · intro h
      obtain ⟨hab₁, hab₂, hcd₁, hcd₂, hef₁, hef₂⟩ := h
      exact ⟨⟨hef₁, hef₂⟩, ⟨hcd₁, hcd₂⟩, hab₁, hab₂⟩
    · intro h
      obtain ⟨hef, hcd, hab⟩ := h
      exact ⟨hab.1, hab.2, hcd.1, hcd.2, hef.1, hef.2⟩

theorem hexByte_inj (upper : Bool) {x y : UInt8} (h : hexByte upper x = hexByte upper y) :
    x = y := by
  have hx := x.toNat_lt
  have hy := y.toNat_lt
  have h₁ : x.toNat / 16 < 16 := by omega
  have h₂ : x.toNat % 16 < 16 := by omega
  have h₃ : y.toNat / 16 < 16 := by omega
  have h₄ : y.toNat % 16 < 16 := by omega
  have hlower := congrArg lower h
  simp only [lower, hexByte, List.map_cons, List.map_nil, hexDigit_lower upper h₁,
    hexDigit_lower upper h₂, hexDigit_lower upper h₃, hexDigit_lower upper h₄, List.cons.injEq,
    hexDigit_inj h₁ h₃, hexDigit_inj h₂ h₄, and_true] at hlower
  rw [← UInt8.toNat_inj]
  omega

theorem intercalate_hexByte_inj (upper : Bool) {l l' : List UInt8} (hlen : l.length = l'.length)
    (h : List.intercalate [':'] (l.map (hexByte upper)) =
      List.intercalate [':'] (l'.map (hexByte upper))) : l = l' := by
  induction l generalizing l' with
  | nil => exact (List.length_eq_zero_iff.mp hlen.symm).symm
  | cons x l ih =>
    cases l' with
    | nil => cases hlen
    | cons y l' =>
      have htail : l.length = l'.length := Nat.succ.inj hlen
      cases l with
      | nil =>
        cases l' with
        | nil =>
          have hx : x = y := hexByte_inj upper (by simpa using h)
          rw [hx]
        | cons y' l' => cases htail
      | cons x' l =>
        cases l' with
        | nil => cases htail
        | cons y' l' =>
          simp only [List.map_cons, List.intercalate_cons_cons] at h
          obtain ⟨hhead, hrest⟩ := List.append_inj h rfl
          have hx := hexByte_inj upper (List.append_cancel_right hhead)
          rw [hx, ih htail (by simpa only [List.map_cons] using hrest)]

/-- Different addresses have different texts. -/
theorem addrText_inj (upper : Bool) {addr addr' : BdAddr}
    (h : addrText upper addr = addrText upper addr') : addr = addr' := by
  have htext := congrArg BString.str h
  rw [addrText_str, addrText_str, eui48Text, eui48Text, String.ofList_inj] at htext
  have hlen : addr.bytes.reverse.length = addr'.bytes.reverse.length := by
    rw [List.length_reverse, List.length_reverse, addr.length_bytes, addr'.length_bytes]
  have hbytes := List.reverse_injective (intercalate_hexByte_inj upper hlen htext)
  cases addr
  cases addr'
  cases hbytes
  rfl

theorem aioPayload_mac (upper : Bool) (tickHz : Nat) (deviceId : BString tagNameMaxLen)
    (value : TagReport) : ∃ payload, aioPayload upper tickHz deviceId value = some payload ∧
      payload.mac = addrText upper value.addr := by
  have hlen : value.addr.bytes.reverse.length = 6 := by simpa using value.addr.length_bytes
  have hmac : (BString.ofString (eui48Text upper value.addr.bytes.reverse) :
      Option (BString addrStringLen)) = some (addrText upper value.addr) := by
    rw [addrText, BString.ofString_eq_some (eui48Text_size upper hlen).le, Option.getD_some]
  rw [aioPayload, hmac]
  exact ⟨_, rfl, rfl⟩

theorem detectedTag_addr {p : Platform} {now : Nat} {report : TagReport} {tag : DetectedTag}
    (h : detectedTag p now report = some tag) : tag.addr = addrText p.upperHex report.addr := by
  obtain ⟨age, _, htag⟩ := Option.bind_eq_some_iff.mp h
  cases htag
  rfl

theorem tagReport_isSome_iff (tp : TagPrefix) (instant : Nat) (report : LeAdvReport) :
    (tagReport tp instant report).isSome = true ↔
      tp.bytes <:+ report.addr.bytes ∧ (parseManufacturerData report.data).isSome = true := by
  by_cases h : tp.bytes.isSuffixOf report.addr.bytes = true
  · have hs : tp.bytes <:+ report.addr.bytes := by simpa using h
    cases hp : parseManufacturerData report.data <;> simp [tagReport, h, hs, hp]
  · have hs : ¬ tp.bytes <:+ report.addr.bytes := by simpa using h
    simp [tagReport, h, hs]

theorem tagReport_addr {tp : TagPrefix} {instant : Nat} {report : LeAdvReport} {r : TagReport}
    (h : tagReport tp instant report = some r) : r.addr = report.addr := by
  unfold tagReport at h
  split_ifs at h
  obtain ⟨ad, _, hr⟩ := Option.bind_eq_some_iff.mp h
  cases hr
  rfl

/-- A setting of six hex digits is read as the bytes they stand for, reversed as an address is held. -/
theorem tagPrefix_some {prefixStr : String} {digits : List Char}
    (hdigits : (prefixStr.toList.filter fun c => c ≠ ':') = digits) (hlen : digits.length = 6)
    (hhex : ∀ c ∈ digits, (hexValue c).isSome = true) (upper : Bool) :
    ∃ tp, tagPrefix prefixStr = some tp ∧ ∀ addr : BdAddr, tp.bytes <:+ addr.bytes ↔
      lower (withColons digits) <+: lower (addrText upper addr).str.toList := by
  match digits, hlen with
  | [a, b, c, d, e, f], _ =>
    simp only [List.mem_cons, List.not_mem_nil, or_false, forall_eq_or_imp, forall_eq,
      Option.isSome_iff_exists] at hhex
    obtain ⟨⟨va, ha⟩, ⟨vb, hb⟩, ⟨vc, hc⟩, ⟨vd, hd⟩, ⟨ve, he⟩, ⟨vf, hf⟩⟩ := hhex
    have hbytes := hexBytes_six ha hb hc hd he hf
    refine ⟨⟨[UInt8.ofNat (16 * ve + vf), UInt8.ofNat (16 * vc + vd),
      UInt8.ofNat (16 * va + vb)], rfl⟩, ?_, ?_⟩
    · rw [tagPrefix, hdigits, hbytes]
      rfl
    · intro addr
      exact (withColons_iff_suffix upper addr ha hb hc hd he hf).symm

/-- A setting of six hex digits filters by the text of the address: `on_adv_reports` queues, in order
and while there is room, the reports in the expected format whose text starts with the setting, each
under its own address. Both senders send this text; it fits and is unique. -/
theorem tagPrefix_filters {prefixStr : String} {digits : List Char}
    (hdigits : (prefixStr.toList.filter fun c => c ≠ ':') = digits) (hlen : digits.length = 6)
    (hhex : ∀ c ∈ digits, (hexValue c).isSome = true) (upper : Bool) :
    (∃ tp, tagPrefix prefixStr = some tp ∧
      (∀ addr : BdAddr, tp.bytes <:+ addr.bytes ↔
        lower (withColons digits) <+: lower (addrText upper addr).str.toList) ∧
      (∀ instant it (q : Queue), (onAdvReports tp instant it q).toList =
        (q.toList ++ (readReports it).filterMap (tagReport tp instant)).take channelCapacity) ∧
      (∀ instant report, (tagReport tp instant report).isSome = true ↔
        lower (withColons digits) <+: lower (addrText upper report.addr).str.toList ∧
          (parseManufacturerData report.data).isSome = true) ∧
      ∀ instant report r, tagReport tp instant report = some r →
        (∀ p now tag, p.upperHex = upper → detectedTag p now r = some tag →
          tag.addr = addrText upper report.addr) ∧
        ∀ tickHz deviceId, ∃ payload, aioPayload upper tickHz deviceId r = some payload ∧
          payload.mac = addrText upper report.addr) ∧
    (∀ p now report tag, p.upperHex = upper → detectedTag p now report = some tag →
      tag.addr = addrText upper report.addr) ∧
    (∀ tickHz deviceId value, ∃ payload, aioPayload upper tickHz deviceId value = some payload ∧
      payload.mac = addrText upper value.addr) ∧
    (∀ addr, (addrText upper addr).str = eui48Text upper addr.bytes.reverse) ∧
    ∀ addr addr', addrText upper addr = addrText upper addr' → addr = addr' := by
  have hsent : ∀ p now report tag, p.upperHex = upper → detectedTag p now report = some tag →
      tag.addr = addrText upper report.addr := by
    intro p now report tag hp htag
    rw [detectedTag_addr htag, hp]
  obtain ⟨tp, htp, hsuffix⟩ := tagPrefix_some hdigits hlen hhex upper
  refine ⟨⟨tp, htp, hsuffix, onAdvReports_toList tp, ?_, ?_⟩, hsent,
    fun tickHz deviceId value => aioPayload_mac upper tickHz deviceId value,
    addrText_str upper, fun _ _ => addrText_inj upper⟩
  · intro instant report
    rw [tagReport_isSome_iff, hsuffix]
  · intro instant report r hr
    have haddr := tagReport_addr hr
    refine ⟨?_, ?_⟩
    · intro p now tag hp htag
      rw [hsent p now r tag hp htag, haddr]
    · intro tickHz deviceId
      rw [← haddr]
      exact aioPayload_mac upper tickHz deviceId r

/- One colon and both cases, and a tag whose address starts with the prefix. -/
def mixedReport : LeAdvReport :=
  ⟨⟨[0x44, 0x55, 0x66, 0xEE, 0xDD, 0xCC], rfl⟩, -60,
    [2, 9, 0x54, 8, 0xFF, 0xFF, 0xFF, 0, 0, 0, 7, 37]⟩

theorem tagPrefix_filters_mixed : ∃ tp r tag, tagPrefix "cC:DdEE" = some tp ∧
    (onAdvReports tp 5 [some mixedReport, none] .empty).toList = [r] ∧
    detectedTag ⟨32768, tp, true⟩ 5 r = some tag ∧ tag.addr.str = "CC:DD:EE:66:55:44" := by
  have hdigits : ("cC:DdEE".toList.filter fun c => c ≠ ':') = "cCDdEE".toList := by decide
  have hhex : ∀ c ∈ "cCDdEE".toList, (hexValue c).isSome = true := List.all_eq_true.mp (by decide)
  obtain ⟨⟨tp, htp, _, hqueue, hpass, hsent⟩, _⟩ := tagPrefix_filters hdigits (by decide) hhex true
  have htext : lower (withColons "cCDdEE".toList) <+:
      lower (addrText true mixedReport.addr).str.toList := by decide
  have hparse : (parseManufacturerData mixedReport.data).isSome = true := by decide
  obtain ⟨r, hr⟩ := Option.isSome_iff_exists.mp ((hpass 5 mixedReport).mpr ⟨htext, hparse⟩)
  have htime : r.timestamp ≤ 5 := (tagReport_eq_some hr).1.le
  refine ⟨tp, r, _, htp, ?_, detectedTag_eq_some htime, ?_⟩
  · rw [hqueue, readReports, readReports, List.filterMap_cons_some hr]
    rfl
  · rw [(hsent 5 mixedReport r hr).1 ⟨32768, tp, true⟩ 5 _ rfl (detectedTag_eq_some htime)]
    decide

end AssetTracker.Scanner
