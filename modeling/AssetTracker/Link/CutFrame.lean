import AssetTracker.Link.Resync
import AssetTracker.Gateway.Chunking

/-! A receiver that comes in the middle of a frame. The format has no checksum and no length: what is
left of the frame is returned when it happens to decode, and dropped otherwise. -/
namespace AssetTracker.Link
open Bounded Lib Gateway Scanner Wire

theorem detectedTag_encode_zeros {tag : DetectedTag} (hrssi : tag.rssi = 0)
    (hsequence : tag.sequence = 0) :
    ∃ front, Wire.detectedTag.encode tag = front ++ [0] ++ [0] := by
  have hi8 : i8.encode 0 = [0] := rfl
  have hu32 : u32.encode 0 = [0] := rfl
  refine ⟨(Codec.text usize (by decide)).encode tag.addr ++
    ((Codec.text usize (by decide)).encode tag.name ++ u16.encode tag.age), ?_⟩
  simp only [Wire.detectedTag, Codec.convert_encode, Codec.pair_encode, hrssi, hsequence, hi8, hu32,
    List.append_assoc]

/-- The last tag ends in its signal strength and its sequence number; two zeros there are two empty
blocks, and on their own these read as an empty list. -/
theorem cut_frame_decodes {t : TagsSeen} {tags : List DetectedTag} {tag : DetectedTag}
    (h : t.tags.toList = tags ++ [tag]) (hrssi : tag.rssi = 0) (hsequence : tag.sequence = 0) :
    [1, 1] <:+ body t ∧ fromBytesCobs [1, 1] = some ⟨.empty⟩ := by
  refine ⟨?_, rfl⟩
  obtain ⟨front, hfront⟩ := detectedTag_encode_zeros hrssi hsequence
  obtain ⟨count, hcount⟩ : ∃ count, Wire.tagsSeen.encode t =
      count ++ t.tags.toList.flatMap Wire.detectedTag.encode := ⟨_, rfl⟩
  have hall : Wire.tagsSeen.encode t =
      count ++ tags.flatMap Wire.detectedTag.encode ++ front ++ [0] ++ [0] := by
    rw [hcount, h, List.flatMap_append, List.flatMap_singleton, hfront]
    simp only [List.append_assoc]
  refine ⟨Cobs.encode (count ++ tags.flatMap Wire.detectedTag.encode ++ front), ?_⟩
  rw [body, hall, Cobs.encode_append_zero, Cobs.encode_append_zero, List.append_assoc _ [1] [1],
    List.singleton_append]

/- The tag of the demo run, heard at 0 dBm with sequence number 0. -/
def zeroReport : LeAdvReport :=
  ⟨demoAddr, 0, [2, 1, 6, 2, 9, 0x54, 8, 0xFF, 0xFF, 0xFF, 0, 0, 0, 0, 37]⟩

def zeroTag : TagReport := { demoTag with rssi := 0, sequence := 0 }

def zeroState : State := ⟨0, .empty, ⟨[([0x11, 0x22, 0x33], zeroTag)], by simp, by simp⟩⟩

def zeroTags : TagsSeen := snapshotTags demoPlatform 0 zeroState.seen

theorem zeroRun : (scanner demoPlatform).Run
    [.frame 0 zeroTags (some (frame zeroTags)), .dequeued zeroTag] zeroState :=
  Lib.Machine.run_of_exec [.onAdvReports [some zeroReport], .receiveTags, .sendScanData] rfl

/-- The scanner can send a frame of one tag whose last bytes make the receiver return no tags. -/
theorem cut_frame_accepted : ¬ ∀ (p : Platform) (trace : List Obs) (s : State),
    (scanner p).Run trace s → ∀ now t₀, Obs.frame now t₀ (some (frame t₀)) ∈ trace →
      ∀ g, g <:+ body t₀ → ∀ uart, bytesOf (readsOf uart) = g ++ [0] →
        ∀ t used, waitForDecodedMessage .empty [] uart = .returned t used →
          ∃ now data, Obs.frame now t data ∈ trace := by
  intro h
  have hsuffix : [1, 1] <:+ body zeroTags :=
    (cut_frame_decodes (List.nil_append _).symm rfl rfl).1
  let uart : List FillBuf := [.ok emptyFrame]
  have hret : waitForDecodedMessage .empty [] uart = .returned ⟨.empty⟩ (readsOf uart) := by
    rw [wait_read]
    rfl
  obtain ⟨now, data, hmem⟩ := h demoPlatform _ zeroState zeroRun 0 zeroTags (by simp) [1, 1] hsuffix
    uart rfl ⟨.empty⟩ _ hret
  obtain ⟨-, htags, -⟩ : now = 0 ∧ (⟨.empty⟩ : TagsSeen) = zeroTags ∧
      data = some (frame zeroTags) := by simpa using hmem
  have hlen := congrArg (fun t : TagsSeen => t.tags.toList.length) htags
  simp [zeroTags, snapshotTags, zeroState] at hlen

/-- A receiver that begins inside a frame, because the front was lost or because a full buffer was
cleared there, returns, if it returns, what the rest of that frame decodes to if it decodes, and
otherwise the tags of the frame behind it, as the scanner serialised them. -/
theorem cut_frame_returned {t₀ : TagsSeen} {g : List UInt8} (hg : g <:+ body t₀) {ts : List TagsSeen}
    {uart : List FillBuf} (hline : bytesOf (readsOf uart) <+: g ++ 0 :: line ts)
    {b : PacketBuffer} (hstart : b = .empty ∨ ∃ read rest, readsOf uart = read :: rest ∧
      packetBufferLen < b.toList.length + read.bytes.length)
    {p p' : List Read} {t : TagsSeen} (h : waitForDecodedMessage b p uart = .returned t p') :
    fromBytesCobs g = some t ∨ (fromBytesCobs g = none ∧ ∃ ts', ts = t :: ts') := by
  have hempty : receive .empty p (readsOf uart) = .returned t p' := by
    rw [wait_eq_receive] at h
    cases hstart with
    | inl hb => rwa [hb] at h
    | inr hover =>
      obtain ⟨read, rest, hrs, hover⟩ := hover
      rwa [hrs, receive_cleared hover, ← hrs] at h
  have hz : 0 ∉ g := fun hz => zero_not_mem_body t₀ (hg.mem hz)
  exact cut_returned hz (hg.length_le.trans (body_length_le t₀)) hline hempty

/- The last byte of the frame of an empty list, and then that frame again. -/
def lateUart : List FillBuf :=
  [.ok emptyFrameEnd, .ok emptyFrame]

theorem cut_frame_returned_late :
    waitForDecodedMessage .empty [] lateUart = .returned ⟨.empty⟩ (readsOf lateUart) ∧
    (fromBytesCobs [1] = some ⟨.empty⟩ ∨
      (fromBytesCobs [1] = none ∧ ∃ ts', [(⟨.empty⟩ : TagsSeen)] = ⟨.empty⟩ :: ts')) := by
  have hret : waitForDecodedMessage .empty [] lateUart = .returned ⟨.empty⟩ (readsOf lateUart) := by
    rw [lateUart, wait_read]
    change waitForDecodedMessage .empty _ [_] = _
    rw [wait_read]
    rfl
  have hg : [1] <:+ body ⟨.empty⟩ := ⟨[1], rfl⟩
  have hline : bytesOf (readsOf lateUart) <+: [1] ++ 0 :: line [⟨.empty⟩] := ⟨[], rfl⟩
  exact ⟨hret, cut_frame_returned hg hline (Or.inl rfl) hret⟩

end AssetTracker.Link
