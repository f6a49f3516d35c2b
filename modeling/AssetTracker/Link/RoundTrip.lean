import AssetTracker.Scanner.StoreInvariant
import AssetTracker.Gateway.Receiver

/-! One frame on the line: what the scanner serialises in a reachable state is what the gateway
returns, however the bytes are cut into reads. -/
namespace AssetTracker.Link
open Bounded Gateway Scanner Wire

theorem zero_not_mem_part {s l r : List UInt8} (hs : 0 ∉ s) (h : l ++ r = s ++ [0]) (hr : r ≠ []) :
    0 ∉ l := by
  have hlast : r.dropLast ++ [r.getLast hr] = r := List.dropLast_append_getLast hr
  rw [← hlast, ← List.append_assoc] at h
  have hl := (List.append_inj' h rfl).1
  intro hz
  apply hs
  rw [← hl]
  exact List.mem_append_left _ hz

theorem receive_part {s : List UInt8} {rs rs' : List Read} (hs : 0 ∉ s)
    (hlen : s.length + 1 ≤ packetBufferLen) (h : bytesOf (rs ++ rs') = s ++ [0]) (hrs' : rs' ≠ []) :
    ∃ b : PacketBuffer, receive .empty [] rs = .waiting b rs ∧ b.toList = bytesOf rs := by
  rw [bytesOf_append] at h
  have hz : 0 ∉ bytesOf rs := zero_not_mem_part hs h (bytesOf_ne_nil hrs')
  have hl := congrArg List.length h
  simp only [List.length_append, List.length_singleton] at hl
  have hle : ((BVec.empty : PacketBuffer).toList ++ bytesOf rs).length ≤ packetBufferLen := by
    simp only [BVec.empty_toList, List.nil_append]
    omega
  obtain ⟨b, hb⟩ := receive_kept (by simpa using hz) hle []
  exact ⟨b, by simpa using hb⟩

/-- At the last byte of a frame its tags are returned. -/
theorem receive_frame {t : TagsSeen} {rs : List Read} (h : bytesOf rs = frame t) :
    receive .empty [] rs = .returned t rs := by
  have hlen := body_length_le t
  have hfit : (body t).length + 1 ≤ packetBufferLen := by
    simp only [packetBufferLen]
    omega
  induction rs using List.reverseRecOn with
  | nil => simp [frame] at h
  | append_singleton rs last _ =>
    obtain ⟨b, hw, hb⟩ := receive_part (zero_not_mem_body t) hfit h (by simp)
    have hbytes : b.toList ++ last.bytes = body t ++ 0 :: [] := by
      rw [hb]
      simpa [frame] using h
    have hl := congrArg List.length hbytes
    simp only [List.length_append, List.length_singleton] at hl
    have hle : b.toList.length + last.bytes.length ≤ packetBufferLen := by omega
    rw [receive_append, hw]
    exact wait_decoded ((appendRead_fits hle).trans hbytes) (zero_not_mem_body t) (fromBytesCobs_body t) rs []

/-- Whatever state the scanner has reached, its next frame fits the serialisation buffer and carries
every stored tag with its printed address, and the gateway returns exactly these tags after the last
byte of the frame and not before, with nothing dropped on the way. -/
theorem uart_round_trip (p : Platform) {trace : List Obs} {s : State}
    (h : (scanner p).Run trace s) :
    ∃ t, step p s .sendScanData = some (s, [.frame s.clock t (some (frame t))]) ∧
      t.tags.toList = s.seen.entries.map (fun e => tagOf p s.clock e.2) ∧
      (∀ e ∈ s.seen.entries, (tagOf p s.clock e.2).addr.str =
        eui48Text p.upperHex e.2.addr.bytes.reverse) ∧
      (frame t).length ≤ serializeBuffer ∧
      ∀ uart, bytesOf (readsOf uart) = frame t →
        (∀ u u', uart = u ++ u' → readsOf u' ≠ [] → ∃ b : PacketBuffer,
          waitForDecodedMessage .empty [] u = .waiting b (readsOf u) ∧
          b.toList = bytesOf (readsOf u)) ∧
        waitForDecodedMessage .empty [] uart = .returned t (readsOf uart) := by
  let t := snapshotTags p s.clock s.seen
  have hlen := body_length_le t
  have hfit : (body t).length + 1 ≤ packetBufferLen := by
    simp only [packetBufferLen]
    omega
  refine ⟨t, step_sendScanData (storeInv_run h).seenPast, rfl, ?_, ?_, ?_⟩
  · intro e _
    exact addrText_str p.upperHex e.2.addr
  · exact (frame_length_le t).trans (by decide)
  · intro uart huart
    constructor
    · intro u u' hu hu'
      rw [hu, readsOf_append] at huart
      rw [wait_eq_receive]
      exact receive_part (zero_not_mem_body t) hfit huart hu'
    · rw [wait_eq_receive]
      exact receive_frame huart

/-- The finest cutting: one byte a read. -/
def singleReads (bytes : List UInt8) : List FillBuf :=
  bytes.map fun x => .ok ⟨[x], by simp, by simp⟩

theorem bytesOf_singleReads (bytes : List UInt8) : bytesOf (readsOf (singleReads bytes)) = bytes := by
  induction bytes with
  | nil => rfl
  | cons x bytes ih => simpa [singleReads, readsOf] using ih

theorem uart_round_trip_demo : ∃ t : TagsSeen,
    t.tags.toList = [tagOf demoPlatform 0 demoTag] ∧
    waitForDecodedMessage .empty [] (singleReads (frame t)) =
      .returned t (readsOf (singleReads (frame t))) := by
  obtain ⟨t, -, ht, -, -, hu⟩ := uart_round_trip demoPlatform demoRun
  exact ⟨t, by simpa [demoState] using ht, (hu _ (bytesOf_singleReads _)).2⟩

end AssetTracker.Link
