import AssetTracker.Link.Traced

/-! That tags arrive: a gateway that waits for them never waits in vain, whatever scanner, line and buffer
were in the middle of, and whatever has become of the bytes on the line. -/
namespace AssetTracker.Link.Tracker
open Bounded Lib Gateway Wire

variable {p : Scanner.Platform} {cfg : Updates.Config} {s s₁ : State} {obs trace : List Obs}
  {location : Option Location}

/-- The steps of the link alone. -/
def Event.Own : Event → Prop
  | .scanner .sendScanData => True
  | .write _ => True
  | .paused => True
  | .fillBuf _ => True
  | _ => False

/-- The link alone can bring the gateway some tags from here, before any time passes for it. -/
def Arrives (p : Scanner.Platform) (cfg : Updates.Config) (s : State) (location : Option Location) :
    Prop :=
  (tracker p cfg).Reaches Event.Own
    (fun s' _ => ∃ tags, s'.gateway = (Updates.afterDecoded location tags s.gateway).1) s

theorem Arrives.step {e : Event} (h : Arrives p cfg s₁ location)
    (hstep : step p cfg s e = some (s₁, obs)) (he : e.Own) (hgateway : s₁.gateway = s.gateway) :
    Arrives p cfg s location := by
  unfold Arrives at h
  rw [hgateway] at h
  exact Machine.Reaches.step h hstep he

theorem available_read {read : Read} {rest : List UInt8} (h : s.line = read.bytes ++ rest) :
    available s.line read.bytes.length = some read := by
  have hpos := List.length_pos_iff.mpr read.nonempty
  have hle : read.bytes.length ≤ s.line.length := by
    rw [h, List.length_append]
    omega
  have hbytes : s.line.take read.bytes.length = read.bytes := by rw [h, List.take_left]
  rw [available, dif_pos ⟨hpos, read.fits, hle⟩]
  congr

theorem iteration_fits {b : PacketBuffer} {read : Read}
    (h : b.toList.length + read.bytes.length ≤ packetBufferLen) :
    iteration b read = handlePacket (appendRead b read) := by
  have hfit : (b.toList ++ read.bytes).length ≤ packetBufferLen := by simpa using h
  rw [iteration, BVec.extendFromSlice, dif_pos hfit, appendRead, dif_pos hfit]

section Reading
variable {read : Read} {rest : List UInt8} (ps rs : List Read)

theorem fitting_arrives (hp : s.gateway.phase = .receiving location)
    (hr : s.gateway.uartRequest = true) (hline : s.line = read.bytes ++ rest)
    (hfit : s.packetBuffer.toList.length + read.bytes.length ≤ packetBufferLen)
    (hnext : ∀ b, (∀ rs, receive s.packetBuffer ps (read :: rs) = receive b (ps ++ [read]) rs) →
      Arrives p cfg { s with packetBuffer := b, line := rest } location) :
    Arrives p cfg s location := by
  have hread := available_read hline
  have hi := iteration_fits hfit
  have hdrop : s.line.drop read.bytes.length = rest := by rw [hline, List.drop_left]
  have hgoes : ∀ b, handlePacket (appendRead s.packetBuffer read) = .next b →
      Arrives p cfg s location := by
    intro b hh
    rw [hh] at hi
    have hstep : step p cfg s (.fillBuf (some read.bytes.length)) =
        some ({ s with packetBuffer := b, line := rest }, []) := by
      simp only [step, fillBufStep, hr, hread, hi, hdrop]
    refine (hnext b ?_).step hstep trivial rfl
    intro rs
    rw [receive, List.map_cons, wait_read, hh]
    rfl
  cases segment_cases 0 (appendRead s.packetBuffer read).toList with
  | inl hz => exact hgoes _ (handlePacket_of_not_mem hz)
  | inr hseg =>
    obtain ⟨first, r, hb, hz⟩ := hseg
    obtain ⟨b, _, hh⟩ := handlePacket_segment hb hz
    cases ht : fromBytesCobs first with
    | none =>
      rw [ht] at hh
      exact hgoes b hh
    | some tags =>
      rw [ht] at hh
      rw [hh] at hi
      have hstep : (tracker p cfg).step s (.fillBuf (some read.bytes.length)) =
          some ({ s with gateway := (Updates.afterDecoded location tags s.gateway).1 },
            (Updates.afterDecoded location tags s.gateway).2.map (.gateway s.gateway.clock) ++
              [.decoded s.gateway.clock tags]) := by
        simp [tracker, step, fillBufStep, hr, hread, hi, Updates.step, hp]
      refine ⟨_, _, _, Machine.exec_single hstep, ?_, tags, rfl⟩
      intro e he
      cases List.mem_singleton.mp he
      trivial

theorem read_arrives (hp : s.gateway.phase = .receiving location)
    (hr : s.gateway.uartRequest = true) (hline : s.line = read.bytes ++ rest)
    (hnext : ∀ b, (∀ rs, receive s.packetBuffer ps (read :: rs) = receive b (ps ++ [read]) rs) →
      Arrives p cfg { s with packetBuffer := b, line := rest } location) :
    Arrives p cfg s location := by
  by_cases hfit : s.packetBuffer.toList.length + read.bytes.length ≤ packetBufferLen
  · exact fitting_arrives ps hp hr hline hfit hnext
  · have hover : packetBufferLen < s.packetBuffer.toList.length + read.bytes.length := by omega
    have hstep : step p cfg s (.fillBuf (some read.bytes.length)) =
        some ({ s with packetBuffer := .empty }, []) := by
      simp only [step, fillBufStep, hr, available_read hline, iteration_overflow hover]
    have hempty : (BVec.empty : PacketBuffer).toList.length + read.bytes.length ≤
        packetBufferLen := by
      have hlen := read.fits
      simp only [BVec.empty_toList, List.length_nil, packetBufferLen, rxBufLen] at *
      omega
    have hcleared : Arrives p cfg { s with packetBuffer := .empty } location := by
      refine fitting_arrives (s := { s with packetBuffer := .empty }) ps hp hr hline hempty ?_
      intro b hb
      refine hnext b ?_
      intro rs
      rw [receive_cleared hover]
      exact hb rs
    exact hcleared.step hstep trivial rfl

theorem reading_arrives (hp : s.gateway.phase = .receiving location)
    (hr : s.gateway.uartRequest = true) (hline : s.line = bytesOf rs ++ rest)
    (hnext : ∀ b, receive s.packetBuffer ps rs = .waiting b (ps ++ rs) →
      Arrives p cfg { s with packetBuffer := b, line := rest } location) :
    Arrives p cfg s location := by
  induction rs generalizing s ps with
  | nil =>
    have hsame : { s with line := rest } = s := by
      rw [← show s.line = rest by simpa using hline]
    have harrives := hnext s.packetBuffer (by simp)
    rwa [hsame] at harrives
  | cons read rs ih =>
    rw [bytesOf_cons, List.append_assoc] at hline
    refine read_arrives ps hp hr hline ?_
    intro b hb
    refine ih (s := { s with packetBuffer := b, line := bytesOf rs ++ rest }) (ps ++ [read]) hp hr rfl ?_
    intro b' hb'
    refine hnext b' ?_
    rw [hb rs, hb', List.append_assoc, List.singleton_append]

end Reading

section Frames
variable {tags : TagsSeen} {rs : List Read} (ps : List Read)

/-- A scanner that is asked sends a frame: it ends the transfer, or the gateway goes on from what the
frame leaves. -/
theorem frame_arrives (hp : s.gateway.phase = .receiving location)
    (hr : s.gateway.uartRequest = true) (hw : s.writer = .waiting) (hline : s.line = [])
    (hsend : Scanner.sendScanData p s.scanner.clock s.scanner.seen = some (tags, some (frame tags)))
    (hrs : bytesOf rs = frame tags)
    (hnext : ∀ b, receive s.packetBuffer ps rs = .waiting b (ps ++ rs) →
      Arrives p cfg { s with writer := .waiting, packetBuffer := b, line := [] } location) :
    Arrives p cfg s location := by
  have hsent : step p cfg s (.scanner .sendScanData) =
      some ({ s with writer := .writing (frame tags) },
        [.scanner (.frame s.scanner.clock tags (some (frame tags)))]) := by
    simp only [step, scannerStep, hw, hr, hsend]
    rfl
  have hwritten : step p cfg { s with writer := .writing (frame tags) }
      (.write (frame tags).length) =
        some ({ s with writer := .pausing, line := frame tags }, []) := by
    simp [step, writeStep, hr, hline]
  have hpaused : step p cfg { s with writer := .pausing, line := frame tags } .paused =
      some ({ s with writer := .waiting, line := frame tags }, []) := rfl
  have hall : frame tags = bytesOf rs ++ [] := by rw [hrs, List.append_nil]
  have hread : Arrives p cfg { s with writer := .waiting, line := frame tags } location :=
    reading_arrives (s := { s with writer := .waiting, line := frame tags }) ps rs hp hr hall hnext
  exact ((hread.step hpaused trivial rfl).step hwritten trivial rfl).step hsent trivial rfl

theorem frames_arrive (hp : s.gateway.phase = .receiving location)
    (hr : s.gateway.uartRequest = true) (hw : s.writer = .waiting) (hline : s.line = [])
    (hsend : Scanner.sendScanData p s.scanner.clock s.scanner.seen = some (tags, some (frame tags)))
    (hrs : bytesOf rs = frame tags) {n : Nat} {t : TagsSeen} {used : List Read}
    (hreturned : receive s.packetBuffer ps (List.replicate n rs).flatten = .returned t used) :
    Arrives p cfg s location := by
  induction n generalizing s ps with
  | zero => simp at hreturned
  | succ n ih =>
    refine frame_arrives ps hp hr hw hline hsend hrs ?_
    intro b hb
    rw [List.replicate_succ, List.flatten_cons, receive_append_waiting hb] at hreturned
    exact ih (s := { s with writer := .waiting, packetBuffer := b, line := [] }) (ps ++ rs) hp hr rfl rfl
      hsend hreturned

theorem bytesOf_replicate (n : Nat) (h : bytesOf rs = frame tags) :
    bytesOf (List.replicate n rs).flatten = line (List.replicate n tags) := by
  induction n with
  | zero => rfl
  | succ n ih =>
    rw [List.replicate_succ, List.flatten_cons, bytesOf_append, ih, h, List.replicate_succ]
    rfl

end Frames

theorem waiting_arrives (hscanner : (Scanner.scanner p).Run (trace.filterMap scannerObs) s.scanner)
    (hp : s.gateway.phase = .receiving location) (hr : s.gateway.uartRequest = true)
    (hw : s.writer = .waiting) : Arrives p cfg s location := by
  have hall : s.line = bytesOf (readsOf (singleReads s.line)) ++ [] := by
    rw [bytesOf_singleReads, List.append_nil]
  refine reading_arrives [] _ hp hr hall ?_
  intro b _
  have hsend := Scanner.sendScanData_eq_some (p := p) (Scanner.storeInv_run hscanner).seenPast
  generalize Scanner.snapshotTags p s.scanner.clock s.scanner.seen = tags at hsend
  have hframe := bytesOf_singleReads (frame tags)
  generalize readsOf (singleReads (frame tags)) = rs at hframe
  have hline := bytesOf_replicate 32768 hframe
  have hlen : 32768 ≤ (bytesOf (List.replicate 32768 rs).flatten).length := by
    have hpos : 0 < (frame tags).length := by simp [frame]
    rw [hline, length_line_replicate]
    omega
  obtain ⟨t, used, _, hreturned, _⟩ := returned_bounded ⟨[], by rw [hline, List.append_nil]⟩ hlen b []
  exact frames_arrive (s := { s with packetBuffer := b, line := [] }) [] hp hr hw rfl hsend hframe
    hreturned

theorem pausing_arrives (hscanner : (Scanner.scanner p).Run (trace.filterMap scannerObs) s.scanner)
    (hp : s.gateway.phase = .receiving location) (hr : s.gateway.uartRequest = true)
    (hw : s.writer = .pausing) : Arrives p cfg s location := by
  have hstep : step p cfg s .paused = some ({ s with writer := .waiting }, []) := by
    simp only [step, hw]
  have harrives : Arrives p cfg { s with writer := .waiting } location :=
    waiting_arrives (s := { s with writer := .waiting }) hscanner hp hr rfl
  exact harrives.step hstep trivial rfl

/-- The link never gets stuck: whenever the gateway waits for tags, and whatever has been done to the
bytes on the line, scanner and UART can finish the transfer without anything else happening. -/
theorem tags_arrive (h : (tracker p cfg).Run trace s) (hp : s.gateway.phase = .receiving location) :
    Arrives p cfg s location := by
  have hr := (Updates.cycleInv_run (run_gateway h)).request.mpr ⟨location, hp⟩
  have hscanner := run_scanner h
  cases hw : s.writer with
  | waiting => exact waiting_arrives hscanner hp hr hw
  | pausing => exact pausing_arrives hscanner hp hr hw
  | writing left =>
    have hstep : step p cfg s (.write left.length) =
        some ({ s with writer := .pausing, line := s.line ++ left }, []) := by
      simp [step, writeStep, hw, hr]
    have harrives : Arrives p cfg { s with writer := .pausing, line := s.line ++ left } location :=
      pausing_arrives (s := { s with writer := .pausing, line := s.line ++ left }) hscanner hp hr rfl
    exact harrives.step hstep trivial rfl

/- The gateway listens, and finds noise on the line. -/
theorem tags_arrive_listening : ∃ trace s location,
    (tracker Scanner.demoPlatform (Updates.sampleConfig .coap)).Run (.disturbed :: trace) s ∧
    s.line = [7, 0, 9] ∧ Arrives Scanner.demoPlatform (Updates.sampleConfig .coap) s location := by
  have hrun : ∃ s location, (tracker Scanner.demoPlatform (Updates.sampleConfig .coap)).Run
      [.disturbed, .listening true, .gateway 900 (.announced .readingUart (some .waiting)),
        .gateway 900 (.read Updates.sampleReading),
        .gateway 900 (.announced .gnssAcquisition (some .waiting)), .gateway 900 (.started 900),
        .gateway 0 (.announced .waiting none)] s ∧ s.line = [7, 0, 9] ∧
          s.gateway.phase = .receiving location :=
    ⟨_, _, Lib.Machine.run_of_exec [.gateway .booted, .gateway (.tick 900), .gateway .timer,
      .gateway (.reading Updates.sampleReading), .disturb [7, 0, 9]] rfl, rfl, rfl⟩
  obtain ⟨s, location, hrun, hline, hp⟩ := hrun
  exact ⟨_, s, location, hrun, hline, tags_arrive hrun hp⟩

end AssetTracker.Link.Tracker
