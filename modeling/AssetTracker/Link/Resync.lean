import AssetTracker.Link.RoundTrip

/-! Getting back in step with the line. A receiver that starts inside a frame first meets what is left
of that frame and then whole frames. A receiver with a residue in its buffer either works it off or
overflows and starts inside a frame. -/
namespace AssetTracker.Link
open Bounded Lib Gateway Wire

/-- Frames sent one after the other. -/
def line (ts : List TagsSeen) : List UInt8 := ts.flatMap frame

theorem line_cons (t : TagsSeen) (ts : List TagsSeen) : line (t :: ts) = body t ++ 0 :: line ts := by
  simp [line, frame]

theorem line_segment {s r : List UInt8} {ts : List TagsSeen} (h : s ++ 0 :: r <+: line ts)
    (hs : 0 ∉ s) : ∃ t ts', ts = t :: ts' ∧ s = body t ∧ r <+: line ts' := by
  obtain ⟨w, hw⟩ := h
  cases ts with
  | nil => simp [line] at hw
  | cons t ts =>
    rw [line_cons, List.append_assoc, List.cons_append] at hw
    obtain ⟨hbody, hr⟩ := segment_unique hs (zero_not_mem_body t) hw
    exact ⟨t, ts, rfl, hbody, w, hr⟩

theorem length_line_part {w : List UInt8} {ts : List TagsSeen} (h : w <+: line ts) (hw : 0 ∉ w) :
    w.length ≤ 3218 := by
  cases ts with
  | nil =>
    rw [List.prefix_nil.mp h]
    exact Nat.zero_le _
  | cons t ts =>
    rw [line_cons] at h
    exact (length_part_le h hw).trans (body_length_le t)

theorem line_rest {ts : List TagsSeen} {u v : List UInt8} (h : line ts = u ++ v) (hv : v ≠ []) :
    ∃ g ts', v = g ++ 0 :: line ts' ∧ ∃ t ∈ ts, g <:+ body t := by
  induction ts generalizing u v with
  | nil => simp [line, hv] at h
  | cons t ts ih =>
    have hfirst : line (t :: ts) = frame t ++ line ts := rfl
    rw [hfirst] at h
    cases List.append_eq_append_iff.mp h with
    | inl hin =>
      obtain ⟨c, hu, hc⟩ := hin
      obtain ⟨g, ts', hg, t', ht', hsuf⟩ := ih hc hv
      exact ⟨g, ts', hg, t', by simp [ht'], hsuf⟩
    | inr hin =>
      obtain ⟨c, hc, hvc⟩ := hin
      by_cases hnil : c = []
      · rw [hnil, List.nil_append] at hvc
        obtain ⟨g, ts', hg, t', ht', hsuf⟩ := ih (u := []) hvc.symm hv
        exact ⟨g, ts', hg, t', by simp [ht'], hsuf⟩
      · have hlast : c.dropLast ++ [c.getLast hnil] = c := List.dropLast_append_getLast hnil
        rw [frame, ← hlast, ← List.append_assoc] at hc
        obtain ⟨hb, hz⟩ := List.append_inj' hc rfl
        refine ⟨c.dropLast, ts, ?_, t, by simp, u, hb.symm⟩
        rw [hvc, ← hlast, ← hz]
        simp

section Cut
/- The receiver starts with an empty buffer on the rest `g` of a frame and then the frames `ts`. -/
variable {g : List UInt8} {ts : List TagsSeen} {p rs : List Read} {b : PacketBuffer}

/-- What has been read while the receiver waits: a part of `g`, or `g`, which was dropped, and a part
of what follows, of which a terminator can only have come with the terminator of `g`. -/
def CutWaiting (g : List UInt8) (rs : List Read) (b : PacketBuffer) : Prop :=
  (bytesOf rs = b.toList ∧ 0 ∉ b.toList) ∨
  (bytesOf rs = g ++ 0 :: b.toList ∧ fromBytesCobs g = none ∧
    (0 ∉ b.toList ∨ b.toList.length < rxBufLen))

theorem CutWaiting.append (hlen : g.length ≤ 3218) (h : CutWaiting g rs b) {read : Read}
    (hline : bytesOf (rs ++ [read]) <+: g ++ 0 :: line ts) :
    (bytesOf (rs ++ [read]) = (appendRead b read).toList ∧ 0 ∉ bytesOf rs) ∨
    (bytesOf (rs ++ [read]) = g ++ 0 :: (appendRead b read).toList ∧ fromBytesCobs g = none ∧
      (appendRead b read).toList <+: line ts) := by
  have hread := read.fits
  have hpart := bytesOf_part hline
  rw [bytesOf_append, bytesOf_cons, bytesOf_nil, List.append_nil] at hline ⊢
  cases h with
  | inl hin =>
    obtain ⟨hb, hz⟩ := hin
    rw [hb] at hpart
    have hle := length_part_le hpart hz
    have hfit : b.toList.length + read.bytes.length ≤ packetBufferLen := by
      simp only [packetBufferLen, rxBufLen] at hread ⊢
      omega
    rw [appendRead_fits hfit, hb]
    exact Or.inl ⟨rfl, hz⟩
  | inr hin =>
    obtain ⟨hb, hnone, hsmall⟩ := hin
    have hcons : g ++ 0 :: b.toList = (g ++ [0]) ++ b.toList := by simp
    have hrest : ∀ w, g ++ 0 :: w <+: g ++ 0 :: line ts ↔ w <+: line ts := by
      intro w
      rw [List.prefix_append_right_inj, List.prefix_cons_inj]
    rw [hb, hrest] at hpart
    have hle : b.toList.length ≤ 3218 := by
      cases hsmall with
      | inl hz => exact length_line_part hpart hz
      | inr hlt =>
        simp only [rxBufLen] at hlt
        omega
    have hfit : b.toList.length + read.bytes.length ≤ packetBufferLen := by
      simp only [packetBufferLen, rxBufLen] at hread ⊢
      omega
    rw [hb, List.append_assoc, List.cons_append, hrest] at hline
    rw [appendRead_fits hfit, hb, List.append_assoc, List.cons_append]
    exact Or.inr ⟨rfl, hnone, hline⟩

theorem after_terminator_short {s w : List UInt8} {read : Read}
    (hall : bytesOf (rs ++ [read]) = s ++ 0 :: w) (hz : 0 ∉ bytesOf rs) : w.length < rxBufLen := by
  have hfirst : bytesOf rs <+: s ++ 0 :: w := bytesOf_part ⟨[], by rw [List.append_nil, hall]⟩
  have hle := length_part_le hfirst hz
  have hread := read.fits
  have hl := congrArg List.length hall
  simp only [bytesOf_append, bytesOf_cons, bytesOf_nil, List.append_nil, List.length_append,
    List.length_cons] at hl
  omega

theorem cut_waiting (hg : 0 ∉ g) (hlen : g.length ≤ 3218)
    (hline : bytesOf rs <+: g ++ 0 :: line ts)
    (h : receive .empty p rs = .waiting b (p ++ rs)) : CutWaiting g rs b := by
  induction rs using List.reverseRecOn generalizing b with
  | nil =>
    obtain rfl : BVec.empty = b := by simpa using h
    exact Or.inl ⟨rfl, by simp⟩
  | append_singleton rs read ih =>
    obtain ⟨b₁, h₁⟩ := receive_prefix_waiting h
    rw [receive_append_waiting h₁] at h
    cases (ih (bytesOf_part hline) h₁).append hlen hline with
    | inl hin =>
      obtain ⟨hall, hold⟩ := hin
      cases waiting_step h with
      | inl hkeep =>
        obtain ⟨hz, rfl⟩ := hkeep
        exact Or.inl ⟨hall, hz⟩
      | inr hdrop =>
        obtain ⟨s, hs, hz, hnone⟩ := hdrop
        rw [hs] at hall
        have hsg : s = g := by
          rw [hall] at hline
          obtain ⟨w, hw⟩ := hline
          rw [List.append_assoc, List.cons_append] at hw
          exact (segment_unique hz hg hw).1
        rw [hsg] at hall hnone
        exact Or.inr ⟨hall, hnone, Or.inr (after_terminator_short hall hold)⟩
    | inr hin =>
      obtain ⟨hall, hnone, hnext⟩ := hin
      cases waiting_step h with
      | inl hkeep =>
        obtain ⟨hz, rfl⟩ := hkeep
        exact Or.inr ⟨hall, hnone, Or.inl hz⟩
      | inr hdrop =>
        obtain ⟨s, hs, hz, hnone'⟩ := hdrop
        rw [hs] at hnext
        obtain ⟨t, ts', -, hbody, -⟩ := line_segment hnext hz
        rw [hbody, fromBytesCobs_body] at hnone'
        cases hnone'

theorem CutWaiting.length_le (hlen : g.length ≤ 3218) (hline : bytesOf rs <+: g ++ 0 :: line ts)
    (h : CutWaiting g rs b) : (bytesOf rs).length ≤ 6437 := by
  cases h with
  | inl hin =>
    obtain ⟨hb, hz⟩ := hin
    rw [hb] at hline ⊢
    have hle := length_part_le hline hz
    omega
  | inr hin =>
    obtain ⟨hb, -, hsmall⟩ := hin
    rw [hb, List.prefix_append_right_inj, List.prefix_cons_inj] at hline
    rw [hb, List.length_append, List.length_cons]
    cases hsmall with
    | inl hz =>
      have hle := length_line_part hline hz
      omega
    | inr hlt =>
      simp only [rxBufLen] at hlt
      omega

/-- What is returned is what `g` decodes to, or the tags of the first whole frame. -/
theorem cut_returned (hg : 0 ∉ g) (hlen : g.length ≤ 3218)
    (hline : bytesOf rs <+: g ++ 0 :: line ts) {t : TagsSeen} {p' : List Read}
    (h : receive .empty p rs = .returned t p') :
    fromBytesCobs g = some t ∨ (fromBytesCobs g = none ∧ ∃ ts', ts = t :: ts') := by
  obtain ⟨-, -, init, read, rest, b, s, r, hrs, -, hinit, hs, hz, ht⟩ := returnsAt_of_returned h
  have hupto : bytesOf (init ++ [read]) <+: g ++ 0 :: line ts := by
    rw [hrs, ← List.singleton_append, ← List.append_assoc] at hline
    exact bytesOf_part hline
  cases (cut_waiting hg hlen (bytesOf_part hupto) hinit).append hlen hupto with
  | inl hin =>
    rw [hin.1, hs] at hupto
    obtain ⟨w, hw⟩ := hupto
    rw [List.append_assoc, List.cons_append] at hw
    rw [(segment_unique hz hg hw).1] at ht
    exact Or.inl ht
  | inr hin =>
    obtain ⟨-, hnone, hnext⟩ := hin
    rw [hs] at hnext
    obtain ⟨t', ts', hts, hbody, -⟩ := line_segment hnext hz
    rw [hbody, fromBytesCobs_body] at ht
    cases ht
    exact Or.inr ⟨hnone, ts', hts⟩

end Cut

section Residue
/- The receiver has a residue in its buffer when the frames `ts` begin. -/
variable {ts : List TagsSeen} {p rs : List Read} {b₀ b : PacketBuffer}

/-- The buffer was cleared early on, and the reads since then are received as from the start. -/
def Cleared (b₀ : PacketBuffer) (p rs : List Read) : Prop :=
  ∃ rs₁ rs₂, rs = rs₁ ++ rs₂ ∧ (bytesOf rs₁).length ≤ packetBufferLen + 3219 ∧
    receive b₀ p rs = receive .empty (p ++ rs₁) rs₂

theorem Cleared.append (h : Cleared b₀ p rs) (read : Read) : Cleared b₀ p (rs ++ [read]) := by
  obtain ⟨rs₁, rs₂, hrs, hlen, heq⟩ := h
  refine ⟨rs₁, rs₂ ++ [read], by simp [hrs], hlen, ?_⟩
  rw [receive_append, receive_append, heq]

/-- What the buffer holds before it was cleared: a part of the residue with all that was read, or what
was read behind the first frame. -/
def Residual (b₀ : PacketBuffer) (ts : List TagsSeen) (rs : List Read) (w : List UInt8) : Prop :=
  (∃ q, q <:+ b₀.toList ∧ w = q ++ bytesOf rs) ∨
  ∃ t ts', ts = t :: ts' ∧ bytesOf rs = frame t ++ w

theorem Residual.length_le (h : Residual b₀ ts rs b.toList) :
    (bytesOf rs).length ≤ packetBufferLen + 3219 := by
  have hb := b.fits
  cases h with
  | inl hq =>
    obtain ⟨q, -, hw⟩ := hq
    rw [hw, List.length_append] at hb
    omega
  | inr hf =>
    obtain ⟨t, ts', -, hw⟩ := hf
    have hframe := frame_length_le t
    rw [hw, List.length_append]
    omega

theorem Residual.append {w : List UInt8} (h : Residual b₀ ts rs w) (read : Read) :
    Residual b₀ ts (rs ++ [read]) (w ++ read.bytes) := by
  cases h with
  | inl hq =>
    obtain ⟨q, hsuf, hw⟩ := hq
    exact Or.inl ⟨q, hsuf, by simp [hw]⟩
  | inr hf =>
    obtain ⟨t, ts', hts, hw⟩ := hf
    exact Or.inr ⟨t, ts', hts, by simp [hw]⟩

theorem Residual.drop {s w : List UInt8} (h : Residual b₀ ts rs (s ++ 0 :: w))
    (hline : bytesOf rs <+: line ts) (hz : 0 ∉ s) (hnone : fromBytesCobs s = none) :
    Residual b₀ ts rs w := by
  cases h with
  | inl hq =>
    obtain ⟨q, hsuf, hw⟩ := hq
    cases segment_cases 0 q with
    | inl hq0 =>
      cases segment_cases 0 (bytesOf rs) with
      | inl hb0 =>
        have hin : 0 ∈ q ++ bytesOf rs := by simp [← hw]
        simp [hq0, hb0] at hin
      | inr hseg =>
        obtain ⟨s', r', hb, hs'⟩ := hseg
        have hqs : 0 ∉ q ++ s' := by simp [hq0, hs']
        rw [hb, ← List.append_assoc] at hw
        obtain ⟨-, hw'⟩ := segment_unique hz hqs hw
        rw [hb] at hline
        obtain ⟨t, ts', hts, hbody, -⟩ := line_segment hline hs'
        exact Or.inr ⟨t, ts', hts, by simp [hb, hbody, hw', frame]⟩
    | inr hseg =>
      obtain ⟨s', q', hq', hs'⟩ := hseg
      rw [hq', List.append_assoc, List.cons_append] at hw
      obtain ⟨-, hw'⟩ := segment_unique hz hs' hw
      have hq'' : (s' ++ [0]) ++ q' = q := by simp [hq']
      exact Or.inl ⟨q', (List.suffix_append (s' ++ [0]) q').trans (hq'' ▸ hsuf), hw'⟩
  | inr hf =>
    obtain ⟨t, ts', hts, hw⟩ := hf
    have hnext : s ++ 0 :: w <+: line ts' := by
      rw [hw, hts] at hline
      exact (List.prefix_append_right_inj (frame t)).mp hline
    obtain ⟨t', ts'', -, hbody, -⟩ := line_segment hnext hz
    rw [hbody, fromBytesCobs_body] at hnone
    cases hnone

theorem residue_waiting (hline : bytesOf rs <+: line ts)
    (h : receive b₀ p rs = .waiting b (p ++ rs)) :
    Residual b₀ ts rs b.toList ∨ Cleared b₀ p rs := by
  induction rs using List.reverseRecOn generalizing b with
  | nil =>
    obtain rfl : b₀ = b := by simpa using h
    exact Or.inl (Or.inl ⟨b₀.toList, List.suffix_rfl, by simp⟩)
  | append_singleton rs read ih =>
    obtain ⟨b₁, h₁⟩ := receive_prefix_waiting h
    have hpart := bytesOf_part hline
    cases ih hpart h₁ with
    | inr hcleared => exact Or.inr (hcleared.append read)
    | inl hres =>
      rw [receive_append_waiting h₁] at h
      by_cases hfit : b₁.toList.length + read.bytes.length ≤ packetBufferLen
      · left
        have hnext := hres.append read
        rw [← appendRead_fits hfit] at hnext
        cases waiting_step h with
        | inl hkeep => rwa [hkeep.2]
        | inr hdrop =>
          obtain ⟨s, hs, hz, hnone⟩ := hdrop
          rw [hs] at hnext
          exact hnext.drop hline hz hnone
      · right
        refine ⟨rs, [read], rfl, hres.length_le, ?_⟩
        rw [receive_append_waiting h₁, receive_cleared (by omega)]

/-- The receiver cannot wait for long while frames arrive. -/
theorem waiting_bounded (hline : bytesOf rs <+: line ts)
    (h : receive b₀ p rs = .waiting b (p ++ rs)) : (bytesOf rs).length ≤ 17848 := by
  cases residue_waiting hline h with
  | inl hres =>
    have hle := hres.length_le
    simp only [packetBufferLen] at hle
    omega
  | inr hcleared =>
    obtain ⟨rs₁, rs₂, hrs, hlen, heq⟩ := hcleared
    rw [heq, hrs, ← List.append_assoc] at h
    rw [hrs, bytesOf_append] at hline ⊢
    obtain ⟨w, hw⟩ := hline
    rw [List.append_assoc] at hw
    by_cases hnil : bytesOf rs₂ ++ w = []
    · rw [(List.append_eq_nil_iff.mp hnil).1, List.append_nil]
      simp only [packetBufferLen] at hlen
      omega
    · obtain ⟨g, ts', hrest, t, -, hsuf⟩ := line_rest hw.symm hnil
      have hg : 0 ∉ g := fun hz => zero_not_mem_body t (hsuf.mem hz)
      have hglen : g.length ≤ 3218 := hsuf.length_le.trans (body_length_le t)
      have hcut : bytesOf rs₂ <+: g ++ 0 :: line ts' := ⟨w, hrest⟩
      have hle := (cut_waiting hg hglen hcut h).length_le hglen hcut
      simp only [packetBufferLen] at hlen
      rw [List.length_append]
      omega

end Residue
theorem wait_append {u v : List FillBuf} {b b' : PacketBuffer} {p p' : List Read}
    (h : waitForDecodedMessage b p u = .waiting b' p') :
    waitForDecodedMessage b p (u ++ v) = waitForDecodedMessage b' p' v := by
  rw [wait_eq_receive] at h
  rw [wait_eq_receive, wait_eq_receive, readsOf_append, receive_append_waiting h]

theorem returned_bounded {ts : List TagsSeen} {rs : List Read} (hline : bytesOf rs <+: line ts)
    (hlen : 32768 ≤ (bytesOf rs).length) (b : PacketBuffer) (p : List Read) :
    ∃ t used rest, receive b p rs = .returned t (p ++ used) ∧ rs = used ++ rest ∧
      (bytesOf used).length < 32768 := by
  cases receive_cases b p rs with
  | inl hw =>
    obtain ⟨b', hw⟩ := hw
    have hle := waiting_bounded hline hw
    omega
  | inr hr =>
    obtain ⟨used, t, hret, init, read, rest, b', s, r, hrs, hused, hinit, -, -, -⟩ := hr
    rw [hrs] at hline
    have hle := waiting_bounded (bytesOf_part hline) hinit
    have hread := read.fits
    refine ⟨t, used, rest, hret, by simp [hrs, hused], ?_⟩
    simp only [hused, bytesOf_append, bytesOf_cons, bytesOf_nil, List.append_nil,
      List.length_append, rxBufLen] at hread ⊢
    omega

/-- Every read is processed once and in order, up to the one at which the loop returns. -/
theorem processed_once (u : List FillBuf) :
    (∃ b, waitForDecodedMessage .empty [] u = .waiting b (readsOf u)) ∨
    ∃ t used, waitForDecodedMessage .empty [] u = .returned t used ∧ used <+: readsOf u := by
  rw [wait_eq_receive]
  cases receive_cases .empty [] (readsOf u) with
  | inl hw => exact Or.inl (by simpa using hw)
  | inr hr =>
    obtain ⟨used, t, hret, init, read, rest, -, -, -, hrs, hused, -⟩ := hr
    exact Or.inr ⟨t, used, hret, rest, by simp [hrs, hused]⟩

/-- After any noise the receiver returns before 32768 bytes of frames have been read. In every run no
iteration panics and each read is processed once, the one that overflows the buffer included: it is
refused, and then processed alone. -/
theorem resynchronises {noise : List FillBuf} {b : PacketBuffer} {p : List Read}
    (hnoise : waitForDecodedMessage .empty [] noise = .waiting b p) {ts : List TagsSeen}
    {uart : List FillBuf} (hline : bytesOf (readsOf uart) <+: line ts) :
    (32768 ≤ (bytesOf (readsOf uart)).length → ∃ t used rest,
      waitForDecodedMessage .empty [] (noise ++ uart) = .returned t (readsOf noise ++ used) ∧
      readsOf uart = used ++ rest ∧ (bytesOf used).length < 32768) ∧
    (∀ u, (∃ b, waitForDecodedMessage .empty [] u = .waiting b (readsOf u)) ∨
      ∃ t used, waitForDecodedMessage .empty [] u = .returned t used ∧ used <+: readsOf u) ∧
    (∀ (b : PacketBuffer) (p : List Read) (read : Read) (u : List FillBuf),
      packetBufferLen < b.toList.length + read.bytes.length →
        iteration b read = .retry .empty ∧
        ∃ alone : PacketBuffer, alone.toList = read.bytes ∧
          waitForDecodedMessage b p (.ok read :: u) =
            afterPacket (p ++ [read]) u (handlePacket alone)) := by
  refine ⟨?_, processed_once, ?_⟩
  · intro hlen
    have hp : p = readsOf noise := by
      cases processed_once noise with
      | inl hw =>
        obtain ⟨b', hw⟩ := hw
        rw [hw] at hnoise
        cases hnoise
        rfl
      | inr hr =>
        obtain ⟨t, used, hret, -⟩ := hr
        rw [hret] at hnoise
        cases hnoise
    rw [wait_append hnoise, wait_eq_receive, ← hp]
    exact returned_bounded hline hlen b p
  · intro b p read u hover
    exact ⟨iteration_overflow hover, appendRead b read, appendRead_overflow hover,
      wait_read b p read u⟩

def noiseDemo : List FillBuf := [.ok ⟨[7, 0, 9], by decide, by decide⟩]

theorem length_line_replicate (n : Nat) (t : TagsSeen) :
    (line (List.replicate n t)).length = n * (frame t).length := by
  simp [line, List.length_flatMap]

/-- Noise, and then the frames of 11000 empty lists, one byte a read. -/
theorem resynchronises_demo : ∃ t used,
    waitForDecodedMessage .empty []
      (noiseDemo ++ singleReads (line (List.replicate 11000 ⟨.empty⟩))) =
        .returned t (readsOf noiseDemo ++ used) ∧ (bytesOf used).length < 32768 := by
  have hnoise : waitForDecodedMessage .empty [] noiseDemo =
      .waiting ⟨[9], by decide⟩ (readsOf noiseDemo) := by
    rw [noiseDemo, wait_read]
    change waitForDecodedMessage ⟨[9], by decide⟩ _ [] = _
    rw [wait_nil]
    rfl
  have hbytes := bytesOf_singleReads (line (List.replicate 11000 ⟨.empty⟩))
  have hline : bytesOf (readsOf (singleReads (line (List.replicate 11000 ⟨.empty⟩)))) <+:
      line (List.replicate 11000 ⟨.empty⟩) := ⟨[], by rw [List.append_nil, hbytes]⟩
  have hframe : (frame ⟨.empty⟩).length = 3 := rfl
  obtain ⟨t, used, -, hret, -, hlt⟩ := (resynchronises hnoise hline).1 (by
    rw [hbytes, length_line_replicate, hframe]
    decide)
  exact ⟨t, used, hret, hlt⟩

end AssetTracker.Link
