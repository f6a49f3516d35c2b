import AssetTracker.Wire
import AssetTracker.Lib.Segments

/-! The gateway's UART receiver, `wait_for_decoded_message`: the loop as it is written, one iteration
at a time, and the meaning of one read. The driver hands the same bytes out again until they are
consumed, so a read that does not fit is presented a second time to the cleared buffer. -/
namespace AssetTracker.Gateway
open Bounded Lib Wire

abbrev packetBufferLen : Nat := 8192
abbrev rxBufLen : Nat := 32

abbrev PacketBuffer := BVec UInt8 packetBufferLen

/-- The bytes one `fill_buf` returns: at least one, at most the receive buffer. -/
structure Read where
  bytes : List UInt8
  nonempty : bytes ≠ []
  fits : bytes.length ≤ rxBufLen

inductive FillBuf where
  | error
  | ok (read : Read)

/-- How one iteration ends. `retry` leaves the read unconsumed, `next` has consumed it. -/
inductive Iteration where
  | retry (packetBuffer : PacketBuffer)
  | next (packetBuffer : PacketBuffer)
  | decoded (tags : TagsSeen)
  | panicked

/-- `v[..n]`, which panics past the end. -/
def sliceTo (v : List UInt8) (n : Nat) : Option (List UInt8) :=
  if n ≤ v.length then some (v.take n) else none

/-- `v.split_at(n)`, which panics past the end. -/
def splitAt (v : List UInt8) (n : Nat) : Option (List UInt8 × List UInt8) :=
  if n ≤ v.length then some (v.take n, v.drop n) else none

/-- The part of an iteration behind `consume`. Decoding in place spoils only the packet, which is
cut off with its separator. -/
def handlePacket (packetBuffer : PacketBuffer) : Iteration :=
  match packetBuffer.toList.findIdx? fun b => b == 0x00 with
  | none => .next packetBuffer
  | some separator =>
    match sliceTo packetBuffer.toList separator with
    | none => .panicked
    | some packet =>
      match fromBytesCobs packet with
      | some decoded => .decoded decoded
      | none =>
        match splitAt packetBuffer.toList (separator + 1) with
        | none => .panicked
        | some (_, rest) =>
          match BVec.fromSlice rest with
          | none => .panicked
          | some packetBuffer => .next packetBuffer

def iteration (packetBuffer : PacketBuffer) (read : Read) : Iteration :=
  match packetBuffer.extendFromSlice read.bytes with
  | none => .retry .empty
  | some packetBuffer => handlePacket packetBuffer

/-- The reads processed so far are recorded beside what the loop holds or returns. -/
inductive Outcome where
  | waiting (packetBuffer : PacketBuffer) (processed : List Read)
  | returned (tags : TagsSeen) (processed : List Read)
  | panicked

theorem handlePacket_ne_retry (b b' : PacketBuffer) : handlePacket b ≠ .retry b' := by
  unfold handlePacket
  split
  · simp
  · split
    · simp
    · split
      · simp
      · split
        · simp
        · split <;> simp

theorem iteration_retry {b b' : PacketBuffer} {read : Read} (h : iteration b read = .retry b') :
    b' = .empty ∧ packetBufferLen < b.toList.length + read.bytes.length := by
  by_cases hfit : (b.toList ++ read.bytes).length ≤ packetBufferLen
  · rw [iteration, BVec.extendFromSlice, dif_pos hfit] at h
    exact absurd h (handlePacket_ne_retry _ _)
  · rw [iteration, BVec.extendFromSlice, dif_neg hfit] at h
    rw [List.length_append] at hfit
    exact ⟨(Iteration.retry.inj h).symm, by omega⟩

theorem iteration_overflow {b : PacketBuffer} {read : Read}
    (h : packetBufferLen < b.toList.length + read.bytes.length) :
    iteration b read = .retry .empty := by
  rw [iteration, BVec.extendFromSlice, dif_neg (by simpa using h)]

theorem retry_shrinks {b b' : PacketBuffer} {read : Read} (h : iteration b read = .retry b') :
    b'.toList.length < b.toList.length := by
  obtain ⟨he, hlt⟩ := iteration_retry h
  have hr := read.fits
  rw [he, BVec.empty_toList, List.length_nil]
  simp only [packetBufferLen, rxBufLen] at hlt hr
  omega

/-- Iterate until a message is decoded or the driver has nothing more. -/
def waitForDecodedMessage (packetBuffer : PacketBuffer) (processed : List Read) :
    List FillBuf → Outcome
  | [] => .waiting packetBuffer processed
  | .error :: uart => waitForDecodedMessage packetBuffer processed uart
  | .ok read :: uart =>
    match _hi : iteration packetBuffer read with
    | .retry packetBuffer => waitForDecodedMessage packetBuffer processed (.ok read :: uart)
    | .next packetBuffer => waitForDecodedMessage packetBuffer (processed ++ [read]) uart
    | .decoded tags => .returned tags (processed ++ [read])
    | .panicked => .panicked
termination_by uart => (uart.length, packetBuffer.toList.length)
decreasing_by
  · simp [Prod.lex_def]
  · simp [Prod.lex_def, retry_shrinks ‹_›]
  · simp [Prod.lex_def]

/-- What the buffer holds when a read is processed: the read alone when it did not fit. -/
def appendRead (b : PacketBuffer) (read : Read) : PacketBuffer :=
  if h : (b.toList ++ read.bytes).length ≤ packetBufferLen then ⟨b.toList ++ read.bytes, h⟩
  else ⟨read.bytes, read.fits.trans (by decide)⟩

theorem appendRead_fits {b : PacketBuffer} {read : Read}
    (h : b.toList.length + read.bytes.length ≤ packetBufferLen) :
    (appendRead b read).toList = b.toList ++ read.bytes := by
  rw [appendRead, dif_pos (by simpa using h)]

theorem appendRead_overflow {b : PacketBuffer} {read : Read}
    (h : packetBufferLen < b.toList.length + read.bytes.length) :
    (appendRead b read).toList = read.bytes := by
  rw [appendRead, dif_neg (by simpa using h)]

theorem appendRead_cleared {b : PacketBuffer} {read : Read}
    (h : packetBufferLen < b.toList.length + read.bytes.length) :
    appendRead .empty read = appendRead b read := by
  have hempty : (BVec.empty : PacketBuffer).toList.length + read.bytes.length
      ≤ packetBufferLen := by
    have hlen := read.fits
    simp only [BVec.empty_toList, List.length_nil, packetBufferLen, rxBufLen] at *
    omega
  apply BVec.ext
  rw [appendRead_fits hempty, appendRead_overflow h, BVec.empty_toList, List.nil_append]

theorem handlePacket_of_not_mem {b : PacketBuffer} (h : 0 ∉ b.toList) :
    handlePacket b = .next b := by
  have hf : (b.toList.findIdx? fun x => x == 0x00) = none := by
    rw [List.findIdx?_eq_none_iff]
    intro x hx
    simpa using fun hz : x = 0 => h (hz ▸ hx)
  simp only [handlePacket, hf]

theorem findIdx?_terminator {s r : List UInt8} (h : 0 ∉ s) :
    ((s ++ 0 :: r).findIdx? fun x => x == 0x00) = some s.length := by
  induction s with
  | nil => simp [List.findIdx?_cons]
  | cons x s ih =>
    simp only [List.mem_cons, not_or] at h
    simp [List.findIdx?_cons, Ne.symm h.1, ih h.2]

/-- No slice, split or copy of an iteration panics: the first segment is decoded or dropped. -/
theorem handlePacket_segment {b : PacketBuffer} {s r : List UInt8} (hb : b.toList = s ++ 0 :: r)
    (h : 0 ∉ s) : ∃ b' : PacketBuffer, b'.toList = r ∧
      handlePacket b = match fromBytesCobs s with
        | some t => .decoded t
        | none => .next b' := by
  have hfits := b.fits
  have hlen : b.toList.length = s.length + (r.length + 1) := by simp [hb]
  have hr : r.length ≤ packetBufferLen := by omega
  have hslice : sliceTo b.toList s.length = some s := by
    rw [sliceTo, if_pos (by omega), hb, List.take_left]
  have hsplit : splitAt b.toList (s.length + 1) = some (s ++ [0], r) := by
    have hb' : b.toList = (s ++ [0]) ++ r := by simp [hb]
    have hl : (s ++ [0]).length = s.length + 1 := by simp
    rw [splitAt, if_pos (by omega), hb', List.take_left' hl, List.drop_left' hl]
  refine ⟨⟨r, hr⟩, rfl, ?_⟩
  have hfind : (b.toList.findIdx? fun x => x == 0x00) = some s.length := by
    rw [hb]
    exact findIdx?_terminator h
  simp only [handlePacket, hfind, hslice, hsplit, BVec.fromSlice_eq_some hr]

/-- How the loop goes on from a handled packet. -/
def afterPacket (processed : List Read) (uart : List FillBuf) : Iteration → Outcome
  | .next b => waitForDecodedMessage b processed uart
  | .decoded t => .returned t processed
  | .retry _ => .panicked
  | .panicked => .panicked

theorem wait_read_fits {b : PacketBuffer} {read : Read}
    (h : b.toList.length + read.bytes.length ≤ packetBufferLen) (p : List Read)
    (uart : List FillBuf) : waitForDecodedMessage b p (.ok read :: uart) =
      afterPacket (p ++ [read]) uart (handlePacket (appendRead b read)) := by
  have hfit : (b.toList ++ read.bytes).length ≤ packetBufferLen := by simpa using h
  have hi : iteration b read = handlePacket (appendRead b read) := by
    rw [iteration, BVec.extendFromSlice, dif_pos hfit, appendRead, dif_pos hfit]
  rw [waitForDecodedMessage, hi]
  cases hh : handlePacket (appendRead b read) with
  | retry b' => exact absurd hh (handlePacket_ne_retry _ _)
  | next b' => rfl
  | decoded t => rfl
  | panicked => rfl

theorem wait_read (b : PacketBuffer) (p : List Read) (read : Read) (uart : List FillBuf) :
    waitForDecodedMessage b p (.ok read :: uart) =
      afterPacket (p ++ [read]) uart (handlePacket (appendRead b read)) := by
  by_cases h : b.toList.length + read.bytes.length ≤ packetBufferLen
  · exact wait_read_fits h p uart
  · have hlen := read.fits
    have hempty : (BVec.empty : PacketBuffer).toList.length + read.bytes.length
        ≤ packetBufferLen := by
      simp only [BVec.empty_toList, List.length_nil, packetBufferLen, rxBufLen] at *
      omega
    have hsame : appendRead .empty read = appendRead b read := appendRead_cleared (by omega)
    have hi : iteration b read = .retry .empty := iteration_overflow (by omega)
    rw [waitForDecodedMessage, hi]
    change waitForDecodedMessage .empty p (.ok read :: uart) = _
    rw [wait_read_fits hempty, hsame]

@[simp] theorem wait_nil (b : PacketBuffer) (p : List Read) :
    waitForDecodedMessage b p [] = .waiting b p := by
  rw [waitForDecodedMessage]

@[simp] theorem wait_error (b : PacketBuffer) (p : List Read) (uart : List FillBuf) :
    waitForDecodedMessage b p (.error :: uart) = waitForDecodedMessage b p uart := by
  rw [waitForDecodedMessage]

theorem wait_keep {b : PacketBuffer} {read : Read} (h : 0 ∉ (appendRead b read).toList)
    (p : List Read) (uart : List FillBuf) : waitForDecodedMessage b p (.ok read :: uart) =
      waitForDecodedMessage (appendRead b read) (p ++ [read]) uart := by
  rw [wait_read, handlePacket_of_not_mem h, afterPacket]

theorem wait_decoded {b : PacketBuffer} {read : Read} {s r : List UInt8} {t : TagsSeen}
    (hb : (appendRead b read).toList = s ++ 0 :: r) (hs : 0 ∉ s) (ht : fromBytesCobs s = some t)
    (p : List Read) (uart : List FillBuf) :
    waitForDecodedMessage b p (.ok read :: uart) = .returned t (p ++ [read]) := by
  obtain ⟨b', -, hh⟩ := handlePacket_segment hb hs
  rw [wait_read, hh, ht, afterPacket]

theorem wait_dropped {b : PacketBuffer} {read : Read} {s r : List UInt8}
    (hb : (appendRead b read).toList = s ++ 0 :: r) (hs : 0 ∉ s) (ht : fromBytesCobs s = none) :
    ∃ b' : PacketBuffer, b'.toList = r ∧ ∀ p uart,
      waitForDecodedMessage b p (.ok read :: uart) =
        waitForDecodedMessage b' (p ++ [read]) uart := by
  obtain ⟨b', hb', hh⟩ := handlePacket_segment hb hs
  refine ⟨b', hb', ?_⟩
  intro p uart
  rw [wait_read, hh, ht, afterPacket]

def readsOf : List FillBuf → List Read
  | [] => []
  | .error :: uart => readsOf uart
  | .ok read :: uart => read :: readsOf uart

def bytesOf (reads : List Read) : List UInt8 := reads.flatMap Read.bytes

/-- The loop with the driver's errors left out. -/
def receive (b : PacketBuffer) (p reads : List Read) : Outcome :=
  waitForDecodedMessage b p (reads.map FillBuf.ok)

theorem wait_eq_receive (b : PacketBuffer) (p : List Read) (uart : List FillBuf) :
    waitForDecodedMessage b p uart = receive b p (readsOf uart) := by
  induction uart generalizing b p with
  | nil => rfl
  | cons event uart ih =>
    cases event with
    | error => rw [wait_error, ih, readsOf]
    | ok read =>
      rw [readsOf, receive, List.map_cons, wait_read, wait_read]
      cases handlePacket (appendRead b read) with
      | next b' => exact ih b' (p ++ [read])
      | retry b' => rfl
      | decoded t => rfl
      | panicked => rfl

@[simp] theorem readsOf_append (u v : List FillBuf) : readsOf (u ++ v) = readsOf u ++ readsOf v := by
  induction u with
  | nil => rfl
  | cons event u ih =>
    cases event with
    | error => simpa [readsOf] using ih
    | ok read => simpa [readsOf] using ih

@[simp] theorem bytesOf_nil : bytesOf [] = [] := rfl

@[simp] theorem bytesOf_cons (read : Read) (reads : List Read) :
    bytesOf (read :: reads) = read.bytes ++ bytesOf reads := rfl

@[simp] theorem bytesOf_append (reads reads' : List Read) :
    bytesOf (reads ++ reads') = bytesOf reads ++ bytesOf reads' := List.flatMap_append

theorem bytesOf_part {reads reads' : List Read} {stream : List UInt8}
    (h : bytesOf (reads ++ reads') <+: stream) : bytesOf reads <+: stream := by
  rw [bytesOf_append] at h
  exact (List.prefix_append _ _).trans h

theorem bytesOf_ne_nil {reads : List Read} (h : reads ≠ []) : bytesOf reads ≠ [] := by
  cases reads with
  | nil => exact absurd rfl h
  | cons read reads => simp [read.nonempty]

@[simp] theorem receive_nil (b : PacketBuffer) (p : List Read) : receive b p [] = .waiting b p :=
  wait_nil b p

theorem receive_step (b : PacketBuffer) (read : Read) :
    (∃ b' : PacketBuffer,
      (0 ∉ (appendRead b read).toList ∧ b' = appendRead b read ∨
        ∃ s, (appendRead b read).toList = s ++ 0 :: b'.toList ∧ 0 ∉ s ∧ fromBytesCobs s = none) ∧
      ∀ p rs, receive b p (read :: rs) = receive b' (p ++ [read]) rs) ∨
    ∃ s r t, (appendRead b read).toList = s ++ 0 :: r ∧ 0 ∉ s ∧ fromBytesCobs s = some t ∧
      ∀ p rs, receive b p (read :: rs) = .returned t (p ++ [read]) := by
  cases segment_cases 0 (appendRead b read).toList with
  | inl h => exact Or.inl ⟨_, Or.inl ⟨h, rfl⟩, fun p rs => wait_keep h p _⟩
  | inr h =>
    obtain ⟨s, r, hb, hs⟩ := h
    cases ht : fromBytesCobs s with
    | none =>
      obtain ⟨b', hb', hw⟩ := wait_dropped hb hs ht
      exact Or.inl ⟨b', Or.inr ⟨s, by rw [hb', hb], hs, ht⟩, fun p rs => hw p _⟩
    | some t => exact Or.inr ⟨s, r, t, hb, hs, ht, fun p rs => wait_decoded hb hs ht p _⟩

theorem waiting_step {b b' : PacketBuffer} {read : Read} {p p' : List Read}
    (h : receive b p [read] = .waiting b' p') :
    0 ∉ (appendRead b read).toList ∧ b' = appendRead b read ∨
    ∃ s, (appendRead b read).toList = s ++ 0 :: b'.toList ∧ 0 ∉ s ∧ fromBytesCobs s = none := by
  cases receive_step b read with
  | inl hw =>
    obtain ⟨b'', hb'', hw⟩ := hw
    rw [hw, receive_nil] at h
    cases h
    exact hb''
  | inr hr =>
    obtain ⟨s, r, t, -, -, -, hr⟩ := hr
    rw [hr] at h
    cases h

theorem receive_append (b : PacketBuffer) (p rs rs' : List Read) :
    receive b p (rs ++ rs') = match receive b p rs with
      | .waiting b' p' => receive b' p' rs'
      | .returned t p' => .returned t p'
      | .panicked => .panicked := by
  induction rs generalizing b p with
  | nil => simp
  | cons read rs ih =>
    cases receive_step b read with
    | inl h =>
      obtain ⟨b', -, hw⟩ := h
      rw [List.cons_append, hw, hw, ih]
    | inr h =>
      obtain ⟨s, r, t, -, -, -, hw⟩ := h
      rw [List.cons_append, hw, hw]

/-- How the loop returns: it waited until a read completed a first segment that decodes. -/
def ReturnsAt (b : PacketBuffer) (p rs used : List Read) (t : TagsSeen) : Prop :=
  ∃ init read rest b' s r, rs = init ++ read :: rest ∧ used = init ++ [read] ∧
    receive b p init = .waiting b' (p ++ init) ∧ (appendRead b' read).toList = s ++ 0 :: r ∧
    0 ∉ s ∧ fromBytesCobs s = some t

/-- The loop never panics; it waits with every read processed once, or it has returned at one. -/
theorem receive_cases (b : PacketBuffer) (p rs : List Read) :
    (∃ b', receive b p rs = .waiting b' (p ++ rs)) ∨
    ∃ used t, receive b p rs = .returned t (p ++ used) ∧ ReturnsAt b p rs used t := by
  induction rs generalizing b p with
  | nil => exact Or.inl ⟨b, by simp⟩
  | cons read rs ih =>
    cases receive_step b read with
    | inl h =>
      obtain ⟨b', -, hw⟩ := h
      cases ih b' (p ++ [read]) with
      | inl h =>
        obtain ⟨b'', h⟩ := h
        exact Or.inl ⟨b'', by simpa [hw] using h⟩
      | inr h =>
        obtain ⟨used, t, hret, init, last, rest, b'', s, r, hrs, hused, hinit, hs⟩ := h
        refine Or.inr ⟨read :: used, t, by simpa [hw] using hret, read :: init, last, rest, b'', s, r,
          by simp [hrs], by simp [hused], by simpa [hw] using hinit, hs⟩
    | inr h =>
      obtain ⟨s, r, t, hs, hz, ht, hw⟩ := h
      exact Or.inr ⟨[read], t, hw p rs, [], read, rs, b, s, r, rfl, rfl, by simp, hs, hz, ht⟩

theorem returnsAt_of_returned {b : PacketBuffer} {p p' rs : List Read} {t : TagsSeen}
    (h : receive b p rs = .returned t p') :
    ∃ used, p' = p ++ used ∧ ReturnsAt b p rs used t := by
  cases receive_cases b p rs with
  | inl hw =>
    obtain ⟨b', hw⟩ := hw
    rw [hw] at h
    cases h
  | inr hr =>
    obtain ⟨used, t', hret, hat⟩ := hr
    rw [hret] at h
    cases h
    exact ⟨used, rfl, hat⟩

theorem receive_cleared {b : PacketBuffer} {read : Read}
    (h : packetBufferLen < b.toList.length + read.bytes.length) (p rs : List Read) :
    receive b p (read :: rs) = receive .empty p (read :: rs) := by
  rw [receive, receive, List.map_cons, wait_read, wait_read, appendRead_cleared h]

theorem receive_append_waiting {b b' : PacketBuffer} {p p' rs : List Read}
    (h : receive b p rs = .waiting b' p') (rs' : List Read) :
    receive b p (rs ++ rs') = receive b' p' rs' := by
  rw [receive_append, h]

theorem receive_prefix_waiting {b b' : PacketBuffer} {p p' rs rs' : List Read}
    (h : receive b p (rs ++ rs') = .waiting b' p') :
    ∃ b'', receive b p rs = .waiting b'' (p ++ rs) := by
  cases receive_cases b p rs with
  | inl hw => exact hw
  | inr hr =>
    obtain ⟨used, t, hr, -⟩ := hr
    rw [receive_append, hr] at h
    cases h

theorem receive_kept {b : PacketBuffer} {rs : List Read} (hz : 0 ∉ b.toList ++ bytesOf rs)
    (hlen : (b.toList ++ bytesOf rs).length ≤ packetBufferLen) (p : List Read) :
    ∃ b' : PacketBuffer, receive b p rs = .waiting b' (p ++ rs) ∧
      b'.toList = b.toList ++ bytesOf rs := by
  induction rs generalizing b p with
  | nil => exact ⟨b, by simp, by simp⟩
  | cons read rs ih =>
    rw [bytesOf_cons, ← List.append_assoc] at hz hlen
    have hfit : b.toList.length + read.bytes.length ≤ packetBufferLen := by
      simp only [List.length_append] at hlen
      omega
    have happ := appendRead_fits hfit
    have hkeep : 0 ∉ (appendRead b read).toList := by
      rw [happ]
      exact fun h => hz (List.mem_append_left _ h)
    rw [← happ] at hz hlen
    obtain ⟨b', hw, hb'⟩ := ih hz hlen (p ++ [read])
    refine ⟨b', ?_, ?_⟩
    · rw [receive, List.map_cons, wait_keep hkeep]
      simpa [receive] using hw
    · rw [hb', happ, bytesOf_cons, List.append_assoc]

end AssetTracker.Gateway
