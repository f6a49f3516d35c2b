import AssetTracker.Gateway.Receiver

/-! How much the result of the receiver depends on the cutting of the stream into reads. At most one
segment is handled per read, so the reads are rounds in which segments arrive and one is served. -/
namespace AssetTracker.Gateway
open Bounded Lib Wire

def Outcome.value : Outcome → Option TagsSeen
  | .waiting _ _ => none
  | .returned tags _ => some tags
  | .panicked => none

/-- The first terminated segment that decodes, decoded. -/
def firstDecoded (stream : List UInt8) : Option TagsSeen :=
  (segments 0 stream).findSome? fromBytesCobs

def firstDecodable (stream : List UInt8) : Option Nat :=
  (segments 0 stream).findIdx? fun s => (fromBytesCobs s).isSome

/-- Wherever the reads are cut, the terminators read before and the reads that follow are more
than `n`. -/
def Drained (reads : List Read) (n : Nat) : Prop :=
  ∀ k ≤ reads.length, n < (bytesOf (reads.take k)).count 0 + (reads.length - k)

def arrivals (reads : List Read) : List Nat := reads.map fun r => r.bytes.count 0

theorem sum_arrivals (reads : List Read) : (arrivals reads).sum = (bytesOf reads).count 0 := by
  induction reads with
  | nil => rfl
  | cons read reads ih =>
    rw [bytesOf_cons, List.count_append, ← ih]
    simp [arrivals]

theorem drained_iff (reads : List Read) (n : Nat) :
    Drained reads n ↔ n < served (arrivals reads) := by
  have hlen : (arrivals reads).length = reads.length := List.length_map _
  have htake : ∀ k, ((arrivals reads).take k).sum = (bytesOf (reads.take k)).count 0 := by
    intro k
    rw [← sum_arrivals, arrivals, arrivals, List.map_take]
  have h := le_served_iff (arrivals reads) (n + 1)
  simp only [htake, hlen] at h
  exact h.symm

theorem served_next {rs : List Read} {read : Read} {dropped : List (List UInt8)} {w : List UInt8}
    (hall : bytesOf (rs ++ [read]) = terminated 0 dropped ++ w) (hz : ∀ s ∈ dropped, 0 ∉ s)
    (hserved : dropped.length = served (arrivals rs)) :
    served (arrivals (rs ++ [read])) = dropped.length + min 1 (w.count 0) := by
  have harr : arrivals (rs ++ [read]) = arrivals rs ++ [read.bytes.count 0] := by
    simp [arrivals]
  have hcount := sum_arrivals (rs ++ [read])
  rw [harr, List.sum_append, List.sum_singleton, hall, List.count_append,
    count_terminated hz] at hcount
  rw [harr, served_snoc, ← hserved]
  omega

theorem waiting_progress {rs : List Read} (hlen : (bytesOf rs).length ≤ packetBufferLen)
    {b : PacketBuffer} (h : receive .empty [] rs = .waiting b rs) :
    ∃ dropped, bytesOf rs = terminated 0 dropped ++ b.toList ∧
      (∀ s ∈ dropped, 0 ∉ s ∧ fromBytesCobs s = none) ∧
      dropped.length = served (arrivals rs) := by
  induction rs using List.reverseRecOn generalizing b with
  | nil =>
    obtain ⟨rfl, -⟩ : BVec.empty = b ∧ ([] : List Read) = [] := by simpa using h
    exact ⟨[], rfl, by simp, rfl⟩
  | append_singleton rs read ih =>
    obtain ⟨b₁, h₁⟩ := receive_prefix_waiting h
    rw [List.nil_append] at h₁
    rw [bytesOf_append, bytesOf_cons, bytesOf_nil, List.append_nil, List.length_append] at hlen
    obtain ⟨dropped, hbytes, hdropped, hserved⟩ := ih (by omega) h₁
    have hz : ∀ s ∈ dropped, 0 ∉ s := fun s hs => (hdropped s hs).1
    have hfit : b₁.toList.length + read.bytes.length ≤ packetBufferLen := by
      rw [hbytes, List.length_append] at hlen
      omega
    have hall : bytesOf (rs ++ [read]) = terminated 0 dropped ++ (appendRead b₁ read).toList := by
      simp [hbytes, appendRead_fits hfit]
    have hnext := served_next hall hz hserved
    rw [receive_append_waiting h₁] at h
    cases waiting_step h with
    | inl hkeep =>
      obtain ⟨hz', rfl⟩ := hkeep
      rw [List.count_eq_zero.mpr hz'] at hnext
      exact ⟨dropped, hall, hdropped, by omega⟩
    | inr hdrop =>
      obtain ⟨s, hs, hz', hnone⟩ := hdrop
      rw [hs] at hall hnext
      rw [List.count_append, List.count_cons_self] at hnext
      refine ⟨dropped ++ [s], by simpa [terminated] using hall, ?_, ?_⟩
      · intro s' hs'
        cases List.mem_append.mp hs' with
        | inl hold => exact hdropped s' hold
        | inr hnew =>
          rw [List.mem_singleton.mp hnew]
          exact ⟨hz', hnone⟩
      · rw [List.length_append, List.length_singleton]
        omega

theorem returned_progress {rs : List Read} (hlen : (bytesOf rs).length ≤ packetBufferLen)
    {t : TagsSeen} {p : List Read} (h : receive .empty [] rs = .returned t p) :
    ∃ dropped s more, segments 0 (bytesOf rs) = dropped ++ s :: more ∧
      (∀ s ∈ dropped, fromBytesCobs s = none) ∧ fromBytesCobs s = some t ∧
      dropped.length < served (arrivals rs) := by
  obtain ⟨-, -, init, read, rest, b, s, r, hrs, -, hinit, hs, hz, ht⟩ := returnsAt_of_returned h
  rw [List.nil_append] at hinit
  have hbytes : bytesOf rs = bytesOf init ++ read.bytes ++ bytesOf rest := by simp [hrs]
  rw [hbytes, List.length_append, List.length_append] at hlen
  obtain ⟨dropped, hdone, hdropped, hserved⟩ := waiting_progress (by omega) hinit
  have hfit : b.toList.length + read.bytes.length ≤ packetBufferLen := by
    rw [hdone, List.length_append] at hlen
    omega
  rw [appendRead_fits hfit] at hs
  have hz' : ∀ s ∈ dropped, 0 ∉ s := fun s hs => (hdropped s hs).1
  refine ⟨dropped, s, segments 0 (r ++ bytesOf rest), ?_, fun s hs => (hdropped s hs).2, ht, ?_⟩
  · have hall : bytesOf rs = terminated 0 dropped ++ (s ++ 0 :: (r ++ bytesOf rest)) := by
      rw [hbytes, hdone, List.append_assoc (terminated 0 dropped), hs]
      simp
    rw [hall, segments_terminated_append hz', segments_cons hz]
  · have hall : bytesOf (init ++ [read]) = terminated 0 dropped ++ (s ++ 0 :: r) := by
      simp [hdone, hs]
    have hnext := served_next hall hz' hserved
    rw [List.count_append, List.count_cons_self] at hnext
    have hmore : served (arrivals (init ++ [read])) ≤ served (arrivals rs) := by
      have hsplit : arrivals rs = arrivals (init ++ [read]) ++ arrivals rest := by
        simp [hrs, arrivals]
      rw [hsplit]
      exact served_append _ _
    omega

theorem firstDecodable_append {stream : List UInt8} {dropped more : List (List UInt8)}
    (h : segments 0 stream = dropped ++ more) (hdropped : ∀ s ∈ dropped, fromBytesCobs s = none) :
    firstDecoded stream = more.findSome? fromBytesCobs ∧
    firstDecodable stream =
      (more.findIdx? fun s => (fromBytesCobs s).isSome).map (· + dropped.length) := by
  have hsome : dropped.findSome? fromBytesCobs = none := List.findSome?_eq_none_iff.mpr hdropped
  have hidx : (dropped.findIdx? fun s => (fromBytesCobs s).isSome) = none := by
    rw [List.findIdx?_eq_none_iff]
    intro s hs
    rw [hdropped s hs, Option.isSome_none]
  constructor
  · rw [firstDecoded, h, List.findSome?_append, hsome, Option.none_or]
  · rw [firstDecodable, h, List.findIdx?_append, hidx, Option.none_or]

theorem firstDecodable_none {stream : List UInt8} :
    firstDecoded stream = none ↔ firstDecodable stream = none := by
  simp [firstDecoded, firstDecodable]

/-- One cutting gives what the stream gives exactly when its reads reach the first segment that
decodes. -/
theorem value_iff {rs : List Read} (hlen : (bytesOf rs).length ≤ packetBufferLen) :
    (receive .empty [] rs).value = firstDecoded (bytesOf rs) ↔
      ∀ n, firstDecodable (bytesOf rs) = some n → Drained rs n := by
  simp only [drained_iff]
  cases receive_cases .empty [] rs with
  | inl hw =>
    obtain ⟨b, hw⟩ := hw
    rw [List.nil_append] at hw
    obtain ⟨dropped, hbytes, hdropped, hserved⟩ := waiting_progress hlen hw
    have hseg : segments 0 (bytesOf rs) = dropped ++ segments 0 b.toList := by
      rw [hbytes, segments_terminated_append fun s hs => (hdropped s hs).1]
    obtain ⟨-, hidx⟩ := firstDecodable_append hseg fun s hs => (hdropped s hs).2
    rw [hw, Outcome.value, eq_comm, firstDecodable_none]
    constructor
    · intro hnone n hn
      rw [hnone] at hn
      cases hn
    · intro h
      cases hn : firstDecodable (bytesOf rs) with
      | none => rfl
      | some n =>
        have hlt := h n hn
        rw [hidx] at hn
        obtain ⟨k, -, hk⟩ := Option.map_eq_some_iff.mp hn
        omega
  | inr hr =>
    obtain ⟨used, t, hret, -⟩ := hr
    obtain ⟨dropped, s, more, hseg, hdropped, ht, hserved⟩ := returned_progress hlen hret
    obtain ⟨hfirst, hidx⟩ := firstDecodable_append hseg hdropped
    simp [hret, hfirst, hidx, ht, Outcome.value, List.findIdx?_cons, hserved]

/-- Two cuttings of one short stream both give its first decodable segment, or both none when it has
none, exactly when the reads of both reach that segment. -/
theorem cutting_irrelevant_iff {uart uart' : List FillBuf}
    (hbytes : bytesOf (readsOf uart) = bytesOf (readsOf uart'))
    (hlen : (bytesOf (readsOf uart)).length ≤ packetBufferLen) :
    ((waitForDecodedMessage .empty [] uart).value = firstDecoded (bytesOf (readsOf uart)) ∧
      (waitForDecodedMessage .empty [] uart').value = firstDecoded (bytesOf (readsOf uart'))) ↔
    ∀ n, firstDecodable (bytesOf (readsOf uart)) = some n →
      Drained (readsOf uart) n ∧ Drained (readsOf uart') n := by
  have h := value_iff hlen
  have h' := value_iff (hbytes ▸ hlen)
  rw [← hbytes] at h' ⊢
  rw [wait_eq_receive, wait_eq_receive, h, h']
  exact ⟨fun hd n hn => ⟨hd.1 n hn, hd.2 n hn⟩, fun hd => ⟨fun n hn => (hd n hn).1,
    fun n hn => (hd n hn).2⟩⟩

/- The frame of an empty list, and its end. -/
def emptyFrame : Read := ⟨[1, 1, 0], by decide, by decide⟩

def emptyFrameEnd : Read := ⟨[1, 0], by decide, by decide⟩

/- A stray terminator and then that frame, in one read and in two. -/
def strayUart : List FillBuf := [.ok ⟨[0, 1, 1, 0], by decide, by decide⟩]

def strayUartCut : List FillBuf :=
  [.ok ⟨[0], by decide, by decide⟩, .ok emptyFrame]

def strayUartHalves : List FillBuf :=
  [.ok ⟨[0, 1], by decide, by decide⟩, .ok emptyFrameEnd]

theorem cutting_irrelevant_iff_stray :
    (waitForDecodedMessage .empty [] strayUartCut).value = some ⟨.empty⟩ ∧
    (waitForDecodedMessage .empty [] strayUartHalves).value = some ⟨.empty⟩ := by
  have hbytes : bytesOf (readsOf strayUartCut) = bytesOf (readsOf strayUartHalves) := rfl
  refine (cutting_irrelevant_iff hbytes (by decide)).mpr ?_
  intro n hn
  obtain rfl : 1 = n := Option.some.inj hn
  constructor
  · unfold Drained
    decide
  · unfold Drained
    decide

theorem strayUart_value : (waitForDecodedMessage .empty [] strayUart).value = none := by
  rw [strayUart, wait_read]
  change (waitForDecodedMessage ⟨[1, 1, 0], by decide⟩ _ []).value = none
  rw [wait_nil, Outcome.value]

/-- Read in one piece, the frame behind the stray terminator stays in the buffer. -/
theorem cutting_matters : ¬ ∀ uart uart' : List FillBuf,
    bytesOf (readsOf uart) = bytesOf (readsOf uart') →
    (bytesOf (readsOf uart)).length ≤ packetBufferLen →
    (waitForDecodedMessage .empty [] uart).value = firstDecoded (bytesOf (readsOf uart)) ∧
      (waitForDecodedMessage .empty [] uart').value = firstDecoded (bytesOf (readsOf uart')) := by
  intro h
  have hv := (h strayUart strayUartCut rfl (by decide)).1
  have hfirst : firstDecoded (bytesOf (readsOf strayUart)) = some ⟨.empty⟩ := rfl
  rw [strayUart_value, hfirst] at hv
  cases hv

end AssetTracker.Gateway
