import AssetTracker.Link.Tracker
import AssetTracker.Gateway.Cycle

/-! Where the tags of an update come from. While the gateway listens to an undisturbed line, what it has
kept, what is on the line and what is still to be written are together the frames sent since it began
to listen; so it takes the first of them, and no other. -/
namespace AssetTracker.Link.Tracker
open Bounded Gateway Wire

/-- The frames sent since the gateway last began to listen, oldest first, while it does. -/
def framesSince : List Obs → Option (List TagsSeen)
  | [] => none
  | .listening _ :: _ => some []
  | .decoded _ _ :: _ => none
  | .gateway _ (.built _) :: _ => none
  | .scanner (.frame _ tags _) :: trace => (framesSince trace).map fun ts => ts ++ [tags]
  | _ :: trace => framesSince trace

/-- The tags decoded for the next update, and when. -/
def lastDecoded : List Obs → Option (Nat × TagsSeen)
  | [] => none
  | .decoded clock tags :: _ => some (clock, tags)
  | .listening _ :: _ => none
  | .gateway _ (.built _) :: _ => none
  | _ :: trace => lastDecoded trace

/-- Nothing happens to the bytes, and the gateway never begins to listen in the middle of a frame. -/
def Undisturbed (trace : List Obs) : Prop := .disturbed ∉ trace ∧ .listening false ∉ trace

structure LineInv (trace : List Obs) (s : State) : Prop where
  listening : s.gateway.uartRequest = true → ∃ ts, framesSince trace = some ts ∧
    0 ∉ s.packetBuffer.toList ∧ s.packetBuffer.toList ++ (s.line ++ s.writer.rest) = line ts
  connecting : ∀ location tags instant, s.gateway.phase = .connecting location tags instant →
    lastDecoded trace = some (instant, tags)

/-- What an observation says about the run before it. -/
def Justified (p : Scanner.Platform) (cfg : Updates.Config) (before : List Obs) : Obs → Prop
  | .scanner (.frame now tags data) => ∃ sc, (Scanner.scanner p).Run (before.filterMap scannerObs) sc ∧
      now = sc.clock ∧ tags = Scanner.snapshotTags p sc.clock sc.seen ∧ data = some (frame tags)
  | .decoded _ tags => ∃ ts, framesSince before = some (tags :: ts)
  | .gateway builtAt (.built update) => ∃ location decodedAt tags,
      lastDecoded before = some (decodedAt, tags) ∧
        gatewayUpdate cfg.checks cfg.tickHz cfg.deviceId location tags decodedAt builtAt = some update
  | _ => True

variable {p : Scanner.Platform} {cfg : Updates.Config} {s s' : State} {obs trace : List Obs}

section Gateway
variable {g g' : Updates.State} {o : List Updates.Obs} {e : Updates.Event}

theorem receiving_step (he : ∀ tags, e ≠ .decoded tags) {location : Option Location}
    (hp : g.phase = .receiving location) (h : Updates.step cfg g e = some (g', o)) :
    g'.phase = .receiving location ∧ o = [] := by
  cases e with
  | decoded tags => exact absurd rfl (he tags)
  | tick d =>
    simp only [Updates.step] at h
    split_ifs at h <;> cases h <;> exact ⟨hp, rfl⟩
  | ledsStarted =>
    cases ht : g.ledsTask <;> simp only [Updates.step, ht] at h <;> cases h <;> exact ⟨hp, rfl⟩
  | ledsReceive =>
    cases ht : g.ledsTask <;> cases hc : g.ledChannel <;> simp only [Updates.step, ht, hc] at h <;>
      cases h <;> exact ⟨hp, rfl⟩
  | ledsTimer =>
    cases h
    exact ⟨hp, rfl⟩
  | _ =>
    simp only [Updates.step, hp] at h
    cases h
    exact ⟨hp, rfl⟩

theorem top_not_connecting {tickHz : Nat} (htop : Updates.TopEffect tickHz g g' o)
    (location : Option Location) (tags : TagsSeen) (instant : Nat) :
    g'.phase ≠ .connecting location tags instant := by
  cases htop with
  | waiting hlt => simp
  | started hle => simp [Updates.startUpdate]

theorem connecting_step (he : ∀ tags, e ≠ .decoded tags)
    (h : Updates.step cfg g e = some (g', o)) {location : Option Location} {tags : TagsSeen}
    {instant : Nat} (hp : g'.phase = .connecting location tags instant) :
    g.phase = .connecting location tags instant ∧ o = [] := by
  have heff := Updates.effect_of_step h
  cases heff with
  | idle => exact ⟨hp, rfl⟩
  | tick d hd => exact ⟨hp, rfl⟩
  | booted _ htop => exact absurd hp (top_not_connecting htop _ _ _)
  | skipped deadline _ _ => cases hp
  | started deadline _ _ => cases hp
  | located tries reading location' _ _ => cases hp
  | failed tries reading phase _ hphase =>
    cases hphase with
    | inl hphase =>
      rw [hphase] at hp
      cases hp
    | inr hphase =>
      rw [hphase] at hp
      cases hp
  | retried tries deadline _ => cases hp
  | decoded location' tags' hreceiving =>
    obtain ⟨hp', _⟩ := receiving_step he hreceiving h
    rw [hp'] at hp
    cases hp
  | built _ _ _ update _ _ => cases hp
  | unserialised _ _ _ update _ _ htop => exact absurd hp (top_not_connecting htop _ _ _)
  | sent update _ htop => exact absurd hp (top_not_connecting htop _ _ _)
  | ledsStarted _ => exact ⟨hp, rfl⟩
  | ledsReceived t status _ _ => exact ⟨hp, rfl⟩
  | ledsTimer => exact ⟨hp, rfl⟩

theorem top_not_built {tickHz : Nat} (htop : Updates.TopEffect tickHz g g' o)
    (update : GatewayUpdate) : .built update ∉ o := by
  cases htop with
  | waiting hlt => simp [Updates.announcedObs]
  | started hle => simp [Updates.startObs, Updates.announcedObs]

def isBuilt : Updates.Obs → Bool
  | .built _ => true
  | _ => false

theorem top_countP {tickHz : Nat} (htop : Updates.TopEffect tickHz g g' o) :
    o.countP isBuilt = 0 := by
  cases htop with
  | waiting hlt => rfl
  | started hle => rfl

/-- A step builds one update at most. -/
theorem built_once (h : Updates.step cfg g e = some (g', o)) : o.countP isBuilt ≤ 1 := by
  cases Updates.effect_of_step h with
  | unserialised location tags instant update hp hupdate htop =>
    rw [List.countP_append, top_countP htop]
    exact le_refl 1
  | booted _ htop => simp [top_countP htop]
  | sent _ _ htop =>
    rw [List.countP_append, top_countP htop]
    exact Nat.zero_le 1
  | built location tags instant update hp hupdate => exact le_refl 1
  | _ => simp [isBuilt, Updates.announcedObs, Updates.startObs]

theorem built_step (h : Updates.step cfg g e = some (g', o)) {update : GatewayUpdate}
    (hu : .built update ∈ o) : ∃ location tags instant,
      g.phase = .connecting location tags instant ∧
        gatewayUpdate cfg.checks cfg.tickHz cfg.deviceId location tags instant g.clock =
          some update := by
  have heff := Updates.effect_of_step h
  cases heff with
  | built location tags instant update' hp hupdate =>
    have heq : update = update' := by simpa [Updates.announcedObs] using hu
    exact ⟨location, tags, instant, hp, by rw [heq, hupdate]⟩
  | unserialised location tags instant update' hp hupdate htop =>
    have heq : update = update' := by
      simpa [top_not_built htop, Updates.announcedObs] using hu
    exact ⟨location, tags, instant, hp, by rw [heq, hupdate]⟩
  | booted _ htop => exact absurd hu (top_not_built htop update)
  | sent _ _ htop => simp [top_not_built htop] at hu
  | _ => simp [Updates.announcedObs, Updates.startObs] at hu

end Gateway

theorem lastDecoded_gateway {clock : Nat} {o : List Updates.Obs} (ho : ∀ update, .built update ∉ o)
    (trace : List Obs) : lastDecoded (o.map (.gateway clock) ++ trace) = lastDecoded trace := by
  induction o with
  | nil => rfl
  | cons o os ih =>
    have hrest := ih fun update hmem => ho update (List.mem_cons_of_mem o hmem)
    cases o with
    | built update => exact absurd List.mem_cons_self (ho update)
    | _ => exact hrest

theorem justified_gateway {clock : Nat} {o : List Updates.Obs}
    (htrace : Lib.Everywhere (Justified p cfg) trace) (hcount : o.countP isBuilt ≤ 1)
    (h : ∀ update, .built update ∈ o → Justified p cfg trace (.gateway clock (.built update))) :
    Lib.Everywhere (Justified p cfg) (o.map (.gateway clock) ++ trace) := by
  induction o with
  | nil => exact htrace
  | cons o os ih =>
    have hos : os.countP isBuilt ≤ 1 := ((List.sublist_cons_self o os).countP_le).trans hcount
    refine ⟨?_, ih hos fun update hmem => h update (List.mem_cons_of_mem o hmem)⟩
    cases o with
    | built update =>
      have hnone : os.countP isBuilt = 0 := by
        rw [List.countP_cons_of_pos rfl] at hcount
        omega
      obtain ⟨location, decodedAt, tags, hlast, hupdate⟩ := h update List.mem_cons_self
      have hunbuilt : ∀ update, .built update ∉ os :=
        fun _ hmem => List.countP_eq_zero.mp hnone _ hmem rfl
      exact ⟨location, decodedAt, tags, (lastDecoded_gateway hunbuilt trace).trans hlast, hupdate⟩
    | _ => trivial

/-- A read of what the gateway listens to completes the first frame, or nothing. -/
theorem iteration_line {buffer : PacketBuffer} {bytes rest : List UInt8} {ts : List TagsSeen}
    (hzero : 0 ∉ buffer.toList) (hline : buffer.toList ++ (bytes ++ rest) = line ts) {n : Nat}
    {read : Read} (hread : available bytes n = some read) :
    (∃ buffer', iteration buffer read = .next buffer' ∧ 0 ∉ buffer'.toList ∧
      buffer'.toList ++ (bytes.drop n ++ rest) = line ts) ∨
    ∃ t ts', ts = t :: ts' ∧ iteration buffer read = .decoded t := by
  obtain ⟨hn, hbytes⟩ : (0 < n ∧ n ≤ rxBufLen ∧ n ≤ bytes.length) ∧ read.bytes = bytes.take n := by
    unfold available at hread
    split_ifs at hread with h
    cases hread
    exact ⟨h, rfl⟩
  have hsplit : buffer.toList ++ read.bytes ++ (bytes.drop n ++ rest) = line ts := by
    rw [hbytes, ← hline, List.append_assoc, ← List.append_assoc (bytes.take n),
      List.take_append_drop]
  have hprefix : buffer.toList ++ read.bytes <+: line ts := ⟨_, hsplit⟩
  have hlen : buffer.toList.length ≤ 3218 :=
    length_line_part ((List.prefix_append _ _).trans hprefix) hzero
  have hfits : (buffer.toList ++ read.bytes).length ≤ packetBufferLen := by
    have hread := read.fits
    rw [List.length_append]
    simp only [packetBufferLen, rxBufLen] at *
    omega
  have hiteration : iteration buffer read = handlePacket ⟨_, hfits⟩ := by
    rw [iteration, BVec.extendFromSlice, dif_pos hfits]
  cases Lib.segment_cases 0 (buffer.toList ++ read.bytes) with
  | inl hnone =>
    refine .inl ⟨⟨_, hfits⟩, ?_, hnone, hsplit⟩
    rw [hiteration, handlePacket_of_not_mem hnone]
  | inr hsome =>
    obtain ⟨segment, r, hsegment, hz⟩ := hsome
    rw [hsegment] at hprefix
    obtain ⟨t, ts', hts, hbody, _⟩ := line_segment hprefix hz
    obtain ⟨_, _, hpacket⟩ := handlePacket_segment (b := ⟨_, hfits⟩) hsegment hz
    rw [hbody, fromBytesCobs_body] at hpacket
    exact .inr ⟨t, ts', hts, hiteration.trans hpacket⟩

theorem undisturbed_append : Undisturbed (obs ++ trace) ↔ Undisturbed obs ∧ Undisturbed trace := by
  simp only [Undisturbed, List.mem_append, not_or]
  tauto

theorem rest_of_quiet {w : Writer} (h : w.quiet = true) : w.rest = [] := by
  cases w with
  | writing rest => cases h
  | _ => rfl

theorem writeStep_line {rest : List UInt8} (n : Nat) (hw : s.writer = .writing rest)
    (hr : s.gateway.uartRequest = true) :
    (writeStep s n).line ++ (writeStep s n).writer.rest = s.line ++ s.writer.rest := by
  simp only [writeStep, hw, hr, if_true, Writer.rest]
  by_cases hlen : rest.length ≤ n
  · simp [hlen, List.take_of_length_le hlen]
  · simp [hlen]

theorem writeStep_packetBuffer (s : State) (n : Nat) :
    (writeStep s n).packetBuffer = s.packetBuffer := by
  unfold writeStep
  split <;> rfl

theorem LineInv.keep (hs : LineInv trace s) (hgateway : s'.gateway = s.gateway)
    (hlast : lastDecoded (obs ++ trace) = lastDecoded trace)
    (hline : s.gateway.uartRequest = true → ∀ ts, framesSince trace = some ts →
      0 ∉ s.packetBuffer.toList → s.packetBuffer.toList ++ (s.line ++ s.writer.rest) = line ts →
      ∃ ts', framesSince (obs ++ trace) = some ts' ∧ 0 ∉ s'.packetBuffer.toList ∧
        s'.packetBuffer.toList ++ (s'.line ++ s'.writer.rest) = line ts') :
    LineInv (obs ++ trace) s' where
  listening hr := by
    rw [hgateway] at hr
    obtain ⟨ts, hsince, hzero, hbytes⟩ := hs.listening hr
    exact hline hr ts hsince hzero hbytes
  connecting location tags instant hp := by
    rw [hgateway] at hp
    rw [hlast]
    exact hs.connecting location tags instant hp

theorem lastDecoded_scanner {o : List Scanner.Obs} (trace : List Obs) :
    lastDecoded (o.map .scanner ++ trace) = lastDecoded trace := by
  induction o with
  | nil => rfl
  | cons _ o ih => exact ih

theorem not_frame {sc sc' : Scanner.State} {e : Scanner.Event} {o : List Scanner.Obs}
    (he : e ≠ .sendScanData) (h : Scanner.step p sc e = some (sc', o)) (now : Nat) (tags : TagsSeen)
    (data : Option (List UInt8)) : .frame now tags data ∉ o := by
  cases e with
  | sendScanData => exact absurd rfl he
  | tick d =>
    cases h
    simp
  | onAdvReports it =>
    cases h
    simp
  | receiveTags =>
    have hobs : o = (Scanner.receiveStep sc).2 := by rw [Option.some.inj h]
    rw [hobs]
    cases hq : sc.queue.popFront with
    | none => simp [Scanner.receiveStep, hq]
    | some front => simp [Scanner.receiveStep_some hq]
  | automaticCleanup =>
    obtain ⟨seen, _, h⟩ := Option.bind_eq_some_iff.mp h
    cases h
    simp

theorem framesSince_scanner {o : List Scanner.Obs} (ho : ∀ now tags data, .frame now tags data ∉ o)
    (trace : List Obs) : framesSince (o.map .scanner ++ trace) = framesSince trace := by
  induction o with
  | nil => rfl
  | cons o os ih =>
    have hrest := ih fun now tags data hmem => ho now tags data (List.mem_cons_of_mem o hmem)
    cases o with
    | frame now tags data => exact absurd List.mem_cons_self (ho now tags data)
    | _ => exact hrest

theorem justified_scanner {o : List Scanner.Obs} (ho : ∀ now tags data, .frame now tags data ∉ o)
    (htrace : Lib.Everywhere (Justified p cfg) trace) :
    Lib.Everywhere (Justified p cfg) (o.map .scanner ++ trace) := by
  refine htrace.append ?_
  intro o' ho' before
  obtain ⟨o'', hmem, rfl⟩ := List.mem_map.mp ho'
  cases o'' with
  | frame now tags data => exact absurd hmem (ho now tags data)
  | _ => trivial

def Requesting (g : Updates.State) : Prop :=
  g.uartRequest = true ↔ ∃ location, g.phase = .receiving location

theorem sendScanData_reachable (h : (Scanner.scanner p).Run (trace.filterMap scannerObs) s.scanner)
    {tags : TagsSeen} {data : Option (List UInt8)}
    (hsend : Scanner.sendScanData p s.scanner.clock s.scanner.seen = some (tags, data)) :
    tags = Scanner.snapshotTags p s.scanner.clock s.scanner.seen ∧ data = some (frame tags) := by
  rw [Scanner.sendScanData_eq_some (Scanner.storeInv_run h).seenPast] at hsend
  cases hsend
  exact ⟨rfl, rfl⟩

theorem LineInv.framed (hs : LineInv trace s) (hw : s.writer = .waiting) (tags : TagsSeen) (now : Nat) :
    LineInv (.scanner (.frame now tags (some (frame tags))) :: trace)
      { s with writer := written (some (frame tags)) } := by
  change LineInv ([.scanner (.frame now tags (some (frame tags)))] ++ trace) _
  refine hs.keep rfl rfl ?_
  intro _ ts hsince hzero hline
  refine ⟨ts ++ [tags], by simp [framesSince, hsince], hzero, ?_⟩
  have hrest : s.writer.rest = [] := rest_of_quiet (by rw [hw]; rfl)
  rw [hrest, List.append_nil] at hline
  rw [written, Writer.rest, ← List.append_assoc, hline]
  simp [line]

theorem LineInv.wrote (hs : LineInv trace s) {rest : List UInt8} (hw : s.writer = .writing rest)
    (n : Nat) : LineInv trace (writeStep s n) := by
  change LineInv ([] ++ trace) (writeStep s n)
  refine hs.keep (writeStep_programs s n).2 rfl ?_
  intro hr ts hsince hzero hline
  rw [writeStep_packetBuffer, writeStep_line n hw hr]
  exact ⟨ts, hsince, hzero, hline⟩

theorem LineInv.paused (hs : LineInv trace s) (hw : s.writer = .pausing) :
    LineInv trace { s with writer := .waiting } := by
  change LineInv ([] ++ trace) _
  refine hs.keep rfl rfl ?_
  intro _ ts hsince hzero hline
  rw [hw] at hline
  exact ⟨ts, hsince, hzero, hline⟩

theorem LineInv.gateway (hs : LineInv trace s) (hrequest : Requesting s.gateway) {g : Updates.State}
    {o : List Updates.Obs} {e : Updates.Event} (he : ∀ tags, e ≠ .decoded tags)
    (h : Updates.step cfg s.gateway e = some (g, o))
    (hr : s.gateway.uartRequest = false → g.uartRequest = false) :
    LineInv (o.map (.gateway s.gateway.clock) ++ trace) { s with gateway := g } := by
  constructor
  · intro hr'
    have hhigh : s.gateway.uartRequest = true := by
      cases hlow : s.gateway.uartRequest with
      | true => rfl
      | false =>
        rw [hr hlow] at hr'
        cases hr'
    obtain ⟨location, hp⟩ := hrequest.mp hhigh
    obtain ⟨_, ho⟩ := receiving_step he hp h
    rw [ho]
    exact hs.listening hhigh
  · intro location tags instant hp
    obtain ⟨hp', ho⟩ := connecting_step he h hp
    rw [ho]
    exact hs.connecting location tags instant hp'

theorem lineInv_listening {g : Updates.State} (hrequest : Requesting g) (hr : g.uartRequest = true)
    (hquiet : s.writer.quiet = true) (clock : Nat) (o : List Updates.Obs) :
    LineInv (.listening true :: o.map (.gateway clock) ++ trace)
      { s with gateway := g, line := [], packetBuffer := .empty } := by
  constructor
  · intro _
    refine ⟨[], rfl, by simp, ?_⟩
    simp [rest_of_quiet hquiet, line]
  · intro location tags instant hp
    obtain ⟨location', hreceiving⟩ := hrequest.mp hr
    rw [hreceiving] at hp
    cases hp

theorem LineInv.not_retried (hs : LineInv trace s) (hr : s.gateway.uartRequest = true) {n : Nat}
    {read : Read} (hread : available s.line n = some read) (packetBuffer : PacketBuffer) :
    iteration s.packetBuffer read ≠ .retry packetBuffer := by
  intro hi
  obtain ⟨ts, _, hzero, hline⟩ := hs.listening hr
  cases iteration_line hzero hline hread with
  | inl hnext =>
    obtain ⟨_, hnext, _⟩ := hnext
    rw [hnext] at hi
    cases hi
  | inr hdecoded =>
    obtain ⟨_, _, _, hdecoded⟩ := hdecoded
    rw [hdecoded] at hi
    cases hi

theorem LineInv.kept (hs : LineInv trace s) {n : Nat} {read : Read} {packetBuffer : PacketBuffer}
    (hread : available s.line n = some read)
    (hi : iteration s.packetBuffer read = .next packetBuffer) :
    LineInv trace { s with packetBuffer := packetBuffer, line := s.line.drop n } := by
  change LineInv ([] ++ trace) _
  refine hs.keep rfl rfl ?_
  intro _ ts hsince hzero hline
  cases iteration_line hzero hline hread with
  | inl hnext =>
    obtain ⟨_, hnext, hzero', hline'⟩ := hnext
    rw [hnext] at hi
    cases hi
    exact ⟨ts, hsince, hzero', hline'⟩
  | inr hdecoded =>
    obtain ⟨_, _, _, hdecoded⟩ := hdecoded
    rw [hdecoded] at hi
    cases hi

/-- What a listening gateway decodes is the first frame sent since it began. -/
theorem LineInv.first (hs : LineInv trace s) (hr : s.gateway.uartRequest = true) {n : Nat}
    {read : Read} {tags : TagsSeen} (hread : available s.line n = some read)
    (hi : iteration s.packetBuffer read = .decoded tags) :
    ∃ ts, framesSince trace = some (tags :: ts) := by
  obtain ⟨ts, hsince, hzero, hline⟩ := hs.listening hr
  cases iteration_line hzero hline hread with
  | inl hnext =>
    obtain ⟨_, hnext, _⟩ := hnext
    rw [hnext] at hi
    cases hi
  | inr hdecoded =>
    obtain ⟨t, ts', hts, hdecoded⟩ := hdecoded
    rw [hdecoded] at hi
    cases hi
    exact ⟨ts', by rw [hsince, hts]⟩

theorem lineInv_decoded (hrequest : Requesting s.gateway) (hr : s.gateway.uartRequest = true)
    {g : Updates.State} {o : List Updates.Obs} {tags : TagsSeen}
    (h : Updates.step cfg s.gateway (.decoded tags) = some (g, o)) :
    LineInv (o.map (.gateway s.gateway.clock) ++ .decoded s.gateway.clock tags :: trace)
      { s with gateway := g } := by
  obtain ⟨location, hp⟩ := hrequest.mp hr
  have hdecoded : Updates.step cfg s.gateway (.decoded tags) =
      some (Updates.afterDecoded location tags s.gateway) := by
    simp only [Updates.step, hp]
  rw [hdecoded] at h
  cases h
  constructor
  · intro hlow
    cases hlow
  · intro location' tags' instant hp'
    cases hp'
    rw [lastDecoded_gateway]
    · rfl
    · simp [Updates.announcedObs]

theorem effect_lineInv (hscanner : (Scanner.scanner p).Run (trace.filterMap scannerObs) s.scanner)
    (hrequest : Requesting s.gateway) (hrequest' : Requesting s'.gateway) (hs : LineInv trace s)
    (hquiet : Undisturbed obs) {e : Event} (heff : Effect p cfg s e s' obs) :
    LineInv (obs ++ trace) s' := by
  cases heff with
  | idle e => exact hs
  | scanned e he h =>
    refine hs.keep rfl (lastDecoded_scanner trace) ?_
    intro _ ts hsince hzero hline
    rw [framesSince_scanner (not_frame he h)]
    exact ⟨ts, hsince, hzero, hline⟩
  | framed tags data hw hr h =>
    rw [(sendScanData_reachable hscanner h).2]
    exact hs.framed hw tags s.scanner.clock
  | wrote rest n hw => exact hs.wrote hw n
  | paused hw => exact hs.paused hw
  | failed rest hw => exact absurd List.mem_cons_self hquiet.1
  | disturbed line => exact absurd List.mem_cons_self hquiet.1
  | gateway e he h hr => exact hs.gateway hrequest he h hr
  | listening e he h hr hr' =>
    cases hw : s.writer.quiet with
    | true => exact lineInv_listening hrequest' hr' hw _ _
    | false =>
      rw [hw] at hquiet
      exact absurd List.mem_cons_self hquiet.2
  | retried n read packetBuffer hr hread hi => exact absurd hi (hs.not_retried hr hread packetBuffer)
  | kept n read packetBuffer hr hread hi => exact hs.kept hread hi
  | decoded n read tags hr hread hi h =>
    rw [List.append_assoc]
    exact lineInv_decoded hrequest hr h

theorem justified_built (hs : LineInv trace s) {g : Updates.State} {o : List Updates.Obs}
    {e : Updates.Event} (h : Updates.step cfg s.gateway e = some (g, o)) {update : GatewayUpdate}
    (hu : .built update ∈ o) :
    Justified p cfg trace (.gateway s.gateway.clock (.built update)) := by
  obtain ⟨location, tags, instant, hp, hupdate⟩ := built_step h hu
  exact ⟨location, instant, tags, hs.connecting location tags instant hp, hupdate⟩

theorem effect_justified (hscanner : (Scanner.scanner p).Run (trace.filterMap scannerObs) s.scanner)
    (hrequest : Requesting s.gateway) (hs : LineInv trace s)
    (htrace : Lib.Everywhere (Justified p cfg) trace) (hquiet : Undisturbed obs)
    {e : Event} (heff : Effect p cfg s e s' obs) :
    Lib.Everywhere (Justified p cfg) (obs ++ trace) := by
  cases heff with
  | idle e => exact htrace
  | scanned e he h => exact justified_scanner (not_frame he h) htrace
  | framed tags data hw hr h =>
    obtain ⟨htags, hdata⟩ := sendScanData_reachable hscanner h
    exact ⟨⟨s.scanner, hscanner, rfl, htags, hdata⟩, htrace⟩
  | wrote rest n hw => exact htrace
  | paused hw => exact htrace
  | failed rest hw => exact ⟨trivial, htrace⟩
  | disturbed line => exact ⟨trivial, htrace⟩
  | gateway e he h hr => exact justified_gateway htrace (built_once h) fun _ hu => justified_built hs h hu
  | listening e he h hr hr' =>
    exact ⟨trivial, justified_gateway htrace (built_once h) fun _ hu => justified_built hs h hu⟩
  | retried n read packetBuffer hr hread hi => exact htrace
  | kept n read packetBuffer hr hread hi => exact htrace
  | decoded n read tags hr hread hi h =>
    obtain ⟨location, hp⟩ := hrequest.mp hr
    obtain ⟨ts, hfirst⟩ := hs.first hr hread hi
    rw [List.append_assoc]
    refine justified_gateway ⟨⟨ts, hfirst⟩, htrace⟩ (built_once h) ?_
    intro update hu
    obtain ⟨_, _, _, hconnecting, _⟩ := built_step h hu
    rw [hp] at hconnecting
    cases hconnecting

theorem traced_run (h : (tracker p cfg).Run trace s) (hline : Undisturbed trace) :
    LineInv trace s ∧ Lib.Everywhere (Justified p cfg) trace := by
  refine h.invariant_while (C := Undisturbed) (P := fun trace s =>
    LineInv trace s ∧ Lib.Everywhere (Justified p cfg) trace)
    (fun h => (undisturbed_append.mp h).1) (fun h => (undisturbed_append.mp h).2) ?_ ?_ hline
  · exact ⟨⟨by simp [tracker, Updates.updates], by simp [tracker, Updates.updates]⟩, trivial⟩
  · intro trace s e s' obs hr ih hstep hquiet
    have hrequest := (Updates.cycleInv_run (run_gateway hr)).request
    have hrequest' := (Updates.cycleInv_run (run_gateway (hr.next hstep))).request
    have heff := effect_of_step hstep
    exact ⟨effect_lineInv (run_scanner hr) hrequest hrequest' ih.1 hquiet heff,
      effect_justified (run_scanner hr) hrequest ih.1 ih.2 hquiet heff⟩

/-- The gateway begins to listen, has decoded tags, or has built an update of them. -/
def boundary : Obs → Bool
  | .listening _ => true
  | .decoded _ _ => true
  | .gateway _ (.built _) => true
  | _ => false

/-- Nothing but the rest of a cycle. -/
def SameWait (mid : List Obs) : Prop := ∀ o ∈ mid, boundary o = false

theorem SameWait.cons {mid : List Obs} (h : SameWait mid) {o : Obs} (ho : boundary o = false) :
    SameWait (o :: mid) := by
  intro o' hmem
  cases hmem with
  | head => exact ho
  | tail _ hmem => exact h o' hmem

theorem lastDecoded_split {instant : Nat} {tags : TagsSeen}
    (h : lastDecoded trace = some (instant, tags)) :
    ∃ mid older, trace = mid ++ .decoded instant tags :: older ∧ SameWait mid := by
  induction trace with
  | nil => cases h
  | cons o trace ih =>
    have hmore : boundary o = false → lastDecoded trace = some (instant, tags) →
        ∃ mid older, o :: trace = mid ++ .decoded instant tags :: older ∧ SameWait mid := by
      intro ho h
      obtain ⟨mid, older, htrace, hmid⟩ := ih h
      exact ⟨o :: mid, older, congrArg (List.cons o) htrace, hmid.cons ho⟩
    cases o with
    | decoded clock t =>
      cases h
      exact ⟨[], trace, rfl, by simp [SameWait]⟩
    | listening quiet => cases h
    | gateway clock o =>
      cases o with
      | built update => cases h
      | _ => exact hmore rfl h
    | _ => exact hmore rfl h

theorem framesSince_split {tags : TagsSeen} {ts : List TagsSeen}
    (h : framesSince trace = some (tags :: ts)) :
    ∃ mid now data older, trace = mid ++ .scanner (.frame now tags data) :: older ∧ SameWait mid ∧
      framesSince older = some [] := by
  induction trace generalizing ts with
  | nil => cases h
  | cons o trace ih =>
    have hmore : ∀ ts', boundary o = false → framesSince trace = some (tags :: ts') →
        ∃ mid now data older, o :: trace = mid ++ .scanner (.frame now tags data) :: older ∧
          SameWait mid ∧ framesSince older = some [] := by
      intro ts' ho h
      obtain ⟨mid, now, data, older, htrace, hmid, holder⟩ := ih h
      exact ⟨o :: mid, now, data, older, congrArg (List.cons o) htrace, hmid.cons ho, holder⟩
    cases o with
    | listening quiet => cases h
    | decoded clock t => cases h
    | gateway clock o =>
      cases o with
      | built update => cases h
      | _ => exact hmore ts rfl h
    | scanner o =>
      cases o with
      | frame now t data =>
        obtain ⟨ts', hts', heq⟩ := Option.map_eq_some_iff.mp h
        cases ts' with
        | nil =>
          cases heq
          exact ⟨[], now, data, trace, rfl, by simp [SameWait], hts'⟩
        | cons t' ts' =>
          cases heq
          exact hmore ts' rfl hts'
      | _ => exact hmore ts rfl h
    | _ => exact hmore ts rfl h

theorem listening_split (h : framesSince trace = some []) :
    ∃ mid quiet older, trace = mid ++ .listening quiet :: older ∧ SameWait mid := by
  induction trace with
  | nil => cases h
  | cons o trace ih =>
    have hmore : boundary o = false → framesSince trace = some [] →
        ∃ mid quiet older, o :: trace = mid ++ .listening quiet :: older ∧ SameWait mid := by
      intro ho h
      obtain ⟨mid, quiet, older, htrace, hmid⟩ := ih h
      exact ⟨o :: mid, quiet, older, congrArg (List.cons o) htrace, hmid.cons ho⟩
    cases o with
    | listening quiet => exact ⟨[], quiet, trace, rfl, by simp [SameWait]⟩
    | decoded clock t => cases h
    | gateway clock o =>
      cases o with
      | built update => cases h
      | _ => exact hmore rfl h
    | scanner o =>
      cases o with
      | frame now t data =>
        obtain ⟨ts', _, heq⟩ := Option.map_eq_some_iff.mp h
        simp at heq
      | _ => exact hmore rfl h
    | _ => exact hmore rfl h

theorem justified_split (hall : Lib.Everywhere (Justified p cfg) trace) (hline : Undisturbed trace)
    {builtAt : Nat} {update : GatewayUpdate} {later before : List Obs}
    (htrace : trace = later ++ .gateway builtAt (.built update) :: before) :
    ∃ location decodedAt sc connecting frames idle older,
      before = connecting ++ .decoded decodedAt (Scanner.snapshotTags p sc.clock sc.seen) ::
        (frames ++ .scanner (.frame sc.clock (Scanner.snapshotTags p sc.clock sc.seen)
          (some (frame (Scanner.snapshotTags p sc.clock sc.seen)))) ::
            (idle ++ .listening true :: older)) ∧
      SameWait (connecting ++ (frames ++ idle)) ∧
      framesSince (idle ++ .listening true :: older) = some [] ∧
      (Scanner.scanner p).Run ((idle ++ .listening true :: older).filterMap scannerObs) sc ∧
      gatewayUpdate cfg.checks cfg.tickHz cfg.deviceId location
        (Scanner.snapshotTags p sc.clock sc.seen) decodedAt builtAt = some update := by
  rw [htrace] at hall hline
  obtain ⟨location, decodedAt, tags, hlast, hupdate⟩ := hall.at_split
  obtain ⟨connecting, older₁, hbefore, hconnecting⟩ := lastDecoded_split hlast
  have hdecoded := hall
  rw [hbefore, ← List.cons_append, ← List.append_assoc] at hdecoded
  obtain ⟨ts, hts⟩ := hdecoded.at_split
  obtain ⟨frames, now, data, older₂, holder₁, hframes, hnone⟩ := framesSince_split hts
  have hframe := hdecoded
  rw [holder₁, ← List.cons_append, ← List.append_assoc] at hframe
  obtain ⟨sc, hsc, hnow, htags, hdata⟩ := hframe.at_split
  obtain ⟨idle, quiet, older, holder₂, hidle⟩ := listening_split hnone
  have hquiet : quiet = true := by
    cases quiet with
    | true => rfl
    | false =>
      apply absurd _ hline.2
      rw [hbefore, holder₁, holder₂]
      simp
  rw [hquiet] at holder₂
  rw [holder₂] at holder₁ hnone hsc
  rw [htags] at hbefore hupdate hdata holder₁
  rw [hnow, hdata] at holder₁
  rw [holder₁] at hbefore
  refine ⟨location, decodedAt, sc, connecting, frames, idle, older, hbefore, ?_, hnone, hsc, hupdate⟩
  intro o hmem
  simp only [List.mem_append] at hmem
  exact hmem.elim (hconnecting o) fun hmem => hmem.elim (hframes o) (hidle o)

/-- On an undisturbed line every update is built from the first frame the scanner sent after it was
asked for this update: its tags are the scanner's whole store at that moment, their ages increased by
the time from decoding to the network. -/
theorem update_traced (h : (tracker p cfg).Run trace s) (hline : Undisturbed trace) {builtAt : Nat}
    {update : GatewayUpdate} {later before : List Obs}
    (htrace : trace = later ++ .gateway builtAt (.built update) :: before) :
    ∃ location decodedAt sc connecting frames idle older,
      before = connecting ++ .decoded decodedAt (Scanner.snapshotTags p sc.clock sc.seen) ::
        (frames ++ .scanner (.frame sc.clock (Scanner.snapshotTags p sc.clock sc.seen)
          (some (frame (Scanner.snapshotTags p sc.clock sc.seen)))) ::
            (idle ++ .listening true :: older)) ∧
      SameWait (connecting ++ (frames ++ idle)) ∧
      framesSince (idle ++ .listening true :: older) = some [] ∧
      (Scanner.scanner p).Run ((idle ++ .listening true :: older).filterMap scannerObs) sc ∧
      gatewayUpdate cfg.checks cfg.tickHz cfg.deviceId location
        (Scanner.snapshotTags p sc.clock sc.seen) decodedAt builtAt = some update :=
  justified_split (traced_run h hline).2 hline htrace

/- The tag the scanner has heard is reported in the first cycle. -/
def heardEvents : List Event :=
  [.scanner (.onAdvReports [some Scanner.demoReport]), .scanner .receiveTags, .gateway .booted,
    .gateway (.tick 900), .gateway .timer, .gateway (.reading Updates.sampleReading),
    .scanner .sendScanData, .write 4096, .fillBuf (some 26), .gateway (.linkUp true)]

def heardTags : TagsSeen := Scanner.snapshotTags Scanner.demoPlatform 0 Scanner.demoState.seen

def heardTrace : List Obs :=
  [.gateway 900 (.announced .networkCommunication (some .waiting)),
    .gateway 900 (.announced .waitingNetwork (some .waiting)), .decoded 900 heardTags,
    .scanner (.frame 0 heardTags (some (frame heardTags))), .listening true,
    .gateway 900 (.announced .readingUart (some .waiting)),
    .gateway 900 (.read Updates.sampleReading),
    .gateway 900 (.announced .gnssAcquisition (some .waiting)), .gateway 900 (.started 900),
    .gateway 0 (.announced .waiting none), .scanner (.dequeued Scanner.demoTag)]

theorem update_traced_heard : ∃ update location decodedAt sc trace,
    (Scanner.scanner Scanner.demoPlatform).Run trace sc ∧
    gatewayUpdate true 1 (Updates.sampleConfig .coap).deviceId location
      (Scanner.snapshotTags Scanner.demoPlatform sc.clock sc.seen) decodedAt 900 = some update := by
  have hrun : ∃ s update, (tracker Scanner.demoPlatform (Updates.sampleConfig .coap)).Run
      (.gateway 900 (.built update) :: heardTrace) s :=
    ⟨_, _, Lib.Machine.run_of_exec heardEvents rfl⟩
  obtain ⟨s, update, hrun⟩ := hrun
  have hline : Undisturbed (.gateway 900 (.built update) :: heardTrace) := by
    simp [Undisturbed, heardTrace]
  have htrace : Obs.gateway 900 (.built update) :: heardTrace =
      [] ++ .gateway 900 (.built update) :: heardTrace := rfl
  obtain ⟨location, decodedAt, sc, _, _, _, _, _, _, _, hsc, hupdate⟩ :=
    update_traced hrun hline htrace
  exact ⟨update, location, decodedAt, sc, _, hsc, hupdate⟩

end AssetTracker.Link.Tracker
