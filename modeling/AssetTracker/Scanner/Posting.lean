import AssetTracker.Lib.Machine
import AssetTracker.Scanner.Interleaving
import AssetTracker.Scanner.Prefix
import AssetTracker.Scanner.StoreInvariant

/-! The scanner that posts every report by itself. While its task starts up or waits for the end of a
request the callback goes on filling the queue, and may do so between any two of its steps. A step that
panics fails: an address or an identifier that does not fit its text. -/
namespace AssetTracker.Scanner.Posting
open Bounded Interleaving

/-- Most significant byte first. -/
structure Eui48 where
  bytes : List UInt8
  length_bytes : bytes.length = 6

/-- The interface may have no address. -/
structure Config where
  platform : Platform
  snifferId : Option String
  interfaceEui48 : Option Eui48

def unknownId : BString tagNameMaxLen := ⟨"unknown", by decide⟩

def formatEui48 (upper : Bool) (eui : Option Eui48) : Option (Option (BString tagNameMaxLen)) :=
  match eui with
  | none => some none
  | some eui => (BString.ofString (eui48Text upper eui.bytes)).map some

/-- A configured identifier is never replaced by the address, not even when it does not fit. -/
def deviceId (c : Config) : Option (BString tagNameMaxLen) := do
  let eui ← formatEui48 c.platform.upperHex c.interfaceEui48
  pure (((c.snifferId.map BString.ofString).getD eui).getD unknownId)

/-- `receive_tags`, with the identifier once it is known. -/
inductive Task where
  | starting
  | waiting (deviceId : BString tagNameMaxLen)
  | requesting (deviceId : BString tagNameMaxLen)

structure State where
  clock : Nat
  queue : Queue
  callback : Callback
  task : Task

/-- A request ends with a response or an error. -/
inductive Event where
  | tick (d : Nat)
  | onAdvReports (it : List (Option LeAdvReport))
  | report
  | configUp
  | receive
  | ended (ok : Bool)

inductive Obs where
  | queued (r : TagReport)
  | dropped (r : TagReport)
  | sent (payload : AdvertisementPayload)
  | failed

def callbackStep (c : Config) (s : State) : State × List Obs :=
  match s.callback with
  | .idle => (s, [])
  | .reporting _ [] => ({ s with callback := .idle }, [])
  | .reporting _ (none :: _) => ({ s with callback := .idle }, [])
  | .reporting instant (some report :: it) =>
    match tagReport c.platform.tagPrefix instant report with
    | none => ({ s with callback := .reporting instant it }, [])
    | some r =>
      match s.queue.extendFromSlice [r] with
      | some queue => ({ s with queue := queue, callback := .reporting instant it }, [.queued r])
      | none => ({ s with callback := .reporting instant it }, [.dropped r])

def receiveStep (c : Config) (s : State) : Option (State × List Obs) :=
  match s.task with
  | .waiting id =>
    match s.queue.popFront with
    | none => some (s, [])
    | some (value, queue) => do
      let payload ← aioPayload c.platform.upperHex c.platform.tickHz id value
      pure ({ s with queue := queue, task := .requesting id }, [.sent payload])
  | _ => some (s, [])

def step (c : Config) (s : State) : Event → Option (State × List Obs)
  | .tick d => some ({ s with clock := s.clock + d }, [])
  | .onAdvReports it =>
    match s.callback with
    | .idle => some ({ s with callback := .reporting s.clock it }, [])
    | .reporting _ _ => some (s, [])
  | .report => some (callbackStep c s)
  | .configUp =>
    match s.task with
    | .starting => do
      let id ← deviceId c
      pure ({ s with task := .waiting id }, [])
    | _ => some (s, [])
  | .receive => receiveStep c s
  | .ended ok =>
    match s.task with
    | .requesting id => some ({ s with task := .waiting id }, if ok then [] else [.failed])
    | _ => some (s, [])

def posting (c : Config) : Lib.Machine State Event Obs where
  init := ⟨0, .empty, .idle, .starting⟩
  step := step c

inductive Effect (c : Config) (s : State) : Event → State → List Obs → Prop where
  | idle (e : Event) : Effect c s e s []
  | tick (d : Nat) : Effect c s (.tick d) { s with clock := s.clock + d } []
  | begun (it : List (Option LeAdvReport)) (hc : s.callback = .idle) :
      Effect c s (.onAdvReports it) { s with callback := .reporting s.clock it } []
  | queued (instant : Nat) (report : LeAdvReport) (it : List (Option LeAdvReport)) (r : TagReport)
      (queue : Queue) (hc : s.callback = .reporting instant (some report :: it))
      (hr : tagReport c.platform.tagPrefix instant report = some r)
      (hq : queue.toList = s.queue.toList ++ [r]) :
      Effect c s .report { s with queue := queue, callback := .reporting instant it } [.queued r]
  | dropped (instant : Nat) (report : LeAdvReport) (it : List (Option LeAdvReport)) (r : TagReport)
      (hc : s.callback = .reporting instant (some report :: it))
      (hr : tagReport c.platform.tagPrefix instant report = some r)
      (hfull : s.queue.toList.length = channelCapacity) :
      Effect c s .report { s with callback := .reporting instant it } [.dropped r]
  | passed (instant : Nat) (report : LeAdvReport) (it : List (Option LeAdvReport))
      (hc : s.callback = .reporting instant (some report :: it)) :
      Effect c s .report { s with callback := .reporting instant it } []
  | returned : Effect c s .report { s with callback := .idle } []
  | configured (id : BString tagNameMaxLen) (hid : deviceId c = some id) :
      Effect c s .configUp { s with task := .waiting id } []
  | sent (id : BString tagNameMaxLen) (value : TagReport) (queue : Queue)
      (payload : AdvertisementPayload) (ht : s.task = .waiting id)
      (hq : s.queue.toList = value :: queue.toList)
      (hp : aioPayload c.platform.upperHex c.platform.tickHz id value = some payload) :
      Effect c s .receive { s with queue := queue, task := .requesting id } [.sent payload]
  | ended (id : BString tagNameMaxLen) (ok : Bool) (ht : s.task = .requesting id) :
      Effect c s (.ended ok) { s with task := .waiting id } (if ok then [] else [.failed])

variable {c : Config} {s s' : State} {obs trace : List Obs}

theorem callbackStep_effect (c : Config) (s : State) :
    Effect c s .report (callbackStep c s).1 (callbackStep c s).2 := by
  cases hc : s.callback with
  | idle => simpa only [callbackStep, hc] using Effect.idle .report
  | reporting instant it =>
    cases it with
    | nil => simpa only [callbackStep, hc] using Effect.returned
    | cons item it =>
      cases item with
      | none => simpa only [callbackStep, hc] using Effect.returned
      | some report =>
        cases hr : tagReport c.platform.tagPrefix instant report with
        | none => simpa only [callbackStep, hc, hr] using Effect.passed instant report it hc
        | some r =>
          by_cases hfits : (s.queue.toList ++ [r]).length ≤ channelCapacity
          · have hq : s.queue.extendFromSlice [r] = some ⟨s.queue.toList ++ [r], hfits⟩ :=
              dif_pos hfits
            simpa only [callbackStep, hc, hr, hq] using
              Effect.queued instant report it r _ hc hr rfl
          · have hq : s.queue.extendFromSlice [r] = none := dif_neg hfits
            have hfull : s.queue.toList.length = channelCapacity := by
              have hle := s.queue.fits
              rw [List.length_append, List.length_singleton] at hfits
              omega
            simpa only [callbackStep, hc, hr, hq] using Effect.dropped instant report it r hc hr hfull

theorem receiveStep_effect (h : receiveStep c s = some (s', obs)) :
    Effect c s .receive s' obs := by
  cases ht : s.task with
  | waiting id =>
    cases hq : s.queue.popFront with
    | none =>
      simp only [receiveStep, ht, hq] at h
      cases h
      exact .idle _
    | some front =>
      simp only [receiveStep, ht, hq] at h
      obtain ⟨payload, hp, h⟩ := Option.bind_eq_some_iff.mp h
      cases h
      exact .sent id front.1 front.2 payload ht (BVec.popFront_some hq) hp
  | _ =>
    simp only [receiveStep, ht] at h
    cases h
    exact .idle _

theorem effect_of_step {e : Event} (h : step c s e = some (s', obs)) : Effect c s e s' obs := by
  cases e with
  | tick d =>
    cases h
    exact .tick d
  | onAdvReports it =>
    cases hc : s.callback <;> simp only [step, hc] at h <;> cases h
    · exact .begun it hc
    · exact .idle _
  | report =>
    have heff := callbackStep_effect c s
    rwa [Option.some.inj h] at heff
  | configUp =>
    cases ht : s.task <;> simp only [step, ht] at h
    case starting =>
      obtain ⟨id, hid, h⟩ := Option.bind_eq_some_iff.mp h
      cases h
      exact .configured id hid
    all_goals
      cases h
      exact .idle _
  | receive => exact receiveStep_effect h
  | ended ok =>
    cases ht : s.task <;> simp only [step, ht] at h
    case requesting id =>
      cases h
      exact .ended id ok ht
    all_goals
      cases h
      exact .idle _

def queued? : Obs → Option TagReport
  | .queued r => some r
  | _ => none

def sent? : Obs → Option AdvertisementPayload
  | .sent payload => some payload
  | _ => none

def reports (trace : List Obs) : List TagReport := (trace.filterMap queued?).reverse

def posts (trace : List Obs) : List AdvertisementPayload := (trace.filterMap sent?).reverse

/-- `payload` is what the program makes of `r`. -/
def Describes (c : Config) (r : TagReport) (payload : AdvertisementPayload) : Prop :=
  ∃ id, deviceId c = some id ∧ aioPayload c.platform.upperHex c.platform.tickHz id r = some payload

def Task.deviceId? : Task → Option (BString tagNameMaxLen)
  | .starting => none
  | .waiting id => some id
  | .requesting id => some id

/-- The instant of the running callback, or of the next one if it came now. -/
def latest (s : State) : Nat :=
  match s.callback with
  | .idle => s.clock
  | .reporting instant _ => instant

/-- The reports the queue took are those posted and those that wait, in the order of their instants. -/
structure PostInv (c : Config) (trace : List Obs) (s : State) : Prop where
  line : ∃ taken, reports trace = taken ++ s.queue.toList ∧
    List.Forall₂ (Describes c) taken (posts trace)
  sorted : (reports trace).Pairwise fun r r' => r.timestamp ≤ r'.timestamp
  past : ∀ r ∈ reports trace, r.timestamp ≤ latest s
  started : latest s ≤ s.clock
  named : ∀ id, s.task.deviceId? = some id → deviceId c = some id

theorem reports_append (obs trace : List Obs) :
    reports (obs ++ trace) = reports trace ++ reports obs := by
  simp [reports]

theorem posts_append (obs trace : List Obs) : posts (obs ++ trace) = posts trace ++ posts obs := by
  simp [posts]

theorem PostInv.kept (hs : PostInv c trace s) (hreports : reports obs = []) (hposts : posts obs = [])
    (hq : s'.queue = s.queue) (hlatest : latest s ≤ latest s') (hclock : latest s' ≤ s'.clock)
    (hnamed : ∀ id, s'.task.deviceId? = some id → deviceId c = some id) :
    PostInv c (obs ++ trace) s' where
  line := by
    rw [reports_append, posts_append, hreports, hposts, hq, List.append_nil, List.append_nil]
    exact hs.line
  sorted := by
    rw [reports_append, hreports, List.append_nil]
    exact hs.sorted
  past := by
    rw [reports_append, hreports, List.append_nil]
    exact fun r hr => (hs.past r hr).trans hlatest
  started := hclock
  named := hnamed

theorem PostInv.queued (hs : PostInv c trace s) {instant : Nat} {it : List (Option LeAdvReport)}
    (hc : s.callback = .reporting instant it) {r : TagReport} (hr : r.timestamp = instant)
    {queue : Queue} (hq : queue.toList = s.queue.toList ++ [r]) (it' : List (Option LeAdvReport)) :
    PostInv c ([.queued r] ++ trace)
      { s with queue := queue, callback := .reporting instant it' } := by
  have hlatest : latest s = instant := by simp [latest, hc]
  have hpast := hs.past
  have hstarted := hs.started
  rw [hlatest] at hpast hstarted
  have hreports : reports ([.queued r] ++ trace) = reports trace ++ [r] := reports_append _ _
  have hposts : posts ([.queued r] ++ trace) = posts trace := by
    rw [posts_append]
    exact List.append_nil _
  refine ⟨?_, ?_, ?_, hstarted, hs.named⟩
  · obtain ⟨taken, htaken, hdescribes⟩ := hs.line
    refine ⟨taken, ?_, by rwa [hposts]⟩
    rw [hreports, htaken, hq, List.append_assoc]
  · rw [hreports, List.pairwise_append]
    refine ⟨hs.sorted, List.pairwise_singleton _ r, ?_⟩
    intro r' hr' x hx
    rw [List.mem_singleton.mp hx, hr]
    exact hpast r' hr'
  · intro r' hr'
    rw [hreports] at hr'
    cases List.mem_append.mp hr' with
    | inl hold => exact hpast r' hold
    | inr hnew =>
      rw [List.mem_singleton.mp hnew]
      exact hr.le

theorem PostInv.sent (hs : PostInv c trace s) {id : BString tagNameMaxLen} {value : TagReport}
    {queue : Queue} {payload : AdvertisementPayload} (ht : s.task = .waiting id)
    (hq : s.queue.toList = value :: queue.toList)
    (hp : aioPayload c.platform.upperHex c.platform.tickHz id value = some payload) :
    PostInv c ([.sent payload] ++ trace) { s with queue := queue, task := .requesting id } := by
  have hreports : reports ([.sent payload] ++ trace) = reports trace := by
    rw [reports_append]
    exact List.append_nil _
  have hposts : posts ([.sent payload] ++ trace) = posts trace ++ [payload] := posts_append _ _
  have hid : deviceId c = some id := hs.named id (by rw [ht]; rfl)
  refine ⟨?_, by rw [hreports]; exact hs.sorted, by rw [hreports]; exact hs.past, hs.started, ?_⟩
  · obtain ⟨taken, htaken, hdescribes⟩ := hs.line
    refine ⟨taken ++ [value], ?_, ?_⟩
    · rw [hreports, htaken, hq, List.append_assoc, List.singleton_append]
    · rw [hposts]
      exact List.rel_append hdescribes (.cons ⟨id, hid, hp⟩ .nil)
  · intro id' hid'
    cases hid'
    exact hid

theorem latest_tick (h : latest s ≤ s.clock) (d : Nat) :
    latest s ≤ latest { s with clock := s.clock + d } ∧
      latest { s with clock := s.clock + d } ≤ s.clock + d := by
  cases hc : s.callback with
  | idle =>
    simp only [latest, hc] at h ⊢
    exact ⟨Nat.le_add_right _ d, le_refl _⟩
  | reporting instant it =>
    simp only [latest, hc] at h ⊢
    exact ⟨le_refl instant, h.trans (Nat.le_add_right _ d)⟩

theorem postInv_step (hs : PostInv c trace s) {e : Event} (heff : Effect c s e s' obs) :
    PostInv c (obs ++ trace) s' := by
  cases heff with
  | idle e => exact hs
  | tick d =>
    obtain ⟨hlatest, hclock⟩ := latest_tick hs.started d
    exact hs.kept rfl rfl rfl hlatest hclock hs.named
  | begun it hc => exact hs.kept rfl rfl rfl hs.started (le_refl s.clock) hs.named
  | queued instant report it r queue hc hr hq => exact hs.queued hc (tagReport_eq_some hr).1 hq it
  | dropped instant report it r hc hr hfull =>
    have hlatest : latest s = instant := by simp [latest, hc]
    exact hs.kept rfl rfl rfl hlatest.le (hlatest ▸ hs.started) hs.named
  | passed instant report it hc =>
    have hlatest : latest s = instant := by simp [latest, hc]
    exact hs.kept rfl rfl rfl hlatest.le (hlatest ▸ hs.started) hs.named
  | returned => exact hs.kept rfl rfl rfl hs.started (le_refl s.clock) hs.named
  | configured id hid =>
    refine hs.kept rfl rfl rfl (le_refl (latest s)) hs.started ?_
    intro id' hid'
    cases hid'
    exact hid
  | sent id value queue payload ht hq hp => exact hs.sent ht hq hp
  | ended id ok ht =>
    have hnamed : deviceId c = some id := hs.named id (by rw [ht]; rfl)
    have hkept : ∀ id', Task.deviceId? (.waiting id) = some id' → deviceId c = some id' := by
      intro id' hid'
      cases hid'
      exact hnamed
    cases ok with
    | true => exact hs.kept rfl rfl rfl (le_refl (latest s)) hs.started hkept
    | false => exact hs.kept rfl rfl rfl (le_refl (latest s)) hs.started hkept

/-- A report is dropped while as many reports as the queue holds wait to be posted. -/
def DroppedFull (before : List Obs) (o : Obs) : Prop :=
  ∀ r, o = .dropped r → (reports before).length = (posts before).length + channelCapacity

theorem droppedFull_step (hs : PostInv c trace s) (hall : Lib.Everywhere DroppedFull trace)
    {e : Event} (heff : Effect c s e s' obs) : Lib.Everywhere DroppedFull (obs ++ trace) := by
  have hother : ∀ o, (∀ r, o ≠ .dropped r) → Lib.Everywhere DroppedFull (o :: trace) :=
    fun o ho => ⟨fun r heq => absurd heq (ho r), hall⟩
  cases heff with
  | queued instant report it r queue hc hr hq => exact hother _ (by simp)
  | sent id value queue payload ht hq hp => exact hother _ (by simp)
  | ended id ok ht =>
    cases ok with
    | true => exact hall
    | false => exact hother _ (by simp)
  | dropped instant report it r hc hr hfull =>
    refine ⟨?_, hall⟩
    intro _ _
    obtain ⟨taken, htaken, hdescribes⟩ := hs.line
    change (reports trace).length = (posts trace).length + channelCapacity
    rw [htaken, List.length_append, hfull, hdescribes.length_eq]
  | _ => exact hall

theorem posting_inv (h : (posting c).Run trace s) :
    PostInv c trace s ∧ Lib.Everywhere DroppedFull trace := by
  refine h.invariant (P := fun trace s => PostInv c trace s ∧ Lib.Everywhere DroppedFull trace)
    ⟨⟨⟨[], rfl, .nil⟩, .nil, by simp [reports], le_refl 0, by simp [posting, Task.deviceId?]⟩,
      trivial⟩ ?_
  intro trace s e s' obs _ hs hstep
  have heff := effect_of_step hstep
  exact ⟨postInv_step hs.1 heff, droppedFull_step hs.1 hs.2 heff⟩

theorem formatEui48_fits (upper : Bool) (eui : Option Eui48) :
    ∃ id, formatEui48 upper eui = some id ∧
      id.map BString.str = eui.map fun eui => eui48Text upper eui.bytes := by
  cases eui with
  | none => exact ⟨none, rfl, rfl⟩
  | some eui =>
    have hsize := eui48Text_size upper eui.length_bytes
    have hfits : (eui48Text upper eui.bytes).utf8ByteSize ≤ tagNameMaxLen := by
      rw [hsize]
      decide
    exact ⟨_, by rw [formatEui48, BString.ofString_eq_some hfits]; rfl, rfl⟩

/-- The name it sends under: an identifier that does not fit counts as none known. -/
def senderName (c : Config) : String :=
  match c.snifferId, c.interfaceEui48 with
  | some id, _ => if id.utf8ByteSize ≤ tagNameMaxLen then id else unknownId.str
  | none, some eui => eui48Text c.platform.upperHex eui.bytes
  | none, none => unknownId.str

/-- The program has an identifier whatever it is configured with. -/
theorem deviceId_spec (c : Config) : ∃ id, deviceId c = some id ∧ id.str = senderName c := by
  obtain ⟨eui, heui, hstr⟩ := formatEui48_fits c.platform.upperHex c.interfaceEui48
  refine ⟨_, by rw [deviceId, heui]; rfl, ?_⟩
  cases hs : c.snifferId with
  | some id =>
    by_cases hfits : id.utf8ByteSize ≤ tagNameMaxLen
    · simp [senderName, hs, hfits, BString.ofString_eq_some hfits]
    · have hnone : (BString.ofString id : Option (BString tagNameMaxLen)) = none := dif_neg hfits
      simp [senderName, hs, hfits, hnone]
  | none =>
    cases he : c.interfaceEui48 with
    | none =>
      cases eui with
      | none => simp [senderName, hs, he]
      | some id => simp [he] at hstr
    | some e =>
      cases eui with
      | none => simp [he] at hstr
      | some id => simpa [senderName, hs, he] using hstr

theorem receiveStep_succeeds (c : Config) (s : State) : ∃ r, receiveStep c s = some r := by
  cases ht : s.task with
  | waiting id =>
    cases hq : s.queue.popFront with
    | none => exact ⟨_, by rw [receiveStep, ht, hq]⟩
    | some front =>
      obtain ⟨payload, hp, _⟩ :=
        aioPayload_mac c.platform.upperHex c.platform.tickHz id front.1
      exact ⟨_, by simp only [receiveStep, ht, hq, hp]; rfl⟩
  | _ => exact ⟨_, by rw [receiveStep, ht]⟩

theorem step_succeeds (c : Config) (s : State) (e : Event) : ∃ r, step c s e = some r := by
  cases e with
  | tick d => exact ⟨_, rfl⟩
  | onAdvReports it => cases hc : s.callback <;> exact ⟨_, by rw [step, hc]⟩
  | report => exact ⟨_, rfl⟩
  | configUp =>
    obtain ⟨id, hid, _⟩ := deviceId_spec c
    cases ht : s.task with
    | starting => exact ⟨_, by simp only [step, ht, hid]; rfl⟩
    | _ => exact ⟨_, by rw [step, ht]⟩
  | receive => exact receiveStep_succeeds c s
  | ended ok => cases ht : s.task <;> exact ⟨_, by rw [step, ht]⟩

theorem describes_timestamp {r : TagReport} {payload : AdvertisementPayload}
    (h : Describes c r payload) : payload.timestamp = r.timestamp * 1000 / c.platform.tickHz := by
  obtain ⟨id, _, hp⟩ := h
  obtain ⟨mac, _, hp⟩ := Option.bind_eq_some_iff.mp hp
  cases hp
  rfl

theorem describes_sorted {taken : List TagReport} {payloads : List AdvertisementPayload}
    (h : List.Forall₂ (Describes c) taken payloads)
    (hsorted : taken.Pairwise fun r r' => r.timestamp ≤ r'.timestamp) :
    payloads.Pairwise fun p p' => p.timestamp ≤ p'.timestamp := by
  have hmap : payloads.map AdvertisementPayload.timestamp =
      taken.map fun r => r.timestamp * 1000 / c.platform.tickHz := by
    induction h with
    | nil => rfl
    | cons hd hrest ih =>
      rw [List.map_cons, List.map_cons, describes_timestamp hd,
        ih (List.pairwise_cons.mp hsorted).2]
  have hticks : (taken.map fun r => r.timestamp * 1000 / c.platform.tickHz).Pairwise (· ≤ ·) :=
    List.pairwise_map.mpr (hsorted.imp fun hle =>
      Nat.div_le_div_right (Nat.mul_le_mul_right 1000 hle))
  rw [← hmap] at hticks
  exact List.pairwise_map.mp hticks

theorem describes_sender {taken : List TagReport} {payloads : List AdvertisementPayload}
    (h : List.Forall₂ (Describes c) taken payloads) :
    ∀ p ∈ payloads, p.snifferId.str = senderName c := by
  induction h with
  | nil => simp
  | @cons r payload taken payloads hd hrest ih =>
    intro p hp
    cases List.mem_cons.mp hp with
    | inr hmem => exact ih p hmem
    | inl heq =>
      obtain ⟨id, hid, hpayload⟩ := hd
      obtain ⟨id', hid', hname⟩ := deviceId_spec c
      obtain ⟨mac, _, hpayload⟩ := Option.bind_eq_some_iff.mp hpayload
      rw [hid] at hid'
      cases hid'
      cases hpayload
      rw [heq]
      exact hname

/-- One request is attempted for each report, in the order the queue took them, under one name and with
timestamps that never go back; what the queue does not take found it full; nothing panics. A request
that fails is not repeated. -/
theorem reports_posted (h : (posting c).Run trace s) :
    (∃ taken, reports trace = taken ++ s.queue.toList ∧
      List.Forall₂ (Describes c) taken (posts trace)) ∧
    (∀ p ∈ posts trace, p.snifferId.str = senderName c) ∧
    ((posts trace).Pairwise fun p p' => p.timestamp ≤ p'.timestamp) ∧
    (∀ later before r, trace = later ++ .dropped r :: before →
      (reports before).length = (posts before).length + channelCapacity) ∧
    ∀ e, ∃ r, (posting c).step s e = some r := by
  obtain ⟨hinv, hdropped⟩ := posting_inv h
  obtain ⟨taken, htaken, hdescribes⟩ := hinv.line
  refine ⟨hinv.line, describes_sender hdescribes, ?_, ?_, step_succeeds c s⟩
  · have hsorted := hinv.sorted
    rw [htaken] at hsorted
    exact describes_sorted hdescribes (List.pairwise_append.mp hsorted).1
  · intro later before r htrace
    rw [htrace] at hdropped
    exact hdropped.at_split r rfl

/- Two reports come in before the network is up; the request for the first one fails. -/
def barn : Config := ⟨demoPlatform, some "barn", none⟩

def secondReport : LeAdvReport :=
  { demoReport with data := [2, 1, 6, 2, 9, 0x54, 8, 0xFF, 0xFF, 0xFF, 0, 0, 0, 8, 38] }

def barnEvents : List Event :=
  [.onAdvReports [some demoReport, some secondReport], .report, .report, .configUp, .receive,
    .ended false, .receive]

theorem reports_posted_twice : ∃ trace s, (posting barn).Run trace s ∧ .failed ∈ trace ∧
    (posts trace).map (fun p => (p.sequence, p.channel)) = [(7, 37), (8, 38)] ∧
    ∃ taken, reports trace = taken ++ s.queue.toList ∧
      List.Forall₂ (Describes barn) taken (posts trace) := by
  have hrun : ∃ trace s, (posting barn).Run trace s ∧ .failed ∈ trace ∧
      (posts trace).map (fun p => (p.sequence, p.channel)) = [(7, 37), (8, 38)] :=
    ⟨_, _, Lib.Machine.run_of_exec barnEvents rfl, by simp, rfl⟩
  obtain ⟨trace, s, hrun, hfailed, hposts⟩ := hrun
  exact ⟨trace, s, hrun, hfailed, hposts, (reports_posted hrun).1⟩

end AssetTracker.Scanner.Posting
