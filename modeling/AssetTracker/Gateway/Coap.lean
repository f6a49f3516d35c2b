import AssetTracker.Lib.Machine
import AssetTracker.Lib.Sync
import AssetTracker.CommonTypes
import Mathlib.Logic.Function.Basic

/-! `send_update` and the handlers of `GET /status`, which share the last update and the signal that
it was read. Locking the one and operating on the other are one step each; the steps of the sender
and of any number of handlers interleave arbitrarily. The type of updates plays no role. -/
namespace AssetTracker.Gateway.Coap
variable {Update : Type*}

/-- Where the sender is in `send_update`, with the argument of the call. -/
inductive Sender (Update : Type*) where
  | idle
  | stored (update : Update)
  | registering (update : Update)
  | waiting (update : Update)
  | transferring (update : Update)

/-- Where a request is in `StatusRenderer::get`. -/
inductive Handler where
  | fresh
  | signalled
  | done
deriving DecidableEq

inductive Error where
  | serviceUnavailable
deriving DecidableEq

structure State (Update : Type*) where
  lastUpdate : Option Update
  updateRead : Lib.Signal Bool
  sender : Sender Update
  handlers : Nat → Handler

/-- The steps of the sender. Its timers and the registration at `/rd` end when they like; `registered`
is whichever of the two ends first. -/
inductive SenderEvent (Update : Type*) where
  | sendUpdate (update : Update)
  | reset
  | registered
  | read
  | timeout
  | transferred

/-- A handler has one step to take at any time: to signal, then to respond. -/
inductive Event (Update : Type*) where
  | sender (e : SenderEvent Update)
  | get (handler : Nat)

inductive Obs (Update : Type*) where
  | stored (update : Update)
  | read (update : Update)
  | timedOut (update : Update)
  | signalled (handler : Nat)
  | responded (handler : Nat) (response : Except Error Update)
deriving DecidableEq

def okOr (update : Option Update) (e : Error) : Except Error Update :=
  match update with
  | some update => .ok update
  | none => .error e

def senderStep (s : State Update) : SenderEvent Update → State Update × List (Obs Update)
  | .sendUpdate update =>
    match s.sender with
    | .idle =>
      ({ s with lastUpdate := some update, sender := .stored update }, [.stored update])
    | _ => (s, [])
  | .reset =>
    match s.sender with
    | .stored update =>
      ({ s with updateRead := s.updateRead.reset, sender := .registering update }, [])
    | _ => (s, [])
  | .registered =>
    match s.sender with
    | .registering update => ({ s with sender := .waiting update }, [])
    | _ => (s, [])
  | .read =>
    match s.sender, s.updateRead.wait with
    | .waiting update, some (_, updateRead) =>
      ({ s with updateRead := updateRead, sender := .transferring update }, [.read update])
    | _, _ => (s, [])
  | .timeout =>
    match s.sender with
    | .waiting update => ({ s with sender := .transferring update }, [.timedOut update])
    | _ => (s, [])
  | .transferred =>
    match s.sender with
    | .transferring _ => ({ s with sender := .idle }, [])
    | _ => (s, [])

def getStep (s : State Update) (handler : Nat) : State Update × List (Obs Update) :=
  match s.handlers handler with
  | .fresh =>
    ({ s with updateRead := s.updateRead.signal true,
              handlers := Function.update s.handlers handler .signalled }, [.signalled handler])
  | .signalled =>
    ({ s with handlers := Function.update s.handlers handler .done },
      [.responded handler (okOr s.lastUpdate .serviceUnavailable)])
  | .done => (s, [])

def step (s : State Update) : Event Update → State Update × List (Obs Update)
  | .sender e => senderStep s e
  | .get handler => getStep s handler

def coap (Update : Type*) : Lib.Machine (State Update) (Event Update) (Obs Update) where
  init := ⟨none, .new, .idle, fun _ => .fresh⟩
  step s e := some (step s e)

inductive Effect (s : State Update) : State Update → List (Obs Update) → Prop where
  | idle : Effect s s []
  | stored (update : Update) (hs : s.sender = .idle) :
      Effect s { s with lastUpdate := some update, sender := .stored update } [.stored update]
  | reset (update : Update) (hs : s.sender = .stored update) :
      Effect s { s with updateRead := s.updateRead.reset, sender := .registering update } []
  | registered (update : Update) (hs : s.sender = .registering update) :
      Effect s { s with sender := .waiting update } []
  | read (update : Update) (b : Bool) (hs : s.sender = .waiting update)
      (hb : s.updateRead.value = some b) :
      Effect s { s with updateRead := s.updateRead.reset, sender := .transferring update }
        [.read update]
  | timedOut (update : Update) (hs : s.sender = .waiting update) :
      Effect s { s with sender := .transferring update } [.timedOut update]
  | transferred (update : Update) (hs : s.sender = .transferring update) :
      Effect s { s with sender := .idle } []
  | signalled (handler : Nat) (hh : s.handlers handler = .fresh) :
      Effect s { s with updateRead := s.updateRead.signal true,
                        handlers := Function.update s.handlers handler .signalled }
        [.signalled handler]
  | responded (handler : Nat) (hh : s.handlers handler = .signalled) :
      Effect s { s with handlers := Function.update s.handlers handler .done }
        [.responded handler (okOr s.lastUpdate .serviceUnavailable)]

theorem senderStep_effect (s : State Update) (e : SenderEvent Update) :
    Effect s (senderStep s e).1 (senderStep s e).2 := by
  cases e with
  | sendUpdate update =>
    cases hs : s.sender with
    | idle => simpa only [senderStep, hs] using Effect.stored update hs
    | _ => simpa only [senderStep, hs] using Effect.idle
  | reset =>
    cases hs : s.sender with
    | stored update => simpa only [senderStep, hs] using Effect.reset update hs
    | _ => simpa only [senderStep, hs] using Effect.idle
  | registered =>
    cases hs : s.sender with
    | registering update => simpa only [senderStep, hs] using Effect.registered update hs
    | _ => simpa only [senderStep, hs] using Effect.idle
  | read =>
    cases hw : s.updateRead.wait with
    | none => cases hs : s.sender <;> simpa only [senderStep, hs, hw] using Effect.idle
    | some r =>
      obtain ⟨hb, hr⟩ := Lib.Signal.wait_some hw
      cases hs : s.sender with
      | waiting update => simpa only [senderStep, hs, hw, hr] using Effect.read update r.1 hs hb
      | _ => simpa only [senderStep, hs, hw] using Effect.idle
  | timeout =>
    cases hs : s.sender with
    | waiting update => simpa only [senderStep, hs] using Effect.timedOut update hs
    | _ => simpa only [senderStep, hs] using Effect.idle
  | transferred =>
    cases hs : s.sender with
    | transferring update => simpa only [senderStep, hs] using Effect.transferred update hs
    | _ => simpa only [senderStep, hs] using Effect.idle

theorem step_effect (s : State Update) (e : Event Update) : Effect s (step s e).1 (step s e).2 := by
  cases e with
  | sender e => exact senderStep_effect s e
  | get handler =>
    cases hh : s.handlers handler with
    | fresh => simpa only [step, getStep, hh] using Effect.signalled handler hh
    | signalled => simpa only [step, getStep, hh] using Effect.responded handler hh
    | done => simpa only [step, getStep, hh] using Effect.idle

theorem effect_of_step {s s' : State Update} {e : Event Update} {obs : List (Obs Update)}
    (h : (coap Update).step s e = some (s', obs)) : Effect s s' obs := by
  have heq : step s e = (s', obs) := Option.some.inj h
  simpa only [heq] using step_effect s e

/-- The update of the last call, and what was observed since it was stored. -/
def latest : List (Obs Update) → Option Update
  | [] => none
  | .stored update :: _ => some update
  | _ :: trace => latest trace

def sinceStored : List (Obs Update) → List (Obs Update)
  | [] => []
  | .stored _ :: _ => []
  | o :: trace => o :: sinceStored trace

def NoStore (trace : List (Obs Update)) : Prop := ∀ update, .stored update ∉ trace

theorem latest_cons_eq {o : Obs Update} (ho : ∀ update, o ≠ .stored update)
    (trace : List (Obs Update)) :
    latest (o :: trace) = latest trace ∧ sinceStored (o :: trace) = o :: sinceStored trace := by
  cases o with
  | stored update => exact absurd rfl (ho update)
  | _ => exact ⟨rfl, rfl⟩

theorem sinceStored_spec (trace : List (Obs Update)) :
    NoStore (sinceStored trace) ∧ ∀ update, latest trace = some update →
      ∃ older, trace = sinceStored trace ++ .stored update :: older := by
  induction trace with
  | nil => exact ⟨by simp [NoStore, sinceStored], by simp [latest]⟩
  | cons o trace ih =>
    by_cases ho : ∀ update, o ≠ .stored update
    · obtain ⟨hlatest, hsince⟩ := latest_cons_eq ho trace
      rw [hlatest, hsince]
      refine ⟨?_, ?_⟩
      · intro update hmem
        cases List.mem_cons.mp hmem with
        | inl h => exact ho update h.symm
        | inr h => exact ih.1 update h
      · intro update h
        obtain ⟨older, holder⟩ := ih.2 update h
        exact ⟨older, congrArg (List.cons o) holder⟩
    · obtain ⟨update, rfl⟩ : ∃ update, o = .stored update := by simpa using ho
      refine ⟨by simp [NoStore, sinceStored], ?_⟩
      intro update' h
      cases Option.some.inj h
      exact ⟨trace, rfl⟩

theorem latest_append {mid : List (Obs Update)} (h : NoStore mid) (trace : List (Obs Update)) :
    latest (mid ++ trace) = latest trace := by
  induction mid with
  | nil => rfl
  | cons o mid ih =>
    have ho : ∀ update, o ≠ .stored update := by
      intro update heq
      exact h update (by simp [heq])
    rw [List.cons_append, (latest_cons_eq ho _).1]
    apply ih
    intro update hmem
    exact h update (List.mem_cons_of_mem o hmem)

theorem noStore_of_latest {trace : List (Obs Update)} (h : latest trace = none) : NoStore trace := by
  induction trace with
  | nil => simp [NoStore]
  | cons o trace ih =>
    cases o with
    | stored update => cases h
    | _ =>
      intro update hmem
      exact ih h update (by simpa using hmem)

def Sender.update? : Sender Update → Option Update
  | .idle => none
  | .stored update => some update
  | .registering update => some update
  | .waiting update => some update
  | .transferring update => some update

/-- Only between the store and the reset may the signal be older than the stored update. -/
structure Inv (trace : List (Obs Update)) (s : State Update) : Prop where
  lastUpdate : s.lastUpdate = latest trace
  sender : ∀ update, s.sender.update? = some update → latest trace = some update
  pending : (∀ update, s.sender ≠ .stored update) → ∀ b, s.updateRead.value = some b →
    ∃ handler, .signalled handler ∈ sinceStored trace
  fresh : ∀ handler, s.handlers handler = .fresh → ∀ response, .responded handler response ∉ trace

theorem inv_init : Inv [] (coap Update).init where
  lastUpdate := rfl
  sender := by intro update h; cases h
  pending := by simp [coap]
  fresh := by simp

theorem Inv.sending {trace obs : List (Obs Update)} {s : State Update} (hinv : Inv trace s)
    {updateRead : Lib.Signal Bool} {sender : Sender Update}
    (hlatest : latest (obs ++ trace) = latest trace)
    (hsince : sinceStored (obs ++ trace) = obs ++ sinceStored trace)
    (hresponses : ∀ handler response, .responded handler response ∉ obs)
    (hcall : ∀ update, sender.update? = some update → s.sender.update? = some update)
    (hread : ∀ b, updateRead.value = some b →
      s.updateRead.value = some b ∧ ∀ update, s.sender ≠ .stored update) :
    Inv (obs ++ trace) { s with updateRead := updateRead, sender := sender } := by
  refine ⟨hinv.lastUpdate.trans hlatest.symm, ?_, ?_, ?_⟩
  · intro update h
    rw [hlatest]
    exact hinv.sender update (hcall update h)
  · intro _ b hb
    obtain ⟨hb', hne⟩ := hread b hb
    obtain ⟨handler, hmem⟩ := hinv.pending hne b hb'
    rw [hsince]
    exact ⟨handler, List.mem_append_right obs hmem⟩
  · intro handler hf response hmem
    cases List.mem_append.mp hmem with
    | inl hmem => exact hresponses handler response hmem
    | inr hmem => exact hinv.fresh handler hf response hmem

theorem inv_effect {trace : List (Obs Update)} {s s' : State Update} {obs : List (Obs Update)}
    (hinv : Inv trace s) (h : Effect s s' obs) : Inv (obs ++ trace) s' := by
  cases h with
  | idle => exact hinv
  | stored update hs =>
    refine ⟨rfl, ?_, ?_, ?_⟩
    · intro update' h
      exact h
    · intro hne
      exact absurd rfl (hne update)
    · intro handler hf response
      simpa using hinv.fresh handler hf response
  | reset update hs =>
    exact hinv.sending rfl rfl (by simp) (by simp [hs, Sender.update?]) (by simp)
  | registered update hs =>
    exact hinv.sending rfl rfl (by simp) (by simp [hs, Sender.update?]) (by simp [hs])
  | read update b hs hb =>
    exact hinv.sending rfl rfl (by simp) (by simp [hs, Sender.update?]) (by simp)
  | timedOut update hs =>
    exact hinv.sending rfl rfl (by simp) (by simp [hs, Sender.update?]) (by simp [hs])
  | transferred update hs =>
    exact hinv.sending rfl rfl (by simp) (by simp [Sender.update?]) (by simp [hs])
  | signalled handler hh =>
    refine ⟨hinv.lastUpdate, hinv.sender, ?_, ?_⟩
    · intro _ b _
      exact ⟨handler, List.mem_cons_self⟩
    · intro handler' hf response
      have hne : handler' ≠ handler := by
        intro heq
        simp [heq] at hf
      simpa using hinv.fresh handler' (by simpa [hne] using hf) response
  | responded handler hh =>
    refine ⟨hinv.lastUpdate, hinv.sender, ?_, ?_⟩
    · intro hne b hb
      obtain ⟨handler', hmem⟩ := hinv.pending hne b hb
      exact ⟨handler', List.mem_cons_of_mem _ hmem⟩
    · intro handler' hf response
      have hne : handler' ≠ handler := by
        intro heq
        simp [heq] at hf
      simpa [hne] using hinv.fresh handler' (by simpa [hne] using hf) response

theorem inv_run {trace : List (Obs Update)} {s : State Update} (h : (coap Update).Run trace s) :
    Inv trace s :=
  h.invariant inv_init fun _ hinv hs => inv_effect hinv (effect_of_step hs)

/-- What each observation says about the run before it. -/
def Justified (before : List (Obs Update)) : Obs Update → Prop
  | .stored _ => True
  | .read update =>
    latest before = some update ∧ ∃ handler, .signalled handler ∈ sinceStored before
  | .timedOut update => latest before = some update
  | .signalled handler => ∀ response, .responded handler response ∉ before
  | .responded _ response => response = okOr (latest before) .serviceUnavailable

theorem justified_effect {trace : List (Obs Update)} {s s' : State Update}
    {obs : List (Obs Update)} (hinv : Inv trace s) (htrace : Lib.Everywhere Justified trace)
    (h : Effect s s' obs) : Lib.Everywhere Justified (obs ++ trace) := by
  cases h with
  | idle => exact htrace
  | stored update hs => exact ⟨trivial, htrace⟩
  | reset update hs => exact htrace
  | registered update hs => exact htrace
  | read update b hs hb =>
    refine ⟨⟨?_, ?_⟩, htrace⟩
    · exact hinv.sender update (by rw [hs]; rfl)
    · exact hinv.pending (by simp [hs]) b hb
  | timedOut update hs => exact ⟨hinv.sender update (by rw [hs]; rfl), htrace⟩
  | transferred update hs => exact htrace
  | signalled handler hh => exact ⟨hinv.fresh handler hh, htrace⟩
  | responded handler hh => exact ⟨congrArg (okOr · _) hinv.lastUpdate, htrace⟩

theorem justified_run {trace : List (Obs Update)} {s : State Update}
    (h : (coap Update).Run trace s) : Lib.Everywhere Justified trace :=
  h.invariant (P := fun trace _ => Lib.Everywhere Justified trace) trivial
    fun hr htrace hs => justified_effect (inv_run hr) htrace (effect_of_step hs)

/-- When the wait for an update ends because it was read, a handler signalled after the update was
stored, and what this handler responds before the next store is that update. The service is
unavailable only while nothing was stored. -/
theorem acknowledged {trace : List (Obs Update)} {s : State Update}
    (h : (coap Update).Run trace s) :
    (∀ later update before, trace = later ++ .read update :: before →
      ∃ handler mid older, before = mid ++ .stored update :: older ∧ NoStore mid ∧
        .signalled handler ∈ mid ∧ (∀ response, .responded handler response ∉ older) ∧
        ∀ later' response mid',
          later ++ .read update :: mid = later' ++ .responded handler response :: mid' →
          NoStore mid' → response = .ok update) ∧
    ∀ later handler e before, trace = later ++ .responded handler (.error e) :: before →
      NoStore before := by
  have hall := justified_run h
  refine ⟨?_, ?_⟩
  · intro later update before htrace
    rw [htrace] at hall
    obtain ⟨hlatest, handler, hsignalled⟩ := hall.at_split
    obtain ⟨hno, holder⟩ := sinceStored_spec before
    obtain ⟨older, holder⟩ := holder update hlatest
    obtain ⟨m₁, m₂, hm⟩ := List.append_of_mem hsignalled
    refine ⟨handler, sinceStored before, older, holder, hno, hsignalled, ?_, ?_⟩
    · intro response hmem
      have hsplit : later ++ .read update :: before =
          (later ++ .read update :: m₁) ++ .signalled handler ::
            (m₂ ++ .stored update :: older) := by
        rw [holder, hm]
        simp
      rw [hsplit] at hall
      exact hall.at_split response (by simp [hmem])
    · intro later' response mid' hmid hno'
      have hsplit : later ++ .read update :: before =
          later' ++ .responded handler response :: (mid' ++ .stored update :: older) := by
        rw [holder, ← List.cons_append, ← List.append_assoc, hmid]
        simp
      rw [hsplit] at hall
      have hresponse := hall.at_split
      rw [Justified, latest_append hno'] at hresponse
      exact hresponse
  · intro later handler e before htrace
    rw [htrace] at hall
    have hresponse := hall.at_split
    cases hbefore : latest before with
    | none => exact noStore_of_latest hbefore
    | some update =>
      rw [Justified, hbefore] at hresponse
      cases hresponse

def firstUpdate : GatewayUpdate := ⟨⟨"first", by decide⟩, 5, .empty, some 100, none⟩

/- A handler that signalled before a call, one that signals during it. -/
def firstTrace : List (Obs GatewayUpdate) :=
  [.signalled 2, .responded 1 (.ok firstUpdate), .stored firstUpdate, .signalled 1]

theorem acknowledged_first_update : ∃ s handler mid older,
    (coap GatewayUpdate).Run (.read firstUpdate :: firstTrace) s ∧
      firstTrace = mid ++ .stored firstUpdate :: older ∧ NoStore mid ∧ .signalled handler ∈ mid := by
  have hrun : ∃ s, (coap GatewayUpdate).Run (.read firstUpdate :: firstTrace) s :=
    ⟨_, Lib.Machine.run_of_exec [.get 1, .sender (.sendUpdate firstUpdate), .sender .reset, .get 1,
      .get 2, .sender .registered, .sender .read] rfl⟩
  obtain ⟨s, hrun⟩ := hrun
  obtain ⟨handler, mid, older, hbefore, hno, hmem, _⟩ := (acknowledged hrun).1 [] firstUpdate _ rfl
  exact ⟨s, handler, mid, older, hrun, hbefore, hno, hmem⟩

end AssetTracker.Gateway.Coap
