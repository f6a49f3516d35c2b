import AssetTracker.Link.CoapExchange

/-! What the backend can get for a ping: an update the gateway has stored, and none that is older than
the ping. -/
namespace AssetTracker.Link.CoapExchange
open Gateway Proxy

/-- The updates stored so far, oldest first. -/
def history : List Obs → List RawUpdate
  | [] => []
  | .gateway (.stored update) :: trace => history trace ++ [update]
  | _ :: trace => history trace

/-- How many updates were stored when a session was opened. -/
def renderedAt (session : Nat) : List Obs → Nat
  | [] => 0
  | .rendered k _ _ :: trace => if k = session then (history trace).length else renderedAt session trace
  | _ :: trace => renderedAt session trace

/-- The update of the `m`-th call of `send_update`. -/
def Numbered (trace : List Obs) (m : Nat) (update : RawUpdate) : Prop :=
  m ≤ (history trace).length ∧ ((history trace).take m).getLast? = some update

/-- The response to a session carries an update that was the last one after the session was opened. -/
def Genuine (trace : List Obs) (session : Nat) (r : CoapResponse) : Prop :=
  ∃ m update, r = statusResponse (.ok update) ∧ renderedAt session trace ≤ m ∧
    Numbered trace m update

structure FreshInv (trace : List Obs) (s : State) : Prop where
  ping : s.ping = (history trace).length
  posts : ∀ n, .post n ∈ s.sent → 0 < n ∧ n ≤ s.ping
  opened : ∀ k, k < s.opened →
    0 < s.pingOf k ∧ s.pingOf k ≤ renderedAt k trace ∧ renderedAt k trace ≤ s.ping
  requests : ∀ k, .getStatus k ∈ s.sent → k < s.opened
  origins : ∀ h, h < s.begun → s.origin h < s.opened
  statuses : ∀ k r, .status k r ∈ s.sent → k < s.opened ∧ Genuine trace k r
  requesting : ∀ k n, s.sessions k = .requesting n → k < s.opened ∧ s.pingOf k = n
  answered : ∀ k n response, s.sessions k = .answered n response →
    k < s.opened ∧ s.pingOf k = n ∧ ∀ r, response = .ok r → .status k r ∈ s.sent

variable {settings : Settings} {s s' : State} {obs trace : List Obs}

theorem latest_eq_history (trace : List Obs) :
    Coap.latest (trace.filterMap gatewayObs) = (history trace).getLast? := by
  induction trace with
  | nil => rfl
  | cons o trace ih =>
    cases o with
    | gateway o =>
      cases o with
      | stored update => simp [gatewayObs, history, Coap.latest]
      | _ => exact ih
    | _ => exact ih

theorem lastUpdate_eq (h : Coap.Inv (trace.filterMap gatewayObs) s.coap) :
    s.coap.lastUpdate = (history trace).getLast? := by
  rw [← latest_eq_history]
  exact h.lastUpdate

theorem Numbered.stored {m : Nat} {update : RawUpdate} (h : Numbered trace m update)
    (later : RawUpdate) : Numbered (.gateway (.stored later) :: trace) m update := by
  obtain ⟨hle, hlast⟩ := h
  refine ⟨?_, ?_⟩
  · rw [history, List.length_append]
    omega
  · rw [history, List.take_append_of_le_length hle]
    exact hlast

theorem Genuine.stored {k : Nat} {r : CoapResponse} (h : Genuine trace k r) (later : RawUpdate) :
    Genuine (.gateway (.stored later) :: trace) k r := by
  obtain ⟨m, update, hr, hm, hnum⟩ := h
  exact ⟨m, update, hr, hm, hnum.stored later⟩

theorem renderedAt_other {k session : Nat} (h : k ≠ session) (ping : Nat) (c : Bool)
    (trace : List Obs) : renderedAt session (.rendered k ping c :: trace) = renderedAt session trace :=
  if_neg h

theorem renderedAt_self (session ping : Nat) (c : Bool) (trace : List Obs) :
    renderedAt session (.rendered session ping c :: trace) = (history trace).length := if_pos rfl

theorem Genuine.rendered {k session : Nat} {r : CoapResponse} (h : Genuine trace k r)
    (hne : session ≠ k) (ping : Nat) (c : Bool) : Genuine (.rendered session ping c :: trace) k r := by
  obtain ⟨m, update, hr, hm, hnum⟩ := h
  exact ⟨m, update, hr, by rwa [renderedAt_other hne], hnum⟩

theorem Genuine.unchanged {k : Nat} {r : CoapResponse} (h : Genuine trace k r) {o : Obs}
    (hh : history (o :: trace) = history trace)
    (hr : renderedAt k (o :: trace) = renderedAt k trace) : Genuine (o :: trace) k r := by
  obtain ⟨m, update, hresponse, hm, hnum⟩ := h
  refine ⟨m, update, hresponse, by rwa [hr], ?_⟩
  rw [Numbered, hh]
  exact hnum

theorem history_of_latest {update : RawUpdate}
    (h : Coap.latest (trace.filterMap gatewayObs) = some update) : 0 < (history trace).length := by
  rw [latest_eq_history] at h
  exact List.length_pos_of_mem (List.mem_of_getLast? h)

theorem genuine_responded (hs : FreshInv trace s)
    (hlast : s.coap.lastUpdate = (history trace).getLast?) {k : Nat} (hk : k < s.opened)
    (h : Nat) (response : Except Coap.Error RawUpdate) :
    Genuine (.gateway (.responded h response) :: trace) k
      (statusResponse (Coap.okOr s.coap.lastUpdate .serviceUnavailable)) := by
  obtain ⟨hpos, hping, hle⟩ := hs.opened k hk
  rw [hs.ping] at hle
  cases hl : s.coap.lastUpdate with
  | none =>
    rw [hl] at hlast
    have hempty : history trace = [] := List.getLast?_eq_none_iff.mp hlast.symm
    rw [hempty, List.length_nil] at hle
    omega
  | some update =>
    refine ⟨(history trace).length, update, rfl, hle, le_refl _, ?_⟩
    change ((history trace).take (history trace).length).getLast? = some update
    rw [List.take_length, ← hlast, hl]

theorem FreshInv.gateway (hs : FreshInv trace s) {coap : Coap.State RawUpdate} {o : Obs}
    (hh : history (o :: trace) = history trace)
    (hr : ∀ k, renderedAt k (o :: trace) = renderedAt k trace) :
    FreshInv (o :: trace) { s with coap := coap } where
  ping := by rw [hh]; exact hs.ping
  posts := hs.posts
  opened k hk := by rw [hr]; exact hs.opened k hk
  requests := hs.requests
  origins := hs.origins
  statuses k r hm := by
    obtain ⟨hlt, hgen⟩ := hs.statuses k r hm
    exact ⟨hlt, hgen.unchanged hh (hr k)⟩
  requesting := hs.requesting
  answered := hs.answered

/-- A session that a ping opens is younger than the ping. -/
theorem FreshInv.opening (hs : FreshInv trace s) {ping : Nat} (hm : .post ping ∈ s.sent) (c : Bool)
    {session : Session} (hsession : ∀ n, session = .requesting n → n = ping)
    (hanswered : ∀ n response, session ≠ .answered n response) {sent : List Message}
    (hsent : ∀ m ∈ sent, m ∈ s.sent ∨ m = .getStatus s.opened ∨ ∃ r, m = .reply ping r)
    (hkept : ∀ m ∈ s.sent, m ∈ sent) :
    FreshInv (.rendered s.opened ping c :: trace)
      { s with opened := s.opened + 1, pingOf := Function.update s.pingOf s.opened ping,
               sessions := Function.update s.sessions s.opened session, sent := sent } where
  ping := hs.ping
  posts n hn := by
    apply hs.posts
    simpa using hsent _ hn
  opened k hk := by
    dsimp only at hk ⊢
    by_cases heq : k = s.opened
    · rw [heq, renderedAt_self, Function.update_self, ← hs.ping]
      exact ⟨(hs.posts ping hm).1, (hs.posts ping hm).2, le_refl _⟩
    · have hlt : k < s.opened := by omega
      rw [renderedAt_other (Ne.symm heq), Function.update_of_ne heq]
      exact hs.opened k hlt
  requests k hk := by
    have hmem : .getStatus k ∈ s.sent ∨ k = s.opened := by simpa using hsent _ hk
    cases hmem with
    | inl hold => exact Nat.lt_succ_of_lt (hs.requests k hold)
    | inr heq => exact heq ▸ Nat.lt_succ_self _
  origins h hh := Nat.lt_succ_of_lt (hs.origins h hh)
  statuses k r hk := by
    have hold : .status k r ∈ s.sent := by simpa using hsent _ hk
    obtain ⟨hlt, hgen⟩ := hs.statuses k r hold
    exact ⟨Nat.lt_succ_of_lt hlt, hgen.rendered (Nat.ne_of_gt hlt) ping c⟩
  requesting k n hk := by
    dsimp only at hk ⊢
    by_cases heq : k = s.opened
    · rw [heq, Function.update_self] at hk ⊢
      exact ⟨Nat.lt_succ_self _, (hsession n hk).symm⟩
    · rw [Function.update_of_ne heq] at hk ⊢
      obtain ⟨hlt, hping⟩ := hs.requesting k n hk
      exact ⟨Nat.lt_succ_of_lt hlt, hping⟩
  answered k n response hk := by
    dsimp only at hk ⊢
    by_cases heq : k = s.opened
    · rw [heq, Function.update_self] at hk
      exact absurd hk (hanswered n response)
    · rw [Function.update_of_ne heq] at hk ⊢
      obtain ⟨hlt, hping, hstatus⟩ := hs.answered k n response hk
      exact ⟨Nat.lt_succ_of_lt hlt, hping, fun r hr => hkept _ (hstatus r hr)⟩

theorem FreshInv.settle (hs : FreshInv trace s) {session : Nat} {phase : Session}
    (hrequesting : ∀ n, phase ≠ .requesting n)
    (hanswered : ∀ n response, phase = .answered n response → session < s.opened ∧
      s.pingOf session = n ∧ ∀ r, response = .ok r → .status session r ∈ s.sent)
    {sent : List Message} (hsent : ∀ m ∈ sent, m ∈ s.sent ∨ ∃ n r, m = .reply n r)
    (hkept : ∀ m ∈ s.sent, m ∈ sent) :
    FreshInv trace
      { s with sessions := Function.update s.sessions session phase, sent := sent } where
  ping := hs.ping
  posts n hn := hs.posts n (by simpa using hsent _ hn)
  opened := hs.opened
  requests k hk := hs.requests k (by simpa using hsent _ hk)
  origins := hs.origins
  statuses k r hk := hs.statuses k r (by simpa using hsent _ hk)
  requesting k n hk := by
    dsimp only at hk ⊢
    by_cases heq : k = session
    · rw [heq, Function.update_self] at hk
      exact absurd hk (hrequesting n)
    · rw [Function.update_of_ne heq] at hk
      exact hs.requesting k n hk
  answered k n response hk := by
    dsimp only at hk ⊢
    by_cases heq : k = session
    · rw [heq, Function.update_self] at hk
      obtain ⟨hlt, hping, hstatus⟩ := hanswered n response hk
      rw [heq]
      exact ⟨hlt, hping, fun r hr => hkept _ (hstatus r hr)⟩
    · rw [Function.update_of_ne heq] at hk
      obtain ⟨hlt, hping, hstatus⟩ := hs.answered k n response hk
      exact ⟨hlt, hping, fun r hr => hkept _ (hstatus r hr)⟩

theorem FreshInv.stored (hs : FreshInv trace s) (update : RawUpdate) (coap : Coap.State RawUpdate) :
    FreshInv (.gateway (.stored update) :: trace) { s with coap := coap, ping := s.ping + 1 } where
  ping := by
    change s.ping + 1 = (history trace ++ [update]).length
    rw [List.length_append, List.length_singleton, hs.ping]
  posts n hn := ⟨(hs.posts n hn).1, (hs.posts n hn).2.trans (Nat.le_succ _)⟩
  opened k hk := by
    obtain ⟨hpos, hping, hle⟩ := hs.opened k hk
    exact ⟨hpos, hping, hle.trans (Nat.le_succ _)⟩
  requests := hs.requests
  origins := hs.origins
  statuses k r hm := ⟨(hs.statuses k r hm).1, (hs.statuses k r hm).2.stored update⟩
  requesting := hs.requesting
  answered := hs.answered

theorem FreshInv.reset (hs : FreshInv trace s) (hstored : 0 < (history trace).length)
    (coap : Coap.State RawUpdate) :
    FreshInv trace { s with coap := coap, sent := .post s.ping :: s.sent } :=
  { hs with
    posts := by
      intro n hn
      cases List.mem_cons.mp hn with
      | inl heq =>
        cases heq
        refine ⟨?_, le_refl _⟩
        rw [hs.ping]
        exact hstored
      | inr hmem => exact hs.posts n hmem
    requests := fun k hk => hs.requests k (by simpa using hk)
    statuses := fun k r hk => hs.statuses k r (by simpa using hk)
    answered := fun k n response hk => by
      obtain ⟨hlt, hping, hstatus⟩ := hs.answered k n response hk
      exact ⟨hlt, hping, fun r hr => List.mem_cons_of_mem _ (hstatus r hr)⟩ }

theorem FreshInv.begun (hs : FreshInv trace s) {session : Nat} (hm : .getStatus session ∈ s.sent) :
    FreshInv trace
      { s with begun := s.begun + 1, origin := Function.update s.origin s.begun session } :=
  { hs with
    origins := by
      intro h hh
      dsimp only at hh ⊢
      by_cases heq : h = s.begun
      · rw [heq, Function.update_self]
        exact hs.requests session hm
      · rw [Function.update_of_ne heq]
        exact hs.origins h (by omega) }

theorem FreshInv.responded (hs : FreshInv trace s)
    (hlast : s.coap.lastUpdate = (history trace).getLast?) {handler : Nat} (hh : handler < s.begun)
    (response : Except Coap.Error RawUpdate) (coap : Coap.State RawUpdate) :
    FreshInv (.gateway (.responded handler response) :: trace)
      { s with coap := coap,
               sent := .status (s.origin handler)
                 (statusResponse (Coap.okOr s.coap.lastUpdate .serviceUnavailable)) :: s.sent } where
  ping := hs.ping
  posts n hn := hs.posts n (by simpa using hn)
  opened := hs.opened
  requests k hk := hs.requests k (by simpa using hk)
  origins := hs.origins
  statuses k r hm := by
    have hk := hs.origins handler hh
    cases List.mem_cons.mp hm with
    | inl heq =>
      cases heq
      exact ⟨hk, genuine_responded hs hlast hk handler response⟩
    | inr hmem =>
      obtain ⟨hlt, hgen⟩ := hs.statuses k r hmem
      exact ⟨hlt, hgen.unchanged rfl rfl⟩
  requesting := hs.requesting
  answered k n response hk := by
    obtain ⟨hlt, hping, hstatus⟩ := hs.answered k n response hk
    exact ⟨hlt, hping, fun r hr => List.mem_cons_of_mem _ (hstatus r hr)⟩

theorem FreshInv.finished (hs : FreshInv trace s) (session ping : Nat) (reply : Reply)
    (body : Option PyValue) :
    FreshInv ((body.map fun body => .posted session ping body).toList ++ trace)
      { s with sessions := Function.update s.sessions session .done,
               sent := .reply ping reply :: s.sent } := by
  have hnext : FreshInv trace
      { s with sessions := Function.update s.sessions session .done,
               sent := .reply ping reply :: s.sent } := by
    refine hs.settle (by simp) (by simp) ?_ fun m hmem => List.mem_cons_of_mem _ hmem
    intro m hmem
    cases List.mem_cons.mp hmem with
    | inl heq => exact .inr ⟨_, _, heq⟩
    | inr hold => exact .inl hold
  cases body with
  | none => exact hnext
  | some body => exact hnext.gateway rfl fun _ => rfl

theorem effect_freshInv (hs : FreshInv trace s)
    (hcoap : Coap.Inv (trace.filterMap gatewayObs) s.coap) (heff : Effect settings s s' obs) :
    FreshInv (obs ++ trace) s' := by
  cases heff with
  | idle => exact hs
  | stored update hsender => exact hs.stored update _
  | reset update hsender =>
    exact hs.reset (history_of_latest (hcoap.sender update (by rw [hsender]; rfl))) _
  | timedOut update hsender => exact { hs with }
  | registered update reply hsender hm => exact hs.gateway rfl fun _ => rfl
  | waited update coap o ho hlast hhandlers hwaiting hsender =>
    cases ho with
    | inl ho =>
      cases ho
      exact hs.gateway rfl fun _ => rfl
    | inr ho =>
      cases ho
      exact hs.gateway rfl fun _ => rfl
  | transferred => exact { hs with }
  | begun session hm => exact hs.begun hm
  | signalled handler hh => exact hs.gateway rfl fun _ => rfl
  | responded handler hh hhandler => exact hs.responded (lastUpdate_eq hcoap) hh _ _
  | rendered ping hm =>
    refine hs.opening hm true (by simp [eq_comm]) (by simp) ?_ fun m hmem => List.mem_cons_of_mem _ hmem
    intro m hmem
    cases List.mem_cons.mp hmem with
    | inl heq => exact .inr (.inl heq)
    | inr hmem => exact .inl hmem
  | unset ping hm =>
    refine hs.opening hm false (by simp) (by simp) ?_ fun m hmem => List.mem_cons_of_mem _ hmem
    intro m hmem
    cases List.mem_cons.mp hmem with
    | inl heq => exact .inr (.inr ⟨_, heq⟩)
    | inr hmem => exact .inl hmem
  | answered session ping response hsession hm =>
    refine hs.settle (by simp) ?_ (fun m hmem => .inl hmem) fun m hmem => hmem
    intro n response' heq
    cases heq
    obtain ⟨hlt, hping⟩ := hs.requesting session ping hsession
    exact ⟨hlt, hping, hm⟩
  | finished session ping response backend hsession => exact hs.finished session ping _ _

theorem freshInv_run (h : (exchange settings).Run trace s) : FreshInv trace s := by
  refine h.invariant ?_ fun hr hinv hs =>
    effect_freshInv hinv (Coap.inv_run (run_coap hr)) (effect_of_step hs)
  constructor <;> simp [exchange, history]

/-- What is posted for a ping is an update stored before, and no earlier one than the ping's. -/
def Fresh (before : List Obs) : Obs → Prop
  | .posted session ping body => ping ≤ renderedAt session before ∧
      ∃ m update, renderedAt session before ≤ m ∧ Numbered before m update ∧
        body = updateDict update.value
  | _ => True

theorem finished_fresh (hs : FreshInv trace s) (hreads : ReadsCbor settings.cborLoads)
    {session ping : Nat} {response : Except PyException CoapResponse} {backend : Backend}
    (hsession : s.sessions session = .answered ping response) {body : PyValue}
    (hbody : bodyToPost (pingRecord settings response backend) = some body) :
    Fresh trace (.posted session ping body) := by
  obtain ⟨hlt, hping, hstatus⟩ := hs.answered session ping response hsession
  obtain ⟨r, hr, hcode, hfetched⟩ := bodyToPost_eq_some hbody
  have hopened := (hs.opened session hlt).2.1
  rw [hping] at hopened
  obtain ⟨m, update, hgenuine, hm, hnum⟩ := (hs.statuses session r (hstatus r hr)).2
  rw [hgenuine] at hfetched
  exact ⟨hopened, m, update, hm, hnum, eq_of_fetchedBody_payload hreads hfetched⟩

theorem effect_fresh (hs : FreshInv trace s) (hreads : ReadsCbor settings.cborLoads)
    (hall : Lib.Everywhere Fresh trace) (heff : Effect settings s s' obs) :
    Lib.Everywhere Fresh (obs ++ trace) := by
  cases heff with
  | finished session ping response backend hsession =>
    cases hbody : bodyToPost (pingRecord settings response backend) with
    | none => exact hall
    | some body => exact ⟨finished_fresh hs hreads hsession hbody, hall⟩
  | idle => exact hall
  | reset => exact hall
  | timedOut => exact hall
  | transferred => exact hall
  | begun => exact hall
  | answered => exact hall
  | _ => exact ⟨trivial, hall⟩

theorem fresh_run (h : (exchange settings).Run trace s) (hreads : ReadsCbor settings.cborLoads) :
    Lib.Everywhere Fresh trace :=
  h.invariant (P := fun trace _ => Lib.Everywhere Fresh trace) trivial
    fun hr hall hs => effect_fresh (freshInv_run hr) hreads hall (effect_of_step hs)

theorem history_length_le (mid before : List Obs) :
    (history before).length ≤ (history (mid ++ before)).length := by
  induction mid with
  | nil => exact le_refl _
  | cons o mid ih =>
    cases o with
    | gateway o =>
      cases o with
      | stored update =>
        rw [List.cons_append, history, List.length_append]
        omega
      | _ => exact ih
    | _ => exact ih

theorem le_renderedAt {session ping : Nat} {c : Bool} {mid : List Obs}
    (h : .rendered session ping c ∈ mid) (before : List Obs) :
    (history before).length ≤ renderedAt session (mid ++ before) := by
  induction mid with
  | nil => cases h
  | cons o mid ih =>
    cases o with
    | rendered k n c' =>
      rw [List.cons_append]
      by_cases heq : k = session
      · rw [heq, renderedAt_self]
        exact history_length_le mid before
      · rw [renderedAt_other heq]
        have hne : Obs.rendered session ping c ≠ .rendered k n c' := by
          intro hobs
          cases hobs
          exact heq rfl
        exact ih (List.mem_of_ne_of_mem hne h)
    | _ => exact ih (by simpa using h)

theorem fresh_split (hall : Lib.Everywhere Fresh trace) {session ping : Nat} {body : PyValue}
    {later before : List Obs} (htrace : trace = later ++ .posted session ping body :: before) :
    ∃ m update, ping ≤ m ∧ Numbered before m update ∧ body = updateDict update.value ∧
      ∀ {session' ping' body' c mid older}, before = mid ++ .posted session' ping' body' :: older →
        .rendered session ping c ∈ mid →
          ∃ m' update', m' ≤ m ∧ Numbered older m' update' ∧ body' = updateDict update'.value := by
  rw [htrace] at hall
  obtain ⟨hping, m, update, hm, hnum, hbody⟩ := hall.at_split
  refine ⟨m, update, hping.trans hm, hnum, hbody, ?_⟩
  intro session' ping' body' c mid older hbefore hrendered
  rw [hbefore] at hall hm
  have hsplit : later ++ .posted session ping body :: (mid ++ .posted session' ping' body' :: older) =
      (later ++ .posted session ping body :: mid) ++ .posted session' ping' body' :: older := by
    simp
  rw [hsplit] at hall
  obtain ⟨_, m', update', _, hnum', hbody'⟩ := hall.at_split
  have hle := le_renderedAt hrendered (.posted session' ping' body' :: older)
  exact ⟨m', update', hnum'.1.trans (hle.trans hm), hnum', hbody'⟩

/-- Every body posted for a ping is an update the gateway has stored, and not one it had replaced by
the time it sent the ping; and what is posted for a ping that arrives after a post is never older than
what that post carried. -/
theorem posted_fresh (hreads : ReadsCbor settings.cborLoads) (h : (exchange settings).Run trace s)
    {session ping : Nat} {body : PyValue} {later before : List Obs}
    (htrace : trace = later ++ .posted session ping body :: before) :
    ∃ m update, ping ≤ m ∧ Numbered before m update ∧ body = updateDict update.value ∧
      ∀ {session' ping' body' c mid older}, before = mid ++ .posted session' ping' body' :: older →
        .rendered session ping c ∈ mid →
          ∃ m' update', m' ≤ m ∧ Numbered older m' update' ∧ body' = updateDict update'.value :=
  fresh_split (fresh_run h hreads) htrace

/- An update is posted, then the next one. -/
def quietSettings : Settings := ⟨some "token", some "backend", plainLoads⟩

def acceptingBackend : Backend := ⟨fun _ => .ok (), fun _ _ _ => .ok 200⟩

def responseOf (update : RawUpdate) : CoapResponse := ⟨codeContent, payload update⟩

def handledOnce : List Event :=
  [.sender (.sendUpdate quietUpdate), .sender .reset, .post 1 true, .getStatus 0, .get 0, .get 0,
    .status 0 (responseOf quietUpdate), .finish 0 acceptingBackend]

def onceTrace : List Obs :=
  [.posted 0 1 (updateDict quietUpdate.value), .gateway (.responded 0 (.ok quietUpdate)),
    .gateway (.signalled 0), .rendered 0 1 true, .gateway (.stored quietUpdate)]

def laterUpdate : RawUpdate := { quietUpdate with timestamp := 905 }

def handledNext : List Event :=
  [.reply 1 okReply, .sender .read, .sender .transferred, .sender (.sendUpdate laterUpdate),
    .sender .reset, .post 2 true, .getStatus 1, .get 1, .get 1, .status 1 (responseOf laterUpdate),
    .finish 1 acceptingBackend]

def nextTrace : List Obs :=
  [.gateway (.responded 1 (.ok laterUpdate)), .gateway (.signalled 1), .rendered 1 2 true,
    .gateway (.stored laterUpdate), .gateway (.read quietUpdate), .registered 1 okReply]

theorem posted_fresh_next : ∃ s, (exchange quietSettings).Run
      (.posted 1 2 (updateDict laterUpdate.value) :: (nextTrace ++ onceTrace)) s ∧
    ∃ m m', 2 ≤ m ∧ m' ≤ m ∧ Numbered (nextTrace ++ onceTrace) m laterUpdate ∧
      Numbered onceTrace.tail m' quietUpdate := by
  have hrun : ∃ s, (exchange quietSettings).Run
      (.posted 1 2 (updateDict laterUpdate.value) :: (nextTrace ++ onceTrace)) s :=
    ⟨_, Lib.Machine.run_of_exec (handledOnce ++ handledNext) rfl⟩
  obtain ⟨s, hrun⟩ := hrun
  have hbefore : nextTrace ++ onceTrace =
      nextTrace ++ .posted 0 1 (updateDict quietUpdate.value) :: onceTrace.tail := rfl
  have hrendered : .rendered 1 2 true ∈ nextTrace := by simp [nextTrace]
  obtain ⟨m, update, hping, hnum, _, horder⟩ :=
    posted_fresh plainLoads_readsCbor hrun (List.nil_append _).symm
  obtain ⟨m', update', hm, hnum', _⟩ := horder hbefore hrendered
  have hlater : update = laterUpdate := by
    have htwo : m = 2 := Nat.le_antisymm hnum.1 hping
    have hlast := hnum.2
    rw [htwo] at hlast
    exact (Option.some.inj hlast).symm
  have hquiet : update' = quietUpdate := by
    have hmem := List.mem_of_mem_take (List.mem_of_getLast? hnum'.2)
    simpa [onceTrace, history] using hmem
  rw [hlater] at hnum
  rw [hquiet] at hnum'
  exact ⟨s, hrun, m, m', hping, hm, hnum, hnum'⟩

end AssetTracker.Link.CoapExchange
