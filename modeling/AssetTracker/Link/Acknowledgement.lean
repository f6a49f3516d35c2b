import AssetTracker.Link.Freshness

/-! What the OK that answers a ping is worth, once the proxy has its context and its settings: the
update, or one that replaced it, was handed to the backend, and the gateway's wait for being read is
over. -/
namespace AssetTracker.Link.CoapExchange
open Gateway Proxy

/-- The ping was sent; that of the running call is sent after its reset. -/
def Pinged (s : State) (n : Nat) : Prop :=
  n < s.ping ∨ n = s.ping ∧ ∀ update, s.coap.sender ≠ .stored update

def Listening : Coap.Sender RawUpdate → Prop
  | .registering _ => True
  | .waiting _ => True
  | _ => False

/-- The status was asked for since the ping, which a sender that still listens can tell. -/
def Asked (s : State) (n : Nat) : Prop :=
  Pinged s n ∧ (n = s.ping → Listening s.coap.sender → s.coap.updateRead.value = some true)

structure AskedInv (trace : List Obs) (s : State) : Prop where
  posts : ∀ n, .post n ∈ s.sent → Pinged s n
  opened : ∀ k, k < s.opened → Pinged s (s.pingOf k)
  handlers : ∀ h, s.coap.handlers h ≠ .fresh → h < s.begun ∧ Asked s (s.pingOf (s.origin h))
  statuses : ∀ k r, .status k r ∈ s.sent → Asked s (s.pingOf k)
  replies : ∀ n, .reply n okReply ∈ s.sent → Asked s n
  registered : ∀ n, .registered n okReply ∈ trace → Asked s n

def ContextSet (trace : List Obs) : Prop := ∀ k n c, .rendered k n c ∈ trace → c = true

variable {settings : Settings} {s s' : State} {obs trace : List Obs}

theorem ok_of_renderPost {response : Except PyException CoapResponse} {backend : Backend}
    (h : renderPost (pingRecord settings response backend) = okReply) : ∃ r, response = .ok r := by
  rw [renderPost_ok_iff] at h
  cases response with
  | ok r => exact ⟨r, rfl⟩
  | error e => cases h

theorem AskedInv.sending (hs : AskedInv trace s) (coap : Coap.State RawUpdate) (ping : Nat)
    (hhandlers : coap.handlers = s.coap.handlers)
    (hpinged : ∀ n, Pinged s n → Pinged { s with coap := coap, ping := ping } n)
    (hasked : ∀ n, Asked s n → Asked { s with coap := coap, ping := ping } n)
    {o : List Obs} (ho : ∀ n, .registered n okReply ∈ o → Asked s n) :
    AskedInv (o ++ trace) { s with coap := coap, ping := ping } where
  posts n hn := hpinged n (hs.posts n hn)
  opened k hk := hpinged _ (hs.opened k hk)
  handlers h hh := by
    dsimp only at hh
    rw [hhandlers] at hh
    exact ⟨(hs.handlers h hh).1, hasked _ (hs.handlers h hh).2⟩
  statuses k r hk := hasked _ (hs.statuses k r hk)
  replies n hn := hasked n (hs.replies n hn)
  registered n hn := by
    cases List.mem_append.mp hn with
    | inl hmem => exact hasked n (ho n hmem)
    | inr hmem => exact hasked n (hs.registered n hmem)

theorem AskedInv.listening (hs : AskedInv trace s) (sender : Coap.Sender RawUpdate)
    (hfrom : Listening s.coap.sender) (hto : Listening sender) {o : List Obs}
    (ho : ∀ n, .registered n okReply ∈ o → Asked s n) :
    AskedInv (o ++ trace) { s with coap := { s.coap with sender := sender } } := by
  have hpinged : ∀ n, Pinged s n →
      Pinged { s with coap := { s.coap with sender := sender } } n := by
    intro n hn
    cases hn with
    | inl hlt => exact .inl hlt
    | inr heq =>
      refine .inr ⟨heq.1, ?_⟩
      intro update hsender
      dsimp only at hsender
      rw [hsender] at hto
      exact hto
  exact hs.sending { s.coap with sender := sender } s.ping rfl hpinged
    (fun n hn => ⟨hpinged n hn.1, fun heq _ => hn.2 heq hfrom⟩) ho

theorem AskedInv.deaf (hs : AskedInv trace s) (coap : Coap.State RawUpdate)
    (hhandlers : coap.handlers = s.coap.handlers) (hdeaf : ¬ Listening coap.sender)
    (hstored : ∀ update, coap.sender ≠ .stored update) {o : List Obs}
    (ho : ∀ n, .registered n okReply ∉ o) : AskedInv (o ++ trace) { s with coap := coap } := by
  have hpinged : ∀ n, Pinged s n → Pinged { s with coap := coap } n := by
    intro n hn
    cases hn with
    | inl hlt => exact .inl hlt
    | inr heq => exact .inr ⟨heq.1, hstored⟩
  exact hs.sending coap s.ping hhandlers hpinged
    (fun n hn => ⟨hpinged n hn.1, fun _ h => absurd h hdeaf⟩)
    fun n hn => absurd hn (ho n)

theorem AskedInv.messages (hs : AskedInv trace s) {sent : List Message} {sessions : Nat → Session}
    {o : List Obs} (ho : ∀ n, .registered n okReply ∉ o)
    (hposts : ∀ n, .post n ∈ sent → .post n ∈ s.sent)
    (hstatuses : ∀ k r, .status k r ∈ sent → .status k r ∈ s.sent)
    (hreplies : ∀ n, .reply n okReply ∈ sent → .reply n okReply ∈ s.sent ∨ Asked s n) :
    AskedInv (o ++ trace) { s with sessions := sessions, sent := sent } where
  posts n hn := hs.posts n (hposts n hn)
  opened := hs.opened
  handlers := hs.handlers
  statuses k r hk := hs.statuses k r (hstatuses k r hk)
  replies n hn := by
    cases hreplies n hn with
    | inl hold => exact hs.replies n hold
    | inr hasked => exact hasked
  registered n hn := by
    cases List.mem_append.mp hn with
    | inl hmem => exact absurd hmem (ho n)
    | inr hmem => exact hs.registered n hmem

theorem Pinged.lt_of_stored {n : Nat} (h : Pinged s n) {update : RawUpdate}
    (hsender : s.coap.sender = .stored update) : n < s.ping := by
  cases h with
  | inl hlt => exact hlt
  | inr heq => exact absurd hsender (heq.2 update)

theorem Asked.of_lt {n : Nat} (h : n < s.ping) : Asked s n :=
  ⟨.inl h, fun heq => absurd heq (Nat.ne_of_lt h)⟩

theorem AskedInv.stored (hs : AskedInv trace s) (update : RawUpdate) :
    AskedInv (.gateway (.stored update) :: trace)
      { s with coap := { s.coap with lastUpdate := some update, sender := .stored update },
               ping := s.ping + 1 } := by
  have hpinged : ∀ n, Pinged s n → n < s.ping + 1 := by
    intro n hn
    cases hn with
    | inl hlt => omega
    | inr heq => omega
  refine hs.sending { s.coap with lastUpdate := some update, sender := .stored update } (s.ping + 1)
    rfl (fun n hn => .inl (hpinged n hn)) ?_ (o := [.gateway (.stored update)]) (by simp)
  intro n hn
  exact Asked.of_lt (hpinged n hn.1)

/-- The ping of the running call is sent: no status of it can have been asked for. -/
theorem AskedInv.reset (hs : AskedInv trace s) {update : RawUpdate}
    (hsender : s.coap.sender = .stored update) :
    AskedInv trace
      { s with coap := { s.coap with updateRead := s.coap.updateRead.reset,
                                     sender := .registering update },
               sent := .post s.ping :: s.sent } where
  posts n hn := by
    cases List.mem_cons.mp hn with
    | inl heq =>
      cases heq
      exact .inr ⟨rfl, by simp⟩
    | inr hmem => exact .inl ((hs.posts n hmem).lt_of_stored hsender)
  opened k hk := .inl ((hs.opened k hk).lt_of_stored hsender)
  handlers h hh := by
    obtain ⟨hlt, hasked⟩ := hs.handlers h hh
    exact ⟨hlt, Asked.of_lt (hasked.1.lt_of_stored hsender)⟩
  statuses k r hk := by
    have hasked := hs.statuses k r (by simpa using hk)
    exact Asked.of_lt (hasked.1.lt_of_stored hsender)
  replies n hn := by
    have hasked := hs.replies n (by simpa using hn)
    exact Asked.of_lt (hasked.1.lt_of_stored hsender)
  registered n hn := Asked.of_lt ((hs.registered n hn).1.lt_of_stored hsender)

theorem AskedInv.begun (hs : AskedInv trace s) (session : Nat) :
    AskedInv trace
      { s with begun := s.begun + 1, origin := Function.update s.origin s.begun session } :=
  { hs with
    handlers := by
      intro h hh
      obtain ⟨hlt, hasked⟩ := hs.handlers h hh
      refine ⟨Nat.lt_succ_of_lt hlt, ?_⟩
      dsimp only
      rw [Function.update_of_ne (Nat.ne_of_lt hlt)]
      exact hasked }

theorem AskedInv.signalled (hs : AskedInv trace s) {handler : Nat} (hh : handler < s.begun)
    (hopened : s.origin handler < s.opened) :
    AskedInv (.gateway (.signalled handler) :: trace)
      { s with coap := { s.coap with
          updateRead := s.coap.updateRead.signal true,
          handlers := Function.update s.coap.handlers handler .signalled } } := by
  have hsignal : ∀ n, Pinged s n → Asked { s with
      coap := { s.coap with
        updateRead := s.coap.updateRead.signal true,
        handlers := Function.update s.coap.handlers handler .signalled } } n :=
    fun n hn => ⟨hn, fun _ _ => rfl⟩
  constructor
  · exact hs.posts
  · exact hs.opened
  · intro h hne
    by_cases heq : h = handler
    · rw [heq]
      exact ⟨hh, hsignal _ (hs.opened _ hopened)⟩
    · dsimp only at hne
      rw [Function.update_of_ne heq] at hne
      obtain ⟨hlt, hasked⟩ := hs.handlers h hne
      exact ⟨hlt, hsignal _ hasked.1⟩
  · intro k r hk
    exact hsignal _ (hs.statuses k r hk).1
  · intro n hn
    exact hsignal n (hs.replies n hn).1
  · intro n hn
    exact hsignal n (hs.registered n (by simpa using hn)).1

theorem AskedInv.responded (hs : AskedInv trace s) {handler : Nat}
    (hhandler : s.coap.handlers handler = .signalled) (r : CoapResponse)
    (response : Except Coap.Error RawUpdate) :
    AskedInv (.gateway (.responded handler response) :: trace)
      { s with coap := { s.coap with
                 handlers := Function.update s.coap.handlers handler .done },
               sent := .status (s.origin handler) r :: s.sent } := by
  obtain ⟨hh, hasked⟩ := hs.handlers handler (by simp [hhandler])
  constructor
  · intro n hn
    exact hs.posts n (by simpa using hn)
  · exact hs.opened
  · intro h hne
    by_cases heq : h = handler
    · rw [heq]
      exact ⟨hh, hasked⟩
    · dsimp only at hne
      rw [Function.update_of_ne heq] at hne
      exact hs.handlers h hne
  · intro k r' hm
    cases List.mem_cons.mp hm with
    | inl heq =>
      cases heq
      exact hasked
    | inr hmem => exact hs.statuses k r' hmem
  · intro n hn
    exact hs.replies n (by simpa using hn)
  · intro n hn
    exact hs.registered n (by simpa using hn)

/-- The session a ping opens is a new one. -/
theorem AskedInv.rendered (hfresh : FreshInv trace s) (hs : AskedInv trace s) {ping : Nat}
    (hm : .post ping ∈ s.sent) (sessions : Nat → Session) :
    AskedInv (.rendered s.opened ping true :: trace)
      { s with opened := s.opened + 1, pingOf := Function.update s.pingOf s.opened ping,
               sessions := sessions, sent := .getStatus s.opened :: s.sent } where
  posts n hn := hs.posts n (by simpa using hn)
  opened k hk := by
    dsimp only at hk ⊢
    by_cases heq : k = s.opened
    · rw [heq, Function.update_self]
      exact hs.posts ping hm
    · rw [Function.update_of_ne heq]
      exact hs.opened k (by omega)
  handlers h hh := by
    obtain ⟨hlt, hasked⟩ := hs.handlers h hh
    refine ⟨hlt, ?_⟩
    dsimp only
    rw [Function.update_of_ne (Nat.ne_of_lt (hfresh.origins h hlt))]
    exact hasked
  statuses k r hk := by
    have hmem : .status k r ∈ s.sent := by simpa using hk
    dsimp only
    rw [Function.update_of_ne (Nat.ne_of_lt (hfresh.statuses k r hmem).1)]
    exact hs.statuses k r hmem
  replies n hn := hs.replies n (by simpa using hn)
  registered n hn := hs.registered n (by simpa using hn)

theorem AskedInv.finished (hfresh : FreshInv trace s) (hs : AskedInv trace s) {session ping : Nat}
    {response : Except PyException CoapResponse} {backend : Backend}
    (hsession : s.sessions session = .answered ping response) {o : List Obs}
    (ho : ∀ n, .registered n okReply ∉ o) (sessions : Nat → Session) :
    AskedInv (o ++ trace)
      { s with sessions := sessions,
               sent := .reply ping (renderPost (pingRecord settings response backend)) ::
                 s.sent } := by
  refine hs.messages ho (fun n hn => by simpa using hn) (fun k r hk => by simpa using hk) ?_
  intro n hn
  cases List.mem_cons.mp hn with
  | inr hmem => exact .inl hmem
  | inl heq =>
    obtain ⟨rfl, hreply⟩ := Message.reply.inj heq
    obtain ⟨r, hr⟩ := ok_of_renderPost hreply.symm
    obtain ⟨hlt, hping, hstatus⟩ := hfresh.answered session n response hsession
    have hasked := hs.statuses session r (hstatus r hr)
    rw [hping] at hasked
    exact .inr hasked

theorem listening_registering {update : RawUpdate} (hsender : s.coap.sender = .registering update) :
    Listening s.coap.sender := by
  rw [hsender]
  trivial

theorem effect_askedInv (hfresh : FreshInv trace s) (hs : AskedInv trace s)
    (hcontext : ContextSet obs) (heff : Effect settings s s' obs) : AskedInv (obs ++ trace) s' := by
  cases heff with
  | idle => exact hs
  | stored update hsender => exact hs.stored update
  | reset update hsender => exact hs.reset hsender
  | timedOut update hsender =>
    exact hs.listening (.waiting update) (listening_registering hsender) trivial (by simp)
  | registered update reply hsender hm =>
    refine hs.listening (.waiting update) (listening_registering hsender) trivial ?_
    intro n hn
    cases List.mem_singleton.mp hn
    exact hs.replies _ hm
  | waited update coap o ho hlast hhandlers hwaiting hsender =>
    have hdeaf : ¬ Listening coap.sender := by
      rw [hsender]
      exact id
    exact hs.deaf coap hhandlers hdeaf (by simp [hsender]) (by simp)
  | transferred => exact hs.deaf { s.coap with sender := .idle } rfl id (by simp) (by simp)
  | begun session hm => exact hs.begun session
  | signalled handler hh => exact hs.signalled hh (hfresh.origins handler hh)
  | responded handler hh hhandler => exact hs.responded hhandler _ _
  | rendered ping hm => exact hs.rendered hfresh hm _
  | unset ping hm => exact absurd (hcontext s.opened ping false (by simp)) (by simp)
  | answered session ping response hsession hm =>
    exact hs.messages (by simp) (fun n hn => hn) (fun k r hk => hk) fun n hn => .inl hn
  | finished session ping response backend hsession =>
    exact hs.finished hfresh hsession (by simp) _

theorem contextSet_append : ContextSet (obs ++ trace) ↔ ContextSet obs ∧ ContextSet trace := by
  unfold ContextSet
  constructor
  · intro h
    exact ⟨fun k n c hc => h k n c (List.mem_append_left _ hc),
      fun k n c hc => h k n c (List.mem_append_right _ hc)⟩
  · intro h k n c hc
    cases List.mem_append.mp hc with
    | inl hmem => exact h.1 k n c hmem
    | inr hmem => exact h.2 k n c hmem

theorem askedInv_run (h : (exchange settings).Run trace s) (hcontext : ContextSet trace) :
    AskedInv trace s := by
  refine h.invariant_while (C := ContextSet) (fun h => (contextSet_append.mp h).1)
    (fun h => (contextSet_append.mp h).2) ?_ ?_ hcontext
  · constructor <;> simp [exchange, Coap.coap]
  · intro trace s e s' obs hr hs hstep hobs
    exact effect_askedInv (freshInv_run hr) hs hobs (effect_of_step hstep)

theorem effect_registered (heff : Effect settings s s' obs) {n : Nat} {reply : Reply}
    (h : .registered n reply ∈ obs) : .reply n reply ∈ s.sent := by
  cases heff with
  | registered update reply' hsender hm =>
    cases List.mem_singleton.mp h
    exact hm
  | finished session ping response backend hsession => simp at h
  | idle => cases h
  | reset => cases h
  | timedOut => cases h
  | transferred => cases h
  | begun => cases h
  | answered => cases h
  | _ => simp at h

/-- The OK of a proxy that has its context comes from a session that got through. -/
theorem effect_reply (heff : Effect settings s s' obs) (hcontext : ContextSet obs) {n : Nat}
    (h : .reply n okReply ∈ s'.sent) : .reply n okReply ∈ s.sent ∨
      ∃ session response backend, s.sessions session = .answered n response ∧
        renderPost (pingRecord settings response backend) = okReply ∧
        obs = ((bodyToPost (pingRecord settings response backend)).map
          fun body => .posted session n body).toList := by
  cases heff with
  | unset ping hm => exact absurd (hcontext s.opened ping false (by simp)) (by simp)
  | finished session ping response backend hsession =>
    cases List.mem_cons.mp h with
    | inl heq =>
      obtain ⟨rfl, hreply⟩ := Message.reply.inj heq
      exact .inr ⟨session, response, backend, hsession, hreply.symm, rfl⟩
    | inr hmem => exact .inl hmem
  | reset => exact .inl (by simpa using h)
  | responded => exact .inl (by simpa using h)
  | rendered => exact .inl (by simpa using h)
  | _ => exact .inl h

theorem bodyToPost_of_ok {token endpoint : String} (htoken : settings.bearerToken = some token)
    (hendpoint : settings.backendEndpoint = some endpoint) {r : CoapResponse}
    (hcode : r.code = codeContent) {backend : Backend}
    (h : renderPost (pingRecord settings (.ok r) backend) = okReply) :
    ∃ body, bodyToPost (pingRecord settings (.ok r) backend) = some body := by
  rw [renderPost_ok_iff] at h
  cases hbody : fetchedBody (pingRecord settings (.ok r) backend) r with
  | ok body =>
    refine ⟨body, ?_⟩
    unfold bodyToPost
    simp only [pingRecord, htoken, hendpoint] at hbody ⊢
    simp only [hcode, if_true, hbody]
  | error e =>
    have hraised : processUpdate (pingRecord settings (.ok r) backend) = .error e := by
      unfold processUpdate
      simp only [pingRecord, bind, Except.bind, hcode, if_true] at hbody ⊢
      rw [hbody]
    rw [hraised] at h
    cases h

def Delivered (trace : List Obs) (n : Nat) : Prop := ∃ session body, .posted session n body ∈ trace

structure DeliveredInv (trace : List Obs) (s : State) : Prop where
  replies : ∀ n, .reply n okReply ∈ s.sent → Delivered trace n
  registered : ∀ n, .registered n okReply ∈ trace → Delivered trace n

theorem Delivered.later {n : Nat} (h : Delivered trace n) (later : List Obs) :
    Delivered (later ++ trace) n := by
  obtain ⟨session, body, hmem⟩ := h
  exact ⟨session, body, List.mem_append_right later hmem⟩

theorem effect_deliveredInv {token endpoint : String} (htoken : settings.bearerToken = some token)
    (hendpoint : settings.backendEndpoint = some endpoint) (hfresh : FreshInv trace s)
    (hs : DeliveredInv trace s) (hcontext : ContextSet obs) (heff : Effect settings s s' obs) :
    DeliveredInv (obs ++ trace) s' where
  replies n hn := by
    cases effect_reply heff hcontext hn with
    | inl hold => exact (hs.replies n hold).later obs
    | inr hnew =>
      obtain ⟨session, response, backend, hsession, hok, hobs⟩ := hnew
      obtain ⟨r, hr⟩ := ok_of_renderPost hok
      obtain ⟨hlt, hping, hstatus⟩ := hfresh.answered session n response hsession
      obtain ⟨m, update, hgenuine, _⟩ := (hfresh.statuses session r (hstatus r hr)).2
      have hcode : r.code = codeContent := by
        rw [hgenuine]
        rfl
      rw [hr] at hok hobs
      obtain ⟨body, hbody⟩ := bodyToPost_of_ok htoken hendpoint hcode hok
      rw [hbody] at hobs
      exact ⟨session, body, by simp [hobs]⟩
  registered n hn := by
    cases List.mem_append.mp hn with
    | inl hmem => exact (hs.replies n (effect_registered heff hmem)).later obs
    | inr hmem => exact (hs.registered n hmem).later obs

theorem deliveredInv_run {token endpoint : String} (htoken : settings.bearerToken = some token)
    (hendpoint : settings.backendEndpoint = some endpoint) (h : (exchange settings).Run trace s)
    (hcontext : ContextSet trace) : DeliveredInv trace s := by
  refine h.invariant_while (C := ContextSet) (fun h => (contextSet_append.mp h).1)
    (fun h => (contextSet_append.mp h).2) ?_ ?_ hcontext
  · constructor <;> simp [exchange]
  · intro trace s e s' obs hr hs hstep hobs
    exact effect_deliveredInv htoken hendpoint (freshInv_run hr) hs hobs (effect_of_step hstep)

theorem Numbered.later {m : Nat} {update : RawUpdate} {before : List Obs}
    (h : Numbered before m update) (later : List Obs) : Numbered (later ++ before) m update := by
  induction later with
  | nil => exact h
  | cons o later ih =>
    cases o with
    | gateway o =>
      cases o with
      | stored update' => exact ih.stored update'
      | _ => exact ih
    | _ => exact ih

/-- Once a proxy with its context and settings has answered a ping with OK, the update of that ping or
a later one has been handed to the backend. -/
theorem acknowledged_delivered (hreads : ReadsCbor settings.cborLoads) {token endpoint : String}
    (htoken : settings.bearerToken = some token) (hendpoint : settings.backendEndpoint = some endpoint)
    (h : (exchange settings).Run trace s) (hcontext : ContextSet trace) {n : Nat}
    (hregistered : .registered n okReply ∈ trace) :
    ∃ session m update, .posted session n (updateDict update.value) ∈ trace ∧ n ≤ m ∧
      Numbered trace m update := by
  obtain ⟨session, body, hmem⟩ :=
    (deliveredInv_run htoken hendpoint h hcontext).registered n hregistered
  have hall := fresh_run h hreads
  obtain ⟨later, before, htrace⟩ := List.append_of_mem hmem
  rw [htrace] at hall
  obtain ⟨hping, m, update, hm, hnum, hbody⟩ := hall.at_split
  have hlater := hnum.later (later ++ [.posted session n body])
  refine ⟨session, m, update, hbody ▸ hmem, hping.trans hm, ?_⟩
  rw [htrace]
  simpa using hlater

/- The OK reaches the gateway while it registers. -/
theorem answered_run : ∃ s, (exchange quietSettings).Run (.registered 1 okReply :: onceTrace) s ∧
    s.ping = 1 ∧ s.coap.sender = .waiting quietUpdate :=
  ⟨_, Lib.Machine.run_of_exec (handledOnce ++ [.reply 1 okReply]) rfl, rfl, rfl⟩

theorem contextSet_once : ContextSet (.registered 1 okReply :: onceTrace) := by
  intro k n c hc
  simp only [onceTrace, List.mem_cons, reduceCtorEq, Obs.rendered.injEq, List.not_mem_nil, or_false,
    false_or] at hc
  exact hc.2.2

theorem acknowledged_delivered_once : ∃ session m update,
    Obs.posted session 1 (updateDict (RawUpdate.value update)) ∈
      Obs.registered 1 okReply :: onceTrace ∧ 1 ≤ m ∧
      Numbered (.registered 1 okReply :: onceTrace) m update := by
  obtain ⟨s, hrun, _⟩ := answered_run
  exact acknowledged_delivered plainLoads_readsCbor rfl rfl hrun contextSet_once (by simp)

/-- A sender that a proxy with its context has answered OK before it begins to wait for the signal need
not wait: the status was asked for since its ping, and the wait can end with that at once. -/
theorem acknowledged_heard (h : (exchange settings).Run trace s) (hcontext : ContextSet trace)
    {update : RawUpdate} (hwaiting : s.coap.sender = .waiting update)
    (hregistered : .registered s.ping okReply ∈ trace) :
    ∃ s', (exchange settings).step s (.sender .read) = some (s', [.gateway (.read update)]) := by
  have hasked := ((askedInv_run h hcontext).registered s.ping hregistered).2 rfl
  rw [hwaiting] at hasked
  have hvalue : s.coap.updateRead.value = some true := hasked trivial
  refine ⟨{ s with coap := { s.coap with updateRead := s.coap.updateRead.reset,
                                         sender := .transferring update } }, ?_⟩
  simp [exchange, step, senderStep, Coap.senderStep, hwaiting, Lib.Signal.wait, hvalue,
    Lib.Signal.reset]

theorem acknowledged_heard_once : ∃ s s', s.coap.sender = .waiting quietUpdate ∧
    (exchange quietSettings).step s (.sender .read) = some (s', [.gateway (.read quietUpdate)]) := by
  obtain ⟨s, hrun, hping, hwaiting⟩ := answered_run
  obtain ⟨s', hstep⟩ := acknowledged_heard hrun contextSet_once hwaiting (by simp [hping])
  exact ⟨s, s', hwaiting, hstep⟩

end AssetTracker.Link.CoapExchange
