import AssetTracker.Proxy.Convert

/-! The proxy's answer to a ping. `render_post` answers OK unless `process_update` raises, which it does
for some failures only: others are logged, and the status of the backend is not looked at. -/
namespace AssetTracker.Proxy

inductive PyException where
  | convert (e : PyError)
  | other (name : String)

abbrev Code := UInt8

/- 2.05 and 5.00. -/
def codeContent : Code := 69

def codeInternalServerError : Code := 160

structure CoapResponse where
  code : Code
  payload : List UInt8

/-- What `cbor2.loads` returns: a value of the kinds the gateway sends, or an object of another kind,
given by what the conversion makes of it. -/
inductive Decoded where
  | value (v : PyValue)
  | object (converted : Except PyError PyValue)

/-- What the proxy meets while it handles a ping: its configuration, and the outcome of each step that
is not its own. -/
structure Ping where
  contextSet : Bool
  bearerToken : Option String
  backendEndpoint : Option String
  response : Except PyException CoapResponse
  cborLoads : List UInt8 → Except PyException Decoded
  jsonDumps : PyValue → Except PyException Unit
  post : String → String → PyValue → Except PyException Nat

/-- Without a code the library fills in its default. -/
structure Reply where
  contentFormat : Nat
  payload : String
  code : Option Code
deriving DecidableEq

def okReply : Reply := ⟨0, "OK", none⟩

def errorReply : Reply := ⟨0, "Internal Server Error", some codeInternalServerError⟩

def convert : Decoded → Except PyException PyValue
  | .value v => (convertGatewayUpdate v).mapError .convert
  | .object converted => converted.mapError .convert

def forward (ping : Ping) (body : PyValue) : Except PyException Unit :=
  match ping.bearerToken, ping.backendEndpoint with
  | some token, some endpoint => do
    let _ ← ping.post ("Bearer " ++ token) endpoint body
    pure ()
  | _, _ => pure ()

def fetchedBody (ping : Ping) (result : CoapResponse) : Except PyException PyValue := do
  let decoded ← ping.cborLoads result.payload
  let body ← convert decoded
  ping.jsonDumps body
  pure body

def processUpdate (ping : Ping) : Except PyException Unit :=
  if ping.contextSet then do
    let result ← ping.response
    if result.code = codeContent then do
      let body ← fetchedBody ping result
      forward ping body
    else pure ()
  else pure ()

def renderPost (ping : Ping) : Reply :=
  match processUpdate ping with
  | .ok _ => okReply
  | .error _ => errorReply

def success (status : Nat) : Prop := 200 ≤ status ∧ status < 300

/-- The status was fetched, converted, and accepted by the backend. -/
def GotThrough (ping : Ping) : Prop :=
  ping.contextSet = true ∧ ∃ result body token endpoint status,
    ping.response = .ok result ∧ result.code = codeContent ∧ fetchedBody ping result = .ok body ∧
      ping.bearerToken = some token ∧ ping.backendEndpoint = some endpoint ∧
      ping.post ("Bearer " ++ token) endpoint body = .ok status ∧ success status

/-- OK is for updates that got through, the internal server error for all others. -/
def Honest (ping : Ping) : Prop :=
  (renderPost ping = okReply → GotThrough ping) ∧ (¬ GotThrough ping → renderPost ping = errorReply)

/-- Nothing goes wrong without an exception: the context and the settings are there where they are
needed, a response has content, and a backend that answers at all accepts. -/
def FailsLoudly (ping : Ping) : Prop :=
  ping.contextSet = true ∧ ∀ result, ping.response = .ok result →
    result.code = codeContent ∧ ∀ body, fetchedBody ping result = .ok body →
      ∃ token endpoint, ping.bearerToken = some token ∧ ping.backendEndpoint = some endpoint ∧
        ∀ status, ping.post ("Bearer " ++ token) endpoint body = .ok status → success status

theorem renderPost_ok_iff (ping : Ping) : renderPost ping = okReply ↔ processUpdate ping = .ok () := by
  unfold renderPost
  cases processUpdate ping with
  | ok _ => simp
  | error e => simp [okReply, errorReply]

theorem renderPost_eq (ping : Ping) : renderPost ping = okReply ∨ renderPost ping = errorReply := by
  unfold renderPost
  cases processUpdate ping with
  | ok _ => exact .inl rfl
  | error e => exact .inr rfl

theorem honest_iff (ping : Ping) :
    Honest ping ↔ (processUpdate ping = .ok () → GotThrough ping) := by
  unfold Honest
  rw [renderPost_ok_iff]
  constructor
  · intro h
    exact h.1
  · intro h
    refine ⟨h, ?_⟩
    intro hno
    cases renderPost_eq ping with
    | inl hok => exact absurd (h ((renderPost_ok_iff ping).mp hok)) hno
    | inr herror => exact herror

/-- The backend was there and accepted the body. -/
def Delivered (ping : Ping) (body : PyValue) : Prop :=
  ∃ token endpoint status, ping.bearerToken = some token ∧ ping.backendEndpoint = some endpoint ∧
    ping.post ("Bearer " ++ token) endpoint body = .ok status ∧ success status

theorem gotThrough_iff (ping : Ping) :
    GotThrough ping ↔ ping.contextSet = true ∧ ∃ result, ping.response = .ok result ∧
      result.code = codeContent ∧ ∃ body, fetchedBody ping result = .ok body ∧
        Delivered ping body := by
  constructor
  · intro h
    obtain ⟨hcontext, result, body, token, endpoint, status, hresponse, hcode, hbody, h⟩ := h
    exact ⟨hcontext, result, hresponse, hcode, body, hbody, token, endpoint, status, h⟩
  · intro h
    obtain ⟨hcontext, result, hresponse, hcode, body, hbody, token, endpoint, status, h⟩ := h
    exact ⟨hcontext, result, body, token, endpoint, status, hresponse, hcode, hbody, h⟩

theorem forward_delivers_iff (ping : Ping) (body : PyValue) :
    (forward ping body = .ok () → Delivered ping body) ↔
      ∃ token endpoint, ping.bearerToken = some token ∧ ping.backendEndpoint = some endpoint ∧
        ∀ status, ping.post ("Bearer " ++ token) endpoint body = .ok status → success status := by
  unfold forward Delivered
  cases ping.bearerToken with
  | none => simp [pure, Except.pure]
  | some token =>
    cases ping.backendEndpoint with
    | none => simp [pure, Except.pure]
    | some endpoint =>
      cases hpost : ping.post ("Bearer " ++ token) endpoint body with
      | error e => simp [bind, Except.bind, hpost]
      | ok status => simp [bind, Except.bind, pure, Except.pure, hpost]

/-- The answer is honest exactly when every failure is an exception. -/
theorem honest_iff_failsLoudly (ping : Ping) : Honest ping ↔ FailsLoudly ping := by
  rw [honest_iff, gotThrough_iff]
  unfold processUpdate FailsLoudly
  cases ping.contextSet with
  | false => simp [pure, Except.pure]
  | true =>
    cases ping.response with
    | error e => simp [bind, Except.bind]
    | ok result =>
      by_cases hcode : result.code = codeContent
      · cases hbody : fetchedBody ping result with
        | error e => simp [bind, Except.bind, hcode, hbody]
        | ok body => simpa [bind, Except.bind, hcode, hbody] using forward_delivers_iff ping body
      · simp [bind, Except.bind, pure, Except.pure, hcode]

/- An update without tags, for a backend that does not know the token. -/
def rejectedPing : Ping where
  contextSet := true
  bearerToken := some "expired"
  backendEndpoint := some "backend"
  response := .ok ⟨codeContent, [0x83, 0x62, 0x67, 0x77, 0x05, 0x80]⟩
  cborLoads _ := .ok (.value (.list [.str "gw", .int 5, .list []]))
  jsonDumps _ := .ok ()
  post _ _ _ := .ok 401

theorem rejected_update_acknowledged : ¬ ∀ ping, Honest ping := by
  intro h
  obtain ⟨_, _, _, _, _, status, _, _, _, _, _, hpost, hsuccess⟩ := (h rejectedPing).1 rfl
  have hstatus : status = 401 := (Except.ok.inj hpost).symm
  rw [hstatus] at hsuccess
  exact absurd hsuccess.2 (by decide)

end AssetTracker.Proxy
