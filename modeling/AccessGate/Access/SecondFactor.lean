import AccessGate.Access.Question
import AccessGate.Store.Sessions

/-!
# The second factor

A user who passed the first factor is put before the verification service.

* a session lets the user pass without a call; only an answer that grants, and not by the service's
  own bypass, opens one;
* an answer that awaits the user opens a challenge under the answer's identifier, which keeps the
  user's profile; any other answer to a challenge settles it;
* when the service is not there, the client decides whether users pass.
-/

namespace AccessGate

/-- The open sessions, and the profiles of users with an open challenge. -/
structure SecondFactor where
  sessions : Sessions
  challenges : TimedMap String Profile

namespace SecondFactor

/-- How the factor stands after a step, with the request and the stores. -/
structure Settled where
  factor : Factor
  request : Request
  after : SecondFactor

/-- Nothing remembered. -/
def make (sessionLifetime challengeTtl now : Time) : SecondFactor :=
  ⟨.make sessionLifetime now, .make challengeTtl TimedMap.defaultMaxEntries now⟩

/-- The token names an open challenge. -/
def hasChallenge (s : SecondFactor) (now : Time) (token : String) : Bool × SecondFactor :=
  let (hit, challenges) := s.challenges.contains now token
  (hit, { s with challenges })

/-! ## 1. What is sent -/

/-- Six digits, typed in place of a password. -/
def isPasscode (text : String) : Bool :=
  text.toList.length == 6 && text.toList.all Char.isDigit

/-- The one-time code of a request whose password nobody else checks. -/
def passcode? (request : Request) : Option String :=
  if request.client.source = .unchecked ∧ isPasscode request.password then some request.password
  else none

/-- What the service is told of a request. -/
def accessBody (request : Request) : Verification.AccessBody where
  identity := request.user
  name := request.profile.displayName
  email := request.profile.email
  phone := request.profile.phone
  passCode := passcode? request
  callingStationId := request.station
  calledStationId := request.packet.calledStationId?
  inlineEnroll := true
  signUpGroups := request.client.signUpGroups

/-- What the service is told of the answer to a challenge. -/
def challengeBody (request : Request) (token : String) : Verification.ChallengeBody where
  identity := request.user
  challenge := request.password
  requestId := token

/-! ## 2. What an answer means -/

/-- The step that a model of the service calls for. -/
def apply (s : SecondFactor) (now : Time) (request : Request) (model : Verification.Model) :
    Settled :=
  match model.status with
  | .granted =>
    if model.bypassed then ⟨.bypass, request, s⟩
    else
      let sessions := s.sessions.record now request.client.name request.station request.user
      ⟨.accept, request, { s with sessions }⟩
  | .denied => ⟨.reject, { request with replyMessage := model.replyMessage }, s⟩
  | .awaiting =>
    ⟨.awaiting, { request with state := some model.id, replyMessage := model.replyMessage },
      { s with challenges := s.challenges.insert now model.id request.profile }⟩
  | .unknown => ⟨.reject, request, s⟩

/-- How the factor stands when a call has no answer. -/
def withoutService (request : Request) (failure : Verification.Failure) : Factor :=
  if failure.isUnreachable && request.client.bypassWhenUnreachable then .bypass else .reject

/-- The step that an answer of the service calls for. -/
def settle (s : SecondFactor) (now : Time) (request : Request) :
    Except Verification.Failure Verification.Model → Settled
  | .ok model => s.apply now request model
  | .error failure => ⟨withoutService request failure, request, s⟩

/-- The step without the challenge that it settled. -/
def Settled.closing (r : Settled) (now : Time) (token : String) : Settled :=
  if r.factor = .awaiting then r
  else { r with after := { r.after with challenges := (r.after.challenges.remove now token).2 } }

/-! ## 3. The steps -/

/-- Starts the second factor of a request. -/
def create {V : Type} (s : SecondFactor) (now : Time) (request : Request) : Talk V Settled :=
  if request.user.isEmpty then .done ⟨.reject, request, s⟩
  else
    let (hit, sessions) := s.sessions.check now request.client.name request.station request.user
    let s := { s with sessions }
    if hit then .done ⟨.bypass, request, s⟩
    else
      .ask (.service request.client (.access (accessBody request))) fun answer =>
        .done (s.settle now request answer)

/-- A request without a profile gets the one that its challenge kept. -/
def restore (s : SecondFactor) (now : Time) (request : Request) (token : String) :
    Request × SecondFactor :=
  if request.profile = .empty then
    let (profile, challenges) := s.challenges.get? now token
    ({ request with profile := profile.getD request.profile }, { s with challenges })
  else (request, s)

/-- Puts the answer to a challenge before the service. -/
def answer {V : Type} (s : SecondFactor) (now : Time) (request : Request) (token : String) :
    Talk V Settled :=
  if request.user.isEmpty then .done ⟨.reject, request, s⟩
  else
    let (request, s) := s.restore now request token
    .ask (.service request.client (.challenge (challengeBody request token))) fun reply =>
      .done ((s.settle now request reply).closing now token)

end SecondFactor

end AccessGate
