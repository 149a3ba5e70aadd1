import Gridshift.Async
import Gridshift.AuthCache

namespace Gridshift
open Async
set_option autoImplicit true

inductive Method where
  | get
  | post
deriving DecidableEq, Repr

structure AuthInput where
  apiKey : String
deriving DecidableEq, Repr

structure AuthVars where
  input : AuthInput
deriving DecidableEq, Repr

/-- What a query is sent with: the variables of the key exchange, or none. -/
inductive GraphqlVars where
  | auth (vars : AuthVars)
  | noVars
deriving DecidableEq, Repr

structure GraphqlRequest where
  query : String
  «variables» : GraphqlVars
deriving DecidableEq, Repr

structure HttpRequest where
  method : Method
  url : String
  query : List (String × String)
  authorization : Option String
  json : Option GraphqlRequest
deriving DecidableEq, Repr

/-- An answer, with the bytes of its body, or what broke these off. -/
structure HttpResponse where
  status : Nat
  url : String
  body : Except String ByteArray

structure TokenWrapper where
  token : String

structure AuthData where
  token : TokenWrapper

structure AuthResponse where
  data : AuthData

structure AccountSummary where
  number : String

structure ViewerUser where
  accounts : List AccountSummary

structure ViewerData where
  viewer : ViewerUser

structure ViewerResponse where
  data : ViewerData

structure OctopusResponse where
  results : List OctopusRate

/-- What the code reads of its surroundings: the environment variable of the key, and the clock. -/
structure Surroundings where
  apiKey : Except String String
  now : Int

inductive Stop where
  | error (e : ProviderError)
  | panic (panic : Panic)

/-- The calls share the cached pair of a token and a tariff code. -/
abbrev octopus : Interface where
  Value := Option (String × String)
  Request := HttpRequest
  Answer := Except String HttpResponse
  View := Surroundings
  Error := Stop

abbrev Fetch := Prog octopus

/-- A provider with what it uses of the libraries for requests and documents: which responses are
errors by their status, and how the others are read. -/
structure OctopusProvider (ι : Type) extends FetchEnv ι where
  errorForStatus : HttpResponse → Except String HttpResponse
  authResponse : HttpResponse → Except String AuthResponse
  viewerResponse : HttpResponse → Except String ViewerResponse
  account : HttpResponse → Except String Account
  octopusResponse : HttpResponse → Except String OctopusResponse

section Requests

def graphqlUrl : String := "https://api.octopus.energy/v1/graphql/"

def authRequest (apiKey : String) : HttpRequest where
  method := .post
  url := graphqlUrl
  query := []
  authorization := none
  json := some {
    query := "mutation ObtainToken($input: ObtainJSONWebTokenInput!) \x7b obtainKrakenToken(input: $input) \x7b token \x7d \x7d"
    «variables» := .auth ⟨⟨apiKey⟩⟩ }

def accountNumbersRequest (token : String) : HttpRequest where
  method := .post
  url := graphqlUrl
  query := []
  authorization := some token
  json := some ⟨"\x7b viewer \x7b accounts \x7b number \x7d \x7d \x7d", .noVars⟩

def accountRequest (token accountNumber : String) : HttpRequest where
  method := .get
  url := s!"https://api.octopus.energy/v1/accounts/{accountNumber}/"
  query := []
  authorization := some token
  json := none

def RatesRequest.http (request : RatesRequest) : HttpRequest where
  method := .get
  url := request.url
  query := [("period_from", request.periodFrom), ("period_to", request.periodTo)]
  authorization := none
  json := none

end Requests

def other : Except String α → Fetch α
  | .ok a => .done a
  | .error e => .fail (.error (.other e))

def send (request : HttpRequest) : Fetch (Except String HttpResponse) := Prog.ask (.send request)

section Provider
variable (env : OctopusProvider ι)

/-- The token of the answer to a key exchange. -/
def OctopusProvider.readToken (answer : Except String HttpResponse) : Except String String := do
  let resp ← env.authResponse (← env.errorForStatus (← answer))
  return resp.data.token.token

def OctopusProvider.readNumbers (answer : Except String HttpResponse) :
    Except String (List String) := do
  let resp ← env.viewerResponse (← env.errorForStatus (← answer))
  return resp.data.viewer.accounts.map AccountSummary.number

def OctopusProvider.readAccount (answer : Except String HttpResponse) : Except String Account := do
  env.account (← env.errorForStatus (← answer))

def OctopusProvider.readRates (response : HttpResponse) : Except String (List OctopusRate) := do
  let resp ← env.octopusResponse (← env.errorForStatus response)
  return resp.results

def OctopusProvider.authenticate (apiKey : String) : Fetch String := do
  other (env.readToken (← send (authRequest apiKey)))

def OctopusProvider.getAccountNumbers (token : String) : Fetch (List String) := do
  other (env.readNumbers (← send (accountNumbersRequest token)))

def OctopusProvider.getAccount (token accountNumber : String) : Fetch Account := do
  other (env.readAccount (← send (accountRequest token accountNumber)))

/-- The loop over the accounts, left at the first one with a tariff. -/
def OctopusProvider.findTariff (token : String) : List String → Fetch (Option String)
  | [] => return none
  | number :: rest => do
    let account ← env.getAccount token number
    match findAgileTariff (← Prog.ask .look : Surroundings).now account with
    | some code => return some code
    | none => OctopusProvider.findTariff token rest

/-- The end of `resolve_auth` once the accounts were searched. -/
def OctopusProvider.keepTariff (token : String) : Option String → Fetch (String × String)
  | none => other (.error "No active Agile tariff found across all accounts")
  | some tariffCode =>
    if (segments tariffCode).length < 4 then
      other (.error s!"unexpected tariff code format {debugStr tariffCode} (expected at least 4 dash-separated segments, e.g. E-1R-AGILE-FLEX-22-11-25-C)")
    else do
      Prog.ask (.write (some (token, tariffCode)))
      return (token, tariffCode)

/-- The rest of `resolve_auth` with a token. -/
def OctopusProvider.discoverTariff (token : String) : Fetch (String × String) := do
  let accountNumbers ← env.getAccountNumbers token
  if accountNumbers.isEmpty then
    other (.error "No accounts found for the provided API key")
  else
    OctopusProvider.keepTariff token (← env.findTariff token accountNumbers)

/-- What `resolve_auth` does with the lock. -/
def OctopusProvider.resolveLocked : Fetch (String × String) := do
  match ← (Prog.ask .read : Fetch (Option (String × String))) with
  | some cached => return cached
  | none =>
    let apiKey ← other ((← Prog.ask .look : Surroundings).apiKey.mapError
      fun e => s!"OCTOPUS_API_KEY not set: {e}")
    let token ← env.authenticate apiKey
    env.discoverTariff token

def OctopusProvider.resolveAuth : Fetch (String × String) := Prog.locked env.resolveLocked

/-- The end of `fetch_priced_windows`, from the answer to its request. -/
def OctopusProvider.receiveRates (date : NaiveDate) (tz : Tz)
    (answer : Except String HttpResponse) : Fetch (List PricedWindow) := do
  let response ← other answer
  if response.status = 401 then
    Prog.locked (Prog.ask (.write none))
    other (.error "Octopus API returned 401: token expired, will re-authenticate on retry")
  else
    let results ← other (env.readRates response)
    match pricedWindowsOf env.formatRat env.formatTime date tz results with
    | .ok windows => return windows
    | .error e => .fail (.error e)

/-- The rest of `fetch_priced_windows` with a tariff code. -/
def OctopusProvider.fetchRates (date : NaiveDate) (tz : Tz) (tariffCode : String) :
    Fetch (List PricedWindow) :=
  match productCode tariffCode with
  | none => .fail (.panic .sliceOutOfRange)
  | some product =>
    match env.succOpt date with
    | none => .fail (.panic .dateOverflow)
    | some next => do
      env.receiveRates date tz (← send (RatesRequest.http {
        url := ratesUrl product tariffCode
        periodFrom := env.formatBoundary (midnight tz date)
        periodTo := env.formatBoundary (midnight tz next) }))

def OctopusProvider.fetchPricedWindows (input : FetchWindowsInput) : Fetch (List PricedWindow) := do
  let tz ← other ((env.tzdb input.timezone).elim
    (.error s!"invalid timezone {debugStr input.timezone}") .ok)
  let (_, tariffCode) ← env.resolveAuth
  env.fetchRates input.date tz tariffCode

end Provider

end Gridshift
