import EdgeSphere.Auth.Sessions
import EdgeSphere.Library.Labelled

/-!
# The API client of the dashboard

`request` of the dashboard, written as the program of its awaits, of its reads of the Redux store and of its
actions; the `auth` slice of that store; and the page, which executes a command against the store and against the
auth-service behind `/v1/auth/refresh`.

What a server answers to `fetch` is what the environment says; a call to `/v1/auth/refresh` reaches the auth-service
and is executed there at once.
-/

namespace EdgeSphere.Dashboard

open EdgeSphere.Library
open EdgeSphere.Library.Program
open EdgeSphere.Auth (TokenPair SessionStore Environment Ident)

/-! ### The `auth` slice -/

structure User where
  email : String
  role : String
  deriving DecidableEq

structure AuthState where
  user : Option User
  accessToken : Option String
  refreshToken : Option String
  isAuthenticated : Bool
  deriving DecidableEq

def initialState : AuthState := ⟨none, none, none, false⟩

inductive Action where
  | setCredentials (user : User) (accessToken refreshToken : String)
  | logout
  deriving DecidableEq

/-- The reducers of `authSlice`. -/
def authSlice (state : AuthState) : Action → AuthState
  | .setCredentials user accessToken refreshToken =>
    { state with user := some user, accessToken := some accessToken, refreshToken := some refreshToken
                 isAuthenticated := true }
  | .logout =>
    { state with user := none, accessToken := none, refreshToken := none, isAuthenticated := false }

/-! ### Requests and responses -/

/-- What `request` is called with; `body` is the text that is sent. -/
structure Request where
  method : String
  path : String
  body : Option String
  isFormData : Bool
  deriving DecidableEq

structure Headers where
  authorization : Option String
  contentType : Option String
  deriving DecidableEq

/-- A JSON body: its text, and the two fields that an error is read from. -/
structure Body where
  text : String
  message : Option String
  code : Option String
  deriving DecidableEq

/-- A response; without `json`, its body is no JSON. -/
structure Response where
  status : ℕ
  json : Option Body
  deriving DecidableEq

def Response.ok (res : Response) : Bool := decide (200 ≤ res.status ∧ res.status ≤ 299)

/-- An `ApiError`, or what `fetch` and `json` reject with. -/
inductive Exception where
  | apiError (message : String) (status : ℕ) (code : Option String)
  | thrown (name : String)
  deriving DecidableEq

/-! ### Commands -/

inductive Command where
  | getState
  | fetch (req : Request) (headers : Headers)
  /-- `fetch` of `/v1/auth/refresh`. -/
  | refresh (refreshToken : String)
  | dispatch (action : Action)
  /-- `window.location.href = …`. -/
  | redirect (href : String)
  deriving DecidableEq

/-- What each command answers.  A refresh answers with the pair of an `ok` response. -/
abbrev Answer : Command → Type
  | .getState => AuthState
  | .fetch _ _ => Response
  | .refresh _ => Option TokenPair
  | .dispatch _ => Unit
  | .redirect _ => Unit

abbrev ApiProgram (α : Type) := Program Command Answer Exception α

abbrev await (c : Command) : ApiProgram (Answer c) := command c

/-! ### `request` -/

/-- A text that passes an `if`. -/
def truthy (text : Option String) : Option String := text.filter fun t => decide (t ≠ "")

def bearer (token : String) : String := "Bearer " ++ token

def Request.headers (req : Request) (token : Option String) : Headers :=
  { authorization := (truthy token).map bearer
    contentType := if req.isFormData then none else some "application/json" }

/-- `store.dispatch(logout())` and the way to the login page. -/
def signOut : ApiProgram Unit := do
  await (.dispatch .logout)
  await (.redirect "/login")

/-- What a response is worth: nothing, or its JSON. -/
def value (res : Response) : ApiProgram (Option Body) :=
  if res.status = 204 then pure none
  else match res.json with
    | some body => pure (some body)
    | none => throw (.thrown "SyntaxError")

/-- The original request once more, with the new token. -/
def retry (req : Request) (headers : Headers) (accessToken : String) : ApiProgram (Option Response) := do
  let retryRes : Response ← await (.fetch req { headers with authorization := some (bearer accessToken) })
  if retryRes.ok then pure (some retryRes) else pure none

/-- What follows a refresh that is `ok`. -/
def keep (req : Request) (headers : Headers) (pair : TokenPair) : ApiProgram (Option Response) := do
  let auth : AuthState ← await .getState
  match auth.user with
  | some user =>
    await (.dispatch (.setCredentials user pair.accessToken pair.refreshToken))
    retry req headers pair.accessToken
  | none => retry req headers pair.accessToken

/-- The block of the `try`: the response to the retried request, if that is `ok`. -/
def renew (req : Request) (headers : Headers) (refreshToken : String) : ApiProgram (Option Response) := do
  let refreshRes : Option TokenPair ← await (.refresh refreshToken)
  match refreshRes with
  | some pair => keep req headers pair
  | none => pure none

/-- The `catch` of the block, and what follows the block. -/
def conclude (renewed : ApiProgram (Option Response)) : ApiProgram (Option Body) := do
  let retryRes ← renewed.catchAll fun _ => do
    signOut
    pure none
  match retryRes with
  | some res => value res
  | none =>
    signOut
    throw (.apiError "Unauthorized" 401 (some "AUTH_002"))

/-- What follows the response to the request, in a browser window or not. -/
def answered (window : Bool) (req : Request) (auth : AuthState) (res : Response) : ApiProgram (Option Body) :=
  if res.status = 401 ∧ window = true then
    match truthy auth.refreshToken with
    | some refreshToken => conclude (renew req (req.headers auth.accessToken) refreshToken)
    | none => conclude (pure none)
  else if res.ok then value res
  else match res.json with
    | some body =>
      throw (.apiError ((truthy body.message).getD ("HTTP " ++ toString res.status)) res.status body.code)
    | none => throw (.apiError "Request failed" res.status none)

/-- `request`. -/
def request (window : Bool) (req : Request) : ApiProgram (Option Body) := do
  let auth : AuthState ← if window then await .getState else pure initialState
  let res : Response ← await (.fetch req (req.headers auth.accessToken))
  answered window req auth res

/-! ### The page -/

/-- What a call has seen and done. -/
inductive Event where
  | read (auth : AuthState)
  | fetched (headers : Headers) (response : Except Exception Response)
  | refreshed (refreshToken : String) (pair : Option TokenPair)
  | dispatched (action : Action)
  | redirected (href : String)

/-- The store of the window, the sessions of the auth-service, and what the calls have seen and done. -/
structure Page (ι : Type*) where
  store : AuthState
  sessions : SessionStore
  log : List (ι × Event)

/-- What the environment adds to a command: a clock reading, a UUID and the answer of a server. -/
structure Circumstance where
  now : ℕ
  uuid : Ident
  response : Except Exception Response

variable {ι : Type*}

def Page.record (page : Page ι) (i : ι) (event : Event) : Page ι := { page with log := page.log ++ [(i, event)] }

@[simp] theorem record_sessions (page : Page ι) (i : ι) (event : Event) :
    (page.record i event).sessions = page.sessions := rfl

/-- `POST /v1/auth/refresh`, executed by the auth-service at once. -/
def refreshTokens (env : Environment) (userAgent : String) (c : Circumstance) (s : SessionStore)
    (refreshToken : String) : SessionStore × Option TokenPair :=
  match exec (Auth.handle env c.now) s (Auth.refreshTokens env refreshToken userAgent c.uuid) with
  | (s', .ok pair) => (s', some pair)
  | (s', .error _) => (s', none)

/-- Execute one command of call `i`. -/
def handle (env : Environment) (userAgent : String) (e : ι × Circumstance) (page : Page ι) :
    (c : Command) → Page ι × Except Exception (Answer c)
  | .getState => (page.record e.1 (.read page.store), .ok page.store)
  | .fetch _ headers => (page.record e.1 (.fetched headers e.2.response), e.2.response)
  | .refresh refreshToken =>
    let out := refreshTokens env userAgent e.2 page.sessions refreshToken
    ({ page with sessions := out.1 }.record e.1 (.refreshed refreshToken out.2), .ok out.2)
  | .dispatch action =>
    ({ page with store := authSlice page.store action }.record e.1 (.dispatched action), .ok ())
  | .redirect href => (page.record e.1 (.redirected href), .ok ())

abbrev PagePool (ι : Type*) := Pool (Page ι) ι Command Answer Exception (Option Body)

/-- Call `i` has its next command executed. -/
def step [DecidableEq ι] (env : Environment) (userAgent : String) (pool : PagePool ι) (e : ι × Circumstance) :
    Option (PagePool ι) :=
  Pool.step (handle env userAgent) pool (e.1, e)

end EdgeSphere.Dashboard
