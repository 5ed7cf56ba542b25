import EdgeSphere.Library.Program
import EdgeSphere.Library.Expiry
import EdgeSphere.Library.SortedSet
import EdgeSphere.Library.Buffer
import EdgeSphere.Auth.Entities

/-!
# Sessions: the methods that issue, redeem and drop refresh tokens

`register`, `login`, `loginOAuth`, `refreshTokens` and `logout` of `AuthService`, written as the
programs of their awaits.  Redis holds one string a device, `refresh:{user}:{device}`, that expires,
and one sorted set a user, `user_sessions:{user}`, that does not.

`handle` executes one command at one reading of the clock.  What is left out: the columns
`lastLoginAt` and `lastLoginIp` (no method reads them, so `updateLogin` changes nothing) and the
logging.
-/

namespace EdgeSphere.Auth

open EdgeSphere.Library
open EdgeSphere.Library.Expiry
open EdgeSphere.Library.Buffer
open EdgeSphere.Library.Program

def REFRESH_TOKEN_TTL : ℕ := 7 * 24 * 60 * 60

def BCRYPT_ROUNDS : ℕ := 12

def MAX_SESSIONS : ℕ := 5

structure JwtPayload where
  sub : Ident
  email : String
  role : UserRole
  deriving DecidableEq

structure TokenPair where
  accessToken : String
  refreshToken : String
  expiresIn : ℕ
  deriving DecidableEq, Repr

/-- What the service is configured with: bcrypt, the JWT signer, SHA-256 in hex and the setting
`JWT_EXPIRES_IN`. -/
structure Environment where
  hash : String → ℕ → String
  compare : String → String → Bool
  sign : JwtPayload → String
  sha256Hex : String → Ident
  jwtExpiresIn : String

/-! ### Commands -/

/-- What the methods await. -/
inductive Command where
  | findByEmail (email : String)
  | findById (id : String)
  | saveUser (row : UserEntity)
  | updateLogin (id : Ident) (ip : String)
  | hash (password : String) (rounds : ℕ)
  | compare (password passwordHash : String)
  | signAsync (payload : JwtPayload)
  /-- `Date.now()`, which is no await but reads the clock. -/
  | dateNow
  | get (key : String)
  | set (key value : String) (seconds : ℕ)
  | del (key : String)
  | zadd (key : String) (score : ℕ) (member : String)
  | zcard (key : String)
  /-- `ZRANGE key 0 0`. -/
  | zrangeFirst (key : String)
  | zrem (key member : String)

/-- What each command answers. -/
abbrev Answer : Command → Type
  | .findByEmail _ => Option UserEntity
  | .findById _ => Option UserEntity
  | .saveUser _ => Unit
  | .updateLogin _ _ => Unit
  | .hash _ _ => String
  | .compare _ _ => Bool
  | .signAsync _ => String
  | .dateNow => ℕ
  | .get _ => Option String
  | .set _ _ _ => Unit
  | .del _ => Unit
  | .zadd _ _ _ => Unit
  | .zcard _ => ℕ
  | .zrangeFirst _ => Option String
  | .zrem _ _ => Unit

abbrev AuthProgram (α : Type) := Program Command Answer Exception α

abbrev await (c : Command) : AuthProgram (Answer c) := command c

/-! ### Redis and the users table -/

structure SessionStore where
  users : List UserEntity
  strings : String → Option (Cell String)
  zsets : String → SortedSet String ℕ

/-- A Redis without keys. -/
def SessionStore.initial (users : List UserEntity) : SessionStore :=
  ⟨users, fun _ => none, fun _ => .empty⟩

def SessionStore.setString (s : SessionStore) (key : String) (cell : Option (Cell String)) :
    SessionStore := { s with strings := Function.update s.strings key cell }

def SessionStore.setZset (s : SessionStore) (key : String) (zset : SortedSet String ℕ) :
    SessionStore := { s with zsets := Function.update s.zsets key zset }

/-- Execute one command at `now`.  The unique index on `email` refuses a second row. -/
def handle (env : Environment) (now : ℕ) (s : SessionStore) :
    (c : Command) → SessionStore × Except Exception (Answer c)
  | .findByEmail email => (s, .ok (s.users.find? fun u => decide (u.email = email)))
  | .findById id => (s, .ok (s.users.find? fun u => decide (u.id.text = id)))
  | .saveUser row =>
    if s.users.any fun u => decide (u.email = row.email) then
      (s, .error (.thrown "QueryFailedError"))
    else ({ s with users := s.users ++ [row] }, .ok ())
  | .updateLogin _ _ => (s, .ok ())
  | .hash password rounds => (s, .ok (env.hash password rounds))
  | .compare password passwordHash => (s, .ok (env.compare password passwordHash))
  | .signAsync payload => (s, .ok (env.sign payload))
  | .dateNow => (s, .ok now)
  | .get key => (s, .ok (read now (s.strings key)))
  | .set key value seconds => (s.setString key (put now seconds value), .ok ())
  | .del key => (s.setString key none, .ok ())
  | .zadd key score member => (s.setZset key ((s.zsets key).zadd score member), .ok ())
  | .zcard key => (s, .ok (s.zsets key).zcard)
  | .zrangeFirst key => (s, .ok (s.zsets key).zrangeFirst)
  | .zrem key member => (s.setZset key ((s.zsets key).zrem member), .ok ())

/-! ### The methods -/

def refreshKey (userId deviceId : String) : String := "refresh:" ++ userId ++ ":" ++ deviceId

def sessionKey (userId : String) : String := "user_sessions:" ++ userId

/-- The raw token `{user}:{device}:{uuid}` in Base64. -/
def refreshTokenOf (userId deviceId uuid : String) : String :=
  toBase64 (userId ++ ":" ++ deviceId ++ ":" ++ uuid)

/-- The user and the device a token names, if it has three parts. -/
def owner (refreshToken : String) : Option (String × String) :=
  match split ':' (fromBase64 refreshToken) with
  | [userId, deviceId, _] => some (userId, deviceId)
  | _ => none

/-- `AuthService.parseExpiry`: digits and one of the units `m`, `h`, `d`. -/
def parseExpiry (str : String) : ℕ :=
  let digits := str.toList.dropLast
  let value := digits.foldl (fun n c => 10 * n + (c.toNat - '0'.toNat)) 0
  if digits ≠ [] ∧ digits.all Char.isDigit then
    match str.toList.getLast? with
    | some 'm' => value * 60
    | some 'h' => value * 3600
    | some 'd' => value * 86400
    | _ => 900
  else 900

/-- `existingDeviceId || sha256(userAgent || 'unknown')`. -/
def deviceOf (env : Environment) (userAgent : String) (existingDeviceId : Option String) : String :=
  match existingDeviceId with
  | some deviceId =>
    if deviceId = "" then (env.sha256Hex (if userAgent = "" then "unknown" else userAgent)).text
    else deviceId
  | none => (env.sha256Hex (if userAgent = "" then "unknown" else userAgent)).text

/-- Drop the least recent device of a user who has too many. -/
def limitSessions (userId : String) (sessionCount : ℕ) : AuthProgram Unit :=
  if MAX_SESSIONS < sessionCount then do
    let oldest : Option String ← await (.zrangeFirst (sessionKey userId))
    match oldest with
    | some oldest =>
      await (.del (refreshKey userId oldest))
      await (.zrem (sessionKey userId) oldest)
    | none => pure ()
  else pure ()

/-- The commands of the limit are about the user's set and the refresh keys of the user's devices. -/
theorem within_limitSessions {P : Command → Prop} {userId : String}
    (hfirst : P (.zrangeFirst (sessionKey userId))) (hdel : ∀ device, P (.del (refreshKey userId device)))
    (hrem : ∀ device, P (.zrem (sessionKey userId) device)) (sessionCount : ℕ) :
    (limitSessions userId sessionCount).Within P := by
  unfold limitSessions
  split
  · refine (within_command hfirst).bind fun oldest => ?_
    cases oldest with
    | none => trivial
    | some oldest =>
      refine (within_command (hdel oldest)).bind fun _ => ?_
      exact within_command (hrem oldest)
  · trivial

/-- `AuthService.generateTokenPair`; `uuid` is the fresh UUID. -/
def generateTokenPair (env : Environment) (user : UserEntity) (userAgent : String)
    (existingDeviceId : Option String) (uuid : Ident) : AuthProgram TokenPair := do
  let accessToken ← await (.signAsync ⟨user.id, user.email, user.role⟩)
  let deviceId := deviceOf env userAgent existingDeviceId
  let refreshToken := refreshTokenOf user.id.text deviceId uuid.text
  let now ← await .dateNow
  await (.zadd (sessionKey user.id.text) now deviceId)
  let sessionCount ← await (.zcard (sessionKey user.id.text))
  limitSessions user.id.text sessionCount
  await (.set (refreshKey user.id.text deviceId) refreshToken REFRESH_TOKEN_TTL)
  return { accessToken, refreshToken, expiresIn := parseExpiry env.jwtExpiresIn }

/-- `AuthService.register`; `id` is the id the database assigns. -/
def register (env : Environment) (email password : String) (id uuid : Ident) :
    AuthProgram TokenPair := do
  let existing : Option UserEntity ← await (.findByEmail email)
  match existing with
  | some _ => throw (.conflict "Email already registered")
  | none =>
    let passwordHash ← await (.hash password BCRYPT_ROUNDS)
    let user : UserEntity :=
      { id, email, passwordHash := some passwordHash, role := .user, isActive := true }
    await (.saveUser user)
    generateTokenPair env user "" none uuid

/-- `AuthService.loginOAuth`. -/
def loginOAuth (env : Environment) (user : UserEntity) (ip userAgent : String) (uuid : Ident) :
    AuthProgram TokenPair :=
  if user.isActive then do
    await (.updateLogin user.id ip)
    generateTokenPair env user userAgent none uuid
  else throw (.unauthorized "Account disabled")

/-- What a password login checks before it logs the user in. -/
def checkPassword (user : Option UserEntity) (password : String) : AuthProgram UserEntity :=
  match user with
  | none => throw (.unauthorized "Invalid credentials")
  | some user =>
    match user.passwordHash with
    | none | some "" => throw (.unauthorized "Invalid credentials")
    | some passwordHash => do
      let passwordValid : Bool ← await (.compare password passwordHash)
      if passwordValid then pure user else throw (.unauthorized "Invalid credentials")

/-- `AuthService.login`; past the password it does what `loginOAuth` does. -/
def login (env : Environment) (email password ip userAgent : String) (uuid : Ident) :
    AuthProgram TokenPair := do
  let found ← await (.findByEmail email)
  let user ← checkPassword found password
  loginOAuth env user ip userAgent uuid

/-- The part of `refreshTokens` that spends the stored token and loads its user. -/
def spend (userId deviceId : String) : AuthProgram (UserEntity × String) := do
  await (.del (refreshKey userId deviceId))
  let user : Option UserEntity ← await (.findById userId)
  match user with
  | some user =>
    if user.isActive then pure (user, deviceId)
    else throw (.unauthorized "User not found or disabled")
  | none => throw (.unauthorized "User not found or disabled")

/-- The part of `refreshTokens` that trades the token for its user and device. -/
def redeem (refreshToken : String) : AuthProgram (UserEntity × String) :=
  match owner refreshToken with
  | none => throw (.unauthorized "Invalid refresh token format")
  | some (userId, deviceId) => do
    let storedToken : Option String ← await (.get (refreshKey userId deviceId))
    if storedToken = some refreshToken then spend userId deviceId
    else throw (.unauthorized "Invalid or expired refresh token")

/-- `AuthService.refreshTokens`.  The promise of `generateTokenPair` is returned, not awaited, inside
the `try`, so that its failures pass the `catch`. -/
def refreshTokens (env : Environment) (refreshToken userAgent : String) (uuid : Ident) :
    AuthProgram TokenPair := do
  let (user, deviceId) ← (redeem refreshToken).catchAll fun _ =>
    throw (.unauthorized "Invalid or expired refresh token")
  generateTokenPair env user userAgent (some deviceId) uuid

/-- `AuthService.logout`; every failure is swallowed. -/
def logout (userId refreshToken : String) : AuthProgram Unit :=
  (match owner refreshToken with
    | none => pure ()
    | some (_, deviceId) => do
      await (.del (refreshKey userId deviceId))
      await (.zrem (sessionKey userId) deviceId)).catchAll fun _ => pure ()

end EdgeSphere.Auth
