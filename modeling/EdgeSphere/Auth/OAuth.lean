import EdgeSphere.Auth.SessionRuns
import EdgeSphere.Library.Keyed

/-!
# Accounts of the OAuth providers

`UsersService.findOrCreateByOAuth` looks an account up by the e-mail of the profile.  An account without a provider
id is linked with the profile; one that has one is returned as it is, whichever provider asks.

* `stays_bound` — **a bound row is never written again**;
* `bound_row_kept` — **the binding of a row lasts, and the row is returned for a call exactly if the call brings the
  e-mail of the row**, in every run of sign-ins and registrations;
* `google_enters_github_account` — a Google profile gets the row that is bound to a GitHub one;
* `exec_register_users` — registrations are those of `AuthService.register`.
-/

namespace EdgeSphere.Auth

open EdgeSphere.Library
open EdgeSphere.Library.Keyed
open EdgeSphere.Library.Program
open EdgeSphere.Library.Runs

/-! ### The table -/

/-- A row of `users` with its OAuth columns. -/
structure OAuthUser extends UserEntity where
  displayName : Option String
  avatar : Option String
  provider : Option String
  providerId : Option String
  emailVerified : Bool
  deriving DecidableEq

/-- The table `users` with its primary key and the unique index on `email`. -/
structure UserTable where
  rows : List OAuthUser
  ids : Distinct (fun u => u.id) rows
  emails : Distinct (fun u => u.email) rows

namespace UserTable

def empty : UserTable := ⟨[], List.nodup_nil, List.nodup_nil⟩

variable (t : UserTable)

/-- `findOne({ where: { email } })`. -/
def findByEmail (email : String) : Option OAuthUser := t.rows.find? fun u => decide (u.email = email)

/-- Insert a row, unless an index refuses it. -/
def insert (row : OAuthUser) : Option UserTable :=
  if h : (row.id ∉ t.rows.map fun u => u.id) ∧ row.email ∉ t.rows.map fun u => u.email then
    some ⟨t.rows ++ [row], distinct_concat t.ids h.1, distinct_concat t.emails h.2⟩
  else none

/-- Write the columns of the row with this id, unless the index on `email` refuses them. -/
def save (row : OAuthUser) : Option UserTable :=
  if h : Distinct (fun u => u.email) (t.rows.map fun u => if u.id = row.id then row else u) then
    some ⟨t.rows.map fun u => if u.id = row.id then row else u, by
      have hsame : (t.rows.map fun u => if u.id = row.id then row else u).map (fun u => u.id)
          = t.rows.map fun u => u.id := by
        rw [List.map_map]
        refine List.map_congr_left fun u _ => ?_
        show (if u.id = row.id then row else u).id = u.id
        split
        · rename_i heq
          exact heq.symm
        · rfl
      unfold Distinct
      rw [hsame]
      exact t.ids, h⟩
  else none

end UserTable

/-! ### The service -/

/-- `Boolean(text)`. -/
def truthyText : Option String → Bool
  | none | some "" => false
  | some _ => true

/-- `a || b`. -/
def orText (a b : Option String) : Option String := if truthyText a then a else b

/-- What a strategy hands to `findOrCreateByOAuth`. -/
structure OAuthCall where
  email : String
  displayName : Option String
  avatar : Option String
  provider : String
  providerId : String
  deriving DecidableEq

/-- The row of a call that finds none; `id` is the id the database assigns. -/
def OAuthCall.row (call : OAuthCall) (id : Ident) : OAuthUser :=
  { id, email := call.email, passwordHash := none, role := .user, isActive := true
    displayName := call.displayName, avatar := call.avatar, provider := some call.provider
    providerId := some call.providerId, emailVerified := true }

/-- The row of a call that finds one without a provider id. -/
def OAuthCall.link (call : OAuthCall) (user : OAuthUser) : OAuthUser :=
  { user with
    provider := some call.provider
    providerId := some call.providerId
    displayName := orText user.displayName call.displayName
    avatar := orText user.avatar call.avatar
    emailVerified := true }

/-- The answer of a `save` that may be refused. -/
def saved (row : OAuthUser) : Option UserTable → Except Exception (UserTable × OAuthUser)
  | none => .error (.thrown "QueryFailedError")
  | some t => .ok (t, row)

/-- `UsersService.findOrCreateByOAuth`. -/
def findOrCreateByOAuth (id : Ident) (call : OAuthCall) (t : UserTable) :
    Except Exception (UserTable × OAuthUser) :=
  match t.findByEmail call.email with
  | none => saved (call.row id) (t.insert (call.row id))
  | some user =>
    if !truthyText user.providerId then saved (call.link user) (t.save (call.link user))
    else .ok (t, user)

/-! ### The strategies -/

/-- A profile as a provider's strategy delivers it: an id, and what else the provider tells. -/
structure Profile where
  id : String
  displayName : Option String
  username : Option String
  emails : Option (List String)
  photos : Option (List String)
  deriving DecidableEq

/-- `${text}`. -/
def interpolated : Option String → String
  | none => "undefined"
  | some text => text

/-- `GithubStrategy.validate`. -/
def githubCall (profile : Profile) : OAuthCall where
  email := match profile.emails with
    | some (email :: _) => email
    | _ => interpolated profile.username ++ "@github.com"
  displayName := orText profile.displayName profile.username
  avatar := match profile.photos with
    | some (photo :: _) => some photo
    | _ => none
  provider := "github"
  providerId := profile.id

/-- `values[0].value`. -/
def firstValue : Option (List String) → Except Exception String
  | none => .error (.thrown "Cannot read properties of undefined (reading '0')")
  | some [] => .error (.thrown "Cannot read properties of undefined (reading 'value')")
  | some (value :: _) => .ok value

/-- `GoogleStrategy.validate`. -/
def googleCall (profile : Profile) : Except Exception OAuthCall := do
  let email ← firstValue profile.emails
  let avatar ← firstValue profile.photos
  return { email, displayName := profile.displayName, avatar := some avatar, provider := "google"
           providerId := profile.id }

/-- What reaches the table: a sign-in at a provider, or a registration with the hash of its password.  `id` is the
id that the database assigns to a new row; `healthy` says whether the database answers. -/
inductive AccountEvent where
  | github (profile : Profile) (id : Ident) (healthy : Bool)
  | google (profile : Profile) (id : Ident) (healthy : Bool)
  | register (email passwordHash : String) (id : Ident) (healthy : Bool)

/-- The row that `AuthService.register` saves. -/
def registeredRow (email passwordHash : String) (id : Ident) : OAuthUser :=
  { id, email, passwordHash := some passwordHash, role := .user, isActive := true, displayName := none
    avatar := none, provider := some "local", providerId := none, emailVerified := false }

/-- The table part of `AuthService.register`. -/
def registerRow (email passwordHash : String) (id : Ident) (t : UserTable) :
    Except Exception (UserTable × OAuthUser) :=
  match t.findByEmail email with
  | some _ => .error (.conflict "Email already registered")
  | none => saved (registeredRow email passwordHash id) (t.insert (registeredRow email passwordHash id))

/-- What `findOrCreateByOAuth` is called with, if the event comes to that. -/
def AccountEvent.call : AccountEvent → Option OAuthCall
  | .github profile _ _ => some (githubCall profile)
  | .google profile _ _ => (googleCall profile).toOption
  | .register _ _ _ _ => none

def AccountEvent.perform (t : UserTable) : AccountEvent → Except Exception (UserTable × OAuthUser)
  | .github profile id true => findOrCreateByOAuth id (githubCall profile) t
  | .google profile id true => do findOrCreateByOAuth id (← googleCall profile) t
  | .register email passwordHash id true => registerRow email passwordHash id t
  | _ => .error (.thrown "ECONNREFUSED")

/-- One event: the table it leaves, and the row or the error it ends with. -/
def accountStep (t : UserTable) (event : AccountEvent) : UserTable × Except Exception OAuthUser :=
  match event.perform t with
  | .ok (t', row) => (t', .ok row)
  | .error e => (t, .error e)

/-! ### The table over time -/

section Table

variable {t t' : UserTable} {u row returned : OAuthUser} {email : String} {id : Ident} {call : OAuthCall}

theorem findByEmail_some (h : t.findByEmail email = some u) : u ∈ t.rows ∧ u.email = email :=
  ⟨List.mem_of_find?_eq_some h, by simpa using List.find?_some h⟩

/-- A row is the one that is found under its e-mail. -/
theorem findByEmail_mem (hrow : row ∈ t.rows) : t.findByEmail row.email = some row := by
  cases hfound : t.findByEmail row.email with
  | none =>
    have habsent := List.find?_eq_none.mp hfound row hrow
    simp at habsent
  | some u =>
    obtain ⟨hu, hemail⟩ := findByEmail_some hfound
    rw [t.emails.eq hu hrow hemail]

theorem mem_insert (h : t.insert u = some t') (hrow : row ∈ t.rows) : row ∈ t'.rows := by
  unfold UserTable.insert at h
  split at h
  · cases h
    exact List.mem_append_left _ hrow
  · cases h

theorem insert_fresh (h : t.insert u = some t') (hrow : row ∈ t.rows) : u.id ≠ row.id := by
  unfold UserTable.insert at h
  split at h
  · rename_i hnew
    exact fun heq => hnew.1 (heq ▸ List.mem_map_of_mem hrow)
  · cases h

/-- A row of another id is left alone. -/
theorem mem_save (h : t.save u = some t') (hrow : row ∈ t.rows) (hid : row.id ≠ u.id) : row ∈ t'.rows := by
  unfold UserTable.save at h
  split at h
  · cases h
    exact List.mem_map.mpr ⟨row, hrow, if_neg hid⟩
  · cases h

theorem saved_ok {o : Option UserTable} (h : saved u o = .ok (t', returned)) : o = some t' ∧ returned = u := by
  cases o with
  | none => cases h
  | some t => cases h; exact ⟨rfl, rfl⟩

/-- A bound row: one with a provider id, and so with the provider it came from. -/
def OAuthUser.Bound (row : OAuthUser) : Prop := truthyText row.providerId = true

/-- **One call**: a bound row is left alone, and it is returned exactly under its e-mail. -/
theorem findOrCreateByOAuth_bound (hrow : row ∈ t.rows) (hbound : row.Bound)
    (h : findOrCreateByOAuth id call t = .ok (t', returned)) :
    row ∈ t'.rows ∧ (returned.id = row.id ↔ call.email = row.email) ∧ (returned.id = row.id → returned = row) := by
  unfold findOrCreateByOAuth at h
  cases hfound : t.findByEmail call.email with
  | none =>
    rw [hfound] at h
    obtain ⟨hinsert, rfl⟩ := saved_ok h
    have hid := insert_fresh hinsert hrow
    have hemail : call.email ≠ row.email := fun heq => by
      rw [heq, findByEmail_mem hrow] at hfound
      cases hfound
    exact ⟨mem_insert hinsert hrow, iff_of_false hid hemail, fun heq => absurd heq hid⟩
  | some user =>
    rw [hfound] at h
    obtain ⟨huser, hemail⟩ := findByEmail_some hfound
    have hsame : user.id = row.id ↔ call.email = row.email := by
      rw [← hemail]
      constructor
      · intro heq
        rw [t.ids.eq huser hrow heq]
      · intro heq
        rw [t.emails.eq huser hrow heq]
    dsimp only at h
    split at h
    · rename_i hunbound
      have hne : user.id ≠ row.id := fun heq => by
        rw [t.ids.eq huser hrow heq, hbound] at hunbound
        cases hunbound
      obtain ⟨hsave, rfl⟩ := saved_ok h
      exact ⟨mem_save hsave hrow hne.symm, hsame, fun heq => absurd heq hne⟩
    · cases h
      exact ⟨hrow, hsame, fun heq => t.ids.eq huser hrow heq⟩

theorem registerRow_bound {email passwordHash : String} (hrow : row ∈ t.rows)
    (h : registerRow email passwordHash id t = .ok (t', returned)) : row ∈ t'.rows := by
  unfold registerRow at h
  split at h
  · cases h
  · exact mem_insert (saved_ok h).1 hrow

/-- What an event that ends with a row has done. -/
theorem perform_ok {event : AccountEvent} (h : event.perform t = .ok (t', returned)) :
    (∃ id call, event.call = some call ∧ findOrCreateByOAuth id call t = .ok (t', returned)) ∨
      ∃ id email passwordHash, event.call = none ∧ registerRow email passwordHash id t = .ok (t', returned) := by
  cases event with
  | github profile id healthy =>
    cases healthy with
    | false => cases h
    | true => exact .inl ⟨id, githubCall profile, rfl, h⟩
  | google profile id healthy =>
    cases healthy with
    | false => cases h
    | true =>
      have hboth : (googleCall profile >>= fun call => findOrCreateByOAuth id call t) = .ok (t', returned) := h
      cases hcall : googleCall profile with
      | error e =>
        rw [hcall] at hboth
        cases hboth
      | ok call =>
        rw [hcall] at hboth
        refine .inl ⟨id, call, ?_, hboth⟩
        show (googleCall profile).toOption = some call
        rw [hcall]
        rfl
  | register email passwordHash id healthy =>
    cases healthy with
    | false => cases h
    | true => exact .inr ⟨id, email, passwordHash, rfl, h⟩

/-- **A bound row is never written again.** -/
theorem stays_bound (hrow : row ∈ t.rows) (hbound : row.Bound) (event : AccountEvent) :
    row ∈ (accountStep t event).1.rows := by
  unfold accountStep
  cases hperform : event.perform t with
  | error e => exact hrow
  | ok out =>
    obtain ⟨after, user⟩ := out
    rcases perform_ok hperform with ⟨id, call, -, hcall⟩ | ⟨id, email, hash, -, hadd⟩
    · exact (findOrCreateByOAuth_bound hrow hbound hcall).1
    · exact registerRow_bound hrow hadd

/-- The row that a sign-in ends with. -/
theorem returned_bound (hrow : row ∈ t.rows) (hbound : row.Bound) {event : AccountEvent}
    (hcall : event.call = some call) (h : (accountStep t event).2 = .ok returned) :
    (returned.id = row.id ↔ call.email = row.email) ∧ (returned.id = row.id → returned = row) := by
  unfold accountStep at h
  cases hperform : event.perform t with
  | error e =>
    rw [hperform] at h
    cases h
  | ok out =>
    obtain ⟨after, user⟩ := out
    rw [hperform] at h
    cases h
    rcases perform_ok hperform with ⟨id, call', hcall', hout⟩ | ⟨id, email, hash, hnone, -⟩
    · cases hcall.symm.trans hcall'
      exact (findOrCreateByOAuth_bound hrow hbound hout).2
    · rw [hcall] at hnone
      cases hnone

end Table

/-- **A binding lasts.**  In every run of sign-ins at the two providers and of registrations, whatever the profiles:
a row with a provider id keeps it, and its provider, for ever; a later sign-in is given that row, as it is, exactly
if it brings the e-mail of the row. -/
theorem bound_row_kept (t : UserTable) {row : OAuthUser} (hrow : row ∈ t.rows) (hbound : row.Bound)
    (events : List AccountEvent) :
    row ∈ (runCalls accountStep t events).1.rows ∧
      ∀ event call returned, event.call = some call →
        (accountStep (runCalls accountStep t events).1 event).2 = .ok returned →
        (returned.id = row.id ↔ call.email = row.email) ∧ (returned.id = row.id → returned = row) := by
  have hkept : row ∈ (runCalls accountStep t events).1.rows :=
    runCalls_induction accountStep t (fun _ t => row ∈ t.rows) events hrow
      fun _ event _ _ _ _ hrow => stays_bound hrow hbound event
  exact ⟨hkept, fun event call returned hcall hreply => returned_bound hkept hbound hcall hreply⟩

/-! ### One e-mail, two providers -/

/-- The ids of the rows of the example. -/
def firstId : Ident := ⟨"u1", by decide⟩

def secondId : Ident := ⟨"u2", by decide⟩

/-- Two profiles with one e-mail. -/
def githubProfile : Profile := ⟨"583231", some "Octo", some "octo", some ["octo@mail.example"], none⟩

def googleProfile : Profile := ⟨"1089", some "Octo", none, some ["octo@mail.example"], some ["photo.png"]⟩

/-- The table after a sign-in at GitHub. -/
def githubTable : UserTable := (accountStep .empty (.github githubProfile firstId true)).1

/-- The row of the GitHub profile, at a sign-in at GitHub after one at Google. -/
theorem bound_row_kept_github :
    (githubCall githubProfile).row firstId
        ∈ (runCalls accountStep githubTable [.google googleProfile secondId true]).1.rows ∧
      ∀ event call returned, event.call = some call →
        (accountStep (runCalls accountStep githubTable [.google googleProfile secondId true]).1 event).2 = .ok returned →
        (returned.id = ((githubCall githubProfile).row firstId).id ↔
            call.email = ((githubCall githubProfile).row firstId).email) ∧
          (returned.id = ((githubCall githubProfile).row firstId).id →
            returned = (githubCall githubProfile).row firstId) :=
  bound_row_kept githubTable (by decide) (show OAuthUser.Bound ((githubCall githubProfile).row firstId) from rfl)
    [.google googleProfile secondId true]

/-- **The row of a GitHub account is returned for a Google one.** -/
theorem google_enters_github_account :
    ((runCalls accountStep .empty [.github githubProfile firstId true, .google googleProfile secondId true]).2.map
        fun reply => reply.toOption.map fun row => (row.id.text, row.provider, row.providerId))
      = [some ("u1", some "github", some "583231"), some ("u1", some "github", some "583231")] := by
  decide

/-! ### Registrations -/

/-- The table part of a registration is that of `AuthService.register`. -/
theorem exec_register_users (env : Environment) (now : ℕ) (s : SessionStore) (t : UserTable)
    (hs : s.users = t.rows.map fun u => u.toUserEntity) (email password : String) (id uuid : Ident)
    (hid : id ∉ t.rows.map fun u => u.id) :
    (exec (handle env now) s (register env email password id uuid)).1.users
      = (accountStep t (.register email (env.hash password BCRYPT_ROUNDS) id true)).1.rows.map
          fun u => u.toUserEntity := by
  have hfind : (s.users.find? fun u => decide (u.email = email))
      = (t.findByEmail email).map fun u => u.toUserEntity := by
    rw [hs, List.find?_map]
    rfl
  have hstep : accountStep t (.register email (env.hash password BCRYPT_ROUNDS) id true)
      = match registerRow email (env.hash password BCRYPT_ROUNDS) id t with
        | .ok (t', row) => (t', .ok row)
        | .error e => (t, .error e) := rfl
  rw [hstep]
  unfold register registerRow
  simp only [await, bind_eq, exec_bind, exec_command, handle, hfind]
  cases hfound : t.findByEmail email with
  | some user => exact hs
  | none =>
    have hnew : ∀ u ∈ t.rows, u.email ≠ email := fun u hu heq => by
      rw [← heq, findByEmail_mem hu] at hfound
      cases hfound
    have habsent : email ∉ t.rows.map fun u => u.email := fun hmem => by
      obtain ⟨u, hu, heq⟩ := List.mem_map.mp hmem
      exact hnew u hu heq
    have hfree : (s.users.any fun u => decide (u.email = email)) = false := by
      rw [hs, List.any_map, List.any_eq_false]
      intro u hu
      simpa using hnew u hu
    have hinsert : t.insert (registeredRow email (env.hash password BCRYPT_ROUNDS) id)
        = some ⟨t.rows ++ [registeredRow email (env.hash password BCRYPT_ROUNDS) id], distinct_concat t.ids hid,
            distinct_concat t.emails habsent⟩ := dif_pos ⟨hid, habsent⟩
    simp only [Option.map_none, exec_bind, exec_command, handle, hfree, Bool.false_eq_true, if_false,
      exec_generateTokenPair, issue_users, hinsert, saved]
    rw [hs, List.map_append]
    rfl

end EdgeSphere.Auth
