import EdgeSphere.Library.NumberText
import EdgeSphere.Gateway.AuthMiddleware
import EdgeSphere.Storage.Services

/-!
# The platform settings

`PATCH /config` of the gateway writes three settings into one Redis hash, which services of three kinds read.
The controller compares the given values as numbers, the service stores their texts, and the readers parse
those.

* `check`, `updateConfig` — the controller and the service;
* `ReadBack` — what all readers of a setting give, `exec_getRateLimitPerIp` and `exec_getMaxFileSizeMb` that
  these are the reads of the gateway and the storage-service;
* `Coherent` — the values whose text is parsed back as the number they were compared as
  (`Setting.comesBack_iff`);
* `updateConfig_agrees_iff` — **exactly when** an update is rejected or comes back as it was requested.
-/

namespace EdgeSphere.Gateway

open EdgeSphere.Library

/-! ### The settings -/

inductive Setting where
  | cacheTtlSeconds
  | maxFileSizeMb
  | rateLimitPerIp
  deriving DecidableEq, Repr

namespace Setting

def all : List Setting := [cacheTtlSeconds, maxFileSizeMb, rateLimitPerIp]

/-- The field of the hash and of the body. -/
def name : Setting → String
  | cacheTtlSeconds => "cacheTtlSeconds"
  | maxFileSizeMb => "maxFileSizeMb"
  | rateLimitPerIp => "rateLimitPerIp"

/-- The upper bound that the controller states; the lower one is 1. -/
def max : Setting → ℕ
  | cacheTtlSeconds => 86400
  | maxFileSizeMb => 10240
  | rateLimitPerIp => 100000

/-- `DEFAULTS`. -/
def fallback : Setting → ℕ
  | cacheTtlSeconds => 3600
  | maxFileSizeMb => 5120
  | rateLimitPerIp => 100

theorem mem_all (setting : Setting) : setting ∈ all := by
  cases setting <;> decide

theorem name_inj {a b : Setting} (h : a.name = b.name) : a = b := by
  cases a <;> cases b <;> first | rfl | exact absurd h (by decide)

/-- Every default passes the check of its setting. -/
theorem fallback_in_range (setting : Setting) : 1 ≤ setting.fallback ∧ setting.fallback ≤ setting.max := by
  cases setting <;> decide

end Setting

/-- The hash `edgesphere:platform_config`. -/
abbrev SettingsHash := String → Option String

structure PlatformConfig where
  cacheTtlSeconds : IntNumber
  maxFileSizeMb : IntNumber
  rateLimitPerIp : IntNumber
  deriving DecidableEq, Repr

/-- `PlatformConfigService.getConfig`. -/
def getConfig (raw : SettingsHash) : PlatformConfig where
  cacheTtlSeconds := readSetting Setting.cacheTtlSeconds.fallback (raw "cacheTtlSeconds")
  maxFileSizeMb := readSetting Setting.maxFileSizeMb.fallback (raw "maxFileSizeMb")
  rateLimitPerIp := readSetting Setting.rateLimitPerIp.fallback (raw "rateLimitPerIp")

/-- `CacheService.getConfiguredTtlSeconds` of the cdn-service. -/
def getConfiguredTtlSeconds (raw : SettingsHash) (defaultTtl : ℤ) : IntNumber :=
  readSetting defaultTtl (raw "cacheTtlSeconds")

/-- Every consumer of the setting reads this number. -/
def Setting.ReadBack (raw : SettingsHash) (n : ℤ) : Setting → Prop
  | cacheTtlSeconds =>
    (getConfig raw).cacheTtlSeconds = .int n ∧ ∀ defaultTtl, getConfiguredTtlSeconds raw defaultTtl = .int n
  | maxFileSizeMb => (getConfig raw).maxFileSizeMb = .int n ∧
    ∀ defaultMb, readSetting defaultMb (raw "maxFileSizeMb") = .int n
  | rateLimitPerIp =>
    (getConfig raw).rateLimitPerIp = .int n ∧ readSetting 100 (raw "rateLimitPerIp") = .int n

/-- A setting that is not empty is parsed. -/
theorem readSetting_some {fallback : ℤ} {val : String} (h : val ≠ "") :
    readSetting fallback (some val) = parseInt val := by
  unfold readSetting
  split
  · rename_i heq
    cases heq
  · rename_i heq
    exact absurd (Option.some.inj heq) h
  · rename_i heq
    rw [Option.some.inj heq]

/-- The middleware reads the setting so. -/
theorem exec_getRateLimitPerIp {N : Type} {σ : Type*}
    {handle : σ → (c : AuthCommand N) → σ × Except String (AuthAnswer c)} {s : σ} {raw : SettingsHash}
    (hraw : (handle s .rateLimitPerIp).2 = .ok (raw "rateLimitPerIp")) :
    (Program.exec handle s getRateLimitPerIp).2 = .ok (readSetting 100 (raw "rateLimitPerIp")) := by
  show (Program.exec handle s ((ask .rateLimitPerIp).bind fun val => .ret (readSetting 100 val))).2 = _
  rw [Program.exec_bind, Program.exec_command]
  cases hhandle : handle s .rateLimitPerIp with
  | mk s' r =>
    rw [hhandle] at hraw
    cases hraw
    rfl

/-- The storage-service reads the setting so. -/
theorem exec_getMaxFileSizeMb {answers : Storage.Command → Option String} {s : Storage.Stores}
    {raw : SettingsHash} (hraw : answers .maxFileSizeMb = some ((raw "maxFileSizeMb").getD ""))
    (defaultMb : ℕ) : (Program.exec (Storage.handle answers) s (Storage.getMaxFileSizeMb defaultMb)).2
      = .ok (readSetting defaultMb (raw "maxFileSizeMb")) := by
  have hanswer : Storage.handle answers s .maxFileSizeMb = (s, .ok ((raw "maxFileSizeMb").getD "")) := by
    unfold Storage.handle
    rw [if_neg (by decide), hraw]
    rfl
  have hvalue : (if (raw "maxFileSizeMb").getD "" = "" then IntNumber.int defaultMb
      else parseInt ((raw "maxFileSizeMb").getD "")) = readSetting defaultMb (raw "maxFileSizeMb") := by
    cases raw "maxFileSizeMb" with
    | none => rfl
    | some val =>
      by_cases hempty : val = ""
      · rw [hempty]
        rfl
      · rw [Option.getD_some, if_neg hempty, readSetting_some hempty]
  unfold Storage.getMaxFileSizeMb
  rw [Program.exec_catchAll, Program.bind_eq, Program.exec_bind, Program.exec_command, hanswer, ← hvalue]
  rfl

/-! ### The update -/

/-- What `PATCH /config` is answered with besides a configuration. -/
inductive ConfigError where
  | forbidden (message : String)
  | badRequest (message : String)
  | typeError
  deriving DecidableEq, Repr

/-- The given fields of the body. -/
abbrev Updates := Setting → Option (Json JsonNumber)

/-- `updates.<name> < 1 || updates.<name> > <max>`; `none` where a conversion throws. -/
def Setting.refuses (setting : Setting) (value : Json JsonNumber) : Option Bool :=
  value.toNumber.map fun x => x.lt (.finite 1) || (Number.finite setting.max).lt x

/-- The check of one field. -/
def Setting.check (setting : Setting) (value : Option (Json JsonNumber)) : Except ConfigError Unit :=
  match value with
  | none => .ok ()
  | some value =>
    match setting.refuses value with
    | none => .error .typeError
    | some true =>
      .error (.badRequest (setting.name ++ " must be between 1 and " ++ toString setting.max))
    | some false => .ok ()

def checkAll (updates : Updates) : List Setting → Except ConfigError Unit
  | [] => .ok ()
  | setting :: rest =>
    match setting.check (updates setting) with
    | .error e => .error e
    | .ok _ => checkAll updates rest

/-- `fields.<name> = String(updates.<name>)` for every field that is given. -/
def fieldsOf (updates : Updates) : List Setting → Except ConfigError (List (String × String))
  | [] => .ok []
  | setting :: rest =>
    match updates setting with
    | none => fieldsOf updates rest
    | some value =>
      match value.toText, fieldsOf updates rest with
      | some text, .ok fields => .ok ((setting.name, String.ofList text) :: fields)
      | some _, .error e => .error e
      | none, _ => .error .typeError

/-- `hset(PLATFORM_CONFIG_KEY, fields)`. -/
def hset (raw : SettingsHash) (fields : List (String × String)) : SettingsHash :=
  fields.foldl (fun hash field => Function.update hash field.1 (some field.2)) raw

/-- `PlatformConfigService.updateConfig`. -/
def storeUpdates (updates : Updates) (raw : SettingsHash) :
    SettingsHash × Except ConfigError PlatformConfig :=
  match fieldsOf updates Setting.all with
  | .error e => (raw, .error e)
  | .ok fields =>
    let raw := if 0 < fields.length then hset raw fields else raw
    (raw, .ok (getConfig raw))

/-- `PlatformConfigController.updateConfig`. -/
def updateConfig (user : Option (Json JsonNumber)) (updates : Updates) (raw : SettingsHash) :
    SettingsHash × Except ConfigError PlatformConfig :=
  if user.any (Json.propIs "role" "admin") then
    match checkAll updates Setting.all with
    | .error e => (raw, .error e)
    | .ok _ => storeUpdates updates raw
  else (raw, .error (.forbidden "Only admins can update platform configuration"))

/-! ### What is stored -/

/-- A check that no field fails. -/
theorem checkAll_eq_ok {updates : Updates} {settings : List Setting} :
    checkAll updates settings = .ok () ↔
      ∀ setting ∈ settings, ∀ value, updates setting = some value → setting.refuses value = some false := by
  induction settings with
  | nil => simp [checkAll]
  | cons setting rest ih =>
    rw [List.forall_mem_cons, ← ih, checkAll]
    cases updates setting with
    | none => simp [Setting.check]
    | some value =>
      cases hrefuses : setting.refuses value with
      | none => simp [Setting.check, hrefuses]
      | some refused => cases refused <;> simp [Setting.check, hrefuses]

/-- What the fields of the hash are after `hset`. -/
theorem hset_fieldsOf {updates : Updates} {settings : List Setting} {fields : List (String × String)}
    (hfields : fieldsOf updates settings = .ok fields) (hnodup : settings.Nodup) (raw : SettingsHash)
    (setting : Setting) : hset raw fields setting.name
      = if setting ∈ settings then
          (match updates setting with
          | none => raw setting.name
          | some value => value.toText.map String.ofList)
        else raw setting.name := by
  induction settings generalizing fields raw with
  | nil =>
    cases hfields
    rfl
  | cons first rest ih =>
    obtain ⟨hnew, hrest⟩ := List.nodup_cons.mp hnodup
    unfold fieldsOf at hfields
    cases hgiven : updates first with
    | none =>
      rw [hgiven] at hfields
      rw [ih hfields hrest raw]
      by_cases heq : setting = first
      · rw [heq, if_neg hnew, if_pos List.mem_cons_self, hgiven]
      · simp [heq]
    | some value =>
      rw [hgiven] at hfields
      simp only at hfields
      split at hfields
      · rename_i text more htext hmore
        cases hfields
        show hset (Function.update raw first.name (some (String.ofList text))) more setting.name = _
        rw [ih hmore hrest]
        by_cases heq : setting = first
        · rw [heq, if_neg hnew, if_pos List.mem_cons_self, hgiven, Function.update_self]
          show some (String.ofList text) = value.toText.map String.ofList
          rw [htext]
          rfl
        · have hname : setting.name ≠ first.name := fun h => heq (Setting.name_inj h)
          simp [heq, Function.update_of_ne hname]
      · cases hfields
      · cases hfields

/-- A value that is compared as a number has a text. -/
theorem toText_ne_none {value : Json JsonNumber} (h : value.toNumber ≠ none) : value.toText ≠ none := by
  cases value with
  | arr elems =>
    intro hnone
    rw [Json.toText] at hnone
    exact h (by rw [Json.toNumber_arr, hnone, Option.map_none])
  | obj fields =>
    rw [Json.toNumber_obj] at h
    rw [Json.toText]
    split
    · rename_i hmethod
      exact absurd (if_pos hmethod) h
    · exact Option.some_ne_none _
  | _ => exact fun hnone => by cases hnone

theorem fieldsOf_eq_ok {updates : Updates} {settings : List Setting}
    (h : ∀ setting ∈ settings, ∀ value, updates setting = some value → value.toText ≠ none) :
    ∃ fields, fieldsOf updates settings = .ok fields := by
  induction settings with
  | nil => exact ⟨[], rfl⟩
  | cons setting rest ih =>
    obtain ⟨hfirst, hrest⟩ := List.forall_mem_cons.mp h
    obtain ⟨more, hmore⟩ := ih hrest
    unfold fieldsOf
    cases hgiven : updates setting with
    | none => exact ⟨more, hmore⟩
    | some value =>
      obtain ⟨text, htext⟩ := Option.ne_none_iff_exists'.mp (hfirst value hgiven)
      exact ⟨(setting.name, String.ofList text) :: more, by simp only [htext, hmore]⟩

/-! ### What comes back -/

/-- The text is the same integer as a number and to `parseInt`. -/
def ReadsAlike (text : String) : Prop := ∃ n : ℤ, Number.ofText text = .finite n ∧ parseInt text = .int n

/-- The values whose text is parsed back as the number they are compared as. -/
def Coherent : Json JsonNumber → Prop
  | .num x => ∃ n : ℤ, x.value = .finite n
  | .str text => ReadsAlike text
  | .arr elems => ∃ text, Json.joinText elems = some text ∧ ReadsAlike (String.ofList text)
  | _ => False

theorem ne_empty_of_parseInt {text : String} {n : ℤ} (h : parseInt text = .int n) : text ≠ "" := by
  rintro rfl
  cases h

/-- What the readers make of a stored text. -/
theorem Setting.readBack_of_text {setting : Setting} {raw : SettingsHash} {text : String} {n : ℤ}
    (hraw : raw setting.name = some text) (hne : text ≠ "") :
    setting.ReadBack raw n ↔ parseInt text = .int n := by
  have hread : ∀ fallback, readSetting fallback (raw setting.name) = parseInt text := by
    intro fallback
    rw [hraw, readSetting_some hne]
  cases setting with
  | cacheTtlSeconds =>
    show readSetting _ (raw Setting.cacheTtlSeconds.name) = _ ∧
      (∀ _, readSetting _ (raw Setting.cacheTtlSeconds.name) = _) ↔ _
    simp only [hread]
    exact ⟨fun h => h.1, fun h => ⟨h, fun _ => h⟩⟩
  | maxFileSizeMb =>
    show readSetting _ (raw Setting.maxFileSizeMb.name) = _ ∧
      (∀ _, readSetting _ (raw Setting.maxFileSizeMb.name) = _) ↔ _
    simp only [hread]
    exact ⟨fun h => h.1, fun h => ⟨h, fun _ => h⟩⟩
  | rateLimitPerIp =>
    show readSetting _ (raw Setting.rateLimitPerIp.name) = _ ∧
      readSetting _ (raw Setting.rateLimitPerIp.name) = _ ↔ _
    simp only [hread]
    exact and_self_iff

/-- A number that passes the check is in the range. -/
theorem Setting.in_range {setting : Setting} {value : Json JsonNumber} {x : ℚ}
    (hpass : setting.refuses value = some false) (hx : value.toNumber = some (.finite x)) :
    1 ≤ x ∧ x ≤ setting.max := by
  unfold Setting.refuses at hpass
  rw [hx, Option.map_some, Option.some.injEq, Bool.or_eq_false_iff] at hpass
  exact ⟨not_lt.mp (of_decide_eq_false hpass.1), not_lt.mp (of_decide_eq_false hpass.2)⟩

/-- A requested value has come back. -/
def Setting.ComesBack (setting : Setting) (raw : SettingsHash) (value : Json JsonNumber) : Prop :=
  ∃ n : ℤ, value.toNumber = some (.finite n) ∧ 1 ≤ n ∧ n ≤ setting.max ∧ setting.ReadBack raw n

/-- A text that passes the check comes back exactly if it reads alike. -/
theorem Setting.comesBack_text_iff {setting : Setting} {raw : SettingsHash} {value : Json JsonNumber}
    {text : String} (hpass : setting.refuses value = some false) (hraw : raw setting.name = some text)
    (hnumber : value.toNumber = some (Number.ofText text)) :
    setting.ComesBack raw value ↔ ReadsAlike text := by
  constructor
  · intro ⟨n, hn, hone, _, hread⟩
    have htext : Number.ofText text = .finite n := Option.some.inj (hnumber.symm.trans hn)
    have hne : text ≠ "" := by
      rintro rfl
      have hzero : (0 : ℚ) = n := Number.finite.inj htext
      have hcast : (0 : ℤ) = n := by exact_mod_cast hzero
      omega
    exact ⟨n, htext, (Setting.readBack_of_text hraw hne).mp hread⟩
  · intro ⟨n, htext, hparse⟩
    rw [htext] at hnumber
    obtain ⟨hone, hmax⟩ := Setting.in_range hpass hnumber
    refine ⟨n, hnumber, by exact_mod_cast hone, by exact_mod_cast hmax, ?_⟩
    exact (Setting.readBack_of_text hraw (ne_empty_of_parseInt hparse)).mpr hparse

/-- A number that passes the check comes back exactly if it is an integer. -/
theorem Setting.comesBack_num_iff {setting : Setting} {raw : SettingsHash} {x : JsonNumber}
    (hpass : setting.refuses (.num x) = some false)
    (hraw : raw setting.name = some (String.ofList x.toText)) :
    setting.ComesBack raw (.num x) ↔ ∃ n : ℤ, x.value = .finite n := by
  constructor
  · intro ⟨n, hn, _⟩
    exact ⟨n, Option.some.inj hn⟩
  · intro ⟨n, hn⟩
    have hnumber : (Json.num x).toNumber = some (.finite n) := congrArg some hn
    obtain ⟨hone, hmax⟩ := Setting.in_range hpass hnumber
    have hone' : 1 ≤ n := by exact_mod_cast hone
    have hmax' : n ≤ setting.max := by exact_mod_cast hmax
    have hsmall : setting.max ≤ 100000 := by cases setting <;> decide
    refine ⟨n, hnumber, hone', hmax', ?_⟩
    cases x with
    | zero =>
      have hzero : (0 : ℚ) = n := Number.finite.inj hn
      linarith
    | infinity negative => cases hn
    | finite negative x =>
      cases negative with
      | true =>
        have hneg : -x.value = n := Number.finite.inj hn
        linarith [x.positive]
      | false =>
        have hvalue : x.value = n := Number.finite.inj hn
        obtain ⟨m, rfl⟩ := Int.eq_ofNat_of_zero_le (show 0 ≤ n by omega)
        have hparse := PositiveNumber.parseInt_toText (x := x) (m := m) (by exact_mod_cast hvalue) (by omega)
          (by omega)
        exact (Setting.readBack_of_text hraw (ne_empty_of_parseInt hparse)).mpr hparse

/-- **One field.**  A value that passes the check comes back exactly if it is coherent. -/
theorem Setting.comesBack_iff {setting : Setting} {raw : SettingsHash} {value : Json JsonNumber}
    (hpass : setting.refuses value = some false) (hraw : raw setting.name = value.toText.map String.ofList) :
    setting.ComesBack raw value ↔ Coherent value := by
  cases value with
  | null => cases setting <;> exact absurd hpass (by decide)
  | bool b =>
    refine iff_of_false ?_ id
    rintro ⟨n, _, _, _, hread⟩
    cases b with
    | true => cases (Setting.readBack_of_text hraw (by decide)).mp hread
    | false => cases (Setting.readBack_of_text hraw (by decide)).mp hread
  | num x => exact Setting.comesBack_num_iff hpass hraw
  | str text =>
    refine Setting.comesBack_text_iff hpass ?_ ?_
    · rw [hraw]
      exact congrArg some String.ofList_toList
    · exact Json.toNumber_str text
  | arr elems =>
    cases htext : Json.joinText elems with
    | none =>
      refine iff_of_false ?_ ?_
      · rintro ⟨n, hn, _⟩
        rw [Json.toNumber_arr, htext] at hn
        cases hn
      · rintro ⟨text, hsome, _⟩
        rw [htext] at hsome
        cases hsome
    | some text =>
      have hreads : Coherent (.arr elems) ↔ ReadsAlike (String.ofList text) := by
        constructor
        · rintro ⟨text', hsome, hreads⟩
          rw [htext] at hsome
          cases hsome
          exact hreads
        · exact fun hreads => ⟨text, htext, hreads⟩
      rw [hreads]
      refine Setting.comesBack_text_iff hpass ?_ ?_
      · rw [hraw, Json.toText, htext]
        rfl
      · rw [Json.toNumber_arr, htext]
        rfl
  | obj fields =>
    refine iff_of_false ?_ id
    rintro ⟨n, hn, _⟩
    rw [Json.toNumber_obj] at hn
    split at hn
    · cases hn
    · cases hn

/-! ### Every update -/

/-- The request is rejected and the hash unchanged; or every given field comes back as requested, in the
range that the controller states, and the others are unchanged. -/
def Agrees (updates : Updates) (raw : SettingsHash) (out : SettingsHash × Except ConfigError PlatformConfig) :
    Prop :=
  out.2.isOk = false ∧ out.1 = raw ∨
    ∀ setting : Setting, match updates setting with
      | none => out.1 setting.name = raw setting.name
      | some value => setting.ComesBack out.1 value

/-- A check throws or refuses. -/
def Refused (updates : Updates) : Prop :=
  ∃ setting value, updates setting = some value ∧ setting.refuses value ≠ some false

theorem not_refused_iff {updates : Updates} :
    ¬ Refused updates ↔ checkAll updates Setting.all = .ok () := by
  rw [checkAll_eq_ok]
  constructor
  · intro h setting _ value hgiven
    by_contra hne
    exact h ⟨setting, value, hgiven, hne⟩
  · intro h ⟨setting, value, hgiven, hne⟩
    exact hne (h setting setting.mem_all value hgiven)

/-- What an update by an admin that passes the checks does: it stores the texts of the given fields. -/
theorem updateConfig_stores {user : Option (Json JsonNumber)} {updates : Updates} (raw : SettingsHash)
    (hadmin : user.any (Json.propIs "role" "admin") = true) (hpass : ¬ Refused updates) :
    (updateConfig user updates raw).2.isOk = true ∧
      ∀ setting : Setting, (updateConfig user updates raw).1 setting.name = match updates setting with
        | none => raw setting.name
        | some value => value.toText.map String.ofList := by
  have hchecks := not_refused_iff.mp hpass
  obtain ⟨fields, hfields⟩ : ∃ fields, fieldsOf updates Setting.all = .ok fields := fieldsOf_eq_ok
    fun setting hmem value hgiven => toText_ne_none fun hnone => by
      have hrefuses := checkAll_eq_ok.mp hchecks setting hmem value hgiven
      rw [Setting.refuses, hnone] at hrefuses
      cases hrefuses
  have hout : updateConfig user updates raw = (hset raw fields, .ok (getConfig (hset raw fields))) := by
    have hempty : (if 0 < fields.length then hset raw fields else raw) = hset raw fields := by
      cases fields with
      | nil => rfl
      | cons field rest => exact if_pos (Nat.succ_pos _)
    unfold updateConfig storeUpdates
    rw [if_pos hadmin, hchecks, hfields]
    show ((if 0 < fields.length then hset raw fields else raw), _) = _
    rw [hempty]
  rw [hout]
  refine ⟨rfl, fun setting => ?_⟩
  show hset raw fields setting.name = _
  rw [hset_fieldsOf hfields (by decide), if_pos setting.mem_all]

/-- **Every update by an admin** is rejected without effect or comes back as requested exactly if a check
throws or refuses, or every given value is coherent: an integer number, or a text or an array whose text is
the same integer as a number and to `parseInt`. -/
theorem updateConfig_agrees_iff {user : Option (Json JsonNumber)}
    (hadmin : user.any (Json.propIs "role" "admin") = true) (updates : Updates) (raw : SettingsHash) :
    Agrees updates raw (updateConfig user updates raw) ↔
      Refused updates ∨ ∀ setting value, updates setting = some value → Coherent value := by
  by_cases hrefused : Refused updates
  · refine iff_of_true (Or.inl ?_) (Or.inl hrefused)
    have hchecks : checkAll updates Setting.all ≠ .ok () := fun h => not_refused_iff.mpr h hrefused
    unfold updateConfig
    rw [if_pos hadmin]
    cases hall : checkAll updates Setting.all with
    | error e => exact ⟨rfl, rfl⟩
    | ok _ => exact absurd hall hchecks
  · obtain ⟨hok, hstored⟩ := updateConfig_stores raw hadmin hrefused
    have hpass := checkAll_eq_ok.mp (not_refused_iff.mp hrefused)
    have hfield : ∀ setting value, updates setting = some value →
        (setting.ComesBack (updateConfig user updates raw).1 value ↔ Coherent value) := by
      intro setting value hgiven
      refine Setting.comesBack_iff (hpass setting setting.mem_all value hgiven) ?_
      rw [hstored, hgiven]
    constructor
    · rintro (⟨hrejected, _⟩ | hall)
      · rw [hok] at hrejected
        cases hrejected
      · refine Or.inr fun setting value hgiven => (hfield setting value hgiven).mp ?_
        have hback := hall setting
        rw [hgiven] at hback
        exact hback
    · rintro (h | hcoherent)
      · exact absurd h hrefused
      · refine Or.inr fun setting => ?_
        cases hgiven : updates setting with
        | none =>
          show _ = _
          rw [hstored, hgiven]
        | some value => exact (hfield setting value hgiven).mpr (hcoherent setting value hgiven)

/-- An admin, as the middleware puts one on the request. -/
def admin : Option (Json JsonNumber) := some (.obj [("role", .str "admin")])

/-- `{ "rateLimitPerIp": "200" }`. -/
def plainUpdate : Updates
  | .rateLimitPerIp => some (.str "200")
  | _ => none

/-- The rule at this update. -/
theorem updateConfig_agrees_plain :
    Agrees plainUpdate (fun _ => none) (updateConfig admin plainUpdate fun _ => none) ↔
      Refused plainUpdate ∨ ∀ setting value, plainUpdate setting = some value → Coherent value :=
  updateConfig_agrees_iff (by decide) plainUpdate fun _ => none

/-- `{ "rateLimitPerIp": "unlimited" }`. -/
def wordUpdate : Updates
  | .rateLimitPerIp => some (.str "unlimited")
  | _ => none

/-- A word passes the check, as no comparison with NaN holds; it is stored, and the rate limit is read as
NaN, which no count exceeds. -/
theorem word_disables_limit :
    (updateConfig admin wordUpdate fun _ => none).1 "rateLimitPerIp" = some "unlimited" ∧
      readSetting 100 ((updateConfig admin wordUpdate fun _ => none).1 "rateLimitPerIp") = .nan ∧
      (∀ now count, (windowReply .nan now count).allowed = true) ∧
      ¬ Agrees wordUpdate (fun _ => none) (updateConfig admin wordUpdate fun _ => none) := by
  have hstored : (updateConfig admin wordUpdate fun _ => none).1 "rateLimitPerIp" = some "unlimited" := by
    decide +kernel
  have hok : (updateConfig admin wordUpdate fun _ => none).2.isOk = true := by decide +kernel
  refine ⟨hstored, ?_, fun now count => ?_, ?_⟩
  · rw [hstored]
    decide
  · cases count <;> rfl
  · rintro (⟨hrejected, _⟩ | hall)
    · rw [hok] at hrejected
      cases hrejected
    · obtain ⟨n, hn, _⟩ := hall .rateLimitPerIp
      have hnan : Number.ofText "unlimited" = .nan := by decide
      rw [Json.toNumber_str, hnan] at hn
      cases hn

end EdgeSphere.Gateway
