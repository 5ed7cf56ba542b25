import EdgeSphere.Library.ParseInt
import EdgeSphere.Notification.Dispatch

/-!
# Pages

The controllers of the notification-service hand the texts of a query on as they are, and the services compute with
them: `-` and `*` make numbers of them, and `start + pageSize` puts the text of the size after that of `start`.

* `pageOf` — what the three lists have in common, on the values that really arrive;
* `Paged` — the pages make up the list, all of one size but the last;
* `pageOf_paged_iff` — a list is paged iff it has at most two pages;
* `lists_paged_iff` — **the exact condition** for the rules, the alerts and the notifications;
* `second_page_runs_on` — pages of one rule, and the second one goes on to the end.
-/

namespace EdgeSphere.Notification

open EdgeSphere.Library

/-! ### The values of a query -/

/-- A text of decimal digits. -/
structure DecimalText where
  digits : List Char
  ne_nil : digits ≠ []
  decimal : ∀ c ∈ digits, c.isDigit = true

def DecimalText.value (text : DecimalText) : ℕ := digitsValue text.digits

/-- What a service is given for `page` and `pageSize`: a default of the controller, or the text of the query. -/
inductive QueryValue where
  | number (n : ℕ)
  | text (d : DecimalText)

/-- `page || 1`. -/
def queryOr (value : Option DecimalText) (fallback : ℕ) : QueryValue := (value.map .text).getD (.number fallback)

/-- The numbers that come of such values.  Integers are exact: no array has 2^32 elements, and what is rounded is
larger. -/
inductive PageNumber where
  | nan
  | infinity (negative : Bool)
  | int (n : ℤ)
  deriving DecidableEq

/-- From here on, digits are read as `Infinity`. -/
def tooLarge : ℕ := (2 ^ 54 - 1) * 2 ^ 970

namespace PageNumber

def ofDigits (digits : List Char) : PageNumber :=
  if digitsValue digits < tooLarge then int (digitsValue digits) else infinity false

/-- `Number(text)`, for texts of digits with something before them. -/
def ofText (text : List Char) : PageNumber :=
  match text with
  | '-' :: digits =>
    if digits.all Char.isDigit then
      match ofDigits digits with
      | int n => int (-n)
      | infinity _ => infinity true
      | nan => nan
    else nan
  | _ => if text.all Char.isDigit then ofDigits text else nan

/-- `a - 1`. -/
def pred : PageNumber → PageNumber
  | int n => int (n - 1)
  | other => other

/-- `a * b`. -/
def mul : PageNumber → PageNumber → PageNumber
  | int a, int b => int (a * b)
  | int a, infinity negative => if a = 0 then nan else infinity (xor (decide (a < 0)) negative)
  | infinity negative, int b => if b = 0 then nan else infinity (xor negative (decide (b < 0)))
  | infinity a, infinity b => infinity (xor a b)
  | _, _ => nan

/-- `a + b` for a number `b` that is no larger than a page. -/
def addInt : PageNumber → ℤ → PageNumber
  | int a, b => int (a + b)
  | other, _ => other

/-- `String(a)`. -/
def toText : PageNumber → List Char
  | nan => "NaN".toList
  | infinity negative => if negative then "-Infinity".toList else "Infinity".toList
  | int (.ofNat n) => Nat.toDigits 10 n
  | int (.negSucc n) => '-' :: Nat.toDigits 10 (n + 1)

/-- The index that a bound of `slice` stands for, in an array of some length. -/
def bound (length : ℕ) : PageNumber → ℤ
  | nan => 0
  | infinity negative => if negative then -length else length
  | int n => n

end PageNumber

def QueryValue.toNumber : QueryValue → PageNumber
  | .number n => .int n
  | .text d => .ofText d.digits

/-- `start + pageSize`, as the number that `slice` makes of it. -/
def plus (start : PageNumber) : QueryValue → PageNumber
  | .number n => start.addInt n
  | .text d => .ofText (start.toText ++ d.digits)

/-! ### The lists -/

structure Page (α : Type*) where
  data : List α
  total : ℕ
  page : QueryValue
  pageSize : QueryValue

/-- The body that `listRules`, `getAlertHistory` and `getHistory` share. -/
def pageOf {α : Type*} (array : List α) (page pageSize : QueryValue) : Page α :=
  let start := page.toNumber.pred.mul pageSize.toNumber
  { data := slice array (start.bound array.length) ((plus start pageSize).bound array.length)
    total := array.length, page, pageSize }

/-- `AlertsController.listRules`, with the service behind it. -/
def AlertsController.listRules (page pageSize : Option DecimalText) (rules : List StoredRule) : Page StoredRule :=
  pageOf rules (queryOr page 1) (queryOr pageSize 20)

/-- `AlertsController.getAlertHistory`, with the service behind it. -/
def AlertsController.getAlertHistory (page pageSize : Option DecimalText) (m : AlertMemory) : Page StoredRule :=
  pageOf m.history (queryOr page 1) (queryOr pageSize 20)

/-- `NotificationsController.getHistory`, with the service behind it. -/
def NotificationsController.getHistory {N : Type*} (page pageSize : Option DecimalText) (s : Notifications N) :
    Page (NotificationRecord N) :=
  pageOf s.history (queryOr page 1) (queryOr pageSize 20)

/-- On numbers it is the list of `Rules`. -/
theorem pageOf_number (page pageSize : ℕ) (rules : List StoredRule) :
    (pageOf rules (.number page) (.number pageSize)).data = (listRules page pageSize rules).data := rfl

/-! ### The law -/

/-- How many pages of a size a list has. -/
def pageCount (length size : ℕ) : ℕ := (length + size - 1) / size

/-- **The law**: the pages, from the first on, are the list, and all but the last have the size. -/
def Paged {α : Type*} (data : ℕ → List α) (size : ℕ) (l : List α) : Prop :=
  (List.range (pageCount l.length size)).flatMap (fun k => data (k + 1)) = l ∧
    ∀ k, 1 ≤ k → k < pageCount l.length size → (data k).length = size

/-- At most two pages, of a size that is read as a number. -/
def TwoPages (size length : ℕ) : Prop := length ≤ 2 * size ∧ (size < tooLarge ∨ length = 0)

theorem pageCount_zero {size : ℕ} (hpos : 1 ≤ size) : pageCount 0 size = 0 :=
  Nat.div_eq_of_lt (by omega)

/-! ### Reading digits -/

theorem two_lt_tooLarge : 2 < tooLarge := by
  have hscaled : ∀ e, 2 < (2 ^ 54 - 1) * 2 ^ e := fun e =>
    lt_of_lt_of_le (by norm_num) (Nat.le_mul_of_pos_right (2 ^ 54 - 1) (Nat.two_pow_pos e))
  exact hscaled 970

namespace PageNumber

theorem ofText_digits {digits : List Char} (hdigits : ∀ c ∈ digits, c.isDigit = true) :
    ofText digits = ofDigits digits := by
  have hall : digits.all Char.isDigit = true := List.all_eq_true.mpr hdigits
  unfold ofText
  split
  · rename_i rest
    exact absurd (hdigits '-' List.mem_cons_self) (by decide)
  · rw [if_pos hall]

/-- A word before digits makes no number. -/
theorem ofText_word (word digits : List Char) {c : Char} (hminus : c ≠ '-') (hdigit : c.isDigit = false) :
    ofText (c :: word ++ digits) = nan := by
  unfold ofText
  split
  · rename_i heq
    exact absurd (List.cons.inj heq).1 hminus
  · rw [if_neg]
    rw [List.cons_append, List.all_cons, hdigit]
    exact Bool.false_ne_true

theorem ofDigits_small {digits : List Char} (h : digitsValue digits < tooLarge) :
    ofDigits digits = int (digitsValue digits) := if_pos h

end PageNumber

open PageNumber

theorem toNumber_text (d : DecimalText) : QueryValue.toNumber (.text d) = ofDigits d.digits :=
  ofText_digits d.decimal

section Pages

variable {α : Type*} {size page : DecimalText} {l : List α}

/-- A start of `n` with the digits of the size behind it. -/
theorem plus_text (n : ℕ) : plus (.int n) (.text size) = ofDigits (Nat.toDigits 10 n ++ size.digits) := by
  refine ofText_digits fun c hc => ?_
  rcases List.mem_append.mp hc with hstart | hsize
  · exact Nat.isDigit_of_mem_toDigits (by omega) (by omega) hstart
  · exact size.decimal c hsize

theorem value_plus (n : ℕ) :
    digitsValue (Nat.toDigits 10 n ++ size.digits) = n * 10 ^ size.digits.length + size.value := by
  rw [digitsValue_append, digitsValue_toDigits]
  rfl

/-- **A page from `n` on** ends where those digits say, or at the end of the list. -/
theorem pageOf_from {n : ℕ} (hstart : (QueryValue.toNumber (.text page)).pred.mul (QueryValue.toNumber (.text size)) = .int n) :
    ∃ stop, (pageOf l (.text page) (.text size)).data = (l.drop n).take (stop - n) ∧
      (stop = min (n * 10 ^ size.digits.length + size.value) l.length ∨
        stop = l.length ∧ tooLarge ≤ n * 10 ^ size.digits.length + size.value) := by
  have hslice : ∀ stop : ℕ, slice l n stop = (l.drop n).take (min stop l.length - n) := by
    intro stop
    unfold slice
    simp only [Int.natCast_nonneg, not_lt.mpr, if_false, Int.toNat_natCast]
    rcases Nat.le_total n l.length with hle | hge
    · rw [Nat.min_eq_left hle]
    · rw [Nat.min_eq_right hge, List.drop_length, List.drop_eq_nil_of_le hge, List.take_nil, List.take_nil]
  unfold pageOf
  dsimp only
  rw [hstart, plus_text]
  unfold ofDigits
  rw [value_plus]
  split
  · exact ⟨_, hslice _, Or.inl rfl⟩
  · rename_i hlarge
    refine ⟨_, hslice l.length, Or.inr ⟨Nat.min_self _, not_lt.mp hlarge⟩⟩

/-- Where a page begins. -/
theorem start_eq {k : ℕ} (hpage : page.value = k + 1) (hk : k < 2) (hsize : size.value < tooLarge) :
    (QueryValue.toNumber (.text page)).pred.mul (QueryValue.toNumber (.text size)) = .int (k * size.value : ℕ) := by
  have hsmall : digitsValue page.digits < tooLarge :=
    lt_of_le_of_lt (show page.value ≤ 2 by omega) two_lt_tooLarge
  rw [toNumber_text, toNumber_text, ofDigits_small hsmall, ofDigits_small hsize]
  show PageNumber.int ((page.value - 1) * size.value) = .int (k * size.value : ℕ)
  rw [hpage]
  push_cast
  ring_nf

/-- The first page. -/
theorem pageOf_first (hpage : page.value = 1) (hsize : size.value < tooLarge) :
    (pageOf l (.text page) (.text size)).data = l.take size.value := by
  obtain ⟨stop, hdata, hstop | ⟨-, hlarge⟩⟩ := pageOf_from (l := l) (start_eq hpage Nat.two_pos hsize)
  · rw [hdata, hstop]
    simp only [Nat.zero_mul, Nat.zero_add, List.drop_zero, Nat.sub_zero]
    exact List.take_eq_take_min.symm
  · rw [Nat.zero_mul, Nat.zero_mul, Nat.zero_add] at hlarge
    exact absurd hsize (not_lt.mpr hlarge)

/-- **The second page** goes on to eleven times the size and more. -/
theorem pageOf_second (hpage : page.value = 2) (hpos : 1 ≤ size.value) (hsize : size.value < tooLarge) :
    ∃ stop, (pageOf l (.text page) (.text size)).data = (l.drop size.value).take (stop - size.value) ∧
      min (2 * size.value + 1) l.length ≤ stop := by
  obtain ⟨stop, hdata, hstop⟩ := pageOf_from (l := l) (start_eq hpage Nat.one_lt_two hsize)
  rw [Nat.one_mul] at hdata hstop
  refine ⟨stop, hdata, ?_⟩
  have hten : 10 ≤ 10 ^ size.digits.length :=
    Nat.le_self_pow (List.length_pos_iff.mpr size.ne_nil).ne' 10
  have hlarge : 2 * size.value + 1 ≤ size.value * 10 ^ size.digits.length + size.value := by
    have hmul : size.value * 10 ≤ size.value * 10 ^ size.digits.length := Nat.mul_le_mul_left _ hten
    omega
  rcases hstop with rfl | ⟨rfl, -⟩
  · exact min_le_min_right _ hlarge
  · exact min_le_right _ _

/-- With a size that is read as `Infinity`, every page is empty. -/
theorem pageOf_infinite (hpos : 1 ≤ page.value) (hsize : tooLarge ≤ size.value) :
    (pageOf l (.text page) (.text size)).data = [] := by
  have hinfinite : ofDigits size.digits = .infinity false := if_neg (not_lt.mpr hsize)
  have hstop : ∀ start : PageNumber, start = .nan ∨ start = .infinity false → plus start (.text size) = .nan := by
    rintro start (rfl | rfl)
    · exact ofText_word "aN".toList size.digits (by decide : 'N' ≠ '-') (by decide)
    · exact ofText_word "nfinity".toList size.digits (by decide : 'I' ≠ '-') (by decide)
  have hstart : (QueryValue.toNumber (.text page)).pred.mul (QueryValue.toNumber (.text size)) = .nan ∨
      (QueryValue.toNumber (.text page)).pred.mul (QueryValue.toNumber (.text size)) = .infinity false := by
    rw [toNumber_text, toNumber_text, hinfinite]
    unfold ofDigits
    split
    · have hpositive : ¬ ((digitsValue page.digits : ℤ) - 1 < 0) := by
        have hvalue : 1 ≤ digitsValue page.digits := hpos
        omega
      simp only [pred, mul, hpositive, decide_false, Bool.xor_false]
      split
      · exact Or.inl rfl
      · exact Or.inr rfl
    · exact Or.inr rfl
  unfold pageOf
  dsimp only
  rw [hstop _ hstart]
  unfold slice
  exact List.take_eq_nil_iff.mpr (Or.inl (Nat.zero_sub _))

/-! ### One list -/

/-- **One list** is paged iff it has at most two pages. -/
theorem pageOf_paged_iff {pages : ℕ → DecimalText} (hpages : ∀ k, (pages k).value = k) (hpos : 1 ≤ size.value) :
    Paged (fun k => (pageOf l (.text (pages k)) (.text size)).data) size.value l ↔ TwoPages size.value l.length := by
  by_cases hsize : size.value < tooLarge
  · obtain ⟨stop, hsecond, hstop⟩ := pageOf_second (l := l) (hpages 2) hpos hsize
    have hfirst := pageOf_first (l := l) (hpages 1) hsize
    unfold Paged TwoPages
    constructor
    · rintro ⟨-, hsizes⟩
      refine ⟨?_, Or.inl hsize⟩
      by_contra hmore
      have hcount : 2 < pageCount l.length size.value := by
        refine (Nat.le_div_iff_mul_le hpos).mpr ?_
        omega
      have hlength := hsizes 2 (by omega) hcount
      dsimp only at hlength
      rw [hsecond, List.length_take, List.length_drop] at hlength
      omega
    · rintro ⟨htwo, -⟩
      have hrest : (pageOf l (.text (pages 2)) (.text size)).data = l.drop size.value := by
        rw [hsecond]
        refine List.take_of_length_le ?_
        rw [List.length_drop]
        omega
      have hcount : pageCount l.length size.value ≤ 2 := by
        refine Nat.le_of_lt_succ ((Nat.div_lt_iff_lt_mul hpos).mpr ?_)
        omega
      refine ⟨?_, fun k hk hlt => ?_⟩
      · rcases Nat.lt_or_ge size.value l.length with hlong | hshort
        · have htwice : pageCount l.length size.value = 2 := by
            refine le_antisymm hcount ((Nat.le_div_iff_mul_le hpos).mpr ?_)
            omega
          rw [htwice]
          show (pageOf l _ _).data ++ ((pageOf l _ _).data ++ []) = l
          rw [hfirst, hrest, List.append_nil, List.take_append_drop]
        · rcases Nat.eq_zero_or_pos l.length with hzero | hsome
          · rw [hzero, pageCount_zero hpos, List.length_eq_zero_iff.mp hzero]
            rfl
          · have honce : pageCount l.length size.value = 1 := by
              refine le_antisymm (Nat.le_of_lt_succ ((Nat.div_lt_iff_lt_mul hpos).mpr ?_))
                ((Nat.le_div_iff_mul_le hpos).mpr ?_)
              · omega
              · omega
            rw [honce]
            show (pageOf l _ _).data ++ [] = l
            rw [hfirst, List.append_nil, List.take_of_length_le hshort]
      · obtain rfl : k = 1 := by omega
        dsimp only
        rw [hfirst, List.length_take]
        have hlong : 1 < pageCount l.length size.value := hlt
        have hle : 2 * size.value ≤ l.length + size.value - 1 := (Nat.le_div_iff_mul_le hpos).mp hlong
        omega
  · have hempty : ∀ k, (pageOf l (.text (pages (k + 1))) (.text size)).data = [] := fun k =>
      pageOf_infinite (by rw [hpages]; exact Nat.le_add_left 1 k) (not_lt.mp hsize)
    unfold Paged TwoPages
    simp only [hempty, hsize, false_or]
    constructor
    · rintro ⟨hconcat, -⟩
      have hnil : l = [] := hconcat.symm.trans (List.flatMap_eq_nil_iff.mpr fun _ _ => rfl)
      rw [hnil]
      exact ⟨Nat.zero_le _, rfl⟩
    · rintro ⟨-, hnil⟩
      rw [hnil, pageCount_zero hpos, List.length_eq_zero_iff.mp hnil]
      exact ⟨rfl, fun k hk hlt => absurd hlt (Nat.not_lt_zero k)⟩

end Pages

/-! ### The three lists -/

/-- **The exact condition.**  For lists of any length and every size of at least 1, with the pages and the size as
decimal texts: the pages of the rules, of the alerts and of the notifications are the list without gaps or repeats,
all but the last of the size, iff there are at most two of them. -/
theorem lists_paged_iff {N : Type*} {size : DecimalText} {pages : ℕ → DecimalText} (hpages : ∀ k, (pages k).value = k)
    (hpos : 1 ≤ size.value) (rules : List StoredRule) (m : AlertMemory) (s : Notifications N) :
    (Paged (fun k => (AlertsController.listRules (some (pages k)) (some size) rules).data) size.value rules ↔
      TwoPages size.value rules.length) ∧
    (Paged (fun k => (AlertsController.getAlertHistory (some (pages k)) (some size) m).data) size.value m.history ↔
      TwoPages size.value m.history.length) ∧
    (Paged (fun k => (NotificationsController.getHistory (some (pages k)) (some size) s).data) size.value s.history ↔
      TwoPages size.value s.history.length) :=
  ⟨pageOf_paged_iff hpages hpos, pageOf_paged_iff hpages hpos, pageOf_paged_iff hpages hpos⟩

/-! ### Three pages -/

theorem toDigits_decimal (n : ℕ) : ∀ c ∈ Nat.toDigits 10 n, c.isDigit = true :=
  fun _ hc => Nat.isDigit_of_mem_toDigits (by omega) (by omega) hc

theorem toDigits_ne (n : ℕ) : Nat.toDigits 10 n ≠ [] := Nat.toDigits_ne_nil

def decimalOf (n : ℕ) : DecimalText where
  digits := Nat.toDigits 10 n
  ne_nil := toDigits_ne n
  decimal := toDigits_decimal n

theorem value_decimalOf (n : ℕ) : (decimalOf n).value = n := digitsValue_toDigits n

/-- The default rules in pages of two. -/
theorem lists_paged_iff_default :
    (Paged (fun k => (AlertsController.listRules (some (decimalOf k)) (some (decimalOf 2)) initialRules).data)
        (decimalOf 2).value initialRules ↔ TwoPages (decimalOf 2).value initialRules.length) ∧
    (Paged (fun k => (AlertsController.getAlertHistory (some (decimalOf k)) (some (decimalOf 2)) ⟨[], [], []⟩).data)
        (decimalOf 2).value ([] : List StoredRule) ↔ TwoPages (decimalOf 2).value 0) ∧
    (Paged (fun k => (NotificationsController.getHistory (some (decimalOf k)) (some (decimalOf 2))
          freshNotifications).data)
        (decimalOf 2).value ([] : List (NotificationRecord ℚ)) ↔ TwoPages (decimalOf 2).value 0) :=
  lists_paged_iff value_decimalOf (by rw [value_decimalOf]; omega) initialRules ⟨[], [], []⟩ freshNotifications

/-- **The four default rules one by one**: the second page goes on to the end. -/
theorem second_page_runs_on :
    (AlertsController.listRules (some (decimalOf 2)) (some (decimalOf 1)) initialRules).data.length = 3 ∧
    ¬ Paged (fun k => (AlertsController.listRules (some (decimalOf k)) (some (decimalOf 1)) initialRules).data)
        (decimalOf 1).value initialRules := by
  have hthree : (AlertsController.listRules (some (decimalOf 2)) (some (decimalOf 1)) initialRules).data.length = 3 := by
    decide +kernel
  refine ⟨hthree, fun h => ?_⟩
  have hlength := h.2 2 (by omega) (by decide +kernel)
  dsimp only at hlength
  rw [hthree, value_decimalOf] at hlength
  exact absurd hlength (by decide)

end EdgeSphere.Notification
