import EdgeSphere.Library.ParseInt
import Mathlib.Data.List.Sort
import Mathlib.Order.WithBot

/-!
# Statements with placeholders

A fragment of SQL, from the text to the rows: `SELECT` with a condition, an order, a limit and an offset, and the number
of rows that meet a condition.

* `parse` — the statement a text stands for, with its placeholders `$1`, `$2`, …;
* `Select.bind` — the statement with the values of the parameters in their places; there must be one for each;
* `Condition.truth` — true, false or unknown; a row is selected if its condition is true (`truth_and`, `truth_or`,
  `truth_conj`);
* `Select.Answers` — the answers a database may give: where keys are equal, the order is its own;
* `Select.run` — one of them, computed (`run_answers`).
-/

namespace EdgeSphere.Library.Sql

abbrev Text := List Char

/-! ### Values and statements -/

/-- What a column or a parameter holds.  `other` is a value of another type, by what `::text` makes of it. -/
inductive Value where
  | null
  | text (t : String)
  | int (n : ℤ)
  | instant (n : ℤ)
  | bool (b : Bool)
  | other (shown asText : String)
  deriving DecidableEq, Repr

inductive Expr where
  | column (name : Text)
  | param (i : ℕ)
  | literal (v : Value)
  | asText (e : Expr)
  deriving DecidableEq, Repr

inductive Comparison where
  | equal
  | less
  | atLeast
  | ilike
  deriving DecidableEq, Repr

inductive Condition where
  | compare (op : Comparison) (l r : Expr)
  | and (l r : Condition)
  | or (l r : Condition)
  deriving DecidableEq, Repr

/-- What is selected: the rows, or their number as an integer under a name. -/
inductive Target where
  | rows
  | count (name : Text)
  deriving DecidableEq, Repr

structure Select where
  target : Target
  table : Text
  filter : Option Condition
  /-- The column of `ORDER BY … DESC`. -/
  descending : Option Text
  limit : Option Expr
  offset : Option Expr
  deriving DecidableEq, Repr

/-! ### From texts to statements -/

inductive Token where
  | word (w : Text)
  | param (i : ℕ)
  | symbol (s : Text)
  deriving DecidableEq, Repr

def isWordChar (c : Char) : Bool := c.isAlphanum || c = '_'

def isOperatorChar (c : Char) : Bool := "+-*/<>=~!@#%^&|?".toList.contains c

/-- Words are read without their case; the first argument bounds the number of tokens. -/
def lex : ℕ → Text → Option (List Token)
  | _, [] => some []
  | 0, _ => none
  | n + 1, c :: cs =>
    if isWhitespace c then lex n cs
    else if c.isAlpha || c = '_' then
      (lex n (cs.dropWhile isWordChar)).map (.word ((c :: cs.takeWhile isWordChar).map Char.toLower) :: ·)
    else if c = '$' then
      if cs.takeWhile Char.isDigit = [] then none
      else (lex n (cs.dropWhile Char.isDigit)).map (.param (digitsValue (cs.takeWhile Char.isDigit)) :: ·)
    else if c = '(' || c = ')' then (lex n cs).map (.symbol [c] :: ·)
    else if c = ':' then
      match cs with
      | ':' :: rest => (lex n rest).map (.symbol [':', ':'] :: ·)
      | _ => none
    else if isOperatorChar c then
      (lex n (cs.dropWhile isOperatorChar)).map (.symbol (c :: cs.takeWhile isOperatorChar) :: ·)
    else none

/-- A column or a parameter, and perhaps `::text`. -/
def parseExpr (tokens : List Token) : Option (Expr × List Token) :=
  let operand : Option (Expr × List Token) := match tokens with
    | .word w :: rest => some (.column w, rest)
    | .param i :: rest => some (.param i, rest)
    | _ => none
  operand.bind fun out => match out.2 with
    | .symbol [':', ':'] :: .word w :: rest => if w = "text".toList then some (.asText out.1, rest) else none
    | rest => some (out.1, rest)

def parseComparison : List Token → Option (Comparison × List Token)
  | .symbol s :: rest =>
    if s = ['='] then some (.equal, rest)
    else if s = ['<'] then some (.less, rest)
    else if s = ['>', '='] then some (.atLeast, rest)
    else none
  | .word w :: rest => if w = "ilike".toList then some (.ilike, rest) else none
  | _ => none

/-- `AND` binds tighter than `OR`. -/
inductive Level where
  | disjunction
  | conjunction
  | atom

def parseCondition : ℕ → Level → List Token → Option (Condition × List Token)
  | 0, _, _ => none
  | n + 1, .disjunction, tokens =>
    (parseCondition n .conjunction tokens).bind fun l => match l.2 with
      | .word w :: rest =>
        if w = "or".toList then (parseCondition n .disjunction rest).map fun r => (.or l.1 r.1, r.2) else some l
      | _ => some l
  | n + 1, .conjunction, tokens =>
    (parseCondition n .atom tokens).bind fun l => match l.2 with
      | .word w :: rest =>
        if w = "and".toList then (parseCondition n .conjunction rest).map fun r => (.and l.1 r.1, r.2) else some l
      | _ => some l
  | n + 1, .atom, .symbol ['('] :: tokens =>
    (parseCondition n .disjunction tokens).bind fun inner => match inner.2 with
      | .symbol [')'] :: rest => some (inner.1, rest)
      | _ => none
  | _ + 1, .atom, tokens =>
    (parseExpr tokens).bind fun l => (parseComparison l.2).bind fun op =>
      (parseExpr op.2).map fun r => (.compare op.1 l.1 r.1, r.2)

/-- The next tokens, if they are these words. -/
def expect : List Text → List Token → Option (List Token)
  | [], tokens => some tokens
  | w :: ws, .word v :: tokens => if v = w then expect ws tokens else none
  | _ :: _, _ => none

/-- `*`, or `COUNT(*)::integer as` a name. -/
def parseTarget : List Token → Option (Target × List Token)
  | .symbol ['*'] :: rest => some (.rows, rest)
  | .word w :: .symbol ['('] :: .symbol ['*'] :: .symbol [')'] :: .symbol [':', ':'] :: .word type :: .word as :: .word name ::
      rest =>
    if w = "count".toList ∧ type = "integer".toList ∧ as = "as".toList then some (.count name, rest) else none
  | _ => none

/-- A clause that may be missing: it starts with these words. -/
def clause {α : Type} (words : List Text) (body : List Token → Option (α × List Token)) (tokens : List Token) :
    Option (Option α × List Token) :=
  match expect words tokens with
  | none => some (none, tokens)
  | some rest => (body rest).map fun out => (some out.1, out.2)

/-- The column of `ORDER BY`, with `DESC`. -/
def parseDescending : List Token → Option (Text × List Token)
  | .word name :: .word w :: rest => if w = "desc".toList then some (name, rest) else none
  | _ => none

/-- The statement a text stands for. -/
def parse (text : Text) : Option Select := do
  let tokens ← lex text.length text
  let tokens ← expect ["select".toList] tokens
  let (target, tokens) ← parseTarget tokens
  let tokens ← expect ["from".toList] tokens
  match tokens with
  | .word table :: tokens =>
    let (filter, tokens) ← clause ["where".toList] (parseCondition (3 * tokens.length) .disjunction) tokens
    let (descending, tokens) ← clause ["order".toList, "by".toList] parseDescending tokens
    let (limit, tokens) ← clause ["limit".toList] parseExpr tokens
    let (offset, tokens) ← clause ["offset".toList] parseExpr tokens
    if tokens = [] then some { target, table, filter, descending, limit, offset } else none
  | _ => none

/-! ### Parameters in their places -/

/-- The value of the parameter `$i`; they are counted from 1. -/
def paramValue (params : List Value) : ℕ → Option Value
  | 0 => none
  | i + 1 => params[i]?

def Expr.bind (params : List Value) : Expr → Option Expr
  | param i => (paramValue params i).map literal
  | asText e => (e.bind params).map asText
  | e => some e

def Condition.bind (params : List Value) : Condition → Option Condition
  | compare op l r => do return compare op (← l.bind params) (← r.bind params)
  | and l r => do return and (← l.bind params) (← r.bind params)
  | or l r => do return or (← l.bind params) (← r.bind params)

/-- The number of the last placeholder. -/
def Expr.lastParam : Expr → ℕ
  | param i => i
  | asText e => e.lastParam
  | _ => 0

def Condition.lastParam : Condition → ℕ
  | compare _ l r => max l.lastParam r.lastParam
  | and l r | or l r => max l.lastParam r.lastParam

namespace Select

def lastParam (stmt : Select) : ℕ :=
  max ((stmt.filter.map Condition.lastParam).getD 0)
    (max ((stmt.limit.map Expr.lastParam).getD 0) ((stmt.offset.map Expr.lastParam).getD 0))

/-- Bind an optional part. -/
def bindPart {α : Type} (bind : α → Option α) : Option α → Option (Option α)
  | none => some none
  | some a => (bind a).map some

/-- The statement with its parameters in their places; there is one parameter for each placeholder. -/
def bind (params : List Value) (stmt : Select) : Option Select :=
  if stmt.lastParam ≠ params.length then none
  else do
    let filter ← bindPart (Condition.bind params) stmt.filter
    let limit ← bindPart (Expr.bind params) stmt.limit
    let offset ← bindPart (Expr.bind params) stmt.offset
    return { stmt with filter, limit, offset }

end Select

/-! ### Truth -/

/-- A row, as what its columns hold. -/
abbrev Record := Text → Option Value

/-- `::text`. -/
def Value.toText : Value → Value
  | null => null
  | text t => text t
  | int n => text (toString n)
  | instant n => text (toString n)
  | bool b => text (toString b)
  | other _ t => text t

def Expr.value (row : Record) : Expr → Value
  | column name => (row name).getD .null
  | literal v => v
  | param _ => .null
  | asText e => (e.value row).toText

/-- `AND` of three truth values; `none` is unknown. -/
def and3 : Option Bool → Option Bool → Option Bool
  | some false, _ | _, some false => some false
  | some true, some true => some true
  | _, _ => none

/-- `OR` of three truth values. -/
def or3 : Option Bool → Option Bool → Option Bool
  | some true, _ | _, some true => some true
  | some false, some false => some false
  | _, _ => none

section Truth

-- `ilike` is the matching of the database, whose cases depend on its locale
variable (ilike : String → String → Bool)

/-- Comparing with `NULL`, like a comparison that the types do not allow, has no truth value. -/
def Comparison.truth : Comparison → Value → Value → Option Bool
  | equal, .text a, .text b => some (decide (a = b))
  | equal, .int a, .int b => some (decide (a = b))
  | less, .int a, .int b => some (decide (a < b))
  | atLeast, .int a, .int b => some (decide (b ≤ a))
  | .ilike, .text a, .text b => some (ilike a b)
  | _, _, _ => none

def Condition.truth (row : Record) : Condition → Option Bool
  | compare op l r => op.truth ilike (l.value row) (r.value row)
  | and l r => and3 (l.truth row) (r.truth row)
  | or l r => or3 (l.truth row) (r.truth row)

/-- The row is selected. -/
def Condition.selects (row : Record) (c : Condition) : Bool := decide (c.truth ilike row = some true)

/-- No condition selects every row. -/
def Select.selects (stmt : Select) (row : Record) : Bool := stmt.filter.all (Condition.selects ilike row)

end Truth

theorem and3_eq_true {a b : Option Bool} : and3 a b = some true ↔ a = some true ∧ b = some true := by
  revert a b
  decide

theorem or3_eq_true {a b : Option Bool} : or3 a b = some true ↔ a = some true ∨ b = some true := by
  revert a b
  decide

/-- A comparison with a truth value selects as it says. -/
theorem decide_some_eq (b : Bool) : decide (some b = some true) = b := by cases b <;> rfl

/-- Conditions joined by `AND`. -/
def Condition.all : List Condition → Option Condition
  | [] => none
  | c :: cs => match all cs with
    | none => some c
    | some rest => some (c.and rest)

section Selects

variable {ilike : String → String → Bool} {row : Record}

theorem selects_and {l r : Condition} :
    (Condition.and l r).selects ilike row = (l.selects ilike row && r.selects ilike row) := by
  rw [Bool.eq_iff_iff, Bool.and_eq_true]
  unfold Condition.selects
  rw [decide_eq_true_iff, decide_eq_true_iff, decide_eq_true_iff]
  exact and3_eq_true

theorem selects_or {l r : Condition} :
    (Condition.or l r).selects ilike row = (l.selects ilike row || r.selects ilike row) := by
  rw [Bool.eq_iff_iff, Bool.or_eq_true]
  unfold Condition.selects
  rw [decide_eq_true_iff, decide_eq_true_iff, decide_eq_true_iff]
  exact or3_eq_true

/-- A row meets conditions joined by `AND` if it meets each of them. -/
theorem selects_all {stmt : Select} {cs : List Condition} (h : stmt.filter = Condition.all cs) :
    stmt.selects ilike row = cs.all (Condition.selects ilike row) := by
  unfold Select.selects
  rw [h]
  clear h
  induction cs with
  | nil => rfl
  | cons c cs ih =>
    rw [List.all_cons, ← ih]
    cases hrest : Condition.all cs with
    | none =>
      have hall : Condition.all (c :: cs) = some c := by rw [Condition.all, hrest]
      rw [hall]
      exact (Bool.and_true _).symm
    | some rest =>
      have hall : Condition.all (c :: cs) = some (c.and rest) := by rw [Condition.all, hrest]
      rw [hall]
      exact selects_and

end Selects

/-! ### Answers -/

/-- What `ORDER BY` goes by: `NULL` comes after all instants and integers. -/
def Value.orderKey : Value → WithTop ℤ
  | instant n | int n => (n : WithTop ℤ)
  | _ => ⊤

/-- The number a `LIMIT` or an `OFFSET` is given. -/
def Expr.count? : Expr → Option ℕ
  | literal (.int n) => if 0 ≤ n then some n.toNat else none
  | _ => none

/-- The part of the rows that `OFFSET` and `LIMIT` leave. -/
def Select.slice {ρ : Type*} (stmt : Select) (rows : List ρ) : Option (List ρ) :=
  let skip : Option ℕ := match stmt.offset with
    | none => some 0
    | some e => e.count?
  skip.bind fun skip => match stmt.limit with
    | none => some (rows.drop skip)
    | some e => e.count?.map fun limit => (rows.drop skip).take limit

/-- A row with one column. -/
def single (name : Text) (v : Value) : Record := fun column => if column = name then some v else none

section Answers

variable {ρ : Type*} (ilike : String → String → Bool) (record : ρ → Record)

/-- What a row is ordered by. -/
def sortKey (name : Text) (row : ρ) : WithTop ℤ := ((record row name).getD .null).orderKey

/-- The rows stand in the order the statement asks for. -/
def Select.Ordered (stmt : Select) (rows : List ρ) : Prop :=
  ∀ name, stmt.descending = some name → rows.Pairwise fun a b => sortKey record name b ≤ sortKey record name a

/-- **What a database may answer** to a bound statement about a table with these rows. -/
def Select.Answers (stmt : Select) (rows : List ρ) (out : List Record) : Prop :=
  let selected := rows.filter fun row => stmt.selects ilike (record row)
  match stmt.target with
  | .rows => ∃ ordered part, ordered.Perm selected ∧ stmt.Ordered record ordered ∧ stmt.slice ordered = some part ∧
    out = part.map record
  | .count name => stmt.slice [single name (.int selected.length)] = some out

/-- The columns an expression, a condition or a statement names. -/
def Expr.columns : Expr → List Text
  | column name => [name]
  | asText e => e.columns
  | _ => []

def Condition.columns : Condition → List Text
  | compare _ l r => l.columns ++ r.columns
  | and l r | or l r => l.columns ++ r.columns

def Select.columns (stmt : Select) : List Text :=
  ((stmt.filter.map Condition.columns).getD []) ++ stmt.descending.toList

/-- **What a database promises** of a table with these columns: whenever it answers a statement of the fragment, with a
parameter for each placeholder, it answers as the statement says.  It may fail, and refuse what is out of its range. -/
def Conforms {ε : Type*} (query : Text → List Value → Except ε (List Record)) (table : Text) (columns : List Text)
    (rows : List ρ) : Prop :=
  ∀ text params stmt bound out, parse text = some stmt → stmt.table = table → (∀ name ∈ stmt.columns, name ∈ columns) →
    stmt.bind params = some bound → query text params = .ok out → bound.Answers ilike record rows out

/-- Put rows in the order the statement asks for. -/
def Select.sort (stmt : Select) (rows : List ρ) : List ρ :=
  match stmt.descending with
  | none => rows
  | some name => rows.insertionSort fun a b => sortKey record name b ≤ sortKey record name a

/-- Answer a bound statement. -/
def Select.run (stmt : Select) (rows : List ρ) : Option (List Record) :=
  let selected := rows.filter fun row => stmt.selects ilike (record row)
  match stmt.target with
  | .rows => (stmt.slice (stmt.sort record selected)).map fun part => part.map record
  | .count name => stmt.slice [single name (.int selected.length)]

theorem sort_perm (stmt : Select) (rows : List ρ) : (stmt.sort record rows).Perm rows := by
  unfold Select.sort
  split
  · exact List.Perm.refl _
  · exact List.perm_insertionSort _ _

theorem sort_ordered (stmt : Select) (rows : List ρ) : stmt.Ordered record (stmt.sort record rows) := by
  intro name hname
  unfold Select.sort
  rw [hname]
  have : Std.Total fun a b : ρ => sortKey record name b ≤ sortKey record name a := ⟨fun a b => le_total _ _⟩
  have : IsTrans ρ fun a b => sortKey record name b ≤ sortKey record name a := ⟨fun a b c hab hbc => hbc.trans hab⟩
  exact List.pairwise_insertionSort _ rows

/-- **What is computed is an answer.** -/
theorem run_answers {stmt : Select} {rows : List ρ} {out : List Record} (h : stmt.run ilike record rows = some out) :
    stmt.Answers ilike record rows out := by
  unfold Select.run at h
  unfold Select.Answers
  dsimp only at h ⊢
  split at h
  · obtain ⟨part, hslice, rfl⟩ := Option.map_eq_some_iff.mp h
    exact ⟨_, part, sort_perm record stmt _, sort_ordered record stmt _, hslice, rfl⟩
  · exact h

/-- A database with one table. -/
def reference (table : Text) (rows : List ρ) (text : Text) (params : List Value) : Except String (List Record) :=
  match parse text with
  | none => .error "syntax error"
  | some stmt =>
    if stmt.table ≠ table then .error "relation does not exist"
    else match stmt.bind params with
      | none => .error "wrong number of parameters"
      | some bound => match bound.run ilike record rows with
        | none => .error "invalid LIMIT or OFFSET"
        | some out => .ok out

theorem reference_conforms (table : Text) (columns : List Text) (rows : List ρ) :
    Conforms ilike record (reference ilike record table rows) table columns rows := by
  intro text params stmt bound out hparse htable _ hbind hquery
  unfold reference at hquery
  rw [hparse] at hquery
  simp only [if_neg (not_not.mpr htable), hbind] at hquery
  cases hrun : bound.run ilike record rows with
  | none =>
    rw [hrun] at hquery
    cases hquery
  | some answer =>
    rw [hrun] at hquery
    cases hquery
    exact run_answers ilike record hrun

end Answers

/-- A natural number is a count. -/
theorem count_natCast (n : ℕ) : (Expr.literal (.int n)).count? = some n := by
  show (if (0 : ℤ) ≤ (n : ℤ) then some (n : ℤ).toNat else none) = some n
  rw [if_pos (Int.natCast_nonneg n), Int.toNat_natCast]

end EdgeSphere.Library.Sql
