import Mathlib

/-!
# JSON values as JavaScript reads them

A document is what `JSON.parse` returns; the number type is a parameter.  An object is the list of
its properties, in order and without repeated names.

* `prop` — property access: on `null` it throws, on anything that is no object it is `undefined`;
* `truthy`, `firstTruthy` — truth of a value, and `a || b || c`;
* `StoredText` — a stored text seen through `JSON.parse`.
-/

namespace EdgeSphere.Library

variable {N : Type*}

inductive Json (N : Type*) where
  | null
  | bool (b : Bool)
  | num (n : N)
  | str (s : String)
  | arr (elems : List (Json N))
  | obj (fields : List (String × Json N))

namespace Json

/-- `value.name` for a name that is no built-in property: `none` is the `TypeError` on `null`, `some
none` is `undefined`. -/
def prop (name : String) : Json N → Option (Option (Json N))
  | null => none
  | obj fields => some (fields.lookup name)
  | _ => some none

/-- `value.name === text`, with the access itself not throwing. -/
def propIs (name text : String) (j : Json N) : Bool :=
  match j.prop name with
  | some (some (str s)) => decide (s = text)
  | _ => false

/-- `Boolean(value)`. -/
def truthy [Zero N] [DecidableEq N] : Json N → Bool
  | null => false
  | bool b => b
  | num n => decide (n ≠ 0)
  | str s => decide (s ≠ "")
  | arr _ => true
  | obj _ => true

/-- `a || b || c`, where the first two may be `undefined`. -/
def firstTruthy [Zero N] [DecidableEq N] (a b : Option (Json N)) (c : Json N) : Json N :=
  match a.filter truthy, b.filter truthy with
  | some j, _ => j
  | none, some j => j
  | none, none => c

/-- The choice is the first value exactly if that is truthy, provided the last one is. -/
theorem firstTruthy_eq_iff [Zero N] [DecidableEq N] {a b : Option (Json N)} {c : Json N}
    (hc : c.truthy = true) : a = some (firstTruthy a b c) ↔ ∃ j, a = some j ∧ j.truthy = true := by
  have htruthy : (firstTruthy a b c).truthy = true := by
    unfold firstTruthy
    split
    · rename_i heq
      exact (Option.filter_eq_some_iff.mp heq).2
    · rename_i heq
      exact (Option.filter_eq_some_iff.mp heq).2
    · exact hc
  constructor
  · intro h
    exact ⟨_, h, htruthy⟩
  · intro ⟨j, hj, hjtrue⟩
    have hfilter : a.filter truthy = some j := Option.filter_eq_some_iff.mpr ⟨hj, hjtrue⟩
    unfold firstTruthy
    rw [hfilter, hj]

end Json

/-- A stored text: a document, or a text `JSON.parse` rejects (the empty one among them). -/
inductive StoredText (N : Type*) where
  | document (j : Json N)
  | garbage

end EdgeSphere.Library
