import EdgeSphere.Library.Buffer

/-!
# Entities and exceptions of the auth-service

The rows the service reads and writes, cut down to the columns its logic reads, and the exceptions it
throws with their texts.  Ids and digests are `Ident`s: texts that cannot hold the `:` that separates
the parts of a key or of a refresh token.
-/

namespace EdgeSphere.Auth

open EdgeSphere.Library

/-- The characters of UUIDs and hex digests, and some more. -/
def plainChar (c : Char) : Bool := c.isAlphanum || decide (c = '-')

/-- A text made of such characters. -/
def Plain (text : String) : Prop := ∀ c ∈ text.toList, plainChar c = true

/-- A UUID or a hex digest. -/
structure Ident where
  text : String
  plain : text.toList.all plainChar = true
  deriving DecidableEq

@[ext] theorem Ident.ext {i j : Ident} (h : i.text = j.text) : i = j := by
  cases i; cases j; cases h; rfl

theorem Ident.isPlain (i : Ident) : Plain i.text := List.all_eq_true.mp i.plain

theorem Plain.no_colon {text : String} (h : Plain text) : ':' ∉ text.toList := fun hmem =>
  absurd (h ':' hmem) (by decide)

theorem plainChar_lt {c : Char} (h : plainChar c = true) : c.toNat < 128 := by
  simp only [plainChar, Bool.or_eq_true, decide_eq_true_eq, Char.isAlphanum, Char.isAlpha,
    Char.isUpper, Char.isLower, Char.isDigit, Bool.and_eq_true, UInt32.le_iff_toNat_le] at h
  rcases h with ((⟨-, hle⟩ | ⟨-, hle⟩) | ⟨-, hle⟩) | rfl
  · show c.val.toNat < 128
    exact Nat.lt_of_le_of_lt hle (by decide)
  · show c.val.toNat < 128
    exact Nat.lt_of_le_of_lt hle (by decide)
  · show c.val.toNat < 128
    exact Nat.lt_of_le_of_lt hle (by decide)
  · decide

theorem Plain.ascii {text : String} (h : Plain text) : Buffer.Ascii text.toList := fun c hc =>
  plainChar_lt (h c hc)

inductive UserRole where
  | user
  | admin
  deriving DecidableEq, Repr

/-- A row of `users`. -/
structure UserEntity where
  id : Ident
  email : String
  passwordHash : Option String
  role : UserRole
  isActive : Bool
  deriving DecidableEq

/-- A row of `api_keys`. -/
structure ApiKeyEntity where
  id : String
  userId : String
  name : String
  keyHash : String
  keyPrefix : String
  deriving DecidableEq, Repr

/-- What a method rejects with; `thrown` is an error of the runtime or of a dependency. -/
inductive Exception where
  | unauthorized (message : String)
  | conflict (message : String)
  | notFound (message : String)
  | thrown (name : String)
  deriving DecidableEq, Repr

end EdgeSphere.Auth
