import EdgeSphere.Library.Buffer

/-!
# Glob patterns of a key-value server

`MATCH` compares bytes: `*` stands for any bytes, `?` for one, `[…]` for one of a set, and a backslash takes
the next byte literally.  A pattern is read into tokens first (`tokens`), which are then matched
(`Token.matchAll`); the bound on nested stars is left out.

* `tokens_literal` — a byte that is no special one stands for itself;
* `globMatch_star_iff` — two such texts around a star match what begins with the one and ends with the other;
* `not_globMatch_of_ne` — a pattern that begins with such a byte matches no key that begins with another;
* `matchAll_self` — bytes that open no set and escape nothing match themselves, stars and question marks too.
-/

namespace EdgeSphere.Library.Glob

open EdgeSphere.Library.Buffer

inductive Token where
  | star
  | any
  | set (negated : Bool) (ranges : List (Byte × Byte))
  | literal (b : Byte)
  deriving DecidableEq, Repr

/-- The ranges of the set after `[` or `[^`, and the pattern after the `]` that ends it. -/
def readSet : List Byte → List (Byte × Byte) × List Byte
  | [] => ([], [])
  | [a] => if a = 93 then ([], []) else ([(a, a)], [])
  | [a, b] =>
    if a = 92 then ([(b, b)], [])
    else if a = 93 then ([], [b])
    else ((a, a) :: (readSet [b]).1, (readSet [b]).2)
  | a :: b :: c :: rest =>
    if a = 92 then ((b, b) :: (readSet (c :: rest)).1, (readSet (c :: rest)).2)
    else if a = 93 then ([], b :: c :: rest)
    else if b = 45 then ((a, c) :: (readSet rest).1, (readSet rest).2)
    else ((a, a) :: (readSet (b :: c :: rest)).1, (readSet (b :: c :: rest)).2)

theorem length_readSet_le (pattern : List Byte) : (readSet pattern).2.length ≤ pattern.length := by
  induction pattern using readSet.induct with
  | case1 => exact Nat.le_refl 0
  | case2 => simp [readSet]
  | case3 a h => simp [readSet, h]
  | case4 b => simp [readSet]
  | case5 b h => simp [readSet]
  | case6 a b h h' ih =>
    simp only [readSet, if_neg h, if_neg h'] at ih ⊢
    exact Nat.le_succ_of_le ih
  | case7 b c rest ih =>
    simp only [readSet, if_true]
    simp only [List.length_cons] at ih ⊢
    omega
  | case8 b c rest h => simp [readSet]
  | case9 a c rest h h' ih =>
    simp only [readSet, if_neg h, if_neg h', if_true, List.length_cons]
    omega
  | case10 a b c rest h h' h'' ih =>
    simp only [readSet, if_neg h, if_neg h', if_neg h'']
    simp only [List.length_cons] at ih ⊢
    omega

/-- The tokens of a pattern. -/
def tokens : List Byte → List Token
  | [] => []
  | b :: rest =>
    if b = 42 then .star :: tokens rest
    else if b = 63 then .any :: tokens rest
    else if b = 91 then
      if rest.head? = some 94 then
        have := length_readSet_le rest.tail
        .set true (readSet rest.tail).1 :: tokens (readSet rest.tail).2
      else
        have := length_readSet_le rest
        .set false (readSet rest).1 :: tokens (readSet rest).2
    else if b = 92 then
      match rest with
      | [] => [.literal 92]
      | c :: rest => .literal c :: tokens rest
    else .literal b :: tokens rest
termination_by pattern => pattern.length
decreasing_by all_goals simp_all <;> omega

/-- The byte is one the token stands for. -/
def Token.accepts (b : Byte) : Token → Bool
  | star => false
  | any => true
  | set negated ranges => (ranges.any fun r => decide (r.1 ≤ b ∧ b ≤ r.2) || decide (r.2 ≤ b ∧ b ≤ r.1)) != negated
  | literal c => decide (b = c)

def Token.matchAll : List Token → List Byte → Bool
  | [], text => text.isEmpty
  | star :: pattern, text => text.tails.any fun text => matchAll pattern text
  | _ :: _, [] => false
  | token :: pattern, b :: text => token.accepts b && matchAll pattern text

/-- `MATCH pattern` for a key that is not empty. -/
def globMatch (pattern key : String) : Bool :=
  Token.matchAll (tokens (encodeUtf8 pattern.toList)) (encodeUtf8 key.toList)

/-- A byte that is no special one stands for itself. -/
theorem tokens_literal {b : Byte} (hstar : b ≠ 42) (hany : b ≠ 63) (hset : b ≠ 91) (hslash : b ≠ 92)
    (rest : List Byte) : tokens (b :: rest) = .literal b :: tokens rest := by
  rw [tokens.eq_def]
  simp only [if_neg hstar, if_neg hany, if_neg hset, if_neg hslash]

/-- No special byte. -/
def Plain (b : Byte) : Prop := b ≠ 42 ∧ b ≠ 63 ∧ b ≠ 91 ∧ b ≠ 92

instance (b : Byte) : Decidable (Plain b) := inferInstanceAs (Decidable (_ ∧ _))

theorem tokens_plain {bs : List Byte} (h : ∀ b ∈ bs, Plain b) (rest : List Byte) :
    tokens (bs ++ rest) = bs.map .literal ++ tokens rest := by
  induction bs with
  | nil => rfl
  | cons b bs ih =>
    obtain ⟨⟨hstar, hany, hset, hslash⟩, hbs⟩ := List.forall_mem_cons.mp h
    rw [List.cons_append, tokens_literal hstar hany hset hslash, ih hbs]
    rfl

theorem tokens_star (rest : List Byte) : tokens (42 :: rest) = .star :: tokens rest := by
  rw [tokens.eq_def]
  simp only [if_true]

/-- Bytes that stand for themselves. -/
theorem matchAll_literals (bs : List Byte) (pattern : List Token) (text : List Byte) :
    Token.matchAll (bs.map .literal ++ pattern) text = true ↔
      ∃ rest, text = bs ++ rest ∧ Token.matchAll pattern rest = true := by
  induction bs generalizing text with
  | nil => exact ⟨fun h => ⟨text, rfl, h⟩, fun ⟨rest, htext, h⟩ => by rw [htext]; exact h⟩
  | cons b bs ih =>
    cases text with
    | nil => exact ⟨fun h => (by cases h), fun ⟨rest, htext, _⟩ => (by cases htext)⟩
    | cons c text =>
      show (decide (c = b) && Token.matchAll (bs.map .literal ++ pattern) text) = true ↔ _
      rw [Bool.and_eq_true, decide_eq_true_eq, ih]
      constructor
      · rintro ⟨rfl, rest, rfl, h⟩
        exact ⟨rest, rfl, h⟩
      · rintro ⟨rest, htext, h⟩
        obtain ⟨rfl, rfl⟩ := List.cons.inj htext
        exact ⟨rfl, rest, rfl, h⟩

theorem matchAll_star (pattern : List Token) (text : List Byte) :
    Token.matchAll (.star :: pattern) text = true ↔
      ∃ before after, text = before ++ after ∧ Token.matchAll pattern after = true := by
  show (text.tails.any fun text => Token.matchAll pattern text) = true ↔ _
  rw [List.any_eq_true]
  constructor
  · rintro ⟨after, hafter, h⟩
    obtain ⟨before, rfl⟩ := (List.mem_tails _ _).mp hafter
    exact ⟨before, after, rfl, h⟩
  · rintro ⟨before, after, rfl, h⟩
    exact ⟨after, (List.mem_tails _ _).mpr (List.suffix_append before after), h⟩

/-! ### Bytes that match themselves -/

/-- The byte opens no set and escapes nothing. -/
def Unset (b : Byte) : Prop := b ≠ 91 ∧ b ≠ 92

instance (b : Byte) : Decidable (Unset b) := inferInstanceAs (Decidable (_ ∧ _))

/-- What such a byte stands for. -/
def byteToken (b : Byte) : Token := if b = 42 then .star else if b = 63 then .any else .literal b

theorem tokens_unset {bs : List Byte} (h : ∀ b ∈ bs, Unset b) (rest : List Byte) :
    tokens (bs ++ rest) = bs.map byteToken ++ tokens rest := by
  induction bs with
  | nil => rfl
  | cons b bs ih =>
    obtain ⟨⟨hset, hslash⟩, hbs⟩ := List.forall_mem_cons.mp h
    rw [List.cons_append, List.map_cons, List.cons_append, ← ih hbs, tokens.eq_def, byteToken]
    by_cases hstar : b = 42
    · simp only [if_pos hstar]
    · by_cases hany : b = 63
      · simp only [if_neg hstar, if_pos hany]
      · simp only [if_neg hstar, if_neg hany, if_neg hset, if_neg hslash]

/-- **Such bytes match themselves.** -/
theorem matchAll_self (bs : List Byte) {pattern : List Token} {text : List Byte}
    (h : Token.matchAll pattern text = true) : Token.matchAll (bs.map byteToken ++ pattern) (bs ++ text) = true := by
  induction bs with
  | nil => exact h
  | cons b bs ih =>
    rw [List.map_cons, List.cons_append, List.cons_append]
    by_cases hstar : b = 42
    · rw [byteToken, if_pos hstar]
      exact (matchAll_star _ _).mpr ⟨[b], _, rfl, ih⟩
    · have hone : ∀ token : Token, token ≠ .star → token.accepts b = true →
          Token.matchAll (token :: (bs.map byteToken ++ pattern)) (b :: (bs ++ text)) = true := by
        intro token hne haccepts
        cases token with
        | star => exact absurd rfl hne
        | any => exact ih
        | set negated ranges => exact Bool.and_eq_true_iff.mpr ⟨haccepts, ih⟩
        | literal c => exact Bool.and_eq_true_iff.mpr ⟨haccepts, ih⟩
      rw [byteToken, if_neg hstar]
      by_cases hany : b = 63
      · rw [if_pos hany]
        exact hone _ (by decide) rfl
      · rw [if_neg hany]
        exact hone _ (fun heq => by cases heq) (decide_eq_true rfl)

/-- A star at the end takes what is left. -/
theorem matchAll_star_end (text : List Byte) : Token.matchAll [.star] text = true :=
  (matchAll_star _ _).mpr ⟨text, [], (List.append_nil text).symm, rfl⟩

/-- A last token that is no star takes the last byte. -/
theorem matchAll_last {token : Token} (hne : token ≠ .star) {pattern : List Token} {text : List Byte}
    (h : Token.matchAll (pattern ++ [token]) text = true) :
    ∃ before b, text = before ++ [b] ∧ token.accepts b = true := by
  induction pattern generalizing text with
  | nil =>
    cases text with
    | nil => cases token <;> first | exact absurd rfl hne | cases h
    | cons b text =>
      have hboth : (token.accepts b && Token.matchAll [] text) = true := by
        cases token <;> first | exact absurd rfl hne | exact h
      obtain ⟨haccepts, hend⟩ := Bool.and_eq_true_iff.mp hboth
      exact ⟨[], b, by rw [List.isEmpty_iff.mp hend, List.nil_append], haccepts⟩
  | cons first pattern ih =>
    by_cases hstar : first = .star
    · subst hstar
      obtain ⟨before, after, rfl, hafter⟩ := (matchAll_star _ _).mp h
      obtain ⟨middle, b, rfl, haccepts⟩ := ih hafter
      exact ⟨before ++ middle, b, (List.append_assoc _ _ _).symm, haccepts⟩
    · cases text with
      | nil => cases first <;> first | exact absurd rfl hstar | cases h
      | cons c text =>
        have hboth : (first.accepts c && Token.matchAll (pattern ++ [token]) text) = true := by
          cases first <;> first | exact absurd rfl hstar | exact h
        obtain ⟨before, b, rfl, haccepts⟩ := ih (Bool.and_eq_true_iff.mp hboth).2
        exact ⟨c :: before, b, rfl, haccepts⟩

/-- A bracket or a backslash makes the star after it an ordinary byte. -/
theorem tokens_open_star : tokens [91, 42] = [.set false [(42, 42)]] ∧ tokens [92, 42] = [.literal 42] := by
  constructor
  · simp [tokens.eq_def, readSet]
  · simp [tokens.eq_def]

/-! ### A star in a pattern -/

/-- **A star between two plain texts.** -/
theorem globMatch_star_iff {pattern key : String} {start finish : List Byte}
    (hpattern : encodeUtf8 pattern.toList = start ++ 42 :: finish) (hstart : ∀ b ∈ start, Plain b)
    (hfinish : ∀ b ∈ finish, Plain b) :
    globMatch pattern key = true ↔ ∃ middle, encodeUtf8 key.toList = start ++ (middle ++ finish) := by
  have hempty : ∀ text : List Byte, Token.matchAll [] text = true ↔ text = [] := fun _ => List.isEmpty_iff
  have htokens : tokens finish = finish.map .literal ++ [] := by
    have hall := tokens_plain hfinish []
    rw [List.append_nil, show tokens [] = [] by rw [tokens.eq_def]] at hall
    exact hall
  unfold globMatch
  rw [hpattern, tokens_plain hstart, tokens_star, htokens, matchAll_literals]
  constructor
  · rintro ⟨rest, hkey, hrest⟩
    obtain ⟨middle, after, rfl, hafter⟩ := (matchAll_star _ _).mp hrest
    obtain ⟨last, rfl, hlast⟩ := (matchAll_literals _ _ _).mp hafter
    rw [(hempty last).mp hlast, List.append_nil] at hkey
    exact ⟨middle, hkey⟩
  · rintro ⟨middle, hkey⟩
    refine ⟨middle ++ finish, hkey, (matchAll_star _ _).mpr ⟨middle, finish, rfl, ?_⟩⟩
    exact (matchAll_literals _ _ _).mpr ⟨[], (List.append_nil _).symm, rfl⟩

/-- **A first byte that differs** rules a match out. -/
theorem not_globMatch_of_ne {pattern key : String} {b c : Byte} {rest text : List Byte}
    (hpattern : encodeUtf8 pattern.toList = b :: rest) (hkey : encodeUtf8 key.toList = c :: text)
    (hstar : b ≠ 42) (hany : b ≠ 63) (hset : b ≠ 91) (hslash : b ≠ 92) (hne : c ≠ b) :
    globMatch pattern key = false := by
  unfold globMatch
  rw [hpattern, hkey, tokens_literal hstar hany hset hslash]
  show (decide (c = b) && _) = false
  rw [decide_eq_false hne, Bool.false_and]

end EdgeSphere.Library.Glob
