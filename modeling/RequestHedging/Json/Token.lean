import RequestHedging.Binary64
import RequestHedging.Text.Numeral

/-!
# JSON tokens

A JSON text as a list of tokens.  Scalars are tokens with their values; a text that
stops being JSON at some place ends in the token `broken` there, so that all before it
can still be read.
-/

namespace RequestHedging.Json

structure Numeral where
  negative : Bool
  whole : List Char
  /-- The digits after the point, if there is one. -/
  fraction : Option (List Char)
  /-- The power of ten, if one is written. -/
  power : Option Int
deriving DecidableEq

namespace Numeral

/-- The number as a whole number from zero up, if it is written as one. -/
def natural? (n : Numeral) : Option Nat :=
  if n.negative || n.fraction.isSome || n.power.isSome then none
  else some (Text.numeralValue n.whole)

/-- The significant digits and the power of ten of the last of them: zeros in front, and at the
end of a fraction, do not count. -/
def significant (n : Numeral) : List Char × Int :=
  let fraction := ((n.fraction.getD []).reverse.dropWhile (· == '0')).reverse
  ((n.whole ++ fraction).dropWhile (· == '0'), n.power.getD 0 - fraction.length)

/-- The most significant digits that count one by one.  A point halfway between two doubles
has no more than these, but for zeros at the end. -/
def mostSignificant : Nat := 768

/-- The digits cut to `mostSignificant`.  What is cut off, be it only zeros of a whole number, is
taken for a single one, so that the number stands above the digits that are kept. -/
def cut (n : Numeral) : List Char × Int :=
  let (digits, place) := n.significant
  if mostSignificant < digits.length then
    (digits.take mostSignificant ++ ['1'], place + (digits.length - (mostSignificant + 1) : Nat))
  else (digits, place)

def double? (n : Numeral) : Option Binary64 :=
  Binary64.ofDecimal? n.negative (Text.numeralValue n.cut.1) n.cut.2

end Numeral

/-- A value that holds no others. -/
inductive Scalar
  | null
  | bool (b : Bool)
  | number (n : Numeral)
  | text (s : List Char)
deriving DecidableEq

inductive Token
  | openBrace
  | closeBrace
  | openBracket
  | closeBracket
  | colon
  | comma
  | scalar (s : Scalar)
  | broken
deriving DecidableEq

def isSpace (c : Char) : Bool := c = ' ' || c = '\n' || c = '\t' || c = '\r'

/-! ## Texts -/

/-- A piece of a quoted text: a character, or a UTF-16 unit written in hexadecimal. -/
inductive Piece
  | char (c : Char)
  | unit (n : Nat)

def hexDigit? (c : Char) : Option Nat :=
  if '0' ≤ c ∧ c ≤ '9' then some (c.toNat - '0'.toNat)
  else if 'a' ≤ c ∧ c ≤ 'f' then some (c.toNat - 'a'.toNat + 10)
  else if 'A' ≤ c ∧ c ≤ 'F' then some (c.toNat - 'A'.toNat + 10)
  else none

def hexUnit? (a b c d : Char) : Option Nat := do
  some ((((← hexDigit? a) * 16 + (← hexDigit? b)) * 16 + (← hexDigit? c)) * 16 + (← hexDigit? d))

def escaped? (c : Char) : Option Char :=
  if c = '"' ∨ c = '\\' ∨ c = '/' then some c
  else if c = 'b' then some '\x08'
  else if c = 'f' then some '\x0c'
  else if c = 'n' then some '\n'
  else if c = 'r' then some '\r'
  else if c = 't' then some '\t'
  else none

def readPieces : List Char → Option (List Piece × List Char)
  | [] => none
  | '"' :: rest => some ([], rest)
  | '\\' :: 'u' :: a :: b :: c :: d :: rest =>
    match hexUnit? a b c d, readPieces rest with
    | some n, some (pieces, rest) => some (.unit n :: pieces, rest)
    | _, _ => none
  | '\\' :: e :: rest =>
    match escaped? e, readPieces rest with
    | some c, some (pieces, rest) => some (.char c :: pieces, rest)
    | _, _ => none
  | c :: rest =>
    if c.toNat < 0x20 ∨ c = '\\' then none
    else (readPieces rest).map fun (pieces, rest) => (.char c :: pieces, rest)

/-- Joins pieces to a text.  The two halves of a pair of units must stand together. -/
def joinPieces : List Piece → Option (List Char)
  | [] => some []
  | .char c :: rest => (joinPieces rest).map (c :: ·)
  | .unit high :: .unit low :: rest =>
    if 0xD800 ≤ high ∧ high < 0xDC00 then
      if 0xDC00 ≤ low ∧ low < 0xE000 then
        (joinPieces rest).map
          (Char.ofNat (0x10000 + (high - 0xD800) * 0x400 + (low - 0xDC00)) :: ·)
      else none
    else if 0xDC00 ≤ high ∧ high < 0xE000 then none
    else (joinPieces (.unit low :: rest)).map (Char.ofNat high :: ·)
  | .unit n :: rest =>
    if 0xD800 ≤ n ∧ n < 0xE000 then none else (joinPieces rest).map (Char.ofNat n :: ·)

/-- Reads a text whose first quotation mark has been read. -/
def readText (text : List Char) : Option (Token × List Char) := do
  let (pieces, rest) ← readPieces text
  let s ← joinPieces pieces
  some (.scalar (.text s), rest)

/-! ## Numbers -/

def readDigits (text : List Char) : Option (List Char × List Char) :=
  let (digits, rest) := Text.spanDigits text
  if digits.isEmpty then none else some (digits, rest)

def readFraction (text : List Char) : Option (Option (List Char) × List Char) :=
  match text with
  | '.' :: rest => (readDigits rest).map fun (digits, rest) => (some digits, rest)
  | _ => some (none, text)

def unsigned (text : List Char) : Bool × List Char :=
  match text with
  | '-' :: rest => (true, rest)
  | _ => (false, text)

def signed (text : List Char) : Bool × List Char :=
  match text with
  | '+' :: rest => (false, rest)
  | _ => unsigned text

def readPower (text : List Char) : Option (Option Int × List Char) :=
  match text with
  | c :: rest =>
    if c = 'e' ∨ c = 'E' then
      (readDigits (signed rest).2).map fun (digits, after) =>
        let n : Int := Text.numeralValue digits
        (some (if (signed rest).1 then -n else n), after)
    else some (none, text)
  | [] => some (none, [])

def readNumber (text : List Char) : Option (Token × List Char) := do
  let (whole, rest) ← readDigits (unsigned text).2
  if 1 < whole.length ∧ whole.head? = some '0' then none
  else
    let (fraction, rest) ← readFraction rest
    let (power, rest) ← readPower rest
    some (.scalar (.number ⟨(unsigned text).1, whole, fraction, power⟩), rest)

/-! ## Tokens -/

def readWord (text : List Char) : Option (Token × List Char) :=
  match text with
  | 't' :: 'r' :: 'u' :: 'e' :: rest => some (.scalar (.bool true), rest)
  | 'f' :: 'a' :: 'l' :: 's' :: 'e' :: rest => some (.scalar (.bool false), rest)
  | 'n' :: 'u' :: 'l' :: 'l' :: rest => some (.scalar .null, rest)
  | _ => none

def readToken (text : List Char) : Option (Token × List Char) :=
  match text with
  | '\x7b' :: rest => some (.openBrace, rest)
  | '\x7d' :: rest => some (.closeBrace, rest)
  | '[' :: rest => some (.openBracket, rest)
  | ']' :: rest => some (.closeBracket, rest)
  | ':' :: rest => some (.colon, rest)
  | ',' :: rest => some (.comma, rest)
  | '"' :: rest => readText rest
  | _ => (readWord text).or (readNumber text)

theorem length_readPieces {text rest : List Char} {pieces : List Piece}
    (h : readPieces text = some (pieces, rest)) : rest.length < text.length := by
  fun_induction readPieces text generalizing pieces rest with
  | case1 => cases h
  | case2 r => cases h; simp
  | case3 a b c d r n ps r' hr _ ih =>
    cases h
    have := ih hr
    simp only [List.length_cons]
    omega
  | case4 => cases h
  | case5 e r hne c ps r' hr _ ih =>
    cases h
    have := ih hr
    simp only [List.length_cons]
    omega
  | case6 => cases h
  | case7 => cases h
  | case8 c r _ _ _ _ ih =>
    obtain ⟨⟨ps, r'⟩, hp, he⟩ := Option.map_eq_some_iff.1 h
    cases he
    have := ih hp
    simp only [List.length_cons]
    omega

theorem length_unsigned (text : List Char) : (unsigned text).2.length ≤ text.length := by
  unfold unsigned
  split <;> simp

theorem length_signed (text : List Char) : (signed text).2.length ≤ text.length := by
  unfold signed
  split
  · simp
  · exact length_unsigned text

theorem length_readDigits {text digits rest : List Char}
    (h : readDigits text = some (digits, rest)) : rest.length < text.length := by
  unfold readDigits Text.spanDigits at h
  dsimp only at h
  split at h
  · cases h
  · rename_i hne
    cases h
    have hl := congrArg List.length
      (List.takeWhile_append_dropWhile (p := Char.isDigit) (l := text))
    rw [List.length_append] at hl
    have : 0 < (text.takeWhile Char.isDigit).length :=
      List.length_pos_iff.2 fun hn => hne (by rw [hn]; rfl)
    omega

theorem length_readFraction {text rest : List Char} {f : Option (List Char)}
    (h : readFraction text = some (f, rest)) : rest.length ≤ text.length := by
  unfold readFraction at h
  split at h
  · obtain ⟨⟨ds, r⟩, hd, he⟩ := Option.map_eq_some_iff.1 h
    cases he
    have := length_readDigits hd
    simp only [List.length_cons]
    omega
  · cases h
    exact Nat.le_refl _

theorem length_readPower {text rest : List Char} {p : Option Int}
    (h : readPower text = some (p, rest)) : rest.length ≤ text.length := by
  unfold readPower at h
  split at h
  · rename_i c r
    split at h
    · obtain ⟨⟨ds, r'⟩, hd, he⟩ := Option.map_eq_some_iff.1 h
      cases he
      have hs := length_readDigits hd
      have : (signed r).2.length ≤ r.length := length_signed r
      simp only [List.length_cons]
      omega
    · cases h
      exact Nat.le_refl _
  · cases h
    exact Nat.le_refl _

theorem length_readNumber {text rest : List Char} {t : Token}
    (h : readNumber text = some (t, rest)) : rest.length < text.length := by
  simp only [readNumber, Option.bind_eq_bind, Option.bind_eq_some_iff] at h
  obtain ⟨⟨whole, r₁⟩, hw, h⟩ := h
  have h₁ := length_readDigits hw
  have h₀ : (unsigned text).2.length ≤ text.length := length_unsigned text
  split at h
  · cases h
  · obtain ⟨⟨f, r₂⟩, hf, h⟩ := Option.bind_eq_some_iff.1 h
    obtain ⟨⟨p, r₃⟩, hp, h⟩ := Option.bind_eq_some_iff.1 h
    cases h
    have h₂ : r₂.length ≤ r₁.length := length_readFraction hf
    have h₃ : r₃.length ≤ r₂.length := length_readPower hp
    show r₃.length < text.length
    omega

theorem length_readText {text rest : List Char} {t : Token}
    (h : readText text = some (t, rest)) : rest.length < text.length := by
  obtain ⟨⟨ps, r⟩, hp, h⟩ := Option.bind_eq_some_iff.1 h
  obtain ⟨s, _, h⟩ := Option.bind_eq_some_iff.1 h
  cases h
  exact length_readPieces hp

theorem length_readWord {text rest : List Char} {t : Token}
    (h : readWord text = some (t, rest)) : rest.length < text.length := by
  unfold readWord at h
  split at h <;> cases h <;> simp <;> omega

/-- A token takes at least one character. -/
theorem length_readToken {text rest : List Char} {t : Token}
    (h : readToken text = some (t, rest)) : rest.length < text.length := by
  unfold readToken at h
  split at h
  case h_7 r =>
    have := length_readText h
    simp only [List.length_cons]
    omega
  case h_8 =>
    rcases hw : readWord text with _ | ⟨t', r'⟩
    · rw [hw] at h
      exact length_readNumber h
    · rw [hw] at h
      cases h
      exact length_readWord hw
  all_goals
    cases h
    simp

def skipSpaces (text : List Char) : List Char := text.dropWhile isSpace

theorem length_skipSpaces (text : List Char) : (skipSpaces text).length ≤ text.length :=
  (List.dropWhile_suffix isSpace).length_le

def tokens (text : List Char) : List Token :=
  if (skipSpaces text).isEmpty then []
  else
    match _h : readToken (skipSpaces text) with
    | none => [.broken]
    | some (t, rest) => t :: tokens rest
termination_by text.length
decreasing_by
  have := length_readToken _h
  have := length_skipSpaces text
  omega

end RequestHedging.Json
