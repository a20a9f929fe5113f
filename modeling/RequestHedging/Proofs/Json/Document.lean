import RequestHedging.Json.Token

/-!
# JSON values

A JSON value with all that is in it, and the tokens of the texts that it is written as.  The order
of members counts, and a key may stand in an object more than once.
-/

namespace RequestHedging.Json

inductive Value
  | scalar (s : Scalar)
  | array (elements : List Value)
  | object (members : List (List Char × Value))

namespace Value

mutual

def tokens : Value → List Token
  | scalar s => [.scalar s]
  | array [] => [.openBracket, .closeBracket]
  | array (v :: elements) => .openBracket :: (v.tokens ++ moreElements elements)
  | object [] => [.openBrace, .closeBrace]
  | object ((key, v) :: members) =>
    .openBrace :: .scalar (.text key) :: .colon :: (v.tokens ++ moreMembers members)

def moreElements : List Value → List Token
  | [] => [.closeBracket]
  | v :: elements => .comma :: (v.tokens ++ moreElements elements)

def moreMembers : List (List Char × Value) → List Token
  | [] => [.closeBrace]
  | (key, v) :: members =>
    .comma :: .scalar (.text key) :: .colon :: (v.tokens ++ moreMembers members)

end

theorem exists_tokens_array (elements : List Value) :
    ∃ rest, (array elements).tokens = .openBracket :: rest := by
  cases elements with
  | nil => exact ⟨_, rfl⟩
  | cons v elements => exact ⟨_, rfl⟩

theorem exists_tokens_object (members : List (List Char × Value)) :
    ∃ rest, (object members).tokens = .openBrace :: rest := by
  cases members with
  | nil => exact ⟨_, rfl⟩
  | cons m members => exact ⟨_, rfl⟩

end Value

/-- A text that a value is written as, with whatever spaces and escapes. -/
def Writes (text : List Char) (v : Value) : Prop := tokens text = v.tokens

end RequestHedging.Json
