import SceneEdit.Number.Layout

/-!
# Tokens

A token is an untyped value as callers send it: a JSON value whose objects keep the order of their
entries. Whole numbers are exact; every other number is a 64-bit float.

`Token.weight` is a lower bound for the length of a token's text. It is the measure on which
conversions recurse, since a text that holds a document weighs more than the document.
-/

namespace SceneEdit

/-- A number token. -/
inductive Number where
  | whole (value : Int)
  | real (value : Double)
  deriving DecidableEq

namespace Number

/-- Number tokens are written positionally for exponents from −5 to 15, always with a fraction,
and otherwise with a signed exponent. -/
def layout : NumberLayout := ⟨.even, fun e => decide (-5 ≤ e ∧ e ≤ 15), ".0", "+"⟩

def text : Number → String
  | whole i => toString i
  | real x => layout.write x

/-- The nearest 64-bit float. -/
def toDouble : Number → Double
  | whole i => Binary.ofInt .double i
  | real x => x

end Number

/-- An untyped value. -/
inductive Token where
  | null
  | bool (value : Bool)
  | num (value : Number)
  | str (text : String)
  | arr (items : List Token)
  | obj (entries : List (String × Token))

namespace Token

instance : Inhabited Token := ⟨null⟩

def int (i : Int) : Token := num (.whole i)

def nat (n : Nat) : Token := num (.whole n)

/-- A component as a token; what is not finite becomes null. -/
def component (x : Single) : Token := if x.isFinite then num (.real x.widen) else null

/-- A wide float as a token; what is not finite becomes null. -/
def float (x : Double) : Token := if x.isFinite then num (.real x) else null

def isNull : Token → Bool
  | null => true
  | _ => false

mutual

/-- A lower bound for the length of a token's text. -/
def weight : Token → Nat
  | null => 1
  | bool _ => 1
  | num _ => 1
  | str text => text.length + 2
  | arr items => 1 + itemsWeight items
  | obj entries => 1 + entriesWeight entries

def itemsWeight : List Token → Nat
  | [] => 0
  | item :: rest => 1 + weight item + itemsWeight rest

def entriesWeight : List (String × Token) → Nat
  | [] => 0
  | (_, value) :: rest => 1 + weight value + entriesWeight rest

end

theorem entriesWeight_cons (entry : String × Token) (rest : List (String × Token)) :
    entriesWeight (entry :: rest) = 1 + entry.2.weight + entriesWeight rest := by
  cases entry; rfl

theorem weight_pos (t : Token) : 0 < t.weight := by
  cases t <;> simp only [weight] <;> omega

end Token

/-- The entries of an object token: keys with values, in order. -/
abbrev Entries := List (String × Token)

namespace Entries

/-- The value under a key. -/
def get? (entries : Entries) (key : String) : Option Token :=
  (entries.find? fun entry => entry.1 == key).map Prod.snd

/-- Entries with a value stored under a key: in place if the key is present, else at the end. -/
def insert : Entries → String → Token → Entries
  | [], key, value => [(key, value)]
  | (k, v) :: rest, key, value =>
    if k = key then (k, value) :: rest else (k, v) :: insert rest key value

/-- Entries from pairs in order; a repeated key keeps its first place and its last value. -/
def ofPairs (pairs : Entries) : Entries := pairs.foldl (fun es (k, v) => es.insert k v) []

/-- Entries with further ones stored in order. -/
def extend (entries more : Entries) : Entries := more.foldl (fun es (k, v) => es.insert k v) entries

def keys (entries : Entries) : List String := entries.map Prod.fst

theorem weight_insert_le (entries : Entries) (key : String) (value : Token) :
    Token.entriesWeight (entries.insert key value) ≤
      Token.entriesWeight entries + 1 + value.weight := by
  induction entries with
  | nil => simp [insert, Token.entriesWeight]
  | cons entry rest ih =>
    obtain ⟨k, v⟩ := entry
    unfold insert
    split <;> simp only [Token.entriesWeight] <;> omega

theorem weight_extend_le (entries more : Entries) :
    Token.entriesWeight (entries.extend more) ≤
      Token.entriesWeight entries + Token.entriesWeight more := by
  induction more generalizing entries with
  | nil => simp [extend, Token.entriesWeight]
  | cons entry rest ih =>
    obtain ⟨k, v⟩ := entry
    have step := weight_insert_le entries k v
    have tail := ih (entries.insert k v)
    simp only [extend, List.foldl_cons, Token.entriesWeight] at tail ⊢
    omega

theorem weight_ofPairs_le (pairs : Entries) :
    Token.entriesWeight (ofPairs pairs) ≤ Token.entriesWeight pairs := by
  have bound := weight_extend_le [] pairs
  simpa [ofPairs, extend, Token.entriesWeight] using bound

end Entries
end SceneEdit
