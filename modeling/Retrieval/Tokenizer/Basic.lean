import Retrieval.Text.Utf8

/-!
# Tokenizers

A tokenizer cuts a text into tokens and reads tokens back as text. Nothing else is asked of it: the
chunker works with any pair of functions. Here are the pair and the simple ones; each of them reads
its own tokens back as the text they came from.
-/

namespace Retrieval

/-- A pair of functions between texts and lists of tokens. -/
structure Tokenizer where
  Token : Type
  encode : Text → List Token
  decode : List Token → Text

namespace Tokenizer

/-- How many tokens a text costs; the empty text costs nothing. -/
def count (tok : Tokenizer) (t : Text) : Nat :=
  if t.isEmpty then 0 else (tok.encode t).length

/-- One token for each code point. -/
def codePoint : Tokenizer where
  Token := Nat
  encode := Text.codePoints
  decode := Text.ofCodePoints

/-- One token for each byte. -/
def byte : Tokenizer where
  Token := UInt8
  encode := Utf8.encode
  decode bytes := Text.ofCodePoints (Utf8.decode bytes)

/-- One token for each `n` code points in a row. -/
def block (n : Nat) : Tokenizer where
  Token := List Nat
  encode t := groupsOf n t.codePoints
  decode tokens := Text.ofCodePoints tokens.flatten

/-- The longest word of the vocabulary that stands at the front, else the first code point. -/
def longestMatch (vocabulary : List (List Nat)) (c : Nat) (rest : List Nat) : List Nat :=
  vocabulary.foldl
    (fun best w => if best.length < w.length && w.isPrefixOf (c :: rest) then w else best) [c]

/-- The words of the vocabulary and single code points that make up a run of code points. -/
def words (vocabulary : List (List Nat)) : List Nat → List (List Nat)
  | [] => []
  | c :: rest =>
    let word := longestMatch vocabulary c rest
    word :: words vocabulary (rest.drop (word.length - 1))
termination_by cs => cs.length
decreasing_by simp only [List.length_drop, List.length_cons]; omega

/-- At each position the longest word of the vocabulary that stands there, else one code point. -/
def greedy (vocabulary : List Text) : Tokenizer where
  Token := List Nat
  encode t := words (vocabulary.map Text.codePoints) t.codePoints
  decode tokens := Text.ofCodePoints tokens.flatten

/-- The same tokens with one more at the end that reads back as nothing. -/
def withEnd (tok : Tokenizer) : Tokenizer where
  Token := Option tok.Token
  encode t := (tok.encode t).map some ++ [none]
  decode tokens := tok.decode (tokens.filterMap id)

end Tokenizer
end Retrieval
