import SchemaApi.Token.Lexer
/-!
Phrases: sequences of words that are one keyword.

`merge` goes through the raw tokens from left to right and puts the longest phrase that begins at a
word into one token. To see whether a phrase follows it reads ahead as far as the longest phrase
with that first word goes; a fault met on the way breaks the stream off before the word.
-/

namespace SchemaApi

open Text

namespace TokenStream

/-- up to `n` tokens from the head of a stream, or the fault met among them -/
def lookAhead : Nat → TokenStream → Except LexError (List Token)
  | 0, _ => .ok []
  | _ + 1, done => .ok []
  | _ + 1, failed e => .error e
  | n + 1, token t rest =>
    match rest.lookAhead n with
    | .ok ts => .ok (t :: ts)
    | .error e => .error e

end TokenStream

/-- an unquoted word that reads, in upper case, as the given one -/
def Token.spells (t : Token) (word : String) : Bool :=
  t.isWord && !t.quoted && upper t.text == word

/-- the words of a phrase stand at the head of a list of tokens -/
def phraseAt : List String → List Token → Bool
  | [], _ => true
  | _ :: _, [] => false
  | word :: words, t :: ts => t.spells word && phraseAt words ts

/-- the phrases that a token may begin, longest first -/
def phrasesAt (d : Dialect) (t : Token) : List (List String) :=
  if t.isWord && !t.quoted then d.phrasesStarting t.text else []

/-- The one keyword for a run of words. Its text reaches from the first word to the last. -/
def phraseToken (text : List Char) (first last : Token) (words : List Token) : Token :=
  { kind := .keyword
    text := slice text first.position.offset last.stop
    value := " ".intercalate (words.map fun w => upper w.text)
    position := first.position }

/-- The tokens of a script from its raw ones. The first argument counts the raw tokens that
already belong to the phrase before. -/
def mergeFrom (d : Dialect) (text : List Char) : Nat → TokenStream → TokenStream
  | _, .done => .done
  | _, .failed e => .failed e
  | skip + 1, .token _ rest => mergeFrom d text skip rest
  | 0, .token t rest =>
    match phrasesAt d t with
    | [] => .token t (mergeFrom d text 0 rest)
    | longest :: shorter =>
      match (TokenStream.token t rest).lookAhead longest.length with
      | .error e => .failed e
      | .ok window =>
        match (longest :: shorter).find? (phraseAt · window) with
        | none => .token t (mergeFrom d text 0 rest)
        | some phrase =>
          let words := window.take phrase.length
          .token (phraseToken text t (words.getLastD t) words)
            (mergeFrom d text (phrase.length - 1) rest)

/-- the tokens of a script, phrases merged -/
def merge (d : Dialect) (text : List Char) (raw : TokenStream) : TokenStream :=
  mergeFrom d text 0 raw

/-- the tokens of a script -/
def tokenize (d : Dialect) (text : List Char) : TokenStream := merge d text (scan d text)

end SchemaApi
