import SchemaApi.Proofs.Token.Bundle
/-!
What tokens stand for, by their characters.

A mark stands for itself, and a keyword of one word for that word in capitals. The value of any other token may be far
from its characters: delimiters and escapes are taken off, and phrases pass over what stands between their words.
-/

namespace SchemaApi

open Text

/-- a mark stands for itself, and a keyword for its letters in capitals unless it is of several words -/
structure Token.AsWritten (t : Token) : Prop where
  mark : t.kind = .punctuation → t.value = t.text
  keyword : t.kind = .keyword → t.value = upper t.text ∨ t.isPhrase = true

/-- the same of a piece at the head of a text -/
def Piece.AsWritten (cs : List Char) : Piece → Prop
  | .lexeme kind value _ size =>
    (kind = .punctuation → value = String.ofList (cs.take size)) ∧
      (kind = .keyword → value = upper (String.ofList (cs.take size)))
  | _ => True

section
variable {d : Dialect} {c : Char} {cs all : List Char}

/-- nothing is said of the characters of other tokens -/
theorem Piece.AsWritten.of_kind {kind : TokenKind} {value : String} {isQuoted : Bool} {size : Nat}
    (other : kind ≠ .punctuation ∧ kind ≠ .keyword) : (Piece.lexeme kind value isQuoted size).AsWritten all :=
  ⟨fun isMark => absurd isMark other.1, fun isKeyword => absurd isKeyword other.2⟩

theorem stringPiece_asWritten (lead : Nat) (quote : Char) (escapes : Bool) :
    (stringPiece lead quote escapes cs).AsWritten all := by
  unfold stringPiece
  split
  · exact .of_kind (by decide)
  · exact trivial

theorem wordPiece_asWritten : (wordPiece d c cs).AsWritten (c :: cs) := by
  simp only [wordPiece]
  split
  · exact stringPiece_asWritten ..
  · split
    · exact ⟨fun isMark => absurd isMark (by decide), fun _ => rfl⟩
    · exact .of_kind (by decide)

theorem symbolPiece_asWritten : (symbolPiece c cs).AsWritten (c :: cs) := by
  unfold symbolPiece
  split
  · exact .of_kind (by decide)
  · constructor
    · intro _
      exact String.singleton_eq_ofList
    · intro isKeyword
      split_ifs at isKeyword

theorem lexemePiece_asWritten : (lexemePiece d c cs).AsWritten (c :: cs) := by
  unfold lexemePiece
  split
  · unfold identifierPiece
    split
    · exact .of_kind (by decide)
    · exact trivial
  · split_ifs
    · exact stringPiece_asWritten ..
    · unfold dollarPiece
      split
      · exact .of_kind (by decide)
      · simp only
        split
        · exact .of_kind (by decide)
        · exact trivial
    · simp only [numberPiece]
      split_ifs
      · exact trivial
      · exact .of_kind (by decide)
    · exact wordPiece_asWritten
    · exact symbolPiece_asWritten

theorem pieceAt_asWritten : (pieceAt d c cs).AsWritten (c :: cs) := by
  unfold pieceAt
  cases found : triviaPiece? d c cs with
  | none => exact lexemePiece_asWritten
  | some piece =>
    simp only [triviaPiece?] at found
    split_ifs at found
    · rw [← Option.some.inj found]; exact trivial
    · rw [← Option.some.inj found]; exact trivial
    · split at found <;> (rw [← Option.some.inj found]; exact trivial)

theorem asWritten_of_mem_scanFrom {skip : Nat} {p : Position} {t : Token}
    (h : t ∈ (scanFrom d skip p cs).toList) : t.AsWritten := by
  induction cs generalizing skip p with
  | nil => simp [scanFrom, TokenStream.toList] at h
  | cons c cs ih =>
    cases skip with
    | succ skip => exact ih h
    | zero =>
      have own := @pieceAt_asWritten d c cs
      rw [scanFrom] at h
      cases piece : pieceAt d c cs with
      | fault what => simp [piece, TokenStream.toList] at h
      | trivia n =>
        rw [piece] at h
        exact ih h
      | lexeme kind value isQuoted n =>
        rw [piece] at h own
        rcases List.mem_cons.1 h with rfl | h
        · exact ⟨own.1, fun isKeyword => Or.inl (own.2 isKeyword)⟩
        · exact ih h

end

theorem asWritten_of_mem_tokenize {d : Dialect} {text : List Char} (complete : (tokenize d text).error? = none)
    {t : Token} (h : t ∈ (tokenize d text).toList) : t.AsWritten := by
  obtain ⟨bundles, -, raw, merged⟩ := exists_bundles complete
  rw [merged, TokenStream.toList_ofList] at h
  obtain ⟨b, hb, rfl⟩ := List.mem_map.1 h
  by_cases alone : b.more = []
  · rw [Bundle.token, if_pos alone]
    have scanned : b.first ∈ (scan d text).toList := by
      rw [raw, TokenStream.toList_ofList]
      exact List.mem_flatMap.2 ⟨b, hb, List.mem_cons_self⟩
    exact asWritten_of_mem_scanFrom scanned
  · have isPhrase : (b.token text).isPhrase = true := Bundle.isPhrase_token alone
    have isKeyword : (b.token text).kind = .keyword := by rw [Bundle.token, if_neg alone]; rfl
    exact ⟨fun isMark => absurd (isKeyword.symm.trans isMark) (by decide), fun _ => Or.inr isPhrase⟩

end SchemaApi
