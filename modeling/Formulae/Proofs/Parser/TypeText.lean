import Formulae.Proofs.Parser.ExprSound
import Formulae.Proofs.Parser.TypeReads
import Formulae.Proofs.Token.Lexed
import Formulae.Proofs.Tree.Spacing
import Formulae.Proofs.Ty.Written

/-!
# The text of a type

The rule for types gives just those types in which names are identifiers and no array is one of
functions: the brackets behind a function type belong to its result.  The text of each of them is
read as the type again, to its last token (`TypeExpr.rereads_of_readable`).
-/

namespace Formulae.TypeExpr

/-- Somewhere among the tokens of some source the rule for types gives the type. -/
def Produced (type : TypeExpr) : Prop :=
  ∃ source tokens s s', Lexer.tokenize source = .ok tokens ∧ s.cursor.ahead <:+ tokens.items ∧
    Parser.Gives (Parser.typeExpr s) type s'

/-- The text of the type is split into tokens, and these are read as the type, with none left. -/
def Rereads (type : TypeExpr) : Prop :=
  ∃ tokens s', Lexer.tokenize type.render = .ok tokens ∧
    Parser.Gives (Parser.typeExpr (Parser.State.ofTokens tokens)) type s' ∧ s'.remaining = 0

/-- Only types that source can give are read. -/
theorem readable_of_produced {type : TypeExpr} (produced : type.Produced) : type.Readable := by
  rcases produced with ⟨source, tokens, s, s', read, ahead, gives⟩
  have lexed : s.Lexed Number.Unsigned := fun token member =>
    Lexer.lexed_of_tokenize read token (ahead.subset member)
  exact (Parser.typeExpr_sound s lexed gives).readable

/-- What source can give is written so that it is read again, to the last token. -/
theorem rereads_of_readable {type : TypeExpr} (readable : type.Readable) : type.Rereads := by
  have written := type.fits_pieces readable
  rcases Piece.tokenize_render written.written written.apart with ⟨tokens, read, kinds⟩
  have ahead : (Parser.State.ofTokens tokens).kinds = Piece.tokens type.pieces ++ [] := by
    rw [List.append_nil]
    exact kinds
  rcases Parser.typeExpr_reads type readable ahead nofun with ⟨s', gives, left⟩
  have noneLeft : s'.cursor.ahead = [] := List.map_eq_nil_iff.mp left
  exact ⟨tokens, s', read, gives, congrArg List.length noneLeft⟩

/-- A type whose text is read again is read from that text. -/
theorem Rereads.produced {type : TypeExpr} (rereads : type.Rereads) : type.Produced := by
  rcases rereads with ⟨tokens, s', read, gives, -⟩
  exact ⟨_, tokens, _, s', read, List.suffix_refl _, gives⟩

/-- The types that are read are those whose names are identifiers and whose arrays are not of
functions. -/
theorem produced_iff_readable {type : TypeExpr} : type.Produced ↔ type.Readable :=
  ⟨readable_of_produced, fun readable => (rereads_of_readable readable).produced⟩

/-- An array of functions has the text of a function that gives an array. -/
example (params : List TypeExpr) (ret : TypeExpr) :
    (array (function params ret)).render = (function params (array ret)).render := by
  simp only [render, pieces, List.append_assoc]

/-- Written types and their meanings translate into one another: every written type is what is
written for its meaning, and what is written for a type means that type, but for its finality, the
lengths of its arrays and the ways in which results depend on arguments.  Every type that can be
read is read again from its text, to the last token. -/
theorem translates :
    (∀ written : TypeExpr, (Ty.ofExpr written).toExpr? = some written) ∧
      (∀ (type : Ty) (written : TypeExpr), type.toExpr? = some written →
        (Ty.ofExpr written).plain = type.plain) ∧
      ∀ written : TypeExpr, written.Produced → written.Rereads := by
  refine ⟨Ty.toExpr?_ofExpr, fun type written found => ?_, fun written produced => ?_⟩
  · rw [Ty.plain_ofExpr, Ty.ofExpr_of_toExpr? found]
  · exact rereads_of_readable (produced_iff_readable.mp produced)

/-- The target of a cast to a function of an array and of an enumeration. -/
theorem translates_target :
    let written := function [array (basic .int), named "Color"] (array (basic .mixed))
    let type := Ty.function [.array Ty.int (some 3) false, .enumeration "Color" false] none
      (Ty.arrayOf Ty.mixed (some 2)) (some .arrayOf) false
    type.toExpr? = some written ∧ (Ty.ofExpr written).plain = type.plain ∧
      written.Produced ∧ written.Rereads := by
  intro written type
  have found : type.toExpr? = some written := rfl
  let tokens : TokenList :=
      ⟨[⟨.mark .leftParen, ⟨0, 1⟩⟩, ⟨.keyword .functionWord, ⟨1, 9⟩⟩, ⟨.mark .leftParen, ⟨9, 10⟩⟩,
        ⟨.basicType .int, ⟨10, 13⟩⟩, ⟨.mark .leftBracket, ⟨13, 14⟩⟩,
        ⟨.mark .rightBracket, ⟨14, 15⟩⟩, ⟨.mark .comma, ⟨15, 16⟩⟩, ⟨.ident "Color", ⟨17, 22⟩⟩,
        ⟨.mark .rightParen, ⟨22, 23⟩⟩, ⟨.mark .arrow, ⟨24, 26⟩⟩, ⟨.basicType .mixed, ⟨27, 32⟩⟩,
        ⟨.mark .leftBracket, ⟨32, 33⟩⟩, ⟨.mark .rightBracket, ⟨33, 34⟩⟩,
        ⟨.mark .rightParen, ⟨34, 35⟩⟩, ⟨.ident "f", ⟨36, 37⟩⟩], 37⟩
  have read : Lexer.tokenize "(function(int[], Color) -> mixed[]) f" = .ok tokens := by
    decide +kernel
  have isName : Lexer.IsName "Color" :=
    Lexer.lexed_of_tokenize read ⟨.ident "Color", ⟨17, 22⟩⟩ (by simp [tokens])
  have readable : written.Readable := ⟨⟨⟨trivial, rfl⟩, isName, trivial⟩, trivial, rfl⟩
  have ahead : (Parser.State.ofTokens tokens).advance.kinds
      = Piece.tokens written.pieces ++ [.mark .rightParen, .ident "f"] := rfl
  have produced : written.Produced := by
    rcases Parser.typeExpr_reads written readable ahead nofun with ⟨s', gives, -⟩
    exact ⟨_, tokens, _, s', read, ⟨[_], rfl⟩, gives⟩
  exact ⟨found, translates.2.1 type written found, produced, translates.2.2 written produced⟩

end Formulae.TypeExpr
