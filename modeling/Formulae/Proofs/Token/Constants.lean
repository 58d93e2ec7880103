import Formulae.Parser.Expr
import Formulae.Proofs.Token.Lexed
import Formulae.Proofs.Token.Munch
import Formulae.Proofs.Token.Rendered
import Formulae.Tree.Printer

/-!
# Printed constants read back

A constant that a token of a source stands for is printed as a text that is read as just that
token again (`Constant.readAs_of_tokenize`).  Doubles need two things for this: source gives
neither negative ones nor anything but numbers, and the text of a finite one is taken to be read
as the same double.  An infinite one, from a literal beyond all doubles, comes back as a name.
-/

namespace Formulae

namespace Number

/-- What all doubles in source have in common. -/
structure IsLiteral (x : Float) : Prop where
  unsigned : Unsigned x
  isNumber : x.isNaN = false

theorem isLiteral_nearest (digits : Nat) (exponent : Int) : IsLiteral (nearest digits exponent) :=
  ⟨unsigned_nearest digits exponent, isNaN_nearest digits exponent⟩

/-- A double in source is infinite or finite, and not negative. -/
theorem IsLiteral.infinite_or_finite {x : Float} (h : IsLiteral x) :
    Binary.ofFloat x = .infinite false ∨
      ∃ significand exponent, Binary.ofFloat x = .finite false significand exponent := by
  have positive := Binary.isNegative_of_unsigned h.unsigned
  cases parts : Binary.ofFloat x with
  | nan => exact absurd parts (Binary.ofFloat_ne_nan h.isNumber)
  | infinite negative =>
      rw [parts] at positive
      cases positive
      exact .inl rfl
  | finite negative significand exponent =>
      rw [parts] at positive
      cases positive
      exact .inr ⟨significand, exponent, rfl⟩

end Number

/-- The token stands for the infinite double. -/
def Token.Kind.isInfinite : Token.Kind → Bool
  | .float x => Number.Binary.ofFloat x = .infinite false
  | _ => false

/-- The constant printed by itself is read as one token of this kind, which spans all of it. -/
def Constant.ReadAs (value : Constant) (kind : Token.Kind) : Prop :=
  ∀ (α : Type) (config : PrintConfig) (node : Node α),
    let written := (Expr.constant node value).print config
    Lexer.tokenize written = .ok ⟨[⟨kind, 0, written.utf8ByteSize⟩], written.utf8ByteSize⟩

theorem Expr.print_constant {α : Type} (config : PrintConfig) (node : Node α) (value : Constant) :
    (Expr.constant node value).print config = value.piece.text := by
  rw [Expr.print, Expr.pieces, Piece.render, List.map_singleton]
  exact String.empty_append

namespace Lexer

theorem tokenize_text {kind : Token.Kind} (reads : kind.ReadsBack []) : tokenize kind.text
    = .ok ⟨[⟨kind, 0, kind.text.utf8ByteSize⟩], kind.text.utf8ByteSize⟩ := by
  rcases reads.chosen with ⟨pattern, chosen, meant⟩
  have step := tokenizeFrom_token reads.nonempty chosen meant 0 []
  rw [List.append_nil, ← utf8ByteSize_eq_byteCount, Nat.zero_add, tokenizeFrom] at step
  exact step

end Lexer

namespace Constant

variable {value : Constant} {kind : Token.Kind}

theorem ReadAs.unique {other : Token.Kind} (first : value.ReadAs kind)
    (second : value.ReadAs other) : kind = other := by
  have same := (first Unit {} ⟨0, .point 0, ()⟩).symm.trans (second Unit {} ⟨0, .point 0, ()⟩)
  cases same
  rfl

theorem readAs_of_piece (piece : value.piece = .token kind) (lexed : kind.Lexed Number.Rereads) :
    value.ReadAs kind := by
  intro α config node written
  have spelled : written = kind.text := by
    change (Expr.constant node value).print config = kind.text
    rw [Expr.print_constant, piece, Piece.text]
  rw [spelled]
  exact Lexer.tokenize_text (Token.Kind.readsBack lexed (by simp [Token.Kind.StopsBefore]))

theorem readAs_of_infinite {x : Float} (infinite : Number.Binary.ofFloat x = .infinite false) :
    (Constant.float x).ReadAs (.ident "inf") := by
  intro α config node written
  have spelled : written = "inf" := by
    change (Expr.constant node (.float x)).print config = "inf"
    simp only [Expr.print_constant, piece, infinite, Piece.text, Number.floatLiteral,
      Number.Binary.integer?, Number.renderFloat, Bool.false_eq_true, if_false]
  rw [spelled]
  decide +kernel

/-- The token of a constant is the token it is written with. -/
theorem piece_of_constant? (reads : Parser.constant? kind = some value)
    (lexed : kind.Lexed Number.Rereads) : value.piece = .token kind := by
  cases kind with
  | int n =>
      cases reads
      have unsigned : ¬n < 0 := fun negative =>
        absurd lexed (Int.not_le.mpr (Int64.lt_iff_toInt_lt.mp negative))
      exact if_neg unsigned
  | float x =>
      cases reads
      obtain ⟨significand, exponent, finite⟩ := Number.Rereads.finite lexed
      rw [piece, finite]
  | keyword word => cases word <;> cases reads <;> rfl
  | string text => cases reads; rfl
  | _ => cases reads

/-- A constant that a token of a source stands for is printed as the text of that token alone,
where finite doubles are read from their texts; of an infinite one the name `inf` is left. -/
theorem readAs_of_tokenize {source : String} {tokens : TokenList} {token : Token}
    (read : Lexer.tokenize source = .ok tokens) (member : token ∈ tokens.items)
    (isConstant : Parser.constant? token.kind = some value)
    (displayed : ∀ x, token.kind = .float x → token.kind.isInfinite = false →
      Lexer.decimalValue (Number.floatLiteral x).toList = x) :
    value.ReadAs (if token.kind.isInfinite then .ident "inf" else token.kind) := by
  have form := Lexer.lexed_of_tokenizeFrom Number.isLiteral_nearest read (by simp) token member
  generalize token.kind = kind at isConstant displayed form ⊢
  cases infinite : kind.isInfinite with
  | true =>
      cases kind with
      | float x =>
          cases isConstant
          exact readAs_of_infinite (decide_eq_true_eq.mp infinite)
      | _ => cases infinite
  | false =>
      have lexed : kind.Lexed Number.Rereads := by
        cases kind with
        | float x =>
            refine ⟨?_, displayed x rfl infinite⟩
            rcases form.infinite_or_finite with isInfinite | finite
            · exact absurd isInfinite (decide_eq_false_iff_not.mp infinite)
            · exact finite
        | _ => exact form
      exact readAs_of_piece (piece_of_constant? isConstant lexed) lexed

/-- A double with a fraction that no double holds exactly. -/
theorem readAs_of_tokenize_tenth : ∃ tokens token,
    Lexer.tokenize "0.1" = .ok tokens ∧ token ∈ tokens.items ∧
      Parser.constant? token.kind = some (.float 0.1) ∧
      (Constant.float 0.1).ReadAs (if token.kind.isInfinite then .ident "inf" else token.kind) := by
  have read : Lexer.tokenize "0.1" = .ok ⟨[⟨.float 0.1, 0, 3⟩], 3⟩ := by decide +kernel
  have member : ⟨.float 0.1, 0, 3⟩ ∈ [(⟨.float 0.1, 0, 3⟩ : Token)] := List.mem_singleton_self _
  have displayed : ∀ x, Token.Kind.float 0.1 = .float x →
      (Token.Kind.float 0.1).isInfinite = false →
        Lexer.decimalValue (Number.floatLiteral x).toList = x := by
    rintro x ⟨⟩ -
    decide +kernel
  exact ⟨_, _, read, member, rfl, readAs_of_tokenize read member rfl displayed⟩

/-- The letters of a one with four hundred zeros, written as a double. -/
def hugeLetters : List Char :=
  '1' :: List.replicate 400 '0' ++ ['.', '0']

/-- A literal beyond all doubles is read, but its constant is not read back. -/
theorem not_readAs_huge : ∃ tokens token value,
    Lexer.tokenize (String.ofList hugeLetters) = .ok tokens ∧ token ∈ tokens.items ∧
      Parser.constant? token.kind = some value ∧ ¬value.ReadAs token.kind := by
  have read : Lexer.tokenizeFrom 0 hugeLetters [] = .ok ⟨[⟨.float (1.0 / 0.0), 0, 403⟩], 403⟩ := by
    decide +kernel
  have infinite : Number.Binary.ofFloat (1.0 / 0.0) = .infinite false := by decide +kernel
  rw [← @String.toList_ofList hugeLetters] at read
  refine ⟨_, _, .float (1.0 / 0.0), read, List.mem_singleton_self _, rfl, ?_⟩
  intro readAs
  cases readAs.unique (readAs_of_infinite infinite)

end Constant

end Formulae
