import Formulae.Main
import Formulae.Tree.Numbering
import Formulae.Ty.Describe
import Formulae.Proofs.Arena.Overwritten
import Formulae.Proofs.Arena.OneTree
import Formulae.Proofs.Calendar.DateText
import Formulae.Proofs.Calendar.DurationArithmetic
import Formulae.Proofs.Parser.Errors
import Formulae.Proofs.Parser.Modes
import Formulae.Proofs.Parser.TypeText
import Formulae.Proofs.Tree.KeptTokens
import Formulae.Proofs.Tree.SourceOrder
import Formulae.Proofs.Run.CallLimit
import Formulae.Proofs.Run.Elements
import Formulae.Proofs.Run.Results
import Formulae.Proofs.Session.BindingTypes
import Formulae.Proofs.Text.Numbering
import Formulae.Proofs.Token.SourceText
import Formulae.Proofs.Token.Munch
import Formulae.Proofs.Typing.DerivationStmt
import Formulae.Proofs.Typing.FunctionPlaces
import Formulae.Proofs.Typing.Soundness
import Formulae.Proofs.Typing.StrainStmt
import Formulae.Proofs.Value.Casts
import Formulae.Proofs.Value.Exchange
import Formulae.Proofs.Value.Extrema
import Formulae.Proofs.Value.Integers
import Formulae.Proofs.Value.OperatorTables
import Formulae.Proofs.Value.Ordering
