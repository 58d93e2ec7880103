import Formulae.Ty.Operator
import Formulae.Value.Operator

/-!
# Rules of arithmetic

The rules for arithmetic on operands that are no arrays, in one order, on types
(`Ty.ArithmeticRule`) and on values (`Value.ArithmeticRule`).
-/

namespace Formulae

variable {op : Operator}

namespace Ty

/-- A rule for arithmetic on types, with the type of the result. -/
inductive ArithmeticRule (op : Operator) : Ty → Ty → Ty → Prop
  | mixedLeft (f : Bool) (b : Ty) : ArithmeticRule op (.basic .mixed f) b mixed
  | mixedRight (a : Ty) (f : Bool) : ArithmeticRule op a (.basic .mixed f) mixed
  | ints (f g : Bool) :
      ArithmeticRule op (.basic .int f) (.basic .int g) (if op = .div then float else int)
  | intFloat (f g : Bool) : ArithmeticRule op (.basic .int f) (.basic .float g) float
  | floatInt (f g : Bool) : ArithmeticRule op (.basic .float f) (.basic .int g) float
  | floats (f g : Bool) : ArithmeticRule op (.basic .float f) (.basic .float g) float
  | texts (isAdd : op = .add) (f g : Bool) :
      ArithmeticRule op (.basic .string f) (.basic .string g) string
  | shift (isSum : op = .add ∨ op = .sub) (f g : Bool) :
      ArithmeticRule op (.basic .date f) (.basic .duration g) date
  | between (isSub : op = .sub) (f g : Bool) :
      ArithmeticRule op (.basic .date f) (.basic .date g) duration
  | durations (isSum : op = .add ∨ op = .sub) (f g : Bool) :
      ArithmeticRule op (.basic .duration f) (.basic .duration g) duration
  | multiple (isMul : op = .mul) (f g : Bool) :
      ArithmeticRule op (.basic .duration f) (.basic .int g) duration

theorem arithmeticRule_of_eq_some {a b result : Ty} (found : plainArithmetic? op a b = some result) :
    ArithmeticRule op a b result := by
  unfold plainArithmetic? at found
  split at found
  all_goals
    first
    | (cases found; constructor)
    | (split at found <;> cases found; constructor; assumption)
    | cases found

end Ty

namespace Value

/-- A rule for arithmetic on values, with its outcome. -/
inductive ArithmeticRule (op : Operator) : Value → Value → Result → Prop
  | ints (m n : Int64) : ArithmeticRule op (.int m) (.int n) (integerArithmetic op m n)
  | intFloat (m : Int64) (y : Float) :
      ArithmeticRule op (.int m) (.float y) (floatArithmetic op (Number.toFloat m) y)
  | floatInt (x : Float) (n : Int64) :
      ArithmeticRule op (.float x) (.int n) (floatArithmetic op x (Number.toFloat n))
  | floats (x y : Float) : ArithmeticRule op (.float x) (.float y) (floatArithmetic op x y)
  | texts (isAdd : op = .add) (a b : String) :
      ArithmeticRule op (.string a) (.string b) (.ok (.string (a ++ b)))
  | later (isAdd : op = .add) (d : Date) (p : Duration) :
      ArithmeticRule op (.date d) (.duration p) (shifted (d.add? p))
  | earlier (isSub : op = .sub) (d : Date) (p : Duration) :
      ArithmeticRule op (.date d) (.duration p) (shifted (d.sub? p))
  | between (isSub : op = .sub) (d e : Date) :
      ArithmeticRule op (.date d) (.date e) (.ok (.duration (d.between e)))
  | sum (isAdd : op = .add) (p q : Duration) :
      ArithmeticRule op (.duration p) (.duration q) (exact .duration .duration (p.add? q))
  | difference (isSub : op = .sub) (p q : Duration) :
      ArithmeticRule op (.duration p) (.duration q) (exact .duration .duration (p.sub? q))
  | multiple (isMul : op = .mul) (p : Duration) (n : Int64) :
      ArithmeticRule op (.duration p) (.int n) (exact .duration .duration (p.mul? n))

theorem plainArithmetic?_eq_some_iff {v w : Value} {outcome : Result} :
    plainArithmetic? op v w = some outcome ↔ ArithmeticRule op v w outcome := by
  constructor
  · intro found
    unfold plainArithmetic? at found
    split at found
    all_goals
      first
      | (cases found; constructor)
      | (split at found <;> cases found <;> constructor <;> first | rfl | assumption)
      | cases found
  · intro rule
    cases rule <;> simp_all [plainArithmetic?]

end Value

end Formulae
