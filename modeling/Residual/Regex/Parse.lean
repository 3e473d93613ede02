import Residual.Logged
import Residual.Regex.Reader

/-!
# The expression of a text

A text denotes the first expression that can be read from its beginning. Text behind it
that cannot continue it is ignored, which is reported but no error.
-/

namespace Residual

/-- Why a text has no expression. -/
inductive ParseError where
  /-- No expression begins where the cursor stands after the attempt. -/
  | noExpression (offset : Nat)
  /-- The group opened at the offset holds an expression but is not closed behind it. -/
  | unterminatedGroup (offset : Nat)
  deriving DecidableEq, Repr

/-- The wording of an error. -/
def ParseError.message : ParseError → String
  | .noExpression offset => "no expression at offset " ++ decimal offset
  | .unterminatedGroup offset =>
      "group opened at offset " ++ decimal offset ++ " is never closed"

namespace Reading

/-- A reading as an expression or the reason why there is none. -/
def result (reading : Reading) : Except ParseError (Regex Char) :=
  match reading.found with
  | .expression regex => .ok regex
  | .nothing => .error (.noExpression reading.after.offset)
  | .unclosed opening => .error (.unterminatedGroup opening)

theorem result_eq_ok {reading : Reading} {regex : Regex Char} :
    reading.result = .ok regex ↔ reading.found = .expression regex := by
  rcases reading with ⟨found, after⟩
  cases found <;> simp [result]

theorem result_eq_noExpression {reading : Reading} {offset : Nat} :
    reading.result = .error (.noExpression offset) ↔
      reading.found = .nothing ∧ reading.after.offset = offset := by
  rcases reading with ⟨found, after⟩
  cases found <;> simp [result]

/-- A reading that finds something has an expression or left a group open. -/
theorem result_cases {reading : Reading} (something : reading.found ≠ .nothing) :
    (∃ regex, reading.result = .ok regex) ∨
      ∃ opening, reading.result = .error (.unterminatedGroup opening) := by
  rcases reading with ⟨found, after⟩
  cases found with
  | expression regex => exact .inl ⟨regex, rfl⟩
  | nothing => exact absurd rfl something
  | unclosed opening => exact .inr ⟨opening, rfl⟩

/-- What a successful reading reports: the text it left, if any, and its size. -/
def report (reading : Reading) (regex : Regex Char) : List Event :=
  let ignored :=
    if reading.after.hasMore then [.ignored reading.after.offset reading.after.remaining]
    else []
  ignored ++ [.parsed regex.size]

end Reading

/-- The expression of a text. -/
def Regex.parse (text : String) : Logged (Except ParseError (Regex Char)) :=
  let reading := readExpression (.ofString text)
  match reading.result with
  | .ok regex => .reporting (fun _ => reading.report regex) (.ok regex)
  | .error error => .silent (.error error)

@[simp] theorem Regex.value_parse (text : String) :
    (parse text).value = (readExpression (.ofString text)).result := by
  simp only [parse]
  split <;> simp_all

end Residual
