/-
  Counts on the command line.

  A count is a decimal number of 64 bits, with an optional
  plus sign in front.

  Key definitions include:
    * `CommandLine.CountFault`
    * `CommandLine.readCount`
-/

namespace Famicom

namespace CommandLine

------------------------------------------------------------
-- Counts
------------------------------------------------------------

/- Why a text is no count. -/
inductive CountFault where
  | empty
  | invalidDigit
  | tooLarge
deriving DecidableEq

namespace CountFault

/- The report of a fault. -/
def message : CountFault → String
  | empty => "cannot parse integer from empty string"
  | invalidDigit => "invalid digit found in string"
  | tooLarge => "number too large to fit in target type"

end CountFault

/- The value of a decimal digit. -/
def digitValue? (c : Char) : Option Nat :=
  if '0' ≤ c ∧ c ≤ '9' then
    some (c.toNat - '0'.toNat)
  else
    none

/-
  Append digits to a number.  The first character that is no
  digit, or makes the number too large, decides the fault.
-/
def readDigits
    (value : Nat) : List Char → Except CountFault Nat
  | [] => .ok value
  | c :: rest =>
      match digitValue? c with
      | none => .error .invalidDigit
      | some digit =>
          let value := value * 10 + digit
          if 2 ^ 64 ≤ value then
            .error .tooLarge
          else
            readDigits value rest

/- Read a count.  A sign alone is no digit. -/
def readCount (text : String) : Except CountFault Nat :=
  match text.toList with
  | [] => .error .empty
  | ['+'] => .error .invalidDigit
  | '+' :: rest => readDigits 0 rest
  | characters => readDigits 0 characters

end CommandLine

end Famicom
