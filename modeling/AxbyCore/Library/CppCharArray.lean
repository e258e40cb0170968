import AxbyCore.Library.CppLexer

/-! The elements of a C++ array of char that is declared with an initializer, where char is signed
and has eight bits. -/

namespace AxbyCore.CppCharArray
open CppLexer

/-- Its value. One that begins with a zero is octal unless it is zero, and is not read here. -/
def constant (spelling : List Char) : Option Nat :=
  if spelling ≠ ['0'] ∧ spelling.head? = some '0' then none else some (Nat.ofDigitChars 10 spelling 0)

/-- What a constant initializes a char to. One that char cannot hold would be narrowed, which is ill-formed. -/
def toChar (value : Nat) : Option UInt8 := if value < 128 then some (UInt8.ofNat value) else none

def element (spelling : List Char) : Option UInt8 := (constant spelling).bind toChar

/-- Constants with single commas between them, and possibly one behind the last. -/
def elements : List Token → Option (List UInt8)
  | [.number spelling, .punctuator '}', .punctuator ';'] => (element spelling).map fun last => [last]
  | [.number spelling, .punctuator ',', .punctuator '}', .punctuator ';'] => (element spelling).map fun last => [last]
  | .number spelling :: .punctuator ',' :: rest =>
    (element spelling).bind fun first => (elements rest).map fun others => first :: others
  | _ => none

/-- The specifiers and the `[] =` of a declaration, which is that of the name, and its elements. -/
def declared : List Token → Option (List Char × List UInt8)
  | .word inline :: .word const :: .word char :: .word name :: .punctuator '[' :: .punctuator ']' :: .punctuator '=' ::
      .punctuator '{' :: rest =>
    if inline = "inline".toList ∧ const = "const".toList ∧ char = "char".toList then
      (elements rest).map fun bytes => (name, bytes)
    else none
  | _ => none

theorem constant_toDigits (byte : UInt8) : constant (Nat.toDigits 10 byte.toNat) = some byte.toNat := by
  have each : ∀ value < 256, constant (Nat.toDigits 10 value) = some value := by decide +kernel
  exact each byte.toNat byte.toNat_lt

/-- A byte is written as a constant that a char can hold exactly if it is in ASCII. -/
theorem element_toDigits (byte : UInt8) : element (Nat.toDigits 10 byte.toNat) = if byte < 128 then some byte else none := by
  have same : byte < 128 ↔ byte.toNat < 128 := UInt8.lt_iff_toNat_lt
  rw [element, constant_toDigits, Option.bind_some, toChar, UInt8.ofNat_toNat]
  simp only [same]

end AxbyCore.CppCharArray
