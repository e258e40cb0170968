import Mathlib.Data.List.Infix

/-! tools/embed_files.py, which writes files into a C++ header. -/

namespace AxbyCore.Tools.EmbedFiles

def delim : List Char := "~#.+^%&*=_]!-?[".toList

def closingSeq : List Char := ')' :: (delim ++ ['"'])

/-- A symbol with the path of a file and what is read from it. -/
structure Input where
  symbol : List Char
  path : List Char
  data : List UInt8

def decode (data : List UInt8) : Option (List Char) := (ByteArray.mk data.toArray).utf8Decode?.map Array.toList

def opening (symbol : List Char) : List Char := "inline const char ".toList ++ (symbol ++ ("[] = R\"".toList ++ delim ++ "(\n".toList))

def closing : List Char := ")".toList ++ delim ++ "\";\n".toList

/-- What is in the header behind, or what is printed before the script exits. -/
def emitReadable (h : List Char) (input : Input) : Except (List Char) (List Char) :=
  match decode input.data with
  | none => .error ("embed_files.py: file ".toList ++ input.path ++ " is not UTF-8; cannot use --readable".toList)
  | some text =>
    if '\x00' ∈ text then
      .error ("embed_files.py: file ".toList ++ input.path ++ " contains NUL; unsafe for raw-string".toList)
    else if closingSeq <:+: text then
      .error ("embed_files.py: file ".toList ++ input.path ++ " contains the forbidden sequence '".toList ++ closingSeq ++ "'.".toList)
    else
      .ok (h ++ opening input.symbol ++ text ++ closing)

def openingBinary (symbol : List Char) : List Char := "inline const char ".toList ++ (symbol ++ "[] = \x7b\n".toList)

/-- What is in the header, and how many bytes there are in its last line. -/
def writeByte : List Char × Nat → UInt8 → List Char × Nat
  | (h, lineBytes), b =>
    let h := if lineBytes = 0 then h ++ "    ".toList else h
    let h := h ++ (Nat.toDigits 10 b.toNat ++ ", ".toList)
    let lineBytes := lineBytes + 1
    if 12 ≤ lineBytes then (h ++ "\n".toList, 0) else (h, lineBytes)

def emitBinary (h : List Char) (input : Input) : List Char :=
  let h := h ++ openingBinary input.symbol
  let (h, lineBytes) := input.data.foldl writeByte (h, 0)
  let h := if lineBytes = 0 then h ++ "    ".toList else h
  h ++ "0\n\x7d;\n".toList

def main (readable : Bool) (pairs : List Input) : Except (List Char) (List Char) :=
  let h := "// Generated by embed_files.py. Do not edit.\n".toList ++ "#pragma once\n".toList
  pairs.foldlM (fun h input => if readable then emitReadable h input else .ok (emitBinary h input)) h

end AxbyCore.Tools.EmbedFiles
