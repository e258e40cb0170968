import AxbyCore.Library.CppCharArray
import AxbyCore.Tools.EmbedFiles

/-! A binary file is written as the constants of its bytes and a zero. They are the elements of an
array of char as long as every byte is in ASCII. -/

namespace AxbyCore.Proofs.BinaryEmbedding
open Tools.EmbedFiles CppLexer CppCharArray

def byteTokens (b : UInt8) : List Token := [.number (Nat.toDigits 10 b.toNat), .punctuator ',']

def lastTokens : List Token := [.number ['0'], .punctuator '}', .punctuator ';']

/-- White space, of which nothing is read. -/
def Blank (text : List Char) : Prop := run .between text = ([], .between)

theorem blank_indentation (lineBytes : Nat) : Blank (if lineBytes = 0 then "    ".toList else []) := by
  split
  · rfl
  · rfl

theorem indented (h : List Char) (lineBytes : Nat) :
    (if lineBytes = 0 then h ++ "    ".toList else h) = h ++ if lineBytes = 0 then "    ".toList else [] := by
  split
  · rfl
  · rw [List.append_nil]

/-- What is written of a byte, wherever it is in its line. -/
theorem writeByte_reads (h : List Char) (lineBytes : Nat) (b : UInt8) :
    ∃ written after, writeByte (h, lineBytes) b = (h ++ written, after) ∧ run .between written = (byteTokens b, .between) := by
  have separator : run (.number (Nat.toDigits 10 b.toNat)) ", ".toList = (byteTokens b, .between) := rfl
  have byte := run_trans (blank_indentation lineBytes) (run_trans (run_toDigits b.toNat) separator)
  have wrapped : Blank "\n".toList := rfl
  unfold writeByte
  dsimp only
  rw [indented]
  split
  · refine ⟨_, 0, ?_, run_trans byte wrapped⟩
    simp only [List.append_assoc]
  · refine ⟨_, lineBytes + 1, ?_, byte⟩
    simp only [List.append_assoc]

theorem writeBytes_read (h : List Char) (lineBytes : Nat) (data : List UInt8) :
    ∃ written after, data.foldl writeByte (h, lineBytes) = (h ++ written, after) ∧
      run .between written = (data.flatMap byteTokens, .between) := by
  induction data generalizing h lineBytes with
  | nil => exact ⟨[], lineBytes, by rw [List.foldl_nil, List.append_nil], rfl⟩
  | cons b data ih =>
    obtain ⟨first, between, wrote, one⟩ := writeByte_reads h lineBytes b
    obtain ⟨others, after, rest, many⟩ := ih (h ++ first) between
    refine ⟨first ++ others, after, ?_, run_trans one many⟩
    rw [List.foldl_cons, wrote, rest, List.append_assoc]

def keywords : List Char := "inline const char ".toList

def brace : List Char := "[] = \x7b\n".toList

def ending : List Char := "0\n\x7d;\n".toList

def declaration (symbol : List Char) (data : List UInt8) : List Token :=
  [.word "inline".toList, .word "const".toList, .word "char".toList, .word symbol, .punctuator '[', .punctuator ']',
    .punctuator '=', .punctuator '{'] ++ (data.flatMap byteTokens ++ lastTokens)

/-- The declaration is read as the constants of the bytes and a zero, with single commas between them. -/
theorem emitBinary_reads {input : Input} (identifier : IsIdentifier input.symbol) (h : List Char) :
    ∃ text, emitBinary h input = h ++ text ∧ run .between text = (declaration input.symbol input.data, .between) := by
  have specifiers : run .between keywords = ([.word "inline".toList, .word "const".toList, .word "char".toList], .between) := rfl
  have opened : run (.word input.symbol) brace =
      ([.word input.symbol, .punctuator '[', .punctuator ']', .punctuator '=', .punctuator '{'], .between) := rfl
  have ended : run .between ending = (lastTokens, .between) := rfl
  obtain ⟨written, lineBytes, wrote, read⟩ := writeBytes_read (h ++ openingBinary input.symbol) 0 input.data
  have constants := run_trans read (run_trans (blank_indentation lineBytes) ended)
  have whole := run_trans specifiers (run_trans (run_identifier identifier) (run_trans opened constants))
  refine ⟨_, ?_, whole⟩
  have opening : openingBinary input.symbol = keywords ++ (input.symbol ++ brace) := rfl
  rw [emitBinary]
  dsimp only
  rw [wrote, indented, opening]
  change _ ++ ending = _
  simp only [List.append_assoc]

theorem lex_emitBinary {input : Input} (identifier : IsIdentifier input.symbol) (h : List Char) :
    ∃ text, emitBinary h input = h ++ text ∧ lex text = some (declaration input.symbol input.data) := by
  obtain ⟨text, emitted, read⟩ := emitBinary_reads identifier h
  have ended : run .between ['\n'] = ([], .between) := rfl
  refine ⟨text, emitted, ?_⟩
  rw [lex, run_trans read ended, List.append_nil]

/-- The constants are the bytes and a zero if every one of them fits. -/
theorem elements_bytes (data : List UInt8) :
    elements (data.flatMap byteTokens ++ lastTokens) = if data.all (· < 128) then some (data ++ [0]) else none := by
  induction data with
  | nil => rfl
  | cons b data ih =>
    have next : elements ((b :: data).flatMap byteTokens ++ lastTokens) =
        (element (Nat.toDigits 10 b.toNat)).bind fun first =>
          (elements (data.flatMap byteTokens ++ lastTokens)).map fun others => first :: others := by
      cases data with
      | nil => rfl
      | cons other data => rfl
    rw [next, ih, element_toDigits, List.all_cons]
    by_cases fits : b < 128
    · rw [if_pos fits, decide_eq_true fits, Bool.true_and]
      cases data.all (· < 128) with
      | true => rfl
      | false => rfl
    · rw [if_neg fits, decide_eq_false fits, Bool.false_and]
      rfl

/-- A binary file is an array of its bytes and a zero exactly if all of them are in ASCII. -/
theorem binary_exact_iff {input : Input} (identifier : IsIdentifier input.symbol) (h : List Char) :
    ∃ text tokens, emitBinary h input = h ++ text ∧ lex text = some tokens ∧
      (declared tokens = some (input.symbol, input.data ++ [0]) ↔ ∀ b ∈ input.data, b < 128) := by
  obtain ⟨text, emitted, read⟩ := lex_emitBinary identifier h
  refine ⟨text, _, emitted, read, ?_⟩
  have elements : declared (declaration input.symbol input.data) =
      (elements (input.data.flatMap byteTokens ++ lastTokens)).map fun bytes => (input.symbol, bytes) := rfl
  have all : (input.data.all (· < 128)) = true ↔ ∀ b ∈ input.data, b < 128 := by simp
  rw [elements, elements_bytes, ← all]
  split
  next small => exact iff_of_true rfl small
  next large => exact iff_of_false (by simp) large

theorem binary_exact_iff_lines : ∃ text tokens, emitBinary [] ⟨['a'], ['f'], List.replicate 13 65⟩ = [] ++ text ∧
    lex text = some tokens ∧ declared tokens = some (['a'], List.replicate 13 65 ++ [0]) := by
  have identifier : IsIdentifier (Input.mk ['a'] ['f'] (List.replicate 13 65)).symbol := isIdentifier_letter (by decide)
  obtain ⟨text, tokens, emitted, read, exactly⟩ := binary_exact_iff identifier []
  refine ⟨text, tokens, emitted, read, exactly.mpr ?_⟩
  intro b member
  rw [List.eq_of_mem_replicate member]
  decide

/-- The declaration of a byte beyond ASCII is ill-formed. -/
theorem binary_narrowed : ∃ tokens, lex (emitBinary [] ⟨['a'], ['f'], [200]⟩) = some tokens ∧ declared tokens = none :=
  ⟨_, rfl, rfl⟩

end AxbyCore.Proofs.BinaryEmbedding
