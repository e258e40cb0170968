import AxbyCore.Library.Decimal
import AxbyCore.Library.Occurrence

/-! The tokens of C++ sources that have no character literals, no string literals but raw ones, and
no operators of several characters. A source with anything else has no tokens here. -/

namespace AxbyCore.CppLexer

inductive Token where
  | word (spelling : List Char)
  | number (spelling : List Char)
  | punctuator (char : Char)
  | rawString (content : List Char)
  deriving DecidableEq, Repr

/-- What the characters read last are the beginning of. -/
inductive Mode where
  | between
  | word (spelling : List Char)
  | universalName (spelling : List Char)
  | number (spelling : List Char)
  | operator (char : Char)
  | slash
  | comment
  | delimiter (chars : List Char)
  | rawString (delimiter content : List Char)
  | literal (content : List Char)
  | other
  deriving DecidableEq, Repr

def isSpace (c : Char) : Bool := c = ' ' ∨ c = '\t' ∨ c = '\n' ∨ c = '\u000b' ∨ c = '\u000c'

/-- Characters beyond ASCII are those of identifiers here. -/
def isLetter (c : Char) : Bool := c.isAlpha ∨ c = '_' ∨ 128 ≤ c.toNat

def isWordChar (c : Char) : Bool := isLetter c ∨ c.isDigit

/-- Those that are not the beginning of a longer one. -/
def isPunctuator (c : Char) : Bool := "[]()\x7b\x7d;,".toList.contains c

def isDelimiterChar (c : Char) : Bool := c.isAlphanum ∨ "_\x7b\x7d[]#<>%:;.?*+-/^&|~!=,\"'".toList.contains c

def rawPrefixes : List (List Char) := ["R".toList, "LR".toList, "uR".toList, "UR".toList, "u8R".toList]

/-- The first character of a token. -/
def start (c : Char) : List Token × Mode :=
  if isSpace c then ([], .between)
  else if isLetter c then ([], .word [c])
  else if c.isDigit then ([], .number [c])
  else if isPunctuator c then ([.punctuator c], .between)
  else if c = '=' ∨ c = '#' then ([], .operator c)
  else if c = '/' then ([], .slash)
  else if c = '\\' then ([], .universalName [])
  else ([], .other)

/-- The first character behind a token. -/
def finish (token : Token) (c : Char) : List Token × Mode := (token :: (start c).1, (start c).2)

def next : Mode → Char → List Token × Mode
  | .between, c => start c
  | .word spelling, c =>
    if isWordChar c then ([], .word (spelling ++ [c]))
    else if c = '\\' then ([], .universalName spelling)
    else if c = '"' then ([], if rawPrefixes.contains spelling then .delimiter [] else .other)
    else if c = '\'' then ([], .other)
    else finish (.word spelling) c
  | .universalName spelling, c => ([], if c = 'u' ∨ c = 'U' then .word (spelling ++ ['\\', c]) else .other)
  | .number spelling, c =>
    if c.isDigit then ([], .number (spelling ++ [c]))
    else if isWordChar c ∨ c = '.' ∨ c = '\'' ∨ c = '\\' then ([], .other)
    else finish (.number spelling) c
  | .operator char, c => if c = char then ([], .other) else finish (.punctuator char) c
  | .slash, c => ([], if c = '/' then .comment else .other)
  | .comment, c => ([], if c = '\n' then .between else if c = '\\' then .other else .comment)
  | .delimiter chars, c =>
    if c = '(' then ([], .rawString chars [])
    else ([], if isDelimiterChar c ∧ chars.length < 16 then .delimiter (chars ++ [c]) else .other)
  | .rawString delimiter content, c =>
    if c = '"' ∧ (')' :: delimiter) <:+ content then ([], .literal (content.take (content.length - (delimiter.length + 1))))
    else ([], .rawString delimiter (content ++ [c]))
  | .literal content, c => if isWordChar c ∨ c = '\\' then ([], .other) else finish (.rawString content) c
  | .other, _ => ([], .other)

def run : Mode → List Char → List Token × Mode
  | mode, [] => ([], mode)
  | mode, c :: text => ((next mode c).1 ++ (run (next mode c).2 text).1, (run (next mode c).2 text).2)

/-- A source that does not end with a newline is read as if it did. -/
def lex (source : List Char) : Option (List Token) :=
  match run .between (source ++ ['\n']) with
  | (tokens, .between) => some tokens
  | _ => none

@[simp] theorem run_nil (mode : Mode) : run mode [] = ([], mode) := rfl

theorem run_cons (mode : Mode) (c : Char) (text : List Char) :
    run mode (c :: text) = ((next mode c).1 ++ (run (next mode c).2 text).1, (run (next mode c).2 text).2) := rfl

theorem run_append (mode : Mode) (first second : List Char) :
    run mode (first ++ second) = ((run mode first).1 ++ (run (run mode first).2 second).1, (run (run mode first).2 second).2) := by
  induction first generalizing mode with
  | nil => rfl
  | cons c first ih => rw [List.cons_append, run_cons, ih, run_cons, List.append_assoc]

/-- What is read one after the other. -/
theorem run_trans {mode middle last : Mode} {first second : List Char} {tokens later : List Token}
    (one : run mode first = (tokens, middle)) (two : run middle second = (later, last)) :
    run mode (first ++ second) = (tokens ++ later, last) := by
  rw [run_append, one, two]

theorem run_single (mode : Mode) (c : Char) : run mode [c] = next mode c := by
  rw [run_cons, run_nil, List.append_nil]

/-- Characters that only become part of what has begun. -/
theorem run_kept (mode : List Char → Mode) {begun text : List Char}
    (kept : ∀ before c after, text = before ++ c :: after → next (mode (begun ++ before)) c = ([], mode (begun ++ before ++ [c]))) :
    run (mode begun) text = ([], mode (begun ++ text)) := by
  induction text generalizing begun with
  | nil => rw [run_nil, List.append_nil]
  | cons c text ih =>
    have first : next (mode begun) c = ([], mode (begun ++ [c])) := by simpa using kept [] c text rfl
    have later := @ih (begun ++ [c]) fun before other after same => by
      simpa using kept (c :: before) other after (congrArg (c :: ·) same)
    rw [run_cons, first, later, List.nil_append, List.append_assoc, List.singleton_append]

/-! The literal ends at the first quote behind a parenthesis and the delimiter. -/

theorem run_rawString {delimiter content text : List Char}
    (unclosed : ∀ before after, text = before ++ '"' :: after → ¬ (')' :: delimiter) <:+ content ++ before) :
    run (.rawString delimiter content) text = ([], .rawString delimiter (content ++ text)) := by
  apply run_kept (.rawString delimiter)
  intro before c after same
  apply if_neg
  rintro ⟨rfl, closed⟩
  exact unclosed before after same closed

/-- A content without the closing sequence is read to its end, however it ends. -/
theorem run_rawString_closed {delimiter content : List Char} (distinct : ')' ∉ delimiter)
    (free : ¬ (')' :: (delimiter ++ ['"'])) <:+: content) :
    run (.rawString delimiter []) (content ++ ')' :: (delimiter ++ ['"'])) = ([], .literal content) := by
  have alone : ')' ∉ delimiter ++ ['"'] := by simpa using distinct
  have unclosed : ∀ before after, content ++ ')' :: delimiter = before ++ '"' :: after →
      ¬ (')' :: delimiter) <:+ [] ++ before := by
    rintro before after same ⟨earlier, rfl⟩
    have occurs : content ++ (')' :: (delimiter ++ ['"']) ++ []) = earlier ++ (')' :: (delimiter ++ ['"']) ++ (after ++ ['"'])) := by
      simpa using congrArg (· ++ ['"']) same
    have behind := (Occurrence.prefix_before alone free occurs).length_le
    have lengths := congrArg List.length same
    simp only [List.length_append, List.length_cons] at lengths
    omega
  have last : next (.rawString delimiter (content ++ ')' :: delimiter)) '"' = ([], .literal content) := by
    rw [next, if_pos ⟨rfl, List.suffix_append ..⟩]
    simp
  have split : content ++ ')' :: (delimiter ++ ['"']) = content ++ ')' :: delimiter ++ ['"'] := by simp
  have read := run_rawString unclosed
  rw [List.nil_append] at read
  rw [split]
  exact run_trans read ((run_single ..).trans last)

/-! Identifiers. -/

/-- A character, by itself or by its number. -/
inductive Piece where
  | char (c : Char)
  | universal (marker : Char) (digits : List Char)

def isHexDigit (c : Char) : Bool := c.isDigit ∨ "abcdefABCDEF".toList.contains c

namespace Piece

def spelling : Piece → List Char
  | .char c => [c]
  | .universal marker digits => '\\' :: marker :: digits

def WellFormed : Piece → Prop
  | .char c => isWordChar c
  | .universal marker digits =>
    (marker = 'u' ∧ digits.length = 4 ∨ marker = 'U' ∧ digits.length = 8) ∧ ∀ digit ∈ digits, isHexDigit digit

end Piece

/-- Pieces of which the first is not a digit. -/
def IsIdentifier (name : List Char) : Prop :=
  ∃ first others, name = (first :: others).flatMap Piece.spelling ∧
    (∀ piece ∈ first :: others, piece.WellFormed) ∧ ∀ c, first = .char c → isLetter c

theorem isIdentifier_letter {c : Char} (letter : isLetter c) : IsIdentifier [c] := by
  refine ⟨.char c, [], rfl, ?_, ?_⟩
  · simp [Piece.WellFormed, isWordChar, letter]
  · rintro _ ⟨⟩
    exact letter

theorem isWordChar_of_isHexDigit {c : Char} (hex : isHexDigit c) : isWordChar c := by
  simp only [isHexDigit, decide_eq_true_eq] at hex
  rcases hex with digit | letter
  · simp [isWordChar, digit]
  · have each : "abcdefABCDEF".toList.all isWordChar := by decide
    exact List.all_eq_true.mp each c (List.contains_iff_mem.mp letter)

theorem not_isSpace_of_isLetter {c : Char} (letter : isLetter c) : ¬ isSpace c := by
  intro space
  simp only [isSpace, decide_eq_true_eq] at space
  rcases space with rfl | rfl | rfl | rfl | rfl
  all_goals exact absurd letter (by decide)

theorem run_word {spelling text : List Char} (chars : ∀ c ∈ text, isWordChar c) :
    run (.word spelling) text = ([], .word (spelling ++ text)) := by
  apply run_kept .word
  rintro before c after rfl
  exact if_pos (chars c (by simp))

theorem run_universalName {spelling digits : List Char} {marker : Char} (wellFormed : (Piece.universal marker digits).WellFormed) :
    run (.universalName spelling) (marker :: digits) = ([], .word (spelling ++ '\\' :: marker :: digits)) := by
  obtain ⟨marked, hex⟩ := wellFormed
  have named : next (.universalName spelling) marker = ([], .word (spelling ++ ['\\', marker])) := by
    rw [next, if_pos (marked.imp And.left And.left)]
  rw [run_cons, named, run_word fun c member => isWordChar_of_isHexDigit (hex c member)]
  simp

theorem run_piece {spelling : List Char} {piece : Piece} (wellFormed : piece.WellFormed) :
    run (.word spelling) piece.spelling = ([], .word (spelling ++ piece.spelling)) := by
  cases piece with
  | char c => exact run_word (by simpa [Piece.spelling, Piece.WellFormed] using wellFormed)
  | universal marker digits =>
    have escape : next (.word spelling) '\\' = ([], .universalName spelling) := rfl
    rw [Piece.spelling, run_cons, escape, run_universalName wellFormed, List.nil_append]

theorem run_pieces {spelling : List Char} {pieces : List Piece} (wellFormed : ∀ piece ∈ pieces, piece.WellFormed) :
    run (.word spelling) (pieces.flatMap Piece.spelling) = ([], .word (spelling ++ pieces.flatMap Piece.spelling)) := by
  induction pieces generalizing spelling with
  | nil => rw [List.flatMap_nil, run_nil, List.append_nil]
  | cons piece pieces ih =>
    have first : run (.word spelling) piece.spelling = ([], .word (spelling ++ piece.spelling)) :=
      run_piece (wellFormed piece (List.mem_cons_self ..))
    have others := @ih (spelling ++ piece.spelling) fun other member => wellFormed other (List.mem_cons_of_mem _ member)
    rw [List.flatMap_cons, run_trans first others, List.append_assoc, List.nil_append]

/-- An identifier is read as one word. -/
theorem run_identifier {name : List Char} (identifier : IsIdentifier name) : run .between name = ([], .word name) := by
  obtain ⟨first, others, rfl, wellFormed, letter⟩ := identifier
  have begun : run .between first.spelling = ([], .word first.spelling) := by
    have well := wellFormed first (List.mem_cons_self ..)
    cases first with
    | char c =>
      have isFirst := letter c rfl
      rw [Piece.spelling, run_single, next, start, if_neg (not_isSpace_of_isLetter isFirst), if_pos isFirst]
    | universal marker digits =>
      have escape : next .between '\\' = ([], .universalName []) := rfl
      rw [Piece.spelling, run_cons, escape, run_universalName well]
      rfl
  have rest : run (.word first.spelling) (others.flatMap Piece.spelling) =
      ([], .word (first.spelling ++ others.flatMap Piece.spelling)) :=
    run_pieces fun other member => wellFormed other (List.mem_cons_of_mem _ member)
  rw [List.flatMap_cons, run_trans begun rest, List.nil_append]

/-! Numbers in decimal. -/

theorem start_digit {c : Char} (digit : c.isDigit) : start c = ([], .number [c]) := by
  have each : ∀ n < 10, start (Char.ofNat (48 + n)) = ([], .number [Char.ofNat (48 + n)]) := by decide
  obtain ⟨n, small, rfl⟩ := Decimal.exists_of_isDigit digit
  exact each n small

theorem run_number {spelling text : List Char} (digits : ∀ c ∈ text, c.isDigit) :
    run (.number spelling) text = ([], .number (spelling ++ text)) := by
  apply run_kept .number
  rintro before c after rfl
  exact if_pos (digits c (by simp))

theorem run_toDigits (n : Nat) : run .between (Nat.toDigits 10 n) = ([], .number (Nat.toDigits 10 n)) := by
  have digits : ∀ c ∈ Nat.toDigits 10 n, c.isDigit := fun c member => Nat.isDigit_of_mem_toDigits (by decide) (by decide) member
  cases spelling : Nat.toDigits 10 n with
  | nil => exact absurd spelling Nat.toDigits_ne_nil
  | cons c text =>
    rw [spelling] at digits
    have first : next .between c = ([], .number [c]) := start_digit (digits c (List.mem_cons_self ..))
    rw [run_cons, first, run_number fun other member => digits other (List.mem_cons_of_mem _ member)]
    rfl

end AxbyCore.CppLexer
