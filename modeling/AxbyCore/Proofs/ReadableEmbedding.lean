import AxbyCore.Library.CppLexer
import AxbyCore.Tools.EmbedFiles

/-! A header of readable files gives back their texts. No text makes an earlier end of its literal,
so the literals of the files behind it are read from where they were written. -/

namespace AxbyCore.Proofs.ReadableEmbedding
open Tools.EmbedFiles CppLexer

/-- What is accepted of a file: its text. -/
structure Accepted (input : Input) (text : List Char) : Prop where
  decoded : decode input.data = some text
  noNul : '\x00' ∉ text
  free : ¬ closingSeq <:+: text

/-- `inline const char symbol[] =` and the literal. -/
def declaration (symbol text : List Char) : List Token :=
  [.word "inline".toList, .word "const".toList, .word "char".toList, .word symbol, .punctuator '[', .punctuator ']',
    .punctuator '=', .rawString ('\n' :: text), .punctuator ';']

def pragma : List Token := [.punctuator '#', .word "pragma".toList, .word "once".toList]

def written (symbol text : List Char) : List Char := opening symbol ++ text ++ closing

theorem closing_distinct : ')' ∉ delim ++ ['"'] := by decide

theorem free_newline {text : List Char} (free : ¬ closingSeq <:+: text) : ¬ closingSeq <:+: '\n' :: text := by
  intro occurs
  rcases List.infix_cons_iff.mp occurs with ⟨_, begins⟩ | within
  · have same : ')' = '\n' := (List.cons_eq_cons.mp begins).1
    exact absurd same (by decide)
  · exact free within

/-- The closing sequence that is written is the first one, whatever is behind it. -/
theorem terminated_first {text rest before after : List Char} (free : ¬ closingSeq <:+: text)
    (same : '\n' :: text ++ (closingSeq ++ rest) = before ++ (closingSeq ++ after)) : ('\n' :: text) <+: before :=
  Occurrence.prefix_before closing_distinct (free_newline free) same

theorem emitReadable_eq_ok {h header : List Char} {input : Input} (emitted : emitReadable h input = .ok header) :
    ∃ text, Accepted input text ∧ header = h ++ written input.symbol text := by
  unfold emitReadable at emitted
  split at emitted
  next => cases emitted
  next text decoded =>
    split at emitted
    next => cases emitted
    next noNul =>
      split at emitted
      next => cases emitted
      next free =>
        cases emitted
        exact ⟨text, ⟨decoded, noNul, free⟩, by rw [written, List.append_assoc, List.append_assoc, List.append_assoc]⟩

def keywords : List Char := "inline const char ".toList

def equals : List Char := "[] = R\"".toList ++ delim ++ "(".toList

def semicolon : List Char := ";\n".toList

theorem opening_eq (symbol : List Char) : opening symbol = keywords ++ (symbol ++ (equals ++ ['\n'])) := rfl

theorem closing_eq : closing = closingSeq ++ semicolon := rfl

/-- The newline is the first character of the literal. -/
theorem written_eq (symbol text : List Char) :
    written symbol text = keywords ++ (symbol ++ (equals ++ ('\n' :: text ++ closingSeq ++ semicolon))) := by
  rw [written, opening_eq, closing_eq]
  simp only [List.append_assoc, List.cons_append, List.nil_append]

/-- One declaration is read from where it begins to where it ends. -/
theorem run_written {symbol text : List Char} (identifier : IsIdentifier symbol) (free : ¬ closingSeq <:+: text) :
    run .between (written symbol text) = (declaration symbol text, .between) := by
  have specifiers : run .between keywords = ([.word "inline".toList, .word "const".toList, .word "char".toList], .between) := rfl
  have opened : run (.word symbol) equals =
      ([.word symbol, .punctuator '[', .punctuator ']', .punctuator '='], .rawString delim []) := rfl
  have content : run (.rawString delim []) ('\n' :: text ++ closingSeq) = ([], .literal ('\n' :: text)) :=
    run_rawString_closed (by decide) (free_newline free)
  have closed : run (.literal ('\n' :: text)) semicolon = ([.rawString ('\n' :: text), .punctuator ';'], .between) := rfl
  rw [written_eq]
  exact run_trans specifiers (run_trans (run_identifier identifier) (run_trans opened (run_trans content closed)))

theorem accepted_free {pairs : List Input} {texts : List (List Char)} (accepted : List.Forall₂ Accepted pairs texts) :
    ∀ text ∈ texts, ¬ closingSeq <:+: text := by
  induction accepted with
  | nil => simp
  | cons first _ ih => exact List.forall_mem_cons.mpr ⟨first.free, ih⟩

/-- What a header has been read as carries over one more file, and so over all of them. -/
theorem run_emitted {pairs : List Input} {h header : List Char} {tokens : List Token}
    (identifiers : ∀ input ∈ pairs, IsIdentifier input.symbol) (read : run .between h = (tokens, .between))
    (emitted : pairs.foldlM (fun h input => emitReadable h input) h = .ok header) :
    ∃ texts, List.Forall₂ Accepted pairs texts ∧
      run .between header = (tokens ++ (List.zipWith declaration (pairs.map Input.symbol) texts).flatten, .between) := by
  induction pairs generalizing h tokens with
  | nil =>
    cases emitted
    exact ⟨[], .nil, by simpa using read⟩
  | cons input pairs ih =>
    rw [List.foldlM_cons] at emitted
    cases first : emitReadable h input with
    | error message =>
      rw [first] at emitted
      cases emitted
    | ok middle =>
      rw [first] at emitted
      obtain ⟨text, accepted, rfl⟩ := emitReadable_eq_ok first
      have one := run_trans read (run_written (identifiers input (List.mem_cons_self ..)) accepted.free)
      obtain ⟨texts, others, rest⟩ := ih (fun other member => identifiers other (List.mem_cons_of_mem _ member)) one emitted
      refine ⟨text :: texts, .cons accepted others, ?_⟩
      rw [rest, List.map_cons, List.zipWith_cons_cons, List.flatten_cons, List.append_assoc]

/-- The literals of the header are a newline and the texts of the files, in order. Each ends at the first
closing sequence behind its beginning. -/
theorem readable_exact {pairs : List Input} {header : List Char} (identifiers : ∀ input ∈ pairs, IsIdentifier input.symbol)
    (emitted : main true pairs = .ok header) :
    ∃ texts, List.Forall₂ Accepted pairs texts ∧
      lex header = some (pragma ++ (List.zipWith declaration (pairs.map Input.symbol) texts).flatten) ∧
      ∀ text ∈ texts, ∀ rest before after, '\n' :: text ++ (closingSeq ++ rest) = before ++ (closingSeq ++ after) →
        ('\n' :: text) <+: before := by
  have begun : run .between ("// Generated by embed_files.py. Do not edit.\n".toList ++ "#pragma once\n".toList) =
      (pragma, .between) := rfl
  obtain ⟨texts, accepted, read⟩ := run_emitted identifiers begun emitted
  refine ⟨texts, accepted, ?_, ?_⟩
  · have ended : run .between ['\n'] = ([], .between) := rfl
    rw [lex, run_trans read ended, List.append_nil]
  · intro text member rest before after same
    exact terminated_first (accepted_free accepted text member) same

/-- A text that lacks only the quote of the closing sequence, and a file behind it. -/
def nearly : List Input :=
  [⟨['a'], ['f'], [41, 126, 35, 46, 43, 94, 37, 38, 42, 61, 95, 93, 33, 45, 63, 91]⟩, ⟨['b'], ['g'], [120]⟩]

theorem readable_exact_nearly : ∃ header texts, main true nearly = .ok header ∧ List.Forall₂ Accepted nearly texts ∧
    lex header = some (pragma ++ (List.zipWith declaration [['a'], ['b']] texts).flatten) := by
  have identifiers : ∀ input ∈ nearly, IsIdentifier input.symbol := by
    simp only [nearly, List.forall_mem_cons]
    exact ⟨isIdentifier_letter (by decide), isIdentifier_letter (by decide), by simp⟩
  obtain ⟨header, emitted⟩ : ∃ header, main true nearly = .ok header := ⟨_, rfl⟩
  obtain ⟨texts, accepted, read, -⟩ := readable_exact identifiers emitted
  exact ⟨header, texts, emitted, accepted, read⟩

end AxbyCore.Proofs.ReadableEmbedding
