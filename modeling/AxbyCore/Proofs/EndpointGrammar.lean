import AxbyCore.Library.Decimal
import AxbyCore.NetworkConfig.Endpoint
import Mathlib.Data.List.TakeWhile

/-! What ParseEndpoint accepts. The split is found from both ends, and there is no other one. -/

namespace AxbyCore.Proofs.EndpointGrammar
open NetworkConfig Occurrence

def isSpace (c : Char) : Bool := c = ' ' ∨ c = '\t' ∨ c = '\n' ∨ c = '\u000b' ∨ c = '\u000c' ∨ c = '\r'

/-- A number in decimal behind a sign, with white space around them. -/
structure Numeral (sign text : List Char) (number : Nat) : Prop where
  parts : ∃ before digits after, text = before ++ (sign ++ (digits ++ after)) ∧ digits ≠ [] ∧ number = Decimal.value digits ∧
    (∀ c ∈ before, isSpace c) ∧ (∀ c ∈ digits, c.isDigit) ∧ ∀ c ∈ after, isSpace c

/-- What is documented of SimpleAtoi for uint32_t. Whether zero may be negative is left open. -/
structure SimpleAtoi (simpleAtoi : List Char → Option Nat) : Prop where
  accepts : ∀ text number, number < 2 ^ 32 → Numeral [] text number ∨ Numeral ['+'] text number → simpleAtoi text = some number
  accepted : ∀ text number, simpleAtoi text = some number →
    number < 2 ^ 32 ∧ (Numeral [] text number ∨ Numeral ['+'] text number ∨ Numeral ['-'] text number ∧ number = 0)

/-- The protocol reaches up to the first separator. -/
structure Form (uri protocol ip port : List Char) : Prop where
  joined : uri = protocol ++ ([':', '/', '/'] ++ (ip ++ ':' :: port))
  first : ¬ [':', '/', '/'] <:+: protocol
  protocolNonempty : protocol ≠ []
  ipNonempty : ip ≠ []

def render (endpoint : Endpoint) : List Char :=
  endpoint.protocol ++ ([':', '/', '/'] ++ (endpoint.ip ++ ':' :: Nat.toDigits 10 endpoint.port))

theorem check_bind_eq_ok {α : Type} {condition : Prop} [Decidable condition] {message : String} {next : Unit → Except String α}
    {result : α} : (check condition message >>= next) = .ok result ↔ condition ∧ next () = .ok result := by
  unfold check
  split
  next holds => exact ⟨fun rest => ⟨holds, rest⟩, And.right⟩
  next fails => exact ⟨nofun, fun both => absurd both.1 fails⟩

theorem checkSome_bind_eq_ok {α β : Type} {found : Option α} {message : String} {next : α → Except String β} {result : β} :
    (checkSome found message >>= next) = .ok result ↔ ∃ value, found = some value ∧ next value = .ok result := by
  cases found with
  | none => exact ⟨nofun, nofun⟩
  | some value => exact ⟨fun rest => ⟨value, rfl, rest⟩, fun ⟨_, same, rest⟩ => Option.some.inj same ▸ rest⟩

theorem not_colon {sign text : List Char} {number : Nat} (signed : ':' ∉ sign) (numeral : Numeral sign text number) :
    ':' ∉ text ∧ text ≠ [] := by
  obtain ⟨before, digits, after, rfl, nonempty, _, spaces, all, spacesAfter⟩ := numeral.parts
  refine ⟨?_, ?_⟩
  · simp only [List.mem_append, not_or]
    refine ⟨fun member => absurd (spaces _ member) (by decide), signed, fun member => absurd (all _ member) (by decide),
      fun member => absurd (spacesAfter _ member) (by decide)⟩
  · simp [nonempty]

/-- A port that is accepted has no colon in it and is not empty. -/
theorem SimpleAtoi.port {simpleAtoi : List Char → Option Nat} (documented : SimpleAtoi simpleAtoi) {text : List Char} {number : Nat}
    (read : simpleAtoi text = some number) : ':' ∉ text ∧ text ≠ [] := by
  rcases (documented.accepted text number read).2 with plain | positive | ⟨negative, -⟩
  · exact not_colon (by decide) plain
  · exact not_colon (by decide) positive
  · exact not_colon (by decide) negative

section
variable (before pattern after : List Char)

theorem take_before : (before ++ (pattern ++ after)).take before.length = before := List.take_left

theorem drop_pattern : (before ++ (pattern ++ after)).drop (before.length + pattern.length) = after := by
  rw [← List.drop_drop, List.drop_left, List.drop_left]

end

/-- The branches of the source, on a text that is split where it is split by them. -/
theorem parse_split {simpleAtoi : List Char → Option Nat} {protocol ip port : List Char} (first : ¬ [':', '/', '/'] <:+: protocol)
    (last : ':' ∉ port) {endpoint : Endpoint} :
    parseEndpoint simpleAtoi (protocol ++ ([':', '/', '/'] ++ (ip ++ ':' :: port))) = .ok endpoint ↔
      protocol ≠ [] ∧ ip ≠ [] ∧ port ≠ [] ∧ ∃ port32, simpleAtoi port = some port32 ∧ port32 ≤ 65535 ∧
        endpoint = { protocol, ip, port := port32 } := by
  have found : find [':', '/', '/'] (protocol ++ ([':', '/', '/'] ++ (ip ++ ':' :: port))) = some protocol.length :=
    (find_eq_some_iff (by decide)).mpr ⟨protocol, _, rfl, rfl, first⟩
  have foundLast : rfind ':' (ip ++ ':' :: port) = some ip.length := rfind_eq_some_iff.mpr ⟨ip, port, rfl, rfl, last⟩
  have rest := drop_pattern protocol [':', '/', '/'] (ip ++ ':' :: port)
  have behind := drop_pattern ip [':'] port
  have start := take_before ip [':'] port
  simp only [List.length_cons, List.length_nil, Nat.zero_add, List.singleton_append, Nat.reduceAdd] at rest behind start
  simp only [parseEndpoint, checkSome_bind_eq_ok, check_bind_eq_ok, found, Option.some.injEq, exists_eq_left', rest, foundLast, behind,
    start, take_before, List.length_pos_iff]
  constructor
  · rintro ⟨protocolNonempty, ipNonempty, portNonempty, port32, read, range, result⟩
    have same : port32 % 2 ^ 16 = port32 := Nat.mod_eq_of_lt (by omega)
    rw [same] at result
    cases result
    exact ⟨protocolNonempty, ipNonempty, portNonempty, port32, read, range, rfl⟩
  · rintro ⟨protocolNonempty, ipNonempty, portNonempty, port32, read, range, rfl⟩
    have same : port32 % 2 ^ 16 = port32 := Nat.mod_eq_of_lt (by omega)
    refine ⟨protocolNonempty, ipNonempty, portNonempty, port32, read, range, ?_⟩
    rw [same]
    rfl

/-- A text that is accepted is split by the first separator and the last colon behind it. -/
theorem splits_of_ok {simpleAtoi : List Char → Option Nat} {uri : List Char} {endpoint : Endpoint}
    (parsed : parseEndpoint simpleAtoi uri = .ok endpoint) :
    ∃ protocol ip port, uri = protocol ++ ([':', '/', '/'] ++ (ip ++ ':' :: port)) ∧ ¬ [':', '/', '/'] <:+: protocol ∧ ':' ∉ port := by
  simp only [parseEndpoint, checkSome_bind_eq_ok, check_bind_eq_ok] at parsed
  obtain ⟨sepProtocol, found, _, sepPort, last, _⟩ := parsed
  obtain ⟨protocol, rest, rfl, rfl, first⟩ := (find_eq_some_iff (by decide)).mp found
  have behind := drop_pattern protocol [':', '/', '/'] rest
  simp only [List.length_cons, List.length_nil, Nat.zero_add, Nat.reduceAdd] at behind
  rw [behind] at last
  obtain ⟨ip, port, rfl, _, free⟩ := rfind_eq_some_iff.mp last
  exact ⟨protocol, ip, port, rfl, first, free⟩

theorem parse_eq_ok_iff {simpleAtoi : List Char → Option Nat} (documented : SimpleAtoi simpleAtoi) {uri : List Char}
    {endpoint : Endpoint} :
    parseEndpoint simpleAtoi uri = .ok endpoint ↔ ∃ port, Form uri endpoint.protocol endpoint.ip port ∧
      simpleAtoi port = some endpoint.port ∧ endpoint.port ≤ 65535 := by
  constructor
  · intro parsed
    obtain ⟨protocol, ip, port, rfl, first, last⟩ := splits_of_ok parsed
    obtain ⟨protocolNonempty, ipNonempty, _, port32, read, range, rfl⟩ := (parse_split first last).mp parsed
    exact ⟨port, ⟨rfl, first, protocolNonempty, ipNonempty⟩, read, range⟩
  · rintro ⟨port, ⟨rfl, first, protocolNonempty, ipNonempty⟩, read, range⟩
    obtain ⟨last, portNonempty⟩ := documented.port read
    exact (parse_split first last).mpr ⟨protocolNonempty, ipNonempty, portNonempty, _, read, range, rfl⟩

/-- The port is rendered without the white space, the sign and the zeros in front that it may have had. -/
theorem rendered {simpleAtoi : List Char → Option Nat} (documented : SimpleAtoi simpleAtoi) {port : List Char} {number : Nat}
    (read : simpleAtoi port = some number) :
    ∃ before sign zeros after, port = before ++ (sign ++ (List.replicate zeros '0' ++ Nat.toDigits 10 number ++ after)) ∧
      (∀ c ∈ before, isSpace c) ∧ sign ∈ [[], ['+'], ['-']] ∧ ∀ c ∈ after, isSpace c := by
  have spelled {sign : List Char} (known : sign ∈ [[], ['+'], ['-']]) (numeral : Numeral sign port number) :
      ∃ before sign zeros after, port = before ++ (sign ++ (List.replicate zeros '0' ++ Nat.toDigits 10 number ++ after)) ∧
        (∀ c ∈ before, isSpace c) ∧ sign ∈ [[], ['+'], ['-']] ∧ ∀ c ∈ after, isSpace c := by
    obtain ⟨before, digits, after, split, nonempty, rfl, spaces, all, spacesAfter⟩ := numeral.parts
    obtain ⟨zeros, same⟩ := Decimal.eq_zeros_append nonempty all
    exact ⟨before, sign, zeros, after, by rw [split, ← same], spaces, known, spacesAfter⟩
  rcases (documented.accepted port number read).2 with plain | positive | ⟨negative, -⟩
  · exact spelled (by decide) plain
  · exact spelled (by decide) positive
  · exact spelled (by decide) negative

/-- Accepted is a protocol, an address and a port that SimpleAtoi reads, and at least every port of digits. The fields
are these parts, so rendering them gives the text up to how its port is written. -/
theorem parses_exactly {simpleAtoi : List Char → Option Nat} (documented : SimpleAtoi simpleAtoi) (uri : List Char)
    (endpoint : Endpoint) :
    (parseEndpoint simpleAtoi uri = .ok endpoint ↔ ∃ port, Form uri endpoint.protocol endpoint.ip port ∧
      simpleAtoi port = some endpoint.port ∧ endpoint.port ≤ 65535) ∧
    (∀ port, Form uri endpoint.protocol endpoint.ip port → port ≠ [] → (∀ c ∈ port, c.isDigit) →
      endpoint.port = Decimal.value port → endpoint.port ≤ 65535 → parseEndpoint simpleAtoi uri = .ok endpoint) ∧
    (parseEndpoint simpleAtoi uri = .ok endpoint → ∃ head before sign zeros after,
      render endpoint = head ++ Nat.toDigits 10 endpoint.port ∧
      uri = head ++ (before ++ (sign ++ (List.replicate zeros '0' ++ Nat.toDigits 10 endpoint.port ++ after))) ∧
      (∀ c ∈ before, isSpace c) ∧ sign ∈ [[], ['+'], ['-']] ∧ ∀ c ∈ after, isSpace c) := by
  refine ⟨parse_eq_ok_iff documented, ?_, ?_⟩
  · intro port form nonempty digits number range
    have numeral : Numeral [] port endpoint.port := ⟨[], port, [], by simp, nonempty, number, by simp, digits, by simp⟩
    have read := documented.accepts port endpoint.port (by omega) (.inl numeral)
    exact (parse_eq_ok_iff documented).mpr ⟨port, form, read, range⟩
  · intro parsed
    obtain ⟨port, form, read, _⟩ := (parse_eq_ok_iff documented).mp parsed
    obtain ⟨before, sign, zeros, after, split, spaces, known, spacesAfter⟩ := rendered documented read
    refine ⟨endpoint.protocol ++ ([':', '/', '/'] ++ (endpoint.ip ++ [':'])), before, sign, zeros, after, ?_, ?_, spaces, known,
      spacesAfter⟩
    · simp only [render, List.append_assoc, List.singleton_append]
    · rw [form.joined, ← split]
      simp only [List.append_assoc, List.singleton_append]

def trim (text : List Char) : List Char := ((text.dropWhile isSpace).reverse.dropWhile isSpace).reverse

def decimalAtoi (text : List Char) : Option Nat :=
  let digits := if (trim text).head? = some '+' then (trim text).tail else trim text
  if digits ≠ [] ∧ digits.all Char.isDigit ∧ Decimal.value digits < 2 ^ 32 then some (Decimal.value digits) else none

theorem dropWhile_spaces {before : List Char} (spaces : ∀ c ∈ before, isSpace c) {c : Char} (solid : ¬ isSpace c)
    (text : List Char) : (before ++ c :: text).dropWhile isSpace = c :: text := by
  rw [List.dropWhile_append_of_pos spaces, List.dropWhile_cons_of_neg solid]

theorem trim_eq {before after : List Char} (spaces : ∀ c ∈ before, isSpace c) (spacesAfter : ∀ c ∈ after, isSpace c)
    {core : List Char} {first last : Char} {others sooner : List Char} (begins : core = first :: others) (ends : core = sooner ++ [last])
    (solid : ¬ isSpace first) (solidLast : ¬ isSpace last) : trim (before ++ (core ++ after)) = core := by
  have started : (before ++ (core ++ after)).dropWhile isSpace = core ++ after := by
    rw [begins]
    exact dropWhile_spaces spaces solid (others ++ after)
  have ended : (core ++ after).reverse.dropWhile isSpace = core.reverse := by
    have spacesBack : ∀ c ∈ after.reverse, isSpace c := fun c member => spacesAfter c (List.mem_reverse.mp member)
    have back := dropWhile_spaces spacesBack solidLast sooner.reverse
    rw [ends]
    simpa using back
  rw [trim, started, ended, List.reverse_reverse]

theorem trim_split (text : List Char) : ∃ before after, text = before ++ (trim text ++ after) ∧
    (∀ c ∈ before, isSpace c) ∧ ∀ c ∈ after, isSpace c := by
  have front : text.takeWhile isSpace ++ text.dropWhile isSpace = text := List.takeWhile_append_dropWhile
  have back : (text.dropWhile isSpace).reverse.takeWhile isSpace ++ (text.dropWhile isSpace).reverse.dropWhile isSpace =
    (text.dropWhile isSpace).reverse := List.takeWhile_append_dropWhile
  refine ⟨text.takeWhile isSpace, ((text.dropWhile isSpace).reverse.takeWhile isSpace).reverse, ?_, ?_, ?_⟩
  · rw [trim, ← List.reverse_append, back, List.reverse_reverse, front]
  · exact fun c member => List.mem_takeWhile_imp member
  · exact fun c member => List.mem_takeWhile_imp (List.mem_reverse.mp member)

theorem not_isSpace {c : Char} (digit : c.isDigit) : ¬ isSpace c := by
  intro space
  simp only [isSpace, decide_eq_true_eq] at space
  rcases space with rfl | rfl | rfl | rfl | rfl | rfl
  all_goals exact absurd digit (by decide)

theorem decimalAtoi_accepts {sign text : List Char} {number : Nat} (known : sign = [] ∨ sign = ['+']) (small : number < 2 ^ 32)
    (numeral : Numeral sign text number) : decimalAtoi text = some number := by
  obtain ⟨before, digits, after, rfl, nonempty, rfl, spaces, all, spacesAfter⟩ := numeral.parts
  have ends := (List.dropLast_concat_getLast nonempty).symm
  have solidLast := not_isSpace (all _ (List.getLast_mem nonempty))
  obtain ⟨c, others, begins⟩ := List.exists_cons_of_ne_nil nonempty
  have digit : c.isDigit := all c (begins ▸ List.mem_cons_self ..)
  rw [← List.append_assoc sign]
  have result : (if digits ≠ [] ∧ digits.all Char.isDigit ∧ Decimal.value digits < 2 ^ 32 then some (Decimal.value digits)
      else none) = some (Decimal.value digits) := if_pos ⟨nonempty, List.all_eq_true.mpr all, small⟩
  rcases known with rfl | rfl
  · have trimmed : trim (before ++ (digits ++ after)) = digits := trim_eq spaces spacesAfter begins ends (not_isSpace digit) solidLast
    have unsigned : ¬ digits.head? = some '+' := by
      rw [begins, List.head?_cons, Option.some.injEq]
      rintro rfl
      exact absurd digit (by decide)
    rw [List.nil_append, decimalAtoi, trimmed, if_neg unsigned, result]
  · have endsSigned : ['+'] ++ digits = '+' :: digits.dropLast ++ [digits.getLast nonempty] := congrArg ('+' :: ·) ends
    have trimmed : trim (before ++ (['+'] ++ digits ++ after)) = '+' :: digits :=
      trim_eq spaces spacesAfter rfl endsSigned (by decide) solidLast
    rw [decimalAtoi, trimmed]
    exact result

/-- It is as documented, and rejects a negative zero. -/
theorem simpleAtoi_decimalAtoi : SimpleAtoi decimalAtoi := by
  constructor
  · intro text number small numeral
    rcases numeral with plain | positive
    · exact decimalAtoi_accepts (.inl rfl) small plain
    · exact decimalAtoi_accepts (.inr rfl) small positive
  · intro text number read
    obtain ⟨before, after, split, spaces, spacesAfter⟩ := trim_split text
    rw [decimalAtoi] at read
    obtain ⟨⟨nonempty, digits, small⟩, number_eq⟩ := Option.ite_none_right_eq_some.mp read
    have all := List.all_eq_true.mp digits
    cases number_eq
    refine ⟨small, ?_⟩
    by_cases positive : (trim text).head? = some '+'
    · simp only [if_pos positive] at nonempty all ⊢
      have signed : trim text = ['+'] ++ (trim text).tail := (List.cons_head?_tail positive).symm
      rw [signed, List.append_assoc] at split
      exact .inr (.inl ⟨before, _, after, split, nonempty, rfl, spaces, all, spacesAfter⟩)
    · simp only [if_neg positive] at nonempty all ⊢
      exact .inl ⟨before, _, after, split, nonempty, rfl, spaces, all, spacesAfter⟩

theorem parses_exactly_local :
    parseEndpoint decimalAtoi "tcp://127.0.0.1:7777".toList = .ok { protocol := "tcp".toList, ip := "127.0.0.1".toList, port := 7777 } := by
  have digits : "7777".toList.all Char.isDigit := by decide
  apply (parses_exactly simpleAtoi_decimalAtoi _ _).2.1 "7777".toList
  · exact ⟨rfl, by decide, by decide, by decide⟩
  · decide
  · exact List.all_eq_true.mp digits
  · rfl
  · decide

/-- The port may have a sign, so it is not made of digits only. -/
theorem port_with_sign :
    parseEndpoint decimalAtoi "tcp://127.0.0.1:+80".toList = .ok { protocol := "tcp".toList, ip := "127.0.0.1".toList, port := 80 } ∧
      ¬ ∃ protocol ip port, Form "tcp://127.0.0.1:+80".toList protocol ip port ∧ ∀ c ∈ port, c.isDigit := by
  refine ⟨by decide +kernel, ?_⟩
  rintro ⟨protocol, ip, port, form, digits⟩
  have colonless : ':' ∉ port := fun member => absurd (digits ':' member) (by decide)
  have joined : "tcp://127.0.0.1:+80".toList = protocol ++ ([':', '/', '/'] ++ ip) ++ ':' :: port := by
    rw [form.joined, List.append_assoc, List.append_assoc]
  have last := rfind_eq_some_iff.mpr ⟨_, port, joined, rfl, colonless⟩
  have there : rfind ':' "tcp://127.0.0.1:+80".toList = some 15 := by decide +kernel
  have length : (protocol ++ ([':', '/', '/'] ++ ip)).length = 15 := Option.some.inj (last.symm.trans there)
  have same := congrArg (List.drop 15) joined
  rw [← length, List.drop_left, length] at same
  have sign : ':' :: port = ":+80".toList := same.symm
  cases sign
  exact absurd (digits '+' (List.mem_cons_self ..)) (by decide)

end AxbyCore.Proofs.EndpointGrammar
