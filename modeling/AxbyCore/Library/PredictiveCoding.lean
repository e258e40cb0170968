import Mathlib.Data.List.Nodup
import Mathlib.Logic.Function.Basic

/-! Predictive coding. The values at the places of an image are coded one after the
other, each as a symbol relative to what is known of the places before it. A symbol goes to
one of several streams, which the decoder chooses again in the same way. -/

namespace AxbyCore.PredictiveCoding

/-- `context` is what is read around an item. Both sides know which values are coded; `mask` keeps
the others. -/
structure Code (ι V C τ S : Type) where
  place : ι → Nat
  context : (Nat → V) → ι → C
  coded : V → Bool
  stream : C → τ
  symbol : C → V → S
  value : C → S → V

/-- An image that is decoded, and what is left of the streams. -/
structure Decoder (V τ S : Type) where
  image : Nat → V
  streams : τ → List S

variable {ι V C τ S : Type} [DecidableEq τ] (code : Code ι V C τ S)

/-- The symbols of a stream. -/
def Code.encode (image : Nat → V) (stream : τ) (order : List ι) : List S :=
  order.flatMap fun item =>
    if code.coded (image (code.place item)) = true ∧ code.stream (code.context image item) = stream then
      [code.symbol (code.context image item) (image (code.place item))]
    else []

/-- The next item; nothing if its stream has ended. -/
def Code.decodeItem (decoder : Decoder V τ S) (item : ι) : Option (Decoder V τ S) :=
  if code.coded (decoder.image (code.place item)) then
    let context := code.context decoder.image item
    match decoder.streams (code.stream context) with
    | [] => none
    | symbol :: rest => some {
        image := Function.update decoder.image (code.place item) (code.value context symbol)
        streams := Function.update decoder.streams (code.stream context) rest }
  else some decoder

def Code.decode (decoder : Decoder V τ S) (order : List ι) : Option (Decoder V τ S) :=
  order.foldlM code.decodeItem decoder

/-- Every item is read in the context of items before it. -/
def Code.Causal (order : List ι) : Prop :=
  ∀ earlier item later, order = earlier ++ item :: later → ∀ one two : Nat → V,
    (∀ former ∈ earlier, one (code.place former) = two (code.place former)) →
      code.context one item = code.context two item

variable {code}

/-- What a decoder starts with: the values that are not coded, and for the others that they are. -/
structure Code.Masks (mask image : Nat → V) (order : List ι) : Prop where
  coded : ∀ item ∈ order, code.coded (mask (code.place item)) = code.coded (image (code.place item))
  kept : ∀ item ∈ order, code.coded (image (code.place item)) = false → mask (code.place item) = image (code.place item)

/-- A decoder in the middle of an image whose symbols have been passed through a channel. -/
structure Code.Follows (image : Nat → V) (channel : S → S) (padding : τ → List S) (earlier later : List ι)
    (decoder : Decoder V τ S) : Prop where
  restored : ∀ item ∈ earlier, decoder.image (code.place item) = image (code.place item)
  masked : code.Masks decoder.image image later
  streams : ∀ stream, decoder.streams stream = (code.encode image stream later).map channel ++ padding stream

/-- The value of an item survives the channel. -/
def Code.Survives (code : Code ι V C τ S) (image : Nat → V) (channel : S → S) (item : ι) : Prop :=
  code.coded (image (code.place item)) = true →
    code.value (code.context image item)
      (channel (code.symbol (code.context image item) (image (code.place item)))) = image (code.place item)

theorem encode_cons (image : Nat → V) (stream : τ) (item : ι) (order : List ι) :
    code.encode image stream (item :: order) =
      (if code.coded (image (code.place item)) = true ∧ code.stream (code.context image item) = stream then
        [code.symbol (code.context image item) (image (code.place item))]
      else []) ++ code.encode image stream order := by
  rw [Code.encode, List.flatMap_cons]
  rfl

section
variable {image : Nat → V} {channel : S → S} {padding : τ → List S} {earlier later : List ι} {item : ι}
  {decoder : Decoder V τ S}

/-- The symbol that comes next, and where it is put. -/
theorem decodeItem_follows (causal : code.Causal (earlier ++ item :: later))
    (follows : code.Follows image channel padding earlier (item :: later) decoder)
    (present : code.coded (image (code.place item)) = true) :
    ∃ after, code.decodeItem decoder item = some after ∧
      after.image = Function.update decoder.image (code.place item) (code.value (code.context image item)
        (channel (code.symbol (code.context image item) (image (code.place item))))) ∧
      ∀ stream, after.streams stream = (code.encode image stream later).map channel ++ padding stream := by
  have context : code.context decoder.image item = code.context image item :=
    causal earlier item later rfl _ _ follows.restored
  have coded := (follows.masked.coded item (by simp)).trans present
  have next := follows.streams (code.stream (code.context image item))
  rw [encode_cons, if_pos ⟨present, rfl⟩] at next
  unfold Code.decodeItem
  rw [if_pos coded]
  simp only [context, next, List.map_cons, List.cons_append]
  refine ⟨_, rfl, rfl, ?_⟩
  intro stream
  dsimp only
  by_cases same : stream = code.stream (code.context image item)
  · rw [same, Function.update_self, List.nil_append]
  · have others := follows.streams stream
    rw [encode_cons, if_neg (fun chosen => same chosen.2.symm)] at others
    rw [Function.update_of_ne same, others, List.nil_append]

theorem decodeItem_absent (follows : code.Follows image channel padding earlier (item :: later) decoder)
    (absent : code.coded (image (code.place item)) = false) : code.decodeItem decoder item = some decoder := by
  have coded := (follows.masked.coded item (by simp)).trans absent
  rw [Code.decodeItem, if_neg (by rw [coded]; simp)]

/-- An item whose value survives is restored. -/
theorem follows_next (causal : code.Causal (earlier ++ item :: later))
    (places : ((earlier ++ item :: later).map code.place).Nodup)
    (follows : code.Follows image channel padding earlier (item :: later) decoder)
    (survives : code.Survives image channel item) :
    ∃ after, code.decodeItem decoder item = some after ∧
      code.Follows image channel padding (earlier ++ [item]) later after := by
  rw [List.map_append, List.map_cons] at places
  have apart : code.place item ∉ earlier.map code.place ∧ code.place item ∉ later.map code.place := by
    have placed := List.nodup_middle.mp places
    rw [List.nodup_cons, List.mem_append, not_or] at placed
    exact placed.1
  have off : ∀ other ∈ earlier ++ later, code.place other ≠ code.place item := by
    intro other member same
    cases List.mem_append.mp member with
    | inl member => exact apart.1 (List.mem_map.mpr ⟨other, member, same⟩)
    | inr member => exact apart.2 (List.mem_map.mpr ⟨other, member, same⟩)
  cases present : code.coded (image (code.place item)) with
  | true =>
    obtain ⟨after, decoded, updated, streams⟩ := decodeItem_follows causal follows present
    rw [survives present] at updated
    refine ⟨after, decoded, ?_, ⟨?_, ?_⟩, streams⟩
    · intro other member
      rw [updated]
      cases List.mem_append.mp member with
      | inl member => rw [Function.update_of_ne (off other (by simp [member])), follows.restored other member]
      | inr member => rw [List.mem_singleton.mp member, Function.update_self]
    · intro other member
      rw [updated, Function.update_of_ne (off other (by simp [member]))]
      exact follows.masked.coded other (by simp [member])
    · intro other member absent
      rw [updated, Function.update_of_ne (off other (by simp [member]))]
      exact follows.masked.kept other (by simp [member]) absent
  | false =>
    refine ⟨decoder, decodeItem_absent follows present, ?_, ⟨?_, ?_⟩, ?_⟩
    · intro other member
      cases List.mem_append.mp member with
      | inl member => exact follows.restored other member
      | inr member =>
        rw [List.mem_singleton.mp member]
        exact follows.masked.kept item (by simp) present
    · exact fun other member => follows.masked.coded other (by simp [member])
    · exact fun other member => follows.masked.kept other (by simp [member])
    · intro stream
      have streams := follows.streams stream
      rwa [encode_cons, if_neg (by rw [present]; simp), List.nil_append] at streams

/-- Where all values survive, the image is restored, and the padding is left. -/
theorem decode_restores (causal : code.Causal (earlier ++ later)) (places : ((earlier ++ later).map code.place).Nodup)
    (follows : code.Follows image channel padding earlier later decoder)
    (survives : ∀ item ∈ later, code.Survives image channel item) :
    ∃ after, code.decode decoder later = some after ∧
      code.Follows image channel padding (earlier ++ later) [] after := by
  induction later generalizing earlier decoder with
  | nil => exact ⟨decoder, rfl, by rwa [List.append_nil]⟩
  | cons item later ih =>
    obtain ⟨middle, decoded, next⟩ := follows_next causal places follows (survives item (by simp))
    obtain ⟨after, rest, restored⟩ := ih (by simpa using causal) (by simpa using places) next
      (fun other member => survives other (by simp [member]))
    refine ⟨after, ?_, by simpa using restored⟩
    rw [Code.decode, List.foldlM_cons, decoded]
    exact rest

/-- A place is not written again. -/
theorem decode_elsewhere {after : Decoder V τ S} {place : Nat} (decoded : code.decode decoder later = some after)
    (elsewhere : place ∉ later.map code.place) : after.image place = decoder.image place := by
  induction later generalizing decoder with
  | nil =>
    obtain rfl := Option.some.inj decoded
    rfl
  | cons item later ih =>
    rw [Code.decode, List.foldlM_cons] at decoded
    obtain ⟨middle, first, rest⟩ := Option.bind_eq_some_iff.mp decoded
    rw [List.map_cons, List.mem_cons, not_or] at elsewhere
    rw [ih rest elsewhere.2]
    unfold Code.decodeItem at first
    split at first
    · dsimp only at first
      split at first
      · cases first
      · obtain rfl := Option.some.inj first
        exact Function.update_of_ne elsewhere.1 _ _
    · obtain rfl := Option.some.inj first
      rfl

/-- The first value that does not survive is wrong in whatever is decoded. -/
theorem decode_differs (causal : code.Causal (earlier ++ later)) (places : ((earlier ++ later).map code.place).Nodup)
    (follows : code.Follows image channel padding earlier later decoder) {after : Decoder V τ S}
    (decoded : code.decode decoder later = some after) (lost : ∃ item ∈ later, ¬ code.Survives image channel item) :
    ∃ item ∈ later, code.coded (image (code.place item)) = true ∧
      after.image (code.place item) ≠ image (code.place item) := by
  induction later generalizing earlier decoder with
  | nil =>
    obtain ⟨_, member, _⟩ := lost
    cases member
  | cons item later ih =>
    rw [Code.decode, List.foldlM_cons] at decoded
    obtain ⟨middle, first, rest⟩ := Option.bind_eq_some_iff.mp decoded
    by_cases survives : code.Survives image channel item
    · obtain ⟨next, same, follows⟩ := follows_next causal places follows survives
      obtain rfl := Option.some.inj (first.symm.trans same)
      obtain ⟨other, member, gone⟩ := lost
      have behind : other ∈ later := by
        cases List.mem_cons.mp member with
        | inl same => exact absurd (same ▸ survives) gone
        | inr behind => exact behind
      obtain ⟨found, inside, wrong⟩ := ih (by simpa using causal) (by simpa using places) follows rest ⟨other, behind, gone⟩
      exact ⟨found, by simp [inside], wrong⟩
    · obtain ⟨present, wrong⟩ := Classical.not_imp.mp survives
      obtain ⟨next, same, updated, _⟩ := decodeItem_follows causal follows present
      obtain rfl := Option.some.inj (first.symm.trans same)
      refine ⟨item, by simp, present, ?_⟩
      rw [List.map_append, List.map_cons, List.nodup_middle, List.nodup_cons, List.mem_append, not_or] at places
      rw [decode_elsewhere rest places.1.2, updated, Function.update_self]
      exact wrong

end

end AxbyCore.PredictiveCoding
