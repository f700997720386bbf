import Mathlib.Data.Nat.Digits.Lemmas

namespace HobbyOS.Library

/-!
# Packed records

A packed record is the sequence of its fields' bytes, one field behind the
other.  It is taken apart by the widths of the fields: with the widths it was
packed with this yields the fields, and it does so up to the first field whose
width differs.  Numbers are stored least significant byte first.
-/

/-- The number whose bytes are given, least significant byte first. -/
def littleEndian (bytes : List (BitVec 8)) : Nat :=
  Nat.ofDigits 256 (bytes.map BitVec.toNat)

section Numbers

variable {bytes first second : List (BitVec 8)}

/-- The bytes of a number are digits. -/
theorem digit_of_mem_bytes :
    ∀ digit ∈ bytes.map BitVec.toNat, digit < 256 := by
  intro digit member
  obtain ⟨byte, _, rfl⟩ := List.mem_map.mp member
  exact byte.isLt

/-- The high bytes count as much as the low ones can hold. -/
theorem littleEndian_append :
    littleEndian (first ++ second) =
      littleEndian first + 256 ^ first.length * littleEndian second := by
  rw [littleEndian, List.map_append, Nat.ofDigits_append, List.length_map]
  rfl

/-- A number fits its bytes. -/
theorem littleEndian_lt :
    littleEndian bytes < 256 ^ bytes.length := by
  have bound :=
    Nat.ofDigits_lt_base_pow_length (by decide : 1 < 256)
      (@digit_of_mem_bytes bytes)
  rwa [List.length_map] at bound

/-- Zeros are the number 0. -/
theorem littleEndian_replicate (count : Nat) :
    littleEndian (List.replicate count 0) = 0 := by
  rw [littleEndian, List.map_replicate]
  exact Nat.ofDigits_replicate_zero

/-- Numbers of the same width are equal if their bytes are. -/
theorem littleEndian_inj
    (sameLength : first.length = second.length) :
    littleEndian first = littleEndian second ↔ first = second := by
  constructor
  · intro same
    have digits :=
      Nat.ofDigits_inj_of_len_eq (by decide : 1 < 256)
        (by rw [List.length_map, List.length_map, sameLength])
        (@digit_of_mem_bytes first) (@digit_of_mem_bytes second) same
    exact List.map_injective_iff.mpr (fun _ _ => BitVec.eq_of_toNat_eq) digits
  · exact congrArg littleEndian

/-- A number is 0 if all its bytes are. -/
theorem littleEndian_eq_zero_iff :
    littleEndian bytes = 0 ↔ ∀ byte ∈ bytes, byte = 0 := by
  rw [← littleEndian_replicate bytes.length,
    littleEndian_inj (List.length_replicate).symm, List.eq_replicate_iff]
  exact and_iff_right rfl

/-- The low bytes are the whole number if the high ones are 0. -/
theorem littleEndian_take_eq_iff
    (count : Nat) :
    littleEndian (bytes.take count) = littleEndian bytes ↔
      littleEndian (bytes.drop count) = 0 := by
  have parts : littleEndian bytes = _ :=
    congrArg littleEndian (List.take_append_drop count bytes).symm
  rw [littleEndian_append] at parts
  have positive : 0 < 256 ^ (bytes.take count).length :=
    Nat.pow_pos (by decide)
  constructor
  · intro same
    rw [same] at parts
    have product :
        256 ^ (bytes.take count).length * littleEndian (bytes.drop count) =
          0 := by
      omega
    exact (Nat.mul_eq_zero.mp product).resolve_left (Nat.ne_of_gt positive)
  · intro zero
    rw [zero, Nat.mul_zero, Nat.add_zero] at parts
    exact parts.symm

end Numbers

/-! ## Taking records apart -/

section Records

variable {Key Item : Type}

/-- Take a sequence apart into fields, with the rest dropped. -/
def unpack (width : Key → Nat) :
    List Key → List Item → List (Key × List Item)
  | [], _ => []
  | key :: keys, items =>
      (key, items.take (width key)) ::
        unpack width keys (items.drop (width key))

variable
  {width : Key → Nat}
  {data : Key → List Item}
  {keys front back : List Key}

/-- Every field is read. -/
theorem map_fst_unpack (items : List Item) :
    (unpack width keys items).map Prod.fst = keys := by
  induction keys generalizing items with
  | nil =>
      rfl
  | cons key keys inductionHypothesis =>
      rw [unpack, List.map_cons, inductionHypothesis]

/-- The fields in front that have their widths are read as they are. -/
theorem unpack_append
    (sized : ∀ key ∈ front, (data key).length = width key)
    (rest : List Item) :
    unpack width (front ++ back) (front.flatMap data ++ rest) =
      front.map (fun key => (key, data key)) ++ unpack width back rest := by
  induction front with
  | nil =>
      rfl
  | cons key front inductionHypothesis =>
      rw [List.forall_mem_cons] at sized
      have here :
          ((key :: front).flatMap data ++ rest).take (width key) =
            data key := by
        rw [List.flatMap_cons, List.append_assoc, ← sized.1,
          List.take_left]
      have behind :
          ((key :: front).flatMap data ++ rest).drop (width key) =
            front.flatMap data ++ rest := by
        rw [List.flatMap_cons, List.append_assoc, ← sized.1,
          List.drop_left]
      rw [List.cons_append, unpack, here, behind,
        inductionHypothesis sized.2]
      rfl

/-- The fields are those that were packed if the sequences start alike. -/
theorem forall_unpack_iff
    (sized : ∀ key ∈ keys, (data key).length = width key)
    (items : List Item) :
    (∀ field ∈ unpack width keys items, field.2 = data field.1) ↔
      items.take (keys.flatMap data).length = keys.flatMap data := by
  induction keys generalizing items with
  | nil =>
      simp [unpack]
  | cons key keys inductionHypothesis =>
      rw [List.forall_mem_cons] at sized
      rw [unpack, List.forall_mem_cons, inductionHypothesis sized.2,
        List.flatMap_cons, List.length_append, ← sized.1, List.take_add]
      constructor
      · rintro ⟨here, behind⟩
        dsimp only at here
        rw [here, behind]
      · intro same
        have long :
            (items.take (data key).length).length = (data key).length := by
          have lengths := congrArg List.length same
          rw [List.length_append, List.length_append, List.length_take,
            List.length_take, List.length_drop] at lengths
          rw [List.length_take]
          omega
        exact List.append_inj same long

/-- The fields that are read have their widths, if there are enough items. -/
theorem length_of_mem_unpack
    {items : List Item}
    (enough : (keys.map width).sum ≤ items.length)
    {field : Key × List Item}
    (member : field ∈ unpack width keys items) :
    field.1 ∈ keys ∧ field.2.length = width field.1 := by
  induction keys generalizing items with
  | nil =>
      cases member
  | cons key keys inductionHypothesis =>
      rw [List.map_cons, List.sum_cons] at enough
      rw [unpack, List.mem_cons] at member
      rcases member with rfl | member
      · refine ⟨List.mem_cons_self, ?_⟩
        dsimp only
        rw [List.length_take]
        omega
      · have behind :=
          inductionHypothesis (by rw [List.length_drop]; omega) member
        exact ⟨List.mem_cons_of_mem _ behind.1, behind.2⟩

/-- A sequence that is the same behind copies of an item is copies of it. -/
theorem eq_of_mem_of_shifted
    {item : Item}
    {count : Nat}
    (positive : 0 < count)
    {items : List Item}
    (same :
      (List.replicate count item ++ items).take items.length = items) :
    ∀ other ∈ items, other = item := by
  have at_
      (index : Nat)
      (inside : index < items.length) :
      items[index] = item := by
    induction index using Nat.strongRecOn with
    | ind index inductionHypothesis =>
        have here :
            items[index]? =
              ((List.replicate count item ++ items).take
                items.length)[index]? :=
          congrArg (·[index]?) same.symm
        rw [List.getElem?_take_of_lt inside,
          List.getElem?_eq_getElem inside] at here
        by_cases early : index < count
        · rw [List.getElem?_append_left
              (by rw [List.length_replicate]; exact early),
            List.getElem?_replicate_of_lt early, Option.some.injEq] at here
          exact here
        · rw [List.getElem?_append_right
              (by rw [List.length_replicate]; omega),
            List.length_replicate,
            List.getElem?_eq_getElem (by omega), Option.some.injEq] at here
          rw [here]
          exact inductionHypothesis (index - count) (by omega) (by omega)
  intro other member
  obtain ⟨index, inside, rfl⟩ := List.mem_iff_getElem.mp member
  exact at_ index inside

end Records

end HobbyOS.Library
