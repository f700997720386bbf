import HobbyOS.Library.OverlappingCopy
import HobbyOS.Library.PackedRecord

namespace HobbyOS.Library

/-!
# Packed records in a memory

A field of a packed record lies behind the fields in front of it.  A record is
in the memory exactly if each field is at its offset, so a store to one field
is followed field by field.
-/

section Offsets

variable
  {Key : Type}
  [DecidableEq Key]

/-- The widths of the fields in front of a field. -/
def offsetOf (width : Key → Nat) (key : Key) : List Key → Nat
  | [] => 0
  | first :: rest =>
      if first = key then 0 else width first + offsetOf width key rest

variable
  {width : Key → Nat}
  {key other : Key}
  {keys : List Key}

/-- A field ends inside the record. -/
theorem offsetOf_add_width_le (member : key ∈ keys) :
    offsetOf width key keys + width key ≤ (keys.map width).sum := by
  induction keys with
  | nil =>
      cases member
  | cons first rest inductionHypothesis =>
      rw [offsetOf, List.map_cons, List.sum_cons]
      split
      · rename_i here
        subst here
        omega
      · rename_i elsewhere
        have behind :=
          inductionHypothesis
            ((List.mem_cons.mp member).resolve_left (Ne.symm elsewhere))
        omega

/-- Different fields do not overlap. -/
theorem offsetOf_apart
    (different : key ≠ other)
    (member : key ∈ keys)
    (isOther : other ∈ keys) :
    offsetOf width key keys + width key ≤ offsetOf width other keys ∨
      offsetOf width other keys + width other ≤
        offsetOf width key keys := by
  induction keys with
  | nil =>
      cases member
  | cons first rest inductionHypothesis =>
      rw [List.mem_cons] at member isOther
      rw [offsetOf, offsetOf]
      by_cases here : first = key
      · subst here
        rw [if_pos rfl, if_neg different]
        omega
      · rw [if_neg here]
        by_cases there : first = other
        · subst there
          rw [if_pos rfl]
          omega
        · rw [if_neg there]
          have behind :=
            inductionHypothesis (member.resolve_left (Ne.symm here))
              (isOther.resolve_left (Ne.symm there))
          omega

end Offsets

/-! ## Records in a memory -/

section Records

variable
  {Key : Type}
  [DecidableEq Key]
  {width : Key → Nat}
  {data : Key → List (BitVec 8)}
  {keys : List Key}
  {memory : Memory}

/-- The bytes of two ranges one behind the other. -/
theorem loadBytes_append
    (memory : Memory)
    (address : BitVec 32)
    (first second : Nat) :
    loadBytes memory address (first + second) =
      loadBytes memory address first ++
        loadBytes memory (address + BitVec.ofNat 32 first) second := by
  rw [loadBytes, List.range_add, List.map_append, List.map_map]
  refine congrArg (loadBytes memory address first ++ ·) ?_
  refine List.map_congr_left fun offset _ => ?_
  rw [Function.comp_apply, bytesAt, bytesAt, BitVec.add_assoc,
    BitVec.ofNat_add]

/-- A record is in the memory exactly if each field is at its offset. -/
theorem loadBytes_record_iff
    (sized : ∀ key ∈ keys, (data key).length = width key)
    (nodup : keys.Nodup)
    (address : BitVec 32) :
    loadBytes memory address (keys.flatMap data).length =
        keys.flatMap data ↔
      ∀ key ∈ keys,
        loadBytes memory
            (address + BitVec.ofNat 32 (offsetOf width key keys))
            (width key) =
          data key := by
  induction keys generalizing address with
  | nil =>
      simp [loadBytes]
  | cons first rest inductionHypothesis =>
      rw [List.forall_mem_cons] at sized
      rw [List.nodup_cons] at nodup
      have lengths :
          (loadBytes memory address (data first).length).length =
            (data first).length := by
        rw [loadBytes, List.length_map, List.length_range]
      have behind (key : Key) (member : key ∈ rest) :
          offsetOf width key (first :: rest) =
            width first + offsetOf width key rest := by
        rw [offsetOf, if_neg]
        rintro rfl
        exact nodup.1 member
      have here : offsetOf width first (first :: rest) = 0 := by
        rw [offsetOf, if_pos rfl]
      rw [List.flatMap_cons, List.length_append, loadBytes_append,
        List.append_eq_append_iff_of_size_eq_left lengths,
        inductionHypothesis sized.2 nodup.2, List.forall_mem_cons, here,
        BitVec.add_zero, ← sized.1]
      refine and_congr_right fun _ =>
        forall_congr' fun key => forall_congr' fun member => ?_
      rw [behind key member, BitVec.add_assoc, ← BitVec.ofNat_add, sized.1]

end Records

end HobbyOS.Library
