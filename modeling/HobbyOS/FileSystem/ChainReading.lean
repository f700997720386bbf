import HobbyOS.Boot.FindEntry
import HobbyOS.Drive.RoundTrip
import HobbyOS.FileSystem.Fat16

namespace HobbyOS

open Library

/-!
# Reading a chain in runs

`read_all_to` reads consecutive clusters together, up to 256 at once, but the
number of sectors is passed as a byte.  A run of 256 clusters is therefore not
read at all, although the destination moves on behind it.  All other chains
are stored in order, as the boot loader loads them.
-/

/-- The second cluster is the one behind the first on the disk. -/
def Consecutive (first second : BitVec 16) : Prop :=
  second.toNat = first.toNat + 1

/-- The sectors of a chain one behind the other. -/
def chainBytes (disk : Disk) : List (BitVec 16) → Nat → Byte
  | [] => fun _ => 0
  | cluster :: rest =>
      appendBytes (disk (cluster.setWidth 28)) 512 (chainBytes disk rest)

/-! ## Runs of clusters -/

/-- The bytes of a chain in two parts. -/
theorem chainBytes_append
    (disk : Disk)
    (front back : List (BitVec 16)) :
    chainBytes disk (front ++ back) =
      appendBytes (chainBytes disk front) (front.length * 512)
        (chainBytes disk back) := by
  induction front with
  | nil =>
      funext offset
      simp [appendBytes]
  | cons cluster rest inductionHypothesis =>
      funext offset
      simp only [List.cons_append, chainBytes, inductionHypothesis,
        appendBytes, List.length_cons]
      by_cases inFirst : offset < 512
      · rw [if_pos inFirst, if_pos (by omega), if_pos inFirst]
      · rw [if_neg inFirst, if_neg inFirst]
        by_cases inFront : offset < (rest.length + 1) * 512
        · rw [if_pos inFront, if_pos (by omega)]
        · rw [if_neg inFront, if_neg (by omega)]
          refine congrArg (chainBytes disk back) ?_
          omega

/-- Sectors behind the first one. -/
theorem sectorBytes_succ
    (disk : Disk)
    (first : BitVec 28)
    {offset : Nat}
    (behind : 512 ≤ offset) :
    sectorBytes disk (first + 1) (offset - 512) =
      sectorBytes disk first offset := by
  have quotient : offset / 512 = 1 + (offset - 512) / 512 := by omega
  have remainder : offset % 512 = (offset - 512) % 512 := by omega
  rw [sectorBytes, sectorBytes, quotient, remainder, BitVec.ofNat_add,
    ← BitVec.add_assoc]
  rfl

/-- The sectors of consecutive clusters are consecutive. -/
theorem chainBytes_consecutive
    (disk : Disk)
    {first : BitVec 16}
    {rest : List (BitVec 16)}
    (consecutive : (first :: rest).IsChain Consecutive)
    {offset : Nat}
    (inside : offset < (first :: rest).length * 512) :
    chainBytes disk (first :: rest) offset =
      sectorBytes disk (first.setWidth 28) offset := by
  induction rest generalizing first offset with
  | nil =>
      have small : offset < 512 := by simpa using inside
      rw [chainBytes, appendBytes, if_pos small, sectorBytes,
        Nat.div_eq_of_lt small, Nat.mod_eq_of_lt small]
      exact congrFun (congrArg disk (BitVec.add_zero _).symm) offset
  | cons next rest inductionHypothesis =>
      rw [List.isChain_cons_cons] at consecutive
      obtain ⟨follows, tail⟩ := consecutive
      have sector :
          next.setWidth 28 = first.setWidth 28 + (1 : BitVec 28) := by
        apply BitVec.eq_of_toNat_eq
        have bounded := next.isLt
        have one : (1 : BitVec 28).toNat = 1 := rfl
        rw [BitVec.toNat_add, BitVec.toNat_setWidth,
          BitVec.toNat_setWidth, follows, one]
        omega
      rw [chainBytes, appendBytes]
      by_cases inFirst : offset < 512
      · rw [if_pos inFirst, sectorBytes, Nat.div_eq_of_lt inFirst,
          Nat.mod_eq_of_lt inFirst]
        exact congrFun (congrArg disk (BitVec.add_zero _).symm) offset
      · rw [if_neg inFirst, ← sectorBytes_succ disk _ (by omega), ← sector]
        refine inductionHypothesis tail ?_
        simp only [List.length_cons] at inside ⊢
        omega

/-- The inner loop finds the longest run, up to its limit. -/
theorem extendRun_spec
    {clusterTable : ClusterTable}
    {first : BitVec 16}
    {rest : List (BitVec 16)}
    (chain : LinkedChain clusterTable EndsChain first (first :: rest))
    (inside : ∀ cluster ∈ first :: rest, cluster.toNat < 0xC00)
    (remaining run : Nat) :
    ∃ front last tail,
      first :: rest = front ++ last :: tail ∧
      extendRun clusterTable remaining first run =
        (last, run + front.length) ∧
      front.length ≤ remaining ∧
      (front ++ [last]).IsChain Consecutive ∧
      (front.length = remaining ∨
        ∀ head ∈ tail.head?, ¬Consecutive last head) ∧
      LinkedChain clusterTable EndsChain (clusterTable last) tail := by
  induction remaining generalizing first rest run with
  | zero =>
      cases chain with
      | cons _ tailChain =>
          exact ⟨[], first, rest, rfl, rfl, Nat.le_refl 0,
            List.isChain_singleton first, Or.inl rfl, tailChain⟩
  | succ remaining inductionHypothesis =>
      have small := inside first (by simp)
      cases chain with
      | cons _ tailChain =>
          by_cases follows :
              (clusterTable first).toNat = first.toNat + 1
          · -- The successor is below the values that end a chain.
            cases tailChain with
            | nil ended =>
                exfalso
                unfold EndsChain at ended
                omega
            | @cons _ others continues last =>
                obtain ⟨front, last, tail, listed, extended, bounded,
                  consecutive, stopped, lastChain⟩ :=
                  inductionHypothesis (.cons continues last)
                    (fun cluster member =>
                      inside cluster (List.mem_cons_of_mem _ member))
                    (run + 1)
                refine ⟨first :: front, last, tail, by rw [listed]; rfl,
                  ?_, Nat.succ_le_succ bounded, ?_, ?_, lastChain⟩
                · rw [extendRun, if_pos ⟨by omega, follows⟩, extended,
                    List.length_cons]
                  simp only [Prod.mk.injEq, true_and]
                  omega
                · cases front with
                  | nil =>
                      have head : clusterTable first = last := by
                        simpa using (List.cons.inj listed).1
                      rw [head] at follows
                      simpa [Consecutive] using follows
                  | cons head front =>
                      have same := (List.cons.inj listed).1
                      rw [same] at follows
                      exact List.isChain_cons_cons.mpr
                        ⟨follows, consecutive⟩
                · rcases stopped with full | apart
                  · exact Or.inl (congrArg (· + 1) full)
                  · exact Or.inr apart
          · refine ⟨[], first, rest, rfl, ?_, Nat.zero_le _,
              List.isChain_singleton first, Or.inr ?_, tailChain⟩
            · rw [extendRun, if_neg fun both => follows both.2]
              rfl
            · intro head isHead consecutive
              cases tailChain with
              | nil =>
                  simp at isHead
              | cons =>
                  simp only [List.head?_cons, Option.mem_some_iff]
                    at isHead
                  subst isHead
                  exact follows consecutive

/-! ## What the outer loop stores -/

/--
What reading a chain does to the memory: it stores the sectors of the chain,
unless a run of 256 clusters leaves bytes as they were.
-/
structure ChainRead
    (disk : Disk)
    (memory : Memory)
    (destination : PtrT)
    (clusters : List (BitVec 16))
    (memory' : Memory) :
    Prop where
  complete :
    ¬HasRun Consecutive 256 clusters →
    memory' =
      storeBytes memory destination (chainBytes disk clusters)
        (clusters.length * 512)
  skipped :
    HasRun Consecutive 256 clusters →
    ∃ offset < clusters.length * 512,
      memory' (destination + BitVec.ofNat 32 offset) =
        memory (destination + BitVec.ofNat 32 offset)
  outside :
    ∀ target,
      clusters.length * 512 ≤ (target - destination).toNat →
      memory' target = memory target

/-- One run of the outer loop. -/
theorem ChainRead.run
    (disk : Disk)
    (memory : Memory)
    (destination : PtrT)
    {first : BitVec 16}
    {rest : List (BitVec 16)}
    (consecutive : (first :: rest).IsChain Consecutive)
    (short : rest.length ≤ 255) :
    ChainRead disk memory destination (first :: rest)
      (storeBytes memory destination (sectorBytes disk (first.setWidth 28))
        ((BitVec.ofNat 8 (first :: rest).length).toNat * 512)) := by
  have length : (first :: rest).length = rest.length + 1 := rfl
  rcases Nat.lt_or_eq_of_le short with shorter | full
  · have count :
        (BitVec.ofNat 8 (first :: rest).length).toNat =
          (first :: rest).length := by
      rw [BitVec.toNat_ofNat, Nat.mod_eq_of_lt (by omega)]
    rw [count]
    refine ⟨fun _ => ?_, ?_, fun target => storeBytes_outside⟩
    · exact storeBytes_congr fun offset inside =>
        (chainBytes_consecutive disk consecutive inside).symm
    · rintro ⟨run, within, long, _⟩
      have bound := within.length_le
      omega
  · have count : (BitVec.ofNat 8 (first :: rest).length).toNat = 0 := by
      rw [length, full]
      rfl
    rw [count, Nat.zero_mul, storeBytes_zero]
    refine ⟨?_, fun _ => ⟨0, by omega, rfl⟩, fun target _ => rfl⟩
    intro noRun
    exact (noRun ⟨_, List.infix_refl _, by omega, consecutive⟩).elim

/-- Chains that are read one behind the other. -/
theorem ChainRead.append
    {disk : Disk}
    {memory middle memory' : Memory}
    {destination : PtrT}
    {front back : List (BitVec 16)}
    (first : ChainRead disk memory destination front middle)
    (second :
      ChainRead disk middle
        (destination + BitVec.ofNat 32 (front.length * 512)) back memory')
    (cut :
      HasRun Consecutive 256 (front ++ back) ↔
        HasRun Consecutive 256 front ∨ HasRun Consecutive 256 back)
    (fits : (front.length + back.length) * 512 < 2 ^ 32) :
    ChainRead disk memory destination (front ++ back) memory' := by
  have total :
      (front ++ back).length * 512 =
        front.length * 512 + back.length * 512 := by
    rw [List.length_append, Nat.add_mul]
  have behind (target : PtrT)
      (apart :
        (target - destination).toNat < front.length * 512 ∨
          front.length * 512 + back.length * 512 ≤
            (target - destination).toNat) :
      back.length * 512 ≤
        (target -
          (destination + BitVec.ofNat 32 (front.length * 512))).toNat := by
    have bounded := (target - destination).isLt
    rw [← BitVec.sub_sub, BitVec.toNat_sub, BitVec.toNat_ofNat]
    omega
  rw [Nat.add_mul] at fits
  refine ⟨?_, ?_, ?_⟩
  · intro noRun
    rw [cut, not_or] at noRun
    rw [second.complete noRun.2, first.complete noRun.1,
      storeBytes_append memory destination _ _ (Nat.le_of_lt fits), total,
      chainBytes_append]
  · rw [total]
    intro has
    rcases cut.mp has with inFront | inBack
    · obtain ⟨offset, inside, same⟩ := first.skipped inFront
      have whole := Nat.lt_add_right (back.length * 512) inside
      refine ⟨offset, whole, ?_⟩
      have distance :=
        toNat_distance destination (Nat.lt_trans whole fits)
      rw [second.outside _ (behind _ (Or.inl ?_)), same]
      rw [distance]
      exact inside
    · obtain ⟨offset, inside, same⟩ := second.skipped inBack
      rw [BitVec.add_assoc, ← BitVec.ofNat_add] at same
      have whole := Nat.add_lt_add_left inside (front.length * 512)
      refine ⟨front.length * 512 + offset, whole, ?_⟩
      have distance :=
        toNat_distance destination (Nat.lt_trans whole fits)
      rw [same, first.outside]
      rw [distance]
      exact Nat.le_add_right _ _
  · intro target outside
    rw [total] at outside
    rw [second.outside target (behind target (Or.inr outside)),
      first.outside target (Nat.le_trans (Nat.le_add_right _ _) outside)]

/-! ## The outer loop -/

section Chain

variable
  {info : DiskFSInfo}
  {clusterTable : ClusterTable}

/-- One run of the outer loop, and the chain that is left. -/
theorem readRun_eq
    (sectorSize : info.bytesPerSector = 512)
    (oneSector : info.sectorsPerCluster = 1)
    {first : BitVec 16}
    {rest : List (BitVec 16)}
    (chain : LinkedChain clusterTable EndsChain first (first :: rest))
    (inside : ∀ cluster ∈ first :: rest, cluster.toNat < 0xC00)
    (memory : Memory)
    (drive : Drive)
    (destination : PtrT) :
    ∃ piece tail next enough middle later,
      first :: rest = piece ++ tail ∧
      piece ≠ [] ∧
      LinkedChain clusterTable EndsChain next tail ∧
      (HasRun Consecutive 256 (piece ++ tail) ↔
        HasRun Consecutive 256 piece ∨ HasRun Consecutive 256 tail) ∧
      ChainRead drive.disk memory destination piece middle ∧
      later.disk = drive.disk ∧
      ∀ fuel ≥ enough,
        readRun fuel info clusterTable memory drive destination first =
          some
            (middle, later,
              destination + BitVec.ofNat 32 (piece.length * 512), next) := by
  obtain ⟨front, last, tail, listed, extended, bounded, consecutive,
    stopped, tailChain⟩ :=
    extendRun_spec chain inside 255 1
  have listed' : first :: rest = (front ++ [last]) ++ tail := by
    rw [listed, List.append_assoc]
    rfl
  obtain ⟨others, piece⟩ : ∃ others, front ++ [last] = first :: others := by
    cases front with
    | nil =>
        exact ⟨[], by rw [(List.cons.inj listed).1]; rfl⟩
    | cons head front =>
        exact ⟨front ++ [last], by rw [(List.cons.inj listed).1]; rfl⟩
  have size : (first :: others).length = front.length + 1 := by
    rw [← piece, List.length_append]
    rfl
  have few : others.length ≤ 255 := by
    rw [List.length_cons] at size
    omega
  rw [piece] at consecutive listed'
  obtain ⟨enough, later, disk, ends⟩ :=
    diskReadFrom_eq memory drive destination (first.setWidth 32)
      (BitVec.ofNat 8 (first :: others).length)
  have sector : (first.setWidth 32).setWidth 28 = first.setWidth 28 := by
    apply BitVec.eq_of_toNat_eq
    have small := first.isLt
    rw [BitVec.toNat_setWidth, BitVec.toNat_setWidth,
      BitVec.toNat_setWidth]
    omega
  rw [sector] at ends
  refine ⟨first :: others, tail, clusterTable last, enough, _, later,
    listed', List.cons_ne_nil _ _, tailChain, ?_,
    ChainRead.run drive.disk memory destination consecutive few, disk, ?_⟩
  · constructor
    · intro has
      rcases stopped with full | apart
      · exact Or.inl ⟨_, List.infix_refl _, by omega, consecutive⟩
      · by_cases full : (first :: others).length = 256
        · exact Or.inl ⟨_, List.infix_refl _, full, consecutive⟩
        · refine Or.inr (has.tail (by omega) ?_)
          intro end_ isEnd
          rw [← piece, List.getLast?_concat] at isEnd
          obtain rfl := Option.some.inj isEnd
          exact apart
    · rintro (inPiece | inTail)
      · exact inPiece.mono (List.prefix_append _ _).isInfix
      · exact inTail.mono (List.suffix_append _ _).isInfix
  · intro fuel fueled
    have one : info.sectorsPerCluster.toNat = 1 := by
      rw [oneSector]
      rfl
    have bytes : info.bytesPerSector.toNat = 512 := by
      rw [sectorSize]
      rfl
    have run : 1 + front.length = (first :: others).length := by
      omega
    rw [readRun, one, bytes]
    have limit : 256 / 1 - 1 = 255 := rfl
    simp only [limit, extended, run, Nat.mul_one]
    rw [ends fuel fueled]
    rfl

/-- The outer loop ends, with what reading the chain does. -/
theorem readRuns_eq
    (sectorSize : info.bytesPerSector = 512)
    (oneSector : info.sectorsPerCluster = 1)
    {first : BitVec 16}
    {clusters : List (BitVec 16)}
    (chain : LinkedChain clusterTable EndsChain first clusters)
    (inside : ∀ cluster ∈ clusters, cluster.toNat < 0xC00)
    (fits : clusters.length * 512 < 2 ^ 32)
    (memory : Memory)
    (drive : Drive)
    (destination : PtrT) :
    ∃ enough memory' later,
      ChainRead drive.disk memory destination clusters memory' ∧
      later.disk = drive.disk ∧
      ∀ waitFuel ≥ enough,
        ∀ fuel > clusters.length,
          readRuns waitFuel info clusterTable fuel memory drive
              destination first =
            some (memory', later) := by
  induction length : clusters.length using Nat.strong_induction_on
    generalizing clusters first memory drive destination with
  | _ length inductionHypothesis =>
      cases chain with
      | nil ended =>
          refine ⟨0, memory, drive, ?_, rfl, ?_⟩
          · refine ⟨fun _ => (storeBytes_zero _ _ _).symm, ?_,
              fun _ _ => rfl⟩
            rintro ⟨run, within, long, _⟩
            have bound := within.length_le
            rw [List.length_nil] at bound
            omega
          · intro waitFuel _ fuel fueled
            obtain ⟨fuel, rfl⟩ :=
              Nat.exists_eq_succ_of_ne_zero (Nat.ne_zero_of_lt fueled)
            rw [readRuns, if_neg (Nat.not_lt_of_le ended)]
      | @cons _ rest continues tailChain =>
          obtain ⟨piece, tail, next, enough, middle, later, listed,
            nonempty, nextChain, cut, stored, disk, ends⟩ :=
            readRun_eq sectorSize oneSector
              (.cons continues tailChain) inside memory drive destination
          have positive := List.length_pos_of_ne_nil nonempty
          rw [listed] at inside fits length
          rw [List.length_append] at fits length
          have tailFits :=
            Nat.lt_of_le_of_lt
              (Nat.mul_le_mul_right 512
                (Nat.le_add_left tail.length piece.length))
              fits
          obtain ⟨enoughTail, memory', last, storedTail, lastDisk,
            endsTail⟩ :=
            inductionHypothesis tail.length (by omega) nextChain
              (fun cluster member =>
                inside cluster (List.mem_append_right _ member))
              tailFits middle later
              (destination + BitVec.ofNat 32 (piece.length * 512)) rfl
          rw [disk] at storedTail
          refine ⟨max enough enoughTail, memory', last, ?_,
            lastDisk.trans disk, ?_⟩
          · rw [listed]
            exact stored.append storedTail cut fits
          · intro waitFuel waited fuel fueled
            obtain ⟨fuel, rfl⟩ :=
              Nat.exists_eq_succ_of_ne_zero (Nat.ne_zero_of_lt fueled)
            rw [readRuns, if_pos (Nat.lt_of_not_le continues),
              ends waitFuel (by omega)]
            exact endsTail waitFuel (by omega) fuel (by omega)

end Chain

end HobbyOS
