import Mathlib.Tactic.IntervalCases
import HobbyOS.Timer.Pit

namespace HobbyOS

/-!
# Starting a counter

`pit_start_counter` cuts the frequency to 16 bits, so its divisor is right for
the frequencies that fit only.  It calls `pit_send_data` with the arguments
exchanged: the bytes of the divisor select the ports, and the counter is sent
as the data.
-/

/-! ## The divisor -/

/--
No division of `pit_start_counter` faults, and the divisor is the greatest one
of 16 bits that does not exceed the quotient.
-/
structure DividesExactly (freq : BitVec 32) : Prop where
  noFault :
    freq ≠ 0 →
    ∀ inb counter mode, pitStartCounter inb freq counter mode ≠ none
  divisor :
    1 ≤ freq.toNat →
    freq.toNat ≤ 1193181 →
    ∃ divisor,
      pitDivisor freq = some divisor ∧
        divisor.toNat = min 0xFFFF (1193181 / freq.toNat)

section Divisors

variable {freq : BitVec 32}

/-- Low frequencies get the greatest divisor. -/
theorem pitDivisor_of_low (low : freq.toNat ≤ 18) :
    pitDivisor freq = some 0xFFFF := by
  have limit : (18 : BitVec 32).toNat = 18 := rfl
  have notAbove : ¬freq > 18 := fun above => by
    have := BitVec.lt_def.mp above
    omega
  rw [pitDivisor, if_neg notAbove]

/-- Higher frequencies divide by what 16 bits leave of them. -/
theorem pitDivisor_of_high (high : 18 < freq.toNat) :
    pitDivisor freq =
      if freq.toNat % 2 ^ 16 = 0 then
        none
      else
        some (BitVec.ofNat 16 (1193181 / (freq.toNat % 2 ^ 16))) := by
  have above : freq > 18 := BitVec.lt_def.mpr high
  have value : (freq.setWidth 16 : BitVec 16).toNat = freq.toNat % 2 ^ 16 :=
    BitVec.toNat_setWidth 16 freq
  have zero :
      (freq.setWidth 16 : BitVec 16) = 0 ↔ freq.toNat % 2 ^ 16 = 0 := by
    rw [← BitVec.toNat_inj, value]
    rfl
  rw [pitDivisor, if_pos above]
  simp only [zero, value]

/-- The division is the only step that can fault. -/
theorem pitStartCounter_eq_none_iff
    (inb : BitVec 16 → Byte)
    (counter mode : Byte) :
    pitStartCounter inb freq counter mode = none ↔
      freq ≠ 0 ∧ pitDivisor freq = none := by
  rw [pitStartCounter]
  by_cases zero : freq = 0
  · rw [if_pos zero]
    constructor
    · intro absurd
      cases absurd
    · rintro ⟨nonzero, _⟩
      exact (nonzero zero).elim
  · rw [if_neg zero]
    cases pitDivisor freq with
    | none =>
        exact ⟨fun _ => ⟨zero, rfl⟩, fun _ => rfl⟩
    | some divisor =>
        constructor
        · intro absurd
          cases absurd
        · rintro ⟨_, absurd⟩
          cases absurd

/-- Frequencies of 16 bits get the right divisor. -/
theorem pitDivisor_of_fits
    (positive : 1 ≤ freq.toNat)
    (fits : freq.toNat < 2 ^ 16) :
    ∃ divisor,
      pitDivisor freq = some divisor ∧
        divisor.toNat = min 0xFFFF (1193181 / freq.toNat) := by
  rcases Nat.lt_or_ge 18 freq.toNat with high | low
  · have small : 1193181 / freq.toNat ≤ 62799 :=
      (Nat.div_le_div_left (show 19 ≤ freq.toNat from high) (by decide)).trans
        (by decide)
    refine ⟨BitVec.ofNat 16 (1193181 / freq.toNat), ?_, ?_⟩
    · rw [pitDivisor_of_high high, Nat.mod_eq_of_lt fits, if_neg (by omega)]
    · rw [BitVec.toNat_ofNat, Nat.mod_eq_of_lt (by omega)]
      omega
  · have large : 66287 ≤ 1193181 / freq.toNat :=
      (show 66287 ≤ 1193181 / 18 by decide).trans
        (Nat.div_le_div_left low positive)
    refine ⟨_, pitDivisor_of_low low, ?_⟩
    rw [Nat.min_eq_left (by omega)]
    rfl

/-- What is left of a longer frequency gives another divisor. -/
theorem pitDivisor_of_cut
    {divisor : BitVec 16}
    (cut : 2 ^ 16 ≤ freq.toNat)
    (computed : pitDivisor freq = some divisor) :
    divisor.toNat ≠ 1193181 / freq.toNat := by
  have few : 1193181 / freq.toNat ≤ 18 :=
    (Nat.div_le_div_left cut (by decide)).trans (by decide)
  rw [pitDivisor_of_high (by omega)] at computed
  split at computed
  · cases computed
  · rename_i nonzero
    rw [Option.some.injEq] at computed
    have left := Nat.mod_lt freq.toNat (show 0 < 2 ^ 16 by decide)
    have value : divisor.toNat = 1193181 / (freq.toNat % 2 ^ 16) % 2 ^ 16 := by
      rw [← computed, BitVec.toNat_ofNat]
    have parts := Nat.div_add_mod freq.toNat (2 ^ 16)
    have times : 1 ≤ freq.toNat / 2 ^ 16 := Nat.div_pos cut (by decide)
    rw [value]
    generalize freq.toNat % 2 ^ 16 = rest at nonzero left value parts
    rcases Nat.lt_or_ge rest 19 with little | enough
    · -- The quotient of a small rest is cut, too.
      intro same
      rw [← same] at few
      revert few
      interval_cases rest
      all_goals first
        | exact (nonzero rfl).elim
        | decide
    · have small : 1193181 / rest ≤ 62799 :=
        (Nat.div_le_div_left enough (by decide)).trans (by decide)
      rw [Nat.mod_eq_of_lt (by omega)]
      intro same
      have many : 18 ≤ 1193181 / rest :=
        (show 18 ≤ 1193181 / 65535 by decide).trans
          (Nat.div_le_div_left (by omega) (by omega))
      have product := Nat.mul_le_of_le_div _ _ _ (many.trans (le_of_eq same))
      have next : 1193181 < (1193181 / rest + 1) * rest :=
        Nat.lt_mul_of_div_lt (Nat.lt_succ_self _) (by omega)
      have eighteen : 1193181 / rest = 18 := by omega
      rw [eighteen] at next
      omega

end Divisors

/-- A start that divides as it should has no cut frequency below the rate. -/
theorem DividesExactly.above_of_cut
    {freq : BitVec 32}
    (divides : DividesExactly freq)
    (cut : 2 ^ 16 ≤ freq.toNat) :
    1193181 < freq.toNat := by
  by_contra notAbove
  obtain ⟨divisor, computed, value⟩ :=
    divides.divisor (by omega) (Nat.not_lt.mp notAbove)
  have few : 1193181 / freq.toNat ≤ 18 :=
    (Nat.div_le_div_left cut (by decide)).trans (by decide)
  refine pitDivisor_of_cut cut computed ?_
  rw [value, Nat.min_eq_right (by omega)]

/-- A start that divides as it should has no cut frequency of 0. -/
theorem DividesExactly.rest_of_high
    {freq : BitVec 32}
    (divides : DividesExactly freq)
    (above : 1193181 < freq.toNat) :
    freq.toNat % 2 ^ 16 ≠ 0 := by
  intro multiple
  have nonzero : freq ≠ 0 := by
    rintro rfl
    cases above
  refine divides.noFault nonzero (fun _ => 0) 0 0 ?_
  rw [pitStartCounter_eq_none_iff, pitDivisor_of_high (by omega),
    if_pos multiple]
  exact ⟨nonzero, rfl⟩

/-- Frequencies of 16 bits are not cut. -/
theorem dividesExactly_of_fits
    {freq : BitVec 32}
    (fits : freq.toNat < 2 ^ 16) :
    DividesExactly freq := by
  refine ⟨fun nonzero inb counter mode fault => ?_, fun positive _ =>
    pitDivisor_of_fits positive fits⟩
  have positive : 1 ≤ freq.toNat := by
    by_contra zero
    exact nonzero (BitVec.eq_of_toNat_eq (by
      have value : (0 : BitVec 32).toNat = 0 := rfl
      omega))
  obtain ⟨divisor, computed, _⟩ := pitDivisor_of_fits positive fits
  rw [pitStartCounter_eq_none_iff, computed] at fault
  cases fault.2

/-- Frequencies above the clock rate only have to be divided by. -/
theorem dividesExactly_of_high
    {freq : BitVec 32}
    (above : 1193181 < freq.toNat)
    (rest : freq.toNat % 2 ^ 16 ≠ 0) :
    DividesExactly freq := by
  refine ⟨fun nonzero inb counter mode fault => ?_, fun _ upTo => ?_⟩
  · rw [pitStartCounter_eq_none_iff, pitDivisor_of_high (by omega),
      if_neg rest] at fault
    cases fault.2
  · omega

/--
`pit_start_counter` divides as it should exactly for the frequencies of 16
bits, and for those above the clock rate whose low 16 bits are not zero.
-/
theorem pitStartCounter_dividesExactly_iff (freq : BitVec 32) :
    DividesExactly freq ↔
      freq.toNat < 2 ^ 16 ∨
        1193181 < freq.toNat ∧ freq.toNat % 2 ^ 16 ≠ 0 := by
  constructor
  · intro divides
    rcases Nat.lt_or_ge freq.toNat (2 ^ 16) with fits | cut
    · exact .inl fits
    · have above := divides.above_of_cut cut
      exact .inr ⟨above, divides.rest_of_high above⟩
  · rintro (fits | ⟨above, rest⟩)
    · exact dividesExactly_of_fits fits
    · exact dividesExactly_of_high above rest

/-- The low half of 0x10000 is zero. -/
theorem pitStartCounter_dividesExactly_fails :
    ¬∀ freq : BitVec 32, DividesExactly freq := by
  intro divides
  exact (divides 0x10000).noFault (by decide) (fun _ => 0) 0 0 rfl

/-! ## The ports -/

/-- A write to one of the four ports of the timer. -/
def pitWrite? : PortAccess → Option (BitVec 16 × Byte)
  | .outb port value =>
      if 0x40 ≤ port ∧ port ≤ 0x43 then some (port, value) else none
  | _ => none

/--
The command goes to the command port, and then the low and the high byte of
the divisor to the port of the counter.  Nothing else is written to a port of
the timer.
-/
def ProgramsCounter
    (inb : BitVec 16 → Byte)
    (freq : BitVec 32)
    (counter : PitCounter)
    (mode : Byte) :
    Prop :=
  ∃ divisor accesses,
    pitDivisor freq = some divisor ∧
      pitStartCounter inb freq counter.code mode = some accesses ∧
      accesses.filterMap pitWrite? =
        [(pitCommandPort, mode ||| rlData ||| counter.code),
          ((pitDataPort counter.code).setWidth 16,
            divisor.extractLsb' 0 8),
          ((pitDataPort counter.code).setWidth 16,
            divisor.extractLsb' 8 8)]

/-- The writes of `pit_send_data` are to ports of the timer. -/
theorem filterMap_pitSendData (counter : Byte) (data : BitVec 16) :
    (pitSendData counter data).filterMap pitWrite? =
      [((pitDataPort counter).setWidth 16, data.setWidth 8)] := by
  have port :
      ∀ counter : Byte,
        0x40 ≤ ((pitDataPort counter).setWidth 16 : BitVec 16) ∧
          ((pitDataPort counter).setWidth 16 : BitVec 16) ≤ 0x43 := by
    decide
  rw [pitSendData, List.filterMap_cons, pitWrite?, if_pos (port counter)]
  rfl

/-- What a counter that is started writes to the ports of the timer. -/
theorem filterMap_startAccesses
    (inb : BitVec 16 → Byte)
    (divisor : BitVec 16)
    (counter mode : Byte) :
    (startAccesses inb divisor counter mode).filterMap pitWrite? =
      [(pitCommandPort, mode ||| rlData ||| counter),
        ((pitDataPort ((divisor &&& 0xFF).setWidth 8)).setWidth 16, counter),
        ((pitDataPort ((divisor >>> 8 &&& 0xFF).setWidth 8)).setWidth 16,
          counter)] := by
  have sent : (counter.setWidth 16 : BitVec 16).setWidth 8 = counter := by
    rw [BitVec.setWidth_setWidth_of_le _ (by decide), BitVec.setWidth_eq]
  have line :
      picEnableIrq inb 0 = [.inb 0x21, .outb 0x21 (inb 0x21 &&& ~~~1)] :=
    rfl
  rw [startAccesses, List.filterMap_append, List.filterMap_append,
    List.filterMap_append, List.filterMap_append, List.filterMap_append,
    filterMap_pitSendData, filterMap_pitSendData, sent, line]
  rfl

/-- No divisor of the range has the counter in both of its bytes. -/
theorem divisor_ne_counter_twice
    {freq divisor : Nat}
    (lower : 19 ≤ freq)
    (upper : freq ≤ 65535)
    (quotient : divisor = min 0xFFFF (1193181 / freq))
    (counter : PitCounter) :
    divisor ≠ counter.code.toNat * 257 := by
  have small : 1193181 / freq ≤ 62799 :=
    (Nat.div_le_div_left lower (by decide)).trans (by decide)
  rw [Nat.min_eq_right (by omega)] at quotient
  have product := Nat.div_add_mod 1193181 freq
  have rest := Nat.mod_lt 1193181 (show 0 < freq by omega)
  rw [← quotient] at product
  intro bytes
  cases counter with
  | counter0 =>
      have none : divisor = 0 := bytes
      rw [none] at product
      omega
  | counter1 =>
      have near : divisor = 16448 := bytes
      rw [near] at product
      omega
  | counter2 =>
      have near : divisor = 32896 := bytes
      rw [near] at product
      omega

/-- No counter is programmed with its divisor. -/
theorem pitStartCounter_never_programs
    (inb : BitVec 16 → Byte)
    {freq : BitVec 32}
    (lower : 19 ≤ freq.toNat)
    (upper : freq.toNat ≤ 65535)
    (counter : PitCounter)
    (mode : Byte) :
    ¬ProgramsCounter inb freq counter mode := by
  rintro ⟨divisor, accesses, computed, started, writes⟩
  have nonzero : freq ≠ 0 := by
    rintro rfl
    cases lower
  rw [pitStartCounter, if_neg nonzero, computed] at started
  obtain rfl := Option.some.inj started
  rw [filterMap_startAccesses] at writes
  simp only [List.cons.injEq, Prod.mk.injEq, and_true, true_and] at writes
  obtain ⟨⟨_, low⟩, _, high⟩ := writes
  obtain ⟨value, same, quotient⟩ :=
    pitDivisor_of_fits (by omega) (show freq.toNat < 2 ^ 16 by omega)
  rw [computed, Option.some.injEq] at same
  subst same
  -- Both bytes of the divisor would have to be the counter.
  refine divisor_ne_counter_twice lower upper quotient counter ?_
  have lowByte := congrArg BitVec.toNat low
  have highByte := congrArg BitVec.toNat high
  rw [BitVec.extractLsb'_toNat, Nat.shiftRight_eq_div_pow]
    at lowByte highByte
  have bounded := divisor.isLt
  omega

/-- Counter 0 at 100 interrupts a second, as a square wave. -/
theorem pitStartCounter_never_programs_hundred :
    ¬ProgramsCounter (fun _ => 0xFF) 100 .counter0 6 :=
  pitStartCounter_never_programs _ (by decide) (by decide) _ _

/-- The first byte of the divisor selects the port of counter 2. -/
theorem pitStartCounter_programs_fails :
    ¬∀ (inb : BitVec 16 → Byte)
        (freq : BitVec 32)
        (counter : PitCounter)
        (mode : Byte),
      19 ≤ freq.toNat →
      freq.toNat ≤ 65535 →
      ProgramsCounter inb freq counter mode := by
  intro programs
  obtain ⟨divisor, accesses, computed, started, writes⟩ :=
    programs (fun _ => 0xFF) 100 .counter0 6 (by decide) (by decide)
  obtain rfl := Option.some.inj computed
  obtain rfl := Option.some.inj started
  revert writes
  decide

end HobbyOS
