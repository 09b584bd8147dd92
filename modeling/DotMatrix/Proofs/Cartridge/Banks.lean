import DotMatrix.Bus.Basic
import Mathlib.Algebra.Group.Nat.Defs
import Mathlib.Data.List.Induction

/-!
# The bank in the upper ROM window

The second switch counts zero as one before the bits that are not connected are dropped. A value
whose connected bits are all zero, but not all of its lower five, therefore selects bank zero.

* `write`, `writeAll`: what the processor can do to a cartridge, as the bus sees it;
* `lastSelect?`: the value last written to the second switch, which decides its position;
* `SelectsZero`: the values that select a bank whose lower five bits are zero;
* `lower_eq_zero_iff`: the second switch stands at such a bank just when the last value written to it
  is one of them. Only small ROMs have any, and the bank is then the first one.
-/

namespace DotMatrix

namespace Cartridge

/-! ### Writes in any order -/

/-- A write at an address. Outside the windows of the cartridge nothing happens. -/
def write (c : Cartridge) (a : UInt16) (v : UInt8) : Cartridge :=
  match Location.ofAddress a with
  | .rom i => c.writeRom i v
  | .cartridgeRam i => c.writeRam i v
  | _ => c

/-- Writes, in order. -/
def writeAll (c : Cartridge) (ws : List (UInt16 × UInt8)) : Cartridge :=
  ws.foldl (fun c w => c.write w.1 w.2) c

/-- Does an address belong to the second switch? -/
def isSelect (a : UInt16) : Bool := a.toNat / 0x2000 == 1

/-- The value last written to the second switch. -/
def lastSelect? (ws : List (UInt16 × UInt8)) : Option UInt8 :=
  ws.foldl (fun last w => if isSelect w.1 then some w.2 else last) none

/-- The position of the second switch after a write to it. -/
def Wiring.select (w : Wiring) (v : UInt8) : UInt8 :=
  if v &&& 0x1F = 0 then 1 else v &&& w.lowerMask

variable {c : Cartridge}

/-- What a cartridge is made of. No write changes it. -/
structure SameBoard (c d : Cartridge) : Prop where
  rom_eq : d.rom = c.rom
  header_eq : d.header = c.header
  mapper_eq : d.mapper = c.mapper
  wiring_eq : d.wiring = c.wiring
  ramSize_eq : d.ram.size = c.ram.size

theorem SameBoard.refl (c : Cartridge) : SameBoard c c := ⟨rfl, rfl, rfl, rfl, rfl⟩

theorem SameBoard.symm {c d : Cartridge} (h : SameBoard c d) : SameBoard d c :=
  ⟨h.rom_eq.symm, h.header_eq.symm, h.mapper_eq.symm, h.wiring_eq.symm, h.ramSize_eq.symm⟩

theorem SameBoard.trans {c d e : Cartridge} (h : SameBoard c d) (h' : SameBoard d e) :
    SameBoard c e :=
  ⟨h'.rom_eq.trans h.rom_eq, h'.header_eq.trans h.header_eq, h'.mapper_eq.trans h.mapper_eq,
    h'.wiring_eq.trans h.wiring_eq, h'.ramSize_eq.trans h.ramSize_eq⟩

theorem writeRom_sameBoard (a : Fin 0x8000) (v : UInt8) : SameBoard c (c.writeRom a v) := by
  unfold writeRom
  split <;> exact ⟨rfl, rfl, rfl, rfl, rfl⟩

theorem size_set (bytes : ByteArray) (i : Nat) (v : UInt8) (h : i < bytes.size) :
    (bytes.set i v h).size = bytes.size := by
  rw [ByteArray.size, ByteArray.data_set, Array.size_set]
  rfl

theorem writeRam_sameBoard (i : Fin 0x2000) (v : UInt8) : SameBoard c (c.writeRam i v) := by
  unfold writeRam
  split
  · dsimp only
    split
    · exact ⟨rfl, rfl, rfl, rfl, size_set _ _ _ _⟩
    · exact .refl c
  · exact .refl c

theorem write_sameBoard (a : UInt16) (v : UInt8) : SameBoard c (c.write a v) := by
  unfold write
  split
  · exact writeRom_sameBoard _ _
  · exact writeRam_sameBoard _ _
  · exact .refl c

theorem writeAll_sameBoard (c : Cartridge) (ws : List (UInt16 × UInt8)) :
    SameBoard c (c.writeAll ws) := by
  induction ws generalizing c with
  | nil => exact .refl c
  | cons w ws ih => exact (write_sameBoard w.1 w.2).trans (ih _)

/-! ### The second switch -/

/-- A write of RAM moves no switch. -/
theorem writeRam_banks (i : Fin 0x2000) (v : UInt8) : (c.writeRam i v).banks = c.banks := by
  unfold writeRam
  split
  · dsimp only
    split <;> rfl
  · rfl

theorem Banks.write_lower (b : Banks) (w : Wiring) (a : Fin 0x8000) (v : UInt8) :
    (b.write w a v).lower = if a.val / 0x2000 = 1 then w.select v else b.lower := by
  unfold Banks.write
  split
  · rename_i h
    rw [if_neg (by omega)]
  · rename_i h
    rw [if_pos h]
    rfl
  · rename_i h
    rw [if_neg (by omega)]
  · rename_i h _
    rw [if_neg h]

theorem ofAddress_of_lt {a : UInt16} (h : a.toNat < 0x8000) :
    ∃ i, Location.ofAddress a = .rom i ∧ i.val = a.toNat := by
  unfold Location.ofAddress
  simp only [h, ↓reduceDIte]
  exact ⟨_, rfl, rfl⟩

theorem ofOffset_ne_rom (n : Nat) (i : Fin 0x8000) : Location.ofOffset n ≠ .rom i := by
  unfold Location.ofOffset
  split <;> nofun

theorem ofAddress_ne_rom {a : UInt16} (h : ¬a.toNat < 0x8000) (i : Fin 0x8000) :
    Location.ofAddress a ≠ .rom i := by
  unfold Location.ofAddress
  rw [dif_neg h]
  split
  · nofun
  split
  · nofun
  split
  · nofun
  split
  · nofun
  split
  · nofun
  split
  · nofun
  split
  · exact ofOffset_ne_rom _ i
  split <;> nofun

/-- One write: an address of the second switch moves it, and no other does. -/
theorem write_lower (hm : c.mapper ≠ .direct) (a : UInt16) (v : UInt8) :
    (c.write a v).banks.lower = if isSelect a then c.wiring.select v else c.banks.lower := by
  have hrom (i : Fin 0x8000) : (c.writeRom i v).banks = c.banks.write c.wiring i v := by
    unfold writeRom
    split
    · contradiction
    · rfl
  unfold write
  by_cases h : a.toNat < 0x8000
  · obtain ⟨i, hi, hv⟩ := ofAddress_of_lt h
    rw [hi]
    simp only [hrom, Banks.write_lower, isSelect, beq_iff_eq, hv]
  · have hs : isSelect a = false := by
      simp only [isSelect, beq_eq_false_iff_ne]
      omega
    rw [hs, if_neg Bool.false_ne_true]
    split
    · exact absurd ‹_› (ofAddress_ne_rom h _)
    · rw [writeRam_banks]
    · rfl

/-- Any writes: the last one to the second switch decides its position. -/
theorem writeAll_lower (hm : c.mapper ≠ .direct) (ws : List (UInt16 × UInt8)) :
    (c.writeAll ws).banks.lower =
      match lastSelect? ws with
      | none => c.banks.lower
      | some v => c.wiring.select v := by
  -- The last write decides, so the list is taken apart from its end.
  induction ws using List.reverseRecOn with
  | nil => rfl
  | append_singleton ws w ih =>
    have hb := writeAll_sameBoard c ws
    have hw := write_lower (c := c.writeAll ws) (hb.mapper_eq ▸ hm) w.1 w.2
    rw [hb.wiring_eq] at hw
    simp only [writeAll, lastSelect?, List.foldl_append, List.foldl_cons, List.foldl_nil]
    rw [← writeAll, hw]
    split
    · rfl
    · exact ih

/-! ### The bank -/

/-- Does a value written to the second switch select a bank whose lower bits are all zero? It does
if the ROM is small enough to leave some of the five bits unconnected, and only those are set. -/
def SelectsZero (h : Header) (v : UInt8) : Prop :=
  h.romKib ∈ [32, 64, 128, 256] ∧ v.toNat % 32 ≠ 0 ∧ v.toNat % (h.romKib / 16) = 0

instance (h : Header) (v : UInt8) : Decidable (SelectsZero h v) := by
  unfold SelectsZero
  infer_instance

/-- How many bits of the second switch are connected: as many as number the banks of a small ROM,
whose shared switch does not reach the ROM, and else all five. -/
theorem ofSizes_cases (romKib ramKib : Nat) :
    (romKib ∈ [32, 64, 128, 256] ∧ (Wiring.ofSizes romKib ramKib).upperMask = 0 ∧
      ∃ n, n ≤ 4 ∧ romKib / 16 = 2 ^ n ∧
        (Wiring.ofSizes romKib ramKib).lowerMask.toNat = 2 ^ n - 1) ∨
    (romKib ∉ [32, 64, 128, 256] ∧
      (Wiring.ofSizes romKib ramKib).lowerMask.toNat = 2 ^ 5 - 1) := by
  by_cases h : romKib ∈ [32, 64, 128, 256]
  · left
    refine ⟨h, ?_⟩
    simp only [List.mem_cons, List.not_mem_nil, or_false] at h
    obtain rfl | rfl | rfl | rfl := h
    · exact ⟨rfl, 1, by omega, rfl, rfl⟩
    · exact ⟨rfl, 2, by omega, rfl, rfl⟩
    · exact ⟨rfl, 3, by omega, rfl, rfl⟩
    · exact ⟨rfl, 4, by omega, rfl, rfl⟩
  · right
    refine ⟨h, ?_⟩
    simp only [List.mem_cons, List.not_mem_nil, or_false, not_or] at h
    unfold Wiring.ofSizes
    split <;> first | rfl | omega

/-- The position of the second switch as a number, if its first `n` bits are connected. -/
theorem Wiring.select_toNat {w : Wiring} {n : Nat} (hw : w.lowerMask.toNat = 2 ^ n - 1)
    (v : UInt8) :
    (w.select v).toNat = if v.toNat % 32 = 0 then 1 else v.toNat % 2 ^ n := by
  have hzero : v &&& 0x1F = 0 ↔ v.toNat % 32 = 0 := by
    rw [← UInt8.toNat_inj, UInt8.toNat_and]
    show v.toNat &&& (2 ^ 5 - 1) = 0 ↔ v.toNat % 2 ^ 5 = 0
    rw [Nat.and_two_pow_sub_one_eq_mod]
  unfold select
  simp only [hzero]
  split
  · rfl
  · rw [UInt8.toNat_and, hw, Nat.and_two_pow_sub_one_eq_mod]

/-- The lower five bits of the bank are those of the second switch. -/
theorem highBank_mod (c : Cartridge) : c.highBank % 32 = c.banks.lower.toNat % 32 := by
  show (c.banks.lower.toNat ||| 32 * (c.banks.shared &&& c.wiring.upperMask).toNat) % 2 ^ 5 = _
  rw [Nat.or_mod_two_pow, Nat.mul_mod_right, Nat.or_zero]

/-- The cartridge is as it was made from the image: nothing has been switched or written. -/
structure MadeFrom (c : Cartridge) (image : ByteArray) : Prop where
  wiring_eq : c.wiring = .ofSizes c.header.romKib c.header.ramKib
  banks_eq : c.banks = .powerOn
  rom_eq : c.rom = image
  ram_eq : c.ram = ⟨Array.replicate (c.header.ramKib * 1024) 0⟩
  clean : c.dirty = false

theorem ofImage_eq {image : ByteArray} (h : ofImage image = .ok c) : c.MadeFrom image := by
  unfold ofImage at h
  split at h
  · dsimp only at h
    split at h
    · cases h
      exact ⟨rfl, rfl, rfl, rfl, rfl⟩
    · cases h
  · cases h

/-- An image that has room for a header and the right checksum is accepted. -/
theorem ofImage_of_checksum {image : ByteArray} (hs : headerEnd ≤ image.size)
    (hc : Header.computedChecksum image = (Header.ofImage image hs).checksum) :
    ∃ c, ofImage image = .ok c ∧ c.header = Header.ofImage image hs ∧
      c.mapper = .ofKind c.header.kind := by
  unfold ofImage
  simp only [dif_pos hs, if_pos hc]
  exact ⟨_, rfl, rfl, rfl⟩

/-- The second switch stands at zero just when the last value written to it selects bank zero. -/
theorem lower_eq_zero_iff (hw : c.wiring = .ofSizes c.header.romKib c.header.ramKib)
    (hb : c.banks = .powerOn) (hm : c.mapper ≠ .direct) (ws : List (UInt16 × UInt8)) :
    (c.writeAll ws).banks.lower.toNat % 32 = 0 ↔
      ∃ v, lastSelect? ws = some v ∧ SelectsZero c.header v := by
  rw [writeAll_lower hm ws]
  cases lastSelect? ws with
  | none => simp [hb, Banks.powerOn]
  | some v =>
    simp only [Option.some.injEq, exists_eq_left']
    unfold SelectsZero
    obtain ⟨hr, -, n, hn, hn', hmask⟩ | ⟨hr, hmask⟩ :=
      ofSizes_cases c.header.romKib c.header.ramKib
    · -- The connected bits all fit into the lower five, so nothing else makes the switch zero.
      have hlt : v.toNat % 2 ^ n < 32 := by
        have hle : 2 ^ n ≤ 2 ^ 4 := Nat.pow_le_pow_right (by omega) hn
        have := Nat.mod_lt v.toNat (Nat.two_pow_pos n)
        omega
      rw [Wiring.select_toNat (hw ▸ hmask), hn']
      split
      · simp only [‹_›]
        omega
      · simp only [Nat.mod_eq_of_lt hlt, hr, true_and]
        omega
    · -- All five bits are connected, and a value without any of them was turned into one.
      rw [Wiring.select_toNat (hw ▸ hmask)]
      simp only [hr, false_and, iff_false]
      split
      · omega
      · omega

/-- **The bank in the upper window.** After any writes to a cartridge with switches, the lower five
bits of the bank are zero just when the last value written to the second switch is one that selects
bank zero, and the bank is then the first one. -/
theorem highBank_mod_eq_zero_iff {image : ByteArray} (h : ofImage image = .ok c)
    (hm : c.mapper ≠ .direct) (ws : List (UInt16 × UInt8)) :
    ((c.writeAll ws).highBank % 32 = 0 ↔
      ∃ v, lastSelect? ws = some v ∧ SelectsZero c.header v) ∧
    ((c.writeAll ws).highBank % 32 = 0 → (c.writeAll ws).highBank = 0) := by
  obtain ⟨hw, hb⟩ := ofImage_eq h
  rw [highBank_mod]
  have hiff := lower_eq_zero_iff hw hb hm ws
  refine ⟨hiff, fun hz => ?_⟩
  obtain ⟨v, hv, hsmall, hv32, hvn⟩ := hiff.mp hz
  obtain ⟨-, hupper, n, -, hn, hmask⟩ | ⟨hr, -⟩ :=
    ofSizes_cases c.header.romKib c.header.ramKib
  · have hboard := writeAll_sameBoard c ws
    have hlow : (c.writeAll ws).banks.lower.toNat = 0 := by
      rw [writeAll_lower hm ws, hv]
      show (c.wiring.select v).toNat = 0
      rw [Wiring.select_toNat (hw ▸ hmask), if_neg hv32, ← hn, hvn]
    unfold highBank upperBank
    rw [hlow, hboard.wiring_eq, hw, hupper]
    simp
  · exact absurd hsmall hr

/-- The smallest image of a cartridge with switches: 32 KiB by its header. -/
def switchedImage : ByteArray :=
  ⟨⟨List.replicate 0x147 0 ++ [1, 0, 0, 0, 0, 0, 0xE6, 0, 0]⟩⟩

theorem switchedImage_accepted :
    ∃ c, ofImage switchedImage = .ok c ∧ c.mapper = .switched ∧ c.header.romKib = 32 := by
  have hs : headerEnd ≤ switchedImage.size := by decide +kernel
  have hsum : Header.computedChecksum switchedImage = 0xE6 := by decide +kernel
  obtain ⟨c, hc, hheader, hmapper⟩ := ofImage_of_checksum hs (hsum.trans rfl)
  rw [hheader] at hmapper
  exact ⟨c, hc, hmapper, congrArg Header.romKib hheader⟩

/-- Two, written to the second switch of a cartridge of 32 KiB, selects bank zero. -/
theorem highBank_zero_of_two :
    ∃ (image : ByteArray) (c : Cartridge) (ws : List (UInt16 × UInt8)),
      ofImage image = .ok c ∧ c.mapper ≠ .direct ∧ (c.writeAll ws).highBank % 32 = 0 := by
  obtain ⟨c, hc, hm, hr⟩ := switchedImage_accepted
  have hmd : c.mapper ≠ .direct := by
    rw [hm]
    decide
  obtain ⟨hw, hb⟩ := ofImage_eq hc
  refine ⟨switchedImage, c, [(0x2000, 2)], hc, hmd, ?_⟩
  rw [highBank_mod, lower_eq_zero_iff hw hb hmd]
  exact ⟨2, rfl, by rw [SelectsZero, hr]; decide⟩

/-- The same cartridge through the general result, with a value that is zero in all of its lower
five bits before: only the last value counts. -/
theorem highBank_zero_after_two_writes :
    ∃ c, ofImage switchedImage = .ok c ∧ c.mapper ≠ .direct ∧
      (c.writeAll [(0x2000, 0x20), (0x3FFF, 0x12)]).highBank = 0 := by
  obtain ⟨c, hc, hm, hr⟩ := switchedImage_accepted
  have hmd : c.mapper ≠ .direct := by
    rw [hm]
    decide
  obtain ⟨hiff, hzero⟩ := highBank_mod_eq_zero_iff hc hmd [(0x2000, 0x20), (0x3FFF, 0x12)]
  refine ⟨c, hc, hmd, hzero (hiff.mpr ⟨0x12, rfl, ?_⟩)⟩
  rw [SelectsZero, hr]
  decide

end Cartridge

/-! ### On the bus -/

/-- The bus passes a write on to the cartridge and changes it in no other way. -/
theorem Bus.write_cartridge (b : Bus) (a : UInt16) (v : UInt8) :
    (b.write a v).cartridge = b.cartridge.map (·.write a v) := by
  unfold Bus.write Cartridge.write Bus.writeAt
  have hid : b.cartridge = b.cartridge.map fun c => c := Option.map_id'.symm
  cases Location.ofAddress a with
  | rom i => rfl
  | cartridgeRam i => rfl
  | device r => cases r <;> exact hid
  | _ => exact hid

end DotMatrix
