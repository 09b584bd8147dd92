import DotMatrix.Proofs.Cartridge.BankedRam

/-!
# The ROM windows

The bank in a ROM window is put together from two switches, of which only the connected bits count,
and in the lower window a third switch decides whether there is a choice at all. This file shows
that the bits that are connected never lead out of a ROM of the declared size.

* `Header.romKib_cases`: the declared size is a power of two, or nothing;
* `after_banks`: where the switches stand after uses, by what was last written to each;
* `banks_lt`: both windows show banks that a ROM of the declared size has;
* `readRom_eq`: a read in a window, as a place in the image;
* `rom_windows_inside`: so every read gives a byte of the image, and which one is decided by the
  last values that were written to three of the switches.
-/

namespace DotMatrix

namespace Cartridge

/-! ### The declared size -/

/-- The declared size is 32 KiB, doubled some times, or it does not fit into 64 bits. -/
theorem Header.romKib_cases (h : Header) : h.romKib = 0 ∨ ∃ n, h.romKib = 32 * 2 ^ n := by
  unfold romKib
  split
  · have hpow : 32 * 2 ^ h.romCode.toNat = 2 ^ (5 + h.romCode.toNat) :=
      (Nat.pow_add 2 5 h.romCode.toNat).symm
    rw [Nat.shiftLeft_eq]
    rcases Nat.lt_or_ge (5 + h.romCode.toNat) 64 with hfits | hlost
    · right
      refine ⟨h.romCode.toNat, Nat.mod_eq_of_lt ?_⟩
      rw [hpow]
      exact Nat.pow_lt_pow_right (by omega) hfits
    · left
      rw [hpow]
      exact Nat.mod_eq_zero_of_dvd (Nat.pow_dvd_pow 2 hlost)
  · exact .inl rfl

/-- Between the small sizes and 512 KiB there is none. -/
theorem Header.romKib_large {h : Header} (hpos : 32 ≤ h.romKib)
    (hlarge : h.romKib ∉ [32, 64, 128, 256]) : 512 ≤ h.romKib := by
  obtain hzero | ⟨n, hn⟩ := h.romKib_cases
  · omega
  · rw [hn] at hlarge ⊢
    rcases Nat.lt_or_ge n 4 with hsmall | hbig
    · refine absurd ?_ hlarge
      obtain rfl | rfl | rfl | rfl : n = 0 ∨ n = 1 ∨ n = 2 ∨ n = 3 := by omega
      all_goals decide
    · have := Nat.pow_le_pow_right (show 0 < 2 by omega) hbig
      omega

/-- The bits that the shared switch adds leave room for the lower five. -/
theorem Wiring.upperMask_le {romKib : Nat} (h : 512 ≤ romKib) (ramKib : Nat) :
    32 * (ofSizes romKib ramKib).upperMask.toNat + 32 ≤ romKib / 16 := by
  unfold ofSizes
  dsimp only
  split
  · decide
  · decide
  · show 32 * 0 + 32 ≤ romKib / 16
    omega

/-! ### The switches in use -/

variable {c d : Cartridge} {us us' : List Use}

/-- An attempt to save changes the mark at most. -/
theorem use_save_cases (c : Cartridge) (host : Host) :
    c.use (.save host) = c ∨ c.use (.save host) = { c with dirty := false } := by
  cases hs : (host.save c).2 with
  | error e => exact .inl (by rw [use, hs])
  | ok d =>
    obtain rfl := Host.save_ok hs
    exact .inr (by rw [use, hs])

theorem use_sameBoard (c : Cartridge) (u : Use) : SameBoard c (c.use u) := by
  cases u with
  | write a v => exact write_sameBoard a v
  | save host =>
    obtain h | h := c.use_save_cases host <;> rw [h]
    · exact .refl c
    · exact ⟨rfl, rfl, rfl, rfl, rfl⟩

theorem after_sameBoard (c : Cartridge) (us : List Use) : SameBoard c (c.after us) := by
  induction us with
  | nil => exact .refl c
  | cons u us ih => exact ih.trans (use_sameBoard _ u)

theorem save_banks (c : Cartridge) (host : Host) : (c.use (.save host)).banks = c.banks := by
  obtain h | h := c.use_save_cases host <;> rw [h]

/-- Only writes to the switches move them. -/
theorem write_banks_of_not_lt {a : UInt16} (h : ¬a.toNat < 0x8000) (v : UInt8) :
    (c.write a v).banks = c.banks := by
  unfold write
  split
  · exact absurd ‹_› (ofAddress_ne_rom h _)
  · exact writeRam_banks _ _
  · rfl

/-- The position of the second switch after uses. -/
def lowerAfter (w : Wiring) (us : List Use) : UInt8 := ((lastWritten? 1 us).map w.select).getD 1

theorem lowerAfter_cases (w : Wiring) (us : List Use) :
    lowerAfter w us = 1 ∨ ∃ v, lowerAfter w us = w.select v := by
  unfold lowerAfter
  cases lastWritten? 1 us with
  | none => exact .inl rfl
  | some v => exact .inr ⟨v, rfl⟩

/-- **Where the switches stand after uses**, if the cartridge has any. -/
theorem after_banks (hl : c.Loaded) (hm : c.mapper ≠ .direct) (us : List Use) :
    (c.after us).banks.Told us ∧ (c.after us).banks.lower = lowerAfter c.wiring us := by
  induction us with
  | nil =>
    rw [after, hl.banks_eq]
    exact ⟨Banks.powerOn_told, rfl⟩
  | cons u us ih =>
    obtain ⟨htold, hlower⟩ := ih
    have hboard := after_sameBoard c us
    cases u with
    | save host =>
      rw [after, save_banks]
      exact ⟨htold.congr fun _ _ => rfl, hlower⟩
    | write a v =>
      rw [after, use]
      by_cases ha : a.toNat < 0x8000
      · rw [write_of_switch (hboard.mapper_eq ▸ hm) ha]
        refine ⟨htold.write _ ha v, ?_⟩
        show ((c.after us).banks.write (c.after us).wiring ⟨a.toNat, ha⟩ v).lower = _
        rw [Banks.write_lower, hboard.wiring_eq, lowerAfter, lastWritten?]
        split
        · rfl
        · exact hlower
      · rw [write_banks_of_not_lt ha, lowerAfter, lastWritten?_write_of_not_lt ha v (by omega)]
        exact ⟨htold.congr fun _ hs => lastWritten?_write_of_not_lt ha v hs, hlower⟩

/-- A plain board has no switches. -/
theorem after_banks_of_direct (hm : c.mapper = .direct) (us : List Use) :
    (c.after us).banks = c.banks := by
  induction us with
  | nil => rfl
  | cons u us ih =>
    rw [after]
    cases u with
    | save host => rw [save_banks, ih]
    | write a v =>
      have hm' : (c.after us).mapper = .direct := (after_sameBoard c us).mapper_eq.trans hm
      have hrom (i : Fin 0x8000) : (c.after us).writeRom i v = c.after us := by
        rw [writeRom, hm']
      rw [← ih, use, write]
      split
      · rw [hrom]
      · exact writeRam_banks _ _
      · rfl

/-! ### The banks in the windows -/

/-- The lower bits and the upper bits of a bank do not meet. -/
theorem highBank_eq (h : c.banks.lower.toNat < 32) :
    c.highBank = c.upperBank + c.banks.lower.toNat := by
  unfold highBank upperBank
  rw [Nat.or_comm]
  exact (Nat.two_pow_add_eq_or_of_lt (i := 5) h _).symm

theorem lowBank_le (c : Cartridge) : c.lowBank ≤ c.upperBank := by
  unfold lowBank
  split <;> omega

/-- **Both windows show banks that the ROM has**, if the second switch stands where it can. -/
theorem banks_lt {h : Header} (hw : c.wiring = .ofSizes h.romKib h.ramKib) (hkib : 32 ≤ h.romKib)
    (hlower : c.banks.lower = 1 ∨ ∃ v, c.banks.lower = c.wiring.select v) :
    c.lowBank < h.romKib / 16 ∧ c.highBank < h.romKib / 16 := by
  have hlow := c.lowBank_le
  obtain ⟨hsmall, hupper, n, hn, hbanks, hmask⟩ | ⟨hlarge, hmask⟩ := ofSizes_cases h.romKib h.ramKib
  · -- A small ROM has as many banks as the connected bits of the second switch can number.
    have hzero : c.upperBank = 0 := by
      rw [upperBank, hw, hupper]
      simp
    have hpow : 2 ^ n ≤ 2 ^ 4 := Nat.pow_le_pow_right (by omega) hn
    have hlt : c.banks.lower.toNat < 2 ^ n := by
      obtain hone | ⟨v, hv⟩ := hlower
      · rw [hone, ← hbanks]
        show 1 < h.romKib / 16
        omega
      · rw [hv, Wiring.select_toNat (hw ▸ hmask)]
        have := Nat.mod_lt v.toNat (Nat.two_pow_pos n)
        split <;> omega
    rw [highBank_eq (by omega)]
    omega
  · have hroom := Wiring.upperMask_le (Header.romKib_large hkib hlarge) h.ramKib
    have hupper : c.upperBank ≤ 32 * (Wiring.ofSizes h.romKib h.ramKib).upperMask.toNat := by
      rw [upperBank, hw, UInt8.toNat_and]
      exact Nat.mul_le_mul_left 32 Nat.and_le_right
    have hlt : c.banks.lower.toNat < 32 := by
      obtain hone | ⟨v, hv⟩ := hlower
      · rw [hone]
        decide
      · rw [hv, Wiring.select_toNat (hw ▸ hmask)]
        split <;> omega
    rw [highBank_eq hlt]
    omega

/-- The bank that a window shows at an address. -/
def shownBank (c : Cartridge) (a : Fin 0x8000) : Nat :=
  if a.val < 0x4000 then c.lowBank else c.highBank

/-- **A read in a window**, as a place in the image. On a plain board the two windows show the first
two banks. -/
theorem readRom_eq (hplain : c.mapper = .direct → c.banks = .powerOn) (a : Fin 0x8000) :
    c.readRom a = c.romByte (0x4000 * c.shownBank a + a.val % 0x4000) := by
  have ha := a.isLt
  have hbanks : (if a.val < romBankSize then c.romByte (romBankSize * c.lowBank + a.val)
      else c.romByte (romBankSize * c.highBank + (a.val - romBankSize))) =
      c.romByte (0x4000 * c.shownBank a + a.val % 0x4000) := by
    unfold shownBank romBankSize
    split
    · exact congrArg c.romByte (by omega)
    · exact congrArg c.romByte (by omega)
  unfold readRom
  split
  · rename_i hm
    have hlow : c.lowBank = 0 := by rw [lowBank, hplain hm]; rfl
    have hhigh : c.highBank = 1 := by
      rw [highBank, upperBank, hplain hm]
      simp [Banks.powerOn]
    rw [shownBank, hlow, hhigh]
    congr 1
    split <;> omega
  · exact hbanks

/-! ### Cartridges in use -/

/-- The second switch stands where it can, whatever the board. -/
theorem Loaded.lower_cases (hl : c.Loaded) (us : List Use) :
    (c.after us).banks.lower = 1 ∨
      ∃ v, (c.after us).banks.lower = (c.after us).wiring.select v := by
  by_cases hm : c.mapper = .direct
  · left
    rw [after_banks_of_direct hm, hl.banks_eq]
    rfl
  · rw [(after_banks hl hm us).2, (after_sameBoard c us).wiring_eq]
    exact lowerAfter_cases c.wiring us

theorem Loaded.readRom_eq (hl : c.Loaded) (us : List Use) (a : Fin 0x8000) :
    (c.after us).readRom a =
      (c.after us).romByte (0x4000 * (c.after us).shownBank a + a.val % 0x4000) := by
  refine Cartridge.readRom_eq (fun hm => ?_) a
  have hm' : c.mapper = .direct := (after_sameBoard c us).mapper_eq.symm.trans hm
  rw [after_banks_of_direct hm', hl.banks_eq]

/-- The windows show the same banks after uses that leave three of the switches alike. -/
theorem Loaded.shownBank_congr (hl : c.Loaded)
    (h : ∀ switch ∈ [1, 2, 3], lastWritten? switch us' = lastWritten? switch us) (a : Fin 0x8000) :
    (c.after us').shownBank a = (c.after us).shownBank a := by
  have hboard := after_sameBoard c us
  have hboard' := after_sameBoard c us'
  have hbanks : (c.after us').banks.lower = (c.after us).banks.lower ∧
      (c.after us').banks.shared = (c.after us).banks.shared ∧
      (c.after us').banks.sharedEverywhere = (c.after us).banks.sharedEverywhere := by
    by_cases hm : c.mapper = .direct
    · rw [after_banks_of_direct hm, after_banks_of_direct hm]
      exact ⟨rfl, rfl, rfl⟩
    · obtain ⟨⟨-, hshared, hmode⟩, hlower⟩ := after_banks hl hm us
      obtain ⟨⟨-, hshared', hmode'⟩, hlower'⟩ := after_banks hl hm us'
      refine ⟨?_, UInt8.toNat_inj.1 ?_, ?_⟩
      · rw [hlower, hlower', lowerAfter, lowerAfter, h 1 (by simp)]
      · rw [hshared, hshared', sharedBits, sharedBits, h 2 (by simp)]
      · rw [hmode, hmode', modeOne, modeOne, h 3 (by simp)]
  obtain ⟨hlower, hshared, hmode⟩ := hbanks
  unfold shownBank lowBank highBank upperBank
  rw [hlower, hshared, hmode, hboard.wiring_eq, hboard'.wiring_eq]

/-- **The ROM windows stay inside the image.** A cartridge of any kind has been loaded, whose image
is at least as long as its declared size, and used in any way. The image has not changed. A read in
a window gives a byte of it, the one at the same place in a bank that lies within the declared size:
the bank of the window. The last values written to the second, third and fourth switch decide what
every read gives. -/
theorem rom_windows_inside (hl : c.Loaded) (hkib : 32 ≤ c.header.romKib)
    (hsize : c.header.romKib * 1024 ≤ c.rom.size) (us : List Use) :
    let d := c.after us
    d.rom = c.rom ∧
    (∀ a : Fin 0x8000,
      let bank := if a.val < 0x4000 then d.lowBank else d.highBank
      0x4000 * bank + 0x3FFF < c.header.romKib * 1024 ∧
        ∃ h : 0x4000 * bank + a.val % 0x4000 < c.rom.size,
          d.readRom a = c.rom[0x4000 * bank + a.val % 0x4000]) ∧
    ∀ us', (∀ switch ∈ [1, 2, 3], lastWritten? switch us' = lastWritten? switch us) →
      ∀ a, (c.after us').readRom a = d.readRom a := by
  intro d
  have hrom (us : List Use) : (c.after us).rom = c.rom := (after_sameBoard c us).rom_eq
  have hbyte (us : List Use) (i : Nat) : (c.after us).romByte i = c.romByte i := by
    unfold romByte
    simp only [hrom]
  refine ⟨hrom us, fun a => ?_, fun us' h a => ?_⟩
  · intro bank
    have hw : d.wiring = .ofSizes c.header.romKib c.header.ramKib :=
      (after_sameBoard c us).wiring_eq.trans hl.wiring_eq
    have hbank : bank < c.header.romKib / 16 := by
      obtain ⟨hlow, hhigh⟩ := banks_lt hw hkib (hl.lower_cases us)
      show (if a.val < 0x4000 then d.lowBank else d.highBank) < _
      split
      · exact hlow
      · exact hhigh
    have hoffset : a.val % 0x4000 < 0x4000 := Nat.mod_lt _ (by decide)
    have hlt : 0x4000 * bank + a.val % 0x4000 < c.rom.size := by omega
    refine ⟨by omega, hlt, ?_⟩
    rw [hl.readRom_eq us a, hbyte]
    exact dif_pos hlt
  · rw [hl.readRom_eq, hl.readRom_eq, hbyte, hbyte, hl.shownBank_congr h]

/-! ### A large ROM -/

/-- What follows the header is no part of it. -/
theorem Header.ofImage_append {image : ByteArray} (h : headerEnd ≤ image.size) (more : ByteArray)
    (h' : headerEnd ≤ (image ++ more).size) :
    Header.ofImage (image ++ more) h' = Header.ofImage image h ∧
      computedChecksum (image ++ more) = computedChecksum image := by
  unfold headerEnd at h
  have hpart (i j : Nat) (hj : j ≤ 0x150) : (image ++ more).extract i j = image.extract i j := by
    have hnone : more.extract (i - image.size) (j - image.size) = .empty :=
      ByteArray.extract_eq_empty_iff.2 (by omega)
    rw [ByteArray.extract_append, hnone, ByteArray.append_empty]
  have hbyte (i : Nat) (hi : i < 0x150) (hi' : i < (image ++ more).size) :
      (image ++ more)[i] = image[i] := ByteArray.getElem_append_left (by omega)
  refine ⟨?_, ?_⟩
  · unfold Header.ofImage titleOf
    rw [hpart _ _ (by decide)]
    simp only [hbyte _ (show 0x147 < 0x150 by decide), hbyte _ (show 0x148 < 0x150 by decide),
      hbyte _ (show 0x149 < 0x150 by decide), hbyte _ (show 0x14B < 0x150 by decide),
      hbyte _ (show 0x144 < 0x150 by decide), hbyte _ (show 0x145 < 0x150 by decide),
      hbyte _ (show 0x14C < 0x150 by decide), hbyte _ (show 0x14D < 0x150 by decide)]
  · unfold computedChecksum guardedBytes
    rw [hpart _ _ (by decide)]

/-- The first bytes of an image of 1 MiB, with its header. -/
def roomyHeader : ByteArray := ⟨⟨List.replicate 0x147 0 ++ [1, 5, 0, 0, 0, 0, 0xE1, 0, 0]⟩⟩

/-- An image of 1 MiB for a cartridge with switches. -/
def roomyImage : ByteArray := roomyHeader ++ ⟨Array.replicate 0xFFEB0 0⟩

theorem size_roomyImage : roomyImage.size = 0x100000 := by
  have hheader : roomyHeader.size = 0x150 := by decide +kernel
  rw [roomyImage, ByteArray.size_append, hheader, ByteArray.size, Array.size_replicate]

theorem roomyImage_accepted :
    ∃ c, ofImage roomyImage = .ok c ∧ c.mapper = .switched ∧ c.header.romKib = 1024 := by
  have hs : headerEnd ≤ roomyHeader.size := by decide +kernel
  have hs' : headerEnd ≤ roomyImage.size := by
    rw [size_roomyImage]
    decide
  obtain ⟨hheader, hsum⟩ := Header.ofImage_append hs _ hs'
  have hsum' : Header.computedChecksum roomyHeader = 0xE1 := by decide +kernel
  have hchecksum : Header.computedChecksum roomyImage = (Header.ofImage roomyImage hs').checksum :=
    (hsum.trans (hsum'.trans rfl)).trans (congrArg Header.checksum hheader).symm
  obtain ⟨c, hc, hch, hmapper⟩ := ofImage_of_checksum hs' hchecksum
  have hch : c.header = Header.ofImage roomyHeader hs := hch.trans hheader
  rw [hch] at hmapper
  exact ⟨c, hc, hmapper, congrArg Header.romKib hch⟩

/-- With all connected bits on, the upper window of a ROM of 1 MiB shows its last bank, and the last
byte of the window is the last one of the image. -/
theorem rom_windows_inside_last_bank :
    let us : List Use := [.write 0x6000 1, .write 0x4000 0xFF, .write 0x2000 0xFF]
    ∃ c, ofImage roomyImage = .ok c ∧ c.Loaded ∧ 32 ≤ c.header.romKib ∧
      c.header.romKib * 1024 ≤ c.rom.size ∧ (c.after us).highBank = 63 ∧
      ∃ h : 0xFFFFF < c.rom.size, (c.after us).readRom 0x7FFF = c.rom[0xFFFFF] := by
  intro us
  obtain ⟨c, hc, hm, hkib⟩ := roomyImage_accepted
  have hl := ofImage_loaded hc
  have hpos : 32 ≤ c.header.romKib := by omega
  have hsize : c.header.romKib * 1024 ≤ c.rom.size := by
    rw [(ofImage_eq hc).rom_eq, size_roomyImage, hkib]
  have hhigh : (c.after us).highBank = 63 := by
    have hswitched : c.mapper ≠ .direct := by
      rw [hm]
      decide
    obtain ⟨⟨-, hshared, -⟩, hlower⟩ := after_banks hl hswitched us
    have hbits : (c.after us).banks.shared = 3 := UInt8.toNat_inj.1 (hshared.trans (by decide))
    have hlast : lastWritten? 1 us = some 0xFF := by decide
    have hmask : (Wiring.ofSizes 1024 c.header.ramKib).lowerMask = 0x1F := rfl
    have hmask' : (Wiring.ofSizes 1024 c.header.ramKib).upperMask = 1 := rfl
    rw [highBank, upperBank, hlower, hbits, (after_sameBoard c us).wiring_eq, hl.wiring_eq, hkib,
      lowerAfter, hlast, hmask', Option.map_some, Wiring.select, hmask]
    decide
  obtain ⟨-, hread, -⟩ := rom_windows_inside hl hpos hsize us
  obtain ⟨-, h, hbyte⟩ := hread ⟨0x7FFF, by decide⟩
  simp only [hhigh, Nat.reduceLT, ↓reduceIte, Nat.reduceMod, Nat.reduceMul,
    Nat.reduceAdd] at h hbyte
  exact ⟨c, hc, hl, hpos, hsize, hhigh, h, hbyte⟩

end Cartridge

end DotMatrix
