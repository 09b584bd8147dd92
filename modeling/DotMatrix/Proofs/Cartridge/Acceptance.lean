import DotMatrix.Proofs.Cartridge.BankedRam
import DotMatrix.Proofs.Console.Reset
import Mathlib.Algebra.BigOperators.Fin
import Mathlib.Algebra.BigOperators.Intervals

/-!
# Which images are accepted

An image is accepted if it has room for a header and the bytes that the checksum guards balance with
it. So the checksum finds every single byte that is wrong, wherever it is among these. What other
bytes are does not matter.

* `byteAt`, `balance`: the bytes of an image, and the sum that must vanish;
* `Header.computedChecksum_balance`: the checksum takes all guarded bytes from zero;
* `ofImage_ok_iff`: when an image is accepted;
* `balance_eq_of_ne`: what one other byte does to the sum;
* `image_acceptance`: all of it, with what a program finds on a fresh cartridge.
-/

namespace DotMatrix.Cartridge

/-- A byte of an image. What is not there reads as ones. -/
def byteAt (image : ByteArray) (i : Nat) : UInt8 := if h : i < image.size then image[i] else 0xFF

/-- The checksum, and each byte that it guards and one more. -/
def balance (image : ByteArray) : Nat :=
  (byteAt image 0x14D).toNat + 25 + ∑ i ∈ Finset.Ico 0x134 0x14D, (byteAt image i).toNat

/-! ### The checksum -/

/-- Taking bytes from a number in a byte, and one more for each, leaves what balances them. -/
theorem Header.checksum_fold (bytes : List UInt8) (start : UInt8) :
    ((bytes.foldl (fun sum b => sum - b - 1) start).toNat + bytes.length +
      (bytes.map UInt8.toNat).sum) % 256 = start.toNat := by
  induction bytes generalizing start with
  | nil =>
    have hlt := start.toNat_lt
    simp only [List.foldl_nil, List.length_nil, List.map_nil, List.sum_nil]
    omega
  | cons b bytes ih =>
    have hnext := ih (start - b - 1)
    have hlt := start.toNat_lt
    have hb := b.toNat_lt
    have hone : (1 : UInt8).toNat = 1 := rfl
    rw [UInt8.toNat_sub, UInt8.toNat_sub, hone] at hnext
    rw [List.foldl_cons, List.length_cons, List.map_cons, List.sum_cons]
    omega

theorem Header.guardedBytes_eq {image : ByteArray} (h : headerEnd ≤ image.size) :
    guardedBytes image = List.ofFn fun i : Fin 25 => byteAt image (0x134 + i.val) := by
  have hsize : 0x150 ≤ image.size := h
  refine List.ext_getElem ?_ fun i hi hi' => ?_
  · rw [List.length_ofFn, guardedBytes, Array.length_toList, ← ByteArray.size,
      ByteArray.size_extract]
    omega
  · rw [List.length_ofFn] at hi'
    have hlt : 0x134 + i < image.size := by omega
    rw [List.getElem_ofFn]
    unfold byteAt
    rw [dif_pos hlt]
    simp only [guardedBytes, ByteArray.data_extract, Array.getElem_toList, Array.getElem_extract]
    rfl

theorem Header.computedChecksum_balance {image : ByteArray} (h : headerEnd ≤ image.size) :
    ((computedChecksum image).toNat + 25 +
      ∑ i ∈ Finset.Ico 0x134 0x14D, (byteAt image i).toNat) % 256 = 0 := by
  have hfold := checksum_fold (guardedBytes image) 0
  have hsum : ((guardedBytes image).map UInt8.toNat).sum =
      ∑ i ∈ Finset.Ico 0x134 0x14D, (byteAt image i).toNat := by
    rw [guardedBytes_eq h, List.map_ofFn, List.sum_ofFn, Finset.sum_Ico_eq_sum_range,
      Finset.sum_range]
    rfl
  have hlength : (guardedBytes image).length = 25 := by
    rw [guardedBytes_eq h, List.length_ofFn]
  rw [hsum, hlength] at hfold
  exact hfold

theorem Header.checksum_ofImage {image : ByteArray} (h : headerEnd ≤ image.size) :
    (Header.ofImage image h).checksum = byteAt image 0x14D := by
  have hsize : 0x150 ≤ image.size := h
  unfold byteAt
  rw [dif_pos (by omega)]
  rfl

theorem Header.computedChecksum_eq_iff {image : ByteArray} (h : headerEnd ≤ image.size) :
    computedChecksum image = byteAt image 0x14D ↔ balance image % 256 = 0 := by
  have hbalance := computedChecksum_balance h
  have hcomputed := (computedChecksum image).toNat_lt
  have hwritten := (byteAt image 0x14D).toNat_lt
  unfold balance
  rw [← UInt8.toNat_inj]
  omega

/-- What becomes of an image. -/
theorem ofImage_cases (image : ByteArray) :
    (image.size < 0x150 ∧ ofImage image = .error (.tooSmall image.size)) ∨
    (0x150 ≤ image.size ∧ balance image % 256 ≠ 0 ∧
      Header.computedChecksum image ≠ byteAt image 0x14D ∧
      ofImage image =
        .error (.checksumMismatch (byteAt image 0x14D) (Header.computedChecksum image))) ∨
    (0x150 ≤ image.size ∧ balance image % 256 = 0 ∧ ∃ c, ofImage image = .ok c) := by
  by_cases h : headerEnd ≤ image.size
  · have hiff := Header.computedChecksum_eq_iff h
    right
    unfold ofImage
    rw [dif_pos h]
    dsimp only
    rw [Header.checksum_ofImage]
    by_cases hsum : Header.computedChecksum image = byteAt image 0x14D
    · exact .inr ⟨h, hiff.1 hsum, _, if_pos hsum⟩
    · exact .inl ⟨h, mt hiff.2 hsum, hsum, if_neg hsum⟩
  · refine .inl ⟨Nat.lt_of_not_le h, ?_⟩
    unfold ofImage
    rw [dif_neg h]

/-- When an image is accepted. -/
theorem ofImage_ok_iff (image : ByteArray) :
    (∃ c, ofImage image = .ok c) ↔ 0x150 ≤ image.size ∧ balance image % 256 = 0 := by
  constructor
  · rintro ⟨c, hc⟩
    obtain ⟨-, h⟩ | ⟨-, -, -, h⟩ | ⟨hsize, hbalance, -⟩ := ofImage_cases image
    · rw [hc] at h
      cases h
    · rw [hc] at h
      cases h
    · exact ⟨hsize, hbalance⟩
  · rintro ⟨hsize, hbalance⟩
    obtain ⟨hsmall, -⟩ | ⟨-, hwrong, -⟩ | ⟨-, -, hc⟩ := ofImage_cases image
    · omega
    · exact absurd hbalance hwrong
    · exact hc

/-! ### Other bytes -/

/-- From one image to the other, the byte at a place is another one, and that is all. -/
structure ChangedAt (i : Nat) (image other : ByteArray) : Prop where
  size_eq : other.size = image.size
  ne : byteAt other i ≠ byteAt image i
  same {j : Nat} : j ≠ i → byteAt other j = byteAt image j

/-- A byte that is put into an image. -/
theorem changedAt_set {image : ByteArray} {i : Nat} (h : i < image.size) {v : UInt8}
    (hv : v ≠ image[i]) : ChangedAt i image (image.set i v h) := by
  have hsize : (image.set i v h).size = image.size := size_set image i v h
  have hget (j : Nat) (hj : j < image.size) :
      byteAt (image.set i v h) j = if i = j then v else image[j] := by
    have hj' : j < (image.set i v h).size := hsize.symm ▸ hj
    unfold byteAt
    rw [dif_pos hj']
    exact Array.getElem_set h hj'
  refine ⟨hsize, ?_, fun {j} hj => ?_⟩
  · rw [hget i h, if_pos rfl, byteAt, dif_pos h]
    exact hv
  · by_cases hlt : j < image.size
    · rw [hget j hlt, if_neg (Ne.symm hj), byteAt, dif_pos hlt]
    · unfold byteAt
      rw [dif_neg hlt, dif_neg (hsize ▸ hlt)]

/-- Another byte that is guarded goes into the sum. -/
theorem ChangedAt.balance {i : Nat} {image other : ByteArray} (h : ChangedAt i image other)
    (hlow : 0x134 ≤ i) (hhigh : i ≤ 0x14D) :
    Cartridge.balance other + (byteAt image i).toNat =
      Cartridge.balance image + (byteAt other i).toNat := by
  unfold Cartridge.balance
  -- The checksum itself is guarded too, but stands outside the sum over the other bytes.
  by_cases hlast : i = 0x14D
  · subst hlast
    have hsum : ∑ j ∈ Finset.Ico 0x134 0x14D, (byteAt other j).toNat =
        ∑ j ∈ Finset.Ico 0x134 0x14D, (byteAt image j).toNat := by
      refine Finset.sum_congr rfl fun j hj => ?_
      rw [h.same (Nat.ne_of_lt (Finset.mem_Ico.1 hj).2)]
    omega
  · have hmem : i ∈ Finset.Ico 0x134 0x14D := Finset.mem_Ico.2 ⟨hlow, by omega⟩
    have hrest : ∑ j ∈ (Finset.Ico 0x134 0x14D).erase i, (byteAt other j).toNat =
        ∑ j ∈ (Finset.Ico 0x134 0x14D).erase i, (byteAt image j).toNat := by
      refine Finset.sum_congr rfl fun j hj => ?_
      rw [h.same (Finset.ne_of_mem_erase hj)]
    rw [← Finset.add_sum_erase _ _ hmem, ← Finset.add_sum_erase _ _ hmem, hrest,
      h.same (Ne.symm hlast)]
    omega

/-- Images with the same guarded bytes are accepted or not alike. -/
theorem balance_congr {image other : ByteArray}
    (h : ∀ j, 0x134 ≤ j → j ≤ 0x14D → byteAt other j = byteAt image j) :
    balance other = balance image := by
  unfold balance
  have hsum : ∑ j ∈ Finset.Ico 0x134 0x14D, (byteAt other j).toNat =
      ∑ j ∈ Finset.Ico 0x134 0x14D, (byteAt image j).toNat := by
    refine Finset.sum_congr rfl fun j hj => ?_
    obtain ⟨hlow, hhigh⟩ := Finset.mem_Ico.1 hj
    rw [h j hlow (Nat.le_of_lt hhigh)]
  rw [hsum, h 0x14D (by decide) (Nat.le_refl _)]

/-! ### A fresh cartridge -/

/-- What a program reads in the two windows of a fresh cartridge. -/
theorem MadeFrom.read {c : Cartridge} {image : ByteArray} (h : c.MadeFrom image) (b : Bus)
    (a : UInt16) :
    (a.toNat < 0x8000 → (b.insert c).read a = byteAt image a.toNat) ∧
      (0xA000 ≤ a.toNat → a.toNat < 0xC000 → (b.insert c).read a = 0xFF) := by
  have hstart : c.atStart = c := by
    unfold atStart
    rw [← h.banks_eq]
  refine ⟨fun ha => ?_, fun hlow hhigh => ?_⟩
  · obtain ⟨i, hi, hia⟩ := ofAddress_of_lt ha
    have hread := c.atStart_readRom i
    rw [hstart] at hread
    rw [Bus.read, hi, ← hia, ← h.rom_eq]
    exact hread
  · have hi : a.toNat = 0xA000 + (⟨a.toNat - 0xA000, by omega⟩ : Fin 0x2000).val := by
      dsimp only
      omega
    have hread := c.atStart_readRam ⟨a.toNat - 0xA000, by omega⟩
    rw [hstart] at hread
    rw [Bus.read, Location.ofAddress_eq_cartridgeRam_iff.2 hi]
    exact hread

/-- **Which images are accepted**, and what is found on a fresh cartridge. An image is accepted if it
has room for a header, and the checksum, the bytes that it guards and one for each of them are
together a multiple of 256. A single other byte among these is then always found; other bytes
elsewhere do not matter. Whatever the mapper: the ROM windows show the first bytes of the image and
ones where it is at an end, every byte of RAM is zero, the RAM window shows ones, and there is
nothing to save. -/
theorem image_acceptance (image : ByteArray) :
    ((∃ c, ofImage image = .ok c) ↔ 0x150 ≤ image.size ∧ balance image % 256 = 0) ∧
    ∀ c, ofImage image = .ok c →
      (∀ other i, 0x134 ≤ i → i ≤ 0x14D → ChangedAt i image other →
        ∃ computed, computed ≠ byteAt other 0x14D ∧
          ofImage other = .error (.checksumMismatch (byteAt other 0x14D) computed)) ∧
      (∀ other : ByteArray, other.size = image.size →
        (∀ j, 0x134 ≤ j → j ≤ 0x14D → byteAt other j = byteAt image j) →
        ∃ d, ofImage other = .ok d) ∧
      (∀ (b : Bus) (a : UInt16),
        (a.toNat < 0x8000 → (b.insert c).read a = byteAt image a.toNat) ∧
          (0xA000 ≤ a.toNat → a.toNat < 0xC000 → (b.insert c).read a = 0xFF)) ∧
      (∀ (i : Nat) (h : i < c.ram.size), c.ram[i] = 0) ∧ c.dirty = false := by
  refine ⟨ofImage_ok_iff image, fun c hc => ?_⟩
  obtain ⟨hsize, hbalance⟩ := (ofImage_ok_iff image).1 ⟨c, hc⟩
  have hmade := ofImage_eq hc
  refine ⟨fun other i hlow hhigh hchanged => ?_, fun other hother hsame => ?_, hmade.read,
    fun i h => ?_, hmade.clean⟩
  · have hsum := hchanged.balance hlow hhigh
    have hne : (byteAt other i).toNat ≠ (byteAt image i).toNat :=
      fun h => hchanged.ne (UInt8.toNat_inj.1 h)
    have hlt := (byteAt other i).toNat_lt
    have hlt' := (byteAt image i).toNat_lt
    have hother := hchanged.size_eq
    obtain ⟨hsmall, -⟩ | ⟨-, -, hwrong, herror⟩ | ⟨-, hright, -⟩ := ofImage_cases other
    · omega
    · exact ⟨_, hwrong, herror⟩
    · omega
  · exact (ofImage_ok_iff other).2 ⟨by omega, (balance_congr hsame).symm ▸ hbalance⟩
  · have hblank : ∀ ram : ByteArray, ram = ⟨Array.replicate (c.header.ramKib * 1024) 0⟩ →
        ∀ h : i < ram.size, ram[i] = 0 := by
      rintro _ rfl h
      exact Array.getElem_replicate h
    exact hblank c.ram hmade.ram_eq h

/-- One character of its title is another one, and the image of a cartridge is refused. -/
theorem image_acceptance_switched :
    ∃ (c : Cartridge) (h : 0x134 < switchedImage.size), ofImage switchedImage = .ok c ∧
      (∃ computed, computed ≠ 0xE6 ∧
        ofImage (switchedImage.set 0x134 0x41 h) = .error (.checksumMismatch 0xE6 computed)) ∧
      c.dirty = false := by
  obtain ⟨c, hc, -⟩ := switchedImage_accepted
  have h : 0x134 < switchedImage.size := by decide +kernel
  have hv : (0x41 : UInt8) ≠ switchedImage[0x134] := by decide +revert +kernel
  have hchecksum : byteAt (switchedImage.set 0x134 0x41 h) 0x14D = 0xE6 := by
    decide +revert +kernel
  obtain ⟨hother, -, -, -, hclean⟩ := (image_acceptance switchedImage).2 c hc
  have herror := hother _ 0x134 (by decide) (by decide) (changedAt_set h hv)
  rw [hchecksum] at herror
  exact ⟨c, h, hc, herror, hclean⟩

end DotMatrix.Cartridge
