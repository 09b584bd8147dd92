import DotMatrix.Proofs.Cartridge.Backup
import DotMatrix.Proofs.Console.Backup
import DotMatrix.Proofs.Console.Collaborators
import DotMatrix.Proofs.Console.Invariant

/-!
# What a reset leaves behind

A reset leaves the cartridge in as it is. Its ROM and RAM are part of that, and so are its four
switches, which stand where the program has left them and not where they stand when power comes on.

* `Cartridge.Genuine`: a cartridge made from its image, and then used;
* `Cartridge.ShowsStart`: its windows show what they show when power comes on;
* `reset_alike`: a console after a reset is like a new one with a new cartridge of the same image,
  whose RAM and switches are those of the old one;
* `reset_is_restart`: so they run alike, and what the cartridge's windows show at first is what they
  show on a new console just if the switches do not matter.
-/

namespace DotMatrix

/-! ### The cartridge -/

namespace Cartridge

/-- The cartridge was made from its image, and then used. A plain board has no switches to use. -/
def Genuine (c : Cartridge) : Prop :=
  ∃ fresh, ofImage c.rom = .ok fresh ∧ SameBoard fresh c ∧
    (c.mapper = .direct → c.banks = .powerOn)

variable {c d fresh : Cartridge}

theorem genuine_ofImage {image : ByteArray} (h : ofImage image = .ok c) : c.Genuine := by
  have hmade := ofImage_eq h
  exact ⟨c, hmade.rom_eq.symm ▸ h, .refl c, fun _ => hmade.banks_eq⟩

/-- A change of RAM, save file and mark. -/
theorem Genuine.congr (h : c.Genuine) (hb : SameBoard c d) (hs : d.banks = c.banks) :
    d.Genuine := by
  obtain ⟨fresh, himage, hboard, hdirect⟩ := h
  refine ⟨fresh, hb.rom_eq.symm ▸ himage, hboard.trans hb, fun hm => ?_⟩
  rw [hs]
  exact hdirect (hb.mapper_eq.symm.trans hm)

theorem Genuine.alike (h : c.Genuine) (ha : c.Alike d) : d.Genuine := by
  cases ha
  exact h.congr ⟨rfl, rfl, rfl, rfl, rfl⟩ rfl

theorem Genuine.write (h : c.Genuine) (a : UInt16) (v : UInt8) : (c.write a v).Genuine := by
  unfold Cartridge.write
  split
  · rename_i i _
    obtain ⟨fresh, himage, hboard, hdirect⟩ := h
    have hb := writeRom_sameBoard (c := c) i v
    refine ⟨fresh, hb.rom_eq.symm ▸ himage, hboard.trans hb, fun hm => ?_⟩
    have hplain : c.mapper = .direct := hb.mapper_eq.symm.trans hm
    unfold writeRom
    rw [hplain]
    exact hdirect hplain
  · exact h.congr (writeRam_sameBoard _ _) (writeRam_banks _ _)
  · exact h

/-- Every cartridge read from its files is genuine. -/
theorem genuine_ofFile {volume : Volume} {path : String} {events : List Log.Event}
    (h : ofFile volume path = .ok (c, events)) : c.Genuine := by
  obtain ⟨image, b, -, himage, rfl⟩ := ofFile_cases h
  refine (genuine_ofImage himage).congr (b.attachSave_sameBoard volume path) ?_
  unfold attachSave
  split
  · dsimp only
    split <;> rfl
  · rfl

theorem Alike.readRom (h : c.Alike d) (a : Fin 0x8000) : d.readRom a = c.readRom a := by
  cases h
  rfl

theorem Alike.readRam (h : c.Alike d) (i : Fin 0x2000) : d.readRam i = c.readRam i := by
  cases h
  rfl

/-- With the same RAM and the same switches, cartridges made from one image are alike. -/
theorem SameBoard.alike (h : SameBoard fresh c) :
    Alike { fresh with ram := c.ram, banks := c.banks } c := by
  obtain ⟨hrom, hheader, hmapper, hwiring, -⟩ := h
  rw [← hrom, ← hheader, ← hmapper, ← hwiring]
  exact .intro c.savePath c.dirty

/-! ### The windows -/

/-- The windows show what they show when power comes on: the first two banks of the ROM, and no RAM.
On a plain board they always do. -/
def ShowsStart (c : Cartridge) : Prop :=
  c.mapper = .direct ∨
    (∀ i < romBankSize, c.romByte (romBankSize * c.lowBank + i) = c.romByte i) ∧
    (∀ i < romBankSize, c.romByte (romBankSize * c.highBank + i) = c.romByte (romBankSize + i)) ∧
    (c.ramVisible = true → ∀ i, c.readRam i = 0xFF)

/-- The cartridge with its switches as they are when power comes on. -/
def atStart (c : Cartridge) : Cartridge := { c with banks := .powerOn }

theorem atStart_readRom (c : Cartridge) (a : Fin 0x8000) :
    c.atStart.readRom a = c.romByte a.val := by
  have hlow : c.atStart.lowBank = 0 := rfl
  have hhigh : c.atStart.highBank = 1 := by
    show 1 ||| 32 * ((0 : UInt8) &&& c.wiring.upperMask).toNat = 1
    simp
  have hbyte (i : Nat) : c.atStart.romByte i = c.romByte i := rfl
  unfold readRom
  rw [hlow, hhigh, Nat.mul_zero, Nat.zero_add, Nat.mul_one]
  simp only [hbyte]
  split
  · rfl
  · split
    · rfl
    · rename_i ha
      rw [Nat.add_sub_cancel' (Nat.le_of_not_lt ha)]

theorem atStart_readRam (c : Cartridge) (i : Fin 0x2000) : c.atStart.readRam i = 0xFF := by
  have hvisible : c.atStart.ramVisible = false := by simp [ramVisible, atStart, Banks.powerOn]
  unfold readRam
  rw [hvisible]
  rfl

theorem readRom_eq_iff (c : Cartridge) (hm : c.mapper ≠ .direct) :
    (∀ a, c.readRom a = c.atStart.readRom a) ↔
      (∀ i < romBankSize, c.romByte (romBankSize * c.lowBank + i) = c.romByte i) ∧
      ∀ i < romBankSize,
        c.romByte (romBankSize * c.highBank + i) = c.romByte (romBankSize + i) := by
  have hread (a : Fin 0x8000) : c.readRom a =
      if a.val < romBankSize then c.romByte (romBankSize * c.lowBank + a.val)
      else c.romByte (romBankSize * c.highBank + (a.val - romBankSize)) := by
    unfold readRom
    split
    · contradiction
    · rfl
  simp only [hread, atStart_readRom]
  constructor
  · intro h
    refine ⟨fun i hi => ?_, fun i hi => ?_⟩
    · have hi' := h ⟨i, by unfold romBankSize at hi; omega⟩
      rwa [if_pos hi] at hi'
    · have hi' := h ⟨romBankSize + i, by unfold romBankSize at *; omega⟩
      rwa [if_neg (by simp), Nat.add_sub_cancel_left] at hi'
  · rintro ⟨hlow, hhigh⟩ a
    split
    · rename_i ha
      exact hlow a.val ha
    · rename_i ha
      have hrest := hhigh (a.val - romBankSize) (by unfold romBankSize at *; omega)
      rw [hrest, Nat.add_sub_cancel' (Nat.le_of_not_lt ha)]

theorem readRam_eq_iff (c : Cartridge) :
    (∀ i, c.readRam i = c.atStart.readRam i) ↔ (c.ramVisible = true → ∀ i, c.readRam i = 0xFF) := by
  simp only [atStart_readRam]
  constructor
  · intro h _
    exact h
  · intro h i
    by_cases hv : c.ramVisible = true
    · exact h hv i
    · unfold readRam
      rw [if_neg hv]

/-- When exactly the windows show what they show with the switches as they are when power comes
on. -/
theorem showsStart_iff (c : Cartridge) :
    (∀ a, c.readRom a = c.atStart.readRom a) ∧ (∀ i, c.readRam i = c.atStart.readRam i) ↔
      c.ShowsStart := by
  unfold ShowsStart
  rw [readRam_eq_iff]
  by_cases hm : c.mapper = .direct
  · have hrom (a : Fin 0x8000) : c.readRom a = c.atStart.readRom a := by
      unfold readRom
      have hm' : c.atStart.mapper = .direct := hm
      rw [hm, hm']
      rfl
    have hvisible : c.ramVisible ≠ true := by simp [ramVisible, hm]
    simp [hm, hrom, hvisible]
  · rw [readRom_eq_iff c hm]
    simp [hm, and_assoc]

end Cartridge

/-! ### The cartridge in use -/

namespace Bus

variable {b b' : Bus}

/-- The cartridge that is in, if there is one, is genuine. -/
def HoldsGenuine (b : Bus) : Prop := ∀ k, b.cartridge = some k → k.Genuine

theorem HoldsGenuine.alike (h : b.HoldsGenuine) (hb : b.Alike b') : b'.HoldsGenuine := by
  intro k' hk'
  have hslots := hb.cartridge
  rw [hk'] at hslots
  generalize hslot : b.cartridge = slot at hslots
  cases hslots with
  | some hk => exact (h _ hslot).alike hk

theorem holdsGenuine_stored : Stored HoldsGenuine where
  congr h hc _ _ k hk := h k (hc ▸ hk)
  write {b} a v h k hk := by
    rw [b.write_cartridge, Option.map_eq_some_iff] at hk
    obtain ⟨k, hk, rfl⟩ := hk
    exact (h k hk).write a v
  saveRam {b} h _ := h.alike b.saveRam_alike

/-! ### Addresses of the windows -/

/-- An address that belongs to the cartridge. -/
def InWindow (a : UInt16) : Prop := a.toNat < 0x8000 ∨ 0xA000 ≤ a.toNat ∧ a.toNat < 0xC000

theorem toNat_address {n : Nat} (hn : n < 0x10000) : (UInt16.ofNat n).toNat = n := by
  rw [UInt16.toNat_ofNat']
  exact Nat.mod_eq_of_lt hn

variable {k k' : Cartridge}

theorem read_rom (hk : b.cartridge = some k) (i : Fin 0x8000) :
    b.read (UInt16.ofNat i.val) = k.readRom i := by
  have hi : (UInt16.ofNat i.val).toNat = i.val := toNat_address (by omega)
  unfold read Location.ofAddress
  simp only [hi, i.isLt, ↓reduceDIte]
  unfold readAt
  rw [hk]

theorem read_ram (hk : b.cartridge = some k) (i : Fin 0x2000) :
    b.read (UInt16.ofNat (0xA000 + i.val)) = k.readRam i := by
  have hi : (UInt16.ofNat (0xA000 + i.val)).toNat = 0xA000 + i.val :=
    toNat_address (by omega)
  have hnot (n : Nat) (hn : n ≤ 0xA000) : ¬0xA000 + i.val < n := by omega
  have hlt : 0xA000 + i.val < 0xC000 := by omega
  unfold read Location.ofAddress
  simp only [hi, hnot 0x8000 (by omega), hnot 0xA000 (by omega), hlt, ↓reduceDIte,
    Nat.add_sub_cancel_left]
  unfold readAt
  rw [hk]

/-- What two cartridges show is what is read in their windows. -/
theorem read_window_iff (hk : b.cartridge = some k) (hk' : b'.cartridge = some k') :
    (∀ a, InWindow a → b.read a = b'.read a) ↔
      (∀ a, k.readRom a = k'.readRom a) ∧ ∀ i, k.readRam i = k'.readRam i := by
  constructor
  · intro h
    refine ⟨fun i => ?_, fun i => ?_⟩
    · rw [← read_rom hk, ← read_rom hk']
      refine h _ (.inl ?_)
      rw [toNat_address (by omega)]
      exact i.isLt
    · rw [← read_ram hk, ← read_ram hk']
      refine h _ (.inr ?_)
      rw [toNat_address (by omega)]
      omega
  · rintro ⟨hrom, hram⟩ a (ha | ha)
    · have hread := hrom ⟨a.toNat, ha⟩
      rw [← read_rom hk, ← read_rom hk'] at hread
      simpa using hread
    · have hread := hram ⟨a.toNat - 0xA000, by omega⟩
      rw [← read_ram hk, ← read_ram hk'] at hread
      simpa [Nat.add_sub_cancel' ha.1] using hread

end Bus

namespace Console

variable {c : Console}

theorem holdsGenuine_invariant : Invariant fun c => c.machine.bus.HoldsGenuine where
  step {c} h := by
    obtain ⟨hstep, -⟩ := c.step_alike
    refine Bus.HoldsGenuine.alike ?_ hstep.bus
    rw [c.machine.step_performs.bus_eq]
    exact Bus.holdsGenuine_stored.perform h _
  frameDone h := h

theorem holdsGenuine_perform (h : c.machine.bus.HoldsGenuine) {o : Operation}
    (ho : ∀ k, o = .insert k → k.Genuine) : (o.perform c).machine.bus.HoldsGenuine := by
  cases o with
  | step => exact holdsGenuine_invariant.step h
  | runCycles ticks => exact holdsGenuine_invariant.runToCycle h _ _
  | runFrame steps => exact holdsGenuine_invariant.runToFrameEnd h _ _
  | write a v => exact Bus.holdsGenuine_stored.write a v h
  | save => exact h.alike c.save_alike.bus
  | insert k =>
    intro k' hk'
    obtain rfl := Option.some.inj hk'
    exact ho _ rfl
  | insertImage image =>
    show (c.insertAccepted image).machine.bus.HoldsGenuine
    unfold insertAccepted insertImage
    cases himage : Cartridge.ofImage image with
    | error e => exact h
    | ok k =>
      intro k' hk'
      obtain rfl := Option.some.inj hk'
      exact Cartridge.genuine_ofImage himage
  | _ => exact h

theorem holdsGenuine_run {os : List Operation} (h : c.machine.bus.HoldsGenuine)
    (hos : ∀ k, .insert k ∈ os → k.Genuine) : (Operation.run os c).machine.bus.HoldsGenuine := by
  induction os generalizing c with
  | nil => exact h
  | cons o os ih =>
    refine ih (holdsGenuine_perform h fun k hk => hos k ?_) fun k hk => hos k (.tail o hk)
    rw [hk]
    exact List.mem_cons_self

/-! ### The reset -/

/-- After a reset, a console is like a new one with an alike cartridge. -/
theorem reset_alike {k k' : Cartridge} (host : Host) (hk : c.cartridge = some k)
    (h : k'.Alike k) : ((powerOn host).insert k').Alike c.reset := by
  refine .intro _ (.intro _ _ ?_)
  show Cartridge.AlikeIn (some k') c.cartridge
  rw [hk]
  exact .some h

/-- **What a reset is.** A console in use, with a cartridge that came from an image, is reset. It
then runs like a new console with a new cartridge of the same image, whose RAM and whose switches
are those of the old one. What is read in the cartridge's windows right after the reset is what is
read on a new console, whose cartridge has its switches as they are when power comes on, just if
the switches do not show; on a plain board they never do. -/
theorem reset_is_restart (host host' : Host) {os : List Operation}
    (hos : ∀ k, .insert k ∈ os → k.Genuine) {k : Cartridge}
    (hk : (Operation.run os (powerOn host)).cartridge = some k) :
    ∃ fresh, Cartridge.ofImage k.rom = .ok fresh ∧
      let c := (Operation.run os (powerOn host)).reset
      let restart (banks : Cartridge.Banks) : Console :=
        (powerOn host').insert { fresh with ram := k.ram, banks }
      (∀ os', (Operation.run os' (restart k.banks)).Alike (Operation.run os' c) ∧
        Operation.answers os' c = Operation.answers os' (restart k.banks)) ∧
      ((∀ a, Bus.InWindow a → c.machine.bus.read a = (restart fresh.banks).machine.bus.read a) ↔
        k.ShowsStart) ∧
      (k.mapper = .direct → k.banks = fresh.banks) := by
  have hstart : (powerOn host).machine.bus.HoldsGenuine := nofun
  obtain ⟨fresh, himage, hboard, hdirect⟩ := holdsGenuine_run hstart hos k hk
  have hbanks : fresh.banks = .powerOn := (Cartridge.ofImage_eq himage).banks_eq
  refine ⟨fresh, himage, fun os' => ?_, ?_, fun hm => (hdirect hm).trans hbanks.symm⟩
  · obtain ⟨halike, hanswers, -⟩ :=
      collaborators_take_no_part (reset_alike host' hk hboard.alike) os'
    exact ⟨halike, hanswers⟩
  · have hfresh : Cartridge.Alike { fresh with ram := k.ram, banks := fresh.banks } k.atStart := by
      have hstart : Cartridge.SameBoard fresh k.atStart :=
        ⟨hboard.rom_eq, hboard.header_eq, hboard.mapper_eq, hboard.wiring_eq, hboard.ramSize_eq⟩
      rw [hbanks]
      exact hstart.alike
    have hkept : (Operation.run os (powerOn host)).reset.machine.bus.cartridge = some k := hk
    rw [← k.showsStart_iff, Bus.read_window_iff hkept rfl]
    simp only [hfresh.readRom, hfresh.readRam]

/-- An image that says that it is of 1 MiB, and whose first bank is there. -/
def largeImage : ByteArray :=
  ⟨⟨List.replicate 0x147 0 ++ [1, 5, 0, 0, 0, 0, 0xE1, 0, 0]⟩⟩

/-- Another bank is selected for the lower window, and the console is reset. -/
theorem large_reset_is_restart :
    let host := Host.ofVolume .empty
    let os := [.insertImage largeImage, .write 0x4000 1, .write 0x6000 1]
    ∃ k fresh, (Operation.run os (powerOn host)).cartridge = some k ∧
      Cartridge.ofImage k.rom = .ok fresh ∧
      ∀ os', Operation.answers os' (Operation.run os (powerOn host)).reset =
        Operation.answers os'
          ((powerOn host).insert { fresh with ram := k.ram, banks := k.banks }) := by
  intro host os
  have hsome : (Operation.run os (powerOn host)).cartridge.isSome = true := by decide +kernel
  obtain ⟨k, hk⟩ := Option.isSome_iff_exists.1 hsome
  have hos : ∀ k, .insert k ∈ os → k.Genuine := by simp [os]
  obtain ⟨fresh, himage, hrun, -⟩ := reset_is_restart host host hos hk
  exact ⟨k, fresh, hk, himage, fun os' => (hrun os').2⟩

/-- Writes do not change the image, and neither does a reset. -/
theorem rom_reset_of_writes (ws : List (UInt16 × UInt8)) (c : Console) :
    (Operation.run (ws.map fun w => .write w.1 w.2) c).reset.cartridge.map (·.rom) =
      c.cartridge.map (·.rom) := by
  induction ws generalizing c with
  | nil => rfl
  | cons w ws ih =>
    refine (ih _).trans ?_
    show (c.machine.bus.write w.1 w.2).cartridge.map (·.rom) = _
    rw [Bus.write_cartridge, Option.map_map]
    exact congrArg (Option.map · c.cartridge)
      (funext fun k => (k.write_sameBoard w.1 w.2).rom_eq)

/-- The other bank is still there after the reset, and the program of the first one is not: the byte
that tells the kind of cartridge cannot be read, and the first instruction is another one. -/
theorem other_bank_after_reset :
    let host := Host.ofVolume .empty
    let os := [.insertImage largeImage, .write 0x4000 1, .write 0x6000 1]
    let c := (Operation.run os (powerOn host)).reset
    let new := Operation.run [.insertImage largeImage] (powerOn host)
    c.cartridge.map (·.rom) = new.cartridge.map (·.rom) ∧
      c.cartridge.map (·.ram) = new.cartridge.map (·.ram) ∧
      c.machine.bus.read 0x0147 = 0xFF ∧ new.machine.bus.read 0x0147 = 1 ∧
      c.step.1.machine.cpu.registers.pc = 0x0038 ∧
      new.step.1.machine.cpu.registers.pc = 0x0101 := by
  intro host os c new
  have hrom : c.cartridge.map (·.rom) = new.cartridge.map (·.rom) :=
    rom_reset_of_writes [(0x4000, 1), (0x6000, 1)] new
  refine ⟨hrom, ?_⟩
  decide +kernel

end Console

end DotMatrix
