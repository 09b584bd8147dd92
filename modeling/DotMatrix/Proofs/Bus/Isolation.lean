import DotMatrix.Proofs.Bus.History
import DotMatrix.Proofs.Cartridge.Banks
import Mathlib.Data.Set.Insert

/-!
# What a write can change

Most writes change the byte that they are made to and no other. The exceptions are the switches of
the cartridge, which show other parts of its memories in the windows, the work RAM, which is seen
twice, and a few registers that act on their neighbours.

* `Bus.effects`: the table of all this, by addresses;
* `Location.Affects`: the same by what the addresses lead to, one case for each way in which a write
  can reach a byte;
* `Bus.affects_of_readAt_ne`: there is no other way;
* `Bus.write_isolated`: a write changes only the bytes that the table gives, and memory keeps what is
  written to it.
-/

namespace DotMatrix

/-! ### The table -/

/-- The addresses from the first to the last. -/
def span (first last : Nat) : Set UInt16 := {x | first ≤ x.toNat ∧ x.toNat ≤ last}

theorem mem_span {first last : Nat} {x : UInt16} :
    x ∈ span first last ↔ first ≤ x.toNat ∧ x.toNat ≤ last := Iff.rfl

instance (first last : Nat) (x : UInt16) : Decidable (x ∈ span first last) :=
  inferInstanceAs (Decidable (first ≤ x.toNat ∧ x.toNat ≤ last))

namespace Bus

/-- The addresses where a write does nothing: those that lead nowhere, and the register of the
current line. -/
def unwritable : List (Nat × Nat) :=
  [(0xFEA0, 0xFEFF), (0xFF03, 0xFF03), (0xFF08, 0xFF0E), (0xFF10, 0xFF3F), (0xFF44, 0xFF44),
    (0xFF4C, 0xFF7F)]

/-- The addresses whose bytes a write at `a` can change. -/
def effects (a : UInt16) : Set UInt16 :=
  if a ∈ span 0x0000 0x1FFF then span 0xA000 0xBFFF
  else if a ∈ span 0x2000 0x3FFF then span 0x4000 0x7FFF
  else if a ∈ span 0x4000 0x5FFF then span 0x0000 0x7FFF ∪ span 0xA000 0xBFFF
  else if a ∈ span 0x6000 0x7FFF then span 0x0000 0x3FFF ∪ span 0xA000 0xBFFF
  else if a ∈ span 0xC000 0xFDFF then
    {x | x ∈ span 0xC000 0xFDFF ∧ x.toNat % 0x2000 = a.toNat % 0x2000}
  else if ∃ s ∈ unwritable, a ∈ span s.1 s.2 then ∅
  else if a = 0xFF02 then {0xFF01, 0xFF02, 0xFF0F}
  else if a = 0xFF06 then {0xFF05, 0xFF06}
  else if a = 0xFF40 then {0xFF40, 0xFF41, 0xFF44}
  else if a = 0xFF45 then {0xFF41, 0xFF45}
  else if a = 0xFF46 then {0xFF46} ∪ span 0xFE00 0xFE9F
  else {a}

/-- Does memory answer at `a`, so that what is written there can be read back? Object memory does
while no transfer keeps it busy. -/
def Remembers (b : Bus) (a : UInt16) : Prop :=
  a ∈ span 0x8000 0x9FFF ∨ a ∈ span 0xC000 0xFDFF ∨
    (a ∈ span 0xFE00 0xFE9F ∧ b.transfer.isActive = false) ∨ a ∈ span 0xFF80 0xFFFF

end Bus

/-! ### The ways in which a write reaches a byte -/

/-- The registers that a write to a register can change. -/
def DeviceRegister.reach : DeviceRegister → List DeviceRegister
  | .serial .control => [.serial .control, .serial .data, .interruptFlags]
  | .timer .modulo => [.timer .modulo, .timer .counter]
  | .video .control => [.video .control, .video .status, .video .line]
  | .video .lineCompare => [.video .lineCompare, .video .status]
  | .video .line => []
  | r => [r]

/-- Is the location a cell of a memory, or the register of enabled interrupts? -/
def Location.IsCell : Location → Prop
  | .videoRam _ | .cartridgeRam _ | .workRam _ | .objects _ | .highRam _ | .interruptEnable => True
  | .rom _ | .nothing | .device _ | .unused => False

/-- A write at the first location can change the byte at the second. -/
inductive Location.Affects : Location → Location → Prop
  | cell {l : Location} : l.IsCell → Affects l l
  | device {r r' : DeviceRegister} : r' ∈ r.reach → Affects (.device r) (.device r')
  /-- While a transfer is under way, object memory cannot be seen. -/
  | transfer {k : Fin 160} : Affects (.device (.video .transfer)) (.objects k)
  | romBank {i j : Fin 0x8000} :
      (i.val < 0x4000 → 0x2000 ≤ i.val ∧ 0x4000 ≤ j.val) → (0x6000 ≤ i.val → j.val < 0x4000) →
        Affects (.rom i) (.rom j)
  | ramBank {i : Fin 0x8000} {k : Fin 0x2000} :
      i.val < 0x2000 ∨ 0x4000 ≤ i.val → Affects (.rom i) (.cartridgeRam k)

/-! ### Cartridges -/

namespace Cartridge

variable {c d : Cartridge} {i j : Fin 0x8000} {k : Fin 0x2000} {v : UInt8}

theorem Banks.write_ramEnabled (b : Banks) (w : Wiring) (h : 0x2000 ≤ i.val) :
    (b.write w i v).ramEnabled = b.ramEnabled := by
  unfold Banks.write
  split
  · omega
  all_goals rfl

theorem Banks.write_shared (b : Banks) (w : Wiring) (h : i.val < 0x4000 ∨ 0x6000 ≤ i.val) :
    (b.write w i v).shared = b.shared := by
  unfold Banks.write
  split
  case h_3 => omega
  all_goals rfl

theorem Banks.write_sharedEverywhere (b : Banks) (w : Wiring) (h : i.val < 0x6000) :
    (b.write w i v).sharedEverywhere = b.sharedEverywhere := by
  have hi : i.val / 0x2000 = 0 ∨ i.val / 0x2000 = 1 ∨ i.val / 0x2000 = 2 := by omega
  obtain hi | hi | hi := hi <;> simp only [Banks.write, hi]

/-- A ROM window shows what its bank says. -/
theorem readRom_congr (hrom : d.rom = c.rom) (hmapper : d.mapper = c.mapper)
    (hlow : j.val < 0x4000 → d.lowBank = c.lowBank)
    (hhigh : 0x4000 ≤ j.val → d.highBank = c.highBank) : d.readRom j = c.readRom j := by
  have hbyte (n : Nat) : d.romByte n = c.romByte n := by
    unfold romByte
    simp only [hrom]
  unfold readRom
  rw [hmapper]
  split
  · exact hbyte _
  · by_cases hj : j.val < romBankSize
    · rw [if_pos hj, if_pos hj, hlow hj, hbyte]
    · rw [if_neg hj, if_neg hj, hhigh (Nat.le_of_not_lt hj), hbyte]

/-- The RAM window shows the cell that its bank says, while it is switched on. -/
theorem readRam_eq (c : Cartridge) (k : Fin 0x2000) :
    c.readRam k = if c.ramVisible then c.ram.data[c.ramIndex k]?.getD 0xFF else 0xFF := by
  unfold readRam
  split
  · split
    · rename_i h
      rw [Array.getElem?_eq_getElem h]
      rfl
    · rename_i h
      rw [Array.getElem?_eq_none (Nat.le_of_not_lt h)]
      rfl
  · rfl

theorem readRam_congr (hram : d.ram = c.ram) (hvisible : d.ramVisible = c.ramVisible)
    (hindex : d.ramIndex k = c.ramIndex k) : d.readRam k = c.readRam k := by
  rw [readRam_eq, readRam_eq, hram, hvisible, hindex]

/-- The first switch does not reach the ROM windows, the second only the upper one, and the fourth
only the lower one. -/
theorem readRom_writeRom (hlow : j.val < 0x4000 → i.val < 0x4000)
    (hhigh : 0x4000 ≤ j.val → i.val < 0x2000 ∨ 0x6000 ≤ i.val) :
    (c.writeRom i v).readRom j = c.readRom j := by
  unfold writeRom
  split
  · rfl
  refine readRom_congr rfl rfl (fun hj => ?_) fun hj => ?_
  · have hi := hlow hj
    simp only [lowBank, upperBank, Banks.write_shared _ _ (.inl hi),
      Banks.write_sharedEverywhere _ _ (Nat.lt_trans hi (by decide))]
  · have hi := hhigh hj
    have hshared : i.val < 0x4000 ∨ 0x6000 ≤ i.val := hi.imp_left fun h => by omega
    simp only [highBank, upperBank, Banks.write_shared _ _ hshared, Banks.write_lower,
      if_neg (show ¬i.val / 0x2000 = 1 by omega)]

/-- The second switch does not reach the RAM window. -/
theorem readRam_writeRom (h : 0x2000 ≤ i.val) (h' : i.val < 0x4000) :
    (c.writeRom i v).readRam k = c.readRam k := by
  unfold writeRom
  split
  · rfl
  · refine readRam_congr rfl ?_ ?_
    · simp only [ramVisible, Banks.write_ramEnabled _ _ h]
    · simp only [ramIndex, Banks.write_shared _ _ (.inl h'),
        Banks.write_sharedEverywhere _ _ (Nat.lt_trans h' (by decide))]

theorem readRom_writeRam : (c.writeRam k v).readRom j = c.readRom j := by
  unfold writeRam
  split
  · dsimp only
    split <;> rfl
  · rfl

/-- Different places in the RAM window lead to different cells. -/
theorem readRam_writeRam {l : Fin 0x2000} (h : l ≠ k) :
    (c.writeRam k v).readRam l = c.readRam l := by
  have hindex : c.ramIndex k ≠ c.ramIndex l := by
    have hne : l.val ≠ k.val := fun he => h (Fin.ext he)
    unfold ramIndex
    split <;> omega
  unfold writeRam
  split
  · rename_i hvisible
    dsimp only
    split
    · rename_i hk
      have hsize : (c.ram.set (c.ramIndex k) v hk).isEmpty = c.ram.isEmpty := by
        rw [ByteArray.isEmpty, size_set, ByteArray.isEmpty]
      rw [readRam_eq, readRam_eq]
      simp only [ramVisible, hsize]
      rw [ByteArray.data_set]
      congr 2
      exact Array.getElem?_set_ne hk hindex
    · rfl
  · rfl

end Cartridge

/-! ### Devices -/

theorem Serial.read_write {r r' : Serial.Register} (s : Serial) (v : UInt8)
    (h : .serial r' ∉ (DeviceRegister.serial r).reach) : (s.write r v).read r' = s.read r' := by
  cases r <;> cases r' <;> first | rfl | exact absurd (by decide) h

theorem Timer.read_write {r r' : Timer.Register} (t : Timer) (v : UInt8)
    (h : .timer r' ∉ (DeviceRegister.timer r).reach) : (t.write r v).read r' = t.read r' := by
  cases r with
  | divider | modulo => cases r' <;> first | rfl | exact absurd (by decide) h
  | counter | control =>
    unfold Timer.write
    dsimp only
    split <;> cases r' <;> first | rfl | exact absurd (by decide) h

theorem Video.read_writeControl {r : Video.Register} (d : Video) (v : UInt8)
    (h : .video r ∉ (DeviceRegister.video .control).reach) :
    (d.writeControl v).read r = d.read r := by
  unfold writeControl
  dsimp only
  split
  · cases r <;> first | rfl | exact absurd (by decide) h
  split <;> cases r <;> first | rfl | exact absurd (by decide) h

theorem Video.read_write {r r' : Video.Register} (d : Video) (v : UInt8)
    (h : .video r' ∉ (DeviceRegister.video r).reach) : (d.write r v).read r' = d.read r' := by
  cases r with
  | control => exact d.read_writeControl v h
  | _ => cases r' <;> first | rfl | exact absurd (by decide) h

theorem Video.write_memories (d : Video) (r : Video.Register) (v : UInt8) :
    (d.write r v).ram = d.ram ∧ (d.write r v).objects = d.objects := by
  cases r with
  | control =>
    show (d.writeControl v).ram = d.ram ∧ (d.writeControl v).objects = d.objects
    unfold writeControl
    dsimp only
    split
    · exact ⟨rfl, rfl⟩
    split <;> exact ⟨rfl, rfl⟩
  | _ => exact ⟨rfl, rfl⟩

theorem Interrupts.requestIf_enable (i : Interrupts) (on : Bool) (source : Interrupt) :
    (i.requestIf on source).enable = i.enable := by
  unfold requestIf
  split <;> rfl

namespace Bus

variable {b : Bus} {v : UInt8}

theorem readDevice_writeDevice {r r' : DeviceRegister} (h : r' ∉ r.reach) :
    (b.writeDevice r v).readDevice r' = b.readDevice r' := by
  cases r with
  | joypad =>
    cases r' with
    | joypad => exact absurd (by decide) h
    | _ => rfl
  | serial r =>
    cases r' with
    | serial r' => exact b.serial.read_write v h
    | interruptFlags =>
      cases r with
      | data => rfl
      | control => exact absurd (by decide) h
    | _ => rfl
  | timer r =>
    cases r' with
    | timer r' => exact b.timer.read_write v h
    | _ => rfl
  | interruptFlags =>
    cases r' with
    | interruptFlags => exact absurd (by decide) h
    | _ => rfl
  | video r =>
    cases r' with
    | video r' => exact b.video.read_write v h
    | _ => rfl

/-- Of the video registers only that of transfers shows in memory. -/
theorem readAt_writeDevice {r : DeviceRegister} {l : Location} (h : ¬(Location.device r).Affects l) :
    (b.writeDevice r v).readAt l = b.readAt l := by
  cases l with
  | device r' => exact readDevice_writeDevice fun hr => h (.device hr)
  | interruptEnable =>
    cases r with
    | serial r => exact b.interrupts.requestIf_enable _ _
    | _ => rfl
  | videoRam k =>
    cases r with
    | video r => exact congrArg (·.get k) (b.video.write_memories r v).1
    | _ => rfl
  | objects k =>
    cases r with
    | video r =>
      have hr : r ≠ .transfer := fun hr => h (hr ▸ .transfer)
      simp only [readAt, writeDevice, writeVideo, (b.video.write_memories r v).2, if_neg hr]
    | _ => rfl
  | _ => cases r <;> rfl

/-- A write in the ROM windows. -/
theorem readAt_writeRom {i : Fin 0x8000} {l : Location} (h : ¬(Location.rom i).Affects l) :
    (b.mapCartridge (·.writeRom i v)).readAt l = b.readAt l := by
  cases l with
  | rom j =>
    have hlow : j.val < 0x4000 → i.val < 0x4000 := fun hj =>
      Nat.lt_of_not_le fun hi => h (.romBank (fun hi' => by omega) fun _ => hj)
    have hhigh : 0x4000 ≤ j.val → i.val < 0x2000 ∨ 0x6000 ≤ i.val := fun hj => by
      by_contra hi
      exact h (.romBank (fun _ => ⟨by omega, hj⟩) fun hi' => by omega)
    unfold readAt mapCartridge
    cases b.cartridge with
    | none => rfl
    | some c => exact Cartridge.readRom_writeRom hlow hhigh
  | cartridgeRam k =>
    have hi : ¬(i.val < 0x2000 ∨ 0x4000 ≤ i.val) := fun hi => h (.ramBank hi)
    unfold readAt mapCartridge
    cases b.cartridge with
    | none => rfl
    | some c => exact Cartridge.readRam_writeRom (by omega) (by omega)
  | _ => rfl

/-- A write in the RAM window. -/
theorem readAt_writeCartridgeRam {k : Fin 0x2000} {l : Location} (h : l ≠ .cartridgeRam k) :
    (b.mapCartridge (·.writeRam k v)).readAt l = b.readAt l := by
  cases l with
  | rom j =>
    unfold readAt mapCartridge
    cases b.cartridge with
    | none => rfl
    | some c => exact Cartridge.readRom_writeRam
  | cartridgeRam k' =>
    unfold readAt mapCartridge
    cases b.cartridge with
    | none => rfl
    | some c => exact Cartridge.readRam_writeRam fun hk => h (hk ▸ rfl)
  | _ => rfl

/-- **The ways in which a write reaches a byte.** There are no others. -/
theorem affects_of_readAt_ne {a : UInt16} {l l' : Location}
    (h : (b.writeAt a l v).readAt l' ≠ b.readAt l') : l.Affects l' := by
  by_contra hapart
  have hcell (hl : l.IsCell) : l' ≠ l := by
    rintro rfl
    exact hapart (.cell hl)
  refine h ?_
  cases l with
  | rom i => exact readAt_writeRom hapart
  | device r => exact readAt_writeDevice hapart
  | cartridgeRam k => exact readAt_writeCartridgeRam (hcell trivial)
  | nothing | unused => cases l' <;> rfl
  | videoRam k =>
    cases l' with
    | videoRam k' => exact b.video.ram.get_set_of_ne v fun hk => hcell trivial (hk ▸ rfl)
    | _ => rfl
  | workRam k =>
    cases l' with
    | workRam k' => exact b.workRam.get_set_of_ne v fun hk => hcell trivial (hk ▸ rfl)
    | _ => rfl
  | objects k =>
    cases l' with
    | objects k' =>
      have hk : k' ≠ k := fun hk => hcell trivial (hk ▸ rfl)
      simp only [writeAt, readAt, writeObject, Memory.get_set_of_ne _ v hk]
    | _ => rfl
  | highRam k =>
    cases l' with
    | highRam k' => exact b.highRam.get_set_of_ne v fun hk => hcell trivial (hk ▸ rfl)
    | _ => rfl
  | interruptEnable =>
    cases l' with
    | interruptEnable => exact absurd rfl (hcell trivial)
    | _ => rfl

end Bus

/-! ### From locations to addresses -/

/-- Can the address `n` lead to the location? Of a register this gives only the page. -/
def Location.Covers : Location → Nat → Prop
  | .rom i, n => n = i.val
  | .videoRam k, n => n = 0x8000 + k.val
  | .cartridgeRam k, n => n = 0xA000 + k.val
  | .workRam k, n => n = 0xC000 + k.val ∨ (n = 0xE000 + k.val ∧ n < 0xFE00)
  | .objects k, n => n = 0xFE00 + k.val
  | .highRam k, n => n = 0xFF80 + k.val
  | .interruptEnable, n => n = 0xFFFF
  | .nothing, n => 0xFEA0 ≤ n ∧ n < 0xFF00
  | .device _, n | .unused, n => 0xFF00 ≤ n ∧ n < 0xFF80

theorem Location.covers_of_ofAddress {a : UInt16} {l : Location} (h : ofAddress a = l) :
    l.Covers a.toNat := by
  have hlt := a.toNat_lt
  unfold ofAddress at h
  dsimp only at h
  split at h
  · subst h
    rfl
  iterate 6
    split at h
    · subst h
      simp only [Covers]
      omega
  split at h
  · rw [ofOffset] at h
    split at h <;>
      · subst h
        simp only [Covers]
        omega
  split at h <;>
    · subst h
      simp only [Covers]
      omega

namespace Bus

variable {a x : UInt16}

/-- Outside the ROM and the places that cannot be written, a write changes its own byte. -/
theorem self_mem_effects (h : 0x8000 ≤ a.toNat) (h' : ¬∃ s ∈ unwritable, a ∈ span s.1 s.2) :
    a ∈ effects a := by
  unfold effects
  iterate 4 rw [if_neg (fun hs => absurd hs.2 (by omega))]
  rw [if_neg h']
  split
  · exact ⟨‹_›, rfl⟩
  split_ifs <;> simp [*]

theorem mem_effects_of_device {r r' : DeviceRegister} (h : r' ∈ r.reach) :
    r'.address ∈ effects r.address := by
  have hself (r : DeviceRegister) (hr : r ≠ .video .line) : r.address ∈ effects r.address := by
    rcases r with _ | r | r | _ | r
    case serial | timer | video =>
      cases r <;> first | exact self_mem_effects (by decide) (by decide) | contradiction
    all_goals exact self_mem_effects (by decide) (by decide)
  unfold DeviceRegister.reach at h
  split at h
  case h_5 => cases h
  case h_6 hline =>
    obtain rfl := List.mem_singleton.1 h
    exact hself r' hline
  all_goals
    simp only [List.mem_cons, List.not_mem_nil, or_false] at h
    rcases h with rfl | rfl | rfl <;>
      simp [effects, mem_span, unwritable, DeviceRegister.address]

/-- Two addresses of one cell. -/
theorem mem_effects_of_cell {l : Location} (hl : l.IsCell) (ha : l.Covers a.toNat)
    (hx : l.Covers x.toNat) : x ∈ effects a := by
  cases l with
  | rom | nothing | device | unused => cases hl
  | workRam k =>
    simp only [Location.Covers] at ha hx
    unfold effects
    iterate 4 rw [if_neg (fun hs => absurd hs.2 (by omega))]
    rw [if_pos ⟨by omega, by omega⟩]
    exact ⟨⟨by omega, by omega⟩, by omega⟩
  | _ =>
    simp only [Location.Covers] at ha hx
    obtain rfl := UInt16.toNat.inj (hx.trans ha.symm)
    refine self_mem_effects (by omega) ?_
    simp only [unwritable, mem_span, List.mem_cons, List.not_mem_nil, or_false,
      exists_eq_or_imp, exists_eq_left]
    omega

/-- The four rows of the table for the switches of a cartridge. -/
theorem effects_of_rom (h : a.toNat < 0x8000) :
    effects a =
      if a.toNat < 0x2000 then span 0xA000 0xBFFF
      else if a.toNat < 0x4000 then span 0x4000 0x7FFF
      else if a.toNat < 0x6000 then span 0x0000 0x7FFF ∪ span 0xA000 0xBFFF
      else span 0x0000 0x3FFF ∪ span 0xA000 0xBFFF := by
  unfold effects
  by_cases h0 : a.toNat < 0x2000
  · rw [if_pos h0, if_pos ⟨by omega, by omega⟩]
  rw [if_neg h0, if_neg fun hs => absurd hs.2 (by omega)]
  by_cases h1 : a.toNat < 0x4000
  · rw [if_pos h1, if_pos ⟨by omega, by omega⟩]
  rw [if_neg h1, if_neg fun hs => absurd hs.2 (by omega)]
  by_cases h2 : a.toNat < 0x6000
  · rw [if_pos h2, if_pos ⟨by omega, by omega⟩]
  rw [if_neg h2, if_neg fun hs => absurd hs.2 (by omega), if_pos ⟨by omega, by omega⟩]

theorem mem_effects_of_affects (h : (Location.ofAddress a).Affects (.ofAddress x)) :
    x ∈ effects a := by
  generalize hl : Location.ofAddress a = l at h
  generalize hl' : Location.ofAddress x = l' at h
  have ha := Location.covers_of_ofAddress hl
  have hx := Location.covers_of_ofAddress hl'
  cases h with
  | cell hcell => exact mem_effects_of_cell hcell ha hx
  | device hr =>
    rw [Location.ofAddress_eq_device_iff.1 hl, Location.ofAddress_eq_device_iff.1 hl']
    exact mem_effects_of_device hr
  | transfer =>
    rw [Location.ofAddress_eq_device_iff.1 hl]
    simp only [Location.Covers] at hx
    simp [effects, unwritable, DeviceRegister.address, mem_span]
    omega
  | romBank hlow hhigh =>
    simp only [Location.Covers] at ha hx
    rw [effects_of_rom (by omega)]
    split_ifs <;> simp only [Set.mem_union, mem_span] <;> omega
  | ramBank hi =>
    simp only [Location.Covers] at ha hx
    rw [effects_of_rom (by omega)]
    split_ifs <;> simp only [Set.mem_union, mem_span] <;> omega

/-- Memory keeps what is written to it. -/
theorem read_write_self {b : Bus} (v : UInt8) (h : b.Remembers a) : (b.write a v).read a = v := by
  unfold Remembers at h
  simp only [mem_span] at h
  unfold write read
  generalize hl : Location.ofAddress a = l
  have ha := Location.covers_of_ofAddress hl
  cases l with
  | videoRam k => exact b.video.ram.get_set_self k v
  | workRam k => exact b.workRam.get_set_self k v
  | highRam k => exact b.highRam.get_set_self k v
  | interruptEnable => rfl
  | objects k =>
    simp only [Location.Covers] at ha
    have hidle : b.transfer.isActive = false := by
      obtain h | h | h | h := h
      case inr.inr.inl => exact h.2
      all_goals omega
    simp only [writeAt, readAt, writeObject, hidle, Memory.get_set_self]
    rfl
  | _ =>
    simp only [Location.Covers] at ha
    omega

/-- **Isolation.** A write changes only the bytes that the table gives for its address, and memory
keeps what is written to it. -/
theorem write_isolated (b : Bus) (a x : UInt16) (v : UInt8) :
    ((b.write a v).read x ≠ b.read x → x ∈ effects a) ∧
      (b.Remembers a → (b.write a v).read a = v) :=
  ⟨fun h => mem_effects_of_affects (affects_of_readAt_ne h), read_write_self v⟩

/-- Switching the display off changes the current line; the register of enabled interrupts keeps what
is written to it. -/
theorem write_isolated_switchOff :
    ((powerOn (.ofVolume .empty)).write 0xFF40 0).read 0xFF44 ≠
        (powerOn (.ofVolume .empty)).read 0xFF44 ∧
      0xFF44 ∈ effects 0xFF40 ∧ (powerOn (.ofVolume .empty)).Remembers 0xFFFF ∧
      ((powerOn (.ofVolume .empty)).write 0xFFFF 0x1F).read 0xFFFF = 0x1F := by
  have hline : ((powerOn (.ofVolume .empty)).write 0xFF40 0).read 0xFF44 ≠
      (powerOn (.ofVolume .empty)).read 0xFF44 := by decide
  have henable : (powerOn (.ofVolume .empty)).Remembers 0xFFFF :=
    .inr (.inr (.inr (by decide)))
  exact ⟨hline, (write_isolated _ 0xFF40 0xFF44 0).1 hline, henable,
    (write_isolated _ 0xFFFF 0xFFFF 0x1F).2 henable⟩

end Bus

end DotMatrix
