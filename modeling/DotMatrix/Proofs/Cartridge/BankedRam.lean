import DotMatrix.Proofs.Bus.Isolation
import DotMatrix.Proofs.Cartridge.Backup

/-!
# Banked RAM

A program sees the RAM of a cartridge through a window of one bank. Which bank that is, and whether
there is any, is up to the switches, and these may be moved between a write and the read that is to
find it again. This file says what the RAM is without speaking of switches or places: a memory of
cells, each with a page and an offset, that remembers what was last stored in each.

* `Use`, `after`: writes and attempts to save, and the cartridge after them;
* `enabled`, `page`: what the writes to the switches come to;
* `Event`, `events`: what was stored in which cell, and what was saved;
* `Tells`: the switches, the RAM and the mark tell the history, as `Tells.after` shows of any uses;
* `ram_is_banked`: every read finds what was last stored in its cell, and the RAM is marked exactly if
  something was stored that is not saved.

Uses and events are listed from the last to the first.
-/

namespace DotMatrix

/-- The RAM window, by addresses. -/
theorem Location.ofAddress_eq_cartridgeRam_iff {a : UInt16} {i : Fin 0x2000} :
    ofAddress a = .cartridgeRam i ↔ a.toNat = 0xA000 + i.val := by
  refine ⟨covers_of_ofAddress, fun h => ?_⟩
  have hlow : ¬a.toNat < 0x8000 := by omega
  have hvideo : ¬a.toNat < 0xA000 := by omega
  have hram : a.toNat < 0xC000 := by omega
  have hoffset : a.toNat - 0xA000 = i.val := by omega
  unfold ofAddress
  dsimp only
  rw [dif_neg hlow, dif_neg hvideo, dif_pos hram]
  simp only [hoffset]

namespace Cartridge

/-! ### Uses -/

/-- What is done to a cartridge: a write at an address, or an attempt to save it on a host. -/
inductive Use
  | write (a : UInt16) (v : UInt8)
  | save (host : Host)

/-- The cartridge after a use. An attempt that fails leaves it as it is. -/
def use (c : Cartridge) : Use → Cartridge
  | .write a v => c.write a v
  | .save host =>
    match (host.save c).2 with
    | .ok d => d
    | .error _ => c

/-- The cartridge after uses. -/
def after (c : Cartridge) : List Use → Cartridge
  | [] => c
  | u :: earlier => (c.after earlier).use u

/-! ### Switches -/

/-- The value last written to one of the four switches. Each has an eighth of the addresses. -/
def lastWritten? (switch : Nat) : List Use → Option UInt8
  | [] => none
  | .write a v :: earlier =>
    if a.toNat / 0x2000 = switch then some v else lastWritten? switch earlier
  | .save _ :: earlier => lastWritten? switch earlier

/-- Is RAM enabled? The first switch was last written with a value that ends in `A`. -/
def enabled (us : List Use) : Bool := (lastWritten? 0 us).any (·.toNat % 16 == 0x0A)

/-- Is the mode one? It is the last bit of what was last written to the fourth switch. -/
def modeOne (us : List Use) : Bool := (lastWritten? 3 us).any (·.toNat % 2 == 1)

/-- The last two bits of a byte. -/
def twoBits (v : UInt8) : Fin 4 := ⟨v.toNat % 4, Nat.mod_lt _ (by decide)⟩

/-- The two bits last written to the third switch. -/
def sharedBits (us : List Use) : Fin 4 := twoBits ((lastWritten? 2 us).getD 0)

/-- The page that the window shows. Only RAM of 32 KiB has others than the first. -/
def page (h : Header) (us : List Use) : Fin 4 :=
  if h.ramKib = 32 ∧ modeOne us = true then sharedBits us else twoBits 0

theorem page_cases (h : Header) (us : List Use) : (page h us).val = 0 ∨ h.ramKib = 32 := by
  unfold page
  split
  · rename_i hp
    exact .inr hp.1
  · exact .inl rfl

/-! ### Cells -/

/-- A cell of the RAM. -/
structure Cell where
  page : Fin 4
  offset : Fin 0x2000
  deriving DecidableEq, Repr

/-- Where a cell is stored. -/
def Cell.index (x : Cell) : Nat := ramBankSize * x.page.val + x.offset.val

/-- Different cells are stored in different places. -/
theorem Cell.index_injective : Function.Injective Cell.index := by
  rintro ⟨p, i⟩ ⟨q, j⟩ h
  unfold index ramBankSize at h
  dsimp only at h
  have hp : p = q := by omega
  have hi : i = j := by omega
  rw [hp, hi]

/-- The cell that the window shows at an offset. -/
def cellAt (h : Header) (us : List Use) (i : Fin 0x2000) : Cell := ⟨page h us, i⟩

/-- The offset of an address in the RAM window. -/
def ramOffset? (a : UInt16) : Option (Fin 0x2000) :=
  if h : 0xA000 ≤ a.toNat ∧ a.toNat < 0xC000 then some ⟨a.toNat - 0xA000, by omega⟩ else none

theorem ramOffset?_eq_some {a : UInt16} {i : Fin 0x2000} :
    ramOffset? a = some i ↔ a.toNat = 0xA000 + i.val := by
  unfold ramOffset?
  split
  · rw [Option.some.injEq, Fin.ext_iff]
    dsimp only
    omega
  · have hi := i.isLt
    simp only [reduceCtorEq, false_iff]
    omega

/-! ### Events -/

/-- What comes of a use, if anything does. -/
inductive Event
  | stored (x : Cell) (v : UInt8)
  | saved
  deriving DecidableEq, Repr

/-- What comes of a use after earlier ones: a write in the window stores if RAM is enabled, and an
attempt to save may succeed. -/
def event? (c : Cartridge) (earlier : List Use) : Use → Option Event
  | .write a v =>
    if enabled earlier then (ramOffset? a).map fun i => .stored (cellAt c.header earlier i) v
    else none
  | .save host => if (host.save (c.after earlier)).2.isOk then some .saved else none

/-- What has come of uses. -/
def events (c : Cartridge) : List Use → List Event
  | [] => []
  | u :: earlier => (c.event? earlier u).toList ++ c.events earlier

/-- The value that an event stores in a cell. -/
def Event.storedIn? (x : Cell) : Event → Option UInt8
  | stored y v => if y = x then some v else none
  | saved => none

/-- The value last stored in a cell. -/
def lastStored? (x : Cell) (es : List Event) : Option UInt8 := es.findSome? (Event.storedIn? x)

/-- The events since the RAM was last saved. -/
def sinceSaved (es : List Event) : List Event := es.takeWhile (· != .saved)

/-! ### One write -/

variable {c d : Cartridge} {us : List Use}

theorem ramOffset?_of_lt {a : UInt16} (h : a.toNat < 0x8000) : ramOffset? a = none :=
  dif_neg (by omega)

/-- A write to a switch moves it and does nothing else. -/
theorem write_of_switch (hm : c.mapper ≠ .direct) {a : UInt16} (h : a.toNat < 0x8000) (v : UInt8) :
    c.write a v = { c with banks := c.banks.write c.wiring ⟨a.toNat, h⟩ v } := by
  obtain ⟨i, hi, hv⟩ := ofAddress_of_lt h
  obtain rfl : i = ⟨a.toNat, h⟩ := Fin.ext hv
  rw [write, hi]
  dsimp only
  unfold writeRom
  split
  · contradiction
  · rfl

theorem write_of_offset {a : UInt16} {i : Fin 0x2000} (h : ramOffset? a = some i) (v : UInt8) :
    c.write a v = c.writeRam i v := by
  rw [write, Location.ofAddress_eq_cartridgeRam_iff.2 (ramOffset?_eq_some.1 h)]

/-- Elsewhere a write does nothing. -/
theorem write_of_elsewhere {a : UInt16} (h : ¬a.toNat < 0x8000) (ho : ramOffset? a = none)
    (v : UInt8) : c.write a v = c := by
  unfold write
  split
  · rename_i i hi
    exact absurd hi (ofAddress_ne_rom h i)
  · rename_i i hi
    have hi := ramOffset?_eq_some.2 (Location.ofAddress_eq_cartridgeRam_iff.1 hi)
    rw [ho] at hi
    cases hi
  · rfl

/-! ### The switches in use -/

/-- The switches stand as the writes to them say. -/
structure Banks.Told (b : Banks) (us : List Use) : Prop where
  ramEnabled_eq : b.ramEnabled = enabled us
  shared_eq : b.shared.toNat = (sharedBits us).val
  sharedEverywhere_eq : b.sharedEverywhere = modeOne us

theorem Banks.powerOn_told : Banks.powerOn.Told [] := ⟨rfl, rfl, rfl⟩

/-- Only a write to a switch says something of the switches. -/
theorem Banks.Told.congr {b : Banks} {us' : List Use} (h : b.Told us)
    (hl : ∀ switch < 4, lastWritten? switch us' = lastWritten? switch us) : b.Told us' := by
  refine ⟨h.ramEnabled_eq.trans ?_, h.shared_eq.trans ?_, h.sharedEverywhere_eq.trans ?_⟩
  · rw [enabled, enabled, hl 0 (by omega)]
  · rw [sharedBits, sharedBits, hl 2 (by omega)]
  · rw [modeOne, modeOne, hl 3 (by omega)]

theorem lastWritten?_write_of_not_lt {a : UInt16} (h : ¬a.toNat < 0x8000) (v : UInt8)
    {switch : Nat} (hs : switch < 4) :
    lastWritten? switch (.write a v :: us) = lastWritten? switch us := by
  rw [lastWritten?, if_neg (by omega)]

theorem Banks.Told.write {b : Banks} (h : b.Told us) (w : Wiring) {a : UInt16}
    (ha : a.toNat < 0x8000) (v : UInt8) :
    (b.write w ⟨a.toNat, ha⟩ v).Told (.write a v :: us) := by
  have hnibble : (v &&& 0x0F == 0x0A) = (v.toNat % 16 == 0x0A) := by
    rw [Bool.eq_iff_iff, beq_iff_eq, beq_iff_eq, ← UInt8.toNat_inj, UInt8.toNat_and]
    show v.toNat &&& (2 ^ 4 - 1) = 10 ↔ v.toNat % 2 ^ 4 = 10
    rw [Nat.and_two_pow_sub_one_eq_mod]
  have hbits : (v &&& 0x03).toNat = v.toNat % 4 := by
    rw [UInt8.toNat_and]
    exact Nat.and_two_pow_sub_one_eq_mod v.toNat 2
  have hbit : Byte.bit v 0 = (v.toNat % 2 == 1) := by
    rw [Byte.bit, Nat.testBit_zero]
    rfl
  obtain ⟨he, hs, hm⟩ := h
  -- The write moves one switch, and is the last one to it.
  have hwritten {switch : Nat} (hi : a.toNat / 0x2000 = switch) :
      lastWritten? switch (.write a v :: us) = some v := if_pos hi
  have hother {switch : Nat} (hi : a.toNat / 0x2000 ≠ switch) :
      lastWritten? switch (.write a v :: us) = lastWritten? switch us := if_neg hi
  refine ⟨?_, ?_, ?_⟩
  · by_cases hi : a.toNat / 0x2000 = 0
    · rw [enabled, hwritten hi]
      simp only [Banks.write, hi]
      exact hnibble
    · rw [Banks.write_ramEnabled b w (by dsimp only; omega), enabled, hother hi]
      exact he
  · by_cases hi : a.toNat / 0x2000 = 2
    · rw [sharedBits, hwritten hi]
      simp only [Banks.write, hi]
      exact hbits
    · rw [Banks.write_shared b w (by dsimp only; omega), sharedBits, hother hi]
      exact hs
  · by_cases hi : a.toNat / 0x2000 = 3
    · rw [modeOne, hwritten hi]
      simp only [Banks.write, hi]
      exact hbit
    · rw [Banks.write_sharedEverywhere b w (by dsimp only; omega), modeOne, hother hi]
      exact hm

/-! ### Events, one more -/

section

variable {u : Use} {x y : Cell} {v : UInt8} {es : List Event}

theorem events_of_none (h : c.event? us u = none) : c.events (u :: us) = c.events us := by
  rw [events, h]
  rfl

theorem events_of_some {e : Event} (h : c.event? us u = some e) :
    c.events (u :: us) = e :: c.events us := by
  rw [events, h]
  rfl

theorem lastStored?_stored_self : lastStored? x (.stored x v :: es) = some v := by
  simp [lastStored?, Event.storedIn?]

theorem lastStored?_stored_of_ne (h : y ≠ x) :
    lastStored? x (.stored y v :: es) = lastStored? x es := by
  simp [lastStored?, Event.storedIn?, h]

theorem sinceSaved_stored : sinceSaved (.stored x v :: es) = .stored x v :: sinceSaved es := rfl

theorem sinceSaved_saved : sinceSaved (.saved :: es) = [] := rfl

end

/-! ### A cartridge in use -/

/-- A cartridge that was just loaded, with anything in its RAM. -/
structure Loaded (c : Cartridge) : Prop where
  wiring_eq : c.wiring = .ofSizes c.header.romKib c.header.ramKib
  banks_eq : c.banks = .powerOn
  ramSize_eq : c.ram.size = c.header.ramKib * 1024
  clean : c.dirty = false

theorem ofImage_loaded {image : ByteArray} (h : ofImage image = .ok c) : c.Loaded := by
  have hmade := ofImage_eq h
  refine ⟨hmade.wiring_eq, hmade.banks_eq, ?_, hmade.clean⟩
  rw [hmade.ram_eq]
  exact Array.size_replicate

theorem ofFile_loaded {volume : Volume} {path : String} {events : List Log.Event}
    (h : ofFile volume path = .ok (c, events)) : c.Loaded := by
  obtain ⟨image, b, -, himage, rfl⟩ := ofFile_cases h
  have hloaded := ofImage_loaded himage
  have hboard := b.attachSave_sameBoard volume path
  obtain ⟨hbanks, hdirty⟩ : (b.attachSave volume path).1.banks = b.banks ∧
      (b.attachSave volume path).1.dirty = b.dirty := by
    unfold attachSave
    split
    · dsimp only
      split <;> exact ⟨rfl, rfl⟩
    · exact ⟨rfl, rfl⟩
  refine ⟨?_, hbanks.trans hloaded.banks_eq, ?_, hdirty.trans hloaded.clean⟩
  · rw [hboard.wiring_eq, hboard.header_eq]
    exact hloaded.wiring_eq
  · rw [hboard.ramSize_eq, hboard.header_eq]
    exact hloaded.ramSize_eq

/-- RAM has a bank at least, and RAM of 32 KiB has four. -/
theorem Loaded.index_lt (hl : c.Loaded) (hr : c.ram.isEmpty = false) (us : List Use)
    (i : Fin 0x2000) : (cellAt c.header us i).index < c.ram.size := by
  have hi := i.isLt
  have hp := (page c.header us).isLt
  have hfirst := page_cases c.header us
  have hsize := hl.ramSize_eq
  have hkib : c.header.ramKib = 0 ∨ 8 ≤ c.header.ramKib := by
    unfold Header.ramKib
    split <;> omega
  have hne : c.ram.size ≠ 0 := by
    intro h
    rw [ByteArray.isEmpty, h] at hr
    cases hr
  unfold Cell.index cellAt ramBankSize
  dsimp only
  omega

/-- What the cartridge `d`, which `c` has become by uses, has in switches, RAM and mark. -/
structure Tells (c : Cartridge) (us : List Use) (d : Cartridge) : Prop where
  board : SameBoard c d
  banks : d.banks.Told us
  ram (x : Cell) :
    d.ram.data[x.index]? = c.ram.data[x.index]?.map fun old => (lastStored? x (c.events us)).getD old
  dirty : d.dirty = true ↔ ∃ x v, .stored x v ∈ sinceSaved (c.events us)

namespace Tells

theorem loaded (hl : c.Loaded) : Tells c [] c where
  board := .refl c
  banks := hl.banks_eq ▸ Banks.powerOn_told
  ram x := Option.map_id'.symm
  dirty := by
    rw [hl.clean]
    simp [events, sinceSaved]

variable {u : Use}

/-- A use of which nothing comes, and which at most moves a switch. -/
theorem of_none (h : Tells c us d) (hu : c.event? us u = none) {banks : Banks}
    (hb : banks.Told (u :: us)) : Tells c (u :: us) { d with banks } := by
  refine ⟨h.board.trans ⟨rfl, rfl, rfl, rfl, rfl⟩, hb, ?_, ?_⟩
  · rw [events_of_none hu]
    exact h.ram
  · rw [events_of_none hu]
    exact h.dirty

theorem ramIndex_eq (hl : c.Loaded) (h : Tells c us d) (i : Fin 0x2000) :
    d.ramIndex i = (cellAt c.header us i).index := by
  have hwiring : d.wiring.ramSwitched = (c.header.ramKib == 32) := by
    rw [h.board.wiring_eq, hl.wiring_eq]
    rfl
  unfold ramIndex Cell.index cellAt page
  rw [hwiring, h.banks.sharedEverywhere_eq, h.banks.shared_eq]
  simp only [Bool.and_eq_true, beq_iff_eq]
  split
  · rfl
  · exact (Nat.zero_add i.val).symm

theorem ramVisible_eq (hm : c.mapper ≠ .direct) (hr : c.ram.isEmpty = false) (h : Tells c us d) :
    d.ramVisible = enabled us := by
  have hmapper : (d.mapper != .direct) = true := by
    rw [h.board.mapper_eq, bne_iff_ne]
    exact hm
  unfold ramVisible
  rw [hmapper, h.banks.ramEnabled_eq, isEmpty_eq_of_size_eq h.board.ramSize_eq, hr]
  simp

/-- A write in the window while RAM is enabled. -/
theorem store (hl : c.Loaded) (hm : c.mapper ≠ .direct) (hr : c.ram.isEmpty = false)
    (h : Tells c us d) {a : UInt16} {i : Fin 0x2000} (ho : ramOffset? a = some i)
    (he : enabled us = true) (v : UInt8) : Tells c (.write a v :: us) (d.write a v) := by
  have hvisible : d.ramVisible = true := (h.ramVisible_eq hm hr).trans he
  have hindex := h.ramIndex_eq hl i
  have hlt : d.ramIndex i < d.ram.size := by
    rw [hindex, h.board.ramSize_eq]
    exact hl.index_lt hr us i
  have hwrite : d.write a v = { d with ram := d.ram.set (d.ramIndex i) v hlt, dirty := true } := by
    rw [write_of_offset ho, writeRam, if_pos hvisible]
    exact dif_pos hlt
  have hevent : c.event? us (.write a v) = some (.stored (cellAt c.header us i) v) := by
    rw [event?, if_pos he, ho]
    rfl
  have ha : ¬a.toNat < 0x8000 := by
    have := ramOffset?_eq_some.1 ho
    omega
  refine ⟨h.board.trans (write_sameBoard a v), ?_, fun x => ?_, ?_⟩
  · rw [hwrite]
    exact h.banks.congr fun switch hs => lastWritten?_write_of_not_lt ha v hs
  · rw [events_of_some hevent, hwrite]
    dsimp only
    rw [ByteArray.data_set]
    by_cases hx : cellAt c.header us i = x
    · subst hx
      have hold : (cellAt c.header us i).index < c.ram.data.size := hl.index_lt hr us i
      rw [lastStored?_stored_self, Array.getElem?_eq_getElem hold, Array.getElem?_set, if_pos hindex]
      rfl
    · rw [lastStored?_stored_of_ne hx, ← h.ram x]
      refine Array.getElem?_set_ne hlt ?_
      rw [hindex]
      exact fun he => hx (Cell.index_injective he)
  · rw [events_of_some hevent, hwrite, sinceSaved_stored]
    exact iff_of_true rfl ⟨_, _, List.mem_cons_self⟩

theorem write (hl : c.Loaded) (hm : c.mapper ≠ .direct) (hr : c.ram.isEmpty = false)
    (h : Tells c us d) (a : UInt16) (v : UInt8) : Tells c (.write a v :: us) (d.write a v) := by
  by_cases ha : a.toNat < 0x8000
  · have hm' : d.mapper ≠ .direct := h.board.mapper_eq ▸ hm
    rw [write_of_switch hm' ha]
    refine h.of_none ?_ (h.banks.write d.wiring ha v)
    simp [event?, ramOffset?_of_lt ha]
  have hbanks : d.banks.Told (.write a v :: us) :=
    h.banks.congr fun switch hs => lastWritten?_write_of_not_lt ha v hs
  cases ho : ramOffset? a with
  | none =>
    rw [write_of_elsewhere ha ho]
    exact h.of_none (by simp [event?, ho]) hbanks
  | some i =>
    cases he : enabled us with
    | true => exact h.store hl hm hr ho he v
    | false =>
      have hhidden : d.ramVisible = false := (h.ramVisible_eq hm hr).trans he
      have hwrite : d.write a v = d := by
        rw [write_of_offset ho, writeRam, hhidden]
        rfl
      rw [hwrite]
      exact h.of_none (by simp [event?, he]) hbanks

/-- Saving changes the mark at most. -/
theorem save (h : Tells c us (c.after us)) (host : Host) :
    Tells c (.save host :: us) ((c.after us).use (.save host)) := by
  have hbanks : (c.after us).banks.Told (.save host :: us) := h.banks.congr fun _ _ => rfl
  cases hs : (host.save (c.after us)).2 with
  | error e =>
    have huse : (c.after us).use (.save host) = c.after us := by rw [use, hs]
    rw [huse]
    exact h.of_none (by rw [event?, hs]; rfl) hbanks
  | ok d =>
    obtain rfl := Host.save_ok hs
    have huse : (c.after us).use (.save host) = { c.after us with dirty := false } := by rw [use, hs]
    have hevent : c.event? us (.save host) = some .saved := by
      rw [event?, hs]
      rfl
    rw [huse]
    refine ⟨h.board.trans ⟨rfl, rfl, rfl, rfl, rfl⟩, hbanks, ?_, ?_⟩
    · rw [events_of_some hevent]
      exact h.ram
    · rw [events_of_some hevent, sinceSaved_saved]
      simp

/-- **Uses keep a cartridge telling its history.** -/
theorem after (hl : c.Loaded) (hm : c.mapper ≠ .direct) (hr : c.ram.isEmpty = false)
    (us : List Use) : Tells c us (c.after us) := by
  induction us with
  | nil => exact .loaded hl
  | cons u us ih =>
    cases u with
    | write a v => exact ih.write hl hm hr a v
    | save host => exact ih.save host

end Tells

/-! ### Reading -/

/-- **RAM is banked.** A cartridge with switches and RAM has been loaded, with anything in the RAM,
and used in any way: written to, and saved with or without success. A read in the window gives what
was last stored in the cell that the window shows, or what was in it from the beginning; if RAM is
not enabled it gives ones. Cells have places of their own, and all that are shown lie within the RAM.
The RAM is marked exactly if something has been stored since it was last saved. -/
theorem ram_is_banked (hl : c.Loaded) (hm : c.mapper ≠ .direct) (hr : c.ram.isEmpty = false)
    (us : List Use) :
    let d := c.after us
    let es := c.events us
    (∀ a i, ramOffset? a = some i →
      let x := cellAt c.header us i
      Location.ofAddress a = .cartridgeRam i ∧ d.ramIndex i = x.index ∧
      ∃ h : x.index < c.ram.size,
        d.readRam i = if enabled us then (lastStored? x es).getD c.ram[x.index] else 0xFF) ∧
    d.ram.size = c.ram.size ∧ Function.Injective Cell.index ∧
    (d.dirty = true ↔ ∃ x v, .stored x v ∈ sinceSaved es) := by
  intro d es
  have h : Tells c us d := .after hl hm hr us
  refine ⟨fun a i ho => ?_, h.board.ramSize_eq, Cell.index_injective, h.dirty⟩
  intro x
  have hlt : x.index < c.ram.size := hl.index_lt hr us i
  have hindex : d.ramIndex i = x.index := h.ramIndex_eq hl i
  refine ⟨Location.ofAddress_eq_cartridgeRam_iff.2 (ramOffset?_eq_some.1 ho), hindex, hlt, ?_⟩
  rw [readRam_eq, h.ramVisible_eq hm hr, hindex, h.ram, Array.getElem?_eq_getElem hlt]
  rfl

/-- The smallest image of a cartridge with a battery and RAM of 32 KiB. -/
def pagedImage : ByteArray :=
  ⟨⟨List.replicate 0x147 0 ++ [3, 0, 3, 0, 0, 0, 0xE1, 0, 0]⟩⟩

/-- Two bytes are stored at one address, the first in the third page and the second in the first. Then
the window goes back to the third page. -/
def twoPages : List Use :=
  [.write 0x6000 1, .write 0xA010 0x11, .write 0x6000 0, .write 0xA010 0x22, .write 0x6000 1,
    .write 0x4000 2, .write 0x0000 0x0A]

/-- The byte in the third page is found again, and not the one that was stored last. -/
theorem ram_is_banked_on_two_pages :
    ∃ c, ofImage pagedImage = .ok c ∧ (c.after twoPages).readRam 0x10 = 0x22 ∧
      (c.after twoPages).dirty = true := by
  have hstored : (ofImage pagedImage).toOption.any (fun c =>
      c.mapper = .switched ∧ c.header.ramKib = 32 ∧
        lastStored? (cellAt c.header twoPages 0x10) (c.events twoPages) = some 0x22 ∧
        .stored ⟨0, 0x10⟩ 0x11 ∈ sinceSaved (c.events twoPages)) = true := by
    decide +kernel
  cases hc : ofImage pagedImage with
  | error e =>
    rw [hc] at hstored
    cases hstored
  | ok c =>
    rw [hc] at hstored
    obtain ⟨hm, hkib, hlast, hsince⟩ := of_decide_eq_true hstored
    have hl := ofImage_loaded hc
    have hswitched : c.mapper ≠ .direct := by
      rw [hm]
      decide
    have hr : c.ram.isEmpty = false := by
      rw [ByteArray.isEmpty, hl.ramSize_eq, hkib]
      rfl
    obtain ⟨hcells, -, -, hdirty⟩ := ram_is_banked hl hswitched hr twoPages
    obtain ⟨-, -, _, hread⟩ := hcells 0xA010 0x10 (ramOffset?_eq_some.2 rfl)
    have henabled : enabled twoPages = true := by decide
    rw [if_pos henabled, hlast] at hread
    exact ⟨c, rfl, hread, hdirty.2 ⟨_, _, hsince⟩⟩

end Cartridge

end DotMatrix
