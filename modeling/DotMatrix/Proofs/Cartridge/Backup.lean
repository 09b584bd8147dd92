import DotMatrix.Proofs.Cartridge.Banks
import DotMatrix.Proofs.Files.Writing

/-!
# The save file of a cartridge

The file holds what the RAM was when it was last saved, and RAM that has changed since is marked. A
save that is refused on the way may leave anything in the file, but it leaves the mark too.

* `Volume.Holds`: the contents of a file that may be absent;
* `Cartridge.Succeeds`: what stays the same while a cartridge is in use;
* `Volume.Backs`: the file is there for the cartridge, and holds its RAM unless that is marked;
* `ofFile_backs`: so it is when the cartridge has been read from its files;
* `Backs.write`, `Host.save_backs`: writing RAM sets the mark, and only a save that was not refused takes
  it away;
* `Host.Allows`: no save will be refused.
-/

namespace DotMatrix

/-! ### Contents -/

/-- The file holds the bytes. A file that is absent holds none. -/
def Volume.Holds (v : Volume) (file : String) (bytes : ByteArray) : Prop :=
  v.read file = .ok bytes ∨ (v.read file = .error .notFound ∧ bytes = .empty)

namespace Cartridge

/-- Bytes cut to a size, or filled up to it with zeros. -/
def fitted (bytes : ByteArray) (size : Nat) : ByteArray :=
  bytes.extract 0 size ++ ⟨Array.replicate (size - bytes.size) 0⟩

theorem fitted_self (bytes : ByteArray) : fitted bytes bytes.size = bytes := by
  apply ByteArray.ext
  simp [fitted]

theorem fitted_empty (size : Nat) : fitted .empty size = ⟨Array.replicate size 0⟩ := by
  apply ByteArray.ext
  simp [fitted]

theorem size_fitted (bytes : ByteArray) (size : Nat) : (fitted bytes size).size = size := by
  rw [fitted, ByteArray.size_append, ByteArray.size_extract]
  show _ + (Array.replicate _ _).size = size
  rw [Array.size_replicate]
  omega

theorem restoreRam_ram {c : Cartridge} {size : Nat} (h : c.ram = ⟨Array.replicate size 0⟩)
    (saved : ByteArray) : (c.restoreRam saved).ram = fitted saved size := by
  apply ByteArray.ext
  simp [restoreRam, fitted, h, ← ByteArray.size_data]

theorem size_restoreRam (c : Cartridge) (saved : ByteArray) :
    (c.restoreRam saved).ram.size = c.ram.size := by
  rw [restoreRam, ByteArray.size_append, ByteArray.size_extract, ByteArray.size_extract]
  omega

/-! ### A cartridge in use -/

/-- `d` is the cartridge `c` after some use. -/
structure Succeeds (c d : Cartridge) : Prop extends SameBoard c d where
  savePath_eq : d.savePath = c.savePath

variable {c d : Cartridge}

theorem Succeeds.refl (c : Cartridge) : Succeeds c c := ⟨.refl c, rfl⟩

theorem Succeeds.trans {e : Cartridge} (h : Succeeds c d) (h' : Succeeds d e) : Succeeds c e :=
  ⟨h.toSameBoard.trans h'.toSameBoard, h'.savePath_eq.trans h.savePath_eq⟩

theorem succeeds_clean (c : Cartridge) : Succeeds c { c with dirty := false } :=
  ⟨⟨rfl, rfl, rfl, rfl, rfl⟩, rfl⟩

theorem isEmpty_eq_of_size_eq {a b : ByteArray} (h : a.size = b.size) : a.isEmpty = b.isEmpty := by
  rw [ByteArray.isEmpty, ByteArray.isEmpty, h]

theorem saveTarget_eq_some {file : String} : c.saveTarget = some file ↔
    c.header.hasBattery = true ∧ c.ram.isEmpty = false ∧ c.savePath = some file := by
  unfold saveTarget
  split
  · rename_i h
    simp_all
  · rename_i h
    simp_all

theorem Succeeds.saveTarget_eq (h : Succeeds c d) : d.saveTarget = c.saveTarget := by
  unfold saveTarget
  rw [h.header_eq, h.savePath_eq, isEmpty_eq_of_size_eq h.ramSize_eq]

/-- A write either changes the RAM and marks it, or leaves RAM and mark alone. -/
theorem write_cases (c : Cartridge) (a : UInt16) (v : UInt8) :
    (c.write a v).savePath = c.savePath ∧
      ((c.write a v).dirty = true ∨
        ((c.write a v).ram = c.ram ∧ (c.write a v).dirty = c.dirty)) := by
  unfold write
  split
  · unfold writeRom
    split <;> exact ⟨rfl, .inr ⟨rfl, rfl⟩⟩
  · unfold writeRam
    split
    · dsimp only
      split
      · exact ⟨rfl, .inl rfl⟩
      · exact ⟨rfl, .inr ⟨rfl, rfl⟩⟩
    · exact ⟨rfl, .inr ⟨rfl, rfl⟩⟩
  · exact ⟨rfl, .inr ⟨rfl, rfl⟩⟩

theorem write_succeeds (c : Cartridge) (a : UInt16) (v : UInt8) : Succeeds c (c.write a v) :=
  ⟨write_sameBoard a v, (c.write_cases a v).1⟩

theorem writeAll_succeeds (c : Cartridge) (ws : List (UInt16 × UInt8)) :
    Succeeds c (c.writeAll ws) := by
  induction ws generalizing c with
  | nil => exact .refl c
  | cons w ws ih => exact (c.write_succeeds w.1 w.2).trans (ih _)

theorem save_eq {file : String} (hf : c.saveTarget = some file) (v : Volume) :
    c.save v = (v.write file c.ram).map fun w => (w, { c with dirty := false }) := by
  unfold save
  rw [hf]
  dsimp only
  split
  · rename_i hw
    rw [hw]
    rfl
  · rename_i hw
    rw [hw]
    rfl

end Cartridge

/-! ### The file -/

namespace Volume

variable {v w w' : Volume} {file : String} {place : Place} {c : Cartridge}

/-- In the volume `w` the file is where `v` has it, and it holds the RAM of the cartridge, unless that
is marked as changed. -/
structure Backs (w v : Volume) (file : String) (c : Cartridge) : Prop where
  locate_eq : w.locate file = v.locate file
  holds : ∃ bytes, w.Holds file bytes ∧
    (c.dirty = false → Cartridge.fitted bytes c.ram.size = c.ram)

/-- Writing RAM sets the mark. -/
theorem Backs.write (h : w.Backs v file c) (a : UInt16) (x : UInt8) :
    w.Backs v file (c.write a x) := by
  obtain ⟨bytes, hbytes, hclean⟩ := h.holds
  refine ⟨h.locate_eq, bytes, hbytes, fun hd => ?_⟩
  obtain ⟨-, hdirty | ⟨hram, hsame⟩⟩ := c.write_cases a x
  · rw [hdirty] at hd
    cases hd
  · rw [hram]
    exact hclean (hsame.symm.trans hd)

/-- Writing another file changes nothing. -/
theorem Backs.writeAt {offset : Nat} {bytes : ByteArray} (h : w.Backs v file c)
    (hne : v.locate file ≠ .ok place) (hw : w.writeAt place offset bytes = .ok w') :
    w'.Backs v file c := by
  obtain rfl | ⟨old, new, hold, rfl⟩ := writeAt_cases hw
  · exact h
  have hread : (w.put place (.file new)).read file = w.read file :=
    read_overwrite hold (h.locate_eq ▸ hne)
  refine ⟨(locate_overwrite hold).trans h.locate_eq, ?_⟩
  unfold Holds
  rw [hread]
  exact h.holds

/-- So does writing another path. -/
theorem Backs.write_elsewhere {path : String} {bytes : ByteArray} (h : w.Backs v file c)
    (hl : v.locate file = .ok place) (hne : w.locate path ≠ .ok place)
    (hw : w.write path bytes = .ok w') : w'.Backs v file c := by
  have hplace : w.locate file = .ok place := h.locate_eq.trans hl
  refine ⟨((sameWays_write hw file place).2 hplace).trans hl.symm, ?_⟩
  unfold Holds
  rw [read_of_write_elsewhere hw hplace hne]
  exact h.holds

/-- Writing the file moves nothing. What it holds then is another matter. -/
theorem locate_of_write {bytes : ByteArray} (hw : w.write file bytes = .ok w') :
    w'.locate file = w.locate file := by
  obtain ⟨place, hl, -, ⟨hf, rfl⟩ | ⟨-, -, rfl⟩⟩ := write_cases hw
  · rw [locate_put hf.ne_directory hl, hl]
  · rfl

theorem Backs.rewrite {d : Cartridge} {bytes : ByteArray} (h : w.Backs v file c)
    (hw : w.write file bytes = .ok w')
    (hd : d.dirty = false → Cartridge.fitted bytes d.ram.size = d.ram) : w'.Backs v file d :=
  ⟨(locate_of_write hw).trans h.locate_eq, bytes, .inl (read_of_write hw), hd⟩

theorem writeRefused_cases (w : Volume) (file : String) (bytes : ByteArray) (r : Refusal) :
    w.writeRefused file bytes r = w ∨
      ∃ n, w.write file (bytes.extract 0 n) = .ok (w.writeRefused file bytes r) := by
  unfold writeRefused
  split
  · exact .inl rfl
  · rename_i n _
    split
    · exact .inl rfl
    · rename_i hw
      exact .inr ⟨n, hw⟩

end Volume

/-! ### Loading -/

namespace Cartridge

theorem ofFile_cases {v : Volume} {path : String} {c : Cartridge} {events : List Log.Event}
    (h : ofFile v path = .ok (c, events)) :
    ∃ image b, v.read path = .ok image ∧ ofImage image = .ok b ∧ c = (b.attachSave v path).1 := by
  unfold ofFile at h
  split at h
  · cases h
  split at h
  · cases h
  · rename_i image hread _ b himage
    cases h
    exact ⟨image, b, hread, himage, rfl⟩

theorem ofFile_eq {v : Volume} {path : String} {image : ByteArray} {b : Cartridge}
    (hread : v.read path = .ok image) (himage : ofImage image = .ok b) :
    ofFile v path = .ok ((b.attachSave v path).1,
      b.warnings ++ (b.attachSave v path).2 ++ [.imageLoaded b.header]) := by
  rw [ofFile, hread]
  dsimp only
  rw [himage]

theorem attachSave_of_no_battery {b : Cartridge} (hb : b.header.hasBattery = false) (v : Volume)
    (path : String) : b.attachSave v path = (b, []) := by
  rw [attachSave, hb]
  rfl

theorem attachSave_savePath {b : Cartridge} (hb : b.header.hasBattery = true) (v : Volume)
    (path : String) :
    (b.attachSave v path).1.savePath = some (Path.withExtension path "sav") := by
  rw [attachSave, if_pos hb]
  dsimp only
  split <;> rfl

/-- A save file changes what is in the RAM, and no more of the board. -/
theorem attachSave_sameBoard (b : Cartridge) (v : Volume) (path : String) :
    SameBoard b (b.attachSave v path).1 := by
  unfold attachSave
  split
  · dsimp only
    split
    · exact ⟨rfl, rfl, rfl, rfl, size_restoreRam _ _⟩
    · exact ⟨rfl, rfl, rfl, rfl, rfl⟩
    · exact ⟨rfl, rfl, rfl, rfl, rfl⟩
  · exact .refl b

/-- Blank RAM is filled from the save file. -/
theorem attachSave_of_holds {b : Cartridge} {size : Nat} {v : Volume} {path : String}
    {bytes : ByteArray} (hb : b.header.hasBattery = true) (hram : b.ram = ⟨Array.replicate size 0⟩)
    (h : v.Holds (Path.withExtension path "sav") bytes) :
    (b.attachSave v path).1 =
      { b with savePath := some (Path.withExtension path "sav"), ram := fitted bytes size } := by
  rw [attachSave, if_pos hb]
  dsimp only
  obtain hread | ⟨hread, rfl⟩ := h
  · rw [hread]
    dsimp only
    rw [← restoreRam_ram hram]
    rfl
  · rw [hread, fitted_empty, ← hram]

/-- A cartridge with a battery that has been read from a file keeps its RAM beside it. -/
theorem ofFile_savePath {v : Volume} {path : String} {c : Cartridge} {events : List Log.Event}
    (h : ofFile v path = .ok (c, events)) (hb : c.header.hasBattery = true) :
    c.savePath = some (Path.withExtension path "sav") := by
  obtain ⟨image, b, -, -, rfl⟩ := ofFile_cases h
  rw [(b.attachSave_sameBoard v path).header_eq] at hb
  exact attachSave_savePath hb v path

/-- A cartridge that has been read from its files is backed up by them. -/
theorem ofFile_backs {v w : Volume} {path file : String} {c : Cartridge} {events : List Log.Event}
    (h : ofFile v path = .ok (c, events)) (hf : c.saveTarget = some file)
    (hread : w.read file = v.read file) (hholds : ∃ bytes, v.Holds file bytes) :
    w.Backs w file c := by
  obtain ⟨image, b, -, himage, rfl⟩ := ofFile_cases h
  have hram := (ofImage_eq himage).ram_eq
  cases hb : b.header.hasBattery with
  | false =>
    rw [attachSave_of_no_battery hb, saveTarget, hb] at hf
    cases hf
  | true =>
    have hsave : (b.attachSave v path).1.savePath = some file := (saveTarget_eq_some.1 hf).2.2
    obtain rfl := Option.some.inj ((attachSave_savePath hb v path).symm.trans hsave)
    obtain ⟨bytes, hbytes⟩ := hholds
    refine ⟨rfl, bytes, ?_, fun _ => ?_⟩
    · unfold Volume.Holds
      rw [hread]
      exact hbytes
    · rw [attachSave_of_holds hb hram hbytes]
      exact congrArg (fitted bytes) (size_fitted _ _)

/-- The smallest image of a cartridge with a battery and RAM. -/
def batteryImage : ByteArray :=
  ⟨⟨List.replicate 0x147 0 ++ [3, 0, 2, 0, 0, 0, 0xE2, 0, 0]⟩⟩

theorem batteryImage_accepted :
    ∃ c, ofImage batteryImage = .ok c ∧ c.header.hasBattery = true ∧ c.header.ramKib = 8 := by
  have hs : headerEnd ≤ batteryImage.size := by decide +kernel
  have hsum : Header.computedChecksum batteryImage = 0xE2 := by decide +kernel
  obtain ⟨c, hc, hheader, -⟩ := ofImage_of_checksum hs (hsum.trans rfl)
  refine ⟨c, hc, ?_⟩
  rw [hheader]
  exact ⟨rfl, rfl⟩

theorem isName_game : Volume.IsName "game.gb" ∧ Volume.IsName "game.sav" := by
  constructor <;> constructor <;> decide +kernel

/-- A volume with nothing but that image. -/
def batteryVolume (name : String) : Volume := ⟨[([name], .file batteryImage)]⟩

theorem batteryVolume_read {name : String} (hn : Volume.IsName name) :
    (batteryVolume name).read name = .ok batteryImage := by
  have hplace : ¬(Volume.isUpward [name] || [name] == Volume.root) = true := by
    have hroot : name ≠ "/" := by
      rintro rfl
      exact absurd hn.relative (by decide +kernel)
    simp [Volume.isUpward, Volume.root, hn.ne_dots, hroot]
  have hfile : (batteryVolume name).at? [name] = some (.file batteryImage) := by
    rw [Volume.at?, if_neg hplace]
    exact List.lookup_cons_self
  rw [Volume.read, Volume.locate_name hn]
  dsimp only
  rw [hfile]
  dsimp only
  rw [hn.plain]
  rfl

theorem batteryVolume_accepted {name : String} (hn : Volume.IsName name) :
    ∃ c events, ofFile (batteryVolume name) name = .ok (c, events) ∧
      c.saveTarget = some (Path.withExtension name "sav") ∧ c.ram.size = 8192 := by
  obtain ⟨b, himage, hbattery, hkib⟩ := batteryImage_accepted
  have hboard := b.attachSave_sameBoard (batteryVolume name) name
  have hblank : b.ram.size = 8192 := by
    rw [(ofImage_eq himage).ram_eq, hkib]
    exact Array.size_replicate
  have hsize := hboard.ramSize_eq.trans hblank
  refine ⟨_, _, ofFile_eq (batteryVolume_read hn) himage,
    saveTarget_eq_some.2 ⟨?_, ?_, ?_⟩, hsize⟩
  · exact hboard.header_eq ▸ hbattery
  · rw [ByteArray.isEmpty, hsize]
    rfl
  · exact attachSave_savePath hbattery _ _

end Cartridge

/-! ### Saving -/

namespace Host

variable {h : Host} {c : Cartridge} {file : String}

/-- All that a save can do for a cartridge that has a save file. -/
theorem save_cases (h : Host) (hf : c.saveTarget = some file) :
    (∃ w, h.volume.write file c.ram = .ok w ∧
        h.save c = ({ h with volume := w, refusals := h.refusals.tail },
          .ok { c with dirty := false })) ∨
      ∃ w e, (w = h.volume ∨ ∃ bytes, h.volume.write file bytes = .ok w) ∧
        h.save c = ({ h with volume := w, refusals := h.refusals.tail }, .error e) := by
  unfold Host.save
  rw [hf]
  dsimp only
  split
  · rename_i r hr
    refine .inr ⟨_, _, ?_, rfl⟩
    obtain hw | ⟨n, hw⟩ := h.volume.writeRefused_cases file c.ram r
    · exact .inl hw
    · exact .inr ⟨_, hw⟩
  · rw [Cartridge.save_eq hf]
    cases h.volume.write file c.ram with
    | error e => exact .inr ⟨_, e, .inl rfl, rfl⟩
    | ok w => exact .inl ⟨w, rfl, rfl⟩

/-- A save of RAM that is marked. Unless it is refused the mark is gone, and the file holds the RAM. -/
theorem save_backs {v : Volume} (hf : c.saveTarget = some file) (hd : c.dirty = true)
    (hb : h.volume.Backs v file c) :
    (h.save c).1.volume.Backs v file c ∧
      ∀ d, (h.save c).2 = .ok d → d = { c with dirty := false } ∧
        (h.save c).1.volume.Backs v file d := by
  have hmarked {bytes : ByteArray} (hclean : c.dirty = false) :
      Cartridge.fitted bytes c.ram.size = c.ram := by
    rw [hd] at hclean
    cases hclean
  -- The write went through, or was refused at once, or was refused when the file had been opened.
  obtain ⟨w, hw, hsave⟩ | ⟨w, e, rfl | ⟨bytes, hw⟩, hsave⟩ := h.save_cases hf <;> rw [hsave]
  · refine ⟨hb.rewrite hw hmarked, fun d hok => ?_⟩
    obtain rfl := Except.ok.inj hok
    exact ⟨rfl, hb.rewrite hw fun _ => Cartridge.fitted_self _⟩
  · exact ⟨hb, nofun⟩
  · exact ⟨hb.rewrite hw hmarked, nofun⟩

theorem save_of_none (h : Host) (hf : c.saveTarget = none) :
    h.save c = (h, .ok { c with dirty := false }) := by
  unfold Host.save
  rw [hf]

/-- A save puts nothing in the way of any path. -/
theorem sameWays_save (h : Host) (c : Cartridge) : h.volume.SameWays (h.save c).1.volume := by
  cases hf : c.saveTarget with
  | none =>
    rw [h.save_of_none hf]
    exact .refl h.volume
  | some file =>
    obtain ⟨w, hw, hsave⟩ | ⟨w, e, rfl | ⟨bytes, hw⟩, hsave⟩ := h.save_cases hf <;> rw [hsave]
    · exact Volume.sameWays_write hw
    · exact .refl h.volume
    · exact Volume.sameWays_write hw

/-- A save that succeeds takes the mark away, and changes nothing else in the cartridge. -/
theorem save_ok {d : Cartridge} (hs : (h.save c).2 = .ok d) : d = { c with dirty := false } := by
  cases hf : c.saveTarget with
  | none =>
    rw [h.save_of_none hf] at hs
    exact (Except.ok.inj hs).symm
  | some file =>
    obtain ⟨w, -, hsave⟩ | ⟨w, e, -, hsave⟩ := h.save_cases hf <;> rw [hsave] at hs
    · exact (Except.ok.inj hs).symm
    · cases hs

/-- No save of the cartridge will be refused, and nothing in the volume stands against one. -/
structure Allows (h : Host) (c : Cartridge) : Prop where
  refusals : ∀ r ∈ h.refusals, r = none
  accepts : ∀ file, c.saveTarget = some file → h.volume.Accepts file

theorem Allows.congr {d : Cartridge} (ha : h.Allows c) (hd : d.saveTarget = c.saveTarget) :
    h.Allows d :=
  ⟨ha.refusals, fun file hf => ha.accepts file (hd ▸ hf)⟩

/-- A save that is allowed takes the mark away, and the next one is allowed too. -/
theorem Allows.save (ha : h.Allows c) :
    ∃ h', h.save c = (h', .ok { c with dirty := false }) ∧ h'.Allows { c with dirty := false } := by
  have hclean : Cartridge.saveTarget { c with dirty := false } = c.saveTarget :=
    c.succeeds_clean.saveTarget_eq
  cases hf : c.saveTarget with
  | none => exact ⟨h, h.save_of_none hf, ha.congr hclean⟩
  | some file =>
    have hhead : h.refusals.head?.join = none := by
      cases hr : h.refusals with
      | nil => rfl
      | cons r rest => exact ha.refusals r (hr ▸ List.mem_cons_self)
    obtain ⟨w, hw⟩ := ha.accepts file hf c.ram
    refine ⟨{ h with volume := w, refusals := h.refusals.tail }, ?_, ?_⟩
    · unfold Host.save
      rw [hf]
      dsimp only
      rw [hhead, Cartridge.save_eq hf, hw]
      rfl
    · refine ⟨fun r hr => ha.refusals r (List.mem_of_mem_tail hr), fun file' hf' => ?_⟩
      obtain rfl : file = file' := Option.some.inj (hf.symm.trans (hclean.symm.trans hf'))
      exact (ha.accepts file hf).write hw

end Host

end DotMatrix
