import DotMatrix.Proofs.Cartridge.Backup
import DotMatrix.Proofs.Files.Sibling

/-!
# Saving and loading again

What a cartridge saves is what the next one read from the same image finds in its RAM. The save file
stands beside the image and bears its name with another extension. An image whose name has that
extension already is its own save file, and saving replaces it by the RAM.

* `exists_file_of_ofFile`: an image that is accepted is a file in a directory;
* `read_image_of_save`, `read_ram_of_save`: what is at the image's path after a save;
* `ofFile_of_save`: what is loaded then;
* `save_round_trip`: all of this together.
-/

namespace DotMatrix.Cartridge

variable {v v' : Volume} {path : String} {c d : Cartridge} {events : List Log.Event}

theorem ne_empty_of_ofImage {image : ByteArray} (h : ofImage image = .ok c) : image ≠ .empty := by
  rintro rfl
  cases h

/-- An image that is accepted is a file. -/
theorem exists_file_of_ofFile (h : ofFile v path = .ok (c, events)) :
    ∃ place, v.locate path = .ok place ∧ v.at? place = some (.file c.rom) ∧
      Path.isDirectory path = false := by
  obtain ⟨image, b, hread, himage, rfl⟩ := ofFile_cases h
  have hrom : (b.attachSave v path).1.rom = image :=
    (b.attachSave_sameBoard v path).rom_eq.trans (ofImage_eq himage).rom_eq
  obtain ⟨place, hl, ⟨hfile, hd⟩ | ⟨-, hempty⟩⟩ := Volume.read_cases hread
  · exact ⟨place, hl, hrom ▸ hfile, hd⟩
  · exact absurd hempty (ne_empty_of_ofImage himage)

/-- After a save the save file holds the RAM. -/
theorem read_ram_of_save (hload : ofFile v path = .ok (c, events))
    (hbattery : c.header.hasBattery = true) (hram : c.ram.isEmpty = false) (hs : c.Succeeds d)
    {e : Cartridge} (hsave : d.save v = .ok (v', e)) :
    v.write (Path.withExtension path "sav") d.ram = .ok v' ∧
      v'.read (Path.withExtension path "sav") = .ok d.ram := by
  have htarget : d.saveTarget = some (Path.withExtension path "sav") := by
    rw [hs.saveTarget_eq]
    exact saveTarget_eq_some.2 ⟨hbattery, hram, ofFile_savePath hload hbattery⟩
  rw [save_eq htarget] at hsave
  cases hwrite : v.write (Path.withExtension path "sav") d.ram with
  | error e =>
    rw [hwrite] at hsave
    cases hsave
  | ok w =>
    rw [hwrite] at hsave
    obtain ⟨rfl, -⟩ := Prod.mk.inj (Except.ok.inj hsave)
    exact ⟨rfl, Volume.read_of_write hwrite⟩

/-- A save under another name leaves the image. -/
theorem read_image_of_write (hload : ofFile v path = .ok (c, events)) {bytes : ByteArray}
    (hne : Path.withExtension path "sav" ≠ path)
    (hwrite : v.write (Path.withExtension path "sav") bytes = .ok v') :
    v'.read path = v.read path := by
  obtain ⟨place, hl, hfile, hd⟩ := exists_file_of_ofFile hload
  obtain ⟨other, hother, hplaces⟩ := Volume.locate_withExtension hl
    (Volume.IsFree.ne_directory (.inr ⟨_, hfile⟩)) hd (by decide +kernel) (by decide +kernel) hne
  obtain ⟨place', hl', -, ⟨hfree, rfl⟩ | ⟨-, -, rfl⟩⟩ := Volume.write_cases hwrite
  · obtain rfl := Except.ok.inj (hother.symm.trans hl')
    exact Volume.read_put_of_ne hfree.ne_directory hl hplaces.symm
  · rfl

/-- What is loaded from the image and RAM that was saved for it. -/
theorem ofFile_of_read (hload : ofFile v path = .ok (c, events))
    (hbattery : c.header.hasBattery = true) (hs : c.Succeeds d)
    (himage : v'.read path = v.read path)
    (hsaved : v'.read (Path.withExtension path "sav") = .ok d.ram) :
    ∃ e events', ofFile v' path = .ok (e, events') ∧ c.Succeeds e ∧ e.ram = d.ram := by
  obtain ⟨image, b, hread, hb, rfl⟩ := ofFile_cases hload
  have hboard := b.attachSave_sameBoard v path
  have hblank := (ofImage_eq hb).ram_eq
  have hbattery' : b.header.hasBattery = true := hboard.header_eq ▸ hbattery
  have hsize : d.ram.size = b.header.ramKib * 1024 := by
    rw [hs.ramSize_eq, hboard.ramSize_eq, hblank]
    exact Array.size_replicate
  have hloaded := attachSave_of_holds hbattery' hblank (.inl hsaved)
  have hram : (b.attachSave v' path).1.ram = d.ram := by
    rw [hloaded, ← hsize]
    exact fitted_self d.ram
  refine ⟨_, _, ofFile_eq (himage.trans hread) hb, ⟨?_, ?_⟩, hram⟩
  · exact hboard.symm.trans (b.attachSave_sameBoard v' path)
  · rw [attachSave_savePath hbattery', attachSave_savePath hbattery']

/-- **Saving and loading again.** A cartridge with a battery and RAM is read from its files, written
to in any way and saved. If its image has another name than the save file, the image is still there,
and loading it again gives the same header and ROM, and the RAM that was saved. If it has the same
name, which is so when that ends in `.sav`, the RAM has taken its place. -/
theorem save_round_trip {d : Cartridge} (ws : List (UInt16 × UInt8))
    (hload : ofFile v path = .ok (c, events)) (hbattery : c.header.hasBattery = true)
    (hram : c.ram.isEmpty = false) (hsave : (c.writeAll ws).save v = .ok (v', d)) :
    (Path.withExtension path "sav" ≠ path →
      v'.read path = v.read path ∧
        ∃ e events', ofFile v' path = .ok (e, events') ∧ e.header = c.header ∧ e.rom = c.rom ∧
          e.ram = (c.writeAll ws).ram) ∧
      (Path.withExtension path "sav" = path → v'.read path = .ok (c.writeAll ws).ram) := by
  have hs := c.writeAll_succeeds ws
  obtain ⟨hwrite, hsaved⟩ := read_ram_of_save hload hbattery hram hs hsave
  constructor
  · intro hne
    have himage := read_image_of_write hload hne hwrite
    obtain ⟨e, events', hagain, he, hsame⟩ := ofFile_of_read hload hbattery hs himage hsaved
    exact ⟨himage, e, events', hagain, he.header_eq, he.rom_eq, hsame⟩
  · intro heq
    rw [heq] at hsaved
    exact hsaved

theorem save_of_accepts {file : String} (hf : c.saveTarget = some file) (h : v.Accepts file) :
    ∃ w, c.save v = .ok (w, { c with dirty := false }) := by
  obtain ⟨w, hw⟩ := h c.ram
  refine ⟨w, ?_⟩
  rw [save_eq hf, hw]
  rfl

/-- The smallest image is loaded and saved, wherever nothing is in the way of its save file. -/
theorem batteryVolume_saved {name : String} (hn : Volume.IsName name)
    (hpath : Path.withExtension name "sav" = "game.sav")
    (hfree : (batteryVolume name).IsFree ["game.sav"]) (ws : List (UInt16 × UInt8)) :
    ∃ c events v' d, ofFile (batteryVolume name) name = .ok (c, events) ∧
      c.header.hasBattery = true ∧ c.ram.isEmpty = false ∧ c.ram.size = 8192 ∧
      (c.writeAll ws).save (batteryVolume name) = .ok (v', d) := by
  obtain ⟨c, events, hload, htarget, hsize⟩ := batteryVolume_accepted hn
  obtain ⟨hbattery, hram, -⟩ := saveTarget_eq_some.1 htarget
  have haccepts : (batteryVolume name).Accepts (Path.withExtension name "sav") := by
    rw [hpath]
    exact Volume.accepts_name isName_game.2 hfree
  obtain ⟨v', hsave⟩ :=
    save_of_accepts ((c.writeAll_succeeds ws).saveTarget_eq.trans htarget) haccepts
  exact ⟨c, events, v', _, hload, hbattery, hram, hsize, hsave⟩

/-- An image under a name of its own is loaded again after two writes and a save. -/
theorem save_round_trip_game :
    ∃ c events v' d e events', ofFile (batteryVolume "game.gb") "game.gb" = .ok (c, events) ∧
      (c.writeAll [(0, 0x0A), (0xA000, 0x55)]).save (batteryVolume "game.gb") = .ok (v', d) ∧
      ofFile v' "game.gb" = .ok (e, events') ∧
      e.ram = (c.writeAll [(0, 0x0A), (0xA000, 0x55)]).ram := by
  have hpath : Path.withExtension "game.gb" "sav" = "game.sav" := by decide +kernel
  obtain ⟨c, events, v', d, hload, hbattery, hram, -, hsave⟩ :=
    batteryVolume_saved isName_game.1 hpath (.inl rfl) [(0, 0x0A), (0xA000, 0x55)]
  obtain ⟨-, e, events', hagain, -, -, hsame⟩ :=
    (save_round_trip _ hload hbattery hram hsave).1 (hpath ▸ by decide)
  exact ⟨c, events, v', d, e, events', hload, hsave, hagain, hsame⟩

/-- An image that bears the name of its own save file is lost when its RAM is saved. -/
theorem image_lost_by_save :
    ∃ c events v' d, ofFile (batteryVolume "game.sav") "game.sav" = .ok (c, events) ∧
      c.header.hasBattery = true ∧ c.ram.isEmpty = false ∧
      (c.writeAll [(0, 0x0A), (0xA000, 0xAA)]).save (batteryVolume "game.sav") = .ok (v', d) ∧
      v'.read "game.sav" ≠ (batteryVolume "game.sav").read "game.sav" := by
  have hpath : Path.withExtension "game.sav" "sav" = "game.sav" := by decide +kernel
  obtain ⟨c, events, v', d, hload, hbattery, hram, hsize, hsave⟩ :=
    batteryVolume_saved isName_game.2 hpath (.inr ⟨batteryImage, rfl⟩) [(0, 0x0A), (0xA000, 0xAA)]
  refine ⟨c, events, v', d, hload, hbattery, hram, hsave, ?_⟩
  have hs := c.writeAll_succeeds [(0, 0x0A), (0xA000, 0xAA)]
  have hread := (read_ram_of_save hload hbattery hram hs hsave).2
  rw [hpath] at hread
  rw [hread, batteryVolume_read isName_game.2]
  intro heq
  -- The RAM is larger than the image.
  have hsame := congrArg ByteArray.size (Except.ok.inj heq)
  rw [hs.ramSize_eq, hsize] at hsame
  exact absurd hsame (by decide +kernel)

end DotMatrix.Cartridge
