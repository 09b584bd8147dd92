import DotMatrix.Proofs.Cartridge.RoundTrip
import DotMatrix.Proofs.Command.Printed
import DotMatrix.Proofs.Console.Backup

/-!
# Leaving the command

A session may end at a limit, or with a fault in the middle of a frame, and under some policies the
RAM of the cartridge has not been saved for a long time then. The run saves it first, and only then
passes the fault on, writes the screenshot and closes the trace. None of these reaches the save file
by another path, because no write changes where paths lead.

* `Undisturbed`: the save file can be read, and nothing else that the run writes is that file;
* `Console.Kept`: the cartridge is backed up, and paths lead where they led before;
* `prepare_kept`, `finish_backs`: so it is when the session begins, and what it is good for when it
  is over;
* `exit_keeps_ram`: after the run the save file holds the RAM.
-/

namespace DotMatrix

theorem Host.recordAll_volume (h : Host) (events : List Log.Event) :
    (h.recordAll events).volume = h.volume := by
  induction events generalizing h with
  | nil => rfl
  | cons e events ih => exact ih (h.record e)

/-! ### Where paths lead -/

/-- Nothing that happens on the bus changes where paths lead. -/
theorem Bus.sameWays_stored (v : Volume) : Stored fun b => v.SameWays b.host.volume where
  congr h _ hv _ := by
    rw [hv]
    exact h
  write {b} a x h := by
    rw [(b.write_host a x).1]
    exact h
  saveRam {b} h _ := by
    unfold Bus.saveRam
    cases b.cartridge with
    | none => exact h
    | some c =>
      have hsave := h.trans (b.host.sameWays_save c)
      dsimp only
      split
      · rename_i host d heq
        rwa [heq] at hsave
      · rename_i host e heq
        rwa [heq] at hsave

/-- A save takes the mark away and leaves the RAM, or its failure is on record. -/
theorem Bus.saveRam_cartridge {b : Bus} {d : Cartridge} (hd : b.cartridge = some d)
    (hlog : ∀ e, .saveFailed e ∉ b.saveRam.host.log) :
    b.saveRam.cartridge = some { d with dirty := false } := by
  unfold Bus.saveRam at hlog ⊢
  rw [hd] at hlog ⊢
  dsimp only at hlog ⊢
  generalize hsave : b.host.save d = x at hlog
  obtain ⟨host, e | e⟩ := x
  · exact absurd Array.mem_push_self (hlog e)
  · have hok : (b.host.save d).2 = .ok e := congrArg Prod.snd hsave
    exact congrArg some (Host.save_ok hok)

namespace Console

variable {c d : Console} {v : Volume} {cart : Cartridge}

/-- The cartridge is backed up, and every path leads where it led before. -/
structure Kept (v : Volume) (cart : Cartridge) (c : Console) : Prop extends Backed v cart c where
  ways : v.SameWays c.host.volume

theorem Kept.traceStep (h : c.Kept v cart) : c.traceStep.Kept v cart := by
  refine ⟨h.toBacked.traceStep, ?_⟩
  obtain heq | ⟨s, hs, heq⟩ := c.traceStep_cases <;> rw [heq]
  · exact h.ways
  · have hlasting : ∀ place, s.place? = some place → Trace.Lasting place v.SameWays := by
      intro place _ _ _ _ _ hways hw
      exact hways.trans (Volume.sameWays_writeAt hw)
    exact s.record_lasting hlasting h.ways _

theorem kept_invariant (v : Volume) (cart : Cartridge) : Invariant (Kept v cart) where
  step h := ⟨h.toBacked.step, stored_step (Bus.sameWays_stored v) h.traceStep.ways⟩
  frameDone h := ⟨h.toBacked.frameDone, h.ways⟩

theorem Kept.save (h : c.Kept v cart) : c.save.Kept v cart :=
  ⟨h.toBacked.save, stored_save (Bus.sameWays_stored v) h.ways⟩

theorem Kept.setButtons (h : c.Kept v cart) (held : List Button) :
    (held.foldl (fun c button => c.setButton button true) c).Kept v cart := by
  induction held generalizing c with
  | nil => exact h
  | cons button held ih =>
    exact ih ⟨h.toBacked.perform (o := .setButton button true) trivial, h.ways⟩

theorem Kept.takeSerial (h : c.Kept v cart) : c.takeSerial.2.Kept v cart :=
  ⟨h.toBacked.perform (o := .takeSerial) trivial, h.ways⟩

theorem save_cartridge {d : Cartridge} (hd : c.cartridge = some d)
    (hlog : ∀ e, .saveFailed e ∉ c.save.host.log) :
    c.save.cartridge = some { d with dirty := false } := by
  unfold Console.save at hlog ⊢
  split at hlog
  · rename_i hn
    rw [if_pos hn]
    exact Bus.saveRam_cartridge hd hlog
  · rename_i hn
    rw [if_neg hn]
    have hclean : d.dirty = false := by
      unfold Bus.needsSave at hn
      rw [show c.machine.bus.cartridge = some d from hd] at hn
      exact Bool.eq_false_iff.2 hn
    rw [hd, ← hclean]

end Console

namespace Command

variable {arguments : Arguments} {around : Surroundings} {host : Host} {p : Prepared}
  {v : Volume} {c d : Console} {cart : Cartridge}

/-! ### Before the session -/

/-- Both paths lead to one place. -/
def SamePlace (v : Volume) (path path' : String) : Prop :=
  ∃ place, v.locate path = .ok place ∧ v.locate path' = .ok place

/-- The save file is absent or can be read, and neither the trace nor the screenshot goes there. -/
structure Undisturbed (arguments : Arguments) (v : Volume) : Prop where
  readable : ∃ bytes, v.Holds (savePath arguments) bytes
  trace : ∀ path, arguments.trace = some path → ¬SamePlace v path (savePath arguments)
  screenshot : ∀ path, arguments.screenshot = some path → ¬SamePlace v path (savePath arguments)

/-- The save file of an image has a place beside it. -/
theorem exists_place_of_ofFile {path : String} {events : List Log.Event}
    (h : Cartridge.ofFile v path = .ok (cart, events)) :
    ∃ place, v.locate (Path.withExtension path "sav") = .ok place := by
  obtain ⟨place, hl, hfile, hd⟩ := Cartridge.exists_file_of_ofFile h
  by_cases hne : Path.withExtension path "sav" = path
  · rw [hne]
    exact ⟨place, hl⟩
  · obtain ⟨other, hother, -⟩ := Volume.locate_withExtension hl
      (Volume.IsFree.ne_directory (.inr ⟨_, hfile⟩)) hd (by decide +kernel) (by decide +kernel) hne
    exact ⟨other, hother⟩

/-- A trace that is opened goes somewhere else, and leaves the save file as it is. -/
theorem kept_of_openTrace (hu : Undisturbed arguments v) (h : c.Kept v cart)
    (hf : ∀ file, cart.saveTarget = some file →
      file = savePath arguments ∧ ∃ place, v.locate file = .ok place)
    (ho : openTrace arguments c = .ok d) : d.Kept v cart := by
  obtain rfl | ⟨path, w, here, hpath, hcreate, rfl⟩ := openTrace_cases ho
  · exact h
  obtain ⟨hhere, hwrite⟩ := Volume.write_empty_of_create hcreate
  have hother {place : Place} (hl : v.locate (savePath arguments) = .ok place) : here ≠ place := by
    rintro rfl
    exact hu.trace path hpath ⟨here, (h.ways path here).1 hhere, hl⟩
  obtain ⟨cart', hcart, hs, hbacks⟩ := h.bus
  refine ⟨⟨⟨cart', hcart, hs, fun file hfile => ?_⟩, fun s hsink => ?_⟩,
    h.ways.trans (Volume.sameWays_write hwrite)⟩
  · obtain ⟨rfl, place, hl⟩ := hf file hfile
    refine (hbacks _ hfile).write_elsewhere hl (fun heq => ?_) hwrite
    exact hother hl (Except.ok.inj (hhere.symm.trans heq))
  · obtain rfl := Option.some.inj hsink
    intro file place hfile hplace hl
    obtain ⟨rfl, -⟩ := hf file hfile
    exact hother hl (Option.some.inj hplace)

/-- When the session begins, the cartridge is backed up. -/
theorem prepare_kept (hp : prepare arguments around host = .ok p)
    (hu : Undisturbed arguments host.volume) :
    ∃ cart place, p.console.Kept host.volume cart ∧
      host.volume.locate (savePath arguments) = .ok place ∧
      (cart.header.hasBattery = true → cart.savePath = some (savePath arguments)) := by
  obtain ⟨held, c, d, -, -, hinsert, htrace, hp⟩ := prepare_cases hp
  obtain ⟨cart, events, hload, rfl⟩ := insertCartridge_cases hinsert
  obtain ⟨place, hl⟩ := exists_place_of_ofFile hload
  have hbattery := Cartridge.ofFile_savePath hload
  have htarget (file : String) (hf : cart.saveTarget = some file) : file = savePath arguments := by
    obtain ⟨hb, -, hpath⟩ := Cartridge.saveTarget_eq_some.1 hf
    exact Option.some.inj (hpath.symm.trans (hbattery hb))
  refine ⟨cart, place, ?_, hl, hbattery⟩
  rw [hp]
  refine Console.Kept.setButtons (kept_of_openTrace hu ?_ (fun file hf => ?_) htrace) held
  · have hvolume := host.recordAll_volume events
    refine ⟨⟨⟨cart, rfl, .refl cart, fun file hf => ?_⟩, nofun⟩, ?_⟩
    · obtain rfl := htarget file hf
      show (host.recordAll events).volume.Backs host.volume _ cart
      rw [hvolume]
      exact Cartridge.ofFile_backs hload hf rfl hu.readable
    · show host.volume.SameWays (host.recordAll events).volume
      rw [hvolume]
      exact .refl _
  · obtain rfl := htarget file hf
    exact ⟨rfl, place, hl⟩

/-! ### During the session -/

theorem kept_of_look (arguments : Arguments) (printed : String) (h : c.Kept v cart) :
    (lookOn arguments printed c).2.Kept v cart := by
  unfold lookOn look
  dsimp only
  split
  · exact h.takeSerial
  · exact h

/-! ### After the session -/

/-- Passing on how the session ended writes a screenshot at most. -/
theorem conclude_cases (arguments : Arguments) (settings : Settings) (c : Console)
    (ending : Session.Ending) :
    ∃ w, (conclude arguments settings c ending).1 = { c.host with volume := w } ∧
      (w = c.host.volume ∨ ∃ path bytes, arguments.screenshot = some path ∧
        c.host.volume.write path bytes = .ok w) := by
  cases ending with
  | finished chunks =>
    unfold conclude takeScreenshot
    dsimp only
    split
    · exact ⟨_, rfl, .inl rfl⟩
    · rename_i path hpath
      split
      · rename_i w hwrite
        exact ⟨w, rfl, .inr ⟨path, _, hpath, hwrite⟩⟩
      · exact ⟨_, rfl, .inl rfl⟩
  | faulted | unfinished => exact ⟨_, rfl, .inl rfl⟩

/-- What is written after the last save is not the save file. -/
theorem closed_backs {file : String} {place : Place} {e : Cartridge} (settings : Settings)
    (ending : Session.Ending) (h : c.Kept v cart) (hd : cart.saveTarget = some file)
    (hb : c.host.volume.Backs v file e) (hl : v.locate file = .ok place)
    (hshot : ∀ path, arguments.screenshot = some path → ¬SamePlace v path file) :
    (closeTrace c.trace (conclude arguments settings c ending).1).volume.Backs v file e := by
  obtain ⟨w, hw, hwritten⟩ := conclude_cases arguments settings c ending
  have hbacks : w.Backs v file e := by
    obtain rfl | ⟨path, bytes, hpath, hwrite⟩ := hwritten
    · exact hb
    · -- The screenshot's path leads where it led before the session, which is not to the save file.
      refine hb.write_elsewhere hl (fun heq => ?_) hwrite
      exact hshot path hpath ⟨place, (h.ways path place).1 heq, hl⟩
  rw [hw]
  unfold closeTrace
  split
  · rename_i s hs
    have hlasting (here : Place) (hp : s.place? = some here) :
        Trace.Lasting here fun w => w.Backs v file e :=
      fun hb hw => hb.writeAt (h.trace s hs file here hd hp) hw
    exact s.close_lasting hlasting hbacks
  · exact hbacks

theorem finish_log (settings : Settings) (c : Console) (ending : Session.Ending)
    (hs : settings.saveOnExit = true) :
    (finish arguments settings c ending).1.log = c.save.host.log := by
  obtain ⟨w, hw, -⟩ := conclude_cases arguments settings c.save ending
  unfold finish
  rw [if_pos hs]
  dsimp only
  rw [hw]
  unfold closeTrace
  split <;> rfl

/-- When all is over, the save file holds the RAM. -/
theorem finish_backs {file : String} {place : Place} {settings : Settings} {ending : Session.Ending}
    {e : Cartridge} (hs : settings.saveOnExit = true) (h : c.Kept v cart)
    (he : c.cartridge = some e) (hf : e.saveTarget = some file) (hl : v.locate file = .ok place)
    (hshot : ∀ path, arguments.screenshot = some path → ¬SamePlace v path file)
    (hlog : ∀ reason, .saveFailed reason ∉ (finish arguments settings c ending).1.log) :
    (finish arguments settings c ending).1.volume.Backs v file { e with dirty := false } := by
  rw [finish_log settings c ending hs] at hlog
  have hsaved := Console.save_cartridge he hlog
  obtain ⟨e', he', hsucceeds, hbacks⟩ := h.save.bus
  obtain rfl := Option.some.inj (hsaved.symm.trans he')
  have htarget : cart.saveTarget = some file := hsucceeds.saveTarget_eq.symm.trans hf
  have hclosed := closed_backs settings ending h.save htarget (hbacks file htarget) hl hshot
  unfold finish
  rw [if_pos hs]
  exact hclosed

/-! ### All of it -/

/-- **Leaving the command loses no RAM.** A run whose settings ask for a save on exit gets as far as
its session. Its save file was absent or could be read before, neither its trace nor its screenshot
goes there, and no save fails. Then, under any policy and however the session ends and whatever
becomes of the screenshot, a cartridge with a battery and RAM finds all of its RAM, as it is at the
end of the session, in the save file. -/
theorem exit_keeps_ram (hp : prepare arguments around host = .ok p)
    (hs : p.settings.saveOnExit = true) (hu : Undisturbed arguments host.volume)
    (clock : Nat → Nat) (steps fuel : Nat)
    (hsaves : ∀ reason,
      .saveFailed reason ∉ (run arguments around host clock steps fuel).host.log) :
    let outcome := run arguments around host clock steps fuel
    ∃ printed final ending d,
      Session.run (limits arguments p.settings) clock (lookOn arguments) steps fuel 0 "" p.console =
        (printed, final, ending) ∧
      outcome.result = (finish arguments p.settings final ending).2 ∧ final.cartridge = some d ∧
      (d.header.hasBattery = true → d.ram.isEmpty = false →
        ∃ bytes, outcome.host.volume.Holds (savePath arguments) bytes ∧
          Cartridge.fitted bytes d.ram.size = d.ram) := by
  intro outcome
  obtain ⟨cart, place, hstart, hl, hbattery⟩ := prepare_kept hp hu
  have hkept := Session.run_invariant (Console.kept_invariant host.volume cart)
    (fun printed _ h => kept_of_look arguments printed h)
    (limits arguments p.settings) clock steps fuel 0 "" hstart
  generalize hsession : Session.run (limits arguments p.settings) clock (lookOn arguments) steps fuel
    0 "" p.console = x at hkept
  obtain ⟨printed, final, ending⟩ := x
  have hrun := run_of_prepared hp clock steps fuel hsession
  obtain ⟨d, hd, hsucceeds, -⟩ := hkept.bus
  refine ⟨printed, final, ending, d, rfl, congrArg Outcome.result hrun, hd, fun hb hram => ?_⟩
  have hpath : d.savePath = some (savePath arguments) :=
    hsucceeds.savePath_eq.trans (hbattery (hsucceeds.header_eq ▸ hb))
  have htarget := Cartridge.saveTarget_eq_some.2 ⟨hb, hram, hpath⟩
  have hhost : outcome.host = (finish arguments p.settings final ending).1 :=
    congrArg Outcome.host hrun
  have hlog : ∀ reason, .saveFailed reason ∉ (finish arguments p.settings final ending).1.log :=
    fun reason => hhost ▸ hsaves reason
  obtain ⟨bytes, hholds, hclean⟩ :=
    (finish_backs hs hkept hd htarget hl hu.screenshot hlog).holds
  rw [← hhost] at hholds
  exact ⟨bytes, hholds, hclean rfl⟩

/-- The smallest image of a cartridge with a battery and RAM whose program stores a byte in it and
goes on to a hole among the opcodes. -/
def progressImage : ByteArray :=
  ⟨⟨List.replicate 0x100 0 ++
    [0x3E, 0x0A, 0xEA, 0x00, 0x00, 0x3E, 0x55, 0xEA, 0x00, 0xA0, 0xD3] ++
    List.replicate 0x3C 0 ++ [3, 0, 2, 0, 0, 0, 0xE2, 0, 0]⟩⟩

/-- A working directory with the image, and settings that ask for no save but the one on exit. -/
def progressHost : Host :=
  .ofVolume ((Volume.empty.put ["game.gb"] (.file progressImage)).put ["manual.toml"]
    (.file "save_policy = \"manual\"\n".toUTF8))

/-- To run the image with these settings. -/
def progressArguments : Arguments :=
  { rom := "game.gb", frames := none, cycles := none, seconds := none, realtime := false
    serial := false, screenshot := none, trace := none, settings := some "manual.toml", hold := [] }

/-- What this run leaves behind. Its first frame ends in a fault after five steps. -/
def progressOutcome : Outcome :=
  run progressArguments ⟨none, none⟩ progressHost (fun _ => 0) 5 1

/-- The byte is stored in the frame that ends in a fault, and is found in the save file. -/
theorem exit_keeps_progress :
    progressOutcome.result = .failed (.fault (.unusedOpcode 0xD3 0x10A)) ∧
      ∃ p printed final ending d bytes,
        prepare progressArguments ⟨none, none⟩ progressHost = .ok p ∧
        p.settings.savePolicy = .manual ∧
        Session.run (limits progressArguments p.settings) (fun _ => 0) (lookOn progressArguments)
          5 1 0 "" p.console = (printed, final, ending) ∧
        final.cartridge = some d ∧ progressOutcome.host.volume.read "game.sav" = .ok bytes ∧
        bytes.data[0]? = some 0x55 ∧ Cartridge.fitted bytes d.ram.size = d.ram := by
  have hprepared : (prepare progressArguments ⟨none, none⟩ progressHost).toOption.any (fun p =>
      p.settings.saveOnExit = true ∧ p.settings.savePolicy = .manual ∧
        (Session.run (limits progressArguments p.settings) (fun _ => 0) (lookOn progressArguments)
          5 1 0 "" p.console).2.1.cartridge.any fun d =>
            d.header.hasBattery = true ∧ d.ram.isEmpty = false) = true := by
    decide +kernel
  have hrun : progressOutcome.result = .failed (.fault (.unusedOpcode 0xD3 0x10A)) ∧
      progressOutcome.host.log.toList.all (fun e => e.level ≠ .warn) = true ∧
      (progressOutcome.host.volume.read "game.sav").toOption.any (·.data[0]? = some 0x55) = true := by
    decide +kernel
  have hpath : savePath progressArguments = "game.sav" := by decide +kernel
  have hundisturbed : Undisturbed progressArguments progressHost.volume := by
    refine ⟨⟨.empty, .inr ⟨?_, rfl⟩⟩, nofun, nofun⟩
    rw [hpath, Volume.read, Volume.locate_name Cartridge.isName_game.2]
    rfl
  unfold progressOutcome at hrun ⊢
  obtain ⟨hresult, hlog, hread⟩ := hrun
  have hsaves (reason : FileError) : .saveFailed reason ∉
      (run progressArguments ⟨none, none⟩ progressHost (fun _ => 0) 5 1).host.log := by
    intro hmem
    have hlevel := List.all_eq_true.1 hlog _ hmem.val
    exact absurd rfl (of_decide_eq_true hlevel)
  cases hp : prepare progressArguments ⟨none, none⟩ progressHost with
  | error e =>
    rw [hp] at hprepared
    cases hprepared
  | ok p =>
    rw [hp] at hprepared
    obtain ⟨hs, hpolicy, hcartridge⟩ := of_decide_eq_true hprepared
    obtain ⟨printed, final, ending, d, hsession, -, hd, hkept⟩ :=
      exit_keeps_ram hp hs hundisturbed (fun _ => 0) 5 1 hsaves
    rw [hsession, hd] at hcartridge
    obtain ⟨hbattery, hram⟩ := of_decide_eq_true hcartridge
    obtain ⟨bytes, hholds, hfitted⟩ := hkept hbattery hram
    rw [hpath] at hholds
    obtain hfile | ⟨habsent, -⟩ := hholds
    · rw [hfile] at hread
      exact ⟨hresult, p, printed, final, ending, d, bytes, rfl, hpolicy, hsession, hd, hfile,
        of_decide_eq_true hread, hfitted⟩
    · rw [habsent] at hread
      cases hread

end Command

end DotMatrix
