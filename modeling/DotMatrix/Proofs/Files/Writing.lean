import DotMatrix.Files.Volume

/-!
# Reading after writing

Writing a file changes what is at one place, and puts nothing there but a file. Every other path
leads where it led before, because a path only goes through directories.

* `write_cases`, `writeAt_cases`: all that a write that succeeds can do;
* `read_of_write`: what was written is read;
* `read_put_of_ne`, `read_overwrite`: what other paths read;
* `Accepts`: nothing in the volume stands against writing a file, which the next write does not
  change;
* `SameWays`: paths that lead somewhere lead there in either volume, as they do before and after any
  write.
-/

namespace DotMatrix.Volume

variable {v v' : Volume} {place here target : Place} {path : String} {bytes old : ByteArray}
  {e : Entry} {steps : List String}

/-! ### Places -/

/-- A place for a file: there is one, or there is nothing. -/
def IsFree (v : Volume) (place : Place) : Prop :=
  v.at? place = none ∨ ∃ old, v.at? place = some (.file old)

theorem IsFree.ne_directory (h : v.IsFree place) : v.at? place ≠ some .directory := by
  obtain h | ⟨old, h⟩ := h <;> rw [h] <;> nofun

theorem at?_eq_lookup (h : v.at? place ≠ some .directory) (w : Volume) :
    w.at? place = w.entries.lookup place := by
  unfold at? at h ⊢
  split at h
  · exact absurd rfl h
  · rename_i hplace
    rw [if_neg hplace]

theorem at?_put_self (h : v.at? place ≠ some .directory) (e : Entry) :
    (v.put place e).at? place = some e := by
  rw [at?_eq_lookup h]
  exact Association.lookup_put_self _ _ _

theorem at?_put_of_ne {other : Place} (h : other ≠ place) (e : Entry) :
    (v.put place e).at? other = v.at? other := by
  unfold at? put
  rw [Association.lookup_put_of_ne _ _ h]

theorem put_put (v : Volume) (place : Place) (e e' : Entry) :
    (v.put place e).put place e' = v.put place e' :=
  congrArg Volume.mk (Association.put_put _ _ _ _)

/-! ### Paths -/

/-- Where a step from a directory leads. -/
def advance (here : Place) (step : String) : Place :=
  if step = "." then here
  else if step = ".." then
    if isUpward here then here ++ [step] else if here = root then here else here.dropLast
  else here ++ [step]

theorem walk_cons_of_directory (h : v.at? here = some .directory) (step : String) :
    v.walk here (step :: steps) = v.walk (advance here step) steps := by
  unfold advance
  rw [walk, h]
  dsimp only
  split
  · rfl
  split
  · split
    · rfl
    split <;> rfl
  · rfl

theorem directory_of_walk_cons {step : String} (h : v.walk here (step :: steps) = .ok target) :
    v.at? here = some .directory := by
  unfold walk at h
  split at h
  · cases h
  · cases h
  · cases h
  · assumption

/-- A walk that arrives has gone through directories only, so nothing that is put elsewhere turns
it away. -/
theorem walk_put (h : v.at? place ≠ some .directory) (hw : v.walk here steps = .ok target) :
    (v.put place e).walk here steps = .ok target := by
  induction steps generalizing here with
  | nil => exact hw
  | cons step rest ih =>
    have hhere := directory_of_walk_cons hw
    have hne : here ≠ place := fun he => h (he ▸ hhere)
    have hhere' : (v.put place e).at? here = some .directory := (at?_put_of_ne hne e).trans hhere
    rw [walk_cons_of_directory hhere] at hw
    rw [walk_cons_of_directory hhere']
    exact ih hw

/-- Other contents of a file turn no walk away, and let none through. -/
theorem walk_overwrite (h : v.at? place = some (.file old)) :
    (v.put place (.file bytes)).walk here steps = v.walk here steps := by
  have hplace : v.at? place ≠ some .directory := IsFree.ne_directory (.inr ⟨old, h⟩)
  induction steps generalizing here with
  | nil => rfl
  | cons step rest ih =>
    by_cases hne : here = place
    · rw [walk, walk, hne, at?_put_self hplace, h]
    by_cases hhere : v.at? here = some .directory
    · have hhere' := (at?_put_of_ne hne (.file bytes)).trans hhere
      rw [walk_cons_of_directory hhere, walk_cons_of_directory hhere', ih]
    · rw [walk, walk, at?_put_of_ne hne]
      split
      · rfl
      · rfl
      · rfl
      · contradiction

theorem locate_put (h : v.at? place ≠ some .directory) (hl : v.locate path = .ok target) :
    (v.put place e).locate path = .ok target := by
  unfold locate at hl ⊢
  split at hl
  · cases hl
  · rename_i hpath
    rw [if_neg hpath]
    exact walk_put h hl

theorem locate_overwrite (h : v.at? place = some (.file old)) :
    (v.put place (.file bytes)).locate path = v.locate path := by
  unfold locate
  split
  · rfl
  · exact walk_overwrite h

/-- Is the text the name of something in a directory, and as a path leads there? -/
structure IsName (name : String) : Prop where
  parts_eq : Path.parts name = [name]
  relative : Path.isAbsolute name = false
  plain : Path.isDirectory name = false
  nonempty : name.isEmpty = false
  ne_dot : name ≠ "."
  ne_dots : name ≠ ".."

/-- A name leads to a place in the working directory. -/
theorem locate_name {name : String} (h : IsName name) (v : Volume) : v.locate name = .ok [name] := by
  have hhere : v.at? [] = some .directory := rfl
  rw [locate, h.nonempty, h.relative, h.parts_eq]
  show v.walk [] [name] = .ok [name]
  rw [walk_cons_of_directory hhere, advance, if_neg h.ne_dot, if_neg h.ne_dots]
  rfl

/-! ### Reading -/

/-- What can be read: a file, and nothing from the full device. -/
theorem read_cases (h : v.read path = .ok bytes) :
    ∃ place, v.locate path = .ok place ∧
      ((v.at? place = some (.file bytes) ∧ Path.isDirectory path = false) ∨
        (v.at? place = some .fullDevice ∧ bytes = .empty)) := by
  unfold read at h
  split at h
  · cases h
  · rename_i place hl
    refine ⟨place, hl, ?_⟩
    split at h
    · cases h
    · cases h
    · rename_i hdevice
      exact .inr ⟨hdevice, (Except.ok.inj h).symm⟩
    · rename_i old hfile
      split at h
      · cases h
      · rename_i hd
        obtain rfl := Except.ok.inj h
        exact .inl ⟨hfile, Bool.eq_false_iff.2 hd⟩

theorem read_put_self (hl : v.locate path = .ok place) (hf : v.IsFree place)
    (hd : Path.isDirectory path = false) : (v.put place (.file bytes)).read path = .ok bytes := by
  unfold read
  rw [locate_put hf.ne_directory hl]
  dsimp only
  rw [at?_put_self hf.ne_directory]
  dsimp only
  rw [hd]
  rfl

theorem read_put_of_ne (h : v.at? place ≠ some .directory) (hl : v.locate path = .ok target)
    (hne : target ≠ place) : (v.put place e).read path = v.read path := by
  unfold read
  rw [locate_put h hl, hl]
  dsimp only
  rw [at?_put_of_ne hne]

theorem read_overwrite (h : v.at? place = some (.file old)) (hl : v.locate path ≠ .ok place) :
    (v.put place (.file bytes)).read path = v.read path := by
  unfold read
  rw [locate_overwrite h]
  cases hpath : v.locate path with
  | error e => rfl
  | ok target =>
    have hne : target ≠ place := fun he => hl (he ▸ hpath)
    dsimp only
    rw [at?_put_of_ne hne]

/-! ### Writing -/

theorem overlay_empty (bytes : ByteArray) : overlay .empty 0 bytes = bytes := by
  apply ByteArray.ext
  simp [overlay]

theorem write_eq_put (hl : v.locate path = .ok place) (hd : Path.isDirectory path = false)
    (hf : v.IsFree place) : v.write path bytes = .ok (v.put place (.file bytes)) := by
  have hcreate : v.create path = .ok (v.put place (.file .empty), place) := by
    unfold create
    rw [hl, hd]
    obtain hnone | ⟨old, hold⟩ := hf
    · simp only [hnone]
      rfl
    · simp only [hold]
      rfl
  have hempty := at?_put_self hf.ne_directory (.file .empty)
  rw [write, hcreate]
  dsimp only
  rw [writeAt, hempty]
  dsimp only
  rw [overlay_empty, put_put]

/-- A write that succeeds puts a file at the place of its path. Only the full device is left as it
is, by a write of no bytes. -/
theorem write_cases (h : v.write path bytes = .ok v') :
    ∃ place, v.locate path = .ok place ∧ Path.isDirectory path = false ∧
      ((v.IsFree place ∧ v' = v.put place (.file bytes)) ∨
        (v.at? place = some .fullDevice ∧ bytes = .empty ∧ v' = v)) := by
  cases hl : v.locate path with
  | error e =>
    rw [write, create, hl] at h
    cases h
  | ok place =>
    cases hd : Path.isDirectory path with
    | true =>
      rw [write, create, hl, hd] at h
      cases h
    | false =>
      refine ⟨place, rfl, rfl, ?_⟩
      by_cases hf : v.IsFree place
      · rw [write_eq_put hl hd hf] at h
        exact .inl ⟨hf, (Except.ok.inj h).symm⟩
      right
      cases hplace : v.at? place with
      | none => exact absurd (.inl hplace) hf
      | some entry =>
        cases entry with
        | file old => exact absurd (.inr ⟨old, hplace⟩) hf
        | directory =>
          simp [write, create, hl, hd, hplace] at h
        | fullDevice =>
          have hcreate : v.create path = .ok (v, place) := by simp [create, hl, hd, hplace]
          rw [write, hcreate] at h
          dsimp only at h
          rw [writeAt, hplace] at h
          dsimp only at h
          split at h
          · rename_i hempty
            exact ⟨rfl, ByteArray.size_eq_zero_iff.1 (eq_of_beq hempty), (Except.ok.inj h).symm⟩
          · cases h

theorem writeAt_cases {offset : Nat} (h : v.writeAt place offset bytes = .ok v') :
    v' = v ∨ ∃ old new, v.at? place = some (.file old) ∧ v' = v.put place (.file new) := by
  unfold writeAt at h
  split at h
  · cases h
  · cases h
  · split at h
    · exact .inl (Except.ok.inj h).symm
    · cases h
  · rename_i old hold
    exact .inr ⟨old, _, hold, (Except.ok.inj h).symm⟩

theorem read_of_write (h : v.write path bytes = .ok v') : v'.read path = .ok bytes := by
  obtain ⟨place, hl, hd, ⟨hf, rfl⟩ | ⟨hdev, rfl, rfl⟩⟩ := write_cases h
  · exact read_put_self hl hf hd
  · unfold read
    rw [hl]
    dsimp only
    rw [hdev]

/-! ### Files that can be written -/

/-- Nothing in the volume stands against writing the file. -/
def Accepts (v : Volume) (path : String) : Prop := ∀ bytes, ∃ v', v.write path bytes = .ok v'

theorem accepts_iff : v.Accepts path ↔
    ∃ place, v.locate path = .ok place ∧ Path.isDirectory path = false ∧ v.IsFree place := by
  constructor
  · intro h
    -- A byte is more than the full device takes.
    obtain ⟨v', hv⟩ := h ⟨#[0]⟩
    obtain ⟨place, hl, hd, ⟨hf, -⟩ | ⟨-, hempty, -⟩⟩ := write_cases hv
    · exact ⟨place, hl, hd, hf⟩
    · cases hempty
  · rintro ⟨place, hl, hd, hf⟩ bytes
    exact ⟨_, write_eq_put hl hd hf⟩

theorem accepts_name {name : String} (h : IsName name) (hf : v.IsFree [name]) : v.Accepts name :=
  accepts_iff.2 ⟨[name], locate_name h v, h.plain, hf⟩

theorem Accepts.write (h : v.Accepts path) (hw : v.write path bytes = .ok v') :
    v'.Accepts path := by
  obtain ⟨place, hl, hd, hf⟩ := accepts_iff.1 h
  rw [write_eq_put hl hd hf] at hw
  obtain rfl := Except.ok.inj hw
  exact accepts_iff.2 ⟨place, locate_put hf.ne_directory hl, hd,
    .inr ⟨bytes, at?_put_self hf.ne_directory _⟩⟩

theorem Accepts.writeAt {offset : Nat} (h : v.Accepts path)
    (hw : v.writeAt place offset bytes = .ok v') : v'.Accepts path := by
  obtain rfl | ⟨old, new, hold, rfl⟩ := writeAt_cases hw
  · exact h
  obtain ⟨target, hl, hd, hf⟩ := accepts_iff.1 h
  refine accepts_iff.2 ⟨target, (locate_overwrite hold).trans hl, hd, ?_⟩
  by_cases hne : target = place
  · exact .inr ⟨new, hne ▸ at?_put_self (IsFree.ne_directory (.inr ⟨old, hold⟩)) _⟩
  · unfold IsFree
    rw [at?_put_of_ne hne]
    exact hf

/-! ### Where paths lead -/

/-- Every path that leads somewhere in one of the volumes leads there in the other too. -/
def SameWays (v w : Volume) : Prop :=
  ∀ path place, w.locate path = .ok place ↔ v.locate path = .ok place

theorem SameWays.refl (v : Volume) : SameWays v v := fun _ _ => Iff.rfl

theorem SameWays.trans {w : Volume} (h : SameWays v v') (h' : SameWays v' w) : SameWays v w :=
  fun path place => (h' path place).trans (h path place)

/-- A file that is put somewhere lets no walk through. -/
theorem walk_of_put (h : v.at? place ≠ some .directory) (he : e ≠ .directory)
    (hw : (v.put place e).walk here steps = .ok target) : v.walk here steps = .ok target := by
  induction steps generalizing here with
  | nil => exact hw
  | cons step rest ih =>
    have hhere' := directory_of_walk_cons hw
    have hne : here ≠ place := by
      rintro rfl
      rw [at?_put_self h] at hhere'
      exact he (Option.some.inj hhere')
    have hhere : v.at? here = some .directory := (at?_put_of_ne hne e).symm.trans hhere'
    rw [walk_cons_of_directory hhere'] at hw
    rw [walk_cons_of_directory hhere]
    exact ih hw

theorem sameWays_put (h : v.at? place ≠ some .directory) (bytes : ByteArray) :
    SameWays v (v.put place (.file bytes)) := by
  intro path target
  refine ⟨fun hl => ?_, locate_put h⟩
  unfold locate at hl ⊢
  split at hl
  · cases hl
  · rename_i hpath
    rw [if_neg hpath]
    exact walk_of_put h (by nofun) hl

theorem sameWays_write (hw : v.write path bytes = .ok v') : SameWays v v' := by
  obtain ⟨place, -, -, ⟨hf, rfl⟩ | ⟨-, -, rfl⟩⟩ := write_cases hw
  · exact sameWays_put hf.ne_directory bytes
  · exact .refl v'

theorem sameWays_writeAt {offset : Nat} (hw : v.writeAt place offset bytes = .ok v') :
    SameWays v v' := by
  obtain rfl | ⟨old, new, hold, rfl⟩ := writeAt_cases hw
  · exact .refl v'
  · exact sameWays_put (IsFree.ne_directory (.inr ⟨old, hold⟩)) new

/-- Writing a file leaves all others. -/
theorem read_of_write_elsewhere {other : String} (hw : v.write path bytes = .ok v')
    (hl : v.locate other = .ok target) (hne : v.locate path ≠ .ok target) :
    v'.read other = v.read other := by
  obtain ⟨place, hplace, -, ⟨hf, rfl⟩ | ⟨-, -, rfl⟩⟩ := write_cases hw
  · refine read_put_of_ne hf.ne_directory hl ?_
    rintro rfl
    exact hne hplace
  · rfl

/-- To create a file is to write nothing into it. -/
theorem write_empty_of_create (h : v.create path = .ok (v', place)) :
    v.locate path = .ok place ∧ v.write path .empty = .ok v' := by
  rw [write, h]
  unfold create at h
  split at h
  · cases h
  · rename_i here hl
    have hput {w : Volume} (hf : w.IsFree here) :
        (w.put here (.file .empty)).writeAt here 0 .empty = .ok (w.put here (.file .empty)) := by
      rw [writeAt, at?_put_self hf.ne_directory]
      dsimp only
      rw [overlay_empty, put_put]
    split at h
    · cases h
    · split at h
      · cases h
      · rename_i hdevice
        cases h
        refine ⟨hl, ?_⟩
        dsimp only
        rw [writeAt, hdevice]
        rfl
      · rename_i old hold
        cases h
        exact ⟨hl, hput (.inr ⟨old, hold⟩)⟩
      · rename_i hnone
        cases h
        exact ⟨hl, hput (.inl hnone)⟩

end DotMatrix.Volume
