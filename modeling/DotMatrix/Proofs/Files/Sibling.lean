import DotMatrix.Proofs.Files.Writing
import Mathlib.Data.List.TakeWhile

/-!
# Files in one directory

A path is a directory and a name. Changing the extension changes the name and keeps the directory, so
it leads to another place in the same directory, unless the name had that extension already.

* `Path.directoryPart`, `Path.lastPart`: the two halves of a path;
* `Path.parts_append`: the parts of a path are those of its directory, and its name;
* `Volume.locate_sibling`: a path to a file leads to its name in some directory, and other names in
  that directory are reached in the same way;
* `Volume.locate_withExtension`: where a change of extension leads.
-/

namespace DotMatrix

/-! ### Pieces -/

namespace Text

variable {separator : Char}

theorem pieces_of_not_mem {s : List Char} (h : separator ∉ s) : pieces separator s = [s] := by
  induction s with
  | nil => rfl
  | cons c rest ih =>
    have hc : c ≠ separator := fun hc => h (hc ▸ List.mem_cons_self)
    have hrest : separator ∉ rest := fun hr => h (List.mem_cons_of_mem c hr)
    rw [pieces, if_neg hc, ih hrest]

theorem pieces_append (a b : List Char) :
    pieces separator (a ++ separator :: b) = pieces separator a ++ pieces separator b := by
  induction a with
  | nil => simp [pieces]
  | cons c rest ih =>
    rw [List.cons_append, pieces, pieces, ih]
    split
    · rfl
    · cases h : pieces separator rest with
      | nil => exact absurd h (pieces_ne_nil separator rest)
      | cons piece more => rfl

end Text

/-! ### Directory and name -/

namespace Path

/-- What stands before the name in a path, with the last slash. -/
def directoryPart (path : String) : List Char :=
  (path.toList.reverse.dropWhile (· != '/')).reverse

/-- The name in a path: what stands after the last slash. -/
def lastPart (path : String) : List Char := (path.toList.reverse.takeWhile (· != '/')).reverse

/-- Is the text what can stand before a name? -/
def IsStart (directory : List Char) : Prop := directory = [] ∨ ∃ d, directory = d ++ ['/']

theorem directoryPart_append_lastPart (path : String) :
    directoryPart path ++ lastPart path = path.toList := by
  rw [directoryPart, lastPart, ← List.reverse_append, List.takeWhile_append_dropWhile,
    List.reverse_reverse]

theorem isStart_directoryPart (path : String) : IsStart (directoryPart path) := by
  unfold directoryPart IsStart
  cases h : path.toList.reverse.dropWhile (· != '/') with
  | nil => exact .inl rfl
  | cons c rest =>
    have hc : c = '/' := by
      have hhead := List.head?_dropWhile_not (· != '/') path.toList.reverse
      rw [h] at hhead
      simpa using hhead
    exact .inr ⟨rest.reverse, by rw [List.reverse_cons, hc]⟩

theorem slash_not_mem_lastPart (path : String) : '/' ∉ lastPart path := by
  intro h
  have hmem := List.mem_takeWhile_imp (List.mem_reverse.1 h)
  simp at hmem

theorem withExtension_eq (path extension : String) :
    withExtension path extension =
      String.ofList (directoryPart path ++ (stem (lastPart path) ++ '.' :: extension.toList)) := by
  have hlength : path.length - (lastPart path).length = (directoryPart path).length := by
    have happend := congrArg List.length (directoryPart_append_lastPart path)
    rw [List.length_append] at happend
    rw [← String.length_toList]
    omega
  have hdirectory : path.toList.take (path.length - (lastPart path).length) = directoryPart path := by
    rw [hlength, ← directoryPart_append_lastPart, List.take_left]
  apply String.toList_inj.1
  show (String.ofList (path.toList.take (path.length - (lastPart path).length) ++
    stem (lastPart path)) ++ "." ++ extension).toList = _
  rw [hdirectory]
  simp

/-- A stem is made of the characters of the name. -/
theorem mem_of_mem_stem {c : Char} {name : List Char} (h : c ∈ stem name) : c ∈ name := by
  unfold stem at h
  split at h
  · exact h
  · rename_i before hbefore
    have hmem : c ∈ name.reverse.dropWhile (· != '.') := by
      rw [hbefore]
      exact List.mem_cons_of_mem _ (List.mem_reverse.1 h)
    exact List.mem_reverse.1 ((List.dropWhile_sublist _).mem hmem)
  · exact h

theorem parts_append {directory name : List Char} (hd : IsStart directory) (hn : '/' ∉ name)
    (hne : name ≠ []) : parts (String.ofList (directory ++ name)) =
      parts (String.ofList directory) ++ [String.ofList name] := by
  unfold parts
  rw [String.toList_ofList, String.toList_ofList]
  obtain rfl | ⟨d, rfl⟩ := hd
  · rw [List.nil_append, Text.pieces_of_not_mem hn]
    simp [Text.pieces, hne]
  · rw [List.append_assoc, List.singleton_append, Text.pieces_append, Text.pieces_append,
      Text.pieces_of_not_mem hn]
    simp [Text.pieces, hne]

theorem isAbsolute_append {directory name : List Char} (hn : '/' ∉ name) :
    isAbsolute (String.ofList (directory ++ name)) = isAbsolute (String.ofList directory) := by
  unfold isAbsolute
  rw [String.toList_ofList, String.toList_ofList]
  cases directory with
  | nil =>
    cases name with
    | nil => rfl
    | cons c rest =>
      have hc : c ≠ '/' := fun hc => hn (hc ▸ List.mem_cons_self)
      simpa using hc
  | cons c rest => rfl

end Path

/-! ### Walks -/

namespace Volume

variable {v : Volume} {here target : Place} {steps : List String}

theorem walk_append (v : Volume) (here : Place) (xs ys : List String) :
    v.walk here (xs ++ ys) = (v.walk here xs).bind fun place => v.walk place ys := by
  induction xs generalizing here with
  | nil => rfl
  | cons step rest ih =>
    by_cases hhere : v.at? here = some .directory
    · rw [List.cons_append, walk_cons_of_directory hhere, walk_cons_of_directory hhere, ih]
    · rw [List.cons_append, walk, walk]
      split
      · rfl
      · rfl
      · rfl
      · contradiction

/-- Everything above the place is a directory. -/
def Grounded (v : Volume) (place : Place) : Prop :=
  ∀ above, above <+: place → above ≠ place → v.at? above = some .directory

theorem Grounded.dropLast (h : v.Grounded here) : v.Grounded here.dropLast := by
  intro above habove hne
  refine h above (habove.trans (List.dropLast_prefix here)) ?_
  rintro rfl
  -- A list is not a part of what is left of it, unless it is empty.
  have hlength := habove.length_le
  rw [List.length_dropLast] at hlength
  have hempty : above = [] := List.length_eq_zero_iff.1 (by omega)
  rw [hempty] at hne
  exact hne rfl

theorem Grounded.append {step : String} (h : v.Grounded here) (hhere : v.at? here = some .directory) :
    v.Grounded (here ++ [step]) := by
  intro above habove hne
  obtain heq | habove := List.prefix_concat_iff.1 habove
  · exact absurd heq hne
  · by_cases heq : above = here
    · rw [heq]
      exact hhere
    · exact h above habove heq

theorem Grounded.advance {step : String} (h : v.Grounded here)
    (hhere : v.at? here = some .directory) : v.Grounded (advance here step) := by
  unfold Volume.advance
  split
  · exact h
  split
  · split
    · exact h.append hhere
    split
    · exact h
    · exact h.dropLast
  · exact h.append hhere

/-- Wherever a walk leads, everything above is a directory. -/
theorem Grounded.walk (h : v.Grounded here) (hw : v.walk here steps = .ok target) :
    v.Grounded target := by
  induction steps generalizing here with
  | nil =>
    obtain rfl := Except.ok.inj hw
    exact h
  | cons step rest ih =>
    have hhere := directory_of_walk_cons hw
    rw [walk_cons_of_directory hhere] at hw
    exact ih (h.advance hhere) hw

theorem grounded_start (v : Volume) (absolute : Bool) :
    v.Grounded (if absolute then root else []) := by
  intro above habove hne
  have hnil : above = [] := by
    cases absolute with
    | false => exact List.prefix_nil.1 habove
    | true =>
      obtain heq | habove := List.prefix_concat_iff.1 (show above <+: [] ++ ["/"] from habove)
      · exact absurd heq hne
      · exact List.prefix_nil.1 habove
  rw [hnil]
  rfl

theorem advance_name {name : String} (h : name ≠ ".") (h' : name ≠ "..") :
    advance here name = here ++ [name] := by
  rw [advance, if_neg h, if_neg h']

/-- The last step to anything but a directory is a name. -/
theorem advance_eq_of_ne_directory {name : String} (h : v.Grounded here)
    (hhere : v.at? here = some .directory) (ht : v.at? (advance here name) ≠ some .directory) :
    advance here name = here ++ [name] := by
  by_cases hdot : name = "."
  · rw [advance, if_pos hdot] at ht
    exact absurd hhere ht
  by_cases hdots : name = ".."
  · exfalso
    rw [advance, if_neg hdot, if_pos hdots] at ht
    split at ht
    · rename_i hup
      have hup' : isUpward (here ++ [name]) = true := by
        unfold isUpward at hup ⊢
        rw [List.all_append, hup, hdots]
        rfl
      refine ht ?_
      rw [at?, hup']
      rfl
    rename_i hup
    split at ht
    · exact ht hhere
    · refine ht (h _ (List.dropLast_prefix here) fun heq => hup ?_)
      have hlength := congrArg List.length heq
      rw [List.length_dropLast] at hlength
      have hnil : here = [] := List.length_eq_zero_iff.1 (by omega)
      rw [hnil]
      rfl
  · exact advance_name hdot hdots

/-! ### Siblings -/

/-- Where a path leads that is put together from a directory and a name. -/
theorem locate_append {directory name : List Char} (hd : Path.IsStart directory) (hn : '/' ∉ name)
    (hne : name ≠ []) : v.locate (String.ofList (directory ++ name)) =
      (v.walk (if Path.isAbsolute (String.ofList directory) then root else [])
        (Path.parts (String.ofList directory))).bind fun place => v.walk place [String.ofList name] := by
  have hempty : (String.ofList (directory ++ name)).isEmpty = false := by
    rw [Bool.eq_false_iff]
    intro h
    have happend := congrArg String.toList (String.isEmpty_iff.1 h)
    rw [String.toList_ofList] at happend
    exact hne (List.append_eq_nil_iff.1 happend).2
  rw [locate, hempty, Path.parts_append hd hn hne, Path.isAbsolute_append hn, ← walk_append]
  rfl

/-- A path to a file leads to its name in some directory, and in that directory other names lead to
other places. -/
theorem locate_sibling {directory name : List Char} (hd : Path.IsStart directory) (hn : '/' ∉ name)
    (hne : name ≠ []) (hl : v.locate (String.ofList (directory ++ name)) = .ok target)
    (ht : v.at? target ≠ some .directory) :
    ∃ place, target = place ++ [String.ofList name] ∧
      ∀ other, '/' ∉ other → 2 < other.length →
        v.locate (String.ofList (directory ++ other)) = .ok (place ++ [String.ofList other]) := by
  rw [locate_append hd hn hne] at hl
  cases hw : v.walk (if Path.isAbsolute (String.ofList directory) then root else [])
      (Path.parts (String.ofList directory)) with
  | error e =>
    rw [hw] at hl
    cases hl
  | ok place =>
    rw [hw] at hl
    replace hl : v.walk place [String.ofList name] = .ok target := hl
    have hplace := directory_of_walk_cons hl
    rw [walk_cons_of_directory hplace] at hl
    obtain rfl := Except.ok.inj hl
    have hgrounded := (v.grounded_start _).walk hw
    refine ⟨place, advance_eq_of_ne_directory hgrounded hplace ht, fun other ho hlong => ?_⟩
    have hother : other ≠ [] := fun h => by simp [h] at hlong
    have hshort {short : String} (h : short.toList.length ≤ 2) : String.ofList other ≠ short := by
      rintro rfl
      rw [String.toList_ofList] at h
      omega
    rw [locate_append hd ho hother, hw]
    show v.walk place [String.ofList other] = _
    rw [walk_cons_of_directory hplace, advance_name (hshort (by decide)) (hshort (by decide))]
    rfl

theorem lastPart_ne_nil {path : String} (hl : v.locate path = .ok target)
    (hd : Path.isDirectory path = false) : Path.lastPart path ≠ [] := by
  intro hnil
  have happend := Path.directoryPart_append_lastPart path
  rw [hnil, List.append_nil] at happend
  obtain hstart | ⟨d, hstart⟩ := Path.isStart_directoryPart path <;> rw [hstart] at happend
  · have hempty : path = "" := String.toList_inj.1 happend.symm
    rw [hempty] at hl
    cases hl
  · rw [Path.isDirectory, ← happend, List.getLast?_concat] at hd
    cases hd

/-- A change of extension leads to another place, unless it changes nothing. -/
theorem locate_withExtension {path extension : String} (hl : v.locate path = .ok target)
    (ht : v.at? target ≠ some .directory) (hd : Path.isDirectory path = false)
    (hslash : '/' ∉ extension.toList) (hlong : 2 ≤ extension.toList.length)
    (hne : Path.withExtension path extension ≠ path) :
    ∃ other, v.locate (Path.withExtension path extension) = .ok other ∧ other ≠ target := by
  have hpath : String.ofList (Path.directoryPart path ++ Path.lastPart path) = path := by
    rw [Path.directoryPart_append_lastPart, String.ofList_toList]
  have hname := Path.slash_not_mem_lastPart path
  rw [Path.withExtension_eq] at hne ⊢
  rw [← hpath] at hl
  obtain ⟨place, rfl, hother⟩ := locate_sibling (Path.isStart_directoryPart path) hname
    (lastPart_ne_nil (hpath ▸ hl) hd) hl ht
  refine ⟨_, hother _ ?_ ?_, fun heq => hne ?_⟩
  · intro hmem
    obtain hmem | hmem := List.mem_append.1 hmem
    · exact hname (Path.mem_of_mem_stem hmem)
    · obtain hdot | hmem := List.mem_cons.1 hmem
      · cases hdot
      · exact hslash hmem
  · rw [List.length_append, List.length_cons]
    omega
  · have hsame := String.ofList_inj.1 (List.singleton_inj.1 (List.append_cancel_left heq))
    rw [hsame, hpath]

end Volume

end DotMatrix
