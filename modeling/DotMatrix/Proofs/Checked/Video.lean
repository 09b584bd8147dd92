import DotMatrix.Proofs.Checked.Scanline
import DotMatrix.Proofs.Video.Schedule

/-!
# The video unit, checked

The counters of the unit are a byte for the line and a word for the dot, and drawing relies on a
scan that was made up to eighty dots before. Between the two a program may change the height of
sprites, rewrite object memory or switch the display off and on.

* `Latched`: what the scan leaves for the drawing: up to ten sprites, and each covers the line that
  is about to be drawn, under the height that the scan looked for;
* `tick?_eq`: a tick of a unit that is on schedule and latched gives a result;
* `Latched.tick`, `Latched.write`: nothing that happens to the unit spoils the latch.
-/

namespace DotMatrix.Video

/-! ### Ticks -/

/-- A dot of the object scan. -/
def tickScan? (v : Video) : Option (Video × Signals) := do
  let v ← if v.dot = 1 then v.scanObjects? else some v
  some (if scanDots ≤ v.dot then ({ v with mode := .transfer }, {}) else (v, {}))

/-- A dot of the transfer. -/
def tickTransfer? (v : Video) : Option (Video × Signals) := do
  let v ← if v.dot = scanDots + 1 then v.drawLine? else some v
  some
    (if transferEnd ≤ v.dot then ({ v with mode := .hblank }, { status := v.selectsHBlank })
    else (v, {}))

/-- A dot of horizontal blank. -/
def tickHBlank? (v : Video) : Option (Video × Signals) :=
  if lineDots ≤ v.dot then do
    let line ← Checked.add 8 v.line 1
    let w := v.startLine line
    some
      (if screenHeight ≤ line then
        ({ w with mode := .vblank, frameReady := true },
          { vblank := true, status := w.coincidenceSignal || w.selectsVBlank })
      else ({ w with mode := .objectScan }, { status := w.coincidenceSignal || w.selectsScan }))
  else some (v, {})

/-- A dot of vertical blank. -/
def tickVBlank? (v : Video) : Option (Video × Signals) :=
  if lineDots ≤ v.dot then do
    let line ← Checked.add 8 v.line 1
    some
      (if frameLines ≤ line then
        let w := startLine { v with windowLine := 0, frames := v.frames + 1, mode := .objectScan } 0
        (w, { status := w.selectsScan || w.coincidenceSignal })
      else
        let w := startLine { v with windowLine := 0 } line
        (w, { status := w.coincidenceSignal }))
  else some ({ v with windowLine := 0 }, {})

/-- One dot. -/
def tick? (v : Video) : Option (Video × Signals) :=
  if v.displayOn then do
    let dot ← Checked.add 16 v.dot 1
    let w := { v with dot }
    match v.mode with
    | .objectScan => w.tickScan?
    | .transfer => w.tickTransfer?
    | .hblank => w.tickHBlank?
    | .vblank => w.tickVBlank?
  else some (v, {})

/-- What the object scan leaves for the drawing of the line. -/
structure Latched (v : Video) : Prop where
  count : v.sprites.length ≤ Sprite.lineLimit
  covers : (v.mode = .objectScan ∧ 0 < v.dot) ∨ v.mode = .transfer →
    ∀ s ∈ v.sprites, s.Covers v.tallSprites v.line

variable {v : Video}

theorem tickScan?_eq (v : Video) : v.tickScan? = some v.tickScan := by
  unfold tickScan? tickScan
  rw [scanObjects?_eq]
  split <;> rfl

theorem tickTransfer?_eq (h : Latched v) (hm : v.mode = .transfer) :
    v.tickTransfer? = some v.tickTransfer := by
  unfold tickTransfer? tickTransfer
  rw [drawLine?_eq h.count (h.covers (.inr hm))]
  split <;> rfl

theorem tickHBlank?_eq (hl : v.line < 154) : v.tickHBlank? = some v.tickHBlank := by
  unfold tickHBlank? tickHBlank
  rw [Checked.add_eq (by omega)]
  split <;> rfl

theorem tickVBlank?_eq (hl : v.line < 154) : v.tickVBlank? = some v.tickVBlank := by
  unfold tickVBlank?
  rw [Checked.add_eq (by omega)]
  split
  · rename_i hend
    refine Eq.trans ?_ (congrArg some (if_pos hend).symm)
    rfl
  · rename_i hend
    exact congrArg some (if_neg hend).symm

/-- **A tick of a unit that is on schedule and latched.** Every index, every sum and every row of a
sprite is what it has to be. -/
theorem tick?_eq (hs : OnSchedule v) (hl : Latched v) : v.tick? = some v.tick := by
  unfold tick?
  cases hon : v.displayOn with
  | false => rw [tick_of_off hon]; rfl
  | true =>
    have hspan := hs.spans hon
    have hline := hspan.line_lt
    have hdot := hspan.dot_lt
    rw [if_pos rfl, Checked.add_eq (by omega), tick_of_on hon]
    show (match v.mode with
      | .objectScan => v.nextDot.tickScan?
      | .transfer => v.nextDot.tickTransfer?
      | .hblank => v.nextDot.tickHBlank?
      | .vblank => v.nextDot.tickVBlank?) = _
    cases hm : v.mode with
    | objectScan => exact tickScan?_eq _
    | transfer => exact tickTransfer?_eq ⟨hl.count, fun _ => hl.covers (.inr hm)⟩ hm
    | hblank => exact tickHBlank?_eq hline
    | vblank => exact tickVBlank?_eq hline

/-! ### The latch -/

theorem powerOn_latched : Latched powerOn where
  count := Nat.zero_le _
  covers := by simp [powerOn]

/-- Outside scan and transfer there is nothing to draw, and at the beginning of a line nothing yet. -/
theorem Latched.idle {w : Video} (h : Latched v) (hs : w.sprites = v.sprites)
    (hm : w.mode = .hblank ∨ w.mode = .vblank ∨ w.mode = .objectScan ∧ w.dot = 0) : Latched w where
  count := hs ▸ h.count
  covers := by
    rintro (⟨hscan, hdot⟩ | htransfer)
    · rcases hm with hm | hm | ⟨-, hm⟩
      · exact absurd (hm.symm.trans hscan) (by decide)
      · exact absurd (hm.symm.trans hscan) (by decide)
      · omega
    · rcases hm with hm | hm | ⟨hm, -⟩ <;> exact absurd (hm.symm.trans htransfer) (by decide)

/-- A change that does not concern what was latched. -/
theorem Latched.congr {w : Video} (h : Latched v) (hs : w.sprites = v.sprites)
    (ht : w.tallSprites = v.tallSprites) (hl : w.line = v.line)
    (hm : w.mode = .objectScan ∧ 0 < w.dot ∨ w.mode = .transfer →
      v.mode = .objectScan ∧ 0 < v.dot ∨ v.mode = .transfer) : Latched w where
  count := hs ▸ h.count
  covers hw := by
    rw [hs, ht, hl]
    exact h.covers (hm hw)

/-- The scan latches sprites that cover the line. -/
theorem scanObjects_latched (v : Video) : Latched v.scanObjects := by
  have hperm := Sprite.drawOrder_perm (Sprite.onLine v.objects v.spritesTall v.line)
  refine ⟨?_, fun _ s hs => ?_⟩
  · rw [show v.scanObjects.sprites.length = _ from hperm.length_eq]
    exact List.length_take_le _ _
  · have hmem : s ∈ Sprite.onLine v.objects v.spritesTall v.line := hperm.mem_iff.1 hs
    exact of_decide_eq_true (List.mem_filter.1 (List.mem_of_mem_take hmem)).2

theorem Latched.tickScan (h : Latched v) (hm : v.mode = .objectScan) :
    Latched v.nextDot.tickScan.1 := by
  rcases Nat.lt_or_ge (v.dot + 1) scanDots with hd | hd
  · rw [tickScan_of_lt hd]
    split
    · exact scanObjects_latched _
    · -- The scan was made at the first dot of this line, and the line has not changed since.
      rename_i hne
      have hpos : 0 < v.dot := Nat.pos_of_ne_zero fun h0 => hne (congrArg (· + 1) h0)
      exact h.congr rfl rfl rfl fun _ => .inl ⟨hm, hpos⟩
  · rw [tickScan_of_le hd]
    have hpos : 0 < v.dot := by
      unfold scanDots at hd
      omega
    exact h.congr rfl rfl rfl fun _ => .inl ⟨hm, hpos⟩

theorem Latched.tickTransfer (h : Latched v) (hm : v.mode = .transfer) :
    Latched v.nextDot.tickTransfer.1 := by
  rcases Nat.lt_or_ge (v.dot + 1) transferEnd with hd | hd
  · rw [tickTransfer_of_lt hd]
    split
    · obtain ⟨picture, windowLine, he⟩ := v.nextDot.drawLine_eq
      rw [he]
      exact h.congr rfl rfl rfl fun _ => .inr hm
    · exact h.congr rfl rfl rfl fun _ => .inr hm
  · rw [tickTransfer_of_le hd]
    exact h.idle rfl (.inl rfl)

theorem Latched.tickHBlank (h : Latched v) (hm : v.mode = .hblank) :
    Latched v.nextDot.tickHBlank.1 := by
  rcases Nat.lt_or_ge (v.dot + 1) lineDots with hd | hd
  · rw [tickHBlank_of_lt hd]
    exact h.idle rfl (.inl hm)
  rcases Nat.lt_or_ge (v.line + 1) screenHeight with hl | hl
  · rw [tickHBlank_of_shown hd hl]
    exact h.idle rfl (.inr (.inr ⟨rfl, rfl⟩))
  · rw [tickHBlank_of_last hd hl]
    exact h.idle rfl (.inr (.inl rfl))

theorem Latched.tickVBlank (h : Latched v) (hm : v.mode = .vblank) :
    Latched v.nextDot.tickVBlank.1 := by
  rcases Nat.lt_or_ge (v.dot + 1) lineDots with hd | hd
  · rw [tickVBlank_of_lt hd]
    exact h.idle rfl (.inr (.inl hm))
  rcases Nat.lt_or_ge (v.line + 1) frameLines with hl | hl
  · rw [tickVBlank_of_blank hd hl]
    exact h.idle rfl (.inr (.inl hm))
  · rw [tickVBlank_of_last hd hl]
    exact h.idle rfl (.inr (.inr ⟨rfl, rfl⟩))

theorem Latched.tick (h : Latched v) : Latched v.tick.1 := by
  cases hon : v.displayOn with
  | false => rwa [tick_of_off hon]
  | true =>
    rw [tick_of_on hon]
    cases hm : v.mode with
    | objectScan => exact h.tickScan hm
    | transfer => exact h.tickTransfer hm
    | hblank => exact h.tickHBlank hm
    | vblank => exact h.tickVBlank hm

theorem Latched.writeControl (h : Latched v) (b : UInt8) : Latched (v.writeControl b) := by
  obtain ⟨-, -, he⟩ | ⟨-, -, he⟩ | ⟨-, he⟩ := writeControl_cases v b <;> rw [he]
  · exact h.idle rfl (.inl rfl)
  · exact h.idle rfl (.inr (.inr ⟨rfl, rfl⟩))
  · exact h.congr rfl rfl rfl id

theorem Latched.write (h : Latched v) (r : Register) (b : UInt8) : Latched (v.write r b) := by
  cases r
  case control => exact h.writeControl b
  all_goals exact h.congr rfl rfl rfl id

end DotMatrix.Video
