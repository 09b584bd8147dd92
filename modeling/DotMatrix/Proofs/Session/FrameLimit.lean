import DotMatrix.Proofs.Console.FrameEnd
import DotMatrix.Proofs.Session.Collection

/-!
# The limit on frames

A session asks for its limit on clock ticks before it runs a chunk, and for its limit on frames when
the chunk has been completed and looked at. So the first is kept from the beginning, and the second
only from one frame on.

* `counting`: somebody who also counts how often they look;
* `Chunked`: chunks that are completed in a row, with a look after each of them;
* `run_finished`, `Chunked.run_finished`: when a session that has begun ends at a limit;
* `frame_limit_iff`: when a session ends at a limit, and after how many chunks.
-/

namespace DotMatrix.Session

variable {σ : Type}

/-- Somebody who also counts how often they look. -/
def counting (look : σ → Console → σ × Console) : Nat × σ → Console → (Nat × σ) × Console
  | (n, s), c => ((n + 1, (look s c).1), (look s c).2)

/-- Limits on frames and perhaps on clock ticks, and none on time. -/
def upTo (frames : Nat) (cycles : Option Nat) : Limits := ⟨some frames, cycles, none⟩

/-- From the chunk `first` on, `k` chunks are completed, and somebody looks after each of them. -/
inductive Chunked (limits : Limits) (steps : Nat) (look : σ → Console → σ × Console) :
    (first k : Nat) → σ → Console → σ → Console → Prop
  | none {first : Nat} {s : σ} {c : Console} : Chunked limits steps look first 0 s c s c
  | chunk {first k : Nat} {s s' : σ} {c d e : Console} :
    runChunk limits steps first c = (d, .none) →
    Chunked limits steps look (first + 1) k (look s d).1 (look s d).2 s' e →
    Chunked limits steps look first (k + 1) s c s' e

variable {limits : Limits} {look : σ → Console → σ × Console} {steps first k : Nat} {s s' : σ}
  {c e : Console}

/-! ### Chunks -/

/-- Somebody who counts sees the same chunks, and counts them. -/
theorem chunked_counting_iff {n n' : Nat} :
    Chunked limits steps (counting look) first k (n, s) c (n', s') e ↔
      n' = n + k ∧ Chunked limits steps look first k s c s' e := by
  constructor
  · intro h
    generalize hx : (n, s) = x at h
    generalize hy : (n', s') = y at h
    induction h generalizing n s with
    | none =>
      obtain ⟨rfl, rfl⟩ := Prod.mk.inj (hx.trans hy.symm)
      exact ⟨rfl, .none⟩
    | chunk hchunk _ ih =>
      subst hx
      obtain ⟨hn, hrest⟩ := ih rfl hy
      exact ⟨by omega, .chunk hchunk hrest⟩
  · rintro ⟨rfl, h⟩
    induction h generalizing n with
    | none => exact .none
    | @chunk first k s s' c d e hchunk _ ih =>
      refine .chunk hchunk ?_
      rw [Nat.add_comm k 1, ← Nat.add_assoc]
      exact ih

/-! ### Sessions -/

variable {n : Nat} {cycles : Option Nat} {clock : Nat → Nat}

theorem upTo_reached (n first elapsed : Nat) (cycles : Option Nat) :
    (upTo n cycles).reached first elapsed = true ↔ n ≤ first := by
  simp [upTo, Limits.reached]

/-- A session that ends at a limit has completed all the chunks that it may, or it is out of
ticks. -/
theorem run_finished {fuel chunks : Nat} (hfirst : first < max n 1)
    (h : run (upTo n cycles) clock look steps fuel first s c = (s', e, .finished chunks)) :
    ∃ k, chunks = first + k ∧ Chunked (upTo n cycles) steps look first k s c s' e ∧
      chunks ≤ max n 1 ∧ (chunks = max n 1 ∨ OutOfTicks (upTo n cycles) e) := by
  induction fuel generalizing first s c with
  | zero => cases h
  | succ fuel ih =>
    unfold run at h
    generalize hchunk : runChunk (upTo n cycles) steps first c = x at h
    obtain ⟨d, ending?⟩ := x
    cases ending? with
    | some ending =>
      cases h
      obtain ⟨rfl, rfl, hout⟩ := runChunk_finished_iff.1 hchunk
      exact ⟨0, rfl, .none, by omega, .inr hout⟩
    | none =>
      dsimp only at h
      -- The limit on frames is asked for now, when this chunk has been run.
      by_cases hlast : n ≤ first + 1
      · rw [if_pos ((upTo_reached ..).2 hlast)] at h
        cases h
        exact ⟨1, rfl, .chunk hchunk .none, by omega, .inl (by omega)⟩
      · rw [if_neg (mt (upTo_reached ..).1 hlast)] at h
        obtain ⟨k, hk, hrest, hle, hend⟩ := ih (by omega) h
        exact ⟨k + 1, by omega, .chunk hchunk hrest, hle, hend⟩

/-- And so it ends. -/
theorem Chunked.run_finished (clock : Nat → Nat) (hfirst : first < max n 1)
    (h : Chunked (upTo n cycles) steps look first k s c s' e) (hle : first + k ≤ max n 1)
    (hend : first + k = max n 1 ∨ OutOfTicks (upTo n cycles) e) :
    ∃ fuel, run (upTo n cycles) clock look steps fuel first s c =
      (s', e, .finished (first + k)) := by
  induction h with
  | @none first s c =>
    have hout : OutOfTicks (upTo n cycles) c := hend.resolve_left (by omega)
    refine ⟨1, ?_⟩
    unfold run
    rw [runChunk_finished_iff.2 ⟨rfl, rfl, hout⟩]
    rfl
  | @chunk first k s s' c d e hchunk hrest ih =>
    have hsum : first + 1 + k = first + (k + 1) := by omega
    rw [hsum] at ih
    by_cases hlast : n ≤ first + 1
    · obtain rfl : k = 0 := by omega
      refine ⟨1, ?_⟩
      unfold run
      rw [hchunk]
      dsimp only
      rw [if_pos ((upTo_reached ..).2 hlast)]
      cases hrest
      rfl
    · obtain ⟨fuel, hfuel⟩ := ih (by omega) hle hend
      refine ⟨fuel + 1, ?_⟩
      unfold run
      rw [hchunk]
      dsimp only
      rw [if_neg (mt (upTo_reached ..).1 hlast)]
      exact hfuel

/-- **The limit on frames.** A session with a limit on frames, and perhaps one on clock ticks, ends
at a limit after `k` chunks exactly if `k` chunks can be completed in a row, with one look after
each of them, and `k` is the limit on frames, or one where that is zero; or if there are fewer and
the session is out of ticks. -/
theorem frame_limit_iff (n : Nat) (cycles : Option Nat) (clock : Nat → Nat)
    (look : σ → Console → σ × Console) (steps looks k : Nat) (s s' : σ) (c e : Console) :
    (∃ fuel, run (upTo n cycles) clock (counting look) steps fuel 0 (0, s) c =
        ((looks, s'), e, .finished k)) ↔
      looks = k ∧ Chunked (upTo n cycles) steps look 0 k s c s' e ∧
        (k = max n 1 ∨ k < max n 1 ∧ ∃ limit, cycles = some limit ∧ limit ≤ e.cycles) := by
  have hfirst : 0 < max n 1 := by omega
  constructor
  · rintro ⟨fuel, h⟩
    obtain ⟨k', hk, hchunked, hle, hend⟩ := run_finished hfirst h
    obtain rfl : k = k' := by omega
    obtain ⟨hlooks, hchunked⟩ := chunked_counting_iff.1 hchunked
    refine ⟨by omega, hchunked, ?_⟩
    rcases hend with heq | hout
    · exact .inl heq
    · by_cases heq : k = max n 1
      · exact .inl heq
      · exact .inr ⟨by omega, hout⟩
  · rintro ⟨rfl, hchunked, hend⟩
    have hcounting : Chunked (upTo n cycles) steps (counting look) 0 looks (0, s) c (looks, s') e :=
      chunked_counting_iff.2 ⟨(Nat.zero_add looks).symm, hchunked⟩
    have hle : 0 + looks ≤ max n 1 := by omega
    have hrun := hcounting.run_finished clock hfirst hle
    rw [Nat.zero_add] at hrun
    exact hrun (hend.imp_right And.right)

/-- A session that may run no frame runs one. The processor waits in it. -/
theorem frame_limit_zero_runs_a_frame :
    let c := Console.Operation.run [.insertImage Console.haltImage, .step]
      (.powerOn (.ofVolume .empty))
    ∃ steps d, run (upTo 0 none) (fun _ => 0) (counting fun _ c => ((), c)) steps 1 0 (0, ()) c =
      ((1, ()), d, .finished 1) := by
  intro c
  have hready : c.Ready := Console.Operation.run_ready _ (Console.Operation.powerOn_ready _)
  have hwaits : c.Waits := ⟨by decide +kernel, by decide +kernel⟩
  obtain ⟨steps, d, hrun, -⟩ := hwaits.reaches (.begin hready.sound.onSchedule)
  have hchunk : runChunk (upTo 0 none) steps 0 c = (d, none) := by
    show ((c.runFrame steps).1, Ending.ofChunk? (c.runFrame steps).2) = _
    rw [Console.runFrame, hrun]
    rfl
  refine ⟨steps, d, ?_⟩
  unfold run
  rw [hchunk]
  rfl

end DotMatrix.Session
