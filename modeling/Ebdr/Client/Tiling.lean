import Ebdr.Client.Resync
import Ebdr.Lib.Lts
import Mathlib.Data.List.Range

/-!
# The transfers of one grain

The inner loop of `restart_resync` makes `grain_size / chunk_size` transfers for a set bit. A
transfer is 4096 bytes whatever `chunk_size` says, and the count is an `int`. Nothing between the
command line and the loop restricts the two sizes: `make-partner` and `make-relation` scan any
`unsigned long`, and the negotiation replaces the client's pair by the one of the server's object.
`run_grain` gives the transfers of an undisturbed thread, and `tiles_iff` says for which sizes they
are the grain.
-/

namespace Ebdr

open CInt

/-! ### The transfers and where they write -/

/-- `BUF_SIZE_IN_BYTES`, in sectors. -/
def transferSectors : Nat := 8

/-- `loffset` of `chunk_write_client`, an `off64_t`; for a negative one `lseek` fails. -/
def chunkOffset (startLba : Nat) : Option Nat :=
  if ulong (startLba * 512) < 2 ^ 63 then some (ulong (startLba * 512)) else none

/-- The transfer at `startLba` writes sector `x`. -/
def WritesSector (startLba x : Nat) : Prop :=
  ∃ loffset, chunkOffset startLba = some loffset ∧ loffset ≤ 512 * x ∧
    512 * (x + 1) ≤ loffset + 512 * transferSectors

/-- The `start_lba`s of the inner loop for grain `b`, in order. -/
def Geometry.grainWrites (g : Geometry) (b : Nat) : List Nat :=
  (List.range g.loopBound).map (g.startLba b)

/-- The inner loop can run for grain `b`: no division by zero, no truncated count, no seek that fails;
and its transfers are the sectors of the grain. -/
structure Tiles (g : Geometry) (b : Nat) : Prop where
  divides : g.chunkSize ≠ 0
  count : g.totalIterations = (g.grainSize / g.chunkSize : Nat)
  sought : ∀ lba ∈ g.grainWrites b, (chunkOffset lba).isSome
  covers : ∀ x, b * g.grainSize ≤ x → x < (b + 1) * g.grainSize →
    ∃ lba ∈ g.grainWrites b, WritesSector lba x
  inside : ∀ lba ∈ g.grainWrites b, ∀ x, WritesSector lba x →
    b * g.grainSize ≤ x ∧ x < (b + 1) * g.grainSize

/-- An empty grain, or chunks of at most the 8 sectors of a transfer, the last of which ends with the
grain; the count is an `int` and the last transfer starts below byte `2 ^ 63`. -/
structure TileSizes (g : Geometry) (b : Nat) : Prop where
  chunk : g.chunkSize ≠ 0
  count : g.grainSize / g.chunkSize < 2 ^ 31
  ends : g.grainSize = 0 ∨ (g.chunkSize ≤ g.grainSize ∧
    g.chunkSize + g.grainSize % g.chunkSize = transferSectors ∧
    (b + 1) * g.grainSize < 2 ^ 54 + transferSectors)

/-! ### The inner loop of a thread -/

namespace Client

open Lts

/-- A thread in the inner loop that nothing stops. -/
structure Undisturbed (tid : Nat) (ph : ResyncPhase) (s : Client) : Prop where
  thread : s.thread tid = some ⟨ph, false⟩
  partner : s.partnerState ≠ .pause
  io : s.ioState ≠ .released
  socket : s.socketUp = true

theorem Undisturbed.setPhase {tid : Nat} {ph : ResyncPhase} {s : Client}
    (h : Undisturbed tid ph s) (ph' : ResyncPhase) : Undisturbed tid ph' (s.setPhase tid ph') where
  thread := by rw [setPhase_thread_self, h.thread]; rfl
  partner := h.partner
  io := h.io
  socket := h.socket

theorem run_chunk {g : Geometry} {tid b c : Nat} {s : Client}
    (h : Undisturbed tid (.chunk b c) s) (hc : c < g.loopBound) :
    ∃ s', run (step g) s (List.replicate 4 (.run tid true)) = some s' ∧
      Undisturbed tid (.chunk b (c + 1)) s' ∧
      s'.history.written = g.startLba b c :: s.history.written := by
  -- the header is filled in, then sent; the chunk is received, then written
  obtain ⟨s1, h1, hs1, hw1⟩ : ∃ s1, step g s (.run tid true) = some s1 ∧
      Undisturbed tid (.send b c) s1 ∧ s1.history = s.history := by
    have hheader : Undisturbed tid (.chunk b c) { s with header := ⟨.data, b, c⟩ } :=
      ⟨h.thread, h.partner, h.io, h.socket⟩
    refine ⟨_, ?_, hheader.setPhase (.send b c), rfl⟩
    show s.runThread g tid true = _
    rw [runThread, h.thread]
    simp only [Option.bind_some, nextChunk, if_pos hc, if_neg h.partner, if_neg h.io]
  obtain ⟨s2, h2, hs2, hw2⟩ : ∃ s2, step g s1 (.run tid true) = some s2 ∧
      Undisturbed tid (.recv b c) s2 ∧ s2.history = s1.history := by
    refine ⟨_, ?_, hs1.setPhase (.recv b c), rfl⟩
    show s1.runThread g tid true = _
    rw [runThread, hs1.thread]
    simp only [Option.bind_some, transfer, if_pos hs1.socket, Bool.false_eq_true, if_false, if_true]
  obtain ⟨s3, h3, hs3, hw3⟩ : ∃ s3, step g s2 (.run tid true) = some s3 ∧
      Undisturbed tid (.write b c) s3 ∧ s3.history = s2.history := by
    refine ⟨_, ?_, hs2.setPhase (.write b c), rfl⟩
    show s2.runThread g tid true = _
    rw [runThread, hs2.thread]
    simp only [Option.bind_some, transfer, if_pos hs2.socket, Bool.false_eq_true, if_false, if_true]
  have hwritten : Undisturbed tid (.write b c) { s3 with
      history := { s3.history with written := g.startLba b c :: s3.history.written } } :=
    ⟨hs3.thread, hs3.partner, hs3.io, hs3.socket⟩
  refine ⟨_, ?_, hwritten.setPhase (.chunk b (c + 1)), ?_⟩
  · show (step g s (.run tid true)).bind _ = _
    rw [h1, Option.bind_some]
    show (step g s1 (.run tid true)).bind _ = _
    rw [h2, Option.bind_some]
    show (step g s2 (.run tid true)).bind _ = _
    rw [h3, Option.bind_some]
    show (s3.runThread g tid true).bind _ = _
    rw [runThread, hs3.thread]
    simp only [Option.bind_some, writeChunk, Bool.false_eq_true, if_false, if_true]
    rfl
  · show g.startLba b c :: s3.history.written = _
    rw [hw3, hw2, hw1]

theorem run_chunks {g : Geometry} {tid b n c : Nat} {s : Client}
    (h : Undisturbed tid (.chunk b c) s) (hn : c + n = g.loopBound) :
    ∃ es s', run (step g) s es = some s' ∧ (∀ e ∈ es, e = .run tid true) ∧
      Undisturbed tid (.record b) s' ∧
      s'.history.written = ((List.range' c n).map (g.startLba b)).reverse ++ s.history.written := by
  induction n generalizing c s with
  | zero =>
    refine ⟨[.run tid true], _, ?_, by simp, h.setPhase (.record b), rfl⟩
    show (s.runThread g tid true).bind _ = _
    rw [runThread, h.thread]
    have hend : ¬ c < g.loopBound := by omega
    simp only [Option.bind_some, nextChunk, if_neg hend, run]
  | succ n ih =>
    obtain ⟨s1, h1, hs1, hw1⟩ := run_chunk h (show c < g.loopBound by omega)
    obtain ⟨es, s', hrun, hes, hs', hw⟩ := ih hs1 (by omega)
    refine ⟨List.replicate 4 (.run tid true) ++ es, s', ?_, ?_, hs', ?_⟩
    · exact run_append_some.mpr ⟨s1, h1, hrun⟩
    · intro e he
      rcases List.mem_append.mp he with he | he
      · exact List.eq_of_mem_replicate he
      · exact hes e he
    · rw [hw, hw1, List.range'_succ, List.map_cons, List.reverse_cons, List.append_assoc]
      rfl

/-- **An undisturbed thread makes the transfers of the grain**, one after the other, and records the
grain. -/
theorem run_grain {g : Geometry} {tid b : Nat} {s : Client}
    (h : Undisturbed tid (.chunk b 0) s) :
    ∃ es s', run (step g) s es = some s' ∧ (∀ e ∈ es, e = .run tid true) ∧
      Undisturbed tid (.record b) s' ∧
      s'.history.written = (g.grainWrites b).reverse ++ s.history.written := by
  have hall := run_chunks h (Nat.zero_add g.loopBound)
  rwa [← List.range_eq_range'] at hall

end Client

/-! ### Which sizes tile -/

theorem lt_of_toInt {n : Nat} (h : toInt n = n) : n < 2 ^ 31 := by
  have hlt : Int.bmod (n : Int) (2 ^ 32) < ((2 ^ 32 : Nat) + 1) / 2 := Int.bmod_lt (by decide)
  unfold toInt at h
  omega

/-- A sector that is written ends at or before byte `2 ^ 63 + 4096 - 512`. -/
theorem WritesSector.lt {lba x : Nat} (h : WritesSector lba x) :
    x + 1 < 2 ^ 54 + transferSectors := by
  obtain ⟨loffset, hoff, -, hx⟩ := h
  unfold chunkOffset at hoff
  unfold transferSectors at hx ⊢
  rw [Option.ite_none_right_eq_some] at hoff
  have hlt := hoff.1
  have heq := Option.some.inj hoff.2
  have hmul : ∃ q, ulong (lba * 512) = 512 * q := by
    refine ⟨lba % 2 ^ 55, ?_⟩
    unfold ulong
    omega
  omega

theorem writesSector_iff {lba x : Nat} (h : lba < 2 ^ 54) :
    WritesSector lba x ↔ lba ≤ x ∧ x < lba + transferSectors := by
  have hcut : ulong (lba * 512) = lba * 512 := ulong_of_lt (by omega)
  unfold WritesSector chunkOffset transferSectors
  rw [hcut, if_pos (by omega)]
  constructor
  · rintro ⟨loffset, hoff, h1, h2⟩
    have := Option.some.inj hoff
    omega
  · rintro ⟨h1, h2⟩
    exact ⟨_, rfl, by omega, by omega⟩

section

variable {g : Geometry} {b : Nat}

theorem mem_grainWrites {lba : Nat} :
    lba ∈ g.grainWrites b ↔ ∃ c < g.loopBound, g.startLba b c = lba := by
  simp [Geometry.grainWrites]

theorem chunk_in_grain {c : Nat} (hc : c < g.grainSize / g.chunkSize) :
    b * g.grainSize + c * g.chunkSize + g.chunkSize ≤ (b + 1) * g.grainSize := by
  have hmul : (c + 1) * g.chunkSize ≤ g.grainSize / g.chunkSize * g.chunkSize :=
    Nat.mul_le_mul_right _ hc
  have hdiv : g.grainSize / g.chunkSize * g.chunkSize ≤ g.grainSize := Nat.div_mul_le_self _ _
  rw [Nat.succ_mul] at hmul
  rw [Nat.succ_mul]
  omega

theorem grain_sectors (g : Geometry) :
    g.grainSize / g.chunkSize * g.chunkSize + g.grainSize % g.chunkSize = g.grainSize :=
  Nat.div_add_mod' _ _

theorem TileSizes.transfer_in_grain (h : TileSizes g b) {c : Nat}
    (hc : c < g.grainSize / g.chunkSize) :
    b * g.grainSize + c * g.chunkSize + transferSectors ≤ (b + 1) * g.grainSize := by
  have hmul : (c + 1) * g.chunkSize ≤ g.grainSize / g.chunkSize * g.chunkSize :=
    Nat.mul_le_mul_right _ hc
  have hall := grain_sectors g
  have hpos : 0 < g.grainSize / g.chunkSize := by omega
  have hne : g.grainSize ≠ 0 := by
    intro h0
    rw [h0, Nat.zero_div] at hpos
    omega
  have height := (h.ends.resolve_left hne).2.1
  rw [Nat.succ_mul] at hmul
  rw [Nat.succ_mul]
  omega

theorem TileSizes.startLba_eq (h : TileSizes g b) {c : Nat}
    (hc : c < g.grainSize / g.chunkSize) :
    g.startLba b c = b * g.grainSize + c * g.chunkSize ∧ g.startLba b c < 2 ^ 54 := by
  have hin := h.transfer_in_grain hc
  have hne : g.grainSize ≠ 0 := by
    intro h0
    rw [h0, Nat.zero_div] at hc
    omega
  have hbelow := (h.ends.resolve_left hne).2.2
  have hcut : g.startLba b c = b * g.grainSize + c * g.chunkSize := ulong_of_lt (by omega)
  exact ⟨hcut, by omega⟩

theorem TileSizes.tiles (h : TileSizes g b) : Tiles g b := by
  have hloop : g.loopBound = g.grainSize / g.chunkSize := Geometry.loopBound_of_lt h.count
  have hchunk := Nat.pos_of_ne_zero h.chunk
  refine ⟨h.chunk, toInt_of_lt h.count, ?_, ?_, ?_⟩
  · intro lba hlba
    obtain ⟨c, hc, rfl⟩ := mem_grainWrites.mp hlba
    rw [hloop] at hc
    have hlt := (h.startLba_eq hc).2
    have hcut : ulong (g.startLba b c * 512) = g.startLba b c * 512 := ulong_of_lt (by omega)
    rw [chunkOffset, hcut, if_pos (by omega)]
    rfl
  · intro x h1 h2
    have hne : g.grainSize ≠ 0 := by
      intro h0
      rw [h0, Nat.mul_zero] at h2
      omega
    obtain ⟨hle, height, -⟩ := h.ends.resolve_left hne
    have hpos : 0 < g.grainSize / g.chunkSize := Nat.div_pos hle hchunk
    have hall := grain_sectors g
    unfold transferSectors at height
    rw [Nat.succ_mul] at h2
    -- the chunk that the sector is in, or the last one for the sectors behind all chunks
    obtain ⟨c, hc, hlow, hhigh⟩ : ∃ c < g.grainSize / g.chunkSize,
        b * g.grainSize + c * g.chunkSize ≤ x ∧
          x < b * g.grainSize + c * g.chunkSize + transferSectors := by
      unfold transferSectors
      by_cases hin : (x - b * g.grainSize) / g.chunkSize < g.grainSize / g.chunkSize
      · have hdiv := Nat.div_add_mod' (x - b * g.grainSize) g.chunkSize
        have hmod := Nat.mod_lt (x - b * g.grainSize) hchunk
        exact ⟨_, hin, by omega, by omega⟩
      · have hpast : g.grainSize / g.chunkSize * g.chunkSize ≤ x - b * g.grainSize :=
          (Nat.le_div_iff_mul_le hchunk).mp (by omega)
        have hlast : (g.grainSize / g.chunkSize - 1) * g.chunkSize + g.chunkSize =
            g.grainSize / g.chunkSize * g.chunkSize := by
          rw [← Nat.succ_mul, Nat.succ_eq_add_one, Nat.sub_add_cancel hpos]
        exact ⟨g.grainSize / g.chunkSize - 1, by omega, by omega, by omega⟩
    obtain ⟨heq, hlt⟩ := h.startLba_eq hc
    refine ⟨g.startLba b c, mem_grainWrites.mpr ⟨c, by omega, rfl⟩, ?_⟩
    rw [writesSector_iff hlt, heq]
    exact ⟨hlow, hhigh⟩
  · intro lba hlba x hx
    obtain ⟨c, hc, rfl⟩ := mem_grainWrites.mp hlba
    rw [hloop] at hc
    obtain ⟨heq, hlt⟩ := h.startLba_eq hc
    have hin := h.transfer_in_grain hc
    rw [writesSector_iff hlt, heq] at hx
    omega

/-- And it is needed: the last sector of the grain is written, and the last transfer ends with it. -/
theorem Tiles.tileSizes (h : Tiles g b) : TileSizes g b := by
  have hcount : g.grainSize / g.chunkSize < 2 ^ 31 := lt_of_toInt h.count
  have hloop : g.loopBound = g.grainSize / g.chunkSize := Geometry.loopBound_of_lt hcount
  refine ⟨h.divides, hcount, ?_⟩
  by_cases hne : g.grainSize = 0
  · exact Or.inl hne
  · have hsucc : (b + 1) * g.grainSize = b * g.grainSize + g.grainSize := Nat.succ_mul _ _
    obtain ⟨lba, hlba, hwrites⟩ := h.covers ((b + 1) * g.grainSize - 1) (by omega) (by omega)
    have hbelow := hwrites.lt
    have hend : (b + 1) * g.grainSize < 2 ^ 54 + transferSectors := by omega
    unfold transferSectors at hend
    -- so no sector of a chunk is beyond 64 bits
    have hexact : ∀ c < g.grainSize / g.chunkSize,
        g.startLba b c = b * g.grainSize + c * g.chunkSize := by
      intro c hc
      have hin := chunk_in_grain (b := b) hc
      apply ulong_of_lt
      omega
    obtain ⟨c, hc, rfl⟩ := mem_grainWrites.mp hlba
    rw [hloop] at hc
    have hpos : 0 < g.grainSize / g.chunkSize := by omega
    have hlast : (g.grainSize / g.chunkSize - 1) * g.chunkSize + g.chunkSize =
        g.grainSize / g.chunkSize * g.chunkSize := by
      rw [← Nat.succ_mul, Nat.succ_eq_add_one, Nat.sub_add_cancel hpos]
    have hlastLba := hexact (g.grainSize / g.chunkSize - 1) (by omega)
    have hlastMem : g.startLba b (g.grainSize / g.chunkSize - 1) ∈ g.grainWrites b :=
      mem_grainWrites.mpr ⟨_, by omega, rfl⟩
    have hlastIn := chunk_in_grain (b := b)
      (show g.grainSize / g.chunkSize - 1 < g.grainSize / g.chunkSize by omega)
    have hlastLt : g.startLba b (g.grainSize / g.chunkSize - 1) < 2 ^ 54 := by
      have hsome := h.sought _ hlastMem
      rw [hlastLba] at hsome ⊢
      unfold chunkOffset ulong at hsome
      by_contra hge
      rw [if_neg (by omega)] at hsome
      cases hsome
    have hlastWrite := (h.inside _ hlastMem
      (g.startLba b (g.grainSize / g.chunkSize - 1) + 7)
      ((writesSector_iff hlastLt).mpr ⟨by omega, by unfold transferSectors; omega⟩)).2
    have hmul : c * g.chunkSize ≤ (g.grainSize / g.chunkSize - 1) * g.chunkSize :=
      Nat.mul_le_mul_right _ (by omega)
    have hlba := hexact c hc
    have hcovered := (writesSector_iff (by omega)).mp hwrites
    have hall := grain_sectors g
    have hle : g.chunkSize ≤ g.grainSize := (Nat.div_pos_iff.mp hpos).2
    unfold transferSectors at hcovered ⊢
    exact Or.inr ⟨hle, by omega, hend⟩

/-- **For which sizes the transfers of the inner loop are the grain.** -/
theorem tiles_iff (g : Geometry) (b : Nat) : Tiles g b ↔ TileSizes g b :=
  ⟨Tiles.tileSizes, TileSizes.tiles⟩

/-- A chunk of 16 sectors is half written. -/
theorem half_chunk_untiled : ¬ ∀ (g : Geometry) (b : Nat), Tiles g b := by
  intro hall
  have hends := (hall ⟨16, 16⟩ 0).tileSizes.ends
  revert hends
  unfold transferSectors
  decide

end

end Ebdr
