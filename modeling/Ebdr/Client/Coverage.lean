import Ebdr.Client.Completion
import Ebdr.Kernel.Ioctl

/-!
# What the kernel marks, the resync requests

The run script gives a disk of `d` GiB a bitmap of 16384 bytes, the kernel a grain of `d * 8192`
bytes and the daemon the same grain in sectors, `16 * d`, with chunks of 8 sectors. `Kernel.marked`
says that every sector of a write has its bit set, `requested_of_set` that a resync from bit 0
requests every sector of the grain of a set bit; `written_sectors_requested` puts them together.
-/

namespace Ebdr

open ByteMem CInt Lts

/-! ### The marks -/

/-- The bitmap of a disk of `d` GiB, as the run script creates it. -/
def scriptBitmap (d : Nat) (area : Ptr) (u : BmapUser) : EbdrBitmap where
  bitmapArea := some area
  bitmapSize := 8 * 16384
  grainSize := d * 2 ^ 30 / 131072
  bmapUser := u

/-- The geometry the run script gives to the daemon. -/
def scriptGeometry (d : Nat) : Geometry := ⟨d * 2 ^ 30 / 131072 / 512, 8⟩

/-- A write of non-zero length inside a disk of `d` GiB. -/
def Bio.Inside (d : Nat) (bio : Bio) : Prop :=
  bio.isWrite = true ∧ 0 < bio.biSize ∧ 512 * bio.biSector + bio.biSize ≤ d * 2 ^ 30

/-- The write touches sector `x`. -/
def Bio.Writes (bio : Bio) (x : Nat) : Prop :=
  bio.biSector ≤ x ∧ 512 * x < 512 * bio.biSector + bio.biSize

/-- `ebdr_set_bitmap` for one bio after the other. -/
def ebdrSetBitmaps (k : Kernel) (b : EbdrBitmap) (bios : List Bio) : Option Kernel :=
  bios.foldlM (fun k bio => ebdrSetBitmap k b bio) k

namespace Kernel

variable {d : Nat} {area : Ptr} {u : BmapUser}

theorem script_size (d : Nat) (area : Ptr) (u : BmapUser) :
    (scriptBitmap d area u).bitmapSize = 131072 := rfl

theorem script_grain (d : Nat) : d * 2 ^ 30 / 131072 = d * 8192 := by omega

theorem script_shift (d : Nat) (area : Ptr) (u : BmapUser) :
    (scriptBitmap d area u).grainSize >>> 9 = 16 * d := by
  show (d * 2 ^ 30 / 131072) >>> 9 = 16 * d
  rw [script_grain, Nat.shiftRight_eq_div_pow]
  omega

theorem script_findPos (hd : 1 ≤ d) (hfit : 2 * d < 2 ^ 31) (area : Ptr) (u : BmapUser)
    (x : Nat) : ebdrFindPos (scriptBitmap d area u) x = min (x / (16 * d)) 131071 := by
  have hsize := script_size d area u
  have hshift := script_shift d area u
  have h := ebdrFindPos_eq (b := scriptBitmap d area u) (by omega) (by omega)
    (by rw [hsize, hshift]; omega) x
  rw [h, hshift, hsize]

theorem script_bits (area : Ptr) (u : BmapUser) (hd : 1 ≤ d) (hfit : 2 * d < 2 ^ 31) {bio : Bio}
    (hin : bio.Inside d) {x : Nat} (hx : bio.Writes x) :
    firstBit (scriptBitmap d area u) bio ≤ (x / (16 * d) : Nat) ∧
      ((x / (16 * d) : Nat) : Int) ≤ lastBit (scriptBitmap d area u) bio ∧
        x / (16 * d) < 8 * 16384 := by
  obtain ⟨-, -, hend⟩ := hin
  obtain ⟨hfirst, hlast⟩ := hx
  have hpos : 0 < 16 * d := by omega
  have hxdisk : x < 131072 * (16 * d) := by omega
  have hq : x / (16 * d) < 131072 := (Nat.div_lt_iff_lt_mul hpos).mpr hxdisk
  have hlt : ∀ y, toInt (ebdrFindPos (scriptBitmap d area u) y) =
      (min (y / (16 * d)) 131071 : Nat) := by
    intro y
    rw [script_findPos hd hfit, toInt_of_lt (by omega)]
  have hsector : x ≤ bioEndSector bio := by
    rw [bioEndSector, Nat.shiftRight_eq_div_pow, ulong_of_lt (by omega)]
    omega
  have h1 : bio.biSector / (16 * d) ≤ x / (16 * d) := Nat.div_le_div_right hfirst
  have h2 : x / (16 * d) ≤ bioEndSector bio / (16 * d) := Nat.div_le_div_right hsector
  refine ⟨?_, ?_, by omega⟩
  · rw [firstBit, hlt]
    omega
  · rw [lastBit, hlt]
    omega

theorem marks_step (hd : 1 ≤ d) (hfit : 2 * d < 2 ^ 31) {k : Kernel} {bio : Bio}
    (harea : area.off + 16384 ≤ k.areaBytes area.area) (hin : bio.Inside d) :
    ∃ m, ebdrSetBitmap k (scriptBitmap d area u) bio = some (k.setMem area.area m) ∧
      (∀ x, bit (k.mem area.area) x = true → bit m x = true) ∧
        ∀ x, bio.Writes x → bit m (8 * area.off + x / (16 * d)) = true := by
  have hstart : bio.Writes bio.biSector := by
    obtain ⟨-, hpos, -⟩ := hin
    exact ⟨le_refl _, by omega⟩
  have hsize := script_size d area u
  have hfirst := (firstBit_mem (b := scriptBitmap d area u) (by omega) (by omega) bio).1
  have hlast := (lastBit_mem (b := scriptBitmap d area u) (by omega) (by omega) bio).2
  obtain ⟨m, hm, hbit⟩ : ∃ m,
      ebdrSetBitmap k (scriptBitmap d area u) bio = some (k.setMem area.area m) ∧ ∀ x, bit m x = _ :=
    ebdrSetBits_spec rfl hfirst (by omega) (by omega)
  refine ⟨m, hm, ?_, ?_⟩
  · intro x hx
    rw [hbit, hx, Bool.or_true]
  · intro x hx
    obtain ⟨h1, h2, -⟩ := script_bits area u hd hfit hin hx
    rw [hbit, decide_eq_true (by omega), Bool.true_or]

/-- **The kernel marks every sector.** After the writes, the bit of every sector that one of them
touches is set. -/
theorem marked (hd : 1 ≤ d) (hfit : 2 * d < 2 ^ 31) {k : Kernel} {bios : List Bio}
    (harea : area.off + 16384 ≤ k.areaBytes area.area) (hin : ∀ bio ∈ bios, bio.Inside d) :
    ∃ k', ebdrSetBitmaps k (scriptBitmap d area u) bios = some k' ∧
      (∀ x, bit (k.mem area.area) x = true → bit (k'.mem area.area) x = true) ∧
        ∀ bio ∈ bios, ∀ x, bio.Writes x →
          bit (k'.mem area.area) (8 * area.off + x / (16 * d)) = true := by
  induction bios generalizing k with
  | nil => exact ⟨k, rfl, fun _ hx => hx, by simp⟩
  | cons bio bios ih =>
    obtain ⟨m, hm, hmono, hmark⟩ := marks_step (u := u) hd hfit harea (hin bio (by simp))
    have hmem : (k.setMem area.area m).mem area.area = m := by simp [setMem]
    obtain ⟨k', hk', hmono', hmark'⟩ := ih (k := k.setMem area.area m) harea
      fun bio' h' => hin bio' (by simp [h'])
    rw [hmem] at hmono'
    refine ⟨k', ?_, fun x hx => hmono' x (hmono x hx), ?_⟩
    · rw [ebdrSetBitmaps, List.foldlM_cons, hm]
      exact hk'
    · intro bio' hb x hx
      rcases List.mem_cons.mp hb with rfl | hb
      · exact hmono' _ (hmark x hx)
      · exact hmark' bio' hb x hx

end Kernel

/-! ### The requests -/

namespace Client

/-- The `start_lba` of the chunk that a step requests. -/
def requests (g : Geometry) (s : Client) : Event → Option Nat
  | .run tid true =>
    (s.thread tid).bind fun th =>
      match th.phase with
      | .send pos chunkId => some (g.startLba pos chunkId)
      | _ => none
  | _ => none

/-- What has been written was requested, and so was the chunk the thread is at. -/
structure Requested (g : Geometry) (tid : Nat) (log : List Nat) (s : Client) : Prop where
  written : ∀ lba ∈ s.history.written, lba ∈ log
  current : ∀ th, s.thread tid = some th →
    match th.phase with
    | .recv pos c | .write pos c => g.startLba pos c ∈ log
    | _ => True

theorem Requested.advance {g : Geometry} {tid : Nat} {log log' : List Nat} {s1 : Client}
    {ph : ResyncPhase} (hth : ∃ ph0, s1.thread tid = some ⟨ph0, false⟩)
    (hwr : ∀ lba ∈ s1.history.written, lba ∈ log) (hlog : ∀ lba ∈ log, lba ∈ log')
    (hph : match ph with
      | .recv pos c | .write pos c => g.startLba pos c ∈ log'
      | _ => True) : Requested g tid log' (s1.setPhase tid ph) := by
  refine ⟨fun lba hl => hlog lba (hwr lba hl), ?_⟩
  intro th hth'
  obtain ⟨ph0, hth⟩ := hth
  have hthread : (s1.setPhase tid ph).thread tid = some ⟨ph, false⟩ := by
    simp [setPhase, hth]
  cases hthread.symm.trans hth'
  exact hph

theorem Requested.finish {g : Geometry} {tid : Nat} {log log' : List Nat} {s1 : Client}
    (hwr : ∀ lba ∈ s1.history.written, lba ∈ log) (hlog : ∀ lba ∈ log, lba ∈ log') :
    Requested g tid log' (s1.endThread tid) := by
  refine ⟨fun lba hl => hlog lba (hwr lba hl), fun th hth => ?_⟩
  simp [endThread] at hth

/-- **Step lemma.** -/
theorem requested_step {g : Geometry} {tid : Nat} {m : Mem} {log : List Nat} {s s' : Client}
    (hgo : Going g tid m s) (hi : Requested g tid log s)
    (h : s.runThread g tid true = some s') :
    Requested g tid (log ++ (requests g s (.run tid true)).toList) s' := by
  have hlog : ∀ lba ∈ log, lba ∈ log ++ (requests g s (.run tid true)).toList :=
    fun lba hl => List.mem_append_left _ hl
  have hwr := hi.written
  obtain ⟨ph, hth⟩ := hgo.thread
  have hcur := hi.current _ hth
  cases threadStep_of_run hth h with
  | @look pos hpos hrun m' =>
    refine Requested.advance hgo.thread hwr hlog ?_
    cases bit m' pos <;> exact trivial
  | @sent pos c =>
    have hsend : requests g s (.run tid true) = some (g.startLba pos c) := by
      rw [requests, hth]
      rfl
    refine Requested.advance hgo.thread hwr hlog ?_
    dsimp only
    rw [hsend]
    exact List.mem_append_right _ (List.mem_singleton.mpr rfl)
  | received => exact Requested.advance hgo.thread hwr hlog (hlog _ hcur)
  | @written pos c =>
    have hwr' : ∀ lba ∈ g.startLba pos c :: s.history.written, lba ∈ log := by
      intro lba hl
      rcases List.mem_cons.mp hl with rfl | hl
      · exact hcur
      · exact hwr lba hl
    exact Requested.advance hgo.thread hwr' hlog trivial
  | sendLost hx hok | recvLost hx hok | writeFailed hx hok => cases hok
  | loopPaused hpause => exact absurd hpause hgo.partner
  | chunkReleased | connLost | completed | release => exact Requested.finish hwr hlog
  | _ => exact Requested.advance hgo.thread hwr hlog trivial

theorem started (g : Geometry) (hg : g.chunkSize ≠ 0) (m : Mem) :
    ∃ s, run (step g) boot (metadataResync m) = some s ∧ Going g 0 m s ∧ (Single s ∧ Inv g s) ∧
      Requested g 0 [] s ∧ s.thread 0 = some ⟨.created, false⟩ := by
  have hstate : (boot.partnerState ≠ .pause ∧ boot.repState ≠ .completed) ∧
      IoObjState.inUse ≠ .released := by decide
  refine ⟨_, rfl, ⟨⟨_, rfl⟩, rfl, rfl, rfl, hstate.1.1, hstate.2, rfl, hstate.1.2, rfl, hg⟩,
    ⟨⟨?_, ?_⟩, ?_, ?_, ?_⟩, ⟨fun _ hl => absurd hl List.not_mem_nil, ?_⟩, rfl⟩
  · intro t ht
    exact Function.update_of_ne ht _ _
  · intro _ _
    exact Nat.zero_lt_one
  · intro _ m' hm
    cases hm
    rfl
  · intro hrec
    cases hrec
  · intro th hth _
    cases hth
    exact Or.inr (copiedBelow_zero _)
  · intro th hth
    cases hth
    trivial

/-- **A resync from bit 0 requests every chunk of every set bit**, and comes to its end. -/
theorem requested_of_set {g : Geometry} (hg : g.chunkSize ≠ 0) (hloops : LoopsEnough g) (m : Mem) :
    ∃ s n s', run (step g) boot (metadataResync m) = some s ∧
      run (step g) s (List.replicate n (.run 0 true)) = some s' ∧
        s'.thread 0 = some ⟨.sendTermination, false⟩ ∧
          ∀ b < bitmapSizeMax * 8, bit m b = true → ∀ c < g.grainSize / g.chunkSize,
            g.startLba b c ∈
              trace (step g) (requests g) s (List.replicate n (.run 0 true)) := by
  obtain ⟨s, hs, hgo, hinv, hreq, hth⟩ := started g hg m
  obtain ⟨n, s', hr, hm, hgo', hend⟩ := exists_termination hgo hth (Or.inl trivial)
  have hinv' : Single s' ∧ Inv g s' := by
    refine run_inv (I := fun t => Single t ∧ Inv g t) (fun t e t' hi hok ht => ?_) hinv hm hr
    have hc := conditions_of_going hok
    exact ⟨single_step hi.1 hc.1.1 ht,
      inv_step hloops hi.1 hi.2 hc.1.2 hc.2.1 hc.2.2.1 hc.2.2.2 ht⟩
  have hreq' : Requested g 0
      (trace (step g) (requests g) s (List.replicate n (.run 0 true))) s' := by
    refine run_hist (J := fun es t => Requested g 0 (trace (step g) (requests g) s es) t) hreq
      (fun es t e t' hj ht hok hs => ?_) hm hr
    obtain ⟨hgo, rfl⟩ := hok
    rw [trace_snoc ht]
    exact requested_step hgo hj hs
  have hcopied : CopiedBelow g s'.history (bitmapSizeMax * 8) := hinv'.2.phaseOk hinv'.1 hend rfl rfl
  refine ⟨s, n, s', hs, hr, hend, ?_⟩
  intro b hb hset c hc
  refine hreq'.written _ (hcopied b hb hb ?_ c hc)
  rw [hgo'.received]
  exact hset

theorem script_chunk {d : Nat} (hd : 1 ≤ d) (hfit : 2 * d < 2 ^ 31) {x : Nat}
    (hx : x / (16 * d) < 8 * 16384) :
    ∃ c < (scriptGeometry d).grainSize / (scriptGeometry d).chunkSize,
      (scriptGeometry d).startLba (x / (16 * d)) c ≤ x ∧
        x < (scriptGeometry d).startLba (x / (16 * d)) c + 8 := by
  have hgrain : d * 2 ^ 30 / 131072 / 512 = 16 * d := by omega
  have hdiv := Nat.div_add_mod x (16 * d)
  have hmod := Nat.mod_lt x (show 0 < 16 * d by omega)
  generalize hq : x / (16 * d) = q at *
  rw [Nat.mul_comm] at hdiv
  have hle : q * (16 * d) ≤ 131072 * (16 * d) := Nat.mul_le_mul_right _ (by omega)
  have hlba : ∀ c, c < 2 * d → (scriptGeometry d).startLba q c = q * (16 * d) + c * 8 := by
    intro c hc
    show ulong (q * (d * 2 ^ 30 / 131072 / 512) + c * 8) = _
    rw [hgrain, ulong_of_lt (by omega)]
  refine ⟨x % (16 * d) / 8, ?_, ?_⟩
  · show x % (16 * d) / 8 < d * 2 ^ 30 / 131072 / 512 / 8
    omega
  · rw [hlba _ (by omega)]
    omega

/-- **The kernel's marks and the resync cover the same blocks.** On a disk of `d` GiB with the
geometry of the run script, whatever writes are applied to the bitmap, a resync from bit 0 over a
copy of it comes to its end, and every sector written lies in a chunk it has requested. -/
theorem written_sectors_requested {d : Nat} (hd : 1 ≤ d) (hfit : 2 * d < 2 ^ 31) {k : Kernel}
    {area : Ptr} {u : BmapUser} (harea : area.off + 16384 ≤ k.areaBytes area.area)
    {bios : List Bio} (hin : ∀ bio ∈ bios, bio.Inside d) :
    ∃ k', ebdrSetBitmaps k (scriptBitmap d area u) bios = some k' ∧
      ∀ m : Mem, (∀ b < 8 * 16384, bit m b = bit (k'.mem area.area) (8 * area.off + b)) →
        ∃ s n s', run (step (scriptGeometry d)) boot (metadataResync m) = some s ∧
          run (step (scriptGeometry d)) s (List.replicate n (.run 0 true)) = some s' ∧
            s'.thread 0 = some ⟨.sendTermination, false⟩ ∧
              ∀ bio ∈ bios, ∀ x, bio.Writes x →
                ∃ lba ∈ trace (step (scriptGeometry d)) (requests (scriptGeometry d)) s
                  (List.replicate n (.run 0 true)), lba ≤ x ∧ x < lba + 8 := by
  obtain ⟨k', hk', -, hmark⟩ := Kernel.marked (u := u) hd hfit harea hin
  refine ⟨k', hk', fun m hm => ?_⟩
  have hchunks : (scriptGeometry d).grainSize / (scriptGeometry d).chunkSize < 2 ^ 31 := by
    show d * 2 ^ 30 / 131072 / 512 / 8 < 2 ^ 31
    omega
  have hloops : LoopsEnough (scriptGeometry d) := by
    rw [LoopsEnough, Geometry.loopBound_of_lt hchunks]
  obtain ⟨s, n, s', hs, hr, hend, hall⟩ :=
    requested_of_set (show (scriptGeometry d).chunkSize ≠ 0 by show 8 ≠ 0; decide) hloops m
  refine ⟨s, n, s', hs, hr, hend, ?_⟩
  intro bio hbio x hx
  obtain ⟨-, -, hpos⟩ := Kernel.script_bits area u hd hfit (hin bio hbio) hx
  obtain ⟨c, hc, h1, h2⟩ := script_chunk hd hfit hpos
  refine ⟨_, hall (x / (16 * d)) hpos ?_ c hc, h1, h2⟩
  rw [hm _ hpos]
  exact hmark bio hbio x hx

/-- One write on a disk of 1 GiB. -/
theorem written_sectors_requested_one :
    ∃ k', ebdrSetBitmaps { Kernel.init with areaBytes := fun _ => 32768 }
        (scriptBitmap 1 ⟨0, 0⟩ .kernel) [⟨40, 4096, true⟩] = some k' ∧
      ∀ m : Mem, (∀ b < 8 * 16384, bit m b = bit (k'.mem 0) (8 * 0 + b)) →
        ∃ s n s', run (step (scriptGeometry 1)) boot (metadataResync m) = some s ∧
          run (step (scriptGeometry 1)) s (List.replicate n (.run 0 true)) = some s' ∧
            s'.thread 0 = some ⟨.sendTermination, false⟩ ∧
              ∀ bio ∈ [(⟨40, 4096, true⟩ : Bio)], ∀ x, bio.Writes x →
                ∃ lba ∈ trace (step (scriptGeometry 1)) (requests (scriptGeometry 1)) s
                  (List.replicate n (.run 0 true)), lba ≤ x ∧ x < lba + 8 :=
  written_sectors_requested (by decide) (by decide) (by decide)
    (by
      intro bio hbio
      rw [List.mem_singleton] at hbio
      rw [hbio]
      exact ⟨rfl, by decide, by decide⟩)

end Client

end Ebdr
