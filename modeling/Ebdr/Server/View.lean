import Ebdr.Kernel.Representation
import Ebdr.Server.Tracker

/-!
# The tracker of a device inside the server

`view` reads the tracker of partner `p`'s device off the server, and `view_step` shows that every
step of the server, whoever makes it, is a step of that tracker (`Label.other` when it is about
something else), as long as `ioctl_obj.index` keeps its value in every window. `Coherent` is what
this needs of the daemon's tables, and `coherent_step` that it is kept.
-/

namespace Ebdr

open ByteMem Lts

namespace Server

/-! ### The tracker of a device in the server -/

/-- The tracker of the device with mapped area `d`, serving partner `p`. -/
def view (s : Server) (p : Nat) (d : SrcDisk) : Tracker where
  dirty h b := decide (b < 8 * d.bitmapSize) && bit (s.kernel.mem d.area) (8 * d.off h + b)
  active := ((s.kernel.bitmapOf (p + 1)).map fun b => b.bmapUser.half).getD .first
  phase := s.phase p
  marked := (s.ubitmap p).map fun ub => ub.bmapUser.marked
  ready := (s.ubitmap p).any fun ub => decide (ub.bitmapState = .ready)
  ship b := (s.ubitmap p).any fun ub => bit ub.bitmapArea b
  released := decide (s.partnerState p = .released)
  recovery := s.recoveryMode p
  conn := s.connState p

/-- What an event of the server is for the device of partner `p`. -/
def label (s : Server) (p : Nat) : Event → Label
  | .write i bio =>
    if i = p + 1 ∧ bio.isWrite = true then
      match s.kernel.bitmapOf i with
      | some b => .write (firstBit b bio) (lastBit b bio)
      | none => .other
    else .other
  | .recvMetadata q => if q = p then .request else .other
  | .recvTerminate q => if q = p then .terminate else .other
  | .run q =>
    if q = p then
      .run ((s.kernel.getUser s.ioctlObj.index).getD .kernel)
        ((s.srcDisk p).any fun d => decide (loadLE (s.kernel.mem d.area) 0 8 ≠ 0))
    else .other
  | .connPause q => if q = p then .pause else .other
  | .connResume q => if q = p then .resume else .other
  | .loadRow q _ => if q = p then .revive else .other
  | .restart => .restart (decide (s.Live p))
  | .control _ => .other

/-- Events other than the steps of the control thread. -/
def NoControl : Event → Prop
  | .control _ => False
  | _ => True

instance : (e : Event) → Decidable (NoControl e)
  | .control _ => isFalse id
  | .write _ _ | .recvMetadata _ | .recvTerminate _ | .run _ | .connPause _ | .connResume _
  | .loadRow .. | .restart => isTrue trivial

/-- Partner `p` is served from a created device, whose two halves its disk object describes. -/
structure DiskOk (k : Kernel) (p a : Nat) (d : SrcDisk) : Prop where
  created : k.Created (p + 1)
  device : Kernel.DeviceOk k (p + 1) a d.area
  size : d.bitmapSize = k.vmallocAreaSz (p + 1)

/-- The daemon's tables agree with the kernel, and the index with every window. -/
structure Coherent (s : Server) : Prop where
  kernel : s.kernel.Inv
  disk : ∀ p d, s.srcDisk p = some d → ∃ a, DiskOk s.kernel p a d
  size : ∀ p ub d h k flip, s.phase p = .copying h k flip → s.ubitmap p = some ub →
    s.srcDisk p = some d → ub.bitmapSize = d.bitmapSize
  index : IndexOk s

theorem DiskOk.off {k : Kernel} {p a : Nat} {d : SrcDisk} (h : DiskOk k p a d) (g : Half) :
    d.off g = k.halfOff (p + 1) g := by
  cases g with
  | first => rfl
  | second => exact h.size

theorem DiskOk.bitmapOf {k : Kernel} {p a : Nat} {d : SrcDisk} (h : DiskOk k p a d) (hk : k.Inv) :
    k.bitmapOf (p + 1) = some (k.bitmaps a) :=
  h.device.bitmapOf (hk.created_lt h.created)

/-! ### What the other devices do not see -/

theorem view_congr {s s' : Server} {p : Nat} {d : SrcDisk} (h : SameAt s s' p)
    (hb : s'.kernel.bitmapOf (p + 1) = s.kernel.bitmapOf (p + 1))
    (hm : s'.kernel.mem d.area = s.kernel.mem d.area) : s'.view p d = s.view p d := by
  unfold view
  rw [h.phase, h.ubitmap, h.recoveryMode, h.connState, h.partnerState, hb, hm]

theorem Coherent.area_ne {s : Server} (hc : Coherent s) {i j a a' r r' : Nat}
    (hi : s.kernel.Created i) (hj : s.kernel.Created j) (h : Kernel.DeviceOk s.kernel i a r)
    (h' : Kernel.DeviceOk s.kernel j a' r') (hne : i ≠ j) : r ≠ r' := by
  rintro rfl
  exact hne (hc.kernel.area_inj i j r hi hj h.area h'.area)

theorem Coherent.bitmap_ne {s : Server} (hc : Coherent s) {i j a a' r r' : Nat}
    (hi : s.kernel.Created i) (hj : s.kernel.Created j) (h : Kernel.DeviceOk s.kernel i a r)
    (h' : Kernel.DeviceOk s.kernel j a' r') (hne : i ≠ j) : a ≠ a' := by
  rintro rfl
  exact hne (hc.kernel.bitmap_inj i j a hi hj h.bitmap h'.bitmap)

theorem Coherent.flip {s : Server} (hc : Coherent s) {q : Nat} {h : Half} {k : Nat} {k' : Kernel}
    {d : SrcDisk} (hp : s.phase q = .copying h k true) (hd : s.srcDisk q = some d)
    (hf : s.kernel.flipBitmapArea s.ioctlObj.index = some k') :
    ∃ a, DiskOk s.kernel q a d ∧
      k' = s.kernel.setBitmap a (s.kernel.flipped (q + 1) a d.area) := by
  obtain ⟨a, hok⟩ := hc.disk q d hd
  have hidx : s.ioctlObj.index = q + 1 := by
    refine hc.index q ?_
    rw [InWindow, hp]
    trivial
  rw [hidx, Kernel.flipBitmapArea_spec hc.kernel hok.created hok.device] at hf
  exact ⟨a, hok, (Option.some.inj hf).symm⟩

theorem Coherent.write {s : Server} (hc : Coherent s) {i : Nat} {bio : Bio} {k' : Kernel}
    (hi : s.kernel.Created i) (h : ebdrMakeRequest s.kernel i bio = some k') :
    ∃ a r m, Kernel.DeviceOk s.kernel i a r ∧ k' = s.kernel.setMem r m ∧
      (bio.isWrite = false → m = s.kernel.mem r) ∧
      (bio.isWrite = true → ∀ x, bit m x =
        (decide (8 * (s.kernel.halfOff i (s.kernel.bitmaps a).bmapUser.half : Int) +
              firstBit (s.kernel.bitmaps a) bio ≤ x ∧
            (x : Int) ≤ 8 * s.kernel.halfOff i (s.kernel.bitmaps a).bmapUser.half +
              lastBit (s.kernel.bitmaps a) bio) || bit (s.kernel.mem r) x)) := by
  obtain ⟨a, r, hd⟩ := hc.kernel.device i hi
  cases hw : bio.isWrite with
  | true =>
    obtain ⟨m, hm, hbit⟩ := Kernel.ebdrMakeRequest_spec hc.kernel hi hd hw
    rw [hm] at h
    cases h
    exact ⟨a, r, m, hd, rfl, by simp, fun _ => hbit⟩
  | false =>
    refine ⟨a, r, s.kernel.mem r, hd, ?_, fun _ => rfl, by simp⟩
    rw [ebdrMakeRequest, if_pos hi, hd.bitmapOf (hc.kernel.created_lt hi), Option.bind_some, hw] at h
    cases h
    simp [Kernel.setMem]

theorem created_of_write {k k' : Kernel} {i : Nat} {bio : Bio}
    (h : ebdrMakeRequest k i bio = some k') : k.Created i := by
  unfold ebdrMakeRequest at h
  split at h
  · assumption
  · cases h

/-! ### Every step of the server is a step of the tracker -/

@[simp] theorem view_setPhase (s : Server) (p : Nat) (d : SrcDisk) (ph : Phase) :
    (s.setPhase p ph).view p d = { s.view p d with phase := ph } := by
  simp only [view, setPhase, Function.update_self]
  rfl

@[simp] theorem view_setUbitmap (s : Server) (p : Nat) (d : SrcDisk) (ub : UserBitmap) :
    (s.setUbitmap p ub).view p d =
      { s.view p d with
        marked := some ub.bmapUser.marked
        ready := decide (ub.bitmapState = .ready)
        ship := fun b => bit ub.bitmapArea b } := by
  simp only [view, setUbitmap, Function.update_self, Option.map_some, Option.any_some]
  rfl

theorem view_marked {s : Server} {p : Nat} {ub : UserBitmap} (h : s.ubitmap p = some ub)
    (d : SrcDisk) : (s.view p d).marked = some ub.bmapUser.marked := by
  rw [view, h, Option.map_some]

theorem view_active {s : Server} {p a : Nat} {d : SrcDisk} (hc : Coherent s)
    (h : DiskOk s.kernel p a d) : (s.view p d).active = (s.kernel.bitmaps a).bmapUser.half := by
  rw [view, h.bitmapOf hc.kernel, Option.map_some, Option.getD_some]

theorem view_eta {s : Server} {p : Nat} {ub : UserBitmap} (h : s.ubitmap p = some ub) (d : SrcDisk) :
    s.view p d =
      { s.view p d with
        marked := some ub.bmapUser.marked
        ready := decide (ub.bitmapState = .ready)
        ship := fun b => bit ub.bitmapArea b } := by
  simp [view, h]

theorem Coherent.getUser {s : Server} {p a : Nat} {d : SrcDisk} {u : BmapUser} (hc : Coherent s)
    (hok : DiskOk s.kernel p a d) (hp : s.phase p = .indexed) (hn : s.Normal p)
    (hu : s.kernel.getUser s.ioctlObj.index = some u) : u = (s.kernel.bitmaps a).bmapUser := by
  have hidx : s.ioctlObj.index = p + 1 := by
    refine hc.index p ?_
    rw [InWindow, hp]
    exact hn
  rw [hidx, Kernel.getUser, hok.bitmapOf hc.kernel, Option.bind_some, hok.device.ptr,
    Option.map_some] at hu
  exact (Option.some.inj hu).symm

theorem view_setConn (s : Server) (p : Nat) (d : SrcDisk) (c : ConnObjState) :
    ({ s with connState := Function.update s.connState p c } : Server).view p d =
      { s.view p d with conn := c } := by
  simp only [view, Function.update_self]

theorem view_flip {s : Server} {p a : Nat} {d : SrcDisk} (hc : Coherent s)
    (hok : DiskOk s.kernel p a d) :
    ({ s with kernel := s.kernel.setBitmap a (s.kernel.flipped (p + 1) a d.area) } : Server).view p d =
      { s.view p d with active := (s.view p d).active.other } := by
  have hb : (s.kernel.setBitmap a (s.kernel.flipped (p + 1) a d.area)).bitmapOf (p + 1) =
      some (s.kernel.flipped (p + 1) a d.area) := by
    rw [Kernel.bitmapOf, if_pos (hc.kernel.created_lt hok.created)]
    change (s.kernel.device (p + 1)).bitmap.map _ = _
    rw [hok.device.bitmap, Option.map_some, Kernel.setBitmap]
    simp
  have hu : (s.kernel.flipped (p + 1) a d.area).bmapUser.half =
      (s.kernel.bitmaps a).bmapUser.half.other := by
    rw [Kernel.flipped, BmapUser.half_other]
  rw [view_active hc hok]
  unfold view
  simp only [hb, Option.map_some, Option.getD_some, hu]
  rfl

theorem view_setMem (s : Server) (p : Nat) (d : SrcDisk) (m : Mem) :
    ({ s with kernel := s.kernel.setMem d.area m } : Server).view p d =
      { s.view p d with
        dirty := fun h b => decide (b < 8 * d.bitmapSize) && bit m (8 * d.off h + b) } := by
  have hm : (s.kernel.setMem d.area m).mem d.area = m := by
    simp [Kernel.setMem]
  unfold view
  simp only [hm]
  rfl

theorem view_clear {s : Server} {p : Nat} {d : SrcDisk} {h : Half} {k : Nat}
    (hk : k < d.bitmapSize / 8) :
    ({ s with
      kernel := s.kernel.setMem d.area
        (storeLE (s.kernel.mem d.area) (d.off h + 8 * k) 8 0) } : Server).view p d =
      { s.view p d with
        dirty := fun g b => if g = h ∧ Tracker.word b = k then false else (s.view p d).dirty g b } := by
  have hbit : ∀ g b, (decide (b < 8 * d.bitmapSize) &&
      bit (storeLE (s.kernel.mem d.area) (d.off h + 8 * k) 8 0) (8 * d.off g + b)) =
      if g = h ∧ Tracker.word b = k then false
      else decide (b < 8 * d.bitmapSize) && bit (s.kernel.mem d.area) (8 * d.off g + b) := by
    intro g b
    by_cases hb : b < 8 * d.bitmapSize
    · rw [bit_storeLE, Nat.zero_testBit, decide_eq_true hb, Bool.true_and, Bool.true_and]
      have hin : (8 * (d.off h + 8 * k) ≤ 8 * d.off g + b ∧
          8 * d.off g + b < 8 * (d.off h + 8 * k + 8)) ↔ g = h ∧ Tracker.word b = k := by
        unfold Tracker.word
        cases g <;> cases h <;> simp only [SrcDisk.off, reduceCtorEq, true_and, false_and, iff_false]
        all_goals omega
      rw [if_congr hin rfl rfl]
    · rw [decide_eq_false hb, Bool.false_and, Bool.false_and, ite_self]
  rw [view_setMem]
  simp only [hbit]
  rfl

theorem bit_copy_view {s : Server} {p : Nat} {d : SrcDisk} {ub : UserBitmap} {h : Half} {k : Nat}
    (hub : s.ubitmap p = some ub) (hk : k < d.bitmapSize / 8) (b : Nat) :
    bit (copyWord 8 ub.bitmapArea (8 * k) (s.kernel.mem d.area) (d.off h + 8 * k)) b =
      if Tracker.word b = k then (s.view p d).dirty h b else (s.view p d).ship b := by
  have hin : (8 * (8 * k) ≤ b ∧ b < 8 * (8 * k + 8)) ↔ Tracker.word b = k := by
    unfold Tracker.word
    omega
  rw [bit_copyWord, if_congr hin rfl rfl]
  by_cases hw : Tracker.word b = k
  · have h1 := hin.mpr hw
    have h2 : b < 8 * d.bitmapSize := by omega
    have h3 : 8 * (d.off h + 8 * k) + (b - 8 * (8 * k)) = 8 * d.off h + b := by omega
    rw [if_pos hw, if_pos hw, h3, view]
    dsimp only
    rw [decide_eq_true h2, Bool.true_and]
  · rw [if_neg hw, if_neg hw, view, hub]
    rfl

theorem reentryHalf_eq (m : Mem) :
    reentryHalf m = Tracker.reentry (decide (loadLE m 0 8 ≠ 0)) := by
  unfold reentryHalf Tracker.reentry
  by_cases h : loadLE m 0 8 = 0 <;> simp [h]

theorem mark_other_half (u : BmapUser) : u.half.mark.other = u := by cases u <;> rfl

theorem view_run {s s' : Server} {p : Nat} {d : SrcDisk} (hc : Coherent s)
    (hd : s.srcDisk p = some d) (h : ThreadStep p s s') :
    (s.view p d).step (d.bitmapSize / 8) (s.label p (.run p)) = some (s'.view p d) := by
  obtain ⟨a, hok⟩ := hc.disk p d hd
  rw [label, if_pos rfl, Tracker.step]
  cases h with
  | index hp =>
    have hph : (s.view p d).phase = .created := hp
    rw [Tracker.run, hph, view_setPhase]
    rfl
  | getUser hp u hu =>
    have hph : (s.view p d).phase = .indexed := hp
    rw [Tracker.run, hph, view_setPhase, hu, Option.getD_some]
    by_cases hn : (s.view p d).Normal
    · have hu' := hc.getUser hok hp hn hu
      have huser : (s.view p d).user = u := by
        rw [Tracker.user, view_active hc hok, hu', mark_other_half]
      dsimp only
      rw [if_pos hn, huser]
    · dsimp only
      rw [if_neg hn]
  | @choose u hp ub hub d' hd' =>
    cases hd.symm.trans hd'
    have hph : (s.view p d).phase = .gotUser u := hp
    rw [Tracker.run, hph]
    have hiff : (s.view p d).Normal ↔ s.Normal p := Iff.rfl
    by_cases hn : s.Normal p
    · dsimp only
      rw [if_pos (hiff.mpr hn), choose, if_pos hn, chooseHalf, view_setPhase, view_setUbitmap,
        Half.marked_mark, view_eta hub]
      rfl
    · dsimp only
      rw [if_neg (mt hiff.mp hn), choose, if_neg hn, chooseHalf, view_setPhase, view_setUbitmap,
        Half.marked_mark, hd, Option.any_some, ← reentryHalf_eq]
      have hconn := view_setConn { s with ioctlObj := { s.ioctlObj with
        bmapUser := (reentryHalf (s.kernel.mem d.area)).mark } } p d .inUse
      dsimp only at hconn ⊢
      rw [hconn]
      exact congrArg some (by rw [Tracker.startCopy, view_eta hub]; rfl)
  | @copy h k flip hp ub hub d' hd' hk =>
    cases hd.symm.trans hd'
    have hph : (s.view p d).phase = .copying h k flip := hp
    rw [hc.size p ub d h k flip hp hub hd] at hk
    rw [Tracker.run, hph]
    dsimp only
    rw [if_pos hk, view_setPhase, view_setUbitmap]
    simp only [Option.some.injEq, Tracker.mk.injEq]
    refine ⟨trivial, trivial, trivial, view_marked hub d, ?_, ?_, trivial, trivial, trivial⟩
    · rw [view, hub, Option.any_some]
    · funext b
      exact (bit_copy_view hub hk b).symm
  | @flip h k hp ub hub d' hd' hk k' hf =>
    have hph : (s.view p d).phase = .copying h k true := hp
    rw [hc.size p ub d h k true hp hub hd] at hk
    rw [Tracker.run, hph]
    dsimp only
    obtain ⟨a', hok', rfl⟩ := hc.flip hp hd hf
    rw [if_neg (Nat.not_lt.mpr hk), if_pos rfl, view_setPhase, view_setUbitmap, view_flip hc hok',
      view_eta hub]
    rfl
  | @keep h k hp ub hub hk =>
    have hph : (s.view p d).phase = .copying h k false := hp
    rw [hc.size p ub d h k false hp hub hd] at hk
    rw [Tracker.run, hph]
    dsimp only
    rw [if_neg (Nat.not_lt.mpr hk), if_neg (by decide), view_setPhase, view_setUbitmap, view_eta hub]
    rfl
  | send hp =>
    have hph : (s.view p d).phase = .loaded := hp
    rw [Tracker.run, hph, view_setPhase]
  | @clear h k hp d' hd' hk =>
    cases hd.symm.trans hd'
    have hph : (s.view p d).phase = .clearing h k := hp
    rw [Tracker.run, hph]
    dsimp only
    rw [if_pos hk, view_setPhase, view_clear hk]
  | @clearEnd h k hp d' hd' hk =>
    cases hd.symm.trans hd'
    have hph : (s.view p d).phase = .clearing h k := hp
    rw [Tracker.run, hph]
    dsimp only
    rw [if_neg (Nat.not_lt.mpr hk), view_setPhase]
    simp only [view, Function.update_self, decide_true]

theorem view_run_other {s s' : Server} {p q : Nat} {d : SrcDisk} (hc : Coherent s)
    (hd : s.srcDisk p = some d) (hne : p ≠ q) (h : ThreadStep q s s') :
    s'.view p d = s.view p d := by
  obtain ⟨a, hok⟩ := hc.disk p d hd
  have hsame := threadStep_same hne h
  have hne' : p + 1 ≠ q + 1 := by omega
  cases h with
  | @flip h k hp ub hub d' hd' hk k' hf =>
    obtain ⟨a', hok', rfl⟩ := hc.flip hp hd' hf
    have haa := hc.bitmap_ne hok.created hok'.created hok.device hok'.device hne'
    refine view_congr hsame ?_ rfl
    rw [hok.bitmapOf hc.kernel]
    simp [Kernel.bitmapOf, Kernel.setBitmap, setPhase, setUbitmap, hok.device.bitmap,
      hc.kernel.created_lt hok.created, Function.update_of_ne haa]
  | @clear h k hp d' hd' hk =>
    obtain ⟨a', hok'⟩ := hc.disk q d' hd'
    have hrr := hc.area_ne hok.created hok'.created hok.device hok'.device hne'
    refine view_congr hsame rfl ?_
    simp [Kernel.setMem, setPhase, Function.update_of_ne hrr]
  | choose hp hub hd' =>
    refine view_congr hsame ?_ ?_ <;> unfold choose <;> split <;> rfl
  | index hp | getUser hp | copy hp | keep hp | send hp | clearEnd hp =>
    exact view_congr hsame rfl rfl

theorem view_write {s : Server} {p i : Nat} {d : SrcDisk} {bio : Bio} {k' : Kernel} (hc : Coherent s)
    (hd : s.srcDisk p = some d) (h : ebdrMakeRequest s.kernel i bio = some k') :
    (s.view p d).step (d.bitmapSize / 8) (s.label p (.write i bio)) =
      some (({ s with kernel := k' } : Server).view p d) := by
  obtain ⟨a, hok⟩ := hc.disk p d hd
  have hi := created_of_write h
  obtain ⟨a', r, m, hd', rfl, hread, hwrite⟩ := hc.write hi h
  have hsame : SameAt s ({ s with kernel := s.kernel.setMem r m } : Server) p := by
    constructor <;> rfl
  rw [label]
  by_cases hip : i = p + 1
  · subst hip
    obtain rfl : a = a' := Option.some.inj (hok.device.bitmap.symm.trans hd'.bitmap)
    obtain rfl : d.area = r := Option.some.inj (hok.device.area.symm.trans hd'.area)
    cases hw : bio.isWrite with
    | false =>
      obtain rfl := hread hw
      rw [if_neg (by simp), Tracker.step]
      refine congrArg some (view_congr hsame rfl ?_).symm
      simp [Kernel.setMem]
    | true =>
      have hsz := hok.size
      have hle := hd'.size_le
      have hsmall := hd'.small
      have hf := firstBit_mem hd'.size_pos (by omega) bio
      have hl := lastBit_mem hd'.size_pos (by omega) bio
      have hbit := hwrite hw
      rw [← hok.off] at hbit
      rw [if_pos ⟨rfl, rfl⟩, hok.bitmapOf hc.kernel]
      dsimp only
      rw [Tracker.step, view_setMem]
      refine congrArg (fun f => some { s.view p d with dirty := f }) ?_
      funext h b
      rw [view_active hc hok, hbit]
      by_cases hb : b < 8 * d.bitmapSize
      · have hrange : (8 * (d.off (s.kernel.bitmaps a).bmapUser.half : Int) +
              firstBit (s.kernel.bitmaps a) bio ≤ ((8 * d.off h + b : Nat) : Int) ∧
            ((8 * d.off h + b : Nat) : Int) ≤ 8 * d.off (s.kernel.bitmaps a).bmapUser.half +
              lastBit (s.kernel.bitmaps a) bio) ↔
            h = (s.kernel.bitmaps a).bmapUser.half ∧
              (firstBit (s.kernel.bitmaps a) bio ≤ b ∧ (b : Int) ≤ lastBit (s.kernel.bitmaps a) bio) := by
          cases h <;> cases (s.kernel.bitmaps a).bmapUser.half <;>
            simp only [SrcDisk.off, reduceCtorEq, true_and, false_and, iff_false]
          all_goals omega
        rw [decide_eq_true hb, Bool.true_and, decide_eq_decide.mpr hrange, view]
        dsimp only
        rw [decide_eq_true hb, Bool.true_and]
      · have hout : ¬ (h = (s.kernel.bitmaps a).bmapUser.half ∧
            firstBit (s.kernel.bitmaps a) bio ≤ b ∧ (b : Int) ≤ lastBit (s.kernel.bitmaps a) bio) := by
          omega
        rw [decide_eq_false hb, Bool.false_and, decide_eq_false hout, Bool.false_or, view]
        dsimp only
        rw [decide_eq_false hb, Bool.false_and]
  · rw [if_neg (fun hh => hip hh.1), Tracker.step]
    have hrr := hc.area_ne hok.created hi hok.device hd' (fun hh => hip hh.symm)
    refine congrArg some (view_congr hsame rfl ?_).symm
    simp [Kernel.setMem, Function.update_of_ne hrr]

theorem step_kernel {s s' : Server} {e : Event} {q : Nat} (he : e.partner = some q)
    (hrun : e ≠ .run q) (h : s.step e = some s') : s'.kernel = s.kernel := by
  cases stepCase_of_step h with
  | metadata | terminated | terminate | connPause | connResume | loadRow => rfl
  | run => exact absurd (congrArg Event.run (Option.some.inj he)) hrun
  | write | control | restart => cases he

theorem view_other {s s' : Server} {p q : Nat} {d : SrcDisk} {e : Event} (hc : Coherent s)
    (hd : s.srcDisk p = some d) (he : e.partner = some q) (hne : q ≠ p) (h : s.step e = some s') :
    s.label p e = .other ∧ s'.view p d = s.view p d := by
  have hsame : e ≠ .restart → SameAt s s' p := fun hr =>
    step_same (by rw [he]; exact fun hh => hne (Option.some.inj hh)) hr h
  cases e with
  | write i bio => cases he
  | control c => cases he
  | restart => cases he
  | recvMetadata q' | recvTerminate q' | connPause q' | connResume q' | loadRow q' state =>
    cases he
    have hk := step_kernel (q := q) rfl (by simp) h
    refine ⟨if_neg hne, view_congr (hsame (by simp)) ?_ ?_⟩
    · rw [hk]
    · rw [hk]
  | run q' =>
    cases he
    exact ⟨if_neg hne, view_run_other hc hd (fun hh => hne hh.symm) (threadStep_of_run h)⟩

/-- **Simulation.** Every step of the server is a step of the tracker of each device. -/
theorem view_step {s s' : Server} {p : Nat} {d : SrcDisk} {e : Event} (hc : Coherent s)
    (hd : s.srcDisk p = some d) (hn : NoControl e) (h : s.step e = some s') :
    (s.view p d).step (d.bitmapSize / 8) (s.label p e) = some (s'.view p d) := by
  by_cases hother : ∃ q, e.partner = some q ∧ q ≠ p
  · obtain ⟨q, he, hne⟩ := hother
    obtain ⟨hl, hv⟩ := view_other hc hd he hne h
    rw [hl, hv, Tracker.step]
  have hown : ∀ q, e.partner = some q → q = p := fun q hq =>
    Decidable.byContradiction fun hne => hother ⟨q, hq, hne⟩
  cases stepCase_of_step h with
  | write hk => exact view_write hc hd hk
  | control => exact hn.elim
  | @metadata q hp =>
    obtain rfl := hown q rfl
    have hph : (s.view q d).phase = .idle := hp
    rw [label, if_pos rfl, Tracker.step, if_pos hph, view_setPhase, view_setUbitmap]
    by_cases hrel : s.partnerState q = .released
    · simp [hrel, view, bitmapServerCreate, BmapUser.marked, BmapUser.half, Half.other, bit]
    · simp [hrel, view, bitmapServerCreate, BmapUser.marked, BmapUser.half, Half.other, bit]
  | @terminated q hp hst =>
    obtain rfl := hown q rfl
    have hph : (s.view q d).phase = .idle := hp
    have hrel : (s.view q d).released = true := decide_eq_true hst
    rw [label, if_pos rfl, Tracker.step, if_pos hph, if_pos hrel]
  | @terminate q hp hst ub hub =>
    obtain rfl := hown q rfl
    have hph : (s.view q d).phase = .idle := hp
    have hrel : ¬ (s.view q d).released = true := by simpa [view] using hst
    have hm := view_marked hub d
    rw [label, if_pos rfl, Tracker.step, if_pos hph, if_neg hrel, hm, Option.map_some,
      view_setPhase]
    simp [hm]
  | @run q _ ht =>
    obtain rfl := hown q rfl
    exact view_run hc hd ht
  | @connPause q hp =>
    obtain rfl := hown q rfl
    have hph : (s.view q d).phase = .idle := hp
    rw [label, if_pos rfl, Tracker.step, if_pos hph, view_setConn]
  | @connResume q hcn =>
    obtain rfl := hown q rfl
    have hcn' : (s.view q d).conn = .pause := hcn
    rw [label, if_pos rfl, Tracker.step, if_pos hcn', view_setConn]
  | @loadRow q state hst =>
    obtain rfl := hown q rfl
    rw [label, if_pos rfl, Tracker.step]
    simp [view, hst]
  | restart =>
    have hst : (if s.Live p then s.partnerState p else .free) ≠ PartnerObjState.released := by
      split
      · rename_i hlive
        exact hlive.2
      · exact PartnerObjState.noConfusion
    rw [label, Tracker.step]
    simp [view, restart, hd, hst, bitmapServerCreate, BmapUser.marked, BmapUser.half, Half.other, bit]

/-! ### The tables stay coherent -/

theorem diskOk_of_inv {k : Kernel} {p : Nat} {d : SrcDisk} (hk : k.Inv) (hc : k.Created (p + 1))
    (ha : k.vmallocArea (p + 1) = some d.area) (hs : d.bitmapSize = k.vmallocAreaSz (p + 1)) :
    ∃ a, DiskOk k p a d := by
  obtain ⟨a, r, h⟩ := hk.device (p + 1) hc
  obtain rfl : d.area = r := Option.some.inj (ha.symm.trans h.area)
  exact ⟨a, hc, h, hs⟩

/-- A step that is not the control thread's leaves the tables of the devices alone. -/
structure SameTables (s s' : Server) : Prop where
  inv : s'.kernel.Inv
  minor : s'.kernel.minor = s.kernel.minor
  area : s'.kernel.vmallocArea = s.kernel.vmallocArea
  size : s'.kernel.vmallocAreaSz = s.kernel.vmallocAreaSz
  disk : s'.srcDisk = s.srcDisk

theorem sameTables_run {s s' : Server} {p : Nat} (hc : Coherent s) (h : ThreadStep p s s') :
    SameTables s s' := by
  cases h with
  | @flip h k hp ub hub d hd hk k' hf =>
    obtain ⟨a, hok, rfl⟩ := hc.flip hp hd hf
    exact ⟨hc.kernel.flip hok.created hok.device, rfl, rfl, rfl, rfl⟩
  | clear hp hd hk => exact ⟨hc.kernel.setMem _ _, rfl, rfl, rfl, rfl⟩
  | choose hp hub hd =>
    unfold choose
    split <;> exact ⟨hc.kernel, rfl, rfl, rfl, rfl⟩
  | index hp | getUser hp | copy hp | keep hp | send hp | clearEnd hp =>
    exact ⟨hc.kernel, rfl, rfl, rfl, rfl⟩

theorem sameTables_step {s s' : Server} {e : Event} (hc : Coherent s) (hn : NoControl e)
    (h : s.step e = some s') : SameTables s s' := by
  cases stepCase_of_step h with
  | write hk =>
    obtain ⟨r, m, rfl⟩ := Kernel.ebdrMakeRequest_cases hk
    exact ⟨hc.kernel.setMem r m, rfl, rfl, rfl, rfl⟩
  | control => exact hn.elim
  | run ht => exact sameTables_run hc ht
  | metadata | terminated | terminate | connPause | connResume | loadRow | restart =>
    exact ⟨hc.kernel, rfl, rfl, rfl, rfl⟩

/-- While a half is copied, the user bitmap has the size of a half. -/
def CopySize (s : Server) (p : Nat) : Prop :=
  ∀ ub d h k flip, s.phase p = .copying h k flip → s.ubitmap p = some ub → s.srcDisk p = some d →
    ub.bitmapSize = d.bitmapSize

theorem copySize_run {s s' : Server} {p : Nat} (hi : CopySize s p) (h : ThreadStep p s s') :
    CopySize s' p := by
  intro ub d h' k' flip' hp' hub' hd'
  cases h with
  | @choose u hp ub0 hub d0 hd =>
    have hub0 : (s.choose p u ub0 d0).srcDisk p = s.srcDisk p := by
      unfold choose
      split <;> rfl
    cases (hub0.symm.trans hd').symm.trans hd
    unfold choose at hub'
    split at hub' <;> simp [chooseHalf, setPhase, setUbitmap] at hub' <;> rw [← hub']
  | @copy h k flip hp ub0 hub d0 hd hk =>
    have hsize := hi ub0 d h k flip hp hub hd'
    simp [setPhase, setUbitmap] at hub'
    rw [← hub']
    exact hsize
  | index hp | getUser hp | flip hp | keep hp | send hp | clear hp | clearEnd hp =>
    simp [setPhase] at hp'

/-- **Step lemma.** -/
theorem coherent_step {s s' : Server} {e : Event} (hc : Coherent s) (hn : NoControl e)
    (hk : KeepsIndex s e) (h : s.step e = some s') : Coherent s' := by
  have ht := sameTables_step hc hn h
  refine ⟨ht.inv, ?_, ?_, index_step hc.index hk h⟩
  · intro p d hd
    rw [ht.disk] at hd
    obtain ⟨a, hok⟩ := hc.disk p d hd
    refine diskOk_of_inv ht.inv ⟨hok.created.1, ?_⟩ ?_ ?_
    · rw [ht.minor]
      exact hok.created.2
    · rw [ht.area]
      exact hok.device.area
    · rw [ht.size]
      exact hok.size
  · intro p
    by_cases hr : e = .restart
    · subst hr
      cases h
      intro ub d h k flip hp
      cases hp
    by_cases hp : e.partner = some p
    · cases stepCase_of_step h with
      | write | control | restart => cases hp
      | run htr =>
        cases hp
        exact copySize_run (hc.size p) htr
      | metadata | terminate =>
        cases hp
        intro ub d h' k flip hph
        simp [setPhase] at hph
      | terminated | connPause | connResume | loadRow => exact hc.size p
    · have hsame := step_same hp hr h
      intro ub d h' k flip hph hub hd
      rw [hsame.phase] at hph
      rw [hsame.ubitmap] at hub
      rw [ht.disk] at hd
      exact hc.size p ub d h' k flip hph hub hd

/-! ### Bits and labels -/

/-- Bit `b` of a half in the mapped area. -/
def halfBit (s : Server) (d : SrcDisk) (h : Half) (b : Nat) : Bool :=
  bit (s.kernel.mem d.area) (8 * d.off h + b)

/-- The devices are set up and no thread has a request. -/
structure Ready (s : Server) : Prop where
  kernel : s.kernel.Inv
  disk : ∀ p d, s.srcDisk p = some d → ∃ a, DiskOk s.kernel p a d
  idle : ∀ p, s.phase p = .idle

theorem view_dirty {s : Server} {p : Nat} {d : SrcDisk} {h : Half} {b : Nat}
    (hb : (s.view p d).dirty h b = true) : s.halfBit d h b = true := by
  rw [view] at hb
  exact (Bool.and_eq_true_iff.mp hb).2

/-- A write is never labelled as a step of the thread or as a request. -/
theorem label_write (s : Server) (p i : Nat) (bio : Bio) :
    s.label p (.write i bio) = .other ∨ ∃ f l, s.label p (.write i bio) = .write f l := by
  rw [label]
  split
  · split
    · exact Or.inr ⟨_, _, rfl⟩
    · exact Or.inl rfl
  · exact Or.inl rfl

theorem label_run {s : Server} {p : Nat} {e : Event} {u : BmapUser} {w : Bool}
    (h : s.label p e = .run u w) : e = .run p := by
  cases e with
  | write i bio =>
    rcases label_write s p i bio with hl | ⟨f, l, hl⟩ <;> rw [hl] at h <;> cases h
  | run q =>
    by_cases hq : q = p
    · rw [hq]
    · rw [label, if_neg hq] at h
      cases h
  | recvMetadata q | recvTerminate q | connPause q | connResume q | loadRow q state =>
    rw [label] at h
    split at h <;> cases h
  | control c => cases h
  | restart => cases h

theorem label_request {s : Server} {p : Nat} {e : Event} (h : s.label p e = .request) :
    e = .recvMetadata p := by
  cases e with
  | write i bio =>
    rcases label_write s p i bio with hl | ⟨f, l, hl⟩ <;> rw [hl] at h <;> cases h
  | recvMetadata q =>
    by_cases hq : q = p
    · rw [hq]
    · rw [label, if_neg hq] at h
      cases h
  | run q | recvTerminate q | connPause q | connResume q | loadRow q state =>
    rw [label] at h
    split at h <;> cases h
  | control c => cases h
  | restart => cases h

theorem label_terminate {s : Server} {p : Nat} {e : Event} (h : s.label p e = .terminate) :
    e = .recvTerminate p := by
  cases e with
  | write i bio =>
    rcases label_write s p i bio with hl | ⟨f, l, hl⟩ <;> rw [hl] at h <;> cases h
  | recvTerminate q =>
    by_cases hq : q = p
    · rw [hq]
    · rw [label, if_neg hq] at h
      cases h
  | run q | recvMetadata q | connPause q | connResume q | loadRow q state =>
    rw [label] at h
    split at h <;> cases h
  | control c => cases h
  | restart => cases h

theorem Ready.coherent {s : Server} (h : Ready s) : Coherent s where
  kernel := h.kernel
  disk := h.disk
  size := by
    intro p ub d g k flip hp
    rw [h.idle p] at hp
    cases hp
  index := indexOk_of_idle h.idle

/-! ### Two devices -/

/-- The module with two devices of 128 bits, 1024 bytes a bit. -/
def twoDeviceKernel : Kernel :=
  (run Kernel.step Kernel.init
    [Kernel.createOk [1] 1024 16, Kernel.createOk [2] 1024 16]).getD Kernel.init

/-- Two partners, no request so far. -/
def twoDevices : Server :=
  { boot with
    kernel := twoDeviceKernel
    srcDisk := fun p => if p = 0 then some ⟨16, 0⟩ else if p = 1 then some ⟨16, 2⟩ else none
    partnerState := fun p => if p < 2 then .inUse else .free
    dsCount := 2 }

theorem inv_twoDeviceKernel : twoDeviceKernel.Inv := by
  have hsome : (run Kernel.step Kernel.init
      [Kernel.createOk [1] 1024 16, Kernel.createOk [2] 1024 16]).isSome = true := by decide
  obtain ⟨k, hk⟩ := Option.isSome_iff_exists.mp hsome
  have hm : Meets Kernel.step (fun k e => Kernel.NamesCreated k e ∧ Kernel.FitsOwn k e) Kernel.init
      [Kernel.createOk [1] 1024 16, Kernel.createOk [2] 1024 16] := by decide
  rw [twoDeviceKernel, hk, Option.getD_some]
  exact run_inv (fun k e k' hi hok hs => Kernel.step_inv hi hok.1 hok.2 hs) Kernel.inv_init hm hk

theorem ready_twoDevices : Ready twoDevices where
  kernel := inv_twoDeviceKernel
  disk := by
    intro p d hd
    simp only [twoDevices] at hd
    split at hd
    · rename_i hp
      subst hp
      cases hd
      exact diskOk_of_inv inv_twoDeviceKernel (by decide) (by decide) (by decide)
    · split at hd
      · rename_i hp
        subst hp
        cases hd
        exact diskOk_of_inv inv_twoDeviceKernel (by decide) (by decide) (by decide)
      · cases hd
  idle := fun _ => rfl

end Server

end Ebdr
