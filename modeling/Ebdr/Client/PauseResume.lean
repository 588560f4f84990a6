import Ebdr.Client.Resync
import Ebdr.Lib.Lts

/-!
# What `pause` and `resume` go by

The two commands do not know whether a resync runs. `pause` takes `last_resynced_bit` being zero for
"already finished", and `resume` takes every `rep_state` but `RESYNC_COMPLETED` for something to
resume. `WatchedClient` runs the client and keeps beside it where the resync really stands: started,
paused, interrupted or completed.

`commands_iff` says in which of the states that any run reaches each command does what it should.
`in_order_right` is about the events: with one thread at a time, and commands that come in order,
the two fields stay what the commands take them for.
-/

namespace Ebdr

open Lts

/-- Where the resync of a partner stands. -/
inductive RealState where
  /-- Never started. -/
  | none
  | running
  | paused
  /-- The connection or the disk failed under it. -/
  | interrupted
  | completed
  deriving DecidableEq, Repr

/-- A failure interrupts a resync that is running. -/
def RealState.interrupt : RealState → RealState
  | .running => .interrupted
  | st => st

/-- A pause is for a resync that was started and has neither completed nor been paused. -/
def RealState.pause : RealState → RealState
  | .running | .interrupted => .paused
  | st => st

/-- The client, and where its resync stands. -/
structure WatchedClient where
  client : Client
  real : RealState

namespace WatchedClient

open Client

def init : WatchedClient := ⟨.boot, .none⟩

/-- After a step of thread `tid`. The thread in `resync_tid` is that of the last start; whichever
thread terminates the replication completes it. -/
def realAfterRun (g : WatchedClient) (tid : Nat) (ok : Bool) : RealState :=
  match g.client.phaseOf tid with
  | some (.send _ _) | some (.recv _ _) =>
    if ok = false ∧ tid = g.client.resyncTid then g.real.interrupt else g.real
  | some .release => .completed
  | some .terminate =>
    -- the end of the thread, with nothing left to terminate
    if g.client.repState = .completed ∧ tid = g.client.resyncTid ∧ g.real = .running then .completed
    else g.real
  | _ => g.real

/-- After an event that starts no thread. -/
def realAfterOther (g : WatchedClient) : Client.Event → RealState
  | .pause => if g.client.lastResyncedBit = 0 then g.real else g.real.pause
  | .run tid ok => g.realAfterRun tid ok
  | .endCancelled tid => if tid = g.client.resyncTid then g.real.interrupt else g.real
  | _ => g.real

def realAfter (g : WatchedClient) (e : Client.Event) : RealState :=
  if (g.client.launches e).isSome = true then .running else g.realAfterOther e

def step (geo : Geometry) (g : WatchedClient) (e : Client.Event) : Option WatchedClient :=
  (g.client.step geo e).map fun s => ⟨s, g.realAfter e⟩

/-! ### The commands -/

/-- The partner and its replication are marked paused. -/
def Marked (s : Client) : Prop := s.partnerState = .pause ∧ s.repState = .pause

instance (s : Client) : Decidable (Marked s) := inferInstanceAs (Decidable (_ ∧ _))

/-- The `pause` command marks the partner paused when its resync was started and has neither
completed nor been paused, and changes nothing otherwise. -/
def PauseRight (g : WatchedClient) : Prop :=
  if g.real = .running ∨ g.real = .interrupted then Marked g.client.pauseCommand
  else g.client.pauseCommand = g.client

/-- The `resume` command starts a thread at the last resynced bit when the resync was paused or
interrupted, and changes nothing otherwise. -/
def ResumeRight (g : WatchedClient) : Prop :=
  if g.real = .paused ∨ g.real = .interrupted then
    g.client.resumeCommand =
      { g.client with partnerState := .resume, repState := .resume }.resyncInit
        g.client.lastResyncedBit
  else g.client.resumeCommand = g.client

/-- What `pause` needs of `last_resynced_bit`. -/
def PauseOk (g : WatchedClient) : Prop :=
  match g.real with
  | .none => True
  | .running | .interrupted => g.client.lastResyncedBit ≠ 0 ∨ Marked g.client
  | .paused | .completed => g.client.lastResyncedBit = 0 ∨ Marked g.client

/-- What `resume` needs of `rep_state`. -/
def ResumeOk (g : WatchedClient) : Prop :=
  match g.real with
  | .none => False
  | .running | .completed => g.client.repState = .completed
  | .paused => True
  | .interrupted => g.client.repState ≠ .completed

instance instDecidablePauseOk : (g : WatchedClient) → Decidable (PauseOk g)
  | ⟨_, .none⟩ => isTrue trivial
  | ⟨s, .running⟩ | ⟨s, .interrupted⟩ =>
    inferInstanceAs (Decidable (s.lastResyncedBit ≠ 0 ∨ Marked s))
  | ⟨s, .paused⟩ | ⟨s, .completed⟩ =>
    inferInstanceAs (Decidable (s.lastResyncedBit = 0 ∨ Marked s))

instance instDecidableResumeOk : (g : WatchedClient) → Decidable (ResumeOk g)
  | ⟨_, .none⟩ => isFalse id
  | ⟨s, .running⟩ | ⟨s, .completed⟩ => inferInstanceAs (Decidable (s.repState = .completed))
  | ⟨_, .paused⟩ => isTrue trivial
  | ⟨s, .interrupted⟩ => inferInstanceAs (Decidable (s.repState ≠ .completed))

/-! ### The invariant -/

/-- No resync was started: nothing has touched what the commands look at. -/
structure Untouched (s : Client) : Prop where
  thread : ∀ tid, s.thread tid = none
  repState : s.repState = .inProgress
  lastResyncedBit : s.lastResyncedBit = 0
  diskState : s.diskState ≠ .pause
  connState : s.connState ≠ .pause

/-- Before the first start the client is untouched, and a paused replication is not completed. -/
structure Sound (g : WatchedClient) : Prop where
  untouched : g.real = .none → Untouched g.client
  paused : g.real = .paused → g.client.repState ≠ .completed

theorem Sound.init : Sound init where
  untouched := fun _ => ⟨fun _ => rfl, rfl, rfl, DiskObjState.noConfusion, ConnObjState.noConfusion⟩
  paused := RealState.noConfusion

variable {geo : Geometry} {g g' : WatchedClient} {s s' : Client}

theorem repState_threadStep {tid : Nat} {ok x : Bool} {ph : ResyncPhase}
    (h : ThreadStep geo s tid ok x ph s') :
    s'.repState = s.repState ∨ s'.repState = .inProgress ∨ ph = .release := by
  cases h with
  | start hg hrep => exact hrep.elim Or.inl fun h => Or.inr (Or.inl h)
  | release => exact Or.inr (Or.inr rfl)
  | _ => exact Or.inl rfl

theorem interrupt_eq_none {st : RealState} (h : st.interrupt = .none) : st = .none := by
  cases st with
  | none => rfl
  | _ => exact RealState.noConfusion h

theorem interrupt_eq_paused {st : RealState} (h : st.interrupt = .paused) : st = .paused := by
  cases st with
  | paused => rfl
  | _ => exact RealState.noConfusion h

theorem pause_eq_none {st : RealState} (h : st.pause = .none) : st = .none := by
  cases st with
  | none => rfl
  | _ => exact RealState.noConfusion h

theorem realAfterRun_cases (g : WatchedClient) (tid : Nat) (ok : Bool) :
    g.realAfterRun tid ok = g.real ∨ g.realAfterRun tid ok = g.real.interrupt ∨
      g.realAfterRun tid ok = .completed := by
  unfold realAfterRun
  split
  · split
    · exact Or.inr (Or.inl rfl)
    · exact Or.inl rfl
  · split
    · exact Or.inr (Or.inl rfl)
    · exact Or.inl rfl
  · exact Or.inr (Or.inr rfl)
  · split
    · exact Or.inr (Or.inr rfl)
    · exact Or.inl rfl
  · exact Or.inl rfl

theorem realAfterRun_release {tid : Nat} {ok : Bool} (h : g.client.phaseOf tid = some .release) :
    g.realAfterRun tid ok = .completed := by
  unfold realAfterRun
  rw [h]

theorem realAfterRun_paused {tid : Nat} {ok : Bool} (h : g.realAfterRun tid ok = .paused) :
    g.real = .paused := by
  obtain heq | heq | heq := realAfterRun_cases g tid ok
  · rwa [heq] at h
  · rw [heq] at h
    exact interrupt_eq_paused h
  · rw [heq] at h
    exact RealState.noConfusion h

theorem Untouched.step {e : Client.Event} (h : Untouched s) (hl : s.launches e = none)
    (hs : s.step geo e = some s') : Untouched s' := by
  cases stepCase_of_step hs with
  | metadata =>
    unfold requestMetadata
    dsimp only
    split
    · exact ⟨h.thread, h.repState, h.lastResyncedBit, DiskObjState.noConfusion, h.connState⟩
    · exact ⟨h.thread, h.repState, h.lastResyncedBit, h.diskState, h.connState⟩
  | bitmap => exact ⟨h.thread, h.repState, h.lastResyncedBit, h.diskState, h.connState⟩
  | pause haw hbit => exact absurd h.lastResyncedBit hbit
  | launch hlaunch =>
    rw [hl] at hlaunch
    exact absurd hlaunch.symm (Option.some_ne_none _)
  | idle => exact h
  | run hrun =>
    obtain ⟨th, hth, -⟩ := Option.bind_eq_some_iff.mp hs
    rw [h.thread] at hth
    exact absurd hth.symm (Option.some_ne_none _)
  | endCancelled hth =>
    rw [h.thread] at hth
    exact absurd hth.symm (Option.some_ne_none _)

theorem realAfter_eq {e : Client.Event} (hl : g.client.launches e = none) :
    g.realAfter e = g.realAfterOther e := by
  unfold realAfter
  rw [hl, if_neg (by simp)]

theorem realAfter_none {e : Client.Event} (hl : g.client.launches e = none)
    (h : g.realAfter e = .none) : g.real = .none := by
  rw [realAfter_eq hl] at h
  unfold realAfterOther at h
  split at h
  · split at h
    · exact h
    · exact pause_eq_none h
  · rename_i tid ok
    obtain heq | heq | heq := realAfterRun_cases g tid ok
    · rwa [heq] at h
    · rw [heq] at h
      exact interrupt_eq_none h
    · rw [heq] at h
      exact RealState.noConfusion h
  · split at h
    · exact interrupt_eq_none h
    · exact h
  · exact h

theorem Sound.repState_pause (h : Sound g) (hp : g.realAfterOther .pause = .paused) :
    g.client.pauseCommand.repState ≠ .completed := by
  unfold realAfterOther at hp
  unfold pauseCommand
  by_cases hbit : g.client.lastResyncedBit = 0
  · rw [if_pos hbit] at hp ⊢
    exact h.paused hp
  · rw [if_neg hbit]
    exact RepState.noConfusion

theorem Sound.repState_step {e : Client.Event} (h : Sound g) (hl : g.client.launches e = none)
    (hs : g.client.step geo e = some s) (hp : g.realAfter e = .paused) :
    s.repState ≠ .completed := by
  rw [realAfter_eq hl] at hp
  cases stepCase_of_step hs with
  | metadata =>
    have hrep : g.client.requestMetadata.repState = g.client.repState := by
      unfold requestMetadata
      dsimp only
      split <;> rfl
    rw [hrep]
    exact h.paused hp
  | bitmap => exact h.paused hp
  | pause haw hbit => exact RepState.noConfusion
  | launch hlaunch =>
    rw [hl] at hlaunch
    exact absurd hlaunch.symm (Option.some_ne_none _)
  | idle he =>
    obtain rfl | rfl | rfl | ⟨rfl, -⟩ := he
    · obtain ⟨-, hpause⟩ := command_eq_some hs
      rw [← hpause]
      exact h.repState_pause hp
    · exact h.paused hp
    · exact h.paused hp
    · exact h.paused hp
  | run hrun =>
    rename_i tid ok
    obtain ⟨⟨ph, x⟩, hth, -⟩ := Option.bind_eq_some_iff.mp hrun
    obtain hrep | hrep | hrelease := repState_threadStep (threadStep_of_run hth hrun)
    · rw [hrep]
      exact h.paused (realAfterRun_paused hp)
    · rw [hrep]
      exact RepState.noConfusion
    · have hphase : g.client.phaseOf tid = some .release := by
        rw [phaseOf, hth, Option.map_some, hrelease]
      replace hp : g.realAfterRun tid ok = .paused := hp
      rw [realAfterRun_release hphase] at hp
      exact RealState.noConfusion hp
  | endCancelled =>
    apply h.paused
    unfold realAfterOther at hp
    dsimp only at hp
    split at hp
    · exact interrupt_eq_paused hp
    · exact hp

theorem Sound.step {e : Client.Event} (h : Sound g) (hs : g.step geo e = some g') : Sound g' := by
  obtain ⟨s, hstep, rfl⟩ := Option.map_eq_some_iff.mp hs
  cases hl : g.client.launches e with
  | some pos =>
    have hreal : g.realAfter e = .running := by
      unfold realAfter
      rw [hl]
      rfl
    rw [hreal]
    exact ⟨RealState.noConfusion, RealState.noConfusion⟩
  | none =>
    refine ⟨?_, h.repState_step hl hstep⟩
    intro hnone
    exact (h.untouched (realAfter_none hl hnone)).step hl hstep

/-! ### The two commands -/

theorem marked_iff (s : Client) :
    { s with partnerState := .pause, repState := .pause } = s ↔ Marked s := by
  constructor
  · intro h
    exact ⟨(congrArg Client.partnerState h).symm, (congrArg Client.repState h).symm⟩
  · rintro ⟨hpartner, hrep⟩
    rw [← hpartner, ← hrep]

theorem marked_pauseCommand (s : Client) :
    Marked s.pauseCommand ↔ s.lastResyncedBit ≠ 0 ∨ Marked s := by
  unfold pauseCommand
  split
  · rename_i hbit
    simp [hbit]
  · rename_i hbit
    exact iff_of_true ⟨rfl, rfl⟩ (Or.inl hbit)

theorem pauseCommand_eq_iff (s : Client) :
    s.pauseCommand = s ↔ s.lastResyncedBit = 0 ∨ Marked s := by
  unfold pauseCommand
  split
  · rename_i hbit
    exact iff_of_true rfl (Or.inl hbit)
  · rename_i hbit
    rw [marked_iff]
    exact ⟨Or.inr, fun h => h.resolve_left hbit⟩

/-- `resume` starts a thread unless `rep_state` is `RESYNC_COMPLETED`. -/
theorem resumeCommand_eq_iff (s : Client) :
    s.resumeCommand = s ↔ s.repState = .completed := by
  unfold resumeCommand
  split
  · rename_i hrep
    exact iff_of_true rfl hrep
  · rename_i hrep
    refine iff_of_false ?_ hrep
    intro h
    have hnext := congrArg Client.nextTid h
    exact absurd hnext (Nat.succ_ne_self _)

theorem resumeCommand_starts_iff (s : Client) :
    s.resumeCommand =
        { s with partnerState := .resume, repState := .resume }.resyncInit s.lastResyncedBit ↔
      s.repState ≠ .completed := by
  unfold resumeCommand
  split
  · rename_i hrep
    refine iff_of_false ?_ (not_not.mpr hrep)
    intro h
    have hnext := congrArg Client.nextTid h
    exact absurd hnext.symm (Nat.succ_ne_self _)
  · rename_i hrep
    exact iff_of_true rfl hrep

theorem Sound.pauseRight_iff (h : Sound g) : g.PauseRight ↔ g.PauseOk := by
  unfold PauseRight PauseOk
  cases hreal : g.real with
  | none =>
    rw [if_neg (by simp), pauseCommand_eq_iff]
    exact iff_of_true (Or.inl (h.untouched hreal).lastResyncedBit) trivial
  | running | interrupted => rw [if_pos (by simp), marked_pauseCommand]
  | paused | completed => rw [if_neg (by simp), pauseCommand_eq_iff]

theorem Sound.resumeRight_iff (h : Sound g) : g.ResumeRight ↔ g.ResumeOk := by
  unfold ResumeRight ResumeOk
  cases hreal : g.real with
  | none =>
    rw [if_neg (by simp), resumeCommand_eq_iff, (h.untouched hreal).repState]
    exact iff_of_false RepState.noConfusion id
  | running | completed => rw [if_neg (by simp), resumeCommand_eq_iff]
  | paused =>
    rw [if_pos (by simp), resumeCommand_starts_iff]
    exact iff_of_true (h.paused hreal) trivial
  | interrupted => rw [if_pos (by simp), resumeCommand_starts_iff]

/-! ### Runs -/

/-- The command is one of the two, the control thread takes it, and the properties hold of it. -/
def AtCommand (pause resume : WatchedClient → Prop) (g : WatchedClient) : Client.Event → Prop
  | .pause => g.client.awaiting = false → pause g
  | .resume => g.client.awaiting = false → resume g
  | _ => True

instance instDecidableAtCommand {pause resume : WatchedClient → Prop}
    [∀ g, Decidable (pause g)] [∀ g, Decidable (resume g)] (g : WatchedClient) :
    (e : Client.Event) → Decidable (AtCommand pause resume g e)
  | .pause => inferInstanceAs (Decidable (g.client.awaiting = false → pause g))
  | .resume => inferInstanceAs (Decidable (g.client.awaiting = false → resume g))
  | .metadata | .bitmap _ | .resync | .recoveryDisk | .recoveryConn | .run _ _ | .endCancelled _ =>
    isTrue trivial

theorem commands_iff (geo : Geometry) (es : List Client.Event) :
    Meets (step geo) (AtCommand PauseRight ResumeRight) init es ↔
      Meets (step geo) (AtCommand PauseOk ResumeOk) init es := by
  apply meets_congr Sound.init (fun _ _ _ h hs => h.step hs)
  intro g e h
  unfold AtCommand
  split
  · rw [h.pauseRight_iff]
  · rw [h.resumeRight_iff]
  · exact Iff.rfl

/-! ### Runs in order -/

/-- No command comes out of order: nothing is resumed that runs or was never started, and a resync is
paused when a bit behind bit 0 was passed and its thread, if there is one, is in its loop. -/
def CommandInOrder (g : WatchedClient) : Client.Event → Prop
  | .resume => g.real ≠ .none ∧ g.real ≠ .running
  | .pause =>
    g.real = .running ∨ g.real = .interrupted →
      g.client.lastResyncedBit ≠ 0 ∧ g.client.phaseOf g.client.resyncTid ≠ some .created ∧
        g.client.phaseOf g.client.resyncTid ≠ some .terminate ∧
        g.client.phaseOf g.client.resyncTid ≠ some .resetBit
  | _ => True

instance instDecidableCommandInOrder (g : WatchedClient) :
    (e : Client.Event) → Decidable (CommandInOrder g e)
  | .pause => inferInstanceAs (Decidable (_ → _))
  | .resume => inferInstanceAs (Decidable (_ ∧ _))
  | .metadata | .bitmap _ | .resync | .recoveryDisk | .recoveryConn | .run _ _ | .endCancelled _ =>
    isTrue trivial

/-- The commands come in order, and a thread is started when none is running. -/
def InOrder (g : WatchedClient) (e : Client.Event) : Prop :=
  OneThread g.client e ∧ CommandInOrder g e

instance (g : WatchedClient) (e : Client.Event) : Decidable (InOrder g e) :=
  inferInstanceAs (Decidable (_ ∧ _))

/-- The thread of a running resync. -/
def RunningOk (s : Client) (th : ResyncThread) : Prop :=
  match th.phase with
  | .created => th.cancelled = false ∧ (s.repState ≠ .completed ∨ s.bitPos = 0)
  | .terminate | .resetBit =>
    s.repState ≠ .completed ∧ (th.cancelled = true ∨ s.partnerState ≠ .pause)
  | .sendTermination =>
    s.repState ≠ .completed ∧ (th.cancelled = true ∨ s.lastResyncedBit = 0)
  | .release => s.repState ≠ .completed ∧ s.lastResyncedBit = 0
  | _ => s.repState ≠ .completed

/-- The thread of a paused resync, on its way out. -/
def PausedOk (th : ResyncThread) : Prop :=
  match th.phase with
  | .created | .release => False
  | .terminate | .resetBit | .sendTermination => th.cancelled = true
  | _ => True

/-- The thread in `resync_tid`, or its absence, fits the state of the resync. -/
def Fits (s : Client) : RealState → Option ResyncThread → Prop
  | .none, _ => True
  | .running, some th => RunningOk s th
  | .running, none => s.repState ≠ .completed
  | .paused, some th => Marked s ∧ PausedOk th
  | .paused, none => Marked s
  | .interrupted, some th => s.repState ≠ .completed ∧ th.phase = .connLost
  | .interrupted, none => s.repState ≠ .completed
  | .completed, some _ => False
  | .completed, none => s.repState = .completed ∧ s.lastResyncedBit = 0

structure Orderly (g : WatchedClient) : Prop where
  sound : Sound g
  single : Single g.client
  recoveryMode : g.client.recoveryMode = false
  fits : Fits g.client g.real (g.client.thread g.client.resyncTid)

theorem Orderly.init : Orderly init where
  sound := Sound.init
  single := single_boot
  recoveryMode := rfl
  fits := trivial

theorem Fits.paused {th : Option ResyncThread} (h : Fits s .paused th) : Marked s := by
  cases th with
  | none => exact h
  | some th => exact h.1

theorem Fits.interrupted {th : Option ResyncThread} (h : Fits s .interrupted th) :
    s.repState ≠ .completed := by
  cases th with
  | none => exact h
  | some th => exact h.1

theorem Fits.completed {th : Option ResyncThread} (h : Fits s .completed th) :
    th = none ∧ s.repState = .completed ∧ s.lastResyncedBit = 0 := by
  cases th with
  | none => exact ⟨rfl, h⟩
  | some th => exact h.elim

theorem Orderly.right (h : Orderly g) {e : Client.Event} (ho : InOrder g e) :
    AtCommand PauseRight ResumeRight g e := by
  have hfits := h.fits
  unfold AtCommand
  split
  · intro _
    rw [h.sound.pauseRight_iff]
    unfold PauseOk
    cases hreal : g.real with
    | none => trivial
    | running => exact Or.inl (ho.2 (Or.inl hreal)).1
    | interrupted => exact Or.inl (ho.2 (Or.inr hreal)).1
    | paused =>
      rw [hreal] at hfits
      exact Or.inr hfits.paused
    | completed =>
      rw [hreal] at hfits
      exact Or.inl hfits.completed.2.2
  · intro _
    rw [h.sound.resumeRight_iff]
    unfold ResumeOk
    cases hreal : g.real with
    | none => exact ho.2.1 hreal
    | running => exact absurd hreal ho.2.2
    | paused => trivial
    | interrupted =>
      rw [hreal] at hfits
      exact hfits.interrupted
    | completed =>
      rw [hreal] at hfits
      exact hfits.completed.2.1
  · trivial

/-- What `Fits` looks at. -/
structure SameMarks (s s' : Client) : Prop where
  repState : s'.repState = s.repState
  bitPos : s'.bitPos = s.bitPos
  lastResyncedBit : s'.lastResyncedBit = s.lastResyncedBit
  partnerPaused : s'.partnerState = .pause ↔ s.partnerState = .pause

theorem Fits.congr {real : RealState} {th : Option ResyncThread} (h : Fits s real th)
    (hs : SameMarks s s') : Fits s' real th := by
  have hmarked : Marked s' ↔ Marked s := by
    unfold Marked
    rw [hs.repState, hs.partnerPaused]
  have hrunning : ∀ th, RunningOk s' th ↔ RunningOk s th := by
    intro th
    unfold RunningOk
    simp only [hs.repState, hs.bitPos, hs.lastResyncedBit, ne_eq, hs.partnerPaused]
  cases real with
  | none => trivial
  | running =>
    cases th with
    | none =>
      show s'.repState ≠ .completed
      rw [hs.repState]
      exact h
    | some th => exact (hrunning th).mpr h
  | paused =>
    cases th with
    | none => exact hmarked.mpr h
    | some th => exact ⟨hmarked.mpr h.1, h.2⟩
  | interrupted =>
    cases th with
    | none =>
      show s'.repState ≠ .completed
      rw [hs.repState]
      exact h
    | some th =>
      refine ⟨?_, h.2⟩
      rw [hs.repState]
      exact h.1
  | completed =>
    cases th with
    | none =>
      refine ⟨?_, ?_⟩
      · rw [hs.repState]
        exact h.1
      · rw [hs.lastResyncedBit]
        exact h.2
    | some th => exact h

theorem Fits.moved {real : RealState} {tid : Nat} {ph ph' : ResyncPhase} {x : Bool}
    (hth : s.thread tid = some ⟨ph, x⟩) (h : Fits s real (some ⟨ph', x⟩)) :
    Fits (s.setPhase tid ph') real ((s.setPhase tid ph').thread tid) := by
  rw [setPhase_thread_self, hth, Option.map_some]
  exact h.congr ⟨rfl, rfl, rfl, Iff.rfl⟩

theorem Fits.ended {real : RealState} (tid : Nat) (h : Fits s real none) :
    Fits (s.endThread tid) real ((s.endThread tid).thread tid) := by
  have hnone : (s.endThread tid).thread tid = none := Function.update_self ..
  rw [hnone]
  exact h.congr ⟨rfl, rfl, rfl, Iff.rfl⟩

theorem thread_cancel {tid : Nat} {ph : ResyncPhase} {x : Bool} (htid : tid = s.resyncTid)
    (h : s.thread tid = some ⟨ph, x⟩) : s.cancel.thread tid = some ⟨ph, true⟩ := by
  rw [htid] at h ⊢
  show Function.update s.thread s.resyncTid _ s.resyncTid = _
  rw [Function.update_self, h, Option.map_some]

theorem realAfterRun_same {tid : Nat} {ok x : Bool} {ph : ResyncPhase}
    (hth : g.client.thread tid = some ⟨ph, x⟩)
    (hph : ph = .created ∨ ph = .resetBit ∨ ph = .connLost) : g.realAfterRun tid ok = g.real := by
  unfold realAfterRun phaseOf
  rw [hth, Option.map_some]
  obtain rfl | rfl | rfl := hph <;> rfl

theorem fits_running {tid : Nat} {ok x : Bool} {ph : ResyncPhase} (htid : tid = s.resyncTid)
    (hth : s.thread tid = some ⟨ph, x⟩) (h : RunningOk s ⟨ph, x⟩)
    (hstep : ThreadStep geo s tid ok x ph s') (hstart : ph ≠ .created) (hreset : ph ≠ .resetBit) :
    Fits s' (realAfterRun ⟨s, .running⟩ tid ok) (s'.thread tid) := by
  have hphase : s.phaseOf tid = some ph := by rw [phaseOf, hth, Option.map_some]
  unfold realAfterRun
  dsimp only
  rw [hphase]
  cases hstep with
  | start => exact absurd rfl hstart
  | resetBit => exact absurd rfl hreset
  | look =>
    split <;> exact Fits.moved hth h
  | leave | chunk | chunkPaused | chunkEnd | written | record => exact Fits.moved hth h
  | chunkReleased | connLost => exact Fits.ended tid h
  | sent hx hok | received hx hok =>
    rw [if_neg (by simp [hok])]
    exact Fits.moved hth h
  | sendLost hx hok | recvLost hx hok =>
    rw [if_pos ⟨hok, htid⟩]
    exact Fits.moved hth ⟨h, rfl⟩
  | writeFailed => exact Fits.moved (thread_cancel htid hth) h
  | loopPaused => exact Fits.moved (thread_cancel htid hth) ⟨h, Or.inl rfl⟩
  | loopEnd hrun => exact Fits.moved hth ⟨h, Or.inr hrun⟩
  | terminate hrep =>
    dsimp only
    rw [if_neg fun hc => hrep hc.1]
    exact Fits.moved hth h
  | completed hrep => exact absurd hrep h.1
  | sendTermination hx =>
    have hlast : s.lastResyncedBit = 0 := h.2.resolve_left (by simp [hx])
    exact Fits.moved hth ⟨h.1, hlast⟩
  | release => exact Fits.ended tid ⟨rfl, h.2⟩

/-- A step of the thread of a paused resync: it leaves its loops, is cancelled, and goes no further
than to the send of the termination. -/
theorem fits_paused {tid : Nat} {ok x : Bool} {ph : ResyncPhase} (htid : tid = s.resyncTid)
    (hth : s.thread tid = some ⟨ph, x⟩) (hmarked : Marked s) (h : PausedOk ⟨ph, x⟩)
    (hstep : ThreadStep geo s tid ok x ph s') :
    Fits s' (realAfterRun ⟨s, .paused⟩ tid ok) (s'.thread tid) := by
  have hphase : s.phaseOf tid = some ph := by rw [phaseOf, hth, Option.map_some]
  unfold realAfterRun
  dsimp only
  rw [hphase]
  cases hstep with
  | start | release => exact h.elim
  | look hpos hrun | chunk hc hrun | chunkReleased hc hrun | loopEnd hrun =>
    exact absurd hmarked.1 hrun
  | leave | chunkPaused | chunkEnd | written | record =>
    exact Fits.moved hth ⟨hmarked, trivial⟩
  | connLost => exact Fits.ended tid hmarked
  | sent hx hok | received hx hok =>
    rw [if_neg (by simp [hok])]
    exact Fits.moved hth ⟨hmarked, trivial⟩
  | sendLost hx hok | recvLost hx hok =>
    rw [if_pos ⟨hok, htid⟩]
    exact Fits.moved hth ⟨hmarked, trivial⟩
  | writeFailed => exact Fits.moved (thread_cancel htid hth) ⟨hmarked, trivial⟩
  | loopPaused => exact Fits.moved (thread_cancel htid hth) ⟨hmarked, rfl⟩
  | terminate hrep =>
    dsimp only
    rw [if_neg fun hc => hrep hc.1]
    exact Fits.moved hth ⟨hmarked, h⟩
  | completed hrep =>
    rw [hmarked.2] at hrep
    exact RepState.noConfusion hrep
  | resetBit => exact Fits.moved hth ⟨hmarked, h⟩
  | sendTermination hx =>
    have hcancelled : x = true := h
    rw [hx] at hcancelled
    exact Bool.noConfusion hcancelled

theorem fits_start {tid : Nat} {ok x : Bool} (hth : s.thread tid = some ⟨.created, x⟩)
    (hmode : s.recoveryMode = false) (h : RunningOk s ⟨.created, x⟩)
    (hrun : s.runThread geo tid ok = some s') : Fits s' .running (s'.thread tid) := by
  rw [runThread, hth, Option.bind_some] at hrun
  dsimp only [Client.start] at hrun
  split at hrun
  · exact absurd hrun.symm (Option.some_ne_none _)
  · rw [← Option.some.inj hrun, hmode, if_neg Bool.false_ne_true]
    split
    · exact Fits.moved hth RepState.noConfusion
    · rename_i hbit
      exact Fits.moved hth (h.2.resolve_right hbit)

theorem fits_resetBit {tid : Nat} {ok x : Bool} (hth : s.thread tid = some ⟨.resetBit, x⟩)
    (h : RunningOk s ⟨.resetBit, x⟩) (hrun : s.runThread geo tid ok = some s') :
    Fits s' .running (s'.thread tid) := by
  rw [runThread, hth, Option.bind_some] at hrun
  rw [← Option.some.inj hrun]
  refine Fits.moved hth ⟨h.1, h.2.imp_right ?_⟩
  intro hpartner
  exact if_pos hpartner

/-- **Step lemma**, for the steps of the thread. -/
theorem Orderly.fits_run (h : Orderly g) {tid : Nat} {ok : Bool}
    (hrun : g.client.runThread geo tid ok = some s') :
    Fits s' (g.realAfterRun tid ok) (s'.thread s'.resyncTid) := by
  obtain ⟨⟨ph, x⟩, hth, -⟩ := Option.bind_eq_some_iff.mp hrun
  have htid : tid = g.client.resyncTid := h.single.eq_slot hth
  have hstep := threadStep_of_run hth hrun
  have hfits := h.fits
  rw [(touches_run hrun).slot, ← htid]
  rw [← htid, hth] at hfits
  obtain ⟨s, real⟩ := g
  cases real with
  | none =>
    have hnone := (h.sound.untouched rfl).thread tid
    rw [hnone] at hth
    exact absurd hth.symm (Option.some_ne_none _)
  | running =>
    by_cases hstart : ph = .created
    · rw [realAfterRun_same hth (Or.inl hstart)]
      subst hstart
      exact fits_start hth h.recoveryMode hfits hrun
    by_cases hreset : ph = .resetBit
    · rw [realAfterRun_same hth (Or.inr (Or.inl hreset))]
      subst hreset
      exact fits_resetBit hth hfits hrun
    exact fits_running htid hth hfits hstep hstart hreset
  | paused => exact fits_paused htid hth hfits.1 hfits.2 hstep
  | interrupted =>
    obtain ⟨hrep, hph⟩ := hfits
    dsimp only at hph
    rw [realAfterRun_same hth (Or.inr (Or.inr hph))]
    subst hph
    cases hstep with
    | connLost => exact Fits.ended tid hrep
  | completed => exact hfits.elim

theorem pausedOk_of_running {th : ResyncThread} (h : RunningOk s th)
    (hbit : s.lastResyncedBit ≠ 0)
    (hloop : some th.phase ≠ some ResyncPhase.created ∧ some th.phase ≠ some .terminate ∧
      some th.phase ≠ some .resetBit) : PausedOk th := by
  obtain ⟨ph, x⟩ := th
  cases ph with
  | created => exact hloop.1 rfl
  | terminate => exact absurd rfl hloop.2.1
  | resetBit => exact absurd rfl hloop.2.2
  | sendTermination => exact h.2.resolve_right hbit
  | release => exact hbit h.2
  | _ => trivial

theorem Orderly.fits_pause (h : Orderly g) (ho : InOrder g .pause) :
    Fits g.client.pauseCommand (g.realAfterOther .pause)
      (g.client.thread g.client.resyncTid) := by
  have hfits := h.fits
  have hloop := ho.2
  unfold pauseCommand realAfterOther
  by_cases hbit : g.client.lastResyncedBit = 0
  · rw [if_pos hbit, if_pos hbit]
    exact hfits
  rw [if_neg hbit, if_neg hbit]
  obtain ⟨s, real⟩ := g
  dsimp only at hfits hloop hbit ⊢
  cases real with
  | none => trivial
  | running =>
    cases hth : s.thread s.resyncTid with
    | none => exact ⟨rfl, rfl⟩
    | some th =>
      have hphases := (hloop (Or.inl rfl)).2
      rw [phaseOf, hth, Option.map_some] at hphases
      rw [hth] at hfits
      exact ⟨⟨rfl, rfl⟩, pausedOk_of_running hfits hbit hphases⟩
  | paused =>
    cases hth : s.thread s.resyncTid with
    | none => exact ⟨rfl, rfl⟩
    | some th =>
      rw [hth] at hfits
      exact ⟨⟨rfl, rfl⟩, hfits.2⟩
  | interrupted =>
    cases hth : s.thread s.resyncTid with
    | none => exact ⟨rfl, rfl⟩
    | some th =>
      rw [hth] at hfits
      refine ⟨⟨rfl, rfl⟩, ?_⟩
      unfold PausedOk
      rw [hfits.2]
      trivial
  | completed => exact absurd hfits.completed.2.2 hbit

theorem Orderly.launchable (h : Orderly g) (hnone : ∀ t, g.client.thread t = none) :
    g.client.repState ≠ .completed ∨ g.client.lastResyncedBit = 0 := by
  have hfits := h.fits
  rw [hnone] at hfits
  cases hreal : g.real with
  | none => exact Or.inr (h.sound.untouched hreal).lastResyncedBit
  | running =>
    rw [hreal] at hfits
    exact Or.inl hfits
  | paused => exact Or.inl (h.sound.paused hreal)
  | interrupted =>
    rw [hreal] at hfits
    exact Or.inl hfits
  | completed =>
    rw [hreal] at hfits
    exact Or.inr hfits.2

theorem fits_resyncInit {pos : Nat} (h : s.repState ≠ .completed ∨ pos = 0) :
    Fits (s.resyncInit pos) .running
      ((s.resyncInit pos).thread (s.resyncInit pos).resyncTid) := by
  have hth : (s.resyncInit pos).thread (s.resyncInit pos).resyncTid = some ⟨.created, false⟩ :=
    Function.update_self ..
  rw [hth]
  exact ⟨rfl, h⟩

/-- **Step lemma**, for the events that start a thread. -/
theorem Orderly.fits_launch (h : Orderly g) {e : Client.Event} {pos : Nat}
    (hnone : ∀ t, g.client.thread t = none) (hl : g.client.launches e = some pos)
    (hs : g.client.step geo e = some s') : Fits s' .running (s'.thread s'.resyncTid) := by
  cases e with
  | resync =>
    obtain ⟨-, rfl⟩ := command_eq_some hs
    exact fits_resyncInit (Or.inr rfl)
  | resume =>
    obtain ⟨-, rfl⟩ := command_eq_some hs
    dsimp only [launches] at hl
    unfold resumeCommand
    split at hl
    · exact absurd hl.symm (Option.some_ne_none _)
    · rename_i hrep
      rw [if_neg fun hc => hrep (Or.inr hc)]
      exact fits_resyncInit (Or.inl RepState.noConfusion)
  | recoveryDisk =>
    rw [← Option.some.inj hs]
    dsimp only [launches] at hl
    unfold recoveryDiskClient
    split at hl
    · rename_i hdisk
      rw [if_pos hdisk]
      exact fits_resyncInit (h.launchable hnone)
    · exact absurd hl.symm (Option.some_ne_none _)
  | recoveryConn =>
    rw [← Option.some.inj hs]
    dsimp only [launches] at hl
    unfold recoveryConnClient
    split at hl
    · rename_i hconn
      rw [if_pos hconn]
      exact fits_resyncInit (h.launchable hnone)
    · exact absurd hl.symm (Option.some_ne_none _)
  | _ => exact absurd hl.symm (Option.some_ne_none _)

theorem sameMarks_requestMetadata (s : Client) : SameMarks s s.requestMetadata := by
  unfold requestMetadata
  split
  · rename_i hreleased
    refine ⟨rfl, rfl, rfl, ?_⟩
    show PartnerObjState.inUse = .pause ↔ s.partnerState = .pause
    rw [hreleased]
    exact iff_of_false PartnerObjState.noConfusion PartnerObjState.noConfusion
  · exact ⟨rfl, rfl, rfl, Iff.rfl⟩

theorem Orderly.fits_endCancelled (h : Orderly g) {tid : Nat} {ph : ResyncPhase}
    (hth : g.client.thread tid = some ⟨ph, true⟩) :
    Fits (g.client.endThread tid) (g.realAfterOther (.endCancelled tid))
      ((g.client.endThread tid).thread tid) := by
  have htid : tid = g.client.resyncTid := h.single.eq_slot hth
  have hfits := h.fits
  rw [← htid, hth] at hfits
  have hreal : g.realAfterOther (.endCancelled tid) = g.real.interrupt := if_pos htid
  rw [hreal]
  apply Fits.ended tid
  obtain ⟨s, real⟩ := g
  dsimp only at hfits ⊢
  cases real with
  | none => trivial
  | running =>
    show s.repState ≠ .completed
    cases ph with
    | created => exact absurd hfits.1 Bool.noConfusion
    | terminate | resetBit | sendTermination | release => exact hfits.1
    | _ => exact hfits
  | paused => exact hfits.1
  | interrupted => exact hfits.1
  | completed => exact hfits.elim

theorem recoveryMode_start {tid : Nat} (hmode : s.recoveryMode = false)
    (h : s.start geo tid = some s') : s'.recoveryMode = false := by
  unfold Client.start at h
  split at h
  · exact absurd h.symm (Option.some_ne_none _)
  · rw [← Option.some.inj h]
    dsimp only
    rw [hmode, if_neg Bool.false_ne_true]
    split <;> rfl

theorem recoveryMode_run {tid : Nat} {ok : Bool} (hmode : s.recoveryMode = false)
    (hrun : s.runThread geo tid ok = some s') : s'.recoveryMode = false := by
  obtain ⟨⟨ph, x⟩, hth, -⟩ := Option.bind_eq_some_iff.mp hrun
  by_cases hstart : ph = .created
  · subst hstart
    rw [runThread, hth, Option.bind_some] at hrun
    exact recoveryMode_start hmode hrun
  · cases threadStep_of_run hth hrun with
    | start => exact absurd rfl hstart
    | _ => exact hmode

theorem recoveryMode_step {e : Client.Event} (hmode : s.recoveryMode = false)
    (hs : s.step geo e = some s') : s'.recoveryMode = false := by
  cases stepCase_of_step hs with
  | metadata =>
    unfold requestMetadata
    dsimp only
    split <;> exact hmode
  | run hrun => exact recoveryMode_run hmode hrun
  | _ => exact hmode

/-- **Step lemma.** -/
theorem Orderly.step {e : Client.Event} (h : Orderly g) (ho : InOrder g e)
    (hs : g.step geo e = some g') : Orderly g' := by
  have hsound := h.sound.step hs
  obtain ⟨s, hstep, rfl⟩ := Option.map_eq_some_iff.mp hs
  refine ⟨hsound, single_step h.single ho.1 hstep, recoveryMode_step h.recoveryMode hstep, ?_⟩
  dsimp only
  cases hl : g.client.launches e with
  | some pos =>
    have hreal : g.realAfter e = .running := by
      unfold realAfter
      rw [hl]
      rfl
    rw [hreal]
    have hnone : ∀ t, g.client.thread t = none := h.single.none_of (ho.1 (by simp [hl]))
    exact h.fits_launch hnone hl hstep
  | none =>
    rw [realAfter_eq hl]
    cases stepCase_of_step hstep with
    | metadata =>
      have hsame := sameSlot_requestMetadata g.client
      rw [hsame.slot, hsame.thread]
      exact h.fits.congr (sameMarks_requestMetadata g.client)
    | bitmap => exact h.fits.congr ⟨rfl, rfl, rfl, Iff.rfl⟩
    | pause =>
      obtain ⟨-, hpause⟩ := command_eq_some hstep
      have hfits := h.fits_pause ho
      rw [hpause] at hfits
      exact hfits
    | launch hlaunch =>
      rw [hl] at hlaunch
      exact absurd hlaunch.symm (Option.some_ne_none _)
    | idle he =>
      obtain rfl | rfl | rfl | ⟨rfl, -⟩ := he
      · obtain ⟨-, hpause⟩ := command_eq_some hstep
        have hfits := h.fits_pause ho
        rw [hpause] at hfits
        exact hfits
      · exact h.fits
      · exact h.fits
      · exact h.fits
    | run hrun => exact h.fits_run hrun
    | endCancelled hth =>
      rename_i tid ph
      have hslot : (g.client.endThread tid).resyncTid = tid := (h.single.eq_slot hth).symm
      rw [hslot]
      exact h.fits_endCancelled hth

/-- **A run in order**: at every command both do what they should. -/
theorem in_order_right {es : List Client.Event} (h : Meets (WatchedClient.step geo) InOrder init es) :
    Meets (WatchedClient.step geo) (AtCommand PauseRight ResumeRight) init es := by
  rw [meets_iff_forall]
  rintro fs e g ⟨ds, rfl⟩ hr
  have hm := (meets_append.mp h).1
  have horderly : Orderly g :=
    run_inv (fun s e s' hs ho hstep => hs.step ho hstep) Orderly.init (meets_append.mp hm).1 hr
  exact horderly.right (meets_last hm hr)

/-! ### The commands of a run -/

/-- **Pause and resume follow the resync** at every command of a run if and only if, at each of them,
`last_resynced_bit` and `rep_state` are as the resync's real state needs. In a run in order they
are. -/
theorem commands_follow (geo : Geometry) (es : List Client.Event) :
    (Meets (WatchedClient.step geo) (AtCommand PauseRight ResumeRight) init es ↔
        Meets (WatchedClient.step geo) (AtCommand PauseOk ResumeOk) init es) ∧
      (Meets (WatchedClient.step geo) InOrder init es →
        Meets (WatchedClient.step geo) (AtCommand PauseRight ResumeRight) init es) :=
  ⟨commands_iff geo es, in_order_right⟩

/-- A resync is paused behind its second bit, leaves its loop, is resumed, and paused again behind
the next. -/
def pausedTwice : List Client.Event :=
  [.metadata, .bitmap fun _ => 0, .resync, .run 0 true, .run 0 true, .run 0 true, .run 0 true,
    .run 0 true, .pause, .run 0 true, .run 0 true, .endCancelled 0, .resume, .run 1 true,
    .run 1 true, .run 1 true, .pause]

theorem commands_follow_twice :
    (run (WatchedClient.step ⟨8, 8⟩) init pausedTwice).isSome = true ∧
      Meets (WatchedClient.step ⟨8, 8⟩) (AtCommand PauseRight ResumeRight) init pausedTwice :=
  ⟨by decide, (commands_follow _ _).2 (by decide)⟩

/-- A pause while bit 0 is being copied is taken for one after the end, and a resume before the first
start starts a resync. -/
theorem commands_fail :
    ¬ Meets (WatchedClient.step ⟨8, 8⟩) (AtCommand PauseRight ResumeRight) init
        [.metadata, .bitmap fun _ => 255, .resync, .run 0 true, .run 0 true, .run 0 true, .pause] ∧
      ¬ Meets (WatchedClient.step ⟨8, 8⟩) (AtCommand PauseRight ResumeRight) init [.resume] := by
  constructor
  · rw [commands_iff]
    decide
  · rw [commands_iff]
    decide

end WatchedClient

end Ebdr
