import Ebdr.Server.Slots

/-!
# Which steps the server makes

A step needs an event that can come (`Possible`), and is not made when the daemon follows a pointer
that was never set, or an index past the end of an array (`Survives`). Neither depends on a client
for the steps of the others.
-/

namespace Ebdr

open Lts

/-- The connection of the header whose handler goes on. -/
def Tail.conn? : Tail → Option Nat
  | .readFailed c _ | .sendFailed c _ | .running c _ _ => some c
  | .recvFailed _ => none

/-- The slot the rest of a step is about. -/
def Tail.pid : Tail → Nat
  | .readFailed _ pid | .sendFailed _ pid | .recvFailed pid | .running _ pid _ => pid

def Tail.phase? : Tail → Option Phase
  | .running _ _ ph => some ph
  | .readFailed .. | .sendFailed .. | .recvFailed _ => none

namespace NetServer

variable {s s' : NetServer} {t c pid : Nat} {io : Io} {hdr : ServerHeader} {cl : Client}

/-! ### Events -/

def IsCreated : Option SendRecvThread → Prop
  | some (.created _) => True
  | _ => False

def IsServing : Option SendRecvThread → Prop
  | some (.serving _) => True
  | _ => False

instance (o : Option SendRecvThread) : Decidable (IsCreated o) :=
  match o with
  | some (.created _) => isTrue trivial
  | some (.serving _) | none => isFalse id

instance (o : Option SendRecvThread) : Decidable (IsServing o) :=
  match o with
  | some (.serving _) => isTrue trivial
  | some (.created _) | none => isFalse id

/-- The event can come. -/
def Possible (s : NetServer) : Event → Prop
  | .accept n => 0 < n ∧ s.net.sock n = none ∧
    s.net.sock s.net.shared.sockFd.num = some s.net.shared.sockFd.conn
  | .start t => IsCreated (s.net.thread t)
  | .recv t c _ _ => s.Receives t c
  | .recvFails t => IsServing (s.net.thread t) ∧ s.net.rest t = none
  | .goOn t _ => s.net.rest t ≠ none
  | .saveIoctl => s.savedIndex = none
  | .restoreIoctl => s.savedIndex ≠ none
  | .recoveryPass _ | .createDisk .. | .write .. => True

/-- The pointers that the handler of a header follows are set, and its indices inside. -/
def HasObjects (s : NetServer) : ServerHeader → Prop
  | .bitmapMetadata pid => s.daemon.repConn pid = true ∧ pid < s.daemon.dsCount
  | .data .. | .ack _ => True
  | .makePartner pid .. => pid < maxPartners
  | .removePartner pid => s.daemon.partnerOps pid = true
  | .rmRelation rid => s.daemon.relationOps rid = true
  | .syn pid | .dataReq pid | .verifyData pid => s.daemon.repConn pid = true
  | .rplcTermination pid => (s.daemon.objects.partners pid).objState = .released ∨
    (pid < s.daemon.dsCount ∧ s.daemon.bitmapOps pid = true)

/-- The device of an `ioctl` is there, and the words of a bitmap inside its buffer. -/
def RunsOn (s : NetServer) (pid : Nat) : Phase → Prop
  | .idle => False
  | .indexed => s.HasDevice s.ioctlIndex
  | .copying _ k flip =>
    if k < (s.round pid).ubitmap.bitmapSize / 8 then 8 * (k + 1) ≤ bitmapSizeMax
    else flip = true → s.HasDevice s.ioctlIndex
  | .created | .gotUser _ | .loaded | .clearing .. => True

/-- The event does not stop the daemon. -/
def Survives (s : NetServer) : Event → Prop
  | .recv _ _ hdr _ => s.HasObjects hdr
  | .goOn t _ => ∀ tail ∈ s.net.rest t, ∀ ph ∈ tail.phase?, s.RunsOn tail.pid ph
  | .createDisk .. => s.daemon.dsCount < maxPartners → s.daemon.dsCount < ServerDaemon.memoryFds
  | _ => True

instance (s : NetServer) (e : Event) : Decidable (s.Possible e) :=
  match e with
  | .accept _ | .recvFails _ => inferInstanceAs (Decidable (_ ∧ _))
  | .start t => inferInstanceAs (Decidable (IsCreated (s.net.thread t)))
  | .recv t c _ _ => inferInstanceAs (Decidable (s.Receives t c))
  | .goOn _ _ | .restoreIoctl => inferInstanceAs (Decidable (¬ _))
  | .saveIoctl => inferInstanceAs (Decidable (_ = _))
  | .recoveryPass _ | .createDisk .. | .write .. => isTrue trivial

instance (s : NetServer) (hdr : ServerHeader) : Decidable (s.HasObjects hdr) :=
  match hdr with
  | .bitmapMetadata _ => inferInstanceAs (Decidable (_ ∧ _))
  | .data .. | .ack _ => isTrue trivial
  | .makePartner pid .. => inferInstanceAs (Decidable (pid < maxPartners))
  | .removePartner _ | .rmRelation _ | .syn _ | .dataReq _ | .verifyData _ =>
    inferInstanceAs (Decidable (_ = _))
  | .rplcTermination _ => inferInstanceAs (Decidable (_ ∨ _))

instance (s : NetServer) (pid : Nat) (ph : Phase) : Decidable (s.RunsOn pid ph) :=
  match ph with
  | .idle => isFalse id
  | .indexed => inferInstanceAs (Decidable (s.HasDevice s.ioctlIndex))
  | .copying _ k flip =>
    inferInstanceAs (Decidable (if k < (s.round pid).ubitmap.bitmapSize / 8 then
      8 * (k + 1) ≤ bitmapSizeMax else flip = true → s.HasDevice s.ioctlIndex))
  | .created | .gotUser _ | .loaded | .clearing .. => isTrue trivial

instance (s : NetServer) (e : Event) : Decidable (s.Survives e) := by
  unfold Survives
  split <;> infer_instance

theorem handle_isSome_iff : (s.handle t c io hdr).isSome ↔ s.HasObjects hdr := by
  cases hdr with
  | bitmapMetadata pid =>
    simp only [handle, getBitmap, ServerDaemon.getBitmap, HasObjects, Option.isSome_map]
    split
    · rename_i hset
      split <;> simp [hset]
    · rename_i hset
      simp [hset]
  | data pid currPos chunkPos => simp [handle, HasObjects]
  | makePartner pid destIp bandwidth disk sizes =>
    by_cases hpid : pid < maxPartners
    · simp [handle, makePartner, HasObjects, hpid, ServerDaemon.makePartner_eq hpid]
    · simp [handle, makePartner, HasObjects, hpid, ServerDaemon.makePartner]
  | removePartner pid =>
    by_cases hset : s.daemon.partnerOps pid = true
    · simp [handle, removePartner, ServerDaemon.removePartner, HasObjects, hset]
    · simp [handle, removePartner, ServerDaemon.removePartner, HasObjects, hset]
  | rmRelation rid =>
    by_cases hset : s.daemon.relationOps rid = true
    · simp [handle, ServerDaemon.removeRelation, HasObjects, hset]
    · simp [handle, ServerDaemon.removeRelation, HasObjects, hset]
  | syn pid =>
    by_cases hset : s.daemon.repConn pid = true
    · simp [handle, ServerDaemon.synReceived, HasObjects, hset]
    · simp [handle, ServerDaemon.synReceived, HasObjects, hset]
  | ack pid => simp [handle, HasObjects]
  | rplcTermination pid =>
    simp only [handle, terminate, HasObjects]
    split
    · rename_i hrel
      split
      · rename_i hset
        simp [hset]
      · rename_i hset
        simp [hset, hrel]
    · rename_i hrel
      simp [not_not.mp hrel]
  | dataReq pid | verifyData pid =>
    by_cases hset : s.daemon.repConn pid = true
    · simp [handle, HasObjects, hset]
    · simp [handle, HasObjects, hset]

theorem runPhase_isSome_iff {ph : Phase} :
    (s.runPhase t c pid io ph).isSome ↔ s.RunsOn pid ph := by
  cases ph with
  | idle => simp [runPhase, RunsOn]
  | created | gotUser u | loaded | clearing half k => simp [runPhase, RunsOn]
  | indexed =>
    simp only [runPhase, RunsOn]
    split
    · rename_i hdev
      simp [hdev]
    · rename_i hdev
      simp [hdev]
  | copying half k flip =>
    simp only [runPhase, copyStep, RunsOn]
    split
    · split
      · rename_i hroom
        simp [hroom]
      · rename_i hroom
        simp [hroom]
    · split
      · rename_i hflip
        split
        · rename_i hdev
          simp [hdev]
        · rename_i hdev
          simp [hdev, hflip]
      · rename_i hflip
        simp [hflip]

theorem goOn_isSome_iff {tail : Tail} :
    (s.goOn t io tail).isSome ↔ ∀ ph ∈ tail.phase?, s.RunsOn tail.pid ph := by
  cases tail with
  | readFailed d pid | sendFailed d pid | recvFailed pid => simp [goOn, Tail.phase?]
  | running d pid ph =>
    simp only [goOn, Tail.phase?, Tail.pid, Option.mem_some_iff, forall_eq']
    exact runPhase_isSome_iff

/-- **Steps.** The daemon makes a step on an event that can come and that does not stop it. -/
theorem step_isSome_iff {e : Event} : (s.step e).isSome ↔ s.Possible e ∧ s.Survives e := by
  cases e with
  | accept n =>
    simp only [step, acceptConn, Possible, Survives]
    split
    · rename_i hguard
      simp [hguard]
    · rename_i hguard
      simp [hguard]
  | start t =>
    simp only [step, Possible, Survives]
    split
    · rename_i hthread
      simp [hthread, IsCreated]
    · rename_i hthread
      simp only [Option.isSome_none, Bool.false_eq_true, and_true, false_iff]
      unfold IsCreated
      split
      · rename_i k hk
        exact absurd hk (hthread k)
      · exact id
  | recv t c hdr io =>
    simp only [step, Possible, Survives]
    split
    · rename_i hrecv
      rw [handle_isSome_iff]
      simp only [hrecv, true_and]
      rfl
    · rename_i hrecv
      simp [hrecv]
  | recvFails t =>
    simp only [step, Possible, Survives]
    split
    · rename_i hthread
      split
      · rename_i hrest
        simp [hthread, hrest, IsServing]
      · rename_i hrest
        simp [hrest]
    · rename_i hthread
      simp only [Option.isSome_none, Bool.false_eq_true, and_true, false_iff]
      unfold IsServing
      split
      · rename_i k hk
        exact absurd hk (hthread k)
      · exact fun h => h.1
  | goOn t io =>
    simp only [step, Possible, Survives]
    cases htail : s.net.rest t with
    | none => simp
    | some tail =>
      rw [Option.bind_some, goOn_isSome_iff]
      simp
  | recoveryPass pid => simp [step, Possible, Survives]
  | createDisk name size =>
    simp only [step, ServerDaemon.createDisk, Possible, Survives, Option.isSome_map, true_and]
    split
    · rename_i hroom
      split
      · rename_i hfds
        simp [hfds]
      · rename_i hfds
        simp [hfds, hroom]
    · rename_i hroom
      simp [hroom]
  | saveIoctl =>
    simp only [step, Possible, Survives]
    split
    · rename_i hsaved
      simp [hsaved]
    · rename_i hsaved
      simp [hsaved]
  | restoreIoctl =>
    simp only [step, Possible, Survives, Option.isSome_map, and_true]
    exact Option.isSome_iff_ne_none
  | write pid b => simp [step, Possible, Survives]

/-! ### Two servers -/

/-- The accepts, the messages of the client, and what its threads do. -/
def Client.own (cl : Client) : Event → Bool
  | .accept _ => true
  | .start t | .recv t _ _ _ | .recvFails t | .goOn t _ => cl.conns t
  | _ => false

section Same

variable (h : SameView cl s s')
include h

theorem SameView.receives (ht : t ∈ cl.otherConns) (hc : c ∈ cl.otherConns)
    (hrecv : s.Receives t c) : s'.Receives t c := by
  unfold Receives at hrecv ⊢
  rw [← h.rest ht, ← h.thread ht]
  refine ⟨hrecv.1, ?_⟩
  have hserving := hrecv.2
  split
  · rename_i num hnum
    rw [hnum] at hserving
    exact (h.peer num c hc).mp hserving
  · rename_i hno
    split at hserving
    · rename_i num hnum
      exact absurd hnum (hno num)
    · exact hserving

theorem SameView.possible {e : Event} (hown : cl.own e = false)
    (hc : ∀ t c hdr io, e = .recv t c hdr io → c ∈ cl.otherConns) (hp : s.Possible e) :
    s'.Possible e := by
  cases e with
  | accept n => cases hown
  | start t =>
    have hthread : s.net.thread t = s'.net.thread t := h.thread hown
    simp only [Possible, ← hthread]
    exact hp
  | recv t c hdr io => exact h.receives hown (hc t c hdr io rfl) hp
  | recvFails t =>
    have hthread : s.net.thread t = s'.net.thread t := h.thread hown
    have hrest : s.net.rest t = s'.net.rest t := h.rest hown
    simp only [Possible, ← hthread, ← hrest]
    exact hp
  | goOn t io =>
    have hrest : s.net.rest t = s'.net.rest t := h.rest hown
    simp only [Possible, ← hrest]
    exact hp
  | recoveryPass pid | createDisk name size | write pid b => trivial
  | saveIoctl =>
    have hnone : s.savedIndex = none := hp
    simpa [Possible, hnone] using h.saved.symm
  | restoreIoctl =>
    have hsome : s.savedIndex.isSome = true := Option.isSome_iff_ne_none.mpr hp
    exact Option.isSome_iff_ne_none.mp (h.saved.symm.trans hsome)

theorem SameView.hasObjects (hp : hdr.pid ∈ cl.otherSlots) (hobj : s.HasObjects hdr) :
    s'.HasObjects hdr := by
  cases hdr with
  | bitmapMetadata pid =>
    have hconn : s.daemon.repConn pid = s'.daemon.repConn pid := h.daemon.repConn hp
    simp only [HasObjects, ← hconn, ← h.daemon.dsCount]
    exact hobj
  | data pid currPos chunkPos | ack pid => trivial
  | makePartner pid destIp bandwidth disk sizes => exact hobj
  | removePartner pid => exact (h.daemon.partnerOps hp).symm.trans hobj
  | rmRelation rid => exact (h.daemon.relationOps hp).symm.trans hobj
  | syn pid | dataReq pid | verifyData pid => exact (h.daemon.repConn hp).symm.trans hobj
  | rplcTermination pid =>
    have hpartner : s.daemon.objects.partners pid = s'.daemon.objects.partners pid :=
      h.daemon.partners hp
    have hops : s.daemon.bitmapOps pid = s'.daemon.bitmapOps pid := h.daemon.bitmapOps hp
    simp only [HasObjects, ← hpartner, ← hops, ← h.daemon.dsCount]
    exact hobj

theorem SameView.hasDevice {index : Nat} (hdev : s.HasDevice index) : s'.HasDevice index := by
  unfold HasDevice at hdev ⊢
  rwa [← h.daemon.dsCount]

theorem SameView.runsOn {ph : Phase} (hp : pid ∈ cl.otherSlots) (hi : s.UsesOwn pid ph)
    (hi' : s'.UsesOwn pid ph) (hruns : s.RunsOn pid ph) : s'.RunsOn pid ph := by
  cases ph with
  | idle => exact hruns
  | created | gotUser v | loaded | clearing half k => trivial
  | indexed =>
    have hindex : s.ioctlIndex = pid + 1 := hi
    have hindex' : s'.ioctlIndex = pid + 1 := hi'
    simp only [RunsOn, hindex, hindex'] at hruns ⊢
    exact h.hasDevice hruns
  | copying half k flip =>
    have hround : s.round pid = s'.round pid := h.round hp
    simp only [RunsOn, ← hround] at hruns ⊢
    split
    · rename_i hk
      rwa [if_pos hk] at hruns
    · rename_i hk
      rw [if_neg hk] at hruns
      rintro rfl
      have hindex : s.ioctlIndex = pid + 1 := hi.resolve_left hk
      have hindex' : s'.ioctlIndex = pid + 1 := hi'.resolve_left fun hk' => hk (by rwa [hround])
      rw [hindex']
      exact h.hasDevice (hindex ▸ hruns rfl)

end Same

end NetServer

end Ebdr
