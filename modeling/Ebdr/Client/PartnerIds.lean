import Ebdr.Database.ClientObjects
import Ebdr.Lib.Lts
import Mathlib.Data.Nat.Find

/-!
# The partner ids of the client

A partner is live from the `make_partner_client` that makes it to the `partner_client_obj_destroy`
that gives its slot up. The allocator goes by `obj_state` and skips the slots that are `IN_USE` or
`RELEASED`; the validator goes by `id`, which is zero in every slot that is not in use. So a slot
that is paused or resumed counts as free, a removed one never does, and id 0 is always valid.

`discipline_iff` says at which commands of a run the allocator, the validator and the removal do what
the ids need.
-/

namespace Ebdr

open Lts

namespace ClientDaemon

/-- `is_client_partner_id_valid`, for any `int`. -/
def isClientPartnerIdValid (o : Objects) (pid : Int) : Bool :=
  (firstFrom (fun i => ((o.partners i).id : Int) == pid) maxPartners 0).isSome

theorem isClientPartnerIdValid_natCast (o : Objects) (pid : Nat) :
    isClientPartnerIdValid o pid = o.isPartnerIdValid pid := by
  have htest : (fun i => ((o.partners i).id : Int) == (pid : Int)) =
      fun i => (o.partners i).id == pid := by
    funext i
    rw [Bool.eq_iff_iff, beq_iff_eq, beq_iff_eq, Int.natCast_inj]
  unfold isClientPartnerIdValid Objects.isPartnerIdValid
  rw [htest]

/-- The slot passes the allocator's test. -/
def Available (o : Objects) (pid : Nat) : Prop :=
  pid < maxPartners ∧ (o.partners pid).objState ≠ .inUse ∧ (o.partners pid).objState ≠ .released

instance instDecidableAvailable (o : Objects) (pid : Nat) : Decidable (Available o pid) :=
  inferInstanceAs (Decidable (_ ∧ _))

theorem getNewPartnerClientId_eq_some_iff {o : Objects} {pid : Nat} :
    getNewPartnerClientId o = some pid ↔
      Available o pid ∧ ∀ j, j < pid → ¬ Available o j := by
  have htest : ∀ i, ((o.partners i).objState != .inUse && (o.partners i).objState != .released) =
      true ↔ (o.partners i).objState ≠ .inUse ∧ (o.partners i).objState ≠ .released := by
    intro i
    rw [Bool.and_eq_true, bne_iff_ne, bne_iff_ne]
  unfold getNewPartnerClientId
  rw [firstFrom_eq_some_iff, htest]
  constructor
  · rintro ⟨-, hlt, hpid, hfirst⟩
    refine ⟨⟨by omega, hpid⟩, ?_⟩
    rintro j hj ⟨-, havail⟩
    have hfalse := hfirst j (Nat.zero_le j) hj
    rw [(htest j).mpr havail] at hfalse
    exact Bool.noConfusion hfalse
  · rintro ⟨⟨hlt, hpid⟩, hfirst⟩
    refine ⟨Nat.zero_le pid, by omega, hpid, ?_⟩
    intro j _ hj
    rw [← Bool.not_eq_true, htest]
    exact fun havail => hfirst j hj ⟨by omega, havail⟩

/-- The partner that a command destroys; the `k` command knows no other than 0. -/
def destroys : Op → Option Nat
  | .removePartner pid => if pid = 0 then some pid else none
  | _ => none

end ClientDaemon

/-- The client with its live partners. -/
structure TrackedClient where
  daemon : ClientDaemon
  live : Nat → Bool
  pcCount : Int

namespace TrackedClient

open ClientDaemon

def init : TrackedClient := ⟨.boot, fun _ => false, 0⟩

/-- The live partners after a command. -/
def liveAfter (g : TrackedClient) : ClientDaemon.Op → Nat → Bool
  | .makePartner _ _ =>
    match getNewPartnerClientId g.daemon.objects with
    | some pid => Function.update g.live pid true
    | none => g.live
  | op =>
    match destroys op with
    | some pid => Function.update g.live pid false
    | none => g.live

def pcCountAfter (g : TrackedClient) : ClientDaemon.Op → Int
  | .makePartner _ _ => g.pcCount + 1
  | op => if (destroys op).isSome = true then g.pcCount - 1 else g.pcCount

/-- `partner_client_obj_create` stops the daemon. -/
def Full (g : TrackedClient) : ClientDaemon.Op → Prop
  | .makePartner _ _ => maxPartners ≤ g.pcCount
  | _ => False

instance instDecidableFull (g : TrackedClient) : (op : ClientDaemon.Op) → Decidable (g.Full op)
  | .makePartner _ _ => inferInstanceAs (Decidable (_ ≤ _))
  | .makeRelation .. | .metadata .. | .startResync .. | .passBit .. | .pause .. | .resume ..
  | .complete .. | .removePartner .. | .removeRelation .. => isFalse id

def step (g : TrackedClient) (op : ClientDaemon.Op) : Option TrackedClient :=
  if g.Full op then none
  else (g.daemon.step op).map fun s => ⟨s, g.liveAfter op, g.pcCountAfter op⟩

/-! ### The discipline and its conditions -/

/-- The valid ids are those of the live partners. -/
def ValidRight (g : TrackedClient) : Prop :=
  ∀ pid : Int, isClientPartnerIdValid g.daemon.objects pid = true ↔
    ∃ i : Nat, pid = i ∧ g.live i = true

/-- The allocator has an id to give, and it is not live. -/
def AllocRight (g : TrackedClient) : ClientDaemon.Op → Prop
  | .makePartner _ _ =>
    ∃ pid, getNewPartnerClientId g.daemon.objects = some pid ∧ g.live pid = false
  | _ => True

/-- What the command removes is available again. -/
def FreedRight (g : TrackedClient) (op : ClientDaemon.Op) : Prop :=
  ∀ pid, destroys op = some pid → ∀ g', g.step op = some g' → Available g'.daemon.objects pid

/-- Some slot that is not live is available, and comes before those of the live partners that are
paused or resumed. -/
def Unblocked (g : TrackedClient) : ClientDaemon.Op → Prop
  | .makePartner _ _ =>
    ∃ i, Available g.daemon.objects i ∧ g.live i = false ∧
      ∀ j, j < i → g.live j = true → ¬ Available g.daemon.objects j
  | _ => True

/-- The command removes no live partner. -/
def Keeps (g : TrackedClient) (op : ClientDaemon.Op) : Prop :=
  ∀ pid, destroys op = some pid → g.live pid = false

/-! ### The invariant -/

/-- The ids, the operations tables and the connections tell the live partners. -/
structure Known (g : TrackedClient) : Prop where
  id_live : ∀ i, g.live i = true → (g.daemon.objects.partners i).id = i
  id_dead : ∀ i, g.live i = false → (g.daemon.objects.partners i).id = 0
  ops : g.daemon.partnerOps = g.live
  conn : ∀ i, g.live i = true → g.daemon.repConn i = true
  bound : ∀ i, g.live i = true → i < maxPartners

theorem Known.init : Known init where
  id_live := fun _ h => absurd h Bool.false_ne_true
  id_dead := fun _ _ => rfl
  ops := rfl
  conn := fun _ h => absurd h Bool.false_ne_true
  bound := fun _ h => absurd h Bool.false_ne_true

variable {s s' : ClientDaemon} {g g' : TrackedClient} {op : ClientDaemon.Op}

/-- What the commands that neither make nor remove a partner leave. -/
structure SameIds (s s' : ClientDaemon) : Prop where
  id : ∀ i, (s'.objects.partners i).id = (s.objects.partners i).id
  ops : s'.partnerOps = s.partnerOps
  conn : s'.repConn = s.repConn

theorem id_setPartnerState (o : Objects) (pid i : Nat) (st : PartnerObjState) :
    ((o.setPartnerState pid st).partners i).id = (o.partners i).id := by
  show (Function.update o.partners pid _ i).id = _
  by_cases hi : i = pid
  · rw [hi, Function.update_self]
  · rw [Function.update_of_ne hi]

theorem sameIds_makeRelation {pid role : Nat} {targetDisk : String} {h : HeaderSizes}
    {opened : Bool} (hs : s.makeRelation pid role targetDisk h opened = some s') :
    SameIds s s' := by
  unfold makeRelation at hs
  split at hs
  · rw [Option.ite_none_right_eq_some] at hs
    rw [← Option.some.inj hs.2]
    unfold prepareForReplication
    dsimp only
    split <;> split <;> exact ⟨fun _ => rfl, rfl, rfl⟩
  · rw [← Option.some.inj hs]
    exact ⟨fun _ => rfl, rfl, rfl⟩

theorem sameIds_metadata {pid : Nat} (hs : s.metadata pid = some s') : SameIds s s' := by
  unfold metadata at hs
  split at hs
  · rw [Option.ite_none_right_eq_some] at hs
    obtain ⟨-, hs⟩ := hs
    dsimp only at hs
    split at hs
    · rw [← Option.some.inj hs]
      exact ⟨fun i => id_setPartnerState _ pid i _, rfl, rfl⟩
    · rw [← Option.some.inj hs]
      exact ⟨fun _ => rfl, rfl, rfl⟩
  · rw [← Option.some.inj hs]
    exact ⟨fun _ => rfl, rfl, rfl⟩

theorem sameIds_complete {pid : Nat} (hs : s.replicationTerminate pid = some s') :
    SameIds s s' := by
  unfold replicationTerminate at hs
  split at hs
  · rw [Option.ite_none_right_eq_some] at hs
    rw [← Option.some.inj hs.2]
    exact ⟨fun i => id_setPartnerState _ pid i _, rfl, rfl⟩
  · rw [← Option.some.inj hs]
    exact ⟨fun _ => rfl, rfl, rfl⟩

theorem sameIds_removeRelation {rid : Nat} (hs : s.removeRelation rid = some s') :
    SameIds s s' := by
  unfold removeRelation at hs
  rw [Option.ite_none_right_eq_some] at hs
  rw [← Option.some.inj hs.2]
  exact ⟨fun _ => rfl, rfl, rfl⟩

theorem sameIds_pause (pid : Nat) : SameIds s (s.pause pid) := by
  unfold pause
  split
  · exact ⟨fun i => id_setPartnerState _ pid i _, rfl, rfl⟩
  · exact ⟨fun _ => rfl, rfl, rfl⟩

theorem sameIds_resume (pid : Nat) : SameIds s (s.resume pid) := by
  unfold resume
  split
  · exact ⟨fun i => id_setPartnerState _ pid i _, rfl, rfl⟩
  · exact ⟨fun _ => rfl, rfl, rfl⟩

theorem sameIds_startResync (pid bitPos : Nat) : SameIds s (s.startResync pid bitPos) := by
  unfold startResync
  split <;> exact ⟨fun _ => rfl, rfl, rfl⟩

theorem sameIds_passBit (pid bitPos : Nat) (copied : Bool) :
    SameIds s (s.passBit pid bitPos copied) :=
  ⟨fun _ => rfl, rfl, rfl⟩

theorem step_eq_some_iff :
    g.step op = some g' ↔
      ¬ g.Full op ∧ ∃ s, g.daemon.step op = some s ∧ ⟨s, g.liveAfter op, g.pcCountAfter op⟩ = g' := by
  unfold step
  rw [Option.ite_none_left_eq_some, Option.map_eq_some_iff]

theorem Known.same (h : Known g) (hs : SameIds g.daemon s) (n : Int) :
    Known ⟨s, g.live, n⟩ where
  id_live := fun i hi => (hs.id i).trans (h.id_live i hi)
  id_dead := fun i hi => (hs.id i).trans (h.id_dead i hi)
  ops := hs.ops.trans h.ops
  conn := fun i hi => by
    rw [hs.conn]
    exact h.conn i hi
  bound := h.bound

theorem Known.makePartner (h : Known g) {ip : String} {bandwidth : Nat}
    (hs : g.step (.makePartner ip bandwidth) = some g') : Known g' := by
  obtain ⟨-, s, hs', rfl⟩ := step_eq_some_iff.mp hs
  obtain ⟨pid, hpid, rfl⟩ := Option.map_eq_some_iff.mp hs'
  have hlive : g.liveAfter (.makePartner ip bandwidth) = Function.update g.live pid true := by
    unfold liveAfter
    rw [hpid]
  have hbound : pid < maxPartners := (getNewPartnerClientId_eq_some_iff.mp hpid).1.1
  have hold : ∀ i b, i ≠ pid → Function.update g.live pid true i = b → g.live i = b := by
    intro i b hne hi
    rwa [Function.update_of_ne hne] at hi
  rw [hlive]
  constructor
  · intro i hi
    show (Function.update g.daemon.objects.partners pid _ i).id = i
    by_cases heq : i = pid
    · rw [heq, Function.update_self]
    · rw [Function.update_of_ne heq]
      exact h.id_live i (hold i true heq hi)
  · intro i hi
    show (Function.update g.daemon.objects.partners pid _ i).id = 0
    by_cases heq : i = pid
    · dsimp only at hi
      rw [heq, Function.update_self] at hi
      exact Bool.noConfusion hi
    · rw [Function.update_of_ne heq]
      exact h.id_dead i (hold i false heq hi)
  · show Function.update g.daemon.partnerOps pid true = _
    rw [h.ops]
  · intro i hi
    show Function.update g.daemon.repConn pid true i = true
    by_cases heq : i = pid
    · rw [heq, Function.update_self]
    · rw [Function.update_of_ne heq]
      exact h.conn i (hold i true heq hi)
  · intro i hi
    by_cases heq : i = pid
    · rw [heq]
      exact hbound
    · exact h.bound i (hold i true heq hi)

theorem removePartner_partners {pid : Nat} (hpid : pid = 0)
    (hs : s.removePartner pid = some s') :
    s'.objects.partners = Function.update s.objects.partners pid ⟨0, .released, "", 0⟩ := by
  unfold ClientDaemon.removePartner at hs
  rw [if_pos hpid, Option.ite_none_right_eq_some] at hs
  rw [← Option.some.inj hs.2]
  dsimp only
  split <;> rfl

theorem Known.removePartner (h : Known g) {pid : Nat}
    (hs : g.step (.removePartner pid) = some g') : Known g' := by
  obtain ⟨-, s, hs', rfl⟩ := step_eq_some_iff.mp hs
  replace hs : g.daemon.removePartner pid = some s := hs'
  by_cases hpid : pid = 0
  · have hlive : g.liveAfter (.removePartner pid) = Function.update g.live pid false := by
      simp [liveAfter, destroys, hpid]
    have hold : ∀ i, Function.update g.live pid false i = true → i ≠ pid ∧ g.live i = true := by
      intro i hi
      by_cases heq : i = pid
      · rw [heq, Function.update_self] at hi
        exact absurd hi Bool.false_ne_true
      · rw [Function.update_of_ne heq] at hi
        exact ⟨heq, hi⟩
    have hpartners := removePartner_partners hpid hs
    unfold ClientDaemon.removePartner at hs
    rw [if_pos hpid, Option.ite_none_right_eq_some] at hs
    rw [hlive]
    constructor
    · intro i hi
      dsimp only
      rw [hpartners, Function.update_of_ne (hold i hi).1]
      exact h.id_live i (hold i hi).2
    · intro i hi
      dsimp only at hi ⊢
      rw [hpartners]
      by_cases heq : i = pid
      · rw [heq, Function.update_self]
      · rw [Function.update_of_ne heq]
        exact h.id_dead i (by rwa [Function.update_of_ne heq] at hi)
    · rw [← Option.some.inj hs.2, ← h.ops]
    · intro i hi
      rw [← Option.some.inj hs.2]
      exact h.conn i (hold i hi).2
    · exact fun i hi => h.bound i (hold i hi).2
  · have hlive : g.liveAfter (.removePartner pid) = g.live := by
      simp [liveAfter, destroys, hpid]
    unfold ClientDaemon.removePartner at hs
    rw [if_neg hpid] at hs
    rw [hlive, ← Option.some.inj hs]
    exact h.same ⟨fun _ => rfl, rfl, rfl⟩ _

theorem Known.step (h : Known g) (hs : g.step op = some g') : Known g' := by
  cases op with
  | makePartner ip bandwidth => exact h.makePartner hs
  | removePartner pid => exact h.removePartner hs
  | makeRelation pid role targetDisk hd opened =>
    obtain ⟨-, s, hs', rfl⟩ := step_eq_some_iff.mp hs
    exact h.same (sameIds_makeRelation hs') _
  | metadata pid =>
    obtain ⟨-, s, hs', rfl⟩ := step_eq_some_iff.mp hs
    exact h.same (sameIds_metadata hs') _
  | complete pid =>
    obtain ⟨-, s, hs', rfl⟩ := step_eq_some_iff.mp hs
    exact h.same (sameIds_complete hs') _
  | removeRelation rid =>
    obtain ⟨-, s, hs', rfl⟩ := step_eq_some_iff.mp hs
    exact h.same (sameIds_removeRelation hs') _
  | startResync pid bitPos =>
    obtain ⟨-, s, hs', rfl⟩ := step_eq_some_iff.mp hs
    rw [← Option.some.inj hs']
    exact h.same (sameIds_startResync pid bitPos) _
  | passBit pid bitPos copied =>
    obtain ⟨-, s, hs', rfl⟩ := step_eq_some_iff.mp hs
    rw [← Option.some.inj hs']
    exact h.same (sameIds_passBit pid bitPos copied) _
  | pause pid =>
    obtain ⟨-, s, hs', rfl⟩ := step_eq_some_iff.mp hs
    rw [← Option.some.inj hs']
    exact h.same (sameIds_pause pid) _
  | resume pid =>
    obtain ⟨-, s, hs', rfl⟩ := step_eq_some_iff.mp hs
    rw [← Option.some.inj hs']
    exact h.same (sameIds_resume pid) _

/-! ### The three parts -/

/-- Id 0 is in every slot that is not in use, so it has to belong to a partner. -/
theorem Known.validRight_iff (h : Known g) : g.ValidRight ↔ g.live 0 = true := by
  have hvalid : ∀ pid : Int, isClientPartnerIdValid g.daemon.objects pid = true ↔
      ∃ k, k < maxPartners ∧ ((g.daemon.objects.partners k).id : Int) = pid := by
    intro pid
    unfold isClientPartnerIdValid
    rw [firstFrom_isSome_iff]
    simp
  constructor
  · intro hright
    have hzero : (g.daemon.objects.partners 0).id = 0 := by
      cases hlive : g.live 0 with
      | true => exact h.id_live 0 hlive
      | false => exact h.id_dead 0 hlive
    obtain ⟨i, hi, hlive⟩ := (hright 0).mp ((hvalid 0).mpr ⟨0, by decide, by rw [hzero]; rfl⟩)
    have hi0 : i = 0 := by omega
    rwa [hi0] at hlive
  · intro hzero pid
    rw [hvalid pid]
    constructor
    · rintro ⟨k, -, hk⟩
      cases hlive : g.live k with
      | true => exact ⟨k, by rw [← hk, h.id_live k hlive], hlive⟩
      | false => exact ⟨0, by rw [← hk, h.id_dead k hlive], hzero⟩
    · rintro ⟨i, hi, hlive⟩
      exact ⟨i, h.bound i hlive, by rw [h.id_live i hlive, hi]⟩

theorem allocRight_iff : g.AllocRight op ↔ g.Unblocked op := by
  cases op with
  | makePartner ip bandwidth =>
    constructor
    · rintro ⟨pid, hpid, hlive⟩
      obtain ⟨havail, hfirst⟩ := getNewPartnerClientId_eq_some_iff.mp hpid
      exact ⟨pid, havail, hlive, fun j hj _ => hfirst j hj⟩
    · rintro ⟨i, havail, hlive, hbefore⟩
      -- the first available slot is `i` or comes before it
      have hex : ∃ k, Available g.daemon.objects k := ⟨i, havail⟩
      have hle : Nat.find hex ≤ i := Nat.find_min' hex havail
      refine ⟨Nat.find hex, getNewPartnerClientId_eq_some_iff.mpr
        ⟨Nat.find_spec hex, fun j hj => Nat.find_min hex hj⟩, ?_⟩
      obtain heq | hlt := Nat.eq_or_lt_of_le hle
      · rwa [heq]
      · by_contra hnot
        exact hbefore _ hlt (by simpa using hnot) (Nat.find_spec hex)
  | _ => exact Iff.rfl

/-- A removed slot is `RELEASED`, which the allocator skips. -/
theorem Known.freedRight_iff (h : Known g) : g.FreedRight op ↔ g.Keeps op := by
  cases op with
  | removePartner pid =>
    unfold FreedRight Keeps destroys
    by_cases hpid : pid = 0
    · simp only [if_pos hpid, Option.some_inj, forall_eq']
      constructor
      · intro hfreed
        by_contra hnot
        have hlive : g.live pid = true := by simpa using hnot
        have hconn : g.daemon.repConn pid = true ∧ g.daemon.partnerOps pid = true :=
          ⟨h.conn pid hlive, by rw [h.ops, hlive]⟩
        have hsome : (g.daemon.removePartner pid).isSome = true := by
          unfold ClientDaemon.removePartner
          rw [if_pos hpid, if_pos hconn]
          rfl
        obtain ⟨s, hs⟩ := Option.isSome_iff_exists.mp hsome
        have hstep := step_eq_some_iff.mpr ⟨(id : ¬ g.Full (.removePartner pid)), s, hs, rfl⟩
        have havail := (hfreed _ hstep).2.2
        dsimp only at havail
        rw [removePartner_partners hpid hs, Function.update_self] at havail
        exact havail rfl
      · intro hlive g' hs
        obtain ⟨-, s, hs', -⟩ := step_eq_some_iff.mp hs
        replace hs' : g.daemon.removePartner pid = some s := hs'
        unfold ClientDaemon.removePartner at hs'
        rw [if_pos hpid, Option.ite_none_right_eq_some] at hs'
        rw [h.ops, hlive] at hs'
        exact absurd hs'.1.2 Bool.false_ne_true
    · simp [if_neg hpid]
  | _ => simp [FreedRight, Keeps, destroys]

/-! ### Runs -/

theorem known_of_run {ops : List ClientDaemon.Op} (hr : run step init ops = some g) : Known g :=
  run_inv (fun _ _ _ h _ hs => h.step hs) Known.init (meets_true _ ops) hr

/-- **The discipline of the ids.** From any state that the client reaches, and for any further
commands: the valid ids are the live partners at every command if and only if partner 0 is live at
each; every make gets an id that is not live if and only if, at each, some slot that is not live is
available and comes before those of the live partners that are paused or resumed; and what is
removed is available again if and only if no live partner is removed. -/
theorem discipline_iff {before : List ClientDaemon.Op} (hr : run step init before = some g)
    (ops : List ClientDaemon.Op) :
    (Meets step (fun g _ => g.ValidRight) g ops ↔ Meets step (fun g _ => g.live 0 = true) g ops) ∧
      (Meets step AllocRight g ops ↔ Meets step Unblocked g ops) ∧
        (Meets step FreedRight g ops ↔ Meets step Keeps g ops) := by
  have hknown := known_of_run hr
  refine ⟨?_, ?_, ?_⟩
  · exact meets_congr hknown (fun _ _ _ h hs => h.step hs) fun _ _ h => h.validRight_iff
  · exact meets_congr hknown (fun _ _ _ h hs => h.step hs) fun _ _ _ => allocRight_iff
  · exact meets_congr hknown (fun _ _ _ h hs => h.step hs) fun _ _ h => h.freedRight_iff

/-- A partner whose resync was paused at bit 1. -/
def paused : List ClientDaemon.Op :=
  [.makePartner "10.0.0.2" 100, .metadata 0, .startResync 0 0, .passBit 0 1 true, .pause 0]

/-- With the partner made, paused and then removed by further commands. -/
theorem discipline_paused :
    ∃ g, run step init paused = some g ∧
      (Meets step (fun g _ => g.ValidRight) g [.resume 0, .removePartner 0] ↔
        Meets step (fun g _ => g.live 0 = true) g [.resume 0, .removePartner 0]) ∧
      (Meets step AllocRight g [.resume 0, .removePartner 0] ↔
        Meets step Unblocked g [.resume 0, .removePartner 0]) ∧
      (Meets step FreedRight g [.resume 0, .removePartner 0] ↔
        Meets step Keeps g [.resume 0, .removePartner 0]) := by
  have hsome : (run step init paused).isSome = true := by decide +kernel
  obtain ⟨g, hg⟩ := Option.isSome_iff_exists.mp hsome
  exact ⟨g, hg, discipline_iff hg _⟩

/-- Id 0 is valid before there is a partner, a second partner gets the id of a paused one, and a
removed partner's slot stays taken. -/
theorem discipline_fails :
    (¬ ∀ ops, Meets step (fun g _ => g.ValidRight) init ops) ∧
      (¬ ∀ ops, Meets step AllocRight init ops) ∧ ¬ ∀ ops, Meets step FreedRight init ops := by
  refine ⟨?_, ?_, ?_⟩
  · intro hall
    have hright : ValidRight init := (hall [.metadata 0]).1
    obtain ⟨i, -, hlive⟩ := (hright 0).mp (by decide)
    exact Bool.noConfusion hlive
  · intro hall
    have hrun : (run step init paused).map
        (fun g => (getNewPartnerClientId g.daemon.objects, g.live 0)) = some (some 0, true) := by
      decide +kernel
    obtain ⟨g, hg, heq⟩ := Option.map_eq_some_iff.mp hrun
    rw [Prod.mk.injEq] at heq
    have hmeets := hall (paused ++ [.makePartner "10.0.0.3" 100])
    obtain ⟨pid, hpid, hlive⟩ := meets_last hmeets hg
    rw [heq.1] at hpid
    rw [← Option.some.inj hpid, heq.2] at hlive
    exact Bool.noConfusion hlive
  · intro hall
    have hrun : (run step init ([.makePartner "10.0.0.2" 100] ++ [.removePartner 0])).map
        (fun g => decide (Available g.daemon.objects 0)) = some false := by decide +kernel
    obtain ⟨g, hg, heq⟩ := Option.map_eq_some_iff.mp hrun
    obtain ⟨g1, hg1, hlast⟩ := run_snoc_some.mp hg
    exact absurd (meets_last (hall _) hg1 0 rfl g hlast) (of_decide_eq_false heq)

end TrackedClient

end Ebdr
