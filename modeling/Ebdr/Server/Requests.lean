import Ebdr.Server.Enabled

/-!
# Requests are answered on the connection they came from

A handler is given the descriptor its header came from, and does not use it: it sends to
`all_partner_servers[pid].socket_fd`, and closes what it finds in the slot, with the `pid` that the
header names. `Answered` is what a client can expect of a step; it holds when the slot is bound to
the header's own connection (`RequestOk`).

`Apart` is about one client and the others: its headers name its own slots only, and theirs other
slots only. `Harmless` says that its headers do not stop the daemon. Two runs that differ in that
client's messages then look the same to the others.
-/

namespace Ebdr

open Lts

namespace NetServer

/-! ### The property -/

/-- The number names no connection but `c`. -/
def Owns (s : NetServer) (num : Int) (c : Nat) : Prop := ∀ d ∈ s.net.peer num, d = c

instance (s : NetServer) (num : Int) (c : Nat) : Decidable (s.Owns num c) :=
  inferInstanceAs (Decidable (∀ d ∈ s.net.peer num, d = c))

/-- The partner is bound to another connection than `c`. -/
def BoundElsewhere (s : NetServer) (c q : Nat) : Prop := ¬ s.Owns (s.net.socketFd q).num c

/-- What a step on the connection `c` sends goes there, and the partners that are bound to other
connections keep their sockets, states and bitmap rounds. -/
structure AnswersOn (c : Nat) (s s' : NetServer) : Prop where
  sent : ∃ rs, s'.sent = s.sent ++ rs ∧ ∀ r ∈ rs, r.conn = c
  others : SameSlots {q | s.BoundElsewhere c q} s s'
  sock : ∀ q, s.BoundElsewhere c q →
    s'.net.sock (s'.net.socketFd q).num = s.net.sock (s.net.socketFd q).num

end NetServer

/-- The opcode is `DATA`. -/
def ServerHeader.isData : ServerHeader → Bool
  | .data .. => true
  | _ => false

namespace NetServer

/-- The handler of a header, and each later step of it, answer on the header's connection. -/
def Answered (s : NetServer) : Event → Prop
  | .recv t c hdr io => ∀ s', s.step (.recv t c hdr io) = some s' → AnswersOn c s s'
  | .goOn t io => ∀ tail ∈ s.net.rest t, ∀ c ∈ tail.conn?, ∀ s',
    s.step (.goOn t io) = some s' → AnswersOn c s s'
  | _ => True

/-! ### Its condition -/

/-- The handler changes nothing and sends nothing. -/
def Idle (s : NetServer) (io : Io) : ServerHeader → Prop
  | .ack _ => True
  | .data pid _ _ => s.ioState pid = .released
  | .rplcTermination pid => (s.daemon.objects.partners pid).objState = .released
  | .rmRelation rid => (s.daemon.objects.relations rid).objState = .released
  | .dataReq _ | .verifyData _ => io.sendOk = false
  | .bitmapMetadata _ | .makePartner .. | .removePartner _ | .syn _ => False

instance (s : NetServer) (io : Io) (hdr : ServerHeader) : Decidable (s.Idle io hdr) := by
  unfold Idle
  split <;> infer_instance

instance (s : NetServer) (io : Io) (hdr : ServerHeader) : Decidable (s.Fails io hdr) := by
  unfold Fails
  split <;> infer_instance

/-- The slot of the header is inside the tables, and bound to the connection it came from or to none;
and so is the descriptor that the handler closes when it fails. -/
def HeaderOk (s : NetServer) (c : Nat) (hdr : ServerHeader) (io : Io) : Prop :=
  hdr.pid < maxPartners ∧
    (s.Idle io hdr ∨
      (s.Owns (s.net.socketFd hdr.pid).num c ∧
        (s.Fails io hdr → s.Owns (s.net.conn hdr.pid).connFd.num c)))

instance (s : NetServer) (c : Nat) (hdr : ServerHeader) (io : Io) : Decidable (s.HeaderOk c hdr io) :=
  inferInstanceAs (Decidable (_ ∧ (_ ∨ _)))

instance (s : NetServer) (pid : Nat) (ph : Phase) : Decidable (s.FlipsOwn pid ph) :=
  match ph with
  | .copying _ _ true => inferInstanceAs (Decidable (_ ∨ _))
  | .copying _ _ false | .idle | .created | .indexed | .gotUser _ | .loaded | .clearing .. =>
    isTrue trivial

instance (s : NetServer) (pid : Nat) (ph : Phase) : Decidable (s.UsesOwn pid ph) :=
  match ph with
  | .indexed => inferInstanceAs (Decidable (_ = _))
  | .copying half k flip => inferInstanceAs (Decidable (s.FlipsOwn pid (.copying half k flip)))
  | .idle | .created | .gotUser _ | .loaded | .clearing .. => isTrue trivial

/-- In the later steps the slot is still bound to no other connection, and the flip finds its own
index. -/
def RequestOk (s : NetServer) : Event → Prop
  | .recv _ c hdr io => s.HeaderOk c hdr io
  | .goOn t _ => ∀ tail ∈ s.net.rest t,
    (∀ c ∈ tail.conn?, s.Owns (s.net.socketFd tail.pid).num c) ∧
    ∀ ph ∈ tail.phase?, s.FlipsOwn tail.pid ph
  | _ => True

instance (s : NetServer) (e : Event) : Decidable (s.RequestOk e) :=
  match e with
  | .recv _ c hdr io => inferInstanceAs (Decidable (s.HeaderOk c hdr io))
  | .goOn t _ => inferInstanceAs (Decidable (∀ tail ∈ s.net.rest t, _ ∧ _))
  | .accept _ | .start _ | .recvFails _ | .recoveryPass _ | .createDisk .. | .saveIoctl
  | .restoreIoctl | .write .. => isTrue trivial

variable {s s' u u' : NetServer} {t c pid : Nat} {io : Io} {hdr : ServerHeader}

theorem idle_handle (hi : s.Idle io hdr) (h : s.handle t c io hdr = some s') : s' = s := by
  cases hdr with
  | ack pid => exact (Option.some.inj h).symm
  | data pid currPos chunkPos =>
    rw [← Option.some.inj h]
    exact if_pos hi
  | rplcTermination pid =>
    have hsame : s.terminate t c pid = some s := if_neg (not_not.mpr hi)
    exact Option.some.inj (h.symm.trans hsame)
  | rmRelation rid =>
    obtain ⟨d, hd, rfl⟩ := Option.map_eq_some_iff.mp h
    have hrel : { s.daemon.objects.relations rid with objState := .released } =
        s.daemon.objects.relations rid := by
      rw [← show (s.daemon.objects.relations rid).objState = .released from hi]
    have hobj : s.daemon.objects.setRelationState rid .released = s.daemon.objects := by
      unfold Objects.setRelationState Objects.setRelation
      rw [hrel, Function.update_eq_self]
    unfold ServerDaemon.removeRelation at hd
    rw [hobj] at hd
    split at hd
    · rw [← Option.some.inj hd]
    · cases hd
  | dataReq pid | verifyData pid =>
    have hsend : s.canSend pid io = false := by
      unfold canSend
      rw [show io.sendOk = false from hi]
      rfl
    simp only [handle] at h
    split at h
    · rw [← Option.some.inj h]
      unfold send
      rw [hsend]
      rfl
    · cases h
  | bitmapMetadata pid | makePartner pid destIp bandwidth disk sizes | removePartner pid | syn pid =>
    exact hi.elim

theorem Handled.answersOn {closes : Set Int} (hh : Handled t pid closes s s')
    (hown : s.Owns (s.net.socketFd pid).num c) (hcloses : ∀ n ∈ closes, s.Owns n c) :
    AnswersOn c s s' where
  sent := by
    obtain ⟨rs, hrs, hto⟩ := hh.sent
    exact ⟨rs, hrs, fun r hr => hown r.conn (hto r hr)⟩
  others := hh.slots _ fun helse => helse hown
  sock := by
    intro q hq
    have hfd := (hh.slots {q | s.BoundElsewhere c q} fun helse => helse hown).socketFd hq
    rw [← hfd]
    rcases hh.sock (s.net.socketFd q).num with heq | ⟨-, hn⟩
    · exact heq
    · exact absurd (hcloses _ hn) hq

theorem AnswersOn.refl (c : Nat) (s : NetServer) : AnswersOn c s s :=
  ⟨⟨[], (List.append_nil _).symm, nofun⟩, SameSlots.refl s, fun _ _ => rfl⟩

theorem handled_goOn {tail : Tail} (hc : c ∈ tail.conn?)
    (hindex : ∀ ph ∈ tail.phase?, s.FlipsOwn tail.pid ph) (h : s.goOn t io tail = some s') :
    Handled t tail.pid {Fd.closed.num} s s' := by
  cases tail with
  | readFailed d pid =>
    rw [← Option.some.inj h]
    have hdropped : Handled t pid {Fd.closed.num} s
        { s with
          net := { s.net.dropConnFd pid with
            partnerCreated := Function.update s.net.partnerCreated pid false
            rest := Function.update s.net.rest t none } } := by
      refine ⟨fun q hq => ?_, rfl, rfl, rfl, rfl, rfl, rfl, rfl, fun v hv => ?_, fun _ => .inl rfl,
        sent_same rfl⟩
      · exact { SameSlots.refl s with
          conn := eqOn_update_right (Set.eqOn_refl _ _) hq
          partnerCreated := eqOn_update_right (Set.eqOn_refl _ _) hq }
      · exact Function.update_of_ne hv _ _
    refine hdropped.trans rfl rfl (handled_sendChunk _ _ fun _ => ?_)
    simp [Net.dropConnFd, Net.setConn]
  | sendFailed d pid =>
    rw [← Option.some.inj h]
    refine ⟨fun q hq => ?_, rfl, rfl, rfl, rfl, rfl, rfl, rfl, fun v hv => ?_, fun _ => .inl rfl,
      sent_same rfl⟩
    · exact { SameSlots.refl s with conn := eqOn_update_right (Set.eqOn_refl _ _) hq }
    · exact Function.update_of_ne hv _ _
  | recvFailed pid => cases hc
  | running d pid ph => exact handled_runPhase (hindex ph rfl) h

/-! ### Numbers -/

/-- Open descriptors have positive numbers. -/
def OpenPos (s : NetServer) : Prop := ∀ n x, s.net.sock n = some x → 0 < n

theorem openPos_boot (daemon : ServerDaemon) (recoveryMode : Nat → Bool) (round : Nat → BitmapRound) :
    OpenPos (boot daemon recoveryMode round) := by
  intro n x h
  have h' : (if n = Fd.listen.num then some Fd.listen.conn else none) = some x := h
  split at h'
  · rename_i hn
    rw [hn]
    decide
  · cases h'

theorem openPos_step {e : Event} (hi : OpenPos s) (h : s.step e = some s') : OpenPos s' := by
  intro n x hx
  by_cases hacc : ∃ m, e = .accept m
  · obtain ⟨m, rfl⟩ := hacc
    have hstep := acceptStep_of_step h
    rw [hstep.sock] at hx
    by_cases hn : n = m
    · simp only [step, acceptConn] at h
      split at h
      · rename_i hguard
        rw [hn]
        exact hguard.1
      · cases h
    · rw [Function.update_of_ne hn] at hx
      exact hi n x hx
  · obtain ⟨hsock, -⟩ := step_sock h fun m heq => hacc ⟨m, heq⟩
    rcases hsock n with heq | hnone
    · exact hi n x (heq.symm.trans hx)
    · rw [hnone] at hx
      cases hx

theorem OpenPos.peer_closed (hi : OpenPos s) : s.net.peer Fd.closed.num = none := by
  unfold Net.peer
  cases hx : s.net.sock Fd.closed.num with
  | none => rfl
  | some x => exact absurd (hi _ x hx) (by decide)

/-- **One step.** A step that meets the condition answers on its connection. -/
theorem answered_of_ok {e : Event} (hi : OpenPos s) (hok : s.RequestOk e) : s.Answered e := by
  cases e with
  | recv t c hdr io =>
    intro s' h
    simp only [step] at h
    split at h
    · rcases hok.2 with hidle | ⟨hown, hfails⟩
      · rw [idle_handle (s := { s with net := { s.net with
          last := Function.update s.net.last t (some hdr) } }) hidle h]
        exact ⟨⟨[], (List.append_nil _).symm, by simp⟩, { SameSlots.refl s with }, fun _ _ => rfl⟩
      · have hh := handled_handle h
        have hans := hh.answersOn (c := c) hown (by
          rintro n (rfl | ⟨hf, rfl⟩)
          · exact hown
          · exact hfails hf)
        exact ⟨hans.sent, { hans.others with }, hans.sock⟩
    · cases h
  | goOn t io =>
    intro tail htail c hc s' h
    obtain ⟨tail', htail', hgo⟩ := Option.bind_eq_some_iff.mp h
    obtain rfl : tail' = tail := Option.some.inj (htail'.symm.trans htail)
    obtain ⟨hown, hindex⟩ := hok tail' htail
    refine (handled_goOn hc hindex hgo).answersOn (hown c hc) ?_
    rintro n rfl d hd
    rw [hi.peer_closed] at hd
    cases hd
  | _ => trivial

/-! ### Two runs -/

/-- The messages of the client, and what its threads do. -/
def Client.hidden (cl : Client) : Event → Bool
  | .recv t _ _ _ | .recvFails t | .goOn t _ => cl.conns t
  | _ => false

/-- The rows that an accept loads leave the others' partners, and it makes the choice that `choice`
has for its connection; the threads and headers of the client keep to its connections and slots, and
those of the others to theirs. -/
def Apart (cl : Client) (choice : Nat → Choice) (s : NetServer) : Event → Prop
  | .accept _ => s.reload.choose = choice s.net.nextConn ∧ ∀ q < s.numRows, cl.slots q = false →
    s.reload.daemon.objects.partners q = s.daemon.objects.partners q
  | .recv t c hdr io => cl.conns c = cl.conns t ∧
    (cl.slots hdr.pid = cl.conns t ∨ (cl.conns t = true ∧ s.Idle io hdr))
  | .recvFails t => ∀ hdr ∈ s.net.last t, hdr.isData = true → cl.slots hdr.pid = cl.conns t ∧
    (cl.conns t = true → ∀ d ∈ s.net.peer (s.net.conn hdr.pid).connFd.num, cl.conns d = true)
  | .goOn t _ => ∀ tail ∈ s.net.rest t, cl.slots tail.pid = cl.conns t ∧
    (∀ c ∈ tail.conn?, cl.conns c = cl.conns t) ∧
    (cl.conns t = true → tail.conn? = none → cl.conns (s.net.sendRecvTid tail.pid) = true) ∧
    (cl.conns t = false → ∀ ph ∈ tail.phase?, s.UsesOwn tail.pid ph)
  | _ => True

/-- The accepts and the client's steps can come, and do not stop the daemon. -/
def Harmless (cl : Client) (s : NetServer) (e : Event) : Prop :=
  cl.own e = true → s.Possible e ∧ s.Survives e

instance (cl : Client) (s : NetServer) (e : Event) : Decidable (Harmless cl s e) :=
  inferInstanceAs (Decidable (_ → _))

instance (cl : Client) (choice : Nat → Choice) (s : NetServer) (e : Event) :
    Decidable (Apart cl choice s e) :=
  match e with
  | .accept _ => inferInstanceAs (Decidable (_ ∧ _))
  | .recv .. => inferInstanceAs (Decidable (_ ∧ (_ ∨ _ ∧ _)))
  | .recvFails t => inferInstanceAs (Decidable (∀ hdr ∈ s.net.last t, _ → _ ∧ _))
  | .goOn t _ => inferInstanceAs (Decidable (∀ tail ∈ s.net.rest t, _ ∧ _ ∧ _ ∧ _))
  | .start _ | .recoveryPass _ | .createDisk .. | .saveIoctl | .restoreIoctl | .write .. =>
    isTrue trivial

variable {cl : Client} {choice : Nat → Choice}

theorem SameView.after (h : SameView cl s s') (h' : SameView cl s' u)
    (hcreated : ∀ v k, u.net.thread v = some (.created k) → s'.net.thread v = some (.created k)) :
    SameView cl s u where
  toSameSlots := h.toSameSlots.trans h'.toSameSlots
  saved := h.saved.trans h'.saved
  shared := h.shared.trans h'.shared
  entry := h.entry.trans h'.entry
  nextConn := h.nextConn.trans h'.nextConn
  sendRecvTid := h.sendRecvTid.trans h'.sendRecvTid
  thread := h.thread.trans h'.thread
  rest := h.rest.trans h'.rest
  last := h.last.trans h'.last
  created := fun v k k' hk hk' => h.created v k k' hk (hcreated v k' hk')
  peer := fun n x hx => (h.peer n x hx).trans (h'.peer n x hx)
  sent := h.sent.trans h'.sent

theorem Client.not_other {cl : Client} {x : Nat} (hx : cl.conns x = true) : x ∉ cl.otherConns := by
  intro hother
  rw [show cl.conns x = false from hother] at hx
  cases hx

theorem sameView_last (hdr : ServerHeader) (ht : cl.conns t = true) :
    SameView cl s { s with net := { s.net with last := Function.update s.net.last t (some hdr) } } :=
  { SameView.refl s with last := eqOn_update_right (Set.eqOn_refl _ _) (Client.not_other ht) }

theorem handled_recvFails {currPos chunkPos : Nat}
    (hlast : s.net.last t = some (.data pid currPos chunkPos)) :
    Handled t pid {(s.net.conn pid).connFd.num} s (s.recvFails t) := by
  unfold recvFails
  rw [hlast]
  refine ⟨fun q hq => ?_, rfl, rfl, rfl, rfl, rfl, rfl, rfl, fun v hv => ?_, fun n => ?_,
    sent_same rfl⟩
  · exact { SameSlots.refl s with
      conn := eqOn_update_right (Set.eqOn_refl _ _) hq
      partnerCreated := eqOn_update_right (Set.eqOn_refl _ _) hq }
  · exact Function.update_of_ne hv _ _
  · by_cases hn : n = (s.net.conn pid).connFd.num
    · exact .inr ⟨hn ▸ Function.update_self _ _ _, hn⟩
    · exact .inl (Function.update_of_ne hn _ _)

theorem recvFails_sent (t : Nat) : (s.recvFails t).sent = s.sent := by
  unfold recvFails
  split <;> rfl

theorem recvFails_other (hno : ∀ pid currPos chunkPos, s.net.last t ≠ some (.data pid currPos chunkPos)) :
    s.recvFails t = { s with net := { s.net with thread := Function.update s.net.thread t none } } := by
  unfold recvFails
  split
  · rename_i hlast
    exact absurd hlast (hno _ _ _)
  · rfl

theorem sameView_thread (ht : cl.conns t = true) :
    SameView cl s { s with net := { s.net with thread := Function.update s.net.thread t none } } :=
  { SameView.refl s with
    thread := eqOn_update_right (Set.eqOn_refl _ _) (Client.not_other ht)
    created := fun v k k' hk hk' =>
      (@SameView.refl cl s).created v k k' hk (created_update_none hk') }

/-- **Hidden steps.** A step of the client changes nothing for the others. -/
theorem SameView.hidden {e : Event} (h : SameView cl s s') (hpos : OpenPos s') (hok : s'.RequestOk e)
    (hapart : Apart cl choice s' e) (hhidden : cl.hidden e = true) (hs : s'.step e = some u) :
    SameView cl s u := by
  cases e with
  | recv t c hdr io =>
    have ht : cl.conns t = true := hhidden
    obtain ⟨hc, hslot⟩ := hapart
    have hlast := h.after (sameView_last hdr ht) fun _ _ hv => hv
    simp only [step] at hs
    split at hs
    · by_cases hidle : s'.Idle io hdr
      · rw [idle_handle (s := { s' with net := { s'.net with
          last := Function.update s'.net.last t (some hdr) } }) hidle hs]
        exact hlast
      · obtain ⟨hown, hfails⟩ := hok.2.resolve_left hidle
        have hp : cl.slots hdr.pid = true :=
          (hslot.resolve_right fun hno => hidle hno.2).trans ht
        have hmine : ∀ n, s'.Owns n c → ∀ d ∈ s'.net.peer n, cl.conns d = true := by
          intro n hn d hd
          rw [hn d hd, hc]
          exact ht
        have hh := handled_handle hs
        refine hlast.after (hh.sameView ht hp (.inr (hmine _ hown)) ?_) fun v k hv => ?_
        · rintro n (rfl | ⟨hf, rfl⟩)
          · exact hmine _ hown
          · exact hmine _ (hfails hf)
        · rwa [hh.thread] at hv
    · cases hs
  | recvFails t =>
    have ht : cl.conns t = true := hhidden
    simp only [step] at hs
    split at hs
    · split at hs
      · rw [← Option.some.inj hs]
        by_cases hdata : ∃ pid currPos chunkPos, s'.net.last t = some (.data pid currPos chunkPos)
        · obtain ⟨pid, currPos, chunkPos, hlast⟩ := hdata
          obtain ⟨hslot, hclose⟩ := hapart _ hlast rfl
          have hh := handled_recvFails hlast
          refine h.after (hh.sameView ht (hslot.trans ht) ?_ ?_) fun v k hv => ?_
          · exact .inl (recvFails_sent t)
          · rintro n rfl
            exact hclose ht
          · rwa [hh.thread] at hv
        · rw [recvFails_other fun pid currPos chunkPos hl => hdata ⟨pid, currPos, chunkPos, hl⟩]
          exact h.after (sameView_thread ht) fun v k hv => created_update_none hv
      · cases hs
    · cases hs
  | goOn t io =>
    have ht : cl.conns t = true := hhidden
    obtain ⟨tail, htail, hgo⟩ := Option.bind_eq_some_iff.mp hs
    obtain ⟨hslot, hconn, hcancel, -⟩ := hapart tail htail
    cases hc : tail.conn? with
    | some c =>
      obtain ⟨howns, hindex⟩ := hok tail htail
      have hh := handled_goOn hc hindex hgo
      have hown := howns c hc
      refine h.after (hh.sameView ht (hslot.trans ht) (.inr ?_) ?_) fun v k hv => ?_
      · intro d hd
        rw [hown d hd, hconn c hc]
        exact ht
      · rintro n rfl d hd
        rw [hpos.peer_closed] at hd
        cases hd
      · rwa [hh.thread] at hv
    | none =>
      cases tail with
      | readFailed c pid | sendFailed c pid | running c pid ph => cases hc
      | recvFailed pid =>
        rw [← Option.some.inj hgo]
        have hp : pid ∉ cl.otherSlots := by
          intro hother
          exact Client.not_other ht (hslot.symm.trans hother)
        have hcancelled := Client.not_other (hcancel ht rfl)
        have hnot := Client.not_other ht
        refine h.after (?_ : SameView cl s' _) fun v k hv =>
          created_update_none (created_update_none hv)
        exact { SameView.refl s' with
          conn := eqOn_update_right (Set.eqOn_refl _ _) hp
          sockRecovery := eqOn_update_right (Set.eqOn_refl _ _) hp
          partnerCreated := eqOn_update_right (Set.eqOn_refl _ _) hp
          rest := eqOn_update_right (eqOn_update_right (Set.eqOn_refl _ _) hcancelled) hnot
          thread := eqOn_update_right (eqOn_update_right (Set.eqOn_refl _ _) hcancelled) hnot
          created := fun v k k' hk hk' => (@SameView.refl cl s').created v k k' hk
            (created_update_none (created_update_none hk')) }
  | _ => cases hhidden

/-- A slot that both servers have bound to no connection but `c`. -/
theorem SameView.peer_eq (h : SameView cl s s') (hp : pid ∈ cl.otherSlots) (hc : c ∈ cl.otherConns)
    (ho : s.Owns (s.net.socketFd pid).num c) (ho' : s'.Owns (s'.net.socketFd pid).num c) :
    s.net.peer (s.net.socketFd pid).num = s'.net.peer (s'.net.socketFd pid).num := by
  rw [← h.socketFd hp] at ho' ⊢
  apply Option.ext
  intro d
  constructor
  · intro hd
    obtain rfl := ho d hd
    exact (h.peer _ d hc).mp hd
  · intro hd
    obtain rfl := ho' d hd
    exact (h.peer _ d hc).mpr hd

theorem SameView.idle_iff (h : SameView cl s s') (hp : hdr.pid ∈ cl.otherSlots) :
    s.Idle io hdr ↔ s'.Idle io hdr := by
  cases hdr with
  | data pid currPos chunkPos =>
    have hio : s.ioState pid = s'.ioState pid := h.ioState hp
    exact iff_of_eq (congrArg (fun x => x = IoObjState.released) hio)
  | rplcTermination pid =>
    have hpartner : s.daemon.objects.partners pid = s'.daemon.objects.partners pid :=
      h.daemon.partners hp
    exact iff_of_eq (congrArg (fun x : Partner => x.objState = .released) hpartner)
  | rmRelation rid =>
    have hrel : s.daemon.objects.relations rid = s'.daemon.objects.relations rid :=
      h.daemon.relations hp
    exact iff_of_eq (congrArg (fun x : Relation => x.objState = .released) hrel)
  | _ => exact Iff.rfl

theorem SameView.recv (h : SameView cl s s') (hc : c ∈ cl.otherConns)
    (hp : hdr.pid ∈ cl.otherSlots) (hok : s.HeaderOk c hdr io) (hok' : s'.HeaderOk c hdr io)
    (hs : s.step (.recv t c hdr io) = some u) (hs' : s'.step (.recv t c hdr io) = some u') :
    SameView cl u u' := by
  have hlast : SameView cl
      { s with net := { s.net with last := Function.update s.net.last t (some hdr) } }
      { s' with net := { s'.net with last := Function.update s'.net.last t (some hdr) } } :=
    { h with last := eqOn_update h.last fun _ => rfl }
  simp only [step] at hs hs'
  split at hs
  · split at hs'
    · by_cases hidle : s.Idle io hdr
      · have hidle' := (h.idle_iff hp).mp hidle
        rw [idle_handle (s := { s with net := { s.net with
            last := Function.update s.net.last t (some hdr) } }) hidle hs,
          idle_handle (s := { s' with net := { s'.net with
            last := Function.update s'.net.last t (some hdr) } }) hidle' hs']
        exact hlast
      · have hidle' : ¬ s'.Idle io hdr := fun hi => hidle ((h.idle_iff hp).mpr hi)
        have hpeer := h.peer_eq hp hc (hok.2.resolve_left hidle).1 (hok'.2.resolve_left hidle').1
        exact hlast.handle hp hpeer hs hs'
    · cases hs'
  · cases hs

theorem SameView.recvFails (h : SameView cl s s') (ht : t ∈ cl.otherConns)
    (hp : ∀ hdr ∈ s.net.last t, hdr.isData = true → hdr.pid ∈ cl.otherSlots) :
    SameView cl (s.recvFails t) (s'.recvFails t) := by
  unfold NetServer.recvFails
  rw [← h.last ht]
  split
  · rename_i pid currPos chunkPos hlast
    have hp : pid ∈ cl.otherSlots := hp _ hlast rfl
    have hfd : s.net.conn pid = s'.net.conn pid := h.conn hp
    exact { h with
      conn := eqOn_update h.conn fun _ => by
        dsimp only [Net.close]
        rw [hfd]
      partnerCreated := eqOn_update h.partnerCreated fun _ => rfl
      rest := eqOn_update h.rest fun _ => rfl
      peer := by
        intro n x hx
        have hclosed : (s.net.close (s.net.conn pid).connFd).peer n = some x ↔
            (s'.net.close (s'.net.conn pid).connFd).peer n = some x := by
          rw [peer_close_iff, peer_close_iff, hfd, h.peer n x hx]
        exact hclosed }
  · exact { h with
      thread := eqOn_update h.thread fun _ => rfl
      created := fun v k k' hk hk' =>
        h.created v k k' (created_update_none hk) (created_update_none hk') }

theorem SameView.goOn {tail : Tail} (h : SameView cl s s') (hp : tail.pid ∈ cl.otherSlots)
    (hpeer : ∀ c ∈ tail.conn?, s.net.peer (s.net.socketFd tail.pid).num =
      s'.net.peer (s'.net.socketFd tail.pid).num)
    (hi : ∀ ph ∈ tail.phase?, s.UsesOwn tail.pid ph)
    (hi' : ∀ ph ∈ tail.phase?, s'.UsesOwn tail.pid ph)
    (hs : s.goOn t io tail = some u) (hs' : s'.goOn t io tail = some u') : SameView cl u u' := by
  have hconn : s.net.conn tail.pid = s'.net.conn tail.pid := h.conn hp
  cases tail with
  | readFailed c pid =>
    rw [← Option.some.inj hs, ← Option.some.inj hs']
    have hdropped : SameView cl
        { s with
          net := { s.net.dropConnFd pid with
            partnerCreated := Function.update s.net.partnerCreated pid false
            rest := Function.update s.net.rest t none } }
        { s' with
          net := { s'.net.dropConnFd pid with
            partnerCreated := Function.update s'.net.partnerCreated pid false
            rest := Function.update s'.net.rest t none } } :=
      { h with
        conn := eqOn_update h.conn fun _ => congrArg (fun x => { x with connFd := .closed }) hconn
        partnerCreated := eqOn_update h.partnerCreated fun _ => rfl
        rest := eqOn_update h.rest fun _ => rfl }
    exact hdropped.sendChunk hp (hpeer c rfl) _
  | sendFailed c pid =>
    rw [← Option.some.inj hs, ← Option.some.inj hs']
    exact { h with
      conn := eqOn_update h.conn fun _ => congrArg (fun x => { x with connFd := .closed }) hconn
      rest := eqOn_update h.rest fun _ => rfl }
  | recvFailed pid =>
    rw [← Option.some.inj hs, ← Option.some.inj hs', ← h.sendRecvTid]
    exact { h with
      conn := eqOn_update h.conn fun _ => congrArg (fun x => { x with objState := .pause }) hconn
      sockRecovery := eqOn_update h.sockRecovery fun _ => rfl
      partnerCreated := eqOn_update h.partnerCreated fun _ => rfl
      rest := eqOn_update (eqOn_update h.rest fun _ => rfl) fun _ => rfl
      thread := eqOn_update (eqOn_update h.thread fun _ => rfl) fun _ => rfl
      created := fun v k k' hk hk' => h.created v k k'
        (created_update_none (created_update_none hk))
        (created_update_none (created_update_none hk')) }
  | running c pid ph => exact h.runPhase hp (hi ph rfl) (hi' ph rfl) (hpeer c rfl) hs hs'

/-- The rows leave the others' partners: so do the slots past the rows. -/
theorem reload_partners {q : Nat} (hrows : ∀ q < s.numRows, cl.slots q = false →
    s.reload.daemon.objects.partners q = s.daemon.objects.partners q) (hq : q ∈ cl.otherSlots) :
    s.reload.daemon.objects.partners q = s.daemon.objects.partners q := by
  by_cases hlt : q < s.numRows
  · exact hrows q hlt hq
  · have hfetch : s.reload.daemon.objects.partners q =
        fetchRows Partner.scan 0 s.daemon.db.livePartners s.daemon.objects.partners q := rfl
    have hnone : fetched s.daemon.db.livePartners q = none := by
      rw [fetched_eq, List.getElem?_eq_none (Nat.not_lt.mp hlt)]
    rw [hfetch, fetchRows_zero, hnone]
    rfl

theorem SameView.accepted (h : SameView cl s s') (n : Int)
    (hrows : ∀ q < s.numRows, cl.slots q = false →
      s.reload.daemon.objects.partners q = s.daemon.objects.partners q)
    (hrows' : ∀ q < s'.numRows, cl.slots q = false →
      s'.reload.daemon.objects.partners q = s'.daemon.objects.partners q) :
    SameView cl (s.accepted n) (s'.accepted n) :=
  { h with
    daemon := { h.daemon with
      partners := by
        intro q hq
        exact (reload_partners hrows hq).trans
          ((h.daemon.partners hq).trans (reload_partners hrows' hq).symm) }
    shared := by
      dsimp only [NetServer.accepted, reload]
      rw [h.shared, h.nextConn]
    nextConn := congrArg (· + 1) h.nextConn
    peer := by
      intro m x hx
      have hold := h.peer m x hx
      unfold Net.peer at hold ⊢
      dsimp only [NetServer.accepted, reload]
      rw [h.nextConn]
      by_cases hm : m = n
      · rw [hm, Function.update_self, Function.update_self]
      · rwa [Function.update_of_ne hm, Function.update_of_ne hm] }

theorem SameView.applyChoice (h : SameView cl s s') (fd : Fd) (ch : Choice) :
    SameView cl (s.applyChoice fd ch) (s'.applyChoice fd ch) := by
  cases ch with
  | first =>
    exact { h with
      partnerCreated := eqOn_update h.partnerCreated fun _ => rfl
      entry := by
        dsimp only [NetServer.applyChoice]
        rw [h.entry] }
  | resume pid =>
    exact { h with
      conn := eqOn_update h.conn fun _ => by rw [h.shared]
      socketFd := eqOn_update h.socketFd fun _ => rfl
      sockRecovery := eqOn_update h.sockRecovery fun _ => rfl
      entry := by
        dsimp only [NetServer.applyChoice]
        rw [h.entry] }
  | recover pid =>
    exact { h with
      conn := eqOn_update h.conn fun _ => h.shared
      socketFd := eqOn_update h.socketFd fun _ => rfl
      entry := by
        dsimp only [NetServer.applyChoice]
        rw [h.entry]
      daemon := { h.daemon with
        partners := eqOn_update h.daemon.partners fun hp => by rw [h.daemon.partners hp] } }
  | full pid | unmatched pid => exact h
  | create pid =>
    exact { h with partnerCreated := eqOn_update h.partnerCreated fun _ => rfl }

theorem SameView.createThread (h : SameView cl s s') (fd : Fd) (k : Nat) :
    SameView cl (s.createThread fd k) (s'.createThread fd k) :=
  { h with
    entry := by
      dsimp only [NetServer.createThread]
      rw [h.entry]
    sendRecvTid := by
      dsimp only [NetServer.createThread]
      rw [h.sendRecvTid]
    thread := eqOn_update h.thread fun _ => rfl
    created := by
      intro v j j' hj hj'
      dsimp only [NetServer.createThread] at hj hj'
      by_cases hv : v = fd.conn
      · rw [hv, Function.update_self] at hj hj'
        exact SendRecvThread.created.inj (Option.some.inj (hj.symm.trans hj'))
      · rw [Function.update_of_ne hv] at hj hj'
        exact h.created v j j' hj hj' }

theorem SameView.accept (h : SameView cl s s') {n : Int} (hapart : Apart cl choice s (.accept n))
    (hapart' : Apart cl choice s' (.accept n)) (hs : s.acceptConn n = some u)
    (hs' : s'.acceptConn n = some u') : SameView cl u u' := by
  obtain ⟨hch, hrows⟩ := hapart
  obtain ⟨hch', hrows'⟩ := hapart'
  unfold acceptConn at hs hs'
  split at hs
  · split at hs'
    · rw [← Option.some.inj hs, ← Option.some.inj hs', choose_accepted, choose_accepted, hch, hch',
        ← h.nextConn]
      have hacc := h.accepted n hrows hrows'
      exact (hacc.applyChoice _ _).createThread _ _
    · cases hs'
  · cases hs

theorem SameView.startThread (h : SameView cl s s') {k k' : Nat}
    (ht : s.net.thread t = some (.created k)) (ht' : s'.net.thread t = some (.created k')) :
    SameView cl (s.startThread t k) (s'.startThread t k') := by
  obtain rfl := h.created t k k' ht ht'
  unfold NetServer.startThread
  dsimp only
  rw [← h.entry]
  exact { h with
    conn := eqOn_update h.conn fun hp => by rw [h.conn hp]
    thread := eqOn_update h.thread fun _ => rfl
    created := by
      intro v j j' hj hj'
      by_cases hv : v = t
      · rw [hv] at hj
        simp at hj
      · dsimp only at hj hj'
        rw [Function.update_of_ne hv] at hj hj'
        exact h.created v j j' hj hj' }

theorem sameView_recoveryPass (hp : pid ∉ cl.otherSlots) : SameView cl s (s.recoveryPass pid) := by
  have hdisks := eqOn_update_right (Set.eqOn_refl s.daemon.objects.disks cl.otherSlots) hp
    (v := { s.daemon.objects.disks pid with objState := .resume })
  have hfd := eqOn_update_right (Set.eqOn_refl s.net.socketFd cl.otherSlots) hp
    (v := (s.net.conn pid).sockFd)
  unfold NetServer.recoveryPass
  dsimp only
  split
  · split
    · exact { SameView.refl s with
        socketFd := hfd
        daemon := { ServerDaemon.SameSlots.refl s.daemon with disks := hdisks } }
    · exact { SameView.refl s with socketFd := hfd }
  · split
    · exact { SameView.refl s with
        daemon := { ServerDaemon.SameSlots.refl s.daemon with disks := hdisks } }
    · exact SameView.refl s

theorem recoveryPass_thread (s : NetServer) (pid : Nat) :
    (s.recoveryPass pid).net.thread = s.net.thread := by
  unfold NetServer.recoveryPass
  dsimp only
  split <;> rfl

theorem SameView.recoveryPass (h : SameView cl s s') :
    SameView cl (s.recoveryPass pid) (s'.recoveryPass pid) := by
  by_cases hp : pid ∈ cl.otherSlots
  · have hdisks := h.daemon.setDiskState hp .resume
    have hfd := eqOn_update (p := pid) h.socketFd
      fun _ => congrArg EbdrConn.sockFd (h.conn hp)
    unfold NetServer.recoveryPass
    dsimp only
    rw [← h.conn hp, ← h.daemon.disks hp]
    rw [← h.conn hp] at hfd
    split
    · split
      · exact { h with
          socketFd := hfd
          daemon := { h.daemon with disks := hdisks } }
      · exact { h with socketFd := hfd }
    · split
      · exact { h with daemon := { h.daemon with disks := hdisks } }
      · exact h
  · have hright := h.after (sameView_recoveryPass hp) fun v k hv => by
      rwa [recoveryPass_thread] at hv
    have hboth := hright.symm.after (sameView_recoveryPass (s := s) hp) fun v k hv => by
      rwa [recoveryPass_thread] at hv
    exact hboth.symm

/-- **Visible steps.** What the others do has the same effect on both servers. -/
theorem SameView.visible {e : Event} (h : SameView cl s s') (hok : s.RequestOk e)
    (hok' : s'.RequestOk e) (hapart : Apart cl choice s e) (hapart' : Apart cl choice s' e)
    (hvisible : cl.hidden e = false) (hs : s.step e = some u) (hs' : s'.step e = some u') :
    SameView cl u u' := by
  cases e with
  | accept n => exact h.accept hapart hapart' hs hs'
  | start t =>
    simp only [step] at hs hs'
    split at hs
    · rename_i k ht
      split at hs'
      · rename_i k' ht'
        rw [← Option.some.inj hs, ← Option.some.inj hs']
        exact h.startThread ht ht'
      · cases hs'
    · cases hs
  | recv t c hdr io =>
    have ht : cl.conns t = false := hvisible
    obtain ⟨hc, hslot⟩ := hapart
    have hp : cl.slots hdr.pid = false := by
      rcases hslot with hslot | ⟨hmine, -⟩
      · exact hslot.trans ht
      · rw [ht] at hmine
        cases hmine
    exact h.recv (hc.trans ht) hp hok hok' hs hs'
  | recvFails t =>
    have ht : cl.conns t = false := hvisible
    simp only [step] at hs hs'
    split at hs
    · split at hs
      · split at hs'
        · split at hs'
          · rw [← Option.some.inj hs, ← Option.some.inj hs']
            exact h.recvFails ht fun hdr hlast hdata => (hapart hdr hlast hdata).1.trans ht
          · cases hs'
        · cases hs'
      · cases hs
    · cases hs
  | goOn t io =>
    have ht : cl.conns t = false := hvisible
    obtain ⟨tail, htail, hgo⟩ := Option.bind_eq_some_iff.mp hs
    obtain ⟨tail', htail', hgo'⟩ := Option.bind_eq_some_iff.mp hs'
    obtain rfl : tail = tail' := by
      rw [h.rest ht] at htail
      exact Option.some.inj (htail.symm.trans htail')
    obtain ⟨hslot, hconn, -, hindex⟩ := hapart tail htail
    obtain ⟨-, -, -, hindex'⟩ := hapart' tail htail'
    have hp : tail.pid ∈ cl.otherSlots := hslot.trans ht
    have hpeer : ∀ c ∈ tail.conn?, s.net.peer (s.net.socketFd tail.pid).num =
        s'.net.peer (s'.net.socketFd tail.pid).num := fun c hc =>
      h.peer_eq hp ((hconn c hc).trans ht) ((hok tail htail).1 c hc) ((hok' tail htail').1 c hc)
    exact h.goOn hp hpeer (hindex ht) (hindex' ht) hgo hgo'
  | recoveryPass pid =>
    rw [← Option.some.inj hs, ← Option.some.inj hs']
    exact h.recoveryPass
  | createDisk name size =>
    obtain ⟨d, hd, rfl⟩ := Option.map_eq_some_iff.mp hs
    obtain ⟨d', hd', rfl⟩ := Option.map_eq_some_iff.mp hs'
    exact { h with daemon := h.daemon.createDisk hd hd' }
  | saveIoctl =>
    simp only [step] at hs hs'
    split at hs
    · split at hs'
      · rw [← Option.some.inj hs, ← Option.some.inj hs']
        exact { h with saved := rfl }
      · cases hs'
    · cases hs
  | restoreIoctl =>
    obtain ⟨index, -, rfl⟩ := Option.map_eq_some_iff.mp hs
    obtain ⟨index', -, rfl⟩ := Option.map_eq_some_iff.mp hs'
    exact { h with saved := rfl }
  | write pid b =>
    rw [← Option.some.inj hs, ← Option.some.inj hs']
    exact { h with round := eqOn_update h.round fun hp => by rw [h.round hp] }

/-- What the others do does not stop the second server either. -/
theorem SameView.visible_isSome {e : Event} (h : SameView cl s s')
    (hapart : Apart cl choice s e) (hapart' : Apart cl choice s' e) (hharmless : Harmless cl s' e)
    (hs : s.step e = some u) : (s'.step e).isSome := by
  rw [step_isSome_iff]
  cases hown : cl.own e with
  | true => exact hharmless hown
  | false =>
    obtain ⟨hposs, hsurv⟩ := step_isSome_iff.mp (Option.isSome_of_eq_some hs)
    have hposs' : s'.Possible e := by
      apply h.possible hown _ hposs
      rintro t c hdr io rfl
      exact hapart.1.trans hown
    refine ⟨hposs', ?_⟩
    cases e with
    | recv t c hdr io =>
      have ht : cl.conns t = false := hown
      have hp : cl.slots hdr.pid = false := by
        rcases hapart.2 with hslot | ⟨hmine, -⟩
        · exact hslot.trans ht
        · rw [ht] at hmine
          cases hmine
      exact h.hasObjects hp hsurv
    | goOn t io =>
      have ht : cl.conns t = false := hown
      intro tail htail' ph hph
      have htail : tail ∈ s.net.rest t := (h.rest ht).trans htail'
      obtain ⟨hslot, -, -, hindex⟩ := hapart tail htail
      obtain ⟨-, -, -, hindex'⟩ := hapart' tail htail'
      exact h.runsOn (hslot.trans ht) (hindex ht ph hph) (hindex' ht ph hph)
        (hsurv tail htail ph hph)
    | createDisk name size =>
      intro hroom
      have hcount := h.daemon.dsCount
      rw [← hcount] at hroom ⊢
      exact hsurv hroom
    | _ => trivial

theorem SameView.hidden_isSome {e : Event} (h : SameView cl s s') (hpos : OpenPos s')
    (hok : s'.RequestOk e) (hapart : Apart cl choice s' e) (hharmless : Harmless cl s' e)
    (hhidden : cl.hidden e = true) : ∃ u, s'.step e = some u ∧ SameView cl s u := by
  have hown : cl.own e = true := by
    cases e <;> first | exact hhidden | cases hhidden
  obtain ⟨u, hu⟩ := Option.isSome_iff_exists.mp (step_isSome_iff.mpr (hharmless hown))
  exact ⟨u, hu, h.hidden hpos hok hapart hhidden hu⟩

/-! ### Whole runs -/

/-- The bytes a connection gets. -/
def repliesTo (s : NetServer) (c : Nat) : List Reply := s.sent.filter fun r => r.conn = c

theorem SameView.repliesTo (h : SameView cl s s') (hc : cl.conns c = false) :
    s.repliesTo c = s'.repliesTo c := by
  have hpart : ∀ v : NetServer,
      v.repliesTo c = (cl.otherReplies v.sent).filter fun r => r.conn = c := by
    intro v
    unfold NetServer.repliesTo Client.otherReplies
    rw [List.filter_filter]
    apply List.filter_congr
    intro r _
    by_cases hr : r.conn = c
    · simp [hr, hc]
    · simp [hr]
  rw [hpart, hpart, h.sent]

variable {daemon : ServerDaemon} {recoveryMode : Nat → Bool} {round : Nat → BitmapRound}

/-- What both runs meet at each step. -/
def KeepsApart (cl : Client) (choice : Nat → Choice) (s : NetServer) (e : Event) : Prop :=
  s.RequestOk e ∧ Apart cl choice s e ∧ Harmless cl s e

instance (cl : Client) (choice : Nat → Choice) (s : NetServer) (e : Event) :
    Decidable (KeepsApart cl choice s e) :=
  inferInstanceAs (Decidable (_ ∧ _ ∧ _))

end NetServer

end Ebdr
